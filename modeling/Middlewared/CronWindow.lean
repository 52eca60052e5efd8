import Middlewared.Dict
import Middlewared.Enumeration
import Middlewared.ExceptRules
import Middlewared.ValidationErrors

/-!
# Schedules within a time interval

Whether a schedule fires within an interval of the day is found out by looking at its next 1440
firing times.
-/

namespace Middlewared

open List

/-- `Str` attributes hold texts, `begin` and `end` hold times of the day, in
seconds. -/
inductive CronValue where
  | text (value : String)
  | time (second : ℕ)

inductive CronFailure where
  | validationErrors (errors : List VerrorEntry)
  | badDate
deriving DecidableEq

abbrev CronSchedule := Dict String CronValue

/-- The constructor `croniter(expression)` together with the `get_next` of what
it returns, which takes the time from which to look. -/
abbrev Croniter := String → Except String (ℕ → Option ℕ)

structure Cron where
  name : String
  attrs : List (String × (CronValue → List VerrorEntry))
  begin_end : Bool

namespace Cron

/-- `CRON_FIELDS`, also `Cron.FIELDS`. -/
def cronFields : List String :=
  ["minute", "hour", "dom", "month", "dow"]

def slashText : String := "Only range or `*` are allowed before `/`"

def mismatchText : String :=
  "Specified schedule does not match specified time interval"

def beginAfterEndText : String :=
  "Begin time should be less than or equal to end time"

/-- `[0-9]+` -/
def isNumber (text : List Char) : Bool :=
  text ≠ [] && text.all Char.isDigit

/-- `[0-9]+-[0-9]+` -/
def isRange (text : List Char) : Bool :=
  match text.dropWhile Char.isDigit with
  | '-' :: last => text.takeWhile Char.isDigit ≠ [] && isNumber last
  | _ => false

/-- `$` also matches before a line break at the end. -/
def dropLineBreak (text : List Char) : List Char :=
  if text.getLast? = some '\n' then text.dropLast else text

/-- `re.match(r'^(\*|[0-9]+-[0-9]+)/([0-9]+)$', value)` -/
def isStep (value : List Char) : Bool :=
  let text := dropLineBreak value
  let range := text.takeWhile (· ≠ '/')
  match text.dropWhile (· ≠ '/') with
  | '/' :: step => (range = ['*'] || isRange range) && isNumber step
  | _ => false

def fieldAllowed (value : String) : Bool :=
  !value.toList.contains '/' || isStep value.toList

/-- `schedule.get(field) or '*'` -/
def fieldValue (schedule : CronSchedule) (field : String) : CronValue :=
  match schedule.get? field with
  | none => .text "*"
  | some (.text value) => if value = "" then .text "*" else .text value
  | some (.time second) => .time second

/-- The loop over `CRON_FIELDS`.  A time is not something to look for `/` in. -/
def expressionOf (schedule : CronSchedule) :
    List String → String → Except String String
  | [], expression => .ok expression
  | field :: fields, expression =>
    match fieldValue schedule field with
    | .time _ => .error "argument of type 'datetime.time' is not iterable"
    | .text value =>
      if fieldAllowed value then
        expressionOf schedule fields (expression ++ value ++ " ")
      else .error slashText

def croniterForSchedule (croniter : Croniter) (schedule : CronSchedule) :
    Except String (ℕ → Option ℕ) := do
  let expression ← expressionOf schedule cronFields ""
  croniter expression

def timeOfDay (t : ℕ) : ℕ := t % 86400

def timeAt (schedule : CronSchedule) (key : String) : Option ℕ :=
  match schedule.get? key with
  | some (.time second) => some second
  | _ => none

/-- `begin <= d.time() <= end`, from midnight to 23:59 where nothing is
given. -/
def inInterval (schedule : CronSchedule) (t : ℕ) : Bool :=
  (timeAt schedule "begin").getD 0 ≤ timeOfDay t && timeOfDay t ≤ (timeAt schedule "end").getD 86340

def beginAfterEnd (schedule : CronSchedule) : Bool :=
  match timeAt schedule "begin", timeAt schedule "end" with
  | some first, some last => !(first ≤ last)
  | _, _ => false

def hasInterval (schedule : CronSchedule) : Bool :=
  (timeAt schedule "begin").isSome || (timeAt schedule "end").isSome

def attrErrors (self : Cron) (schedule : CronSchedule) : List VerrorEntry :=
  self.attrs.flatMap fun attr =>
    match schedule.get? attr.1 with
    | none => []
    | some value => addChild self.name (attr.2 value)

def unexpectedErrors (self : Cron) (schedule : CronSchedule) :
    List VerrorEntry :=
  schedule.keys.flatMap fun key =>
    if self.begin_end && (key == "begin" || key == "end") then []
    else errorIf (!cronFields.contains key) self.name ("Unexpected " ++ key ++ " value")

/-- The loop over `range(24 * 60)`, from `now` on. -/
def intervalErrors (self : Cron) (next : ℕ → Option ℕ) (now : ℕ)
    (schedule : CronSchedule) : Except CronFailure (List VerrorEntry) :=
  if hasInterval schedule then
    match scan (inInterval schedule) next (24 * 60) now with
    | none => .error .badDate
    | some found => .ok (errorIf (!found) self.name mismatchText)
  else .ok []

def check (errors : List VerrorEntry) : Except CronFailure Unit :=
  (raiseErrors errors).mapError .validationErrors

def orderErrors (self : Cron) (schedule : CronSchedule) : List VerrorEntry :=
  errorIf (beginAfterEnd schedule) self.name beginAfterEndText

def syntaxError (self : Cron) (text : String) : VerrorEntry :=
  (self.name, "Please ensure fields match cron syntax - " ++ text)

def validate (self : Cron) (croniter : Croniter) (now : ℕ) :
    Option CronSchedule → Except CronFailure Unit
  | none => .ok ()
  | some schedule => do
    check (self.attrErrors schedule ++ self.unexpectedErrors schedule)
    match croniterForSchedule croniter schedule with
    | .error text =>
      check (self.syntaxError text :: self.orderErrors schedule)
    | .ok next => do
      let errors ← self.intervalErrors next now schedule
      check (self.orderErrors schedule ++ errors)

/-! ## What the check should find out -/

def fieldText : CronValue → String
  | .text value => value
  | .time _ => ""

/-- The expression that `croniter` is given if no field is refused before. -/
def cronExpression (schedule : CronSchedule) : String :=
  cronFields.foldl (fun expression field =>
      expression ++ fieldText (fieldValue schedule field) ++ " ") ""

def FieldAllowed : CronValue → Prop
  | .text value => fieldAllowed value
  | .time _ => False

instance : DecidablePred FieldAllowed
  | .text value => inferInstanceAs (Decidable (fieldAllowed value = true))
  | .time _ => instDecidableFalse

def FieldsAllowed (schedule : CronSchedule) : Prop :=
  ∀ field ∈ cronFields, FieldAllowed (fieldValue schedule field)

def FiresInInterval (schedule : CronSchedule) (firings : Set ℕ) : Prop :=
  ∃ t ∈ firings, inInterval schedule t

def ReportsMismatch (self : Cron) (croniter : Croniter) (now : ℕ)
    (schedule : CronSchedule) : Prop :=
  ∃ errors, self.validate croniter now (some schedule) = .error (.validationErrors errors) ∧
    (self.name, mismatchText) ∈ errors

structure IntervalExact (cron : Cron) (croniter : Croniter) (now : ℕ)
    (schedule : CronSchedule) (firings : Set ℕ) : Prop where
  raises : ∀ failure, cron.validate croniter now (some schedule) = .error failure →
        ∃ errors, failure = .validationErrors errors
  reported : cron.ReportsMismatch croniter now schedule ↔ ¬FiresInInterval schedule firings

/-- The next 1440 firing times are there, unless one within the interval comes
before, and one within the interval is among them if there is any. -/
def DecidedEarly (schedule : CronSchedule) (firings : Set ℕ) (now : ℕ) : Prop :=
  (∃ t ∈ later firings now, inInterval schedule t ∧ (between firings now t).ncard < 24 * 60) ∨
  (¬FiresInInterval schedule firings ∧ ((24 * 60 : ℕ) : ℕ∞) ≤ (later firings now).encard)

variable {self : Cron} {croniter : Croniter} {now : ℕ}
  {schedule : CronSchedule} {next : ℕ → Option ℕ} {firings : Set ℕ}

theorem expressionOf_of_allowed {fields : List String}
    (hallowed : ∀ field ∈ fields, FieldAllowed (fieldValue schedule field))
    (expression : String) :
    expressionOf schedule fields expression = .ok (fields.foldl (fun expression field =>
          expression ++ fieldText (fieldValue schedule field) ++ " ")
        expression) := by
  induction fields generalizing expression with
  | nil => rfl
  | cons field fields ih =>
    have hfield := hallowed field mem_cons_self
    have hrest := ih fun other hother =>
      hallowed other (mem_cons_of_mem field hother)
    rw [expressionOf, foldl_cons]
    cases hvalue : fieldValue schedule field with
    | time second => simp [FieldAllowed, hvalue] at hfield
    | text value =>
      rw [hvalue] at hfield
      simp only [FieldAllowed] at hfield
      simp only [hfield, if_true, fieldText]
      exact hrest _

theorem expressionOf_of_refused {fields : List String}
    (hrefused : ¬∀ field ∈ fields, FieldAllowed (fieldValue schedule field))
    (expression : String) :
    ∃ text, expressionOf schedule fields expression = .error text := by
  induction fields generalizing expression with
  | nil => simp at hrefused
  | cons field fields ih =>
    rw [expressionOf]
    cases hvalue : fieldValue schedule field with
    | time second => exact ⟨_, rfl⟩
    | text value =>
      cases hfield : fieldAllowed value with
      | false => exact ⟨slashText, by simp [hfield]⟩
      | true =>
        have hrest : ¬∀ other ∈ fields, FieldAllowed (fieldValue schedule other) := by
          intro hall
          apply hrefused
          intro other hother
          rcases List.mem_cons.mp hother with heq | hother
          · rw [heq, hvalue]
            exact hfield
          · exact hall other hother
        simp only [hfield, if_true]
        exact ih hrest _

theorem check_nil : check [] = .ok () := rfl

theorem check_eq_error_iff {errors : List VerrorEntry} {failure : CronFailure} :
    check errors = .error failure ↔ errors ≠ [] ∧ failure = .validationErrors errors := by
  unfold check raiseErrors
  split <;> simp [Except.mapError, *, eq_comm]

theorem mem_of_check {errors : List VerrorEntry} {entry : VerrorEntry} :
    (∃ reported, check errors = .error (.validationErrors reported) ∧
      entry ∈ reported) ↔ entry ∈ errors := by
  constructor
  · intro hraised
    obtain ⟨reported, herror, hmem⟩ := hraised
    have hreported := (check_eq_error_iff.mp herror).2
    cases hreported
    exact hmem
  · intro hmem
    exact ⟨errors, check_eq_error_iff.mpr ⟨ne_nil_of_mem hmem, rfl⟩, hmem⟩

theorem mismatch_notMem_orderErrors : (self.name, mismatchText) ∉ self.orderErrors schedule := by
  unfold orderErrors
  cases beginAfterEnd schedule <;> simp [errorIf, mismatchText, beginAfterEndText]

theorem mismatch_ne_syntaxError (text : String) :
    (self.name, mismatchText) ≠ self.syntaxError text := by
  intro heq
  have hfirst := congrArg (fun entry => entry.2.toList.head?) heq
  simp [mismatchText, syntaxError] at hfirst

theorem validate_eq (hattrs : self.attrErrors schedule = [])
    (hkeys : self.unexpectedErrors schedule = []) :
    self.validate croniter now (some schedule) =
      match croniterForSchedule croniter schedule with
      | .error text =>
        check (self.syntaxError text :: self.orderErrors schedule)
      | .ok next =>
        self.intervalErrors next now schedule >>= fun errors =>
          check (self.orderErrors schedule ++ errors) := by
  simp only [validate, hattrs, hkeys, append_nil, check_nil, ok_bind]

theorem croniterForSchedule_eq_next (hallowed : FieldsAllowed schedule)
    (haccepted : croniter (cronExpression schedule) = .ok next) :
    croniterForSchedule croniter schedule = .ok next := by
  unfold croniterForSchedule
  rw [expressionOf_of_allowed hallowed, ok_bind]
  exact haccepted

theorem intervalExact_iff_of_refused (hattrs : self.attrErrors schedule = [])
    (hkeys : self.unexpectedErrors schedule = [])
    (hrefused : ¬FieldsAllowed schedule) :
    IntervalExact self croniter now schedule firings ↔ FiresInInterval schedule firings := by
  obtain ⟨text, htext⟩ := expressionOf_of_refused hrefused ""
  have hvalidate : self.validate croniter now (some schedule) =
        check (self.syntaxError text :: self.orderErrors schedule) := by
    rw [validate_eq hattrs hkeys, croniterForSchedule, htext, error_bind]
  have hreports : ¬self.ReportsMismatch croniter now schedule := by
    unfold ReportsMismatch
    rw [hvalidate, mem_of_check, mem_cons, not_or]
    exact ⟨mismatch_ne_syntaxError text, mismatch_notMem_orderErrors⟩
  constructor
  · intro hexact
    by_contra hnone
    exact hreports (hexact.reported.mpr hnone)
  · intro hfires
    have hraises : ∀ failure, self.validate croniter now (some schedule) = .error failure →
          ∃ errors, failure = .validationErrors errors := by
      intro failure hfailure
      rw [hvalidate] at hfailure
      exact ⟨_, (check_eq_error_iff.mp hfailure).2⟩
    exact ⟨hraises, iff_of_false hreports (not_not_intro hfires)⟩

theorem intervalExact_iff_scan (hattrs : self.attrErrors schedule = [])
    (hkeys : self.unexpectedErrors schedule = [])
    (hnext : croniterForSchedule croniter schedule = .ok next)
    (hinterval : hasInterval schedule) :
    IntervalExact self croniter now schedule firings ↔ ∃ found,
        scan (inInterval schedule) next (24 * 60) now = some found ∧
        (found = true ↔ FiresInInterval schedule firings) := by
  have hvalidate : self.validate croniter now (some schedule) =
        (self.intervalErrors next now schedule >>= fun errors =>
          check (self.orderErrors schedule ++ errors)) := by
    rw [validate_eq hattrs hkeys, hnext]
  cases hscan : scan (inInterval schedule) next (24 * 60) now with
  | none =>
    have hraised : self.validate croniter now (some schedule) = .error .badDate := by
      rw [hvalidate, intervalErrors, if_pos hinterval, hscan, error_bind]
    constructor
    · intro hexact
      obtain ⟨errors, herrors⟩ := hexact.raises .badDate hraised
      cases herrors
    · intro hfound
      obtain ⟨found, hfound, _⟩ := hfound
      cases hfound
  | some found =>
    have hchecked : self.validate croniter now (some schedule) = check (self.orderErrors schedule ++
          errorIf (!found) self.name mismatchText) := by
      rw [hvalidate, intervalErrors, if_pos hinterval, hscan, ok_bind]
    have hreports : self.ReportsMismatch croniter now schedule ↔ found = false := by
      unfold ReportsMismatch
      rw [hchecked, mem_of_check, mem_append, or_iff_right mismatch_notMem_orderErrors]
      cases found <;> simp [errorIf]
    have hraises : ∀ failure, self.validate croniter now (some schedule) = .error failure →
          ∃ errors, failure = .validationErrors errors := by
      intro failure hfailure
      rw [hchecked] at hfailure
      exact ⟨_, (check_eq_error_iff.mp hfailure).2⟩
    constructor
    · intro hexact
      have hiff := hreports.symm.trans hexact.reported
      cases found
      · simpa using hiff
      · simpa using hiff
    · intro hfound
      obtain ⟨other, heq, hiff⟩ := hfound
      cases heq
      refine ⟨hraises, hreports.trans ?_⟩
      rw [← hiff, Bool.not_eq_true]

theorem decidedEarly_iff_scan (hnext : Enumerates firings next) : (∃ found,
    scan (inInterval schedule) next (24 * 60) now = some found ∧
    (found = true ↔ FiresInInterval schedule firings)) ↔
    DecidedEarly schedule firings now := by
  have htrue := @scan_eq_true_iff firings next (inInterval schedule) hnext (24 * 60) now
  have hfalse : ¬FiresInInterval schedule firings →
      (scan (inInterval schedule) next (24 * 60) now = some false ↔
        ((24 * 60 : ℕ) : ℕ∞) ≤ (later firings now).encard) := by
    intro hnone
    apply scan_eq_false_iff hnext
    intro t ht
    rw [← Bool.not_eq_true]
    exact fun hin => hnone ⟨t, ht, hin⟩
  constructor
  · intro hfound
    obtain ⟨found, hscan, hiff⟩ := hfound
    cases found with
    | true => exact Or.inl (htrue.mp hscan)
    | false =>
      have hnone : ¬FiresInInterval schedule firings := by
        simpa using hiff
      exact Or.inr ⟨hnone, (hfalse hnone).mp hscan⟩
  · intro hdecided
    rcases hdecided with hearly | hnone
    · have hscan := htrue.mpr hearly
      obtain ⟨t, ht, hin, _⟩ := hearly
      have hfires : FiresInInterval schedule firings := ⟨t, ht.1, hin⟩
      exact ⟨true, hscan, iff_of_true rfl hfires⟩
    · have hscan := (hfalse hnone.1).mpr hnone.2
      exact ⟨false, hscan, iff_of_false Bool.false_ne_true hnone.1⟩

/-! ## Schedules of days and times of the day -/

def daily (days times : Set ℕ) : Set ℕ :=
  {t | t / 86400 ∈ days ∧ timeOfDay t ∈ times}

variable {days times : Set ℕ}

theorem mem_daily {day time : ℕ} (hday : day ∈ days) (htime : time ∈ times)
    (hlt : time < 86400) : day * 86400 + time ∈ daily days times := by
  have hdiv : (day * 86400 + time) / 86400 = day := by omega
  have hmod : timeOfDay (day * 86400 + time) = time := by
    unfold timeOfDay
    omega
  exact ⟨by rwa [hdiv], by rwa [hmod]⟩

theorem exists_later_at (hdays : days.Infinite) {time : ℕ}
    (htime : time ∈ times) (hlt : time < 86400) (now : ℕ) :
    ∃ t ∈ later (daily days times) now, timeOfDay t = time := by
  obtain ⟨day, hday, hafter⟩ := hdays.exists_gt now
  have hmod : timeOfDay (day * 86400 + time) = time := by
    unfold timeOfDay
    omega
  have hnow : now < day * 86400 + time := by omega
  exact ⟨_, ⟨mem_daily hday htime hlt, hnow⟩, hmod⟩

theorem timeOfDay_injOn_between {time t : ℕ} (htime : time ∈ times) (hlt : time < 86400)
    (hleast : ∀ u ∈ later (daily days times) now, timeOfDay u = time → t ≤ u) :
    Set.InjOn timeOfDay (between (daily days times) now t) := by
  have hordered : ∀ u ∈ between (daily days times) now t, ∀ v ∈ between (daily days times) now t,
        timeOfDay u = timeOfDay v → ¬u < v := by
    intro u hu v hv heq huv
    unfold timeOfDay at heq
    have hmod : ∀ day, timeOfDay (day * 86400 + time) = time := by
      unfold timeOfDay
      omega
    rcases Nat.lt_or_ge (u % 86400) time with hbefore | hafter
    · have hsame := hleast _ ⟨mem_daily hu.1.1 htime hlt, by have := hu.2.1; omega⟩
        (hmod (u / 86400))
      have hend := hv.2.2
      omega
    · have hsame := hleast _ ⟨mem_daily hv.1.1 htime hlt, by have := hu.2.1; omega⟩
        (hmod (v / 86400))
      have hend := hv.2.2
      omega
  intro u hu v hv heq
  rcases Nat.lt_trichotomy u v with hlt | heq' | hgt
  · exact absurd hlt (hordered u hu v hv heq)
  · exact heq'
  · exact absurd hgt (hordered v hv u hu heq.symm)

theorem decidedEarly_of_daily (hdays : days.Infinite) (hne : times.Nonempty)
    (hcard : times.encard ≤ 1440) (hlt : ∀ time ∈ times, time < 86400) :
    DecidedEarly schedule (daily days times) now := by
  by_cases hfires : FiresInInterval schedule (daily days times)
  · left
    obtain ⟨first, hfirst, hin⟩ := hfires
    have htime := hfirst.2
    have hbound := hlt _ htime
    have hsome := exists_later_at hdays htime hbound now
    classical
    -- the next firing at the time of day that is known to lie within
    have hnext := Nat.find_spec hsome
    have hleast : ∀ u ∈ later (daily days times) now,
        timeOfDay u = timeOfDay first → Nat.find hsome ≤ u :=
      fun u hu heq => Nat.find_min' hsome ⟨hu, heq⟩
    have hinterval : inInterval schedule (Nat.find hsome) := by
      unfold inInterval at hin ⊢
      rwa [hnext.2]
    refine ⟨Nat.find hsome, hnext.1, hinterval, ?_⟩
    have hfinite : times.Finite := Set.finite_of_encard_le_coe (by exact_mod_cast hcard)
    have hinj := timeOfDay_injOn_between htime hbound hleast
    have hproper : timeOfDay '' between (daily days times) now (Nat.find hsome) ⊂ times := by
      constructor
      · intro time himage
        obtain ⟨u, hu, heq⟩ := himage
        rw [← heq]
        exact hu.1.2
      · intro hsubset
        obtain ⟨u, hu, heq⟩ := hsubset htime
        have hle := hleast u ⟨hu.1, hu.2.1⟩ heq
        have hbefore := hu.2.2
        omega
    have hncard := Set.ncard_lt_ncard hproper hfinite
    rw [hinj.ncard_image] at hncard
    have hle : times.ncard ≤ 1440 := by
      rw [← hfinite.cast_ncard_eq] at hcard
      exact_mod_cast hcard
    omega
  · right
    refine ⟨hfires, ?_⟩
    have hinfinite : (later (daily days times) now).Infinite := by
      obtain ⟨time, htime⟩ := hne
      rw [Set.infinite_iff_exists_gt]
      intro bound
      obtain ⟨t, ht, _⟩ := exists_later_at hdays htime (hlt time htime) (max now bound)
      have hafter := ht.2
      exact ⟨t, ⟨ht.1, by omega⟩, by omega⟩
    rw [hinfinite.encard_eq]
    exact le_top

/-! ## When the check is exact -/

def replicationSchedule : Cron where
  name := "schedule"
  attrs := []
  begin_end := true

def everyNight : CronSchedule :=
  Dict.ofEntries [("minute", .text "30"), ("hour", .text "3"), ("begin", .time 3600),
      ("end", .time 18000)]

def nextNight (current : ℕ) : Option ℕ :=
  if current % 86400 < 12600 then some (current / 86400 * 86400 + 12600)
  else some ((current / 86400 + 1) * 86400 + 12600)

theorem nextNight_enumerates : Enumerates (daily Set.univ {12600}) nextNight := by
  intro current t
  have hleast : ∀ day, (current < day * 86400 + 12600) →
      (∀ u, current < u → u % 86400 = 12600 → day * 86400 + 12600 ≤ u) →
        IsLeast {u ∈ daily Set.univ {12600} | current < u} (day * 86400 + 12600) := by
    intro day hafter hbefore
    have hmem := mem_daily (Set.mem_univ day) (Set.mem_singleton 12600) (by decide)
    exact ⟨⟨hmem, hafter⟩, fun u hu => hbefore u hu.2 hu.1.2⟩
  unfold nextNight
  split
  · have hday := hleast (current / 86400) (by omega) (by omega)
    constructor
    · intro heq
      cases heq
      exact hday
    · intro ht
      rw [hday.unique ht]
  · have hday := hleast (current / 86400 + 1) (by omega) (by omega)
    constructor
    · intro heq
      cases heq
      exact hday
    · intro ht
      rw [hday.unique ht]

def thirtiethOfFebruary : CronSchedule :=
  Dict.ofEntries [("minute", .text "0"), ("hour", .text "0"), ("dom", .text "30"),
      ("month", .text "2"), ("begin", .time 0), ("end", .time 86340)]

def sampleCroniter (expression : String) : Except String (ℕ → Option ℕ) :=
  if expression = "30 3 * * * " then .ok nextNight
  else if expression = "0 0 30 2 * " then .ok fun _ => none
  else .error "Exactly 5, 6 or 7 columns has to be specified"

/-- The check is exact for a schedule that `croniter` accepts if and only if
the search decides, or a refused field hides no mismatch. -/
theorem intervalExact_iff (self : Cron) (croniter : Croniter) (now : ℕ)
    (schedule : CronSchedule) (next : ℕ → Option ℕ) (firings : Set ℕ)
    (hattrs : self.attrErrors schedule = [])
    (hkeys : self.unexpectedErrors schedule = [])
    (haccepted : croniter (cronExpression schedule) = .ok next)
    (hnext : Enumerates firings next) (hinterval : hasInterval schedule) :
    IntervalExact self croniter now schedule firings ↔
      (FieldsAllowed schedule ∧ DecidedEarly schedule firings now) ∨
      (¬FieldsAllowed schedule ∧ FiresInInterval schedule firings) := by
  by_cases hallowed : FieldsAllowed schedule
  · have hcroniter := croniterForSchedule_eq_next hallowed haccepted
    rw [intervalExact_iff_scan hattrs hkeys hcroniter hinterval, decidedEarly_iff_scan hnext]
    simp [hallowed]
  · rw [intervalExact_iff_of_refused hattrs hkeys hallowed]
    simp [hallowed]

theorem everyNight_intervalExact : IntervalExact replicationSchedule sampleCroniter 0 everyNight
    (daily Set.univ {12600}) := by
  have hallowed : FieldsAllowed everyNight := by
    unfold FieldsAllowed
    decide
  have hdecided : DecidedEarly everyNight (daily Set.univ {12600}) 0 := by
    apply decidedEarly_of_daily Set.infinite_univ (Set.singleton_nonempty 12600)
    · simp
    · simp
  exact (intervalExact_iff replicationSchedule sampleCroniter 0 everyNight
    nextNight _ (by decide) (by decide) rfl nextNight_enumerates
    (by decide)).mpr (Or.inl ⟨hallowed, hdecided⟩)

/-- A day that never comes raises outside of the `try`. -/
theorem thirtiethOfFebruary_not_intervalExact :
    sampleCroniter (cronExpression thirtiethOfFebruary) = .ok (fun _ => none) ∧
    Enumerates ∅ (fun _ => none) ∧
    ¬IntervalExact replicationSchedule sampleCroniter 0 thirtiethOfFebruary ∅ := by
  have haccepted : sampleCroniter (cronExpression thirtiethOfFebruary) = .ok (fun _ => none) := rfl
  have hnever : Enumerates ∅ (fun _ => none) := by
    intro current t
    simp [IsLeast]
  have hraised : replicationSchedule.validate sampleCroniter 0
        (some thirtiethOfFebruary) = .error .badDate := rfl
  refine ⟨haccepted, hnever, ?_⟩
  intro hexact
  obtain ⟨errors, herrors⟩ := hexact.raises .badDate hraised
  cases herrors

end Cron

end Middlewared
