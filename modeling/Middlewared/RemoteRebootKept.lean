import Middlewared.RemoteReboot

/-!
# Reasons of the other controller stay until it has been rebooted

A reason is owed from the moment it is added until the other controller has answered from a later
boot.
-/

namespace Middlewared.RemoteReboot

open TransitionSystem List Option

inductive Term where
  | laterAnswer (bootId : BootId)
  | answerAndReboot
  | reboot
deriving DecidableEq

/-- `adder` is the call that has not yet written the reason to the table. -/
structure Owed where
  code : String
  term : Term
  adder : Option TaskId

def Term.added : Option BootId → Term
  | some bootId => .laterAnswer bootId
  | none => .answerAndReboot

def Term.answered : Term → Term
  | .answerAndReboot => .reboot
  | term => term

def Term.isOver (term : Term) (answer : BootId) : Bool :=
  match term with
  | .laterAnswer bootId => bootId < answer
  | .answerAndReboot => false
  | .reboot => false

structure Watched where
  state : State
  owed : List Owed

namespace Watched

def owedAfterResume (w : Watched) (id : TaskId) : List Owed :=
  match w.state.tasks.get? id with
  | some (.addCalled code _ bootId) =>
    w.owed ++ [{
      code
      term := Term.added bootId
      adder := some id }]
  | some (.infoCalled (some otherNode)) =>
    w.owed.filter fun owed => !owed.term.isOver otherNode.bootId
  | some (.keyvalueWrite _ found .add) =>
    if found = false ∧ w.state.row.isSome then w.owed
    else w.owed.map fun owed =>
      if owed.adder = some id then { owed with adder := none } else owed
  | _ => w.owed

def owedAfter (w : Watched) : Action → List Owed
  | .resume id => w.owedAfterResume id
  | .remoteAnswers _ _ =>
    w.owed.map fun owed => { owed with term := owed.term.answered }
  | .remoteReboots => w.owed.filter fun owed => owed.term ≠ .reboot
  | .restart => w.owed.filter fun owed => owed.adder = none
  | _ => w.owed

def step (w : Watched) (a : Action) : Option Watched :=
  (RemoteReboot.step w.state a).map fun next => {
    state := next
    owed := w.owedAfter a }

def start (bootId : BootId) (row : Option Reasons) : Watched where
  state := RemoteReboot.start bootId row
  owed := []

def Kept (w : Watched) : Prop :=
  ∀ owed ∈ w.owed, owed.code ∈ w.state.remoteRebootReasons

instance (w : Watched) : Decidable w.Kept :=
  inferInstanceAs (Decidable (∀ owed ∈ w.owed, _))

/-- A call of `info` that has an answer goes on with a list of everything that
is owed after it, and no reason stays that is stored for another boot. -/
def Lists (w : Watched) (a : Action) : Prop :=
  ∀ id otherNode next, a = .resume id →
    w.state.tasks.get? id = some (.infoCalled (some otherNode)) → w.step a = some next →
        (∃ listed changed, next.state.tasks.get? id = some (.infoLocal (some listed) changed) ∧
            ∀ owed ∈ next.owed, owed.code ∈ listed.codes) ∧
        ∀ code reason, next.state.remoteRebootReasons.get? code = some reason →
            reason.bootId = some otherNode.bootId

def answerOf : Task → Option RebootInfo
  | .infoCalled otherNode => otherNode
  | _ => none

/-- When an answer is acted on, no reason that stays owed is stored for another
boot than the one that answered; and when the middleware stops, the last row
written has every reason that stays owed. -/
def Respects (w : Watched) : Action → Prop
  | .resume id =>
    ∀ otherNode, w.state.tasks.get? id = some (.infoCalled (some otherNode)) →
        ∀ owed ∈ w.owed, owed.term.isOver otherNode.bootId = false → ∀ reason,
            w.state.remoteRebootReasons.get? owed.code = some reason →
              ∀ bootId, reason.bootId = some bootId → bootId = otherNode.bootId
  | .restart =>
    ∀ owed ∈ w.owed, owed.adder = none → ∃ value, w.state.row = some value ∧ owed.code ∈ value
  | _ => True

instance (w : Watched) (a : Action) : Decidable (w.Respects a) :=
  match a with
  | .resume id => decidable_of_iff
      (∀ task ∈ w.state.tasks.get? id, ∀ otherNode ∈ answerOf task, ∀ owed ∈ w.owed,
        owed.term.isOver otherNode.bootId = false →
          ∀ reason ∈ w.state.remoteRebootReasons.get? owed.code,
            ∀ bootId ∈ reason.bootId, bootId = otherNode.bootId) (by
        have hanswer : ∀ task otherNode, answerOf task = some otherNode ↔
            task = .infoCalled (some otherNode) := by
          intro task otherNode
          cases task <;> simp [answerOf]
        simp only [Respects, Option.mem_def, hanswer]
        exact ⟨fun hall otherNode hget => hall _ hget otherNode rfl, by grind⟩)
  | .restart => decidable_of_iff
      (∀ owed ∈ w.owed, owed.adder = none →
        w.state.row.any (fun value => decide (owed.code ∈ value)) = true) (by
        simp [Respects, Option.any_eq_true])
  | .addRemoteReason _ _ _ | .info _ | .remoteAnswers _ _ | .remoteMissing _ | .remoteReboots
  | .localAnswers _ _ => isTrue trivial

/-! ## One step -/

variable {w : Watched}

theorem kept_of_subset {next : Watched}
    (howed : ∀ owed ∈ next.owed, ∃ old ∈ w.owed, old.code = owed.code)
    (hreasons : next.state.remoteRebootReasons = w.state.remoteRebootReasons)
    (hkept : w.Kept) : next.Kept := by
  intro owed hmem
  rcases howed owed hmem with ⟨old, hold, hcode⟩
  rw [hreasons, ← hcode]
  exact hkept old hold

variable {owed : List Owed}

theorem exists_mem_of_map {f : Owed → Owed} (hcode : ∀ old, (f old).code = old.code) :
    ∀ new ∈ owed.map f, ∃ old ∈ owed, old.code = new.code := by
  intro new hnew
  rcases List.mem_map.mp hnew with ⟨old, hold, heq⟩
  exact ⟨old, hold, by rw [← heq, hcode]⟩

theorem exists_mem_of_filter {p : Owed → Bool} :
    ∀ new ∈ owed.filter p, ∃ old ∈ owed, old.code = new.code :=
  fun new hnew => ⟨new, mem_of_mem_filter hnew, rfl⟩

theorem exists_mem_refl : ∀ new ∈ owed, ∃ old ∈ owed, old.code = new.code :=
  fun new hnew => ⟨new, hnew, rfl⟩

variable {next : State} {a : Action}

theorem reasons_of_not_resume {s : State} (hresume : ∀ id, a ≠ .resume id)
    (hrestart : a ≠ .restart) (hstep : RemoteReboot.step s a = some next) :
    next.remoteRebootReasons = s.remoteRebootReasons := by
  cases a with
  | addRemoteReason id code reason =>
    simp only [RemoteReboot.step, State.spawn] at hstep
    split at hstep <;> cases hstep
    rfl
  | info id =>
    simp only [RemoteReboot.step, State.spawn] at hstep
    split at hstep <;> cases hstep
    rfl
  | remoteAnswers id own =>
    simp only [RemoteReboot.step, State.remoteAnswers] at hstep
    split at hstep <;> cases hstep <;> rfl
  | remoteMissing id =>
    simp only [RemoteReboot.step, State.remoteMissing] at hstep
    split at hstep <;> cases hstep <;> rfl
  | remoteReboots =>
    cases hstep
    rfl
  | resume id => exact absurd rfl (hresume id)
  | localAnswers id thisNode =>
    simp only [RemoteReboot.step, State.localAnswers] at hstep
    split at hstep
    · split at hstep <;> cases hstep <;> rfl
    · cases hstep
  | restart => exact absurd rfl hrestart

theorem reasons_keyvalueWrite (s : State) (id : TaskId) (value : Reasons)
    (found : Bool) (goesOn : Persisting) :
    (s.keyvalueWrite id value found goesOn).remoteRebootReasons = s.remoteRebootReasons := by
  unfold State.keyvalueWrite
  split <;> rfl

theorem mem_matchReasons_iff {reasons : Reasons} {otherNode : RebootInfo}
    {code : String} (hmem : code ∈ reasons) :
    code ∈ (matchReasons reasons otherNode).reasons ↔ ∀ reason, reasons.get? code = some reason →
        ∀ bootId, reason.bootId = some bootId → bootId = otherNode.bootId := by
  rcases Dict.exists_get?_of_mem hmem with ⟨reason, hget⟩
  rw [← Dict.get?_isSome_iff, get?_matchReasons, hget]
  simp only [bind_some, RemoteRebootReason.matched, some.injEq, forall_eq']
  cases reason.bootId with
  | none => simp
  | some bootId => simp

theorem kept_restart_iff (w : Watched) : Kept {
    state := RemoteReboot.start w.state.bootId w.state.row
    owed := w.owedAfter .restart } ↔ w.Respects .restart := by
  simp only [Kept, owedAfter, mem_filter, decide_eq_true_eq, and_imp,
    Respects, RemoteReboot.start, loadRemoteRebootReasons]
  cases w.state.row with
  | none => simp [Dict.mem_def, Dict.keys, Dict.empty]
  | some value => simp

theorem kept_matchReasons_iff {id : TaskId} {otherNode : RebootInfo} (hkept : w.Kept)
    (hget : w.state.tasks.get? id = some (.infoCalled (some otherNode)))
    (hreasons : next.remoteRebootReasons =
      (matchReasons w.state.remoteRebootReasons otherNode).reasons) : Kept {
    state := next
    owed := w.owedAfter (.resume id) } ↔ w.Respects (.resume id) := by
  simp only [Kept, owedAfter, owedAfterResume, hget, mem_filter,
    Bool.not_eq_true', and_imp, Respects, some.injEq,
    Task.infoCalled.injEq, forall_eq', hreasons]
  refine forall₃_congr fun owed howed _ => ?_
  exact mem_matchReasons_iff (hkept owed howed)

theorem kept_resume_iff {id : TaskId} (hkept : w.Kept)
    (hnext : w.state.resume id = some next) : Kept {
    state := next
    owed := w.owedAfter (.resume id) } ↔ w.Respects (.resume id) := by
  have hquiet : (∀ otherNode, w.state.tasks.get? id ≠ some (.infoCalled (some otherNode))) →
        w.Respects (.resume id) :=
    fun hnone otherNode hget => absurd hget (hnone otherNode)
  unfold State.resume at hnext
  split at hnext
  · rename_i code reason bootId hget
    cases hnext
    refine iff_of_true ?_ (hquiet (by simp [hget]))
    intro owed howed
    simp only [owedAfter, owedAfterResume, hget, mem_append, mem_singleton] at howed
    refine Dict.mem_set_iff.mpr ?_
    rcases howed with hold | hnew
    · exact .inr (hkept owed hold)
    · exact .inl (by rw [hnew])
  · rename_i hget
    cases hnext
    refine iff_of_true (kept_of_subset (w := w) ?_ rfl hkept) (hquiet (by simp [hget]))
    simp only [owedAfter, owedAfterResume, hget]
    exact exists_mem_refl
  · rename_i otherNode hget
    cases hnext
    exact kept_matchReasons_iff hkept hget rfl
  · rename_i value goesOn hget
    cases hnext
    refine iff_of_true (kept_of_subset (w := w) ?_ rfl hkept) (hquiet (by simp [hget]))
    simp only [owedAfter, owedAfterResume, hget]
    exact exists_mem_refl
  · rename_i value found goesOn hget
    cases hnext
    refine iff_of_true (kept_of_subset ?_ (reasons_keyvalueWrite _ _ _ _ _)
      hkept) (hquiet (by simp [hget]))
    cases goesOn with
    | add =>
      simp only [owedAfter, owedAfterResume, hget]
      split
      · exact exists_mem_refl
      · refine exists_mem_of_map fun old => ?_
        split <;> rfl
    | info result =>
      simp only [owedAfter, owedAfterResume, hget]
      exact exists_mem_refl
  · cases hnext

theorem step_iff {next : Watched} (hkept : w.Kept)
    (hstep : w.step a = some next) : next.Kept ↔ w.Respects a := by
  rcases map_eq_some_iff.mp hstep with ⟨state, hstate, heq⟩
  rw [← heq]
  have hother : (∀ id, a ≠ .resume id) → a ≠ .restart →
      (∀ owed ∈ w.owedAfter a, ∃ old ∈ w.owed, old.code = owed.code) →
        Kept { state, owed := w.owedAfter a } :=
    fun hresume hrestart howed =>
      kept_of_subset howed (reasons_of_not_resume hresume hrestart hstate) hkept
  cases a with
  | resume id => exact kept_resume_iff hkept hstate
  | restart =>
    cases hstate
    exact kept_restart_iff w
  | remoteAnswers id own =>
    refine iff_of_true (hother (by simp) (by simp) ?_) trivial
    exact exists_mem_of_map fun _ => rfl
  | remoteReboots =>
    exact iff_of_true (hother (by simp) (by simp) exists_mem_of_filter) trivial
  | addRemoteReason id code reason =>
    exact iff_of_true (hother (by simp) (by simp) exists_mem_refl) trivial
  | info id =>
    exact iff_of_true (hother (by simp) (by simp) exists_mem_refl) trivial
  | remoteMissing id =>
    exact iff_of_true (hother (by simp) (by simp) exists_mem_refl) trivial
  | localAnswers id thisNode =>
    exact iff_of_true (hother (by simp) (by simp) exists_mem_refl) trivial

theorem lists_of_kept (hkept : ∀ next, w.step a = some next → next.Kept) : w.Lists a := by
  intro id otherNode next ha hget hstep
  have hnext := hkept next hstep
  rw [ha] at hstep
  simp only [step, RemoteReboot.step, State.resume, hget, map_some, some.injEq] at hstep
  rw [← hstep] at hnext ⊢
  constructor
  · refine ⟨_, _, Dict.get?_set_self _ _ _, ?_⟩
    intro owed howed
    exact mem_codes_of_mem_matchReasons (hnext owed howed)
  · intro code reason hreason
    simp only [State.setTask, get?_matchReasons, bind_eq_some_iff] at hreason
    rcases hreason with ⟨old, _, hmatched⟩
    unfold RemoteRebootReason.matched at hmatched
    split at hmatched
    · cases hmatched
      rfl
    · cases hmatched

end Watched

def fipsReason : String := "FIPS configuration was changed."

def rebootedOnce : List Action :=
  [.addRemoteReason 0 "FIPS" fipsReason, .remoteAnswers 0 [], .resume 0,
    .resume 0, .resume 0, .remoteAnswers 0 [], .resume 0, .restart,
    .remoteReboots, .info 1, .remoteAnswers 1 [], .resume 1]

/-- The answer of an `info` is from before the reboot, the reason is added
after it. -/
def lateAnswer : List Action :=
  [.info 0, .remoteAnswers 0 [], .remoteReboots,
    .addRemoteReason 1 "FIPS" fipsReason, .remoteAnswers 1 [], .resume 1,
    .resume 0]

def lateFirstAnswer : List Action :=
  [.info 0, .remoteAnswers 0 [], .addRemoteReason 1 "FIPS" fipsReason,
    .remoteMissing 1, .resume 1, .resume 0, .remoteReboots, .info 2,
    .remoteAnswers 2 [], .resume 2]

def olderRowLast : List Action :=
  [.addRemoteReason 0 "FIPS" fipsReason, .remoteAnswers 0 [], .resume 0,
    .addRemoteReason 1 "GPOSSTIG" "", .remoteAnswers 1 [], .resume 1,
    .resume 0, .resume 1, .resume 1, .resume 0, .restart]

end Middlewared.RemoteReboot
