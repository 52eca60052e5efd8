import Middlewared.TransitionSystem
import Mathlib.Tactic

/-!
# Throttled progress

`JobProgressBuffer` passes an update of the progress on at once when the last one is old enough.
-/

namespace Middlewared.JobProgress

open TransitionSystem Option

/-- Values of `extra` are taken up to `==`. -/
structure Progress (Extra : Type*) where
  percent : ℤ
  description : String
  extra : Option Extra
deriving DecidableEq

/-- The arguments of `set_progress`, `none` where one is not passed. -/
structure ProgressUpdate (Extra : Type*) where
  percent : Option ℚ
  description : Option String
  extra : Option Extra

variable {Extra : Type*} [DecidableEq Extra] (truthy : Extra → Bool)

/-- `int(percent)` -/
def truncated (percent : ℚ) : ℤ :=
  if 0 ≤ percent then ⌊percent⌋ else ⌈percent⌉

def noProgress : Progress Extra where
  percent := 0
  description := ""
  extra := none

def setPercent (progress : Progress Extra) (percent : Option ℚ) :
    Progress Extra :=
  match percent with
  | none => progress
  | some percent =>
    if progress.percent ≠ truncated percent then
      { progress with percent := truncated percent }
    else progress

def setDescription (progress : Progress Extra) (description : Option String) :
    Progress Extra :=
  match description with
  | none => progress
  | some description =>
    if description ≠ "" ∧ progress.description ≠ description then
      { progress with description }
    else progress

def setExtra (progress : Progress Extra) (extra : Option Extra) :
    Progress Extra :=
  match extra with
  | none => progress
  | some extra =>
    if truthy extra ∧ progress.extra ≠ some extra then
      { progress with extra := some extra }
    else progress

def progressAfter (progress : Progress Extra) (update : ProgressUpdate Extra) :
    Progress Extra :=
  setExtra truthy (setDescription (setPercent progress update.percent)
    update.description) update.extra

/-- `received` lists the calls of `set_progress`; the job does not keep it. -/
structure Job (Extra : Type*) where
  progress : Progress Extra
  received : List (ProgressUpdate Extra)

namespace Job

def new : Job Extra where
  progress := noProgress
  received := []

def setProgress (job : Job Extra) (update : ProgressUpdate Extra) :
    Job Extra where
  progress := progressAfter truthy job.progress update
  received := job.received ++ [update]

end Job

/-- `pending` is `pending_update_body` while `pending_update` is set. -/
structure ProgressBuffer (Extra : Type*) where
  job : Job Extra
  (interval lastUpdateAt : ℚ)
  pending : Option (ProgressUpdate Extra)

namespace ProgressBuffer

def new (interval : ℚ) : ProgressBuffer Extra where
  job := Job.new
  interval := interval
  lastUpdateAt := 0
  pending := none

/-- `set_progress` of the buffer at the time `now`. -/
def setProgress (buffer : ProgressBuffer Extra) (now : ℚ)
    (update : ProgressUpdate Extra) : ProgressBuffer Extra :=
  if now - buffer.lastUpdateAt ≥ buffer.interval then
    { buffer with
      pending := none
      lastUpdateAt := now
      job := buffer.job.setProgress truthy update }
  else { buffer with pending := some update }

/-- `_do_pending_update`, where there is one. -/
def doPendingUpdate (buffer : ProgressBuffer Extra) (now : ℚ) :
    ProgressBuffer Extra :=
  match buffer.pending with
  | none => buffer
  | some update =>
    { buffer with
      lastUpdateAt := now
      job := buffer.job.setProgress truthy update
      pending := none }

def flush (buffer : ProgressBuffer Extra) (now : ℚ) : ProgressBuffer Extra :=
  buffer.doPendingUpdate truthy now

end ProgressBuffer

/-- A buffer in use, with the time and the calls that were made. -/
structure Throttled (Extra : Type*) where
  buffer : ProgressBuffer Extra
  clock : ℚ
  submitted : List (ProgressUpdate Extra)

inductive Action (Extra : Type*) where
  | setProgress (now : ℚ) (update : ProgressUpdate Extra)
  | timer (now : ℚ)
  | flush (now : ℚ)

namespace Action

def now : Action Extra → ℚ
  | setProgress now _ => now
  | timer now => now
  | flush now => now

end Action

namespace Throttled

def start (interval : ℚ) : Throttled Extra where
  buffer := ProgressBuffer.new interval
  clock := 0
  submitted := []

def after (state : Throttled Extra) : Action Extra → Throttled Extra
  | .setProgress now update =>
    { buffer := state.buffer.setProgress truthy now update
      clock := now
      submitted := state.submitted ++ [update] }
  | .timer now =>
    { state with buffer := state.buffer.doPendingUpdate truthy now, clock := now }
  | .flush now =>
    { state with buffer := state.buffer.flush truthy now, clock := now }

def Possible (state : Throttled Extra) (action : Action Extra) : Prop :=
  state.clock ≤ action.now ∧
    match action with
    | .timer _ => state.buffer.pending.isSome
    | _ => True

instance decidablePossible (state : Throttled Extra) (action : Action Extra) :
    Decidable (Possible state action) :=
  match action with
  | .setProgress now _ => inferInstanceAs (Decidable (state.clock ≤ now ∧ True))
  | .timer now =>
    inferInstanceAs (Decidable (state.clock ≤ now ∧ state.buffer.pending.isSome))
  | .flush now => inferInstanceAs (Decidable (state.clock ≤ now ∧ True))

def step (state : Throttled Extra) (action : Action Extra) :
    Option (Throttled Extra) :=
  if Possible state action then some (after truthy state action) else none

def unthrottled (submitted : List (ProgressUpdate Extra)) : Job Extra :=
  submitted.foldl (Job.setProgress truthy) Job.new

/-- Once what is pending has been done, by a flush or by the timer, the
progress is that of direct calls, and the calls came in their order. -/
def Converged (state : Throttled Extra) : Prop :=
  ∀ now, (state.buffer.flush truthy now).job.progress =
        (unthrottled truthy state.submitted).progress ∧
      (state.buffer.flush truthy now).job.received.Sublist state.submitted

end Throttled

variable {truthy : Extra → Bool}

omit [DecidableEq Extra] in
theorem setPercent_eq (progress : Progress Extra) (percent : Option ℚ) :
    setPercent progress percent = { progress with
        percent := (percent.map truncated).getD progress.percent } := by
  cases percent with
  | none => rfl
  | some percent =>
    simp only [setPercent, map_some, getD_some]
    split_ifs with hother
    · rfl
    · rw [← not_not.mp hother]

omit [DecidableEq Extra] in
theorem setDescription_eq (progress : Progress Extra) (description : Option String) :
    setDescription progress description = { progress with
        description := (description.filter (· ≠ "")).getD
          progress.description } := by
  cases description with
  | none => rfl
  | some description =>
    simp only [setDescription]
    by_cases hempty : description = ""
    · rw [if_neg fun hboth => hboth.1 hempty, filter_some_neg]
      · rfl
      · simpa using hempty
    · rw [filter_some_pos (by simpa using hempty), getD_some]
      split_ifs with hboth
      · rfl
      · rw [← not_not.mp fun hother => hboth ⟨hempty, hother⟩]

theorem setExtra_eq (truthy : Extra → Bool) (progress : Progress Extra) (extra : Option Extra) :
    setExtra truthy progress extra = { progress with
        extra := ((extra.filter truthy).map some).getD progress.extra } := by
  cases extra with
  | none => rfl
  | some extra =>
    simp only [setExtra]
    cases htruthy : truthy extra with
    | false =>
      rw [if_neg (by simp), filter_some_neg (by simp [htruthy])]
      rfl
    | true =>
      rw [filter_some_pos htruthy, map_some, getD_some]
      split_ifs with hboth
      · rfl
      · rw [← not_not.mp fun hother => hboth ⟨rfl, hother⟩]

theorem progressAfter_eq (progress : Progress Extra) (update : ProgressUpdate Extra) :
    progressAfter truthy progress update =
      { percent := (update.percent.map truncated).getD progress.percent
        description := (update.description.filter (· ≠ "")).getD
          progress.description
        extra := ((update.extra.filter truthy).map some).getD
          progress.extra } := by
  rw [progressAfter, setPercent_eq, setDescription_eq, setExtra_eq]

theorem getD_eq_getD_getD_iff {Value : Type*} {later earlier : Option Value} {old : Value} :
    later.getD old = later.getD (earlier.getD old) ↔
      ∀ value ∈ earlier, later = none → value = old := by
  cases later <;> cases earlier <;> simp [eq_comm]

/-- Whatever `pending` would change, `update` gives too. -/
@[mk_iff]
structure Covered (truthy : Extra → Bool) (progress : Progress Extra)
    (pending update : ProgressUpdate Extra) : Prop where
  percent : ∀ percent ∈ pending.percent,
    update.percent = none → truncated percent = progress.percent
  description : ∀ description ∈ pending.description, description ≠ "" →
    (∀ later ∈ update.description, later = "") → description = progress.description
  extra : ∀ extra ∈ pending.extra, truthy extra → (∀ later ∈ update.extra, truthy later = false) →
      some extra = progress.extra

theorem progressAfter_progressAfter_eq_iff {progress : Progress Extra}
    {pending update : ProgressUpdate Extra} :
    progressAfter truthy progress update =
        progressAfter truthy (progressAfter truthy progress pending) update ↔
      Covered truthy progress pending update := by
  simp only [progressAfter_eq, Progress.mk.injEq, getD_eq_getD_getD_iff, covered_iff]
  refine and_congr ?_ (and_congr ?_ ?_)
  · simp
  · simp
  · rw [Option.forall_mem_map]
    simp

/-! ## Convergence -/

namespace ProgressBuffer

def settled (truthy : Extra → Bool) (buffer : ProgressBuffer Extra) :
    Progress Extra :=
  match buffer.pending with
  | none => buffer.job.progress
  | some update => progressAfter truthy buffer.job.progress update

def accepted (buffer : ProgressBuffer Extra) : List (ProgressUpdate Extra) :=
  buffer.job.received ++ buffer.pending.toList

variable (truthy) in
theorem flush_eq (buffer : ProgressBuffer Extra) (now : ℚ) : (buffer.flush truthy now).job =
      { progress := buffer.settled truthy, received := buffer.accepted } ∧
    (buffer.flush truthy now).pending = none := by
  unfold flush doPendingUpdate settled accepted
  cases hpending : buffer.pending with
  | none => simp [hpending]
  | some update => exact ⟨rfl, rfl⟩

variable (truthy) in
theorem settled_flush (buffer : ProgressBuffer Extra) (now : ℚ) :
    (buffer.flush truthy now).settled truthy = buffer.settled truthy := by
  have hflush := flush_eq truthy buffer now
  rw [settled, hflush.2, hflush.1]

variable (truthy) in
theorem accepted_flush (buffer : ProgressBuffer Extra) (now : ℚ) :
    (buffer.flush truthy now).accepted = buffer.accepted := by
  have hflush := flush_eq truthy buffer now
  rw [accepted, hflush.2, hflush.1]
  exact List.append_nil _

theorem settled_setProgress (buffer : ProgressBuffer Extra) (now : ℚ)
    (update : ProgressUpdate Extra) :
    (buffer.setProgress truthy now update).settled truthy =
      progressAfter truthy buffer.job.progress update := by
  unfold setProgress
  split_ifs <;> rfl

variable (truthy) in
theorem accepted_setProgress (buffer : ProgressBuffer Extra) (now : ℚ)
    (update : ProgressUpdate Extra) :
    (buffer.setProgress truthy now update).accepted = buffer.job.received ++ [update] := by
  unfold setProgress
  split_ifs
  · exact List.append_nil _
  · rfl

end ProgressBuffer

namespace Throttled

def CoversPending (truthy : Extra → Bool) (state : Throttled Extra) :
    Action Extra → Prop
  | .setProgress _ update =>
    ∀ pending ∈ state.buffer.pending, Covered truthy state.buffer.job.progress pending update
  | .timer _ => True
  | .flush _ => True

def Settles (truthy : Extra → Bool) (state : Throttled Extra) : Prop :=
  state.buffer.settled truthy = (unthrottled truthy state.submitted).progress

def InOrder (state : Throttled Extra) : Prop :=
  state.buffer.accepted.Sublist state.submitted

theorem converged_iff (state : Throttled Extra) :
    Converged truthy state ↔ Settles truthy state ∧ InOrder state := by
  simp [Converged, ProgressBuffer.flush_eq, Settles, InOrder]

variable {state : Throttled Extra}

theorem inOrder_after (horder : InOrder state) (action : Action Extra) :
    InOrder (state.after truthy action) := by
  cases action with
  | setProgress now update =>
    have hreceived : state.buffer.job.received.Sublist state.submitted :=
      (List.sublist_append_left _ _).trans horder
    have hcall := hreceived.append (List.Sublist.refl [update])
    rwa [← ProgressBuffer.accepted_setProgress truthy state.buffer now] at hcall
  | timer now =>
    rwa [InOrder, ← ProgressBuffer.accepted_flush truthy state.buffer now] at horder
  | flush now =>
    rwa [InOrder, ← ProgressBuffer.accepted_flush truthy state.buffer now] at horder

theorem settles_after_iff (hsettles : Settles truthy state) (action : Action Extra) :
    Settles truthy (state.after truthy action) ↔ CoversPending truthy state action := by
  cases action with
  | setProgress now update =>
    have hdirect : (unthrottled truthy (state.submitted ++ [update])).progress =
        progressAfter truthy (state.buffer.settled truthy) update := by
      rw [hsettles, unthrottled, List.foldl_append]
      rfl
    simp only [Settles, after, ProgressBuffer.settled_setProgress, hdirect, CoversPending]
    unfold ProgressBuffer.settled
    cases state.buffer.pending with
    | none => simp
    | some pending => simp [progressAfter_progressAfter_eq_iff]
  | timer now =>
    have hsame := ProgressBuffer.settled_flush truthy state.buffer now
    exact iff_of_true (hsame.trans hsettles) trivial
  | flush now =>
    have hsame := ProgressBuffer.settled_flush truthy state.buffer now
    exact iff_of_true (hsame.trans hsettles) trivial

theorem after_of_step {next : Throttled Extra} {action : Action Extra}
    (hnext : step truthy state action = some next) :
    state.after truthy action = next := by
  unfold step at hnext
  split_ifs at hnext
  exact some.inj hnext

/-- In a run, the progress can at every point be brought to that of direct
calls exactly if no call takes the place of one that it does not cover. -/
theorem converged_iff_coversPending {interval : ℚ}
    {actions : List (Action Extra)} {state : Throttled Extra}
    (hrun : run (step truthy) (start interval) actions = some state) :
    (∀ k reached, run (step truthy) (start interval) (actions.take k) = some reached →
          Converged truthy reached) ↔
      EveryStep (step truthy) (CoversPending truthy) (start interval) actions := by
  rw [iff_comm]
  refine everyStep_iff_forall_take InOrder ?_ ?_ ?_ ?_ hrun
  · intro before action next horder hnext
    rw [← after_of_step hnext]
    exact inOrder_after horder action
  · intro before action next horder hconverged hnext
    rw [← after_of_step hnext, converged_iff, settles_after_iff]
    · exact and_iff_left (inOrder_after horder action)
    · exact ((converged_iff before).mp hconverged).1
  · exact List.Sublist.refl []
  · exact (converged_iff _).mpr ⟨rfl, List.Sublist.refl []⟩

def describe (description : String) : ProgressUpdate ℕ where
  percent := none
  description := some description
  extra := none

def advance (percent : ℚ) : ProgressUpdate ℕ where
  percent := some percent
  description := none
  extra := none

def describedThenAdvanced : List (Action ℕ) :=
  [.setProgress (1 / 4) (describe "Reading"), .setProgress (1 / 2) (advance 50), .flush (3 / 4)]

/-- The second update replaces the pending one with its description. -/
theorem description_lost : ((run (step (· ≠ 0)) (start 1) describedThenAdvanced).map fun state =>
        state.buffer.job.progress) =
      some { percent := 50, description := "", extra := none } ∧
    ((run (step (· ≠ 0)) (start 1) describedThenAdvanced).map fun state =>
        (unthrottled (· ≠ 0) state.submitted).progress) =
      some { percent := 50, description := "Reading", extra := none } := by
  decide +kernel

def advancedTwice : List (Action ℕ) :=
  [.setProgress (1 / 4) (advance 20), .setProgress (1 / 2) (advance 50), .timer (5 / 4)]

theorem converged_advancedTwice : (run (step (· ≠ 0)) (start 1) advancedTwice).isSome = true ∧
    ∀ k reached, run (step (· ≠ 0)) (start 1) (advancedTwice.take k) = some reached →
      Converged (· ≠ 0) reached := by
  have hruns : (run (step (· ≠ 0)) (start 1) advancedTwice).isSome := by
    decide +kernel
  refine ⟨hruns, (converged_iff_coversPending (some_get hruns).symm).mpr ?_⟩
  refine ⟨nofun, fun middle hmiddle => ⟨?_, fun _ _ => ⟨trivial, fun _ _ => trivial⟩⟩⟩
  have hplain : (step (· ≠ 0) (start 1) (.setProgress (1 / 4) (advance 20))).all fun state =>
      state.buffer.pending.all fun pending =>
        pending.description.isNone && pending.extra.isNone := by
    decide +kernel
  intro pending hmem
  simp only [hmiddle, Option.all_some, Option.mem_def.mp hmem, Bool.and_eq_true,
    Option.isNone_iff_eq_none] at hplain
  exact ⟨nofun, by simp [hplain.1], by simp [hplain.2]⟩

end Throttled

end Middlewared.JobProgress
