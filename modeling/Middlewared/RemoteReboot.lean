import Middlewared.Dict
import Middlewared.TransitionSystem

/-!
# Why the other controller has to be rebooted

Each controller keeps the reasons for which it wants the other one to be rebooted, every one with
the boot id of the other controller for which it was given, and drops a reason once the other
controller answers from another boot.
-/

namespace Middlewared.RemoteReboot

open List Dict

abbrev BootId := ℕ

structure RemoteRebootReason where
  /-- `none` means that the system must be rebooted when it comes online. -/
  bootId : Option BootId
  reason : String

abbrev Reasons := Dict String RemoteRebootReason

structure RebootReason where
  (code reason : String)

/-- What `system.reboot.info` gives on either controller. -/
structure RebootInfo where
  bootId : BootId
  rebootRequiredReasons : List RebootReason

structure Info where
  thisNode : RebootInfo
  otherNode : Option RebootInfo

/-- The variables of the loop in `info`. -/
structure Matching where
  reasons : Reasons
  otherNode : RebootInfo
  changed : Bool

def Matching.assign (m : Matching) (code : String)
    (reason : RemoteRebootReason) : Matching × RemoteRebootReason :=
  match reason.bootId with
  | some _ => (m, reason)
  | none =>
    let assigned := { reason with bootId := some m.otherNode.bootId }
    ({ m with reasons := m.reasons.set code assigned, changed := true }, assigned)

def Matching.matchReason (m : Matching) (entry : String × RemoteRebootReason) :
    Matching :=
  let (m, reason) := m.assign entry.1 entry.2
  if reason.bootId = some m.otherNode.bootId then
    { m with otherNode := { m.otherNode with
        rebootRequiredReasons := m.otherNode.rebootRequiredReasons ++
          [{ code := entry.1, reason := reason.reason }] } }
  else
    { m with reasons := m.reasons.erase entry.1, changed := true }

def matchReasons (reasons : Reasons) (otherNode : RebootInfo) : Matching :=
  reasons.entries.foldl Matching.matchReason { reasons, otherNode, changed := false }

/-! ## Calls in flight -/

/-- What goes on when `persist_remote_reboot_reasons` returns. -/
inductive Persisting where
  | add
  | info (info : Info)

/-- Where a call of `add_remote_reason` or of `info` is suspended. -/
inductive Task where
  | addCalling (code reason : String)
  | addCalled (code reason : String) (bootId : Option BootId)
  | infoCalling
  | infoCalled (otherNode : Option RebootInfo)
  | infoLocal (otherNode : Option RebootInfo) (changed : Bool)
  | keyvalueQuery (value : Reasons) (goesOn : Persisting)
  | keyvalueWrite (value : Reasons) (found : Bool) (goesOn : Persisting)
  | returned (info : Info)
  | raised

abbrev TaskId := ℕ

/-- `bootId` is that of the other controller, `row` the value in the key-value
table, if there is a row. -/
structure State where
  bootId : BootId
  remoteRebootReasons : Reasons
  row : Option Reasons
  tasks : Dict TaskId Task

def loadRemoteRebootReasons (row : Option Reasons) : Reasons :=
  row.getD Dict.empty

def start (bootId : BootId) (row : Option Reasons) : State where
  bootId := bootId
  remoteRebootReasons := loadRemoteRebootReasons row
  row := row
  tasks := Dict.empty

/-- After adding a reason `send_event` calls `info`. -/
def Persisting.next : Persisting → Task
  | .add => .infoCalling
  | .info result => .returned result

inductive Action where
  | addRemoteReason (id : TaskId) (code reason : String)
  | info (id : TaskId)
  | remoteAnswers (id : TaskId) (own : List RebootReason)
  | remoteMissing (id : TaskId)
  | remoteReboots
  | resume (id : TaskId)
  | localAnswers (id : TaskId) (thisNode : RebootInfo)
  | restart

namespace State

def setTask (s : State) (id : TaskId) (task : Task) : State :=
  { s with tasks := s.tasks.set id task }

def spawn (s : State) (id : TaskId) (task : Task) : Option State :=
  if id ∈ s.tasks then none else some (s.setTask id task)

def persistRemoteRebootReasons (s : State) (id : TaskId)
    (goesOn : Persisting) : State :=
  s.setTask id (.keyvalueQuery s.remoteRebootReasons goesOn)

/-- `keyvalue.set` updates the row that it has found, and inserts one where it
has found none; the key is unique. -/
def keyvalueWrite (s : State) (id : TaskId) (value : Reasons) (found : Bool)
    (goesOn : Persisting) : State :=
  if found = false ∧ s.row.isSome then s.setTask id .raised
  else { s with row := some value }.setTask id goesOn.next

def remoteAnswers (s : State) (id : TaskId) (own : List RebootReason) :
    Option State :=
  match s.tasks.get? id with
  | some (.addCalling code reason) =>
    some (s.setTask id (.addCalled code reason (some s.bootId)))
  | some .infoCalling =>
    some (s.setTask id (.infoCalled (some {
      bootId := s.bootId
      rebootRequiredReasons := own })))
  | _ => none

def remoteMissing (s : State) (id : TaskId) : Option State :=
  match s.tasks.get? id with
  | some (.addCalling code reason) =>
    some (s.setTask id (.addCalled code reason none))
  | some .infoCalling => some (s.setTask id (.infoCalled none))
  | _ => none

def resume (s : State) (id : TaskId) : Option State :=
  match s.tasks.get? id with
  | some (.addCalled code reason bootId) =>
    some ({ s with remoteRebootReasons := s.remoteRebootReasons.set code {
        bootId
        reason } }.persistRemoteRebootReasons id .add)
  | some (.infoCalled none) => some (s.setTask id (.infoLocal none false))
  | some (.infoCalled (some otherNode)) =>
    let m := matchReasons s.remoteRebootReasons otherNode
    some ({ s with remoteRebootReasons := m.reasons }.setTask id
      (.infoLocal (some m.otherNode) m.changed))
  | some (.keyvalueQuery value goesOn) =>
    some (s.setTask id (.keyvalueWrite value s.row.isSome goesOn))
  | some (.keyvalueWrite value found goesOn) =>
    some (s.keyvalueWrite id value found goesOn)
  | _ => none

def localAnswers (s : State) (id : TaskId) (thisNode : RebootInfo) :
    Option State :=
  match s.tasks.get? id with
  | some (.infoLocal otherNode changed) =>
    let info := {
      thisNode
      otherNode }
    if changed then some (s.persistRemoteRebootReasons id (.info info))
    else some (s.setTask id (.returned info))
  | _ => none

end State

def step (s : State) : Action → Option State
  | .addRemoteReason id code reason => s.spawn id (.addCalling code reason)
  | .info id => s.spawn id .infoCalling
  | .remoteAnswers id own => s.remoteAnswers id own
  | .remoteMissing id => s.remoteMissing id
  | .remoteReboots => some { s with bootId := s.bootId + 1 }
  | .resume id => s.resume id
  | .localAnswers id thisNode => s.localAnswers id thisNode
  | .restart => some (start s.bootId s.row)

/-! ## What the loop keeps and lists -/

namespace RemoteRebootReason

def matched (reason : RemoteRebootReason) (bootId : BootId) :
    Option RemoteRebootReason :=
  if reason.bootId = none ∨ reason.bootId = some bootId then
    some { reason with bootId := some bootId }
  else none

end RemoteRebootReason

def RebootInfo.codes (info : RebootInfo) : List String :=
  info.rebootRequiredReasons.map RebootReason.code

namespace Matching

theorem bootId_matchReason (m : Matching) (entry : String × RemoteRebootReason) :
    (m.matchReason entry).otherNode.bootId = m.otherNode.bootId := by
  unfold matchReason assign
  cases entry.2.bootId with
  | none => simp
  | some bootId =>
    simp only
    split <;> rfl

theorem get?_matchReason {m : Matching} {code : String} {reason : RemoteRebootReason}
    (hget : m.reasons.get? code = some reason) (other : String) :
    (m.matchReason (code, reason)).reasons.get? other =
      if other = code then reason.matched m.otherNode.bootId
      else m.reasons.get? other := by
  unfold matchReason assign RemoteRebootReason.matched
  cases hboot : reason.bootId with
  | none => simp [get?_set]
  | some bootId =>
    simp only [reduceCtorEq, false_or, hboot]
    by_cases hsame : some bootId = some m.otherNode.bootId
    · rw [if_pos hsame, if_pos hsame]
      by_cases hcode : other = code
      · rw [if_pos hcode, hcode, hget, ← hsame, ← hboot]
      · rw [if_neg hcode]
    · rw [if_neg hsame, if_neg hsame, get?_erase]

theorem codes_matchReason (m : Matching) (code : String) (reason : RemoteRebootReason) :
    (m.matchReason (code, reason)).otherNode.codes = m.otherNode.codes ++
        if (reason.matched m.otherNode.bootId).isSome then [code] else [] := by
  unfold matchReason assign RemoteRebootReason.matched
  cases hboot : reason.bootId with
  | none => simp [RebootInfo.codes]
  | some bootId =>
    simp only [reduceCtorEq, false_or, hboot]
    by_cases hsame : some bootId = some m.otherNode.bootId
    · simp [hsame, RebootInfo.codes]
    · simp [hsame]

theorem get?_foldl_matchReason {entries : List (String × RemoteRebootReason)}
    (hnodup : (entries.map Prod.fst).Nodup) {m : Matching}
    (hget : ∀ entry ∈ entries, m.reasons.get? entry.1 = some entry.2)
    (code : String) :
    (entries.foldl matchReason m).reasons.get? code =
        ((entries.lookup code).elim (m.reasons.get? code)
          fun reason => reason.matched m.otherNode.bootId) ∧
      (code ∈ (entries.foldl matchReason m).otherNode.codes ↔ code ∈ m.otherNode.codes ∨
          ∃ reason, entries.lookup code = some reason ∧
            (reason.matched m.otherNode.bootId).isSome) := by
  induction entries generalizing m with
  | nil => simp
  | cons entry rest ih =>
    rw [map_cons, nodup_cons] at hnodup
    have hentry := hget entry mem_cons_self
    have hrest : ∀ other ∈ rest, (m.matchReason entry).reasons.get? other.1 = some other.2 := by
      intro other hother
      have hne : other.1 ≠ entry.1 := by
        intro heq
        exact hnodup.1 (heq ▸ List.mem_map_of_mem hother)
      rw [get?_matchReason hentry, if_neg hne]
      exact hget other (mem_cons_of_mem entry hother)
    have hstep := ih hnodup.2 hrest
    rw [bootId_matchReason] at hstep
    rw [foldl_cons, hstep.1, hstep.2, lookup_cons_ite,
      get?_matchReason hentry, codes_matchReason, mem_append]
    by_cases hcode : code = entry.1
    · have hnone : rest.lookup entry.1 = none := by
        rw [← Option.not_isSome_iff_eq_none, Dict.lookup_isSome_iff]
        exact hnodup.1
      simp [hcode, hnone]
    · simp [hcode]

end Matching

theorem get?_matchReasons (reasons : Reasons) (otherNode : RebootInfo) (code : String) :
    (matchReasons reasons otherNode).reasons.get? code = (reasons.get? code).bind fun reason =>
        reason.matched otherNode.bootId := by
  have hfold := (Matching.get?_foldl_matchReason reasons.nodup (m := ⟨reasons, otherNode, false⟩)
    (fun entry hentry => mem_entries_iff.mp hentry) code).1
  rw [matchReasons, hfold]
  change (reasons.get? code).elim (reasons.get? code) _ = _
  cases reasons.get? code <;> rfl

theorem mem_codes_of_mem_matchReasons {reasons : Reasons} {otherNode : RebootInfo} {code : String}
    (hmem : code ∈ (matchReasons reasons otherNode).reasons) :
    code ∈ (matchReasons reasons otherNode).otherNode.codes := by
  rw [← get?_isSome_iff, get?_matchReasons] at hmem
  have hfold := (Matching.get?_foldl_matchReason reasons.nodup (m := ⟨reasons, otherNode, false⟩)
    (fun entry hentry => mem_entries_iff.mp hentry) code).2
  rw [matchReasons, hfold]
  cases hget : reasons.get? code with
  | none => simp [hget] at hmem
  | some reason => exact .inr ⟨reason, hget, by simpa [hget] using hmem⟩

end Middlewared.RemoteReboot
