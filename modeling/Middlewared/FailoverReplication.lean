import Middlewared.FailoverDatastore

/-!
# What the standby has of the database

While the failure flag is false, the standby has everything but the statement that is being passed
to it.
-/

namespace Middlewared

open FailoverDatastore Option

variable {Sql Db Shared : Type} {engine : HaEngine Sql Db Shared}
  {pair : FailoverPair} {s next : FailoverState Sql Db}

/-- With nothing in flight and nothing to be made late, the standby has what
the active node has. -/
def Replicated (engine : HaEngine Sql Db Shared) (s : FailoverState Sql Db) :
    Prop :=
  s.failure = false → s.phase = .idle → s.late = [] → engine.shared s.remoteDb = engine.shared s.db

def DatastorePhase.isReceiving : DatastorePhase Sql → Bool
  | .receiving _ => true
  | .idle | .replicating _ | .settingFailure | .sendingFile _ => false

/-- A late call is made while the failure flag is set, or it changes nothing
that the nodes share.  The file that the standby is about to receive is not
replaced by another. -/
def Harmless (engine : HaEngine Sql Db Shared) (s : FailoverState Sql Db)
    (call : LateCall Sql Db) : Prop :=
  match call with
  | .sql statement => s.failure = true ∨ ∀ db ∈ engine.execute statement s.remoteDb,
        engine.shared db = engine.shared s.remoteDb
  | .put db => s.phase.isReceiving = false ∨ engine.shared db = engine.shared s.db
  | .receive => s.failure = true ∨ ∀ file ∈ s.replicated,
      engine.shared file = engine.shared s.remoteDb

def LateHarmless (engine : HaEngine Sql Db Shared) (s : FailoverState Sql Db)
    (action : FailoverAction Sql) : Prop :=
  match action with
  | .lateCall n => ∀ call ∈ s.late[n]?, Harmless engine s call
  | _ => True

section

variable [DecidableEq Shared]

instance (call : LateCall Sql Db) : Decidable (Harmless engine s call) := by
  unfold Harmless
  split <;> infer_instance

instance (action : FailoverAction Sql) :
    Decidable (LateHarmless engine s action) := by
  unfold LateHarmless
  split <;> infer_instance

end

def OneBehind (engine : HaEngine Sql Db Shared) (s : FailoverState Sql Db) :
    Prop :=
  match s.phase with
  | .replicating statement =>
    (engine.execute statement s.remoteDb).map engine.shared = some (engine.shared s.db)
  | .idle | .settingFailure | .sendingFile _ | .receiving _ =>
    engine.shared s.remoteDb = engine.shared s.db

structure ReplicationInvariant (engine : HaEngine Sql Db Shared)
    (s : FailoverState Sql Db) : Prop where
  behind : s.failure = false → OneBehind engine s
  file : ∀ caller, s.phase = .receiving caller → ∀ file ∈ s.replicated,
    engine.shared file = engine.shared s.db
  sync : ∀ statement, s.phase = .replicating statement → engine.haSync statement = true

namespace ReplicationInvariant

theorem replicated (hs : ReplicationInvariant engine s) : Replicated engine s := by
  intro hfailure hphase _
  have hbehind := hs.behind hfailure
  unfold OneBehind at hbehind
  rw [hphase] at hbehind
  exact hbehind

theorem of_failure (hfailure : s.failure = true)
    (hphase : s.phase = .idle ∨ s.phase = .settingFailure) :
    ReplicationInvariant engine s := by
  constructor
  · intro hfalse
    rw [hfailure] at hfalse
    cases hfalse
  · intro caller hreceiving
    simp [hreceiving] at hphase
  · intro statement hreplicating
    simp [hreplicating] at hphase

/-! ## The active node -/

theorem executeWrite {statement : Sql} (hpair : pair.Healthy)
    (hs : ReplicationInvariant engine s) (hphase : s.phase = .idle)
    (hwrite : FailoverDatastore.executeWrite engine pair statement s =
      some next) : ReplicationInvariant engine next := by
  obtain ⟨db, hdb, rfl⟩ := map_eq_some_iff.mp hwrite
  have hbehind : s.failure = false → engine.shared s.remoteDb = engine.shared s.db := by
    intro hfailure
    have hbehind := hs.behind hfailure
    unfold OneBehind at hbehind
    rw [hphase] at hbehind
    exact hbehind
  unfold hookDatastoreExecuteWrite
  cases hsync : engine.haSync statement with
  | false =>
    have hshared := engine.shared_eq statement s.db db hsync hdb
    simp only [Bool.not_false, if_true]
    constructor
    · intro hfailure
      unfold OneBehind
      simp only [hphase]
      rw [hshared]
      exact hbehind hfailure
    · intro caller hreceiving
      cases hphase.symm.trans hreceiving
    · intro other hreplicating
      cases hphase.symm.trans hreplicating
  | true =>
    simp only [Bool.not_true, Bool.false_eq_true, if_false, hpair.licensed]
    cases hfailure : s.failure with
    | true =>
      exact of_failure rfl (Or.inl hphase)
    | false =>
      constructor
      · intro _
        have hcongr := engine.shared_congr statement s.remoteDb s.db hsync (hbehind hfailure)
        rw [hdb, map_some] at hcongr
        exact hcongr
      · intro caller hreceiving
        cases hreceiving
      · intro other hreplicating
        cases hreplicating
        exact hsync

theorem sqlReturns {statement : Sql} {remoteDb : Db} (hpair : pair.Healthy)
    (hs : ReplicationInvariant engine s)
    (hphase : s.phase = .replicating statement)
    (hsql : FailoverDatastore.sql engine pair statement s.remoteDb = some remoteDb) :
    ReplicationInvariant engine { s with remoteDb, phase := .idle } := by
  unfold FailoverDatastore.sql at hsql
  simp only [hpair.version, hpair.remoteStatus, ne_eq, not_true_eq_false, if_false] at hsql
  constructor
  · intro hfailure
    have hbehind := hs.behind hfailure
    unfold OneBehind at hbehind ⊢
    rw [hphase] at hbehind
    simp only [hsql, map_some, some.injEq] at hbehind
    exact hbehind
  · intro caller hreceiving
    cases hreceiving
  · intro other hreplicating
    cases hreplicating

variable (hs : ReplicationInvariant engine s)

include hs

theorem of_phase {other : FailoverState Sql Db} (hdb : other.db = s.db)
    (hremote : other.remoteDb = s.remoteDb) (hfailure : other.failure = s.failure)
    (hbefore : ∀ statement, s.phase ≠ .replicating statement)
    (hafter : ∀ statement, other.phase ≠ .replicating statement)
    (hfile : ∀ caller, other.phase = .receiving caller →
      ∀ file ∈ other.replicated, engine.shared file = engine.shared s.db) :
    ReplicationInvariant engine other := by
  constructor
  · intro hfalse
    have hbehind := hs.behind (hfailure ▸ hfalse)
    unfold OneBehind at hbehind ⊢
    rw [hdb, hremote]
    cases hphase : s.phase with
    | replicating statement => exact absurd hphase (hbefore statement)
    | idle | settingFailure | sendingFile _ | receiving _ =>
      rw [hphase] at hbehind
      cases hother : other.phase with
      | replicating statement => exact absurd hother (hafter statement)
      | idle | settingFailure | sendingFile _ | receiving _ => exact hbehind
  · intro caller hreceiving file hmem
    rw [hdb]
    exact hfile caller hreceiving file hmem
  · intro statement hreplicating
    exact absurd hreplicating (hafter statement)

theorem sendEnds {caller : SendCaller} {raised : Bool}
    (hphase : ∀ statement, s.phase ≠ .replicating statement) :
    ReplicationInvariant engine (FailoverDatastore.sendEnds caller raised s) := by
  unfold FailoverDatastore.sendEnds startSendRetry
  cases caller with
  | setFailure =>
    cases raised <;> exact hs.of_phase rfl rfl rfl hphase (by simp) (by simp)
  | retry => exact hs.of_phase rfl rfl rfl hphase (by simp) (by simp)
  | other => exact hs.of_phase rfl rfl rfl hphase (by simp) (by simp)

variable {call : LateCall Sql Db}

theorem addLate {late : Bool} :
    ReplicationInvariant engine (FailoverDatastore.addLate late call s) := by
  cases late with
  | true => exact ⟨hs.behind, hs.file, hs.sync⟩
  | false => exact hs

omit hs

theorem addLate_phase {late : Bool} : (FailoverDatastore.addLate late call s).phase = s.phase := by
  cases late <;> rfl

theorem retryWakes (hpair : pair.Healthy) (hs : ReplicationInvariant engine s) :
    ReplicationInvariant engine (FailoverDatastore.retryWakes pair s) := by
  unfold FailoverDatastore.retryWakes
  simp only [hpair.status, ne_eq, not_true_eq_false, if_false]
  split <;> exact ⟨hs.behind, hs.file, hs.sync⟩

theorem receiveReturns {caller : SendCaller} {received : FailoverState Sql Db}
    (hpair : pair.Healthy) (hs : ReplicationInvariant engine s)
    (hphase : s.phase = .receiving caller)
    (hreceive : receive pair s = some received) :
    ReplicationInvariant engine (FailoverDatastore.sendEnds caller false
        { received with failure := false }) := by
  unfold receive at hreceive
  simp only [hpair.alembicVersion, ne_eq, not_true_eq_false, if_false] at hreceive
  obtain ⟨file, hfile, rfl⟩ := map_eq_some_iff.mp hreceive
  have hshared := hs.file caller hphase file hfile
  apply sendEnds
  · constructor
    · intro _
      simp only [hphase]
      exact hshared
    · intro _ _ found hfound
      cases hfound
    · exact hs.sync
  · intro statement hreplicating
    cases hphase.symm.trans hreplicating

/-! ## Late calls -/

theorem of_remoteDb {remoteDb : Db} {replicated : Option Db} (hs : ReplicationInvariant engine s)
    (hsame : s.failure = true ∨ engine.shared remoteDb = engine.shared s.remoteDb)
    (hfile : ∀ caller, s.phase = .receiving caller →
      ∀ file ∈ replicated, engine.shared file = engine.shared s.db) :
    ReplicationInvariant engine { s with remoteDb, replicated } := by
  refine ⟨?_, hfile, hs.sync⟩
  intro hfalse
  have hfailure : s.failure = false := hfalse
  have hshared := hsame.resolve_left (by simp [hfailure])
  have hbehind := hs.behind hfailure
  unfold OneBehind at hbehind ⊢
  cases hphase : s.phase with
  | replicating statement =>
    rw [hphase] at hbehind
    simp only at hbehind ⊢
    rw [engine.shared_congr statement _ _ (hs.sync statement hphase) hshared]
    exact hbehind
  | idle | settingFailure | sendingFile _ | receiving _ =>
    rw [hphase] at hbehind
    exact hshared.trans hbehind

theorem makeLateCall (hpair : pair.Healthy) (hs : ReplicationInvariant engine s)
    (hharmless : Harmless engine s call) :
    ReplicationInvariant engine (FailoverDatastore.makeLateCall engine pair s call) := by
  cases call with
  | sql statement =>
    simp only [FailoverDatastore.makeLateCall, FailoverDatastore.sql,
      hpair.version, hpair.remoteStatus, ne_eq, not_true_eq_false, if_false]
    apply hs.of_remoteDb
    · refine hharmless.imp_right ?_
      intro hsame
      cases hdb : engine.execute statement s.remoteDb with
      | none => rfl
      | some db => exact hsame db hdb
    · exact hs.file
  | put db =>
    apply hs.of_remoteDb (Or.inr rfl)
    intro caller hreceiving file hfile
    rw [← some.inj hfile]
    apply hharmless.resolve_left
    simp [hreceiving, DatastorePhase.isReceiving]
  | receive =>
    cases hfile : s.replicated with
    | none =>
      simp only [FailoverDatastore.makeLateCall, FailoverDatastore.receive,
        hfile, map_none, getD_none]
      exact hs
    | some file =>
      simp only [FailoverDatastore.makeLateCall, FailoverDatastore.receive,
        hfile, map_some, getD_some, hpair.alembicVersion,
        ne_eq, not_true_eq_false, if_false]
      apply hs.of_remoteDb
      · exact hharmless.imp_right fun hsame => hsame file hfile
      · intro caller _ other hother
        cases hother

theorem step {action : FailoverAction Sql} (hpair : pair.Healthy)
    (hs : ReplicationInvariant engine s)
    (hharmless : LateHarmless engine s action)
    (hstep : FailoverDatastore.step engine pair s action = some next) :
    ReplicationInvariant engine next := by
  unfold FailoverDatastore.step at hstep
  split at hstep
  · rename_i hphase
    exact hs.executeWrite hpair hphase hstep
  · rename_i hphase
    obtain ⟨remoteDb, hsql, rfl⟩ := map_eq_some_iff.mp hstep
    exact hs.sqlReturns hpair hphase hsql
  · rw [← some.inj hstep]
    exact of_failure rfl (Or.inr rfl)
  · rw [← some.inj hstep]
    exact of_failure rfl (Or.inr rfl)
  · rename_i hphase
    rw [if_pos hpair.remoteStatus] at hstep
    rw [← some.inj hstep]
    exact hs.of_phase rfl rfl rfl (by simp [hphase]) (by simp) (by simp)
  · rename_i hphase
    rw [← some.inj hstep]
    exact hs.of_phase rfl rfl rfl (by simp [hphase]) (by simp [startSendRetry])
      (by simp [startSendRetry])
  · rename_i hphase
    rw [← some.inj hstep]
    exact hs.of_phase rfl rfl rfl (by simp [hphase]) (by simp) (by simp)
  · split at hstep
    · cases hstep
    · rw [← some.inj hstep]
      exact hs.retryWakes hpair
  · rename_i hphase
    split at hstep
    · cases hstep
    · rw [← some.inj hstep]
      exact hs.of_phase rfl rfl rfl (by simp [hphase]) (by simp) (by simp)
  · rename_i hphase
    rw [← some.inj hstep]
    exact hs.of_phase rfl rfl rfl (by simp [hphase]) (by simp) (by simp)
  · rename_i hphase
    rw [← some.inj hstep]
    exact hs.addLate.sendEnds (by simp [addLate_phase, hphase])
  · rename_i hphase
    obtain ⟨received, hreceive, rfl⟩ := map_eq_some_iff.mp hstep
    exact hs.receiveReturns hpair hphase hreceive
  · rename_i hphase
    rw [← some.inj hstep]
    exact hs.addLate.sendEnds (by simp [addLate_phase, hphase])
  · rename_i n
    obtain ⟨call, hcall, rfl⟩ := map_eq_some_iff.mp hstep
    have hother : ReplicationInvariant engine
        { s with late := s.late.eraseIdx n } := ⟨hs.behind, hs.file, hs.sync⟩
    exact hother.makeLateCall hpair (hharmless call hcall)
  · cases hstep

end ReplicationInvariant

def FailoverState.inSync (db : Db) : FailoverState Sql Db where
  db := db
  failure := false
  phase := .idle
  sleeping := 0
  retrying := 0
  remoteDb := db
  replicated := none
  late := []

def insertEngine : HaEngine String (List String) (List String) where
  execute := fun row table => some (table ++ [row])
  haSync := fun _ => true
  shared := id
  shared_congr := by
    intro sql first second _ hsame
    exact congrArg (fun table => some (table ++ [sql])) hsame
  shared_eq := by
    intro sql before after hsync
    cases hsync

def haPair : FailoverPair where
  licensed := true
  version := "25.04.0"
  remoteVersion := "25.04.0"
  status := "MASTER"
  remoteStatus := "BACKUP"
  alembicVersion := "c4b2c1a0f1d9"
  remoteAlembicVersion := "c4b2c1a0f1d9"

theorem healthy_haPair : haPair.Healthy := ⟨rfl, rfl, rfl, rfl, rfl⟩

def timedOutBefore : List (FailoverAction String) :=
  [.executeWrite "alice", .sqlRaises true, .statusReturns, .lateCall 0,
    .fileArrives, .receiveReturns, .executeWrite "bob", .sqlReturns]

def timedOutAfter : List (FailoverAction String) :=
  [.executeWrite "alice", .sqlRaises true, .statusReturns, .fileArrives,
    .receiveReturns, .lateCall 0]

end Middlewared
