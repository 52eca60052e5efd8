import Middlewared.Dict
import Middlewared.TransitionSystem

/-!
# KMIP synchronisation of dataset keys

`sync_zfs_keys` of `KMIPService`, which moves the keys of `storage.encrypteddataset` to the KMIP
server (`push_zfs_keys`) or back (`pull_zfs_keys`), beside `insert_or_update_encrypted_record`,
which stores new ones.
-/

namespace Middlewared

/-- A row of `storage.encrypteddataset`; uids are numbers. -/
structure KmipRow (Key : Type*) where
  name : String
  encryptionKey : Option Key
  kmipUid : Option ℕ

inductive KmipStage (Key : Type*) where
  | ready
  | registering (destroySuccessful : Bool)
  | registered (uid : ℕ) (key : Key)
  | clearing
  | pulled (key : Key)
  | deleting

structure KmipRun (Key : Type*) where
  ids : Option (List ℕ)
  (push connectionSuccessful : Bool)
  existingDatasets : List String
  rows : List (ℕ × KmipRow Key)
  stage : KmipStage Key
  failed : List String

/-- A call of `insert_or_update_encrypted_record` that has looked for its
row. -/
structure KmipStore (Key : Type*) where
  name : String
  key : Key
  found : Option ℕ

/-- How `_revoke_and_destroy_key` ends. -/
inductive DestroyOutcome where
  | destroyed
  | unanswered
  | failed
deriving DecidableEq

structure KmipKeys (Key : Type*) where
  rows : Dict ℕ (KmipRow Key)
  (latest secrets : ℕ → Option Key)
  nextUid : ℕ
  zfsKeys : Dict String Key
  runs : Dict ℕ (KmipRun Key)
  stores : Dict ℕ (KmipStore Key)

namespace KmipKeys

variable {Key : Type*}

def init : KmipKeys Key where
  rows := Dict.empty
  latest _ := none
  secrets _ := none
  nextUid := 0
  zfsKeys := Dict.empty
  runs := Dict.empty
  stores := Dict.empty

def setRun (s : KmipKeys Key) (r : ℕ) (run : KmipRun Key) : KmipKeys Key :=
  { s with runs := s.runs.set r run }

def setRow (s : KmipKeys Key) (id : ℕ) (row : KmipRow Key) : KmipKeys Key :=
  { s with rows := s.rows.set id row }

def destroy (s : KmipKeys Key) (uid : Option ℕ) : DestroyOutcome → KmipKeys Key
  | .failed => s
  | .destroyed | .unanswered =>
    match uid with
    | none => s
    | some uid => { s with secrets := Function.update s.secrets uid none }

def register (s : KmipKeys Key) (key : Key) : KmipKeys Key :=
  { s with secrets := Function.update s.secrets s.nextUid (some key), nextUid := s.nextUid + 1 }

inductive RegisterOutcome where
  | registered
  | failed
  | leftBehind

inductive Action (Key : Type*) where
  | beginSync (r : ℕ) (ids : Option (List ℕ)) (push connectionSuccessful : Bool)
      (existingDatasets : List String)
  | refreshRow (r : ℕ) (checked retrieved : Bool)
  | pushRow (r : ℕ) (outcome : DestroyOutcome)
  | registerKey (r : ℕ) (outcome : RegisterOutcome)
  | pullRow (r : ℕ) (checked retrieved : Bool)
  | updateRow (r : ℕ)
  | deleteSecret (r : ℕ) (outcome : Option DestroyOutcome)
  | finishSync (r : ℕ)
  | queryRow (c : ℕ) (id : Option ℕ) (name : String) (key : Key)
  | storeKey (c newId : ℕ)
  | restart
  | initializeKeys (connectionSuccess : Bool) (retrieved : ℕ → Bool)

variable [DecidableEq Key]

/-- `[['id', 'in', ids]] if ids else []`, or `[['kmip_uid', '!=', None]]`. -/
def syncRows (s : KmipKeys Key) (ids : Option (List ℕ)) (push : Bool)
    (existingDatasets : List String) : List (ℕ × KmipRow Key) :=
  s.rows.entries.filter fun entry =>
    (if push then decide (ids.getD [] = [] ∨ entry.1 ∈ ids.getD [])
      else entry.2.kmipUid.isSome) &&
    decide (entry.2.name ∈ existingDatasets)

def beginSync (s : KmipKeys Key) (r : ℕ) (ids : Option (List ℕ))
    (push connectionSuccessful : Bool) (existingDatasets : List String) :
    Option (KmipKeys Key) :=
  if r ∉ s.runs ∧ ∀ entry ∈ s.runs.entries, entry.2.ids ≠ ids then
    some (s.setRun r
      { ids
        push
        connectionSuccessful
        existingDatasets
        rows := s.syncRows ids push existingDatasets
        stage := .ready
        failed := [] })
  else none

def nextRow (run : KmipRun Key) : KmipRun Key :=
  { run with rows := run.rows.tail, stage := .ready }

def setZfsKey (s : KmipKeys Key) (name : String) (key : Key) : KmipKeys Key :=
  { s with zfsKeys := s.zfsKeys.set name key }

def refreshRow (s : KmipKeys Key) (r : ℕ) (run : KmipRun Key)
    (id : ℕ) (ds : KmipRow Key) (checked retrieved : Bool) :
    Option (KmipKeys Key) :=
  let done := s.setRun r (nextRow run)
  if checked then
    match s.zfsKeys.get? ds.name with
    | none => none
    | some key => if s.latest id = some key then some done else none
  else if retrieved then
    (ds.kmipUid.bind s.secrets).map fun key => done.setZfsKey ds.name key
  else some done

def pushRow (s : KmipKeys Key) (r : ℕ) (run : KmipRun Key) (ds : KmipRow Key)
    (key : Key) (outcome : DestroyOutcome) : KmipKeys Key :=
  ((s.setZfsKey ds.name key).destroy ds.kmipUid outcome).setRun r
    { run with
      stage := .registering
        (ds.kmipUid.isSome && decide (outcome = .destroyed)) }

def registerKey (s : KmipKeys Key) (r : ℕ) (run : KmipRun Key)
    (ds : KmipRow Key) (destroySuccessful : Bool) (outcome : RegisterOutcome) :
    KmipKeys Key :=
  match s.zfsKeys.get? ds.name, outcome with
  | some key, .registered =>
    (s.register key).setRun r { run with stage := .registered s.nextUid key }
  | some key, .leftBehind =>
    (s.register key).setRun r (registerFailed run ds destroySuccessful)
  | _, _ => s.setRun r (registerFailed run ds destroySuccessful)
where
  registerFailed (run : KmipRun Key) (ds : KmipRow Key)
      (destroySuccessful : Bool) : KmipRun Key :=
    let failed := { run with failed := run.failed ++ [ds.name] }
    if destroySuccessful then { failed with stage := .clearing }
    else nextRow failed

def pullRow (s : KmipKeys Key) (r : ℕ) (run : KmipRun Key) (id : ℕ)
    (ds : KmipRow Key) (checked retrieved : Bool) : Option (KmipKeys Key) :=
  let pulled := fun key => s.setRun r { run with stage := .pulled key }
  match ds.encryptionKey with
  | some key => some (pulled key)
  | none =>
    if checked then
      match s.zfsKeys.get? ds.name with
      | none => none
      | some key => if s.latest id = some key then some (pulled key) else none
    else if run.connectionSuccessful && retrieved then
      (ds.kmipUid.bind s.secrets).map pulled
    else
      some (s.setRun r
        { nextRow run with failed := run.failed ++ [ds.name] })

def updateRow (s : KmipKeys Key) (r : ℕ) (run : KmipRun Key) (id : ℕ)
    (ds : KmipRow Key) : Option (KmipKeys Key) :=
  match s.rows.get? id, run.stage with
  | none, .registered _ _ | none, .clearing | none, .pulled _ =>
    some { s with runs := s.runs.erase r }
  | some row, .registered uid _ =>
    some ((s.setRow id
      { row with encryptionKey := none, kmipUid := some uid }).setRun r
        (nextRow run))
  | some row, .clearing =>
    some ((s.setRow id { row with kmipUid := none }).setRun r (nextRow run))
  | some row, .pulled key =>
    let updated := s.setRow id
      { row with encryptionKey := some key, kmipUid := none }
    some ({ updated with zfsKeys := s.zfsKeys.erase ds.name }.setRun r
      (if run.connectionSuccessful then { run with stage := .deleting }
        else nextRow run))
  | _, _ => none

def deleteSecret (s : KmipKeys Key) (r : ℕ) (run : KmipRun Key)
    (ds : KmipRow Key) : Option DestroyOutcome → KmipKeys Key
  | none => { s with runs := s.runs.erase r }
  | some outcome => (s.destroy ds.kmipUid outcome).setRun r (nextRow run)

def finishSync (s : KmipKeys Key) (r : ℕ) (run : KmipRun Key) :
    KmipKeys Key :=
  { s with
    zfsKeys := Dict.ofEntries (s.zfsKeys.entries.filter fun entry =>
      entry.1 ∈ run.existingDatasets)
    runs := s.runs.erase r }

def queryRow (s : KmipKeys Key) (c : ℕ) (id : Option ℕ) (name : String)
    (key : Key) : KmipKeys Key :=
  let found := s.rows.entries.find? fun entry =>
    match id with
    | some id => decide (entry.1 = id)
    | none => decide (entry.2.name = name)
  { s with stores := s.stores.set c ⟨name, key, found.map Prod.fst⟩ }

def store (s : KmipKeys Key) (id : ℕ) (row : KmipRow Key) (key : Key) :
    KmipKeys Key :=
  { s.setRow id { row with encryptionKey := some key } with
    latest := Function.update s.latest id (some key) }

def storeKey (s : KmipKeys Key) (c newId : ℕ) (call : KmipStore Key) :
    Option (KmipKeys Key) :=
  let ended := { s with stores := s.stores.erase c }
  match call.found with
  | none =>
    if newId ∈ s.rows then none
    else some (ended.store newId ⟨call.name, none, none⟩ call.key)
  | some id =>
    match s.rows.get? id with
    | none => some ended
    | some row => some (ended.store id { row with name := call.name } call.key)

/-- `initialize_zfs_keys` for a row. -/
def initializeRow (s : KmipKeys Key) (connectionSuccess : Bool)
    (retrieved : ℕ → Bool) (zfsKeys : Dict String Key)
    (entry : ℕ × KmipRow Key) : Dict String Key :=
  match entry.2.encryptionKey with
  | some key => zfsKeys.set entry.2.name key
  | none =>
    match entry.2.kmipUid.bind s.secrets with
    | some key =>
      if connectionSuccess && retrieved entry.1 then
        zfsKeys.set entry.2.name key
      else zfsKeys
    | none => zfsKeys

def atRow (s : KmipKeys Key) (r : ℕ)
    (turn : KmipRun Key → ℕ → KmipRow Key → Option (KmipKeys Key)) :
    Option (KmipKeys Key) :=
  (s.runs.get? r).bind fun run =>
    run.rows.head?.bind fun head => turn run head.1 head.2

def step (s : KmipKeys Key) : Action Key → Option (KmipKeys Key)
  | .beginSync r ids push connectionSuccessful existingDatasets =>
    s.beginSync r ids push connectionSuccessful existingDatasets
  | .refreshRow r checked retrieved =>
    s.atRow r fun run id ds =>
      match run.push, run.stage, ds.encryptionKey with
      | true, .ready, none => s.refreshRow r run id ds checked retrieved
      | _, _, _ => none
  | .pushRow r outcome =>
    s.atRow r fun run _ ds =>
      match run.push, run.stage, ds.encryptionKey with
      | true, .ready, some key => some (s.pushRow r run ds key outcome)
      | _, _, _ => none
  | .registerKey r outcome =>
    s.atRow r fun run _ ds =>
      match run.stage with
      | .registering destroySuccessful =>
        some (s.registerKey r run ds destroySuccessful outcome)
      | _ => none
  | .pullRow r checked retrieved =>
    s.atRow r fun run id ds =>
      match run.push, run.stage with
      | false, .ready => s.pullRow r run id ds checked retrieved
      | _, _ => none
  | .updateRow r => s.atRow r (s.updateRow r)
  | .deleteSecret r outcome =>
    s.atRow r fun run _ ds =>
      match run.stage with
      | .deleting => some (s.deleteSecret r run ds outcome)
      | _ => none
  | .finishSync r =>
    (s.runs.get? r).bind fun run =>
      if run.rows = [] then some (s.finishSync r run) else none
  | .queryRow c id name key =>
    if c ∈ s.stores then none else some (s.queryRow c id name key)
  | .storeKey c newId =>
    (s.stores.get? c).bind fun call => s.storeKey c newId call
  | .restart =>
    some { s with zfsKeys := Dict.empty, runs := Dict.empty, stores := Dict.empty }
  | .initializeKeys connectionSuccess retrieved =>
    some { s with
      zfsKeys := s.rows.entries.foldl
        (s.initializeRow connectionSuccess retrieved) s.zfsKeys }

def Holds (s : KmipKeys Key) (row : KmipRow Key) (key : Key) : Prop :=
  row.encryptionKey = some key ∨ ∃ uid ∈ row.kmipUid, s.secrets uid = some key

def Safe (s : KmipKeys Key) : Prop :=
  ∀ id, ∀ row ∈ s.rows.get? id, ∀ key ∈ s.latest id, s.Holds row key

def IsCurrent (s : KmipKeys Key) (run : KmipRun Key) (id : ℕ)
    (row : KmipRow Key) : Prop :=
  match run.stage with
  | .registered _ key | .pulled key => s.latest id = some key
  | .clearing => s.latest id = row.encryptionKey
  | .ready | .registering _ | .deleting => True

def UpToDate (s : KmipKeys Key) : Action Key → Prop
  | .updateRow r =>
    ∀ run ∈ s.runs.get? r, ∀ head ∈ run.rows.head?,
      ∀ row ∈ s.rows.get? head.1, s.IsCurrent run head.1 row
  | _ => True

end KmipKeys

end Middlewared
