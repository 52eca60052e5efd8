import Middlewared.Dict
import Middlewared.TransitionSystem
import Mathlib.Data.Finset.Basic

/-!
# Event sources

`EventSourceManager` with the calls that are suspended in it: a `subscribe` that awaits
`validate_arg` of the instance it made, or `cancel` of an instance after that failed, and an
`unsubscribe_app` between two of its idents.
-/

namespace Middlewared

/-- `(name, arg)`. -/
structure EventKey where
  name : String
  arg : Option String
deriving DecidableEq

inductive Subscriber where
  | app (app : ℕ) (collection : String)
  | internal

structure IdentData where
  subscriber : Subscriber
  key : EventKey

/-- An `EventSource` object. -/
structure EventInstance where
  id : ℕ
  key : EventKey
deriving DecidableEq

/-- How `validate_arg` ends. -/
inductive ArgValidation where
  | accepted
  | rejected
  /-- Anything else, such as the `ValueError` of `json.loads` for a number with
  too many digits, or `RecursionError`. -/
  | raised

inductive EventCall where
  | validating (ident : String) (key : EventKey)
  | leaving (key : EventKey)
  | unsubscribingApp (idents : List String)

def EventCall.subscribes : EventCall → Option EventKey
  | .validating _ key | .leaving key => some key
  | .unsubscribingApp _ => none

structure EventSourceManager where
  eventSources : List String
  idents : Dict String IdentData
  subscriptions : EventKey → Finset String
  instances : EventKey → Option ℕ
  nextInstance : ℕ
  processes : List EventInstance
  calls : ℕ → Option EventCall
  nextCall : ℕ

namespace EventSourceManager

def init (eventSources : List String) : EventSourceManager where
  eventSources := eventSources
  idents := Dict.empty
  subscriptions := fun _ => ∅
  instances := fun _ => none
  nextInstance := 0
  processes := []
  calls := fun _ => none
  nextCall := 0

def setCall (s : EventSourceManager) (call : ℕ) (value : Option EventCall) :
    EventSourceManager :=
  { s with calls := Function.update s.calls call value }

def startCall (s : EventSourceManager) (value : EventCall) :
    EventSourceManager :=
  { s with calls := Function.update s.calls s.nextCall (some value), nextCall := s.nextCall + 1 }

/-- `subscribe` up to its first `await`; it raises `ValueError` for an ident
that is in use. -/
def subscribe (s : EventSourceManager) (subscriber : Subscriber)
    (ident : String) (key : EventKey) : EventSourceManager :=
  if (s.idents.get? ident).isSome then s
  else
    let s := { s with
      idents := s.idents.set ident { subscriber, key }
      subscriptions := Function.update s.subscriptions key
        (insert ident (s.subscriptions key)) }
    match s.instances key with
    | some _ => s
    | none =>
      { s with
        instances := Function.update s.instances key (some s.nextInstance)
        nextInstance := s.nextInstance + 1 }.startCall (.validating ident key)

/-- Where `unsubscribe` gets to: it raises, returns or is left at `cancel` of
the instance. -/
inductive Unsubscribing where
  | raised
  | returned
  | cancelling

/-- `unsubscribe` up to its `await`; `raises` says whether `terminate` raises
for the subscriber. -/
def unsubscribe (s : EventSourceManager) (ident : String) (raises : Bool) :
    EventSourceManager × Unsubscribing :=
  match s.idents.get? ident with
  | none => (s, .raised)
  | some data =>
    let s := { s with idents := s.idents.erase ident }
    let idents := s.subscriptions data.key
    if raises ∨ ident ∉ idents then (s, .raised)
    else
      let s := { s with
        subscriptions :=
          Function.update s.subscriptions data.key (idents.erase ident) }
      if idents.erase ident = ∅ then
        match s.instances data.key with
        | none => (s, .raised)
        | some _ =>
          ({ s with instances := Function.update s.instances data.key none }, .cancelling)
      else (s, .returned)

/-- `subscribe` from the end of `validate_arg`. -/
def validated (s : EventSourceManager) (call : ℕ) (ident : String)
    (key : EventKey) (raises : Bool) : ArgValidation → EventSourceManager
  | .accepted =>
    match s.instances key with
    | none => s.setCall call none
    | some id =>
      { s with processes := ⟨id, key⟩ :: s.processes }.setCall call none
  | .rejected =>
    match s.unsubscribe ident raises with
    | (s, .cancelling) => s.setCall call (some (.leaving key))
    | (s, _) => s.setCall call none
  | .raised => s.setCall call none

/-- `_unsubscribe_all`, which goes through the set of idents in some order. -/
def unsubscribeAll (s : EventSourceManager) (key : EventKey)
    (raises : String → Bool) : List String → EventSourceManager
  | [] =>
    { s with
      instances := Function.update s.instances key none
      subscriptions := Function.update s.subscriptions key ∅ }
  | ident :: rest =>
    match s.idents.get? ident with
    | none => s
    | some _ =>
      let s := { s with idents := s.idents.erase ident }
      if raises ident then s else s.unsubscribeAll key raises rest

/-- The idents that `unsubscribe_app` finds for the app. -/
def identsOf (s : EventSourceManager) (app : ℕ) : List String :=
  (s.idents.entries.filter fun entry =>
    match entry.2.subscriber with
    | .app owner _ => owner = app
    | .internal => false).map Prod.fst

inductive Action where
  | subscribe (subscriber : Subscriber) (ident : String) (key : EventKey)
  | validated (call : ℕ) (outcome : ArgValidation) (raises : Bool)
  | cancelled (call : ℕ)
  | unsubscribe (ident : String) (raises : Bool)
  | unsubscribeApp (app : ℕ)
  | nextIdent (call : ℕ) (raises : Bool)
  | processEnd (ended : EventInstance) (order : List String) (raises : String → Bool)

def step (s : EventSourceManager) : Action → Option EventSourceManager
  | .subscribe subscriber ident key =>
    if key.name ∈ s.eventSources then some (s.subscribe subscriber ident key)
    else none
  | .validated call outcome raises =>
    match s.calls call with
    | some (.validating ident key) =>
      some (s.validated call ident key raises outcome)
    | some (.leaving _) | some (.unsubscribingApp _) | none => none
  | .cancelled call =>
    match s.calls call with
    | some (.leaving _) => some (s.setCall call none)
    | some (.validating _ _) | some (.unsubscribingApp _) | none => none
  | .unsubscribe ident raises => some (s.unsubscribe ident raises).1
  | .unsubscribeApp app =>
    some (s.startCall (.unsubscribingApp (s.identsOf app)))
  | .nextIdent call raises =>
    match s.calls call with
    | some (.unsubscribingApp (ident :: rest)) =>
      match s.unsubscribe ident raises with
      | (s, .raised) => some (s.setCall call none)
      | (s, _) => some (s.setCall call (some (.unsubscribingApp rest)))
    | some (.unsubscribingApp []) => some (s.setCall call none)
    | some (.validating _ _) | some (.leaving _) | none => none
  | .processEnd ended order raises =>
    if ended ∈ s.processes ∧ order.Nodup ∧ order.toFinset = s.subscriptions ended.key then
      some ({ s with processes := s.processes.erase ended }.unsubscribeAll ended.key raises order)
    else none

/-- A `subscribe` call for the key has not returned. -/
def Subscribing (s : EventSourceManager) (key : EventKey) : Prop :=
  ∃ call, (s.calls call).bind EventCall.subscribes = some key

/-- The instance of the key is there, its `process()` task was started and has
not ended. -/
def Served (s : EventSourceManager) (key : EventKey) : Prop :=
  ∃ id, s.instances key = some id ∧ ⟨id, key⟩ ∈ s.processes

structure Consistent (s : EventSourceManager) : Prop where
  registered : ∀ ident key, (∃ subscriber, s.idents.get? ident = some ⟨subscriber, key⟩) ↔
      ident ∈ s.subscriptions key
  served : ∀ key, (s.subscriptions key).Nonempty → ¬ s.Subscribing key → s.Served key

end EventSourceManager

end Middlewared
