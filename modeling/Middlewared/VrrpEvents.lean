import Middlewared.PyString
import Middlewared.TransitionSystem

/-!
# The queue of VRRP events

`VrrpFifoThread` appends to a queue of length one, and `VrrpEventThread` takes from it.
-/

namespace Middlewared

open PyString Option List

structure VrrpFifoEvent where
  (ifname event : String)
  time : ℚ
deriving DecidableEq

namespace VrrpFifoThread

def shutdownLine : String := "--SHUTDOWN--"

/-- `text.strip('"')`. -/
def stripQuotes (text : String) : String :=
  String.ofList ((text.toList.dropWhile (· = '"')).rdropWhile (· = '"'))

def formatFifoMsg (event : String) (time : ℚ) : Option VrrpFifoEvent :=
  if time = 0 then none
  else
    match splitWords event with
    | [_, instance_, state, _] =>
      if state ∉ ["MASTER", "BACKUP", "FAULT"] then none
      else
        some {
          ifname := stripQuotes (splitFirst instance_ '_')
          event := if state = "FAULT" then "BACKUP" else state
          time }
    | _ => none

end VrrpFifoThread

/-! ## The two threads -/

structure QueuedEvent where
  number : ℕ
  event : VrrpFifoEvent

inductive FifoPhase where
  | reading
  | formatting (line : String)
  | returned

inductive EventPhase where
  | loop
  | paused
  | looking
  /-- What is next is a `pop`, and then the hook or nothing. -/
  | popping (thisEvent : QueuedEvent) (hook : Bool)
  | calling (thisEvent : QueuedEvent)
  | raised

/-- The fields from `appended` on are not stored by the code: they tell which
events have been appended, read for dispatch, dispatched and discarded. -/
structure VrrpThreads where
  eventQueue : Option QueuedEvent := none
  fifo : FifoPhase := .reading
  fifoPaused : Bool := false
  thread : EventPhase := .loop
  eventPaused : Bool := false
  lastEvent : Option VrrpFifoEvent := none
  backoff : Bool := false
  appended : ℕ := 0
  read : List ℕ := []
  dispatched : List ℕ := []
  discardedPaused : List ℕ := []
  discardedRapid : List ℕ := []

structure VrrpConfig where
  nonCritIfaces : List String
  timeout : ℕ

namespace VrrpThreads

def userProvidedTimeout (config : VrrpConfig) : ℕ :=
  if config.timeout = 0 then 2 else config.timeout

def gracePeriod : ℚ := 1 / 2

def maxWait (config : VrrpConfig) : ℚ :=
  userProvidedTimeout config + gracePeriod

def appendEvent (config : VrrpConfig) (time : ℚ) (line : String)
    (s : VrrpThreads) : VrrpThreads :=
  let event := strip line
  if event = VrrpFifoThread.shutdownLine then { s with fifo := .returned }
  else
    match VrrpFifoThread.formatFifoMsg event time with
    | none => { s with fifo := .reading }
    | some formatted =>
      if formatted.ifname ∈ config.nonCritIfaces then
        { s with fifo := .reading }
      else
        { s with
          fifo := .reading
          eventQueue := some ⟨s.appended, formatted⟩
          appended := s.appended + 1 }

def readForDispatch (thisEvent : QueuedEvent) (s : VrrpThreads) :
    VrrpThreads :=
  { s with
    thread := .popping thisEvent true
    lastEvent := none
    backoff := false
    read := thisEvent.number :: s.read }

def compareEvent (config : VrrpConfig) (thisEvent : QueuedEvent)
    (s : VrrpThreads) : VrrpThreads :=
  match s.lastEvent with
  | none => { s with thread := .loop, lastEvent := some thisEvent.event }
  | some last =>
    let timeDiffFloor := (thisEvent.event.time - last.time).floor
    let maxWaitFloor := (maxWait config).floor
    if last = thisEvent.event ∨ maxWaitFloor < timeDiffFloor then
      readForDispatch thisEvent s
    else if timeDiffFloor = maxWaitFloor then readForDispatch thisEvent s
    else if s.backoff = false then
      { s with thread := .loop, backoff := true, lastEvent := some thisEvent.event }
    else
      { s with thread := .popping thisEvent false, lastEvent := none, backoff := false }

def popEvent (thisEvent : QueuedEvent) (hook : Bool) (s : VrrpThreads) :
    VrrpThreads :=
  match s.eventQueue with
  | none => { s with thread := .raised }
  | some popped =>
    if hook then { s with thread := .calling thisEvent, eventQueue := none }
    else
      { s with
        thread := .loop
        eventQueue := none
        discardedRapid :=
          if popped.number = thisEvent.number then
            popped.number :: s.discardedRapid
          else s.discardedRapid }

def clearQueue (s : VrrpThreads) : VrrpThreads :=
  { s with
    thread := .looking
    lastEvent := none
    eventQueue := none
    discardedPaused :=
      if s.eventPaused then
        (s.eventQueue.map QueuedEvent.number).toList ++ s.discardedPaused
      else s.discardedPaused }

def eventThreadStep (config : VrrpConfig) (s : VrrpThreads) :
    Option VrrpThreads :=
  match s.thread with
  | .loop =>
    some { s with thread := if s.eventPaused then .paused else .looking }
  | .paused => some s.clearQueue
  | .looking =>
    match s.eventQueue with
    | none => some { s with thread := .loop }
    | some thisEvent => some (compareEvent config thisEvent s)
  | .popping thisEvent hook => some (popEvent thisEvent hook s)
  | .calling thisEvent =>
    some { s with thread := .loop, dispatched := thisEvent.number :: s.dispatched }
  | .raised => none

inductive Action where
  | readLine (line : String)
  | appendEvent (time : ℚ)
  | eventThread
  | setFifoPaused (paused : Bool)
  | setEventPaused (paused : Bool)

def step (config : VrrpConfig) (s : VrrpThreads) :
    Action → Option VrrpThreads
  | .readLine line =>
    match s.fifo with
    | .reading =>
      some { s with fifo := if s.fifoPaused then .reading else .formatting line }
    | .formatting _ | .returned => none
  | .appendEvent time =>
    match s.fifo with
    | .formatting line => some (appendEvent config time line s)
    | .reading | .returned => none
  | .eventThread => eventThreadStep config s
  | .setFifoPaused paused => some { s with fifoPaused := paused }
  | .setEventPaused paused => some { s with eventPaused := paused }

abbrev run (config : VrrpConfig) :
    VrrpThreads → List Action → Option VrrpThreads :=
  TransitionSystem.run (step config)

def inHand (s : VrrpThreads) : Option ℕ :=
  match s.thread with
  | .popping thisEvent true => some thisEvent.number
  | .calling thisEvent => some thisEvent.number
  | .loop | .paused | .looking | .popping _ false | .raised => none

def Accounted (s : VrrpThreads) (number : ℕ) : Prop :=
  s.eventQueue.map QueuedEvent.number = some number ∨
    s.inHand = some number ∨ number ∈ s.dispatched ∨
    (number + 1 < s.appended ∧ number ∉ s.read) ∨
    number ∈ s.discardedPaused ∨ number ∈ s.discardedRapid

/-- Every event is accounted for, and none is dispatched twice. -/
def DroppedOnPurpose (s : VrrpThreads) : Prop :=
  (∀ number < s.appended, Accounted s number) ∧ s.dispatched.Nodup

instance (s : VrrpThreads) : Decidable (DroppedOnPurpose s) :=
  inferInstanceAs (Decidable ((∀ number < s.appended, _ ∨ _) ∧ _))

/-- What the thread pops is what it has looked at, and it clears the queue of an
event only while it is paused. -/
def TakesWhatItRead (s : VrrpThreads) (action : Action) : Prop :=
  match action, s.thread with
  | .eventThread, .popping thisEvent _ =>
    ∀ popped ∈ s.eventQueue, popped.number = thisEvent.number
  | .eventThread, .paused => s.eventQueue = none ∨ s.eventPaused = true
  | _, _ => True

instance (s : VrrpThreads) (action : Action) :
    Decidable (TakesWhatItRead s action) := by
  unfold TakesWhatItRead
  split <;> infer_instance

/-! ## Numbers of events -/

variable {config : VrrpConfig} {s next : VrrpThreads}

structure NumberInvariant (s : VrrpThreads) : Prop where
  newest : ∀ queued ∈ s.eventQueue, queued.number + 1 = s.appended
  unused : ∀ queued ∈ s.eventQueue, queued.number ∉ s.dispatched ∧
    queued.number ∉ s.discardedPaused ∧ queued.number ∉ s.discardedRapid
  dispatched : ∀ number ∈ s.dispatched, number < s.appended
  paused : ∀ number ∈ s.discardedPaused, number < s.appended
  rapid : ∀ number ∈ s.discardedRapid, number < s.appended
  read : ∀ number ∈ s.read, s.inHand = some number ∨ number ∈ s.dispatched
  popping : ∀ thisEvent hook, s.thread = .popping thisEvent hook → s.eventQueue ≠ none
  inHand : ∀ number, s.inHand = some number → number < s.appended ∧ number ∉ s.dispatched
  calling : ∀ thisEvent, s.thread = .calling thisEvent →
    ∀ queued ∈ s.eventQueue, queued.number ≠ thisEvent.number
  nodup : s.dispatched.Nodup

namespace NumberInvariant

variable {t : VrrpThreads}

variable (hs : NumberInvariant s)

include hs

theorem of_thread (hqueue : t.eventQueue = s.eventQueue)
    (happended : t.appended = s.appended) (hread : t.read = s.read)
    (hdispatched : t.dispatched = s.dispatched)
    (hpaused : t.discardedPaused = s.discardedPaused)
    (hrapid : t.discardedRapid = s.discardedRapid) (hhand : t.inHand = s.inHand)
    (hpopping : ∀ thisEvent hook, t.thread = .popping thisEvent hook → t.eventQueue ≠ none)
    (hcalling : ∀ thisEvent, t.thread = .calling thisEvent →
      ∀ queued ∈ t.eventQueue, queued.number ≠ thisEvent.number) : NumberInvariant t where
  newest := by rw [hqueue, happended]; exact hs.newest
  unused := by
    rw [hqueue, hdispatched, hpaused, hrapid]
    exact hs.unused
  dispatched := by rw [hdispatched, happended]; exact hs.dispatched
  paused := by rw [hpaused, happended]; exact hs.paused
  rapid := by rw [hrapid, happended]; exact hs.rapid
  read := by rw [hread, hhand, hdispatched]; exact hs.read
  popping := hpopping
  inHand := by rw [hhand, happended, hdispatched]; exact hs.inHand
  calling := hcalling
  nodup := by rw [hdispatched]; exact hs.nodup

theorem of_fifo {fifo : FifoPhase} : NumberInvariant { s with fifo } :=
  hs.of_thread rfl rfl rfl rfl rfl rfl rfl hs.popping hs.calling

theorem of_idle (hqueue : t.eventQueue = s.eventQueue)
    (happended : t.appended = s.appended) (hread : t.read = s.read)
    (hdispatched : t.dispatched = s.dispatched)
    (hpaused : t.discardedPaused = s.discardedPaused)
    (hrapid : t.discardedRapid = s.discardedRapid) (hbefore : s.inHand = none)
    (hafter : t.thread = .loop ∨ t.thread = .paused ∨ t.thread = .looking) :
    NumberInvariant t := by
  apply hs.of_thread hqueue happended hread hdispatched hpaused hrapid
  · unfold VrrpThreads.inHand at hbefore ⊢
    rw [hbefore]
    rcases hafter with hthread | hthread | hthread <;> rw [hthread]
  · intro thisEvent hook hthread
    simp [hthread] at hafter
  · intro thisEvent hthread
    simp [hthread] at hafter

theorem append {formatted : VrrpFifoEvent} : NumberInvariant { s with
    fifo := .reading
    eventQueue := some ⟨s.appended, formatted⟩
    appended := s.appended + 1 } := { hs with
  newest := by
    intro queued hqueued
    rw [← some.inj hqueued]
  unused := by
    intro queued hqueued
    rw [← some.inj hqueued]
    refine ⟨?_, ?_, ?_⟩
    · exact fun h => absurd (hs.dispatched _ h) (lt_irrefl _)
    · exact fun h => absurd (hs.paused _ h) (lt_irrefl _)
    · exact fun h => absurd (hs.rapid _ h) (lt_irrefl _)
  dispatched := fun number h => Nat.lt_succ_of_lt (hs.dispatched number h)
  paused := fun number h => Nat.lt_succ_of_lt (hs.paused number h)
  rapid := fun number h => Nat.lt_succ_of_lt (hs.rapid number h)
  popping := by simp
  inHand := by
    intro number hhand
    obtain ⟨hlt, hnot⟩ := hs.inHand number hhand
    exact ⟨Nat.lt_succ_of_lt hlt, hnot⟩
  calling := by
    intro thisEvent hthread queued hqueued
    have hlt := (hs.inHand thisEvent.number
      (by simp only [VrrpThreads.inHand] at hthread ⊢; rw [hthread])).1
    rw [← some.inj hqueued]
    exact Nat.ne_of_gt hlt }

variable {thisEvent : QueuedEvent}

theorem readForDispatch (hidle : s.inHand = none) (hqueue : s.eventQueue = some thisEvent) :
    NumberInvariant (VrrpThreads.readForDispatch thisEvent s) := { hs with
  read := by
    intro number hread
    rcases mem_cons.mp hread with rfl | hread
    · exact Or.inl rfl
    · rcases hs.read number hread with hhand | hdispatched
      · rw [hidle] at hhand
        cases hhand
      · exact Or.inr hdispatched
  popping := by
    intro _ _ _ hnone
    cases hqueue.symm.trans hnone
  inHand := by
    intro number hhand
    obtain rfl := some.inj hhand
    exact ⟨Nat.lt_of_succ_le (hs.newest thisEvent hqueue).le, (hs.unused thisEvent hqueue).1⟩
  calling := by
    intro _ hthread
    cases hthread }

theorem compareEvent (hidle : s.inHand = none) (hqueue : s.eventQueue = some thisEvent) :
    NumberInvariant (VrrpThreads.compareEvent config thisEvent s) := by
  unfold VrrpThreads.compareEvent
  split
  · exact hs.of_idle rfl rfl rfl rfl rfl rfl hidle (Or.inl rfl)
  · simp only
    split
    · exact hs.readForDispatch hidle hqueue
    · split
      · exact hs.readForDispatch hidle hqueue
      · split
        · exact hs.of_idle rfl rfl rfl rfl rfl rfl hidle (Or.inl rfl)
        · refine hs.of_thread rfl rfl rfl rfl rfl rfl hidle.symm ?_ ?_
          · intro _ _ _ hnone
            cases hqueue.symm.trans hnone
          · intro _ hthread
            cases hthread

theorem empty (hqueue : t.eventQueue = none) (happended : t.appended = s.appended)
    (hread : t.read = s.read) (hdispatched : t.dispatched = s.dispatched)
    (hpaused : ∀ number ∈ t.discardedPaused, number < s.appended)
    (hrapid : ∀ number ∈ t.discardedRapid, number < s.appended)
    (hhand : t.inHand = s.inHand)
    (hpopping : ∀ thisEvent hook, t.thread ≠ .popping thisEvent hook) :
    NumberInvariant t where
  newest := by simp [hqueue]
  unused := by simp [hqueue]
  dispatched := by rw [hdispatched, happended]; exact hs.dispatched
  paused := by rw [happended]; exact hpaused
  rapid := by rw [happended]; exact hrapid
  read := by rw [hread, hhand, hdispatched]; exact hs.read
  popping := fun thisEvent hook hthread => absurd hthread (hpopping _ _)
  inHand := by rw [hhand, happended, hdispatched]; exact hs.inHand
  calling := by simp [hqueue]
  nodup := by rw [hdispatched]; exact hs.nodup

theorem clearQueue (hidle : s.inHand = none) : NumberInvariant s.clearQueue := by
  have hdiscarded : ∀ number ∈ s.clearQueue.discardedPaused, number < s.appended := by
    intro number hnumber
    unfold VrrpThreads.clearQueue at hnumber
    split at hnumber
    · rcases mem_append.mp hnumber with hqueued | hbefore
      · rw [mem_toList, map_eq_some_iff] at hqueued
        obtain ⟨queued, hqueued, rfl⟩ := hqueued
        exact Nat.lt_of_succ_le (hs.newest queued hqueued).le
      · exact hs.paused number hbefore
    · exact hs.paused number hnumber
  exact hs.empty rfl rfl rfl rfl hdiscarded hs.rapid hidle.symm (by simp [VrrpThreads.clearQueue])

theorem popEvent {hook : Bool} (hthread : s.thread = .popping thisEvent hook) :
    NumberInvariant (VrrpThreads.popEvent thisEvent hook s) := by
  have hhand : s.inHand = if hook then some thisEvent.number else none := by
    rw [VrrpThreads.inHand, hthread]
    cases hook <;> rfl
  unfold VrrpThreads.popEvent
  split
  · rename_i hqueue
    exact absurd hqueue (hs.popping thisEvent hook hthread)
  · rename_i popped hqueue
    split
    · rename_i hhook
      rw [if_pos hhook] at hhand
      exact hs.empty rfl rfl rfl rfl hs.paused hs.rapid hhand.symm (by simp)
    · rename_i hhook
      rw [if_neg hhook] at hhand
      refine hs.empty rfl rfl rfl rfl hs.paused ?_ hhand.symm (by simp)
      intro number hnumber
      split at hnumber
      · rcases mem_cons.mp hnumber with rfl | hbefore
        · exact Nat.lt_of_succ_le (hs.newest popped hqueue).le
        · exact hs.rapid number hbefore
      · exact hs.rapid number hnumber

theorem callHook (hthread : s.thread = .calling thisEvent) : NumberInvariant { s with
    thread := .loop
    dispatched := thisEvent.number :: s.dispatched } := by
  have hhand : s.inHand = some thisEvent.number := by
    rw [VrrpThreads.inHand, hthread]
  obtain ⟨hlt, hnot⟩ := hs.inHand _ hhand
  constructor
  · exact hs.newest
  · intro queued hqueued
    refine ⟨?_, (hs.unused queued hqueued).2⟩
    rw [mem_cons, not_or]
    exact ⟨hs.calling thisEvent hthread queued hqueued, (hs.unused queued hqueued).1⟩
  · exact forall_mem_cons.mpr ⟨hlt, hs.dispatched⟩
  · exact hs.paused
  · exact hs.rapid
  · intro number hread
    right
    rcases hs.read number hread with hsame | hdispatched
    · rw [hhand] at hsame
      exact some.inj hsame ▸ mem_cons_self
    · exact mem_cons_of_mem _ hdispatched
  · intro _ _ hpopping
    cases hpopping
  · intro number hother
    cases hother
  · intro _ hcalling
    cases hcalling
  · exact nodup_cons.mpr ⟨hnot, hs.nodup⟩

theorem appendEvent {time : ℚ} {line : String} :
    NumberInvariant (VrrpThreads.appendEvent config time line s) := by
  unfold VrrpThreads.appendEvent
  simp only
  split
  · exact hs.of_fifo
  · split
    · exact hs.of_fifo
    · split
      · exact hs.of_fifo
      · exact hs.append

theorem eventThreadStep (hstep : VrrpThreads.eventThreadStep config s = some next) :
    NumberInvariant next := by
  unfold VrrpThreads.eventThreadStep at hstep
  cases hthread : s.thread with
  | loop =>
    have hidle : s.inHand = none := by rw [VrrpThreads.inHand, hthread]
    simp only [hthread, some.injEq] at hstep
    rw [← hstep]
    refine hs.of_idle rfl rfl rfl rfl rfl rfl hidle ?_
    split <;> simp
  | paused =>
    have hidle : s.inHand = none := by rw [VrrpThreads.inHand, hthread]
    simp only [hthread, some.injEq] at hstep
    rw [← hstep]
    exact hs.clearQueue hidle
  | looking =>
    have hidle : s.inHand = none := by rw [VrrpThreads.inHand, hthread]
    simp only [hthread] at hstep
    split at hstep
    · rw [← some.inj hstep]
      exact hs.of_idle rfl rfl rfl rfl rfl rfl hidle (Or.inl rfl)
    · rename_i hqueue
      rw [← some.inj hstep]
      exact hs.compareEvent hidle hqueue
  | popping thisEvent hook =>
    simp only [hthread, some.injEq] at hstep
    rw [← hstep]
    exact hs.popEvent hthread
  | calling thisEvent =>
    simp only [hthread, some.injEq] at hstep
    rw [← hstep]
    exact hs.callHook hthread
  | raised =>
    simp only [hthread] at hstep
    cases hstep

theorem step {action : Action} (hstep : VrrpThreads.step config s action = some next) :
    NumberInvariant next := by
  cases action with
  | readLine line =>
    unfold VrrpThreads.step at hstep
    simp only at hstep
    split at hstep
    · rw [← some.inj hstep]
      exact hs.of_fifo
    · cases hstep
    · cases hstep
  | appendEvent time =>
    unfold VrrpThreads.step at hstep
    simp only at hstep
    split at hstep
    · rw [← some.inj hstep]
      exact hs.appendEvent
    · cases hstep
    · cases hstep
  | eventThread => exact hs.eventThreadStep hstep
  | setFifoPaused paused =>
    rw [← some.inj hstep]
    exact hs.of_thread rfl rfl rfl rfl rfl rfl rfl hs.popping hs.calling
  | setEventPaused paused =>
    rw [← some.inj hstep]
    exact hs.of_thread rfl rfl rfl rfl rfl rfl rfl hs.popping hs.calling

end NumberInvariant

/-! ## Events that are lost -/

variable {t : VrrpThreads}

theorem Accounted.mono {number : ℕ} (hnumber : Accounted s number)
    (hqueue : s.eventQueue.map QueuedEvent.number = some number →
      Accounted t number) (hhand : s.inHand = some number → Accounted t number)
    (hdispatched : s.dispatched ⊆ t.dispatched)
    (happended : s.appended ≤ t.appended)
    (hread : number + 1 < s.appended → number ∈ t.read → number ∈ s.read)
    (hpaused : s.discardedPaused ⊆ t.discardedPaused)
    (hrapid : s.discardedRapid ⊆ t.discardedRapid) : Accounted t number := by
  rcases hnumber with h | h | h | h | h | h
  · exact hqueue h
  · exact hhand h
  · exact Or.inr (Or.inr (Or.inl (hdispatched h)))
  · refine Or.inr (Or.inr (Or.inr (Or.inl ⟨by omega, ?_⟩)))
    exact fun hmem => h.2 (hread h.1 hmem)
  · exact Or.inr (Or.inr (Or.inr (Or.inr (Or.inl (hpaused h)))))
  · exact Or.inr (Or.inr (Or.inr (Or.inr (Or.inr (hrapid h)))))

variable (hs : NumberInvariant s)

include hs

theorem not_accounted {queued : QueuedEvent} (hqueued : s.eventQueue = some queued)
    (hqueue : t.eventQueue = none) (hhand : t.inHand ≠ some queued.number)
    (happended : t.appended = s.appended) (hdispatched : t.dispatched = s.dispatched)
    (hpaused : t.discardedPaused = s.discardedPaused)
    (hrapid : t.discardedRapid = s.discardedRapid) :
    ¬∀ number < t.appended, Accounted t number := by
  intro hall
  have hnewest := hs.newest queued hqueued
  obtain ⟨hnoDispatch, hnoPause, hnoRapid⟩ := hs.unused queued hqueued
  rcases hall queued.number (by omega) with h | h | h | h | h | h
  · simp [hqueue] at h
  · exact hhand h
  · exact hnoDispatch (hdispatched ▸ h)
  · omega
  · exact hnoPause (hpaused ▸ h)
  · exact hnoRapid (hrapid ▸ h)

omit hs in
theorem accounted_of_eq (hall : ∀ number < s.appended, Accounted s number)
    (happended : t.appended = s.appended)
    (hqueue : ∀ number, s.eventQueue.map QueuedEvent.number = some number → Accounted t number)
    (hhand : ∀ number, s.inHand = some number → Accounted t number)
    (hread : t.read = s.read) (hdispatched : t.dispatched = s.dispatched)
    (hpaused : s.discardedPaused ⊆ t.discardedPaused)
    (hrapid : s.discardedRapid ⊆ t.discardedRapid) :
    ∀ number < t.appended, Accounted t number := by
  intro number hlt
  refine (hall number (happended ▸ hlt)).mono (hqueue number) (hhand number)
    ?_ happended.ge ?_ hpaused hrapid
  · rw [hdispatched]
    exact List.Subset.refl _
  · rw [hread]
    exact fun _ h => h

theorem accounted_appendEvent {time : ℚ} {line : String}
    (hall : ∀ number < s.appended, Accounted s number) :
    ∀ number < (appendEvent config time line s).appended,
      Accounted (appendEvent config time line s) number := by
  unfold appendEvent
  simp only
  split
  · exact hall
  · split
    · exact hall
    · split
      · exact hall
      · intro number hlt
        rcases Nat.lt_succ_iff_lt_or_eq.mp hlt with hbefore | rfl
        · refine (hall number hbefore).mono ?_ ?_ (List.Subset.refl _)
            (Nat.le_succ _) (fun _ h => h) (List.Subset.refl _)
            (List.Subset.refl _)
          · intro _
            by_cases hread : number ∈ s.read
            · rcases hs.read number hread with hhand | hdispatched
              · exact Or.inr (Or.inl hhand)
              · exact Or.inr (Or.inr (Or.inl hdispatched))
            · refine Or.inr (Or.inr (Or.inr (Or.inl ⟨?_, hread⟩)))
              exact Nat.succ_lt_succ hbefore
          · exact fun hhand => Or.inr (Or.inl hhand)
        · exact Or.inl rfl

theorem accounted_compareEvent {thisEvent : QueuedEvent} (hidle : s.inHand = none)
    (hqueue : s.eventQueue = some thisEvent)
    (hall : ∀ number < s.appended, Accounted s number) :
    ∀ number < (compareEvent config thisEvent s).appended,
      Accounted (compareEvent config thisEvent s) number := by
  have hnewest := hs.newest thisEvent hqueue
  have hnone : ∀ number, s.inHand ≠ some number := by simp [hidle]
  have hread : ∀ number < s.appended, Accounted (readForDispatch thisEvent s) number := by
    intro number hlt
    refine (hall number hlt).mono Or.inl (fun h => absurd h (hnone number))
      (List.Subset.refl _) le_rfl ?_ (List.Subset.refl _) (List.Subset.refl _)
    intro holder hmem
    rcases mem_cons.mp hmem with rfl | hmem
    · omega
    · exact hmem
  unfold compareEvent
  split
  · exact accounted_of_eq hall rfl (fun _ h => Or.inl h)
      (fun number h => absurd h (hnone number)) rfl rfl (List.Subset.refl _)
      (List.Subset.refl _)
  · simp only
    split
    · exact hread
    · split
      · exact hread
      · split
        · exact accounted_of_eq hall rfl (fun _ h => Or.inl h)
            (fun number h => absurd h (hnone number)) rfl rfl
            (List.Subset.refl _) (List.Subset.refl _)
        · exact accounted_of_eq hall rfl (fun _ h => Or.inl h)
            (fun number h => absurd h (hnone number)) rfl rfl
            (List.Subset.refl _) (List.Subset.refl _)

theorem accounted_clearQueue_iff (hidle : s.inHand = none)
    (hall : ∀ number < s.appended, Accounted s number) :
    (∀ number < s.clearQueue.appended, Accounted s.clearQueue number) ↔
      s.eventQueue = none ∨ s.eventPaused = true := by
  have hnone : ∀ number, s.inHand ≠ some number := by simp [hidle]
  cases hqueue : s.eventQueue with
  | none =>
    refine iff_of_true ?_ (Or.inl rfl)
    refine accounted_of_eq hall rfl ?_ (fun number h => absurd h (hnone number)) rfl rfl ?_
      (List.Subset.refl _)
    · simp [hqueue]
    · simp [clearQueue, hqueue]
  | some queued =>
    cases hpaused : s.eventPaused with
    | true =>
      refine iff_of_true ?_ (Or.inr rfl)
      refine accounted_of_eq hall rfl ?_ (fun number h => absurd h (hnone number)) rfl rfl ?_
        (List.Subset.refl _)
      · intro number hnumber
        refine Or.inr (Or.inr (Or.inr (Or.inr (Or.inl ?_))))
        simp [clearQueue, hpaused, hnumber]
      · simp [clearQueue, hpaused]
    | false =>
      refine iff_of_false ?_ (by simp)
      exact not_accounted hs hqueue rfl (by simp [clearQueue, inHand]) rfl
        rfl (by simp [clearQueue, hpaused]) rfl

theorem accounted_popEvent_iff {thisEvent : QueuedEvent} {hook : Bool}
    (hthread : s.thread = .popping thisEvent hook)
    (hall : ∀ number < s.appended, Accounted s number) :
    (∀ number < (popEvent thisEvent hook s).appended,
        Accounted (popEvent thisEvent hook s) number) ↔
      ∀ popped ∈ s.eventQueue, popped.number = thisEvent.number := by
  cases hqueue : s.eventQueue with
  | none => exact absurd hqueue (hs.popping thisEvent hook hthread)
  | some popped =>
    simp only [mem_some_iff, forall_eq']
    unfold popEvent
    simp only [hqueue]
    cases hook with
    | true =>
      have hhand : s.inHand = some thisEvent.number := by
        rw [inHand, hthread]
      by_cases hsame : popped.number = thisEvent.number
      · refine iff_of_true ?_ hsame
        refine accounted_of_eq hall rfl ?_ ?_ rfl rfl (List.Subset.refl _) (List.Subset.refl _)
        · intro number hnumber
          right
          left
          rw [hqueue, map_some, hsame] at hnumber
          exact hnumber
        · intro number hnumber
          exact Or.inr (Or.inl (hhand.symm.trans hnumber))
      · refine iff_of_false ?_ hsame
        refine not_accounted hs hqueue rfl ?_ rfl rfl rfl rfl
        intro hother
        exact hsame (some.inj hother).symm
    | false =>
      have hnone : ∀ number, s.inHand ≠ some number := by
        simp [inHand, hthread]
      by_cases hsame : popped.number = thisEvent.number
      · refine iff_of_true ?_ hsame
        refine accounted_of_eq hall rfl ?_ (fun number h => absurd h (hnone number)) rfl rfl
          (List.Subset.refl _) ?_
        · intro number hnumber
          refine Or.inr (Or.inr (Or.inr (Or.inr (Or.inr ?_))))
          rw [hqueue, map_some, some.injEq] at hnumber
          simp [hsame, ← hnumber]
        · simp [hsame]
      · refine iff_of_false ?_ hsame
        exact not_accounted hs hqueue rfl (by simp [inHand]) rfl rfl rfl (by simp [hsame])

theorem accounted_eventThread_iff (hall : ∀ number < s.appended, Accounted s number)
    (hstep : eventThreadStep config s = some next) :
    (∀ number < next.appended, Accounted next number) ↔ TakesWhatItRead s .eventThread := by
  unfold eventThreadStep at hstep
  unfold TakesWhatItRead
  cases hthread : s.thread with
  | loop =>
    have hnone : ∀ number, s.inHand ≠ some number := by
      simp [inHand, hthread]
    simp only [hthread, some.injEq] at hstep
    rw [← hstep]
    refine iff_of_true ?_ trivial
    exact accounted_of_eq hall rfl (fun _ h => Or.inl h)
      (fun number h => absurd h (hnone number)) rfl rfl (List.Subset.refl _)
      (List.Subset.refl _)
  | paused =>
    have hidle : s.inHand = none := by rw [inHand, hthread]
    simp only [hthread, some.injEq] at hstep
    rw [← hstep]
    exact accounted_clearQueue_iff hs hidle hall
  | looking =>
    have hidle : s.inHand = none := by rw [inHand, hthread]
    have hnone : ∀ number, s.inHand ≠ some number := by simp [hidle]
    simp only [hthread] at hstep
    refine iff_of_true ?_ trivial
    split at hstep
    · rw [← some.inj hstep]
      exact accounted_of_eq hall rfl (fun _ h => Or.inl h)
        (fun number h => absurd h (hnone number)) rfl rfl
        (List.Subset.refl _) (List.Subset.refl _)
    · rename_i hqueue
      rw [← some.inj hstep]
      exact accounted_compareEvent hs hidle hqueue hall
  | popping thisEvent hook =>
    simp only [hthread, some.injEq] at hstep
    rw [← hstep]
    exact accounted_popEvent_iff hs hthread hall
  | calling thisEvent =>
    have hhand : s.inHand = some thisEvent.number := by rw [inHand, hthread]
    simp only [hthread, some.injEq] at hstep
    rw [← hstep]
    refine iff_of_true ?_ trivial
    intro number hlt
    refine (hall number hlt).mono Or.inl ?_ (subset_cons_self _ _) le_rfl
      (fun _ h => h) (List.Subset.refl _) (List.Subset.refl _)
    intro hsame
    have heq := some.inj (hhand.symm.trans hsame)
    exact Or.inr (Or.inr (Or.inl (heq ▸ mem_cons_self)))
  | raised =>
    simp only [hthread] at hstep
    cases hstep

theorem droppedOnPurpose_step_iff {action : Action} (hp : DroppedOnPurpose s)
    (hstep : step config s action = some next) :
    DroppedOnPurpose next ↔ TakesWhatItRead s action := by
  have hnodup := (hs.step hstep).nodup
  unfold DroppedOnPurpose
  rw [and_iff_left hnodup]
  cases action with
  | readLine line =>
    unfold step at hstep
    simp only at hstep
    split at hstep
    · rw [← some.inj hstep]
      exact iff_of_true hp.1 trivial
    · cases hstep
    · cases hstep
  | appendEvent time =>
    unfold step at hstep
    simp only at hstep
    split at hstep
    · rw [← some.inj hstep]
      exact iff_of_true (accounted_appendEvent hs hp.1) trivial
    · cases hstep
    · cases hstep
  | eventThread => exact accounted_eventThread_iff hs hp.1 hstep
  | setFifoPaused paused =>
    rw [← some.inj hstep]
    exact iff_of_true hp.1 trivial
  | setEventPaused paused =>
    rw [← some.inj hstep]
    exact iff_of_true hp.1 trivial

omit hs

def started : VrrpThreads := {}

theorem numberInvariant_started : NumberInvariant started := by
  constructor <;> simp [started, inHand]

/-- No event is lost in a run exactly when the event thread always takes what it
has read, and clears the queue only of what comes while it is paused. -/
theorem droppedOnPurpose_iff_takesWhatItRead {actions : List Action}
    {final : VrrpThreads} (hrun : run config started actions = some final) :
    TransitionSystem.EveryStep (step config) TakesWhatItRead started actions ↔
      ∀ k s, run config started (actions.take k) = some s → DroppedOnPurpose s := by
  have hstarted : DroppedOnPurpose started := by
    simp [DroppedOnPurpose, started]
  have hkept : ∀ s action next, NumberInvariant s →
      step config s action = some next → NumberInvariant next :=
    fun _ _ _ hs hstep => hs.step hstep
  have hstep : ∀ s action next, NumberInvariant s → DroppedOnPurpose s →
      step config s action = some next →
      (DroppedOnPurpose next ↔ TakesWhatItRead s action) :=
    fun _ _ _ hs hp hstep => droppedOnPurpose_step_iff hs hp hstep
  exact TransitionSystem.everyStep_iff_forall_take NumberInvariant hkept hstep
    numberInvariant_started hstarted hrun

/-! ## The order of the events -/

structure InOrder (s : VrrpThreads) : Prop where
  dispatched : s.dispatched.Pairwise (· > ·)
  hand : ∀ number, s.inHand = some number → ∀ earlier ∈ s.dispatched, earlier < number

/-- What a step does to the events that are in hand or dispatched. -/
inductive HandMove (s next : VrrpThreads) : Prop
  | kept (hdispatched : next.dispatched = s.dispatched)
      (hhand : next.inHand = s.inHand ∨ next.inHand = none)
  | taken (queued : QueuedEvent) (hqueued : s.eventQueue = some queued)
      (hdispatched : next.dispatched = s.dispatched) (hhand : next.inHand = some queued.number)
  | dispatched (number : ℕ) (hnumber : s.inHand = some number)
      (hdispatched : next.dispatched = number :: s.dispatched) (hhand : next.inHand = none)

theorem handMove_compareEvent {thisEvent : QueuedEvent} (hqueued : s.eventQueue = some thisEvent) :
    HandMove s (compareEvent config thisEvent s) := by
  unfold compareEvent
  split
  · exact .kept rfl (.inr rfl)
  · simp only
    split_ifs
    · exact .taken thisEvent hqueued rfl rfl
    · exact .taken thisEvent hqueued rfl rfl
    · exact .kept rfl (.inr rfl)
    · exact .kept rfl (.inr rfl)

theorem handMove_eventThread (hstep : eventThreadStep config s = some next) :
    HandMove s next := by
  unfold eventThreadStep at hstep
  split at hstep
  · rw [← some.inj hstep]
    refine .kept rfl (.inr ?_)
    cases s.eventPaused <;> simp [inHand]
  · rw [← some.inj hstep]
    exact .kept rfl (.inr rfl)
  · split at hstep
    · rw [← some.inj hstep]
      exact .kept rfl (.inr rfl)
    · rename_i hqueued
      rw [← some.inj hstep]
      exact handMove_compareEvent hqueued
  · rename_i thisEvent hook hthread
    rw [← some.inj hstep]
    unfold popEvent
    split
    · exact .kept rfl (.inr rfl)
    · cases hook
      · exact .kept rfl (.inr rfl)
      · exact .kept rfl (.inl (by simp [inHand, hthread]))
  · rename_i thisEvent hthread
    rw [← some.inj hstep]
    exact .dispatched thisEvent.number (by simp [inHand, hthread]) rfl rfl
  · cases hstep

theorem handMove_step {action : Action} (hstep : step config s action = some next) :
    HandMove s next := by
  cases action with
  | eventThread => exact handMove_eventThread hstep
  | setFifoPaused paused | setEventPaused paused =>
    rw [← some.inj hstep]
    exact .kept rfl (.inl rfl)
  | readLine line =>
    unfold step at hstep
    simp only at hstep
    split at hstep
    · rw [← some.inj hstep]
      exact .kept rfl (.inl rfl)
    · cases hstep
    · cases hstep
  | appendEvent time =>
    unfold step at hstep
    simp only at hstep
    split at hstep
    · rw [← some.inj hstep]
      unfold appendEvent
      simp only
      split_ifs
      · exact .kept rfl (.inl rfl)
      · split
        · exact .kept rfl (.inl rfl)
        · split_ifs <;> exact .kept rfl (.inl rfl)
    · cases hstep
    · cases hstep

theorem InOrder.step {action : Action} (hin : s.InOrder) (hs : NumberInvariant s)
    (hstep : step config s action = some next) : next.InOrder := by
  cases handMove_step hstep with
  | kept hdispatched hhand =>
    refine ⟨hdispatched ▸ hin.dispatched, ?_⟩
    intro number hnumber
    rcases hhand with hhand | hhand
    · rw [hdispatched]
      exact hin.hand number (hhand ▸ hnumber)
    · rw [hhand] at hnumber
      cases hnumber
  | taken queued hqueued hdispatched hhand =>
    refine ⟨hdispatched ▸ hin.dispatched, ?_⟩
    intro number hnumber earlier hearlier
    rw [hdispatched] at hearlier
    rw [hhand] at hnumber
    cases hnumber
    -- the newest event that was appended, and not dispatched yet
    have hlt := hs.dispatched earlier hearlier
    have hnewest := hs.newest queued hqueued
    have hne : earlier ≠ queued.number := by
      rintro rfl
      exact (hs.unused queued hqueued).1 hearlier
    omega
  | dispatched number hnumber hdispatched hhand =>
    constructor
    · rw [hdispatched, List.pairwise_cons]
      exact ⟨hin.hand number hnumber, hin.dispatched⟩
    · intro other hother
      rw [hhand] at hother
      cases hother

/-- The events that reach the hook reach it in the order in which they were
appended, and none reaches it twice, whatever is dropped in between. -/
theorem dispatched_inOrder {actions : List Action} {final : VrrpThreads}
    (hrun : run config started actions = some final) : final.dispatched.Pairwise (· > ·) ∧
    ∀ number ∈ final.dispatched, number < final.appended := by
  have hboth : NumberInvariant final ∧ final.InOrder :=
    TransitionSystem.run_invariant (p := fun s => NumberInvariant s ∧ s.InOrder)
      (fun _ _ _ h hstep => ⟨h.1.step hstep, h.2.step h.1 hstep⟩)
      ⟨numberInvariant_started, by simp [started], by simp [started]⟩ hrun
  exact ⟨hboth.2.dispatched, hboth.1.dispatched⟩

def eno1Config : VrrpConfig := ⟨["eno2"], 2⟩

def appendLine (line : String) (time : ℚ) : List Action :=
  [.readLine line, .appendEvent time]

def dispatchOne : List Action :=
  [.eventThread, .eventThread, .eventThread, .eventThread, .eventThread, .eventThread]

def backupLine : String := "INSTANCE \"eno1_v4\" BACKUP 254\n"

def masterLine : String := "INSTANCE \"eno1_v4\" MASTER 254\n"

def appendedBeforePop : List Action :=
  appendLine backupLine 100 ++ [.eventThread, .eventThread, .eventThread, .eventThread] ++
      appendLine masterLine 103 ++ [.eventThread, .eventThread]

def appendedBeforeClear : List Action :=
  [.setEventPaused true, .eventThread, .setEventPaused false] ++
    appendLine masterLine 100 ++ [.eventThread]

/-- The event read is not the one taken, or the queue is cleared over it. -/
theorem event_lost : (run eno1Config started appendedBeforePop).any
      (fun final => ¬DroppedOnPurpose final) = true ∧
    (run eno1Config started appendedBeforeClear).any
      (fun final => ¬DroppedOnPurpose final) = true := by
  decide +kernel

theorem droppedOnPurpose_twoEvents : ∃ final, run eno1Config started
      (appendLine backupLine 100 ++ dispatchOne ++
        appendLine masterLine 103 ++ dispatchOne) = some final ∧
    DroppedOnPurpose final ∧ final.dispatched = [1, 0] := by
  have hany : (run eno1Config started (appendLine backupLine 100 ++ dispatchOne ++
        appendLine masterLine 103 ++ dispatchOne)).any
        (fun final => decide (final.dispatched = [1, 0])) = true := by
    decide +kernel
  obtain ⟨final, hfinal, hdispatched⟩ := (Option.any_eq_true _ _).mp hany
  have hevery : TransitionSystem.EveryStep (step eno1Config) TakesWhatItRead
      started (appendLine backupLine 100 ++ dispatchOne ++
        appendLine masterLine 103 ++ dispatchOne) := by
    decide +kernel
  rw [decide_eq_true_eq] at hdispatched
  exact ⟨final, hfinal, (droppedOnPurpose_iff_takesWhatItRead hfinal).mp hevery 16 final hfinal,
    hdispatched⟩

theorem dispatched_inOrder_appendedBeforePop : ∃ final,
    run eno1Config started appendedBeforePop = some final ∧
    final.dispatched.Pairwise (· > ·) := by
  obtain ⟨final, hrun⟩ := Option.isSome_iff_exists.mp (by decide +kernel :
    (run eno1Config started appendedBeforePop).isSome = true)
  exact ⟨final, hrun, (dispatched_inOrder hrun).1⟩

end VrrpThreads

end Middlewared
