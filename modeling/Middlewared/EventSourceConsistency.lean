import Middlewared.EventSource
import Mathlib.Tactic

/-!
# Consistent subscriptions

The idents and the sets of subscriptions go together unless a `terminate` raises between the two
updates.
-/

namespace Middlewared.EventSourceManager

open TransitionSystem Function Dict List Option

section

variable (s : EventSourceManager)

/-- The `subscribe` call need not start anything: the instance of the key is
gone or was started, or another call for the key is still to return. -/
def MayReturn (call : ℕ) (key : EventKey) : Prop :=
  s.instances key = none ∨ s.Served key ∨ ∃ other, other ≠ call ∧
      (s.calls other).bind EventCall.subscribes = some key

/-- `terminate` is not called for the ident, or does not raise. -/
def Quiet (ident : String) (raises : Bool) : Prop :=
  raises = true → s.idents.get? ident = none

/-- The ident is the last one of its `(name, arg)`. -/
def LastOf (ident : String) : Prop :=
  ∃ data, s.idents.get? ident = some data ∧ s.subscriptions data.key = {ident}

def EndsWell (call : ℕ) (ident : String) (key : EventKey) (raises : Bool) :
    ArgValidation → Prop
  | .accepted => True
  | .rejected =>
    s.Quiet ident raises ∧ (s.LastOf ident ∨ s.MayReturn call key)
  | .raised => s.MayReturn call key

def Harmless : Action → Prop
  | .subscribe _ _ _ | .unsubscribeApp _ => True
  | .validated call outcome raises =>
    ∀ ident key, s.calls call = some (.validating ident key) →
      s.EndsWell call ident key raises outcome
  | .cancelled call =>
    ∀ key, s.calls call = some (.leaving key) → s.MayReturn call key
  | .unsubscribe ident raises => s.Quiet ident raises
  | .nextIdent call raises =>
    ∀ ident rest, s.calls call = some (.unsubscribingApp (ident :: rest)) → s.Quiet ident raises
  | .processEnd ended _ raises =>
    ∀ ident ∈ s.subscriptions ended.key, raises ident = false

end

/-! ## The two halves of consistency -/

section

variable {s next : EventSourceManager}

def Registered (s : EventSourceManager) : Prop :=
  ∀ ident key, (∃ subscriber, s.idents.get? ident = some ⟨subscriber, key⟩) ↔
      ident ∈ s.subscriptions key

def AllServed (s : EventSourceManager) : Prop :=
  ∀ key, s.instances key ≠ none → ¬ s.Subscribing key → s.Served key

structure Linked (s : EventSourceManager) : Prop where
  instances : ∀ key, s.instances key ≠ none ↔ (s.subscriptions key).Nonempty
  calls : ∀ call, s.nextCall ≤ call → s.calls call = none

theorem consistent_iff_halves (hlinked : Linked s) : s.Consistent ↔ s.Registered ∧ s.AllServed := by
  constructor
  · rintro ⟨hregistered, hserved⟩
    refine ⟨hregistered, ?_⟩
    intro key hinstance
    exact hserved key ((hlinked.instances key).mp hinstance)
  · rintro ⟨hregistered, hserved⟩
    refine ⟨hregistered, ?_⟩
    intro key hnonempty
    exact hserved key ((hlinked.instances key).mpr hnonempty)

theorem init_linked (eventSources : List String) : Linked (init eventSources) where
  instances := by simp [init]
  calls := by simp [init]

theorem init_consistent (eventSources : List String) : (init eventSources).Consistent where
  registered := by simp [init]
  served := by simp [init]

theorem AllServed.of_key (hserved : s.AllServed)
    (hkey : ∀ key, next.instances key = none ∨ next.Subscribing key ∨
      next.Served key ∨ next.instances key = s.instances key ∧
        (s.Subscribing key → next.Subscribing key) ∧
        ∀ id, (⟨id, key⟩ : EventInstance) ∈ s.processes →
          ⟨id, key⟩ ∈ next.processes) : next.AllServed := by
  intro key hinstance hnot
  rcases hkey key with hnone | hsubscribing | hnext |
    ⟨hsame, hsubscribing, hprocesses⟩
  · exact absurd hnone hinstance
  · exact absurd hsubscribing hnot
  · exact hnext
  · rw [hsame] at hinstance
    obtain ⟨id, hid, hmem⟩ := hserved key hinstance fun hs => hnot (hsubscribing hs)
    exact ⟨id, hsame.trans hid, hprocesses id hmem⟩

theorem allServed_return_iff {call : ℕ} {key : EventKey} (hserved : s.AllServed)
    (hcall : (s.calls call).bind EventCall.subscribes = some key)
    (hinstances : next.instances = s.instances)
    (hprocesses : next.processes = s.processes)
    (hcalls : next.calls = Function.update s.calls call none) :
    next.AllServed ↔ s.MayReturn call key := by
  have hsame : ∀ other, next.Served other ↔ s.Served other := by
    intro other
    simp only [Served, hinstances, hprocesses]
  have hsubscribing : ∀ other, next.Subscribing other ↔ ∃ that, that ≠ call ∧
        (s.calls that).bind EventCall.subscribes = some other := by
    intro other
    simp only [Subscribing, hcalls]
    constructor
    · rintro ⟨that, hthat⟩
      by_cases hne : that = call
      · simp [hne] at hthat
      · rw [update_of_ne hne] at hthat
        exact ⟨that, hne, hthat⟩
    · rintro ⟨that, hne, hthat⟩
      refine ⟨that, ?_⟩
      rw [update_of_ne hne]
      exact hthat
  constructor
  · intro hnext
    by_cases hnone : s.instances key = none
    · exact .inl hnone
    · by_cases hother : next.Subscribing key
      · exact .inr (.inr ((hsubscribing key).mp hother))
      · refine .inr (.inl ((hsame key).mp (hnext key ?_ hother)))
        rw [hinstances]
        exact hnone
  · intro hmay other hinstance hnot
    rw [hinstances] at hinstance
    rw [hsame]
    by_cases hother : other = key
    · subst other
      rcases hmay with hnone | hserved | hthat
      · exact absurd hnone hinstance
      · exact hserved
      · exact absurd ((hsubscribing key).mpr hthat) hnot
    · apply hserved other hinstance
      rintro ⟨that, hthat⟩
      apply hnot
      refine (hsubscribing other).mpr ⟨that, ?_, hthat⟩
      rintro rfl
      rw [hcall] at hthat
      exact hother (some.inj hthat).symm

end

/-! ## `unsubscribe` -/

section

variable {s next : EventSourceManager} {ident : String} {raises : Bool}
  {result : Unsubscribing}

/-- What `unsubscribe` does: nothing, half of it, or all of it. -/
inductive UnsubscribeMove (s : EventSourceManager) (ident : String)
    (raises : Bool) : EventSourceManager → Unsubscribing → Prop
  | unknown (habsent : s.idents.get? ident = none) : UnsubscribeMove s ident raises s .raised
  | halfway (data : IdentData) (hdata : s.idents.get? ident = some data)
      (hhalf : raises = true ∨ ident ∉ s.subscriptions data.key) :
      UnsubscribeMove s ident raises { s with idents := s.idents.erase ident } .raised
  | others (data : IdentData) (hdata : s.idents.get? ident = some data)
      (hquiet : raises = false) (hmem : ident ∈ s.subscriptions data.key)
      (hothers : (s.subscriptions data.key).erase ident ≠ ∅) :
      UnsubscribeMove s ident raises { s with
          idents := s.idents.erase ident
          subscriptions := Function.update s.subscriptions data.key
            ((s.subscriptions data.key).erase ident) } .returned
  | last (data : IdentData) (hdata : s.idents.get? ident = some data)
      (hquiet : raises = false) (hlast : s.subscriptions data.key = {ident}) :
      UnsubscribeMove s ident raises { s with
          idents := s.idents.erase ident
          subscriptions := Function.update s.subscriptions data.key ∅
          instances := Function.update s.instances data.key none } .cancelling

theorem unsubscribe_move (hlinked : s.Linked) (ident : String) (raises : Bool) :
    UnsubscribeMove s ident raises (s.unsubscribe ident raises).1
      (s.unsubscribe ident raises).2 := by
  unfold unsubscribe
  cases hdata : s.idents.get? ident with
  | none => exact .unknown hdata
  | some data =>
    simp only
    split_ifs with hhalf hlast
    · exact .halfway data hdata hhalf
    · rw [not_or, not_not] at hhalf
      obtain ⟨hquiet, hmem⟩ := hhalf
      have hsingle : s.subscriptions data.key = {ident} := by
        rw [← Finset.insert_erase hmem, hlast]
        rfl
      have hinstance : s.instances data.key ≠ none := (hlinked.instances data.key).mpr ⟨ident, hmem⟩
      obtain ⟨id, hid⟩ := ne_none_iff_exists'.mp hinstance
      simp only [hid, hlast]
      exact .last data hdata (by simpa using hquiet) hsingle
    · rw [not_or, not_not] at hhalf
      obtain ⟨hquiet, hmem⟩ := hhalf
      exact .others data hdata (by simpa using hquiet) hmem hlast

variable (hmove : UnsubscribeMove s ident raises next result)

include hmove

theorem UnsubscribeMove.linked (hlinked : s.Linked) : next.Linked := by
  refine ⟨?_, ?_⟩
  · intro key
    cases hmove with
    | unknown _ => exact hlinked.instances key
    | halfway _ _ _ => exact hlinked.instances key
    | others data _ _ hmem hothers =>
      by_cases hkey : key = data.key
      · subst key
        simp only [update_self, hlinked.instances data.key]
        exact iff_of_true ⟨ident, hmem⟩ (Finset.nonempty_iff_ne_empty.mpr hothers)
      · simp only [update_of_ne hkey, hlinked.instances key]
    | last data _ _ _ =>
      by_cases hkey : key = data.key
      · subst key
        simp
      · simp only [update_of_ne hkey, hlinked.instances key]
  · intro call hcall
    cases hmove <;> exact hlinked.calls call hcall

theorem UnsubscribeMove.kept :
    next.calls = s.calls ∧ next.nextCall = s.nextCall ∧ next.processes = s.processes ∧
      ∀ key, next.instances key = none ∨ next.instances key = s.instances key := by
  cases hmove with
  | unknown _ => exact ⟨rfl, rfl, rfl, fun _ => .inr rfl⟩
  | halfway _ _ _ => exact ⟨rfl, rfl, rfl, fun _ => .inr rfl⟩
  | others _ _ _ _ _ => exact ⟨rfl, rfl, rfl, fun _ => .inr rfl⟩
  | last data _ _ _ =>
    refine ⟨rfl, rfl, rfl, ?_⟩
    intro key
    by_cases hkey : key = data.key
    · exact .inl (by simp [hkey])
    · exact .inr (by simp [update_of_ne hkey])

omit hmove in
theorem registered_erase (hregistered : s.Registered) {data : IdentData}
    (hdata : s.idents.get? ident = some data)
    (hidents : next.idents = s.idents.erase ident)
    (hsubscriptions : next.subscriptions = Function.update s.subscriptions data.key
        ((s.subscriptions data.key).erase ident)) : next.Registered := by
  intro other key
  rw [hidents, hsubscriptions, get?_erase]
  by_cases hother : other = ident
  · subst other
    simp only [if_true, reduceCtorEq, exists_false, false_iff]
    by_cases hkey : key = data.key
    · subst key
      simp
    · rw [update_of_ne hkey, ← hregistered]
      rintro ⟨subscriber, hget⟩
      rw [hdata] at hget
      cases hget
      exact hkey rfl
  · rw [if_neg hother, hregistered]
    by_cases hkey : key = data.key
    · subst key
      simp [hother]
    · rw [update_of_ne hkey]

theorem UnsubscribeMove.registered_iff (hregistered : s.Registered) :
    next.Registered ↔ s.Quiet ident raises := by
  cases hmove with
  | unknown habsent => exact iff_of_true hregistered fun _ => habsent
  | halfway data hdata hhalf =>
    have hmem : ident ∈ s.subscriptions data.key :=
      (hregistered ident data.key).mp ⟨data.subscriber, hdata⟩
    have hraises : raises = true := hhalf.resolve_right (not_not.mpr hmem)
    refine iff_of_false ?_ ?_
    · intro hnext
      obtain ⟨subscriber, hget⟩ := (hnext ident data.key).mpr hmem
      simp [get?_erase] at hget
    · intro hquiet
      rw [hquiet hraises] at hdata
      cases hdata
  | others data hdata hquiet _ _ =>
    refine iff_of_true (registered_erase hregistered hdata rfl rfl) ?_
    intro hraises
    rw [hquiet] at hraises
    cases hraises
  | last data hdata hquiet hlast =>
    refine iff_of_true (registered_erase hregistered hdata rfl ?_) ?_
    · simp [hlast]
    · intro hraises
      rw [hquiet] at hraises
      cases hraises

theorem UnsubscribeMove.lastOf_iff (hregistered : s.Registered)
    (hquiet : s.Quiet ident raises) : s.LastOf ident ↔ result = .cancelling := by
  cases hmove with
  | unknown habsent => simp [LastOf, habsent]
  | halfway data hdata hhalf =>
    have hmem : ident ∈ s.subscriptions data.key :=
      (hregistered ident data.key).mp ⟨data.subscriber, hdata⟩
    have hraises : raises = true := hhalf.resolve_right (not_not.mpr hmem)
    rw [hquiet hraises] at hdata
    cases hdata
  | others data hdata _ hmem hothers =>
    refine iff_of_false ?_ (by simp)
    rintro ⟨other, hother, hlast⟩
    rw [hdata] at hother
    cases hother
    simp [hlast] at hothers
  | last data hdata _ hlast => exact iff_of_true ⟨data, hdata, hlast⟩ rfl

theorem UnsubscribeMove.instances_eq (hresult : result ≠ .cancelling) :
    next.instances = s.instances := by
  cases hmove with
  | unknown _ | halfway _ _ _ | others _ _ _ _ _ => rfl
  | last _ _ _ _ => exact absurd rfl hresult

theorem UnsubscribeMove.allServed (hserved : s.AllServed) : next.AllServed := by
  obtain ⟨hcalls, _, hprocesses, hinstances⟩ := hmove.kept
  apply hserved.of_key
  intro key
  rcases hinstances key with hnone | hsame
  · exact .inl hnone
  · refine .inr (.inr (.inr ⟨hsame, ?_, ?_⟩))
    · simp only [Subscribing, hcalls]
      exact id
    · simp only [hprocesses]
      exact fun _ hmem => hmem

end

section

variable {s : EventSourceManager} {key : EventKey} {raises : String → Bool}
  {order : List String}

theorem get?_foldl_erase (order : List String) (idents : Dict String IdentData) (ident : String) :
    (order.foldl Dict.erase idents).get? ident =
      if ident ∈ order then none else idents.get? ident := by
  induction order generalizing idents with
  | nil => simp
  | cons first rest ih =>
    rw [foldl_cons, ih, get?_erase]
    by_cases hrest : ident ∈ rest
    · simp [hrest]
    · by_cases hfirst : ident = first
      · simp [hfirst]
      · simp [hrest, hfirst]

theorem unsubscribeAll_kept (s : EventSourceManager) (key : EventKey)
    (raises : String → Bool) (order : List String) :
    let next := s.unsubscribeAll key raises order
    next.calls = s.calls ∧ next.nextCall = s.nextCall ∧ next.processes = s.processes ∧
      (next.instances = s.instances ∧ next.subscriptions = s.subscriptions ∨
        next.instances = Function.update s.instances key none ∧
          next.subscriptions = Function.update s.subscriptions key ∅) := by
  induction order generalizing s with
  | nil => exact ⟨rfl, rfl, rfl, .inr ⟨rfl, rfl⟩⟩
  | cons ident rest ih =>
    simp only [unsubscribeAll]
    split
    · exact ⟨rfl, rfl, rfl, .inl ⟨rfl, rfl⟩⟩
    · split_ifs
      · exact ⟨rfl, rfl, rfl, .inl ⟨rfl, rfl⟩⟩
      · exact ih { s with idents := s.idents.erase ident }

theorem known_erase {ident : String} {rest : List String}
    (hnew : ident ∉ rest) (hknown : ∀ other ∈ rest, s.idents.get? other ≠ none) :
    ∀ other ∈ rest, (s.idents.erase ident).get? other ≠ none := by
  intro other hother
  have hne : other ≠ ident := by
    rintro rfl
    exact hnew hother
  rw [get?_erase, if_neg hne]
  exact hknown other hother

theorem unsubscribeAll_eq (hquiet : ∀ ident ∈ order, raises ident = false)
    (hknown : ∀ ident ∈ order, s.idents.get? ident ≠ none)
    (hnodup : order.Nodup) :
    s.unsubscribeAll key raises order = { s with
        idents := order.foldl Dict.erase s.idents
        instances := Function.update s.instances key none
        subscriptions := Function.update s.subscriptions key ∅ } := by
  induction order generalizing s with
  | nil => rfl
  | cons ident rest ih =>
    rw [nodup_cons] at hnodup
    rw [forall_mem_cons] at hquiet hknown
    obtain ⟨data, hdata⟩ := ne_none_iff_exists'.mp hknown.1
    have hlater := known_erase hnodup.1 hknown.2
    simp only [unsubscribeAll, hdata, hquiet.1]
    exact ih hquiet.2 hlater hnodup.2

theorem unsubscribeAll_raises (hraises : ∃ ident ∈ order, raises ident = true)
    (hknown : ∀ ident ∈ order, s.idents.get? ident ≠ none)
    (hnodup : order.Nodup) :
    ∃ ident ∈ order, (s.unsubscribeAll key raises order).idents.get? ident = none ∧
        (s.unsubscribeAll key raises order).subscriptions = s.subscriptions := by
  induction order generalizing s with
  | nil => simp at hraises
  | cons ident rest ih =>
    rw [nodup_cons] at hnodup
    rw [forall_mem_cons] at hknown
    obtain ⟨data, hdata⟩ := ne_none_iff_exists'.mp hknown.1
    simp only [unsubscribeAll, hdata]
    by_cases hfirst : raises ident = true
    · refine ⟨ident, mem_cons_self, ?_⟩
      simp [hfirst, get?_erase]
    · have hlater := known_erase hnodup.1 hknown.2
      have hrest : ∃ other ∈ rest, raises other = true := by
        obtain ⟨other, hother, hother'⟩ := hraises
        rcases List.mem_cons.mp hother with rfl | hother
        · exact absurd hother' hfirst
        · exact ⟨other, hother, hother'⟩
      obtain ⟨other, hother, hgone, hsame⟩ :=
        @ih { s with idents := s.idents.erase ident } hrest hlater hnodup.2
      refine ⟨other, mem_cons_of_mem _ hother, ?_⟩
      simp only [hfirst]
      exact ⟨hgone, hsame⟩

end

/-! ## Every step -/

section

variable {s next : EventSourceManager}

variable {ident : String}

theorem registered_insert (hregistered : s.Registered) {data : IdentData}
    (hfree : s.idents.get? ident = none)
    (hidents : next.idents = s.idents.set ident data)
    (hsubscriptions : next.subscriptions = Function.update s.subscriptions data.key
        (insert ident (s.subscriptions data.key))) : next.Registered := by
  intro other key
  rw [hidents, hsubscriptions, get?_set]
  by_cases hother : other = ident
  · subst other
    have hnot : ident ∉ s.subscriptions key := by
      rw [← hregistered, hfree]
      simp
    by_cases hkey : key = data.key
    · subst key
      simp only [if_true, some.injEq, update_self, Finset.mem_insert_self, iff_true]
      exact ⟨data.subscriber, rfl⟩
    · have hne : ¬ data.key = key := Ne.symm hkey
      simp only [if_true, some.injEq, update_of_ne hkey, hnot, iff_false]
      rintro ⟨subscriber, rfl⟩
      exact hne rfl
  · rw [if_neg hother, hregistered]
    by_cases hkey : key = data.key
    · subst key
      simp [hother]
    · rw [update_of_ne hkey]

theorem registered_subscribe (hregistered : s.Registered)
    (subscriber : Subscriber) (ident : String) (key : EventKey) :
    (s.subscribe subscriber ident key).Registered := by
  unfold subscribe
  split_ifs with hused
  · exact hregistered
  · have hfree : s.idents.get? ident = none := by simpa using hused
    simp only
    cases s.instances key with
    | some id => exact registered_insert hregistered hfree rfl rfl
    | none => exact registered_insert hregistered hfree rfl rfl

variable (hlinked : s.Linked)

include hlinked

theorem allServed_subscribe (hserved : s.AllServed) (subscriber : Subscriber)
    (ident : String) (key : EventKey) : (s.subscribe subscriber ident key).AllServed := by
  unfold subscribe
  split_ifs with hused
  · exact hserved
  · simp only
    cases hinstance : s.instances key with
    | some id =>
      apply hserved.of_key
      intro other
      exact .inr (.inr (.inr ⟨rfl, fun hs => hs, fun _ hmem => hmem⟩))
    | none =>
      apply hserved.of_key
      intro other
      by_cases hother : other = key
      · subst other
        refine .inr (.inl ⟨s.nextCall, ?_⟩)
        simp [startCall, EventCall.subscribes]
      · refine .inr (.inr (.inr ⟨?_, ?_, fun _ hmem => hmem⟩))
        · simp [startCall, update_of_ne hother]
        · rintro ⟨call, hcall⟩
          have hne : call ≠ s.nextCall := by
            rintro rfl
            simp [hlinked.calls _ le_rfl] at hcall
          refine ⟨call, ?_⟩
          simpa [startCall, update_of_ne hne] using hcall

theorem linked_subscribe (subscriber : Subscriber) (ident : String) (key : EventKey) :
    (s.subscribe subscriber ident key).Linked := by
  unfold subscribe
  split_ifs with hused
  · exact hlinked
  · simp only
    cases hinstance : s.instances key with
    | some id =>
      refine ⟨?_, hlinked.calls⟩
      intro other
      by_cases hother : other = key
      · subst other
        simp [hinstance]
      · simp only [update_of_ne hother, hlinked.instances other]
    | none =>
      refine ⟨?_, ?_⟩
      · intro other
        by_cases hother : other = key
        · subst other
          simp [startCall]
        · simp only [startCall, update_of_ne hother, hlinked.instances other]
      · intro call hcall
        simp only [startCall] at hcall ⊢
        have hne : call ≠ s.nextCall := by omega
        rw [update_of_ne hne]
        exact hlinked.calls call (by omega)

variable {call : ℕ}

theorem Linked.setCall {value : Option EventCall} (hcall : call < s.nextCall) :
    (s.setCall call value).Linked := by
  refine ⟨hlinked.instances, ?_⟩
  intro other hother
  have hne : other ≠ call := by
    rintro rfl
    exact absurd hcall (Nat.not_lt.mpr hother)
  change Function.update s.calls call value other = none
  rw [update_of_ne hne]
  exact hlinked.calls other hother

theorem Linked.lt_nextCall {value : EventCall} (hcall : s.calls call = some value) :
    call < s.nextCall := by
  by_contra hle
  rw [hlinked.calls call (Nat.not_lt.mp hle)] at hcall
  cases hcall

omit hlinked in
theorem AllServed.setCall (hserved : s.AllServed) {value : Option EventCall}
    (hcall : (s.calls call).bind EventCall.subscribes =
      value.bind EventCall.subscribes) : (s.setCall call value).AllServed := by
  apply hserved.of_key
  intro key
  refine .inr (.inr (.inr ⟨rfl, ?_, fun _ hmem => hmem⟩))
  rintro ⟨that, hthat⟩
  refine ⟨that, ?_⟩
  change (Function.update s.calls call value that).bind _ = _
  by_cases hne : that = call
  · subst that
    rw [update_self, ← hcall]
    exact hthat
  · rw [update_of_ne hne]
    exact hthat

theorem Linked.processes (processes : List EventInstance) : Linked { s with processes } :=
  ⟨hlinked.instances, hlinked.calls⟩

variable {key : EventKey}

theorem linked_validated (hcall : s.calls call = some (.validating ident key))
    (raises : Bool) (outcome : ArgValidation) :
    (s.validated call ident key raises outcome).Linked := by
  have hlt := hlinked.lt_nextCall hcall
  cases outcome with
  | accepted =>
    simp only [validated]
    split
    · exact hlinked.setCall hlt
    · exact (hlinked.processes _).setCall hlt
  | raised => exact hlinked.setCall hlt
  | rejected =>
    have hmove := unsubscribe_move hlinked ident raises
    have hkept := hmove.kept.2.1
    simp only [validated]
    split
    · rename_i next heq
      rw [heq] at hmove hkept
      exact (hmove.linked hlinked).setCall (hkept.symm ▸ hlt)
    · rename_i next _ _ heq
      rw [heq] at hmove hkept
      exact (hmove.linked hlinked).setCall (hkept.symm ▸ hlt)

theorem validated_iff (hregistered : s.Registered) (hserved : s.AllServed)
    (hcall : s.calls call = some (.validating ident key)) (raises : Bool)
    (outcome : ArgValidation) : ((s.validated call ident key raises outcome).Registered ∧
      (s.validated call ident key raises outcome).AllServed) ↔
    s.EndsWell call ident key raises outcome := by
  have hsubscribes : (s.calls call).bind EventCall.subscribes = some key := by
    simp [hcall, EventCall.subscribes]
  have hreturn : (s.setCall call none).AllServed ↔ s.MayReturn call key :=
    allServed_return_iff hserved hsubscribes rfl rfl rfl
  cases outcome with
  | accepted =>
    refine iff_of_true ?_ trivial
    simp only [validated]
    cases hinstance : s.instances key with
    | none =>
      exact ⟨hregistered, hreturn.mpr (.inl hinstance)⟩
    | some id =>
      refine ⟨hregistered, ?_⟩
      apply hserved.of_key
      intro other
      by_cases hother : other = key
      · subst other
        exact .inr (.inr (.inl ⟨id, hinstance, mem_cons_self⟩))
      · refine .inr (.inr (.inr ⟨rfl, ?_, ?_⟩))
        · rintro ⟨that, hthat⟩
          have hne : that ≠ call := by
            rintro rfl
            rw [hsubscribes] at hthat
            exact hother (some.inj hthat).symm
          refine ⟨that, ?_⟩
          simpa [setCall, update_of_ne hne] using hthat
        · exact fun _ hmem => mem_cons_of_mem _ hmem
  | raised =>
    exact (and_iff_right hregistered).trans hreturn
  | rejected =>
    have hmove := unsubscribe_move hlinked ident raises
    have hquiet := hmove.registered_iff hregistered
    have hlast := hmove.lastOf_iff hregistered
    have hkept := hmove.kept
    have hserved' := hmove.allServed hserved
    have hinstances := hmove.instances_eq
    simp only [validated, EndsWell]
    generalize s.unsubscribe ident raises = outcome at *
    obtain ⟨next, result⟩ := outcome
    have hreturn : result ≠ .cancelling →
        ((next.setCall call none).AllServed ↔ s.MayReturn call key) :=
      fun hresult => allServed_return_iff hserved hsubscribes
        (hinstances hresult) hkept.2.2.1 (by rw [← hkept.1]; rfl)
    cases result with
    | cancelling =>
      -- the call is still there, now for `cancel` of what it took down
      have hleaving : (next.setCall call (some (.leaving key))).AllServed :=
        hserved'.setCall (by rw [hkept.1, hsubscribes]; rfl)
      constructor
      · rintro ⟨hnext, _⟩
        have hq := hquiet.mp hnext
        exact ⟨hq, .inl ((hlast hq).mpr rfl)⟩
      · rintro ⟨hq, _⟩
        exact ⟨hquiet.mpr hq, hleaving⟩
    | raised | returned =>
      constructor
      · rintro ⟨hnext, hall⟩
        exact ⟨hquiet.mp hnext, .inr ((hreturn (by simp)).mp hall)⟩
      · rintro ⟨hq, hlastOf | hmay⟩
        · exact absurd ((hlast hq).mp hlastOf) (by simp)
        · exact ⟨hquiet.mpr hq, (hreturn (by simp)).mpr hmay⟩

omit hlinked in
theorem registered_clear (hregistered : s.Registered) {order : List String}
    (horder : order.toFinset = s.subscriptions key)
    (hidents : next.idents = order.foldl Dict.erase s.idents)
    (hsubscriptions : next.subscriptions =
      Function.update s.subscriptions key ∅) : next.Registered := by
  intro ident other
  rw [hidents, hsubscriptions, get?_foldl_erase]
  have hmem : ident ∈ order ↔ ident ∈ s.subscriptions key := by
    rw [← horder, List.mem_toFinset]
  by_cases hother : other = key
  · subst other
    by_cases hident : ident ∈ order
    · simp [hident]
    · simp [hident, hregistered ident key, ← hmem]
  · rw [update_of_ne hother, ← hregistered]
    by_cases hident : ident ∈ order
    · obtain ⟨subscriber, hget⟩ := (hregistered ident key).mpr (hmem.mp hident)
      have hne : ¬ key = other := Ne.symm hother
      simp [hident, hget, hne]
    · simp [hident]

omit hlinked in
theorem processEnd_iff (hregistered : s.Registered) (hserved : s.AllServed)
    {ended : EventInstance} {order : List String} {raises : String → Bool}
    (hnodup : order.Nodup)
    (horder : order.toFinset = s.subscriptions ended.key) :
    let next := { s with processes := s.processes.erase ended }.unsubscribeAll
      ended.key raises order
    (next.Registered ∧ next.AllServed) ↔
      ∀ ident ∈ s.subscriptions ended.key, raises ident = false := by
  have hmem : ∀ ident, ident ∈ order ↔ ident ∈ s.subscriptions ended.key := by
    intro ident
    rw [← horder, List.mem_toFinset]
  have hknown : ∀ ident ∈ order, s.idents.get? ident ≠ none := by
    intro ident hident
    obtain ⟨subscriber, hget⟩ := (hregistered ident ended.key).mpr ((hmem ident).mp hident)
    rw [hget]
    simp
  intro next
  constructor
  · rintro ⟨hnext, _⟩
    by_contra hraises
    push Not at hraises
    obtain ⟨raising, hraising, hraises⟩ := hraises
    obtain ⟨ident, hident, hgone, hsame⟩ :=
      @unsubscribeAll_raises { s with processes := s.processes.erase ended } ended.key raises order
        ⟨raising, (hmem raising).mpr hraising, by simpa using hraises⟩ hknown
        hnodup
    have hthere : ident ∈ next.subscriptions ended.key := by
      rw [hsame]
      exact (hmem ident).mp hident
    obtain ⟨subscriber, hget⟩ := (hnext ident ended.key).mpr hthere
    rw [hgone] at hget
    cases hget
  · intro hquiet
    have hnext : next = _ := unsubscribeAll_eq
      (fun ident hident => hquiet ident ((hmem ident).mp hident)) hknown hnodup
    constructor
    · exact registered_clear hregistered horder (by rw [hnext]) (by rw [hnext])
    · apply hserved.of_key
      intro key
      by_cases hkey : key = ended.key
      · exact .inl (by simp [hnext, hkey])
      · refine .inr (.inr (.inr ⟨?_, ?_, ?_⟩))
        · simp [hnext, update_of_ne hkey]
        · simp only [hnext, Subscribing]
          exact id
        · intro id hid
          rw [hnext]
          have hne : (⟨id, key⟩ : EventInstance) ≠ ended := by
            rintro rfl
            exact hkey rfl
          exact (mem_erase_of_ne hne).mpr hid

theorem linked_unsubscribeAll (key : EventKey) (raises : String → Bool)
    (order : List String) : (s.unsubscribeAll key raises order).Linked := by
  obtain ⟨hcalls, hnextCall, _, hboth⟩ := unsubscribeAll_kept s key raises order
  refine ⟨?_, ?_⟩
  · intro other
    rcases hboth with ⟨hinstances, hsubscriptions⟩ |
      ⟨hinstances, hsubscriptions⟩
    · rw [hinstances, hsubscriptions]
      exact hlinked.instances other
    · rw [hinstances, hsubscriptions]
      by_cases hother : other = key
      · simp [hother]
      · simp only [update_of_ne hother]
        exact hlinked.instances other
  · rw [hcalls, hnextCall]
    exact hlinked.calls

theorem linked_startCall (value : EventCall) : (s.startCall value).Linked := by
  refine ⟨hlinked.instances, ?_⟩
  intro call hcall
  simp only [startCall] at hcall ⊢
  have hne : call ≠ s.nextCall := by omega
  rw [update_of_ne hne]
  exact hlinked.calls call (by omega)

theorem step_linked {action : Action} (hstep : s.step action = some next) : next.Linked := by
  cases action with
  | subscribe subscriber ident key =>
    obtain ⟨_, rfl⟩ := ite_some_none_eq_some.mp hstep
    exact linked_subscribe hlinked subscriber ident key
  | validated call outcome raises =>
    simp only [step] at hstep
    split at hstep
    · cases hstep
      exact linked_validated hlinked ‹_› raises outcome
    all_goals cases hstep
  | cancelled call =>
    simp only [step] at hstep
    split at hstep
    · cases hstep
      exact hlinked.setCall (hlinked.lt_nextCall ‹_›)
    all_goals cases hstep
  | unsubscribe ident raises =>
    cases hstep
    exact (unsubscribe_move hlinked ident raises).linked hlinked
  | unsubscribeApp app =>
    cases hstep
    exact linked_startCall hlinked _
  | nextIdent call raises =>
    simp only [step] at hstep
    split at hstep
    · rename_i ident rest hcall
      have hlt := hlinked.lt_nextCall hcall
      have hmove := unsubscribe_move hlinked ident raises
      have hkept := hmove.kept.2.1
      have hnext := hmove.linked hlinked
      generalize s.unsubscribe ident raises = outcome at *
      obtain ⟨middle, result⟩ := outcome
      rw [← hkept] at hlt
      cases result with
      | raised | returned | cancelling =>
        cases hstep
        exact hnext.setCall hlt
    · cases hstep
      exact hlinked.setCall (hlinked.lt_nextCall ‹_›)
    all_goals cases hstep
  | processEnd ended order raises =>
    obtain ⟨_, rfl⟩ := ite_some_none_eq_some.mp hstep
    exact linked_unsubscribeAll (hlinked.processes _) _ _ _

theorem step_consistent_iff {action : Action} (hconsistent : s.Consistent)
    (hstep : s.step action = some next) : next.Consistent ↔ s.Harmless action := by
  rw [consistent_iff_halves (step_linked hlinked hstep)]
  obtain ⟨hregistered, hserved⟩ := (consistent_iff_halves hlinked).mp hconsistent
  cases action with
  | subscribe subscriber ident key =>
    obtain ⟨_, rfl⟩ := ite_some_none_eq_some.mp hstep
    exact iff_of_true ⟨registered_subscribe hregistered subscriber ident key,
        allServed_subscribe hlinked hserved subscriber ident key⟩ trivial
  | validated call outcome raises =>
    simp only [step] at hstep
    split at hstep
    · rename_i ident key hcall
      cases hstep
      rw [validated_iff hlinked hregistered hserved hcall]
      simp [Harmless, hcall]
    all_goals cases hstep
  | cancelled call =>
    simp only [step] at hstep
    split at hstep
    · rename_i key hcall
      cases hstep
      have hsubscribes : (s.calls call).bind EventCall.subscribes = some key := by
        simp [hcall, EventCall.subscribes]
      have hreturn : (s.setCall call none).AllServed ↔ s.MayReturn call key :=
        allServed_return_iff hserved hsubscribes rfl rfl rfl
      simp only [Harmless, hcall, some.injEq, EventCall.leaving.injEq, forall_eq', ← hreturn]
      exact and_iff_right hregistered
    all_goals cases hstep
  | unsubscribe ident raises =>
    cases hstep
    have hmove := unsubscribe_move hlinked ident raises
    exact (and_iff_left (hmove.allServed hserved)).trans (hmove.registered_iff hregistered)
  | unsubscribeApp app =>
    cases hstep
    refine iff_of_true ⟨hregistered, ?_⟩ trivial
    apply AllServed.setCall hserved
    rw [hlinked.calls _ le_rfl]
    rfl
  | nextIdent call raises =>
    simp only [step] at hstep
    split at hstep
    · rename_i ident rest hcall
      have hmove := unsubscribe_move hlinked ident raises
      have hquiet := hmove.registered_iff hregistered
      have hkept := hmove.kept.1
      have hserved' := hmove.allServed hserved
      have hharmless : s.Harmless (.nextIdent call raises) ↔ s.Quiet ident raises := by
        simp [Harmless, hcall]
      rw [hharmless, ← hquiet]
      generalize s.unsubscribe ident raises = outcome at *
      obtain ⟨middle, result⟩ := outcome
      cases result with
      | raised | returned | cancelling =>
        cases hstep
        apply and_iff_left
        apply hserved'.setCall
        rw [hkept, hcall]
        rfl
    · rename_i hcall
      cases hstep
      refine iff_of_true ⟨hregistered, hserved.setCall ?_⟩ ?_
      · rw [hcall]
        rfl
      · simp [Harmless, hcall]
    all_goals cases hstep
  | processEnd ended order raises =>
    obtain ⟨⟨_, hnodup, horder⟩, rfl⟩ := ite_some_none_eq_some.mp hstep
    exact processEnd_iff hregistered hserved hnodup horder

end

/-- Subscriptions are consistent in every state of a run exactly when no
`terminate` raises and no `subscribe` call ends without starting the instance
that others have come to depend on. -/
theorem consistent_iff (eventSources : List String) {actions : List Action} {s : EventSourceManager}
    (hrun : run step (init eventSources) actions = some s) :
    EveryStep step Harmless (init eventSources) actions ↔
      ∀ k t, run step (init eventSources) (actions.take k) = some t → t.Consistent :=
  everyStep_iff_forall_take Linked (fun _ _ _ hlinked hstep => step_linked hlinked hstep)
    (fun _ _ _ hlinked hconsistent hstep =>
      step_consistent_iff hlinked hconsistent hstep)
    (init_linked eventSources) (init_consistent eventSources) hrun

def realtime : EventKey := ⟨"reporting.realtime", none⟩

/-- `reporting.realtime:111…1`, with more digits than `json.loads` reads. -/
def hugeInterval : EventKey :=
  ⟨"reporting.realtime", some (String.ofList (List.replicate 4301 '1'))⟩

def sharedRealtime : List Action :=
  [.subscribe (.app 0 "reporting.realtime") "a" realtime, .validated 0 .accepted false,
    .subscribe (.app 1 "reporting.realtime") "b" realtime,
    .unsubscribe "a" false,
    .processEnd ⟨0, realtime⟩ ["b"] fun _ => false]

theorem sharedRealtime_consistent :
    ∃ s, run step (init ["reporting.realtime"]) sharedRealtime = some s ∧
      ∀ k t, run step (init ["reporting.realtime"]) (sharedRealtime.take k) =
        some t → t.Consistent := by
  refine ⟨_, rfl, (consistent_iff ["reporting.realtime"] rfl).mp ?_⟩
  refine everyStep_cons trivial rfl ?_
  refine everyStep_cons (fun _ _ _ => trivial) rfl ?_
  refine everyStep_cons trivial rfl ?_
  refine everyStep_cons (fun hraises => absurd hraises (by decide)) rfl ?_
  exact everyStep_cons (fun _ _ => rfl) rfl trivial

theorem not_consistent_of_raised {eventSources : List String}
    {subscriber : Subscriber} {ident : String} {key : EventKey}
    (hname : key.name ∈ eventSources) :
    ∃ s, run step (init eventSources) [.subscribe subscriber ident key,
        .validated 0 .raised false] = some s ∧ ¬ s.Consistent := by
  have hsubscribe : (init eventSources).step (.subscribe subscriber ident key) =
        some ((init eventSources).subscribe subscriber ident key) :=
    if_pos hname
  refine ⟨((init eventSources).subscribe subscriber ident key).setCall 0 none, ?_, ?_⟩
  · exact run_cons_eq_some_iff.mpr ⟨_, hsubscribe, rfl⟩
  · intro hconsistent
    obtain ⟨id, _, hstarted⟩ := hconsistent.served key
      ⟨ident, by simp [subscribe, init, setCall, startCall]⟩
      (by
        rintro ⟨call, hcall⟩
        simp [subscribe, init, setCall, startCall] at hcall)
    simp [subscribe, init, setCall, startCall] at hstarted

/-- An interval of 4301 digits raises, and the subscription stays behind. -/
theorem hugeInterval_not_consistent : ∃ s, run step (init ["reporting.realtime"])
    [.subscribe (.app 0 "reporting.realtime") "a" hugeInterval,
      .validated 0 .raised false] = some s ∧ ¬ s.Consistent :=
  not_consistent_of_raised mem_cons_self

end Middlewared.EventSourceManager
