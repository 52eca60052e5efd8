import Mathlib.Data.List.Basic

/-!
# Programs that make calls which may fail

A program over a state can end with an error, and keeps the state it has then.
-/

namespace Middlewared

open List

abbrev CallM (σ ε : Type) := ExceptT ε (StateM σ)

namespace CallSequence

variable {σ ε Call : Type} {fails : Call → Bool} {failure : Call → ε}

def finalState (program : CallM σ ε Unit) (s : σ) : σ :=
  (program.run.run s).2

def makeCall (fails : Call → Bool) (failure : Call → ε) (call : Call) :
    CallM σ ε Unit :=
  if fails call then throw (failure call) else pure ()

/-- A call in a `try` block whose handler goes on. -/
def tryCall (fails : Call → Bool) (failure : Call → ε) (call : Call) :
    CallM σ ε Unit :=
  tryCatch (makeCall fails failure call) fun _ => pure ()

def Makes (fails : Call → Bool) (failure : Call → ε)
    (program : CallM σ ε Unit) (calls : List Call) : Prop :=
  ∀ s, program.run.run s =
    (match calls.find? fails with
      | none => .ok ()
      | some call => .error (failure call), s)

def Yields {α : Type} (program : CallM σ ε α) (value : Option α) : Prop :=
  ∃ result, result.toOption = value ∧ ∀ s, program.run.run s = (result, s)

theorem makes_pure : Makes fails failure (pure () : CallM σ ε Unit) [] := fun _ => rfl

theorem makes_makeCall (call : Call) :
    Makes fails failure (makeCall fails failure call : CallM σ ε Unit) [call] := by
  intro s
  unfold makeCall
  cases hfails : fails call with
  | true =>
    rw [find?_cons_of_pos hfails]
    rfl
  | false =>
    rw [find?_cons_of_neg (by simp [hfails])]
    rfl

theorem makes_tryCall (call : Call) :
    Makes fails failure (tryCall fails failure call : CallM σ ε Unit) [] := by
  intro s
  unfold tryCall makeCall
  cases fails call <;> rfl

theorem run_bind (program next : CallM σ ε Unit) (s : σ) : (program >>= fun _ => next).run.run s =
      match program.run.run s with
      | (.ok _, t) => next.run.run t
      | (.error e, t) => (.error e, t) := by
  rw [ExceptT.run_bind, StateT.run_bind]
  cases program.run.run s with
  | mk result t => cases result <;> rfl

theorem Makes.bind {program next : CallM σ ε Unit} {first rest : List Call}
    (hprogram : Makes fails failure program first)
    (hnext : Makes fails failure next rest) :
    Makes fails failure (program >>= fun _ => next) (first ++ rest) := by
  intro s
  rw [run_bind, hprogram s, find?_append]
  cases first.find? fails with
  | none => exact hnext s
  | some call => rfl

theorem Makes.ite {condition : Prop} [Decidable condition]
    {program other : CallM σ ε Unit} {calls otherCalls : List Call}
    (hprogram : Makes fails failure program calls)
    (hother : Makes fails failure other otherCalls) :
    Makes fails failure (if condition then program else other)
      (if condition then calls else otherCalls) := by
  split
  · exact hprogram
  · exact hother

section

variable {α β : Type}

theorem yields_pure (value : α) : Yields (pure value : CallM σ ε α) (some value) :=
  ⟨.ok value, rfl, fun _ => rfl⟩

theorem yields_throw (e : ε) : Yields (throw e : CallM σ ε α) none := ⟨.error e, rfl, fun _ => rfl⟩

theorem Makes.yields {program : CallM σ ε Unit} {calls : List Call}
    (hprogram : Makes fails failure program calls) :
    Yields program (if calls.any fails then none else some ()) := by
  refine ⟨_, ?_, hprogram⟩
  cases hfind : calls.find? fails with
  | none =>
    rw [if_neg]
    · rfl
    · simpa using hfind
  | some call =>
    rw [if_pos]
    · rfl
    · exact any_eq_true.mpr ⟨call, mem_of_find?_eq_some hfind, find?_some hfind⟩

theorem yields_makeCall (call : Call) : Yields (makeCall fails failure call : CallM σ ε Unit)
    (if fails call then none else some ()) := by
  have hmakes : Makes fails failure (makeCall fails failure call : CallM σ ε Unit) [call] :=
    makes_makeCall call
  simpa using hmakes.yields

theorem yields_tryCall (call : Call) :
    Yields (tryCall fails failure call : CallM σ ε Unit) (some ()) := by
  have hmakes : Makes fails failure (tryCall fails failure call : CallM σ ε Unit) [] :=
    makes_tryCall call
  simpa using hmakes.yields

theorem Yields.bind {program : CallM σ ε α} {next : α → CallM σ ε β}
    {value : Option α} {values : α → Option β}
    (hprogram : Yields program value)
    (hnext : ∀ a, Yields (next a) (values a)) :
    Yields (program >>= next) (value.bind values) := by
  obtain ⟨result, hvalue, hrun⟩ := hprogram
  cases result with
  | error e =>
    refine ⟨.error e, ?_, ?_⟩
    · rw [← hvalue]
      rfl
    · intro s
      rw [ExceptT.run_bind, StateT.run_bind, hrun s]
      rfl
  | ok a =>
    obtain ⟨after, hafter, hrunNext⟩ := hnext a
    refine ⟨after, ?_, ?_⟩
    · rw [← hvalue]
      exact hafter
    · intro s
      rw [ExceptT.run_bind, StateT.run_bind, hrun s]
      exact hrunNext s

theorem Yields.ite {condition : Prop} [Decidable condition]
    {program other : CallM σ ε α} {value otherValue : Option α}
    (hprogram : Yields program value) (hother : Yields other otherValue) :
    Yields (if condition then program else other) (if condition then value else otherValue) := by
  split
  · exact hprogram
  · exact hother

theorem Yields.finalState_bind {program : CallM σ ε α}
    {next : α → CallM σ ε Unit} {value : Option α}
    (hprogram : Yields program value) (s : σ) :
    finalState (program >>= next) s = value.elim s fun a => finalState (next a) s := by
  obtain ⟨result, hvalue, hrun⟩ := hprogram
  unfold finalState
  rw [ExceptT.run_bind, StateT.run_bind, hrun s, ← hvalue]
  cases result <;> rfl

theorem Yields.finalState {program : CallM σ ε Unit} {value : Option Unit}
    (hprogram : Yields program value) (s : σ) : finalState program s = s := by
  obtain ⟨result, _, hrun⟩ := hprogram
  unfold CallSequence.finalState
  rw [hrun s]

end

end CallSequence

end Middlewared
