import Middlewared.Dict
import Middlewared.PyString
import Middlewared.TransitionSystem

/-!
# Blocked hooks

`block_hooks` counts for every hook how often it is blocked, up when a `with` statement is entered
and down when it is left.
-/

namespace Middlewared.HookBlocking

open TransitionSystem List

-- Named once: every definition below uses it.
local instance lawfulNames : LawfulBEq (List String) := inferInstance

structure Hook where
  method : String
  blockable : Bool
  order : ℤ
deriving DecidableEq

/-- `opened` lists the names of the contexts that have been entered and not
left. -/
structure Hooks where
  hooks : Dict String (List Hook)
  blockedHooks : Dict String ℤ
  opened : List (List String)

namespace Hooks

/-- `__hooks[name]`, where a missing name stands for no hooks. -/
def hooksOf (middleware : Hooks) (name : String) : List Hook :=
  (middleware.hooks.get? name).getD []

/-- `__blocked_hooks[name]` -/
def blockedCount (middleware : Hooks) (name : String) : ℤ :=
  (middleware.blockedHooks.get? name).getD 0

def boolRepr (value : Bool) : String :=
  if value then "True" else "False"

def registerHook (middleware : Hooks) (name : String) (hook : Hook) :
    Except String Hooks :=
  match (middleware.hooksOf name).find? (·.blockable ≠ hook.blockable) with
  | some other =>
    .error ("Hook " ++ PyString.repr name ++ ": " ++
      PyString.repr other.method ++ " has blockable=" ++
      boolRepr other.blockable ++ ", but " ++ PyString.repr hook.method ++
      " has blockable=" ++ boolRepr hook.blockable)
  | none =>
    .ok { middleware with
      hooks := middleware.hooks.set name
        ((middleware.hooksOf name ++ [hook]).mergeSort
          fun first second => decide (first.order ≤ second.order)) }

def checkNames (middleware : Hooks) : List String → Except String Unit
  | [] => .ok ()
  | name :: rest =>
    match middleware.hooksOf name with
    | [] => .error ("Hook " ++ PyString.repr name ++ " does not exist")
    | hook :: _ =>
      if hook.blockable then middleware.checkNames rest
      else .error ("Hook " ++ PyString.repr name ++ " is not blockable")

/-- `__blocked_hooks[name] += change` for each of the names. -/
def changeCounts (change : ℤ) (blocked : Dict String ℤ)
    (names : List String) : Dict String ℤ :=
  names.foldl (fun blocked name =>
    blocked.set name ((blocked.get? name).getD 0 + change)) blocked

def enterContext (middleware : Hooks) (names : List String) :
    Except String Hooks := do
  middleware.checkNames names
  return { middleware with
    blockedHooks := changeCounts 1 middleware.blockedHooks names
    opened := names :: middleware.opened }

def leaveContext (middleware : Hooks) (names : List String) (raised : Bool) :
    Hooks :=
  { middleware with
    -- an exception is thrown into the generator and ends it at the `yield`
    blockedHooks :=
      if raised then middleware.blockedHooks
      else changeCounts (-1) middleware.blockedHooks names
    opened := middleware.opened.erase names }

/-- The hooks that `_call_hook_base` calls. -/
def calledHooks (middleware : Hooks) (name : String) : List Hook :=
  if 0 < middleware.blockedCount name then [] else middleware.hooksOf name

end Hooks

inductive HookAction where
  | register (name : String) (hook : Hook)
  | enter (names : List String)
  | leave (names : List String) (raised : Bool)

/-- Entering fails without a change when a check does.  The counts of one
context are changed under the lock, so a context is entered and left in one
step; which of several contexts with the same names is left makes no
difference. -/
def step (middleware : Hooks) : HookAction → Option Hooks
  | .register name hook =>
    match middleware.registerHook name hook with
    | .ok next => some next
    | .error _ => some middleware
  | .enter names =>
    match middleware.enterContext names with
    | .ok next => some next
    | .error _ => some middleware
  | .leave names raised =>
    if names ∈ middleware.opened then
      some (middleware.leaveContext names raised)
    else none

def start (hooks : Dict String (List Hook)) : Hooks where
  hooks := hooks
  blockedHooks := Dict.empty
  opened := []

def openContexts (middleware : Hooks) (name : String) : ℕ :=
  middleware.opened.countP fun names => name ∈ names

structure Balanced (middleware : Hooks) : Prop where
  counts : ∀ name, middleware.blockedCount name = openContexts middleware name
  ended : middleware.opened = [] → ∀ name, middleware.blockedCount name = 0

/-- A context names no hook twice, and its body does not raise when it names
one. -/
def LeavesNoCount (middleware : Hooks) : HookAction → Prop
  | .register _ _ => True
  | .enter names => middleware.checkNames names = .ok () → names.Nodup
  | .leave names raised => raised = true → names = []

/-! ## Counts -/

theorem getD_changeCounts (change : ℤ) (blocked : Dict String ℤ)
    (names : List String) (name : String) :
    ((Hooks.changeCounts change blocked names).get? name).getD 0 =
      (blocked.get? name).getD 0 + names.count name * change := by
  unfold Hooks.changeCounts
  induction names generalizing blocked with
  | nil => simp
  | cons head rest ih =>
    rw [foldl_cons, ih, count_cons]
    by_cases hname : name = head
    · subst head
      rw [Dict.get?_set_self]
      simp only [Option.getD_some, beq_self_eq_true, if_true]
      push_cast
      ring
    · have hne : ¬head = name := Ne.symm hname
      rw [Dict.get?_set_of_ne _ hname]
      simp [hne]

def namedTimes (middleware : Hooks) (name : String) : ℕ :=
  (middleware.opened.map (List.count name)).sum

def NothingLost (middleware : Hooks) : Prop :=
  ∀ name, (namedTimes middleware name : ℤ) ≤ middleware.blockedCount name

section

variable {middleware : Hooks} {names : List String} {name : String}

theorem countP_eq_of_mem {opened : List (List String)} (hmem : names ∈ opened) (name : String) :
    opened.countP (fun names => name ∈ names) =
      (opened.erase names).countP (fun names => name ∈ names) + if name ∈ names then 1 else 0 := by
  rw [(perm_cons_erase hmem).countP_eq, countP_cons]
  simp

theorem sum_count_eq_of_mem {opened : List (List String)} (hmem : names ∈ opened) (name : String) :
    (opened.map (List.count name)).sum =
      names.count name + ((opened.erase names).map (List.count name)).sum := by
  rw [((perm_cons_erase hmem).map (List.count name)).sum_eq, map_cons, sum_cons]

theorem countP_le_sum_count (opened : List (List String)) (name : String) :
    opened.countP (fun names => name ∈ names) ≤ (opened.map (List.count name)).sum := by
  induction opened with
  | nil => simp
  | cons names rest ih =>
    rw [countP_cons, map_cons, sum_cons]
    by_cases hname : name ∈ names
    · have hpos : 0 < names.count name := List.count_pos_iff.mpr hname
      simp only [hname, decide_true, if_true]
      omega
    · simp only [hname, decide_false, Bool.false_eq_true, if_false]
      omega

theorem nodup_of_mem_opened (hlost : NothingLost middleware) (hcounts : ∀ name,
      middleware.blockedCount name = openContexts middleware name)
    (hmem : names ∈ middleware.opened) : names.Nodup := by
  rw [nodup_iff_count_le_one]
  intro name
  have hle := hlost name
  rw [hcounts name, namedTimes, openContexts, sum_count_eq_of_mem hmem,
    countP_eq_of_mem hmem] at hle
  have hrest := countP_le_sum_count (middleware.opened.erase names) name
  split at hle <;> omega

theorem count_eq_ite_of_nodup (hnodup : names.Nodup) (name : String) :
    names.count name = if name ∈ names then 1 else 0 := by
  rw [hnodup.count]

theorem blockedCount_enter : Hooks.blockedCount { middleware with
    blockedHooks := Hooks.changeCounts 1 middleware.blockedHooks names
    opened := names :: middleware.opened } name =
    middleware.blockedCount name + names.count name := by
  unfold Hooks.blockedCount
  rw [getD_changeCounts, mul_one]

theorem openContexts_enter (blocked : Dict String ℤ) : openContexts { middleware with
    blockedHooks := blocked
    opened := names :: middleware.opened } name =
    openContexts middleware name + if name ∈ names then 1 else 0 := by
  simp [openContexts, countP_cons]

theorem blockedCount_leave (raised : Bool) :
    (middleware.leaveContext names raised).blockedCount name = middleware.blockedCount name -
        if raised then 0 else (names.count name : ℤ) := by
  unfold Hooks.leaveContext Hooks.blockedCount
  cases raised with
  | true => simp
  | false =>
    simp only [Bool.false_eq_true, if_false, getD_changeCounts]
    ring

theorem openContexts_leave (hmem : names ∈ middleware.opened) (raised : Bool) :
    openContexts middleware name = openContexts (middleware.leaveContext names raised) name +
        if name ∈ names then 1 else 0 :=
  countP_eq_of_mem hmem name

end

variable {middleware : Hooks}

theorem balanced_iff : Balanced middleware ↔
    ∀ name, middleware.blockedCount name = openContexts middleware name := by
  constructor
  · intro hbalanced
    exact hbalanced.counts
  · intro hcounts
    refine ⟨hcounts, ?_⟩
    intro hnone name
    rw [hcounts, openContexts, hnone]
    rfl

/-! ## One step -/

variable {next : Hooks} {action : HookAction}

theorem step_cases (hnext : step middleware action = some next) :
    (next.blockedHooks = middleware.blockedHooks ∧
        next.opened = middleware.opened ∧ LeavesNoCount middleware action) ∨
      (∃ names, action = .enter names ∧ middleware.checkNames names = .ok () ∧
        next = { middleware with
          blockedHooks := Hooks.changeCounts 1 middleware.blockedHooks names
          opened := names :: middleware.opened }) ∨
      ∃ names raised, action = .leave names raised ∧ names ∈ middleware.opened ∧
        next = middleware.leaveContext names raised := by
  cases action with
  | register name hook =>
    left
    simp only [step] at hnext
    cases hregister : middleware.registerHook name hook with
    | error text =>
      rw [hregister] at hnext
      cases hnext
      exact ⟨rfl, rfl, trivial⟩
    | ok registered =>
      rw [hregister] at hnext
      cases hnext
      unfold Hooks.registerHook at hregister
      split at hregister
      · cases hregister
      · cases hregister
        exact ⟨rfl, rfl, trivial⟩
  | enter names =>
    simp only [step, Hooks.enterContext] at hnext
    cases hcheck : middleware.checkNames names with
    | error text =>
      rw [hcheck] at hnext
      cases hnext
      refine Or.inl ⟨rfl, rfl, ?_⟩
      intro hok
      rw [hcheck] at hok
      cases hok
    | ok u =>
      rw [hcheck] at hnext
      cases hnext
      exact Or.inr (Or.inl ⟨names, rfl, hcheck, rfl⟩)
  | leave names raised =>
    simp only [step] at hnext
    split at hnext
    · rename_i hmem
      cases hnext
      exact Or.inr (Or.inr ⟨names, raised, rfl, hmem, rfl⟩)
    · cases hnext

theorem nothingLost_step (hlost : NothingLost middleware)
    (hnext : step middleware action = some next) : NothingLost next := by
  intro name
  have hle := hlost name
  rcases step_cases hnext with
    ⟨hblocked, hopened, -⟩ | ⟨names, -, -, rfl⟩ | ⟨names, raised, -, hmem, rfl⟩
  · rw [namedTimes, Hooks.blockedCount, hblocked, hopened]
    exact hle
  · rw [blockedCount_enter]
    simp only [namedTimes, map_cons, sum_cons] at hle ⊢
    omega
  · rw [blockedCount_leave]
    rw [namedTimes, sum_count_eq_of_mem hmem] at hle
    simp only [namedTimes, Hooks.leaveContext]
    split <;> omega

theorem counts_step_iff (hlost : NothingLost middleware) (hcounts : ∀ name,
      middleware.blockedCount name = openContexts middleware name)
    (hnext : step middleware action = some next) :
    (∀ name, next.blockedCount name = openContexts next name) ↔
      LeavesNoCount middleware action := by
  rcases step_cases hnext with
    ⟨hblocked, hopened, hleaves⟩ | ⟨names, rfl, hcheck, rfl⟩ |
      ⟨names, raised, rfl, hmem, rfl⟩
  · refine iff_of_true ?_ hleaves
    intro name
    rw [openContexts, Hooks.blockedCount, hblocked, hopened]
    exact hcounts name
  · simp only [LeavesNoCount, hcheck, forall_const]
    constructor
    · intro hafter
      rw [nodup_iff_count_le_one]
      intro name
      have heq := hafter name
      rw [blockedCount_enter, openContexts_enter, hcounts] at heq
      split at heq <;> omega
    · intro hnodup name
      have hcount := count_eq_ite_of_nodup hnodup name
      rw [blockedCount_enter, openContexts_enter, hcounts, hcount]
      rfl
  · have hopen := fun name => @openContexts_leave middleware names name hmem raised
    constructor
    · rintro hafter rfl
      rw [eq_nil_iff_forall_not_mem]
      intro name hname
      have heq := hafter name
      have hbefore := hopen name
      rw [blockedCount_leave, hcounts] at heq
      simp only [hname, if_true] at heq hbefore
      omega
    · intro hleaves name
      have hbefore := hopen name
      have hcount := count_eq_ite_of_nodup (nodup_of_mem_opened hlost hcounts hmem) name
      rw [blockedCount_leave, hcounts, hbefore]
      cases raised with
      | true =>
        rw [hleaves rfl]
        simp
      | false =>
        rw [hcount]
        simp

/-- The counts are right all along a run exactly when no context names a hook
twice and no body of a context that names one raises. -/
theorem blockedCounts_balanced_iff {hooks : Dict String (List Hook)}
    {actions : List HookAction} {last : Hooks}
    (hrun : run step (start hooks) actions = some last) :
    EveryStep step LeavesNoCount (start hooks) actions ↔
      ∀ k reached, run step (start hooks) (actions.take k) = some reached → Balanced reached := by
  have hstart : ∀ name, (start hooks).blockedCount name = openContexts (start hooks) name :=
    fun name => rfl
  have hlost : NothingLost (start hooks) := fun name => le_refl 0
  simp only [balanced_iff]
  exact everyStep_iff_forall_take NothingLost
    (fun middleware action next hlost hnext => nothingLost_step hlost hnext)
    (fun middleware action next hlost hcounts hnext =>
      counts_step_iff hlost hcounts hnext) hlost hstart hrun

def oneHook : Dict String (List Hook) :=
  Dict.empty.set "pool.post_import" [⟨"setup", true, 0⟩]

def nestedBlocks : List HookAction :=
  [.enter ["pool.post_import"], .enter ["pool.post_import"],
    .leave ["pool.post_import"] false, .leave ["pool.post_import"] false]

theorem blockedCounts_balanced_nested : (run step (start oneHook) nestedBlocks).isSome = true ∧
    ∀ k reached, run step (start oneHook) (nestedBlocks.take k) = some reached →
      Balanced reached := by
  refine ⟨rfl, (@blockedCounts_balanced_iff oneHook _ _ rfl).mp ?_⟩
  refine everyStep_cons (fun _ => by simp) rfl (everyStep_cons (fun _ => by simp) rfl ?_)
  exact everyStep_cons nofun rfl (everyStep_cons nofun rfl trivial)

/-- An exception in the body leaves the hook blocked. -/
theorem hook_blocked_after_exception : ∃ last, run step (start oneHook)
        [.enter ["pool.post_import"], .leave ["pool.post_import"] true] =
      some last ∧
    last.opened = [] ∧ last.blockedCount "pool.post_import" = 1 ∧
    last.calledHooks "pool.post_import" = [] ∧
    last.hooksOf "pool.post_import" = [⟨"setup", true, 0⟩] :=
  ⟨_, rfl, rfl, by decide, by decide, by decide⟩

end Middlewared.HookBlocking
