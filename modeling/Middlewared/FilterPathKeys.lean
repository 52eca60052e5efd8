import Middlewared.Dict
import Middlewared.FilterPath

/-!
# Paths that name keys

A list of keys is written as a path by escaping the dots of each key.
-/

namespace Middlewared

open List

/-- `key.replace('.', '\\.')` -/
def escapeKey (key : List Char) : List Char :=
  key.flatMap fun c => if c = '.' then ['\\', '.'] else [c]

def joinKeys : List (List Char) → List Char
  | [] => []
  | [key] => escapeKey key
  | key :: rest => escapeKey key ++ '.' :: joinKeys rest

def keysPath (keys : List String) : String :=
  String.ofList (joinKeys (keys.map String.toList))

def lookUp : Option PyValue → List String → List String × Option PyValue
  | some (.dict entries), key :: rest =>
    let (keys, value) := lookUp (entries.lookup key) rest
    (key :: keys, value)
  | cur, _ => ([], cur)

inductive DictOnly : PyValue → Prop
  | none : DictOnly .none
  | bool (value : Bool) : DictOnly (.bool value)
  | int (value : ℤ) : DictOnly (.int value)
  | str (value : String) : DictOnly (.str value)
  | datetime (value : DateTime) : DictOnly (.datetime value)
  | dict (entries : Row) (hentries : ∀ entry ∈ entries, DictOnly entry.2) : DictOnly (.dict entries)

theorem DictOnly.lookup {entries : Row} (hdict : DictOnly (.dict entries)) (key : String) :
    ∀ value ∈ entries.lookup key, DictOnly value := by
  cases hdict with
  | dict entries hentries =>
    intro value hvalue
    exact hentries (key, value) (Dict.mem_of_lookup_eq_some hvalue)

theorem partitionFrom_escapeKey (key rv left tail : List Char) : ∃ rv' left',
    partitionFrom rv left (escapeKey key ++ tail) = partitionFrom rv' left' tail ∧
      rv' ++ left' = rv ++ left ++ key ∧
      (key.getLast? ≠ some '.' → left'.getLast? = (left ++ key).getLast?) := by
  induction key generalizing rv left with
  | nil => exact ⟨rv, left, rfl, by simp, by simp⟩
  | cons c rest ih =>
    by_cases hc : c = '.'
    · subst c
      have hescaped : escapeKey ('.' :: rest) = '\\' :: '.' :: escapeKey rest := rfl
      have hread : partitionFrom rv left ('\\' :: '.' :: (escapeKey rest ++ tail)) =
          partitionFrom (rv ++ left ++ ['.']) [] (escapeKey rest ++ tail) := by
        rw [partitionFrom, partitionFrom]
        · simp
        · simp
      obtain ⟨rv', left', hpart, htext, hlast⟩ := ih (rv ++ left ++ ['.']) []
      refine ⟨rv', left', ?_, ?_, ?_⟩
      · rw [hescaped, cons_append, cons_append, hread, hpart]
      · rw [htext]
        simp
      · intro hdot
        cases rest with
        | nil => simp at hdot
        | cons d rest =>
          rw [hlast hdot, nil_append, getLast?_append,
            getLast?_cons_cons, getLast?_cons, Option.some_or]
    · have hescaped : escapeKey (c :: rest) = c :: escapeKey rest := by
        simp [escapeKey, hc]
      have hread : partitionFrom rv left (c :: (escapeKey rest ++ tail)) =
          partitionFrom rv (left ++ [c]) (escapeKey rest ++ tail) := by
        rw [partitionFrom]
        exact hc
      obtain ⟨rv', left', hpart, htext, hlast⟩ := ih rv (left ++ [c])
      refine ⟨rv', left', ?_, ?_, ?_⟩
      · rw [hescaped, cons_append, hread, hpart]
      · rw [htext]
        simp
      · intro hdot
        rw [hlast]
        · simp
        · intro hrest
          apply hdot
          rw [getLast?_cons, hrest]
          rfl

theorem partition_escapeKey (key : List Char) : partition (escapeKey key) = .ok (key, []) := by
  obtain ⟨rv, left, hpart, htext, -⟩ := partitionFrom_escapeKey key [] [] []
  unfold partition
  rw [append_nil] at hpart
  rw [hpart, partitionFrom, htext]
  rfl

theorem partition_escapeKey_dot {key : List Char} (hne : key ≠ [])
    (hdot : key.getLast? ≠ some '.') (hslash : key.getLast? ≠ some '\\')
    (rest : List Char) :
    partition (escapeKey key ++ '.' :: rest) = .ok (key, rest) := by
  obtain ⟨rv, left, hpart, htext, hlast⟩ := partitionFrom_escapeKey key [] [] ('.' :: rest)
  have hleft := hlast hdot
  unfold partition
  rw [hpart, partitionFrom]
  cases hend : left.getLast? with
  | none =>
    rw [hend, eq_comm, getLast?_eq_none_iff] at hleft
    exact absurd hleft hne
  | some c =>
    have hc : c ≠ '\\' := by
      rintro rfl
      exact hslash (hleft ▸ hend)
    rw [htext]
    split
    · rename_i heq
      cases heq
    · rename_i heq
      cases heq
      exact absurd rfl hc
    · rfl

/-! ## A list of keys -/

structure PathKeys (keys : List String) : Prop where
  nonempty : ∀ key ∈ keys, key ≠ ""
  slash : ∀ key ∈ keys, key.toList.getLast? ≠ some '\\'
  dot : ∀ key ∈ keys.dropLast, key.toList.getLast? ≠ some '.'

theorem escapeKey_ne_nil {key : List Char} (hne : key ≠ []) : escapeKey key ≠ [] := by
  cases key with
  | nil => exact absurd rfl hne
  | cons c rest =>
    unfold escapeKey
    rw [flatMap_cons]
    split <;> simp

theorem length_joinKeys_cons (key : List Char) (keys : List (List Char)) :
    (joinKeys keys).length + (escapeKey key).length ≤ (joinKeys (key :: keys)).length := by
  cases keys with
  | nil => simp [joinKeys]
  | cons next rest =>
    simp only [joinKeys, length_append, length_cons]
    omega

theorem partition_joinKeys {key : String} {keys : List String} (hkeys : PathKeys (key :: keys)) :
    partition (joinKeys ((key :: keys).map String.toList)) =
      .ok (key.toList, joinKeys (keys.map String.toList)) := by
  have hne : key.toList ≠ [] := by
    intro hnil
    exact hkeys.nonempty key mem_cons_self (String.toList_eq_nil_iff.mp hnil)
  cases keys with
  | nil => exact partition_escapeKey key.toList
  | cons next rest =>
    exact partition_escapeKey_dot hne (hkeys.dot key (by simp)) (hkeys.slash key mem_cons_self) _

theorem PathKeys.tail {key : String} {keys : List String}
    (hkeys : PathKeys (key :: keys)) : PathKeys keys where
  nonempty := fun other hother =>
    hkeys.nonempty other (mem_cons_of_mem key hother)
  slash := fun other hother =>
    hkeys.slash other (mem_cons_of_mem key hother)
  dot := by
    intro other hother
    cases keys with
    | nil => cases hother
    | cons next rest =>
      apply hkeys.dot other
      exact mem_cons_of_mem key hother

theorem length_joinKeys_lt {key : String} {keys : List String} (hkeys : PathKeys (key :: keys)) :
    (joinKeys (keys.map String.toList)).length <
      (joinKeys ((key :: keys).map String.toList)).length := by
  have hne : key.toList ≠ [] := by
    intro hnil
    exact hkeys.nonempty key mem_cons_self (String.toList_eq_nil_iff.mp hnil)
  have hpos := length_pos_of_ne_nil (escapeKey_ne_nil hne)
  have hle := length_joinKeys_cons key.toList (keys.map String.toList)
  rw [map_cons]
  omega

theorem exists_cons_joinKeys {key : String} {keys : List String} (hkeys : PathKeys (key :: keys)) :
    ∃ c path, joinKeys ((key :: keys).map String.toList) = c :: path ∧ partition (c :: path) =
        .ok (key.toList, joinKeys (keys.map String.toList)) := by
  have hlt := length_joinKeys_lt hkeys
  obtain ⟨c, path, hpath⟩ := exists_cons_of_length_pos (Nat.zero_lt_of_lt hlt)
  refine ⟨c, path, hpath, ?_⟩
  rw [← hpath]
  exact partition_joinKeys hkeys

structure Stops (cur : Option PyValue) : Prop where
  dict : ∀ entries, cur ≠ some (.dict entries)
  list : ∀ items, cur ≠ some (.list items)

theorem dict_or_stops {cur : Option PyValue} (hcur : ∀ value ∈ cur, DictOnly value) :
    (∃ entries, cur = some (.dict entries) ∧ DictOnly (.dict entries)) ∨ Stops cur := by
  cases cur with
  | none => exact Or.inr ⟨nofun, nofun⟩
  | some value =>
    have hvalue := hcur value rfl
    cases hvalue with
    | dict entries hentries =>
      exact Or.inl ⟨entries, rfl, .dict entries hentries⟩
    | none => exact Or.inr ⟨nofun, nofun⟩
    | bool value => exact Or.inr ⟨nofun, nofun⟩
    | int value => exact Or.inr ⟨nofun, nofun⟩
    | str value => exact Or.inr ⟨nofun, nofun⟩
    | datetime value => exact Or.inr ⟨nofun, nofun⟩

theorem lookUp_nil (cur : Option PyValue) : lookUp cur [] = ([], cur) := by
  unfold lookUp
  split
  · contradiction
  · rfl

theorem Stops.lookUp {cur : Option PyValue} (hstops : Stops cur)
    (keys : List String) : lookUp cur keys = ([], cur) := by
  unfold Middlewared.lookUp
  split
  · exact absurd rfl (hstops.dict _)
  · rfl

theorem Stops.getLoop {cur : Option PyValue} (hstops : Stops cur) {fuel : ℕ}
    {c : Char} {path left right : List Char}
    (hpart : partition (c :: path) = .ok (left, right)) :
    getLoop (fuel + 1) cur (c :: path) = Middlewared.getLoop fuel cur right := by
  rw [Middlewared.getLoop, hpart]
  split
  · exact absurd rfl (hstops.dict _)
  · exact absurd rfl (hstops.list _)
  · rfl

theorem Stops.selectLoop {cur : Option PyValue} (hstops : Stops cur)
    {fuel : ℕ} {keys : List String} {c : Char} {path left right : List Char}
    (hpart : partition (c :: path) = .ok (left, right)) :
    selectLoop (fuel + 1) keys cur (c :: path) = Middlewared.selectLoop fuel keys cur right := by
  rw [Middlewared.selectLoop, hpart]
  split
  · exact absurd rfl (hstops.dict _)
  · exact absurd rfl (hstops.list _)
  · rfl

theorem getLoop_dict {fuel : ℕ} {entries : Row} {c : Char} {path left right : List Char}
    (hpart : partition (c :: path) = .ok (left, right)) :
    getLoop (fuel + 1) (some (.dict entries)) (c :: path) =
      getLoop fuel (entries.lookup (String.ofList left)) right := by
  rw [getLoop, hpart]
  rfl

theorem selectLoop_dict {fuel : ℕ} {keys : List String} {entries : Row}
    {c : Char} {path left right : List Char}
    (hpart : partition (c :: path) = .ok (left, right)) :
    selectLoop (fuel + 1) keys (some (.dict entries)) (c :: path) =
      selectLoop fuel (keys ++ [String.ofList left])
        (entries.lookup (String.ofList left)) right := by
  rw [selectLoop, hpart]
  rfl

theorem getLoop_joinKeys {keys : List String} (hkeys : PathKeys keys)
    {fuel : ℕ} {cur : Option PyValue} (hcur : ∀ value ∈ cur, DictOnly value)
    (hfuel : (joinKeys (keys.map String.toList)).length ≤ fuel) :
    getLoop fuel cur (joinKeys (keys.map String.toList)) = .ok (.done (lookUp cur keys).2) := by
  induction keys generalizing fuel cur with
  | nil => rw [map_nil, joinKeys, getLoop, lookUp_nil]
  | cons key rest ih =>
    have hlt := length_joinKeys_lt hkeys
    obtain ⟨c, path, hpath, hpart⟩ := exists_cons_joinKeys hkeys
    cases fuel with
    | zero => omega
    | succ fuel =>
      have hrest : (joinKeys (rest.map String.toList)).length ≤ fuel := by
        omega
      rw [hpath]
      rcases dict_or_stops hcur with ⟨entries, rfl, hentries⟩ | hstops
      · rw [getLoop_dict hpart, String.ofList_toList, ih hkeys.tail (hentries.lookup key) hrest]
        rfl
      · rw [hstops.getLoop hpart, ih hkeys.tail hcur hrest, hstops.lookUp, hstops.lookUp]

theorem selectLoop_joinKeys {keys : List String} (hkeys : PathKeys keys)
    {fuel : ℕ} {done : List String} {cur : Option PyValue}
    (hcur : ∀ value ∈ cur, DictOnly value)
    (hfuel : (joinKeys (keys.map String.toList)).length ≤ fuel) :
    selectLoop fuel done cur (joinKeys (keys.map String.toList)) =
      .ok (done ++ (lookUp cur keys).1, (lookUp cur keys).2) := by
  induction keys generalizing fuel done cur with
  | nil =>
    rw [map_nil, joinKeys, selectLoop, lookUp_nil, append_nil]
  | cons key rest ih =>
    have hlt := length_joinKeys_lt hkeys
    obtain ⟨c, path, hpath, hpart⟩ := exists_cons_joinKeys hkeys
    cases fuel with
    | zero => omega
    | succ fuel =>
      have hrest : (joinKeys (rest.map String.toList)).length ≤ fuel := by
        omega
      rw [hpath]
      rcases dict_or_stops hcur with ⟨entries, rfl, hentries⟩ | hstops
      · rw [selectLoop_dict hpart, String.ofList_toList,
          ih hkeys.tail (hentries.lookup key) hrest, append_assoc]
        rfl
      · rw [hstops.selectLoop hpart, ih hkeys.tail hcur hrest, hstops.lookUp, hstops.lookUp]

/-! ## Every path -/

def segmentsNonempty : Bool → List Char → Bool
  | _, [] => true
  | atStart, '.' :: rest => !atStart && segmentsNonempty true rest
  | _, _ :: rest => segmentsNonempty false rest

theorem partitionFrom_eq_ok {path rv left : List Char}
    (hsegments : segmentsNonempty left.isEmpty path = true) :
    ∃ text right, partitionFrom rv left path = .ok (text, right) ∧
      segmentsNonempty true right = true ∧
      right.length ≤ path.length - 1 := by
  induction path generalizing rv left with
  | nil => exact ⟨rv ++ left, [], rfl, rfl, le_refl 0⟩
  | cons c rest ih =>
    by_cases hc : c = '.'
    · subst c
      rw [segmentsNonempty, Bool.and_eq_true] at hsegments
      obtain ⟨hleft, hrest⟩ := hsegments
      rw [partitionFrom]
      cases hlast : left.getLast? with
      | none =>
        rw [getLast?_eq_none_iff.mp hlast] at hleft
        cases hleft
      | some d =>
        by_cases hslash : d = '\\'
        · subst d
          obtain ⟨text, right, hpart, hright, hlength⟩ :=
            @ih (rv ++ left.dropLast ++ ['.']) [] hrest
          exact ⟨text, right, hpart, hright, by
            rw [length_cons]
            omega⟩
        · refine ⟨rv ++ left, rest, ?_, hrest, le_refl _⟩
          split
          · rename_i heq
            cases heq
          · rename_i heq
            cases heq
            exact absurd rfl hslash
          · rfl
    · have hrest : segmentsNonempty (left ++ [c]).isEmpty rest = true := by
        have hempty : (left ++ [c]).isEmpty = false := by simp
        rw [hempty]
        rw [segmentsNonempty] at hsegments
        · exact hsegments
        · exact hc
      obtain ⟨text, right, hpart, hright, hlength⟩ := @ih rv (left ++ [c]) hrest
      refine ⟨text, right, ?_, hright, by
        rw [length_cons]
        omega⟩
      rw [partitionFrom]
      · exact hpart
      · exact hc

theorem partition_eq_ok {c : Char} {path : List Char}
    (hsegments : segmentsNonempty true (c :: path) = true) :
    ∃ left right, partition (c :: path) = .ok (left, right) ∧
      segmentsNonempty true right = true ∧ right.length ≤ path.length :=
  partitionFrom_eq_ok hsegments

theorem getLoop_eq_ok {path : List Char} (hsegments : segmentsNonempty true path = true) {fuel : ℕ}
    {cur : Option PyValue} (hcur : ∀ value ∈ cur, DictOnly value)
    (hfuel : path.length ≤ fuel) :
    ∃ result, getLoop fuel cur path = .ok (.done result) := by
  induction fuel generalizing path cur with
  | zero =>
    rw [length_eq_zero_iff.mp (Nat.le_zero.mp hfuel), getLoop]
    exact ⟨cur, rfl⟩
  | succ fuel ih =>
    cases path with
    | nil =>
      exact ⟨cur, rfl⟩
    | cons c path =>
      obtain ⟨left, right, hpart, hright, hlength⟩ := partition_eq_ok hsegments
      have hrest : right.length ≤ fuel := by
        rw [length_cons] at hfuel
        omega
      rcases dict_or_stops hcur with ⟨entries, rfl, hentries⟩ | hstops
      · rw [getLoop_dict hpart]
        exact ih hright (hentries.lookup _) hrest
      · rw [hstops.getLoop hpart]
        exact ih hright hcur hrest

theorem selectLoop_eq_ok {path : List Char}
    (hsegments : segmentsNonempty true path = true) {fuel : ℕ}
    {keys : List String} {cur : Option PyValue}
    (hcur : ∀ value ∈ cur, DictOnly value) (hfuel : path.length ≤ fuel) :
    ∃ result, selectLoop fuel keys cur path = .ok result := by
  induction fuel generalizing path keys cur with
  | zero =>
    rw [length_eq_zero_iff.mp (Nat.le_zero.mp hfuel), selectLoop]
    exact ⟨_, rfl⟩
  | succ fuel ih =>
    cases path with
    | nil =>
      exact ⟨_, rfl⟩
    | cons c path =>
      obtain ⟨left, right, hpart, hright, hlength⟩ := partition_eq_ok hsegments
      have hrest : right.length ≤ fuel := by
        rw [length_cons] at hfuel
        omega
      rcases dict_or_stops hcur with ⟨entries, rfl, hentries⟩ | hstops
      · rw [selectLoop_dict hpart]
        exact ih hright (hentries.lookup _) hrest
      · rw [hstops.selectLoop hpart]
        exact ih hright hcur hrest

theorem get_eq_of_getLoop {obj : PyValue} {path : String} {result : Option PyValue}
    (hloop : getLoop path.toList.length (some obj) path.toList = .ok (.done result)) :
    get obj path = .ok (result.getD .none) := by
  have himpl : getImpl obj (.str path) = .ok (.done result) := hloop
  unfold get
  rw [himpl]
  rfl

/-- The path of a list of keys leads to where the keys lead, and no path with
nonempty segments raises. -/
theorem paths_address_keys {obj : PyValue} (hobj : DictOnly obj) :
    (∀ keys, keys ≠ [] → PathKeys keys → get obj (keysPath keys) =
            .ok ((lookUp (some obj) keys).2.getD .none) ∧
          selectPath obj (keysPath keys) = .ok (lookUp (some obj) keys)) ∧
      ∀ path : String, segmentsNonempty true path.toList = true →
        (∃ value, get obj path = .ok value) ∧ ∃ result, selectPath obj path = .ok result := by
  have hcur : ∀ value ∈ some obj, DictOnly value := by
    intro value hvalue
    cases hvalue
    exact hobj
  constructor
  · intro keys _ hkeys
    have hpath : (keysPath keys).toList = joinKeys (keys.map String.toList) := String.toList_ofList
    constructor
    · apply get_eq_of_getLoop
      rw [hpath]
      exact getLoop_joinKeys hkeys hcur (le_refl _)
    · unfold selectPath
      rw [hpath, selectLoop_joinKeys hkeys hcur (le_refl _)]
      rfl
  · intro path hsegments
    obtain ⟨result, hget⟩ := getLoop_eq_ok hsegments hcur (le_refl _)
    constructor
    · exact ⟨_, get_eq_of_getLoop hget⟩
    · exact selectLoop_eq_ok hsegments hcur (le_refl _)

theorem paths_address_keys_nested : (∀ keys, keys ≠ [] → PathKeys keys →
      get (.dict [("foo.bar", .dict [("stuff", .int 4)])]) (keysPath keys) =
          .ok ((lookUp (some (.dict [("foo.bar",
            .dict [("stuff", .int 4)])])) keys).2.getD .none) ∧
        selectPath (.dict [("foo.bar", .dict [("stuff", .int 4)])]) (keysPath keys) =
          .ok (lookUp (some (.dict [("foo.bar", .dict [("stuff", .int 4)])])) keys)) ∧
    ∀ path : String, segmentsNonempty true path.toList = true →
      (∃ value, get (.dict [("foo.bar", .dict [("stuff", .int 4)])]) path = .ok value) ∧ ∃ result,
          selectPath (.dict [("foo.bar", .dict [("stuff", .int 4)])]) path = .ok result :=
  paths_address_keys (.dict _ (by
    intro entry hentry
    rw [mem_singleton.mp hentry]
    exact .dict _ (by
      intro inner hinner
      rw [mem_singleton.mp hinner]
      exact .int 4)))

/-- A lookup ends at the first value that is no dictionary. -/
theorem lookup_ends_early : DictOnly (.dict [("a", .int 5)]) ∧ PathKeys ["a", "b"] ∧
    get (.dict [("a", .int 5)]) (keysPath ["a", "b"]) = .ok (.int 5) ∧
    selectPath (.dict [("a", .int 5)]) (keysPath ["a", "b"]) = .ok (["a"], some (.int 5)) ∧
    get (.dict [("a", .int 5)]) ".a" = .error .indexError := by
  refine ⟨.dict _ ?_, ⟨by decide, by decide, by decide⟩, rfl, rfl, rfl⟩
  intro entry hentry
  rw [mem_singleton.mp hentry]
  exact .int 5

end Middlewared
