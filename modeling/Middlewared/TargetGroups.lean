import Middlewared.Dict
import Middlewared.ExceptRules
import Middlewared.RelationalTable
import Middlewared.ValidationErrors

/-!
# The groups of an iSCSI target

`do_update` copies the old target without its groups, so that a payload without groups shares the
dictionaries of the old ones, and `compress` rewrites them in place twice.
-/

namespace Middlewared

open Dict Option List

inductive GroupValue where
  | int (value : ℤ)
  | none
  | str (text : String)
deriving DecidableEq

abbrev GroupDict := Dict String GroupValue

/-- `tuple(group.items())` -/
abbrev GroupTuple := List (String × GroupValue)

structure GroupColumns where
  portal : GroupValue
  initiator : GroupValue
  authtype : GroupValue
  authgroup : GroupValue
deriving DecidableEq

/-- A row of `services.iscsitargetgroups`. -/
structure TargetGroupRow where
  id : ℕ
  target : ℕ
  columns : GroupColumns
deriving DecidableEq

inductive TargetUpdateError where
  | validation (errors : List VerrorEntry)
  | keyError (key : String)
  | integrityError
deriving DecidableEq

/-- What the validation of groups looks up: portals, initiators, and for the
tag of an authentication group whether its first entry has a peer user. -/
structure TargetReferences where
  portals : List ℤ
  initiators : List ℤ
  peeruser : ℤ → Option Bool

namespace TargetGroups

def authmethodLegacyMap : List (String × String) :=
  [("None", "NONE"), ("CHAP", "CHAP"), ("CHAP Mutual", "CHAP_MUTUAL")]

/-- `AUTHMETHOD_LEGACY_MAP.get(value)` -/
def fromLegacy : GroupValue → GroupValue
  | .str text =>
    match authmethodLegacyMap.lookup text with
    | some name => .str name
    | none => .none
  | .int _ | .none => .none

/-- `AUTHMETHOD_LEGACY_MAP.inv.get(value, 'NONE')` -/
def toLegacy : GroupValue → GroupValue
  | .str text =>
    .str (((authmethodLegacyMap.map Prod.swap).lookup text).getD "NONE")
  | .int _ | .none => .str "NONE"

/-- A group of `extend`, for a row whose references exist. -/
def extendGroup (columns : GroupColumns) : GroupDict where
  entries := [("portal", columns.portal), ("initiator", columns.initiator),
    ("auth", columns.authgroup), ("authmethod", fromLegacy columns.authtype)]
  nodup := by simp

def extendGroups (rows : List TargetGroupRow) (target : ℕ) : List GroupDict :=
  (rows.filter fun row => row.target = target).map fun row =>
    extendGroup row.columns

def compressed (group : GroupDict) : GroupDict :=
  (group.erase "authmethod").set "authmethod" (toLegacy ((group.get? "authmethod").getD .none))

def compressGroup (group : GroupDict) : Except TargetUpdateError GroupDict :=
  if "authmethod" ∈ group then .ok (compressed group)
  else .error (.keyError "authmethod")

abbrev GroupHeap := ℕ → GroupDict

/-- `compress`, which rewrites the dictionaries of a list in place. -/
def compress (groups : List ℕ) (heap : GroupHeap) :
    Except TargetUpdateError GroupHeap :=
  groups.foldlM (fun heap ref => do
    let group ← compressGroup (heap ref)
    return Function.update heap ref group) heap

def item (group : GroupTuple) (key : String) :
    Except TargetUpdateError GroupValue :=
  match group.lookup key with
  | some value => .ok value
  | none => .error (.keyError key)

def valueText : GroupValue → String
  | .int value => toString value
  | .none => "None"
  | .str text => text

def truthyValue : GroupValue → Bool
  | .int value => value ≠ 0
  | .none => false
  | .str text => text ≠ ""

def isAmong (ids : List ℤ) : GroupValue → Bool
  | .int value => value ∈ ids
  | .none | .str _ => false

def groupField (schema : String) (i : ℕ) (field : String) : String :=
  schema ++ ".groups." ++ toString i ++ "." ++ field

def authErrors (references : TargetReferences) (schema : String) (i : ℕ)
    (auth authmethod : GroupValue) : List VerrorEntry :=
  if !truthyValue auth && (authmethod = .str "CHAP" || authmethod = .str "CHAP_MUTUAL") then
    [(groupField schema i "auth", "Authentication group is required for CHAP and CHAP Mutual")]
  else if truthyValue auth && authmethod = .str "CHAP_MUTUAL" then
    match auth with
    | .int tag =>
      match references.peeruser tag with
      | none =>
        [(groupField schema i "auth", "Authentication group not found")]
      | some false =>
        [(groupField schema i "auth", "Authentication group " ++
          valueText auth ++ " does not support CHAP Mutual")]
      | some true => []
    | .none | .str _ =>
      [(groupField schema i "auth", "Authentication group not found")]
  else []

/-- The loop over the groups; `seen` are the portals of those before. -/
def validateGroups (references : TargetReferences) (schema : String) :
    ℕ → List GroupValue → List GroupDict → Except TargetUpdateError (List VerrorEntry)
  | _, _, [] => .ok []
  | i, seen, group :: rest => do
    let portal ← item group.entries "portal"
    let initiator ← item group.entries "initiator"
    let auth ← item group.entries "auth"
    let authmethod ← item group.entries "authmethod"
    let duplicate := decide (portal ∈ seen)
    let found := isAmong references.portals portal
    let errors :=
      (if duplicate then
        [(groupField schema i "portal", "Portal " ++ valueText portal ++
          " cannot be duplicated on a target")]
      else if !found then
        [(groupField schema i "portal", valueText portal ++ " Portal not found in database")]
      else []) ++
      errorIf (truthyValue initiator && !isAmong references.initiators initiator)
        (groupField schema i "initiator")
        (valueText initiator ++ " Initiator not found in database") ++
      authErrors references schema i auth authmethod
    let seen := if !duplicate && found then seen ++ [portal] else seen
    return errors ++ (← validateGroups references schema (i + 1) seen rest)

/-- The columns of a group, read from `dict(i)`. -/
def columnsOf (group : GroupTuple) : Except TargetUpdateError GroupColumns := do
  let portal ← item group "portal"
  let initiator ← item group "initiator"
  let authtype ← item group "authmethod"
  let authgroup ← item group "auth"
  return ⟨portal, initiator, authtype, authgroup⟩

def deleteGroup (target : ℕ) (rows : List TargetGroupRow)
    (group : GroupTuple) : Except TargetUpdateError (List TargetGroupRow) := do
  let columns ← columnsOf group
  match rows.find? fun row => row.target = target ∧ row.columns = columns with
  | none => return rows
  | some found => return rows.filter fun row => row.id ≠ found.id

def nextId (rows : List TargetGroupRow) : ℕ :=
  (rows.map TargetGroupRow.id).foldr max 0 + 1

def insertGroup (target : ℕ) (rows : List TargetGroupRow)
    (group : GroupTuple) : Except TargetUpdateError (List TargetGroupRow) := do
  let columns ← columnsOf group
  if rows.any fun row =>
      row.target = target && row.columns.portal = columns.portal then
    .error .integrityError
  else return rows ++ [⟨nextId rows, target, columns⟩]

/-- `order` is the order in which a set is iterated. -/
def saveGroups (order : List GroupTuple → List GroupTuple)
    (rows : List TargetGroupRow) (target : ℕ) (new old : List GroupTuple) :
    Except TargetUpdateError (List TargetGroupRow) := do
  let rows ← (order (old.filter (· ∉ new))).foldlM (deleteGroup target) rows
  (order (new.filter (· ∉ old))).foldlM (insertGroup target) rows

def compressAndSave (order : List GroupTuple → List GroupTuple)
    (rows : List TargetGroupRow) (target : ℕ) (heap : GroupHeap)
    (newGroups oldGroups : List ℕ) :
    Except TargetUpdateError (List TargetGroupRow) := do
  let heap ← compress newGroups heap
  let heap ← compress oldGroups heap
  saveGroups order rows target (newGroups.map fun ref => (heap ref).entries)
    (oldGroups.map fun ref => (heap ref).entries)

/-- `do_update`, as far as it concerns groups; what else is validated adds
`others`. -/
def doUpdate (references : TargetReferences) (others : List VerrorEntry)
    (order : List GroupTuple → List GroupTuple) (rows : List TargetGroupRow)
    (target : ℕ) (payload : Option (List GroupDict)) :
    Except TargetUpdateError (List TargetGroupRow) := do
  let old := extendGroups rows target
  let heap : GroupHeap := fun ref =>
    ((old ++ payload.getD [])[ref]?).getD Dict.empty
  let oldGroups := List.range old.length
  -- `new = old.copy()` and `new.update(data)`
  let newGroups :=
    match payload with
    | none => oldGroups
    | some groups => List.range' old.length groups.length
  let errors ← validateGroups references "iscsi_target_create" 0 []
    (newGroups.map heap)
  if others ++ errors ≠ [] then .error (.validation (others ++ errors))
  else compressAndSave order rows target heap newGroups oldGroups

/-! ## What a dictionary stands for -/

inductive AuthMethod where
  | none
  | chap
  | chapMutual
deriving DecidableEq

def AuthMethod.name : AuthMethod → String
  | .none => "NONE"
  | .chap => "CHAP"
  | .chapMutual => "CHAP_MUTUAL"

def AuthMethod.legacyName : AuthMethod → String
  | .none => "None"
  | .chap => "CHAP"
  | .chapMutual => "CHAP Mutual"

structure TargetGroup where
  portal : ℤ
  initiator : Option ℤ
  auth : Option ℤ
  authmethod : AuthMethod
deriving DecidableEq

def ofOption : Option ℤ → GroupValue
  | some value => .int value
  | none => .none

def TargetGroup.values (group : TargetGroup) : GroupTuple :=
  [("portal", .int group.portal), ("initiator", ofOption group.initiator),
    ("auth", ofOption group.auth), ("authmethod", .str group.authmethod.name)]

def TargetGroup.columns (group : TargetGroup) : GroupColumns where
  portal := .int group.portal
  initiator := ofOption group.initiator
  authtype := .str group.authmethod.legacyName
  authgroup := ofOption group.auth

/-- The dictionary has the values of the group, its keys in any order. -/
def Denotes (dict : GroupDict) (group : TargetGroup) : Prop :=
  dict.entries.Perm group.values

theorem fromLegacy_legacyName (method : AuthMethod) :
    fromLegacy (.str method.legacyName) = .str method.name := by
  cases method <;> rfl

theorem toLegacy_name (method : AuthMethod) :
    toLegacy (.str method.name) = .str method.legacyName := by
  cases method <;> rfl

theorem denotes_extendGroup (group : TargetGroup) : Denotes (extendGroup group.columns) group := by
  unfold Denotes extendGroup TargetGroup.columns
  simp only [fromLegacy_legacyName]
  exact List.Perm.refl _

theorem Denotes.get? {dict : GroupDict} {group : TargetGroup}
    (hdenotes : Denotes dict group) {key : String} {value : GroupValue}
    (hmem : (key, value) ∈ group.values) : dict.get? key = some value :=
  mem_entries_iff.mp (hdenotes.mem_iff.mpr hmem)

theorem ofOption_injective : Function.Injective ofOption := by
  intro a b heq
  cases a <;> cases b <;> simp_all [ofOption]

theorem Denotes.eq {dict : GroupDict} {group other : TargetGroup}
    (hgroup : Denotes dict group) (hother : Denotes dict other) :
    group = other := by
  have hsame {key : String} {v w : GroupValue} (hv : (key, v) ∈ group.values)
      (hw : (key, w) ∈ other.values) : v = w := by
    have hget := hgroup.get? hv
    rw [hother.get? hw] at hget
    exact (some.inj hget).symm
  have hportal : GroupValue.int group.portal = .int other.portal := hsame (.head _) (.head _)
  have hinitiator : ofOption group.initiator = ofOption other.initiator :=
    hsame (.tail _ (.head _)) (.tail _ (.head _))
  have hauth : ofOption group.auth = ofOption other.auth :=
    hsame (.tail _ (.tail _ (.head _))) (.tail _ (.tail _ (.head _)))
  have hmethod : GroupValue.str group.authmethod.name = .str other.authmethod.name :=
    hsame (.tail _ (.tail _ (.tail _ (.head _)))) (.tail _ (.tail _ (.tail _ (.head _))))
  have hname : group.authmethod = other.authmethod := by
    have htext := GroupValue.str.inj hmethod
    cases hg : group.authmethod <;> cases ho : other.authmethod <;>
      rw [hg, ho] at htext <;> first | rfl | exact absurd htext (by decide)
  cases group
  cases other
  simp only [TargetGroup.mk.injEq]
  exact ⟨GroupValue.int.inj hportal, ofOption_injective hinitiator, ofOption_injective hauth, hname⟩

theorem authmethod_mem_compressed (group : GroupDict) : "authmethod" ∈ compressed group :=
  mem_set_iff.mpr (.inl rfl)

theorem Denotes.columnsOf {dict : GroupDict} {group : TargetGroup} (hdenotes : Denotes dict group) :
    columnsOf (compressed dict).entries = .ok group.columns := by
  have hmethod : dict.get? "authmethod" = some (.str group.authmethod.name) :=
    hdenotes.get? (by simp [TargetGroup.values])
  have hget (key : String) : (compressed dict).entries.lookup key =
        if key = "authmethod" then some (.str group.authmethod.legacyName)
        else dict.get? key := by
    have hset := get?_set (dict.erase "authmethod") "authmethod" key
      (toLegacy ((dict.get? "authmethod").getD .none))
    rw [get?_erase, hmethod, getD_some, toLegacy_name] at hset
    have hcompressed : compressed dict = (dict.erase "authmethod").set
        "authmethod" (.str group.authmethod.legacyName) := by
      rw [compressed, hmethod, getD_some, toLegacy_name]
    rw [hcompressed]
    refine hset.trans ?_
    split <;> simp [*]
  have hportal : dict.get? "portal" = some (.int group.portal) :=
    hdenotes.get? (by simp [TargetGroup.values])
  have hinitiator : dict.get? "initiator" = some (ofOption group.initiator) :=
    hdenotes.get? (by simp [TargetGroup.values])
  have hauth : dict.get? "auth" = some (ofOption group.auth) :=
    hdenotes.get? (by simp [TargetGroup.values])
  unfold TargetGroups.columnsOf item
  rw [hget, hget, hget, hget, if_neg (by decide), if_neg (by decide),
    if_pos rfl, if_neg (by decide), hportal, hinitiator, hauth]
  rfl

theorem compress_eq {refs : List ℕ} (hnodup : refs.Nodup) {heap : GroupHeap}
    (hmem : ∀ ref ∈ refs, "authmethod" ∈ heap ref) :
    compress refs heap = .ok fun ref =>
      if ref ∈ refs then compressed (heap ref) else heap ref := by
  unfold compress
  induction refs generalizing heap with
  | nil => rfl
  | cons first rest ih =>
    rw [nodup_cons] at hnodup
    have hfirst : compressGroup (heap first) = .ok (compressed (heap first)) :=
      if_pos (hmem first mem_cons_self)
    rw [foldlM_cons, hfirst, ok_bind]
    have hupdate := @ih hnodup.2 (Function.update heap first (compressed (heap first))) (by
        intro ref href
        have hne : ref ≠ first := fun heq => hnodup.1 (heq ▸ href)
        rw [Function.update_of_ne hne]
        exact hmem ref (mem_cons_of_mem first href))
    refine hupdate.trans ?_
    congr 1
    funext ref
    by_cases href : ref = first
    · subst href
      simp [hnodup.1]
    · simp [href]

/-! ## Saving -/

open Relational

/-- Rows have distinct keys, the portals of one target are distinct, and every
row stores a group. -/
structure Stored (rows : List TargetGroupRow) : Prop where
  ids : Distinct TargetGroupRow.id rows
  portals : Distinct (fun row => (row.target, row.columns.portal)) rows
  groups : ∀ row ∈ rows, ∃ group : TargetGroup, row.columns = group.columns

structure SetOrder (order : List GroupTuple → List GroupTuple) : Prop where
  nodup : ∀ l, (order l).Nodup
  mem : ∀ l t, t ∈ order l ↔ t ∈ l

section

variable {rows : List TargetGroupRow} {target : ℕ}

theorem lt_nextId {row : TargetGroupRow} (hrow : row ∈ rows) : row.id < nextId rows := by
  have hle : ∀ l : List ℕ, ∀ n ∈ l, n ≤ l.foldr max 0 := by
    intro l
    induction l with
    | nil => nofun
    | cons first rest ih =>
      intro n hn
      rw [foldr_cons]
      rcases mem_cons.mp hn with heq | hmem
      · omega
      · have hrest := ih n hmem
        omega
  have hid := hle _ _ (List.mem_map_of_mem (f := TargetGroupRow.id) hrow)
  unfold nextId
  omega

theorem deleteGroup_eq (hids : Distinct TargetGroupRow.id rows)
    (hportals : Distinct (fun row => (row.target, row.columns.portal)) rows)
    {group : GroupTuple} {columns : GroupColumns}
    (hcolumns : columnsOf group = .ok columns) :
    deleteGroup target rows group = .ok (rows.filter fun row =>
      ¬ (row.target = target ∧ row.columns = columns)) := by
  unfold deleteGroup
  rw [hcolumns, ok_bind]
  cases hfind : rows.find? fun row =>
      row.target = target ∧ row.columns = columns with
  | none =>
    have hnone := find?_eq_none.mp hfind
    refine congrArg Except.ok (filter_eq_self.mpr ?_).symm
    intro row hrow
    simpa only [decide_eq_true_eq] using hnone row hrow
  | some found =>
    have hfound := find?_some hfind
    have hmem := mem_of_find?_eq_some hfind
    rw [decide_eq_true_eq] at hfound
    refine congrArg Except.ok (filter_congr ?_)
    intro row hrow
    rw [decide_eq_decide]
    apply not_congr
    constructor
    · intro hid
      rw [inj_on_of_nodup_map hids hrow hmem hid]
      exact hfound
    · intro hsame
      rw [inj_on_of_nodup_map hportals hrow hmem (by
        rw [hsame.1, hsame.2, hfound.1, hfound.2])]

theorem foldlM_deleteGroup (target : ℕ) {groups : List GroupTuple}
    {columns : GroupTuple → GroupColumns}
    (hcolumns : ∀ t ∈ groups, columnsOf t = .ok (columns t))
    (hids : Distinct TargetGroupRow.id rows)
    (hportals : Distinct (fun row => (row.target, row.columns.portal)) rows) :
    groups.foldlM (deleteGroup target) rows = .ok (rows.filter fun row =>
      ¬ (row.target = target ∧ ∃ t ∈ groups, columns t = row.columns)) := by
  induction groups generalizing rows with
  | nil => simp [pure, Except.pure]
  | cons first rest ih =>
    rw [foldlM_cons, deleteGroup_eq hids hportals (hcolumns first mem_cons_self), ok_bind,
      ih (fun t ht => hcolumns t (mem_cons_of_mem first ht))
        (hids.filter _) (hportals.filter _), List.filter_filter]
    refine congrArg Except.ok (filter_congr ?_)
    intro row _
    rw [← Bool.decide_and, decide_eq_decide]
    simp only [exists_mem_cons_iff, eq_comm (a := row.columns)]
    rw [← not_or, ← and_or_left, or_comm]

theorem insertGroup_eq {group : GroupTuple} {columns : GroupColumns}
    (hcolumns : columnsOf group = .ok columns)
    (hfree : ∀ row ∈ rows, row.target = target → row.columns.portal ≠ columns.portal) :
    insertGroup target rows group = .ok (rows ++ [⟨nextId rows, target, columns⟩]) := by
  unfold insertGroup
  rw [hcolumns, ok_bind, if_neg]
  · rfl
  · intro hany
    obtain ⟨row, hrow, hsame⟩ := List.any_eq_true.mp hany
    rw [Bool.and_eq_true, decide_eq_true_eq, decide_eq_true_eq] at hsame
    exact hfree row hrow hsame.1 hsame.2

theorem foldlM_insertGroup (target : ℕ) {groups : List GroupTuple}
    {columns : GroupTuple → GroupColumns}
    (hcolumns : ∀ t ∈ groups, columnsOf t = .ok (columns t))
    (hids : Distinct TargetGroupRow.id rows)
    (hportals : Distinct (fun row => (row.target, row.columns.portal)) rows)
    (hnew : (groups.map fun t => (columns t).portal).Nodup)
    (hfree : ∀ t ∈ groups, ∀ row ∈ rows, row.target = target →
      row.columns.portal ≠ (columns t).portal) :
    ∃ added, groups.foldlM (insertGroup target) rows = .ok (rows ++ added) ∧
      Distinct TargetGroupRow.id (rows ++ added) ∧
      Distinct (fun row => (row.target, row.columns.portal)) (rows ++ added) ∧
      added.map TargetGroupRow.columns = groups.map columns ∧
      ∀ row ∈ added, row.target = target := by
  induction groups generalizing rows with
  | nil =>
    exact ⟨[], by rw [append_nil]; rfl, by rwa [append_nil],
      by rwa [append_nil], rfl, nofun⟩
  | cons first rest ih =>
    rw [map_cons, nodup_cons] at hnew
    have hinsert := insertGroup_eq (hcolumns first mem_cons_self)
      (hfree first mem_cons_self)
    obtain ⟨added, hfold, hids', hportals', hmap, htarget⟩ :=
      @ih (rows ++ [⟨nextId rows, target, columns first⟩])
      (fun t ht => hcolumns t (mem_cons_of_mem first ht))
      (distinct_concat hids (by
        intro hmem
        obtain ⟨row, hrow, hid⟩ := List.mem_map.mp hmem
        have hlt := lt_nextId hrow
        have heq : row.id = nextId rows := hid
        omega))
      (distinct_concat hportals (by
        intro hmem
        obtain ⟨row, hrow, hsame⟩ := List.mem_map.mp hmem
        have hpair := Prod.mk.inj hsame
        exact hfree first mem_cons_self row hrow hpair.1 hpair.2))
      hnew.2 (by
        intro t ht row hrow hrowTarget
        rcases mem_append.mp hrow with hold | hlast
        · exact hfree t (mem_cons_of_mem first ht) row hold hrowTarget
        · rw [mem_singleton.mp hlast]
          intro heq
          exact hnew.1 (heq ▸ List.mem_map_of_mem (f := fun t => (columns t).portal) ht))
    rw [append_assoc] at hids' hportals' hfold
    refine ⟨_, ?_, hids', hportals', ?_, ?_⟩
    · rw [foldlM_cons, hinsert, ok_bind]
      exact hfold
    · rw [singleton_append, map_cons, map_cons, hmap]
    · intro row hrow
      rcases mem_cons.mp hrow with heq | hmem
      · rw [heq]
      · exact htarget row hmem

theorem saveGroups_eq {order : List GroupTuple → List GroupTuple}
    (horder : SetOrder order) (hstored : Stored rows) {new old : List GroupTuple}
    {columns : GroupTuple → GroupColumns}
    (hcolumns : ∀ t, t ∈ old ∨ t ∈ new → columnsOf t = .ok (columns t))
    (hold : ∀ row ∈ rows, row.target = target → ∃ t ∈ old, columns t = row.columns)
    (hrows : ∀ t ∈ old, ∃ row ∈ rows, row.target = target ∧ columns t = row.columns)
    (holdOne : ∀ t ∈ old, ∀ u ∈ old, columns t = columns u → t = u)
    (hnewOne : ∀ t ∈ new, ∀ u ∈ new, (columns t).portal = (columns u).portal → t = u)
    (hgroups : ∀ t ∈ new, ∃ group : TargetGroup, columns t = group.columns) :
    ∃ rows', saveGroups order rows target new old = .ok rows' ∧ Stored rows' ∧
      (∀ c, (∃ row ∈ rows', row.target = target ∧ row.columns = c) ↔ ∃ t ∈ new, columns t = c) ∧
      ∀ other, other ≠ target → rows'.filter (·.target = other) =
        rows.filter (·.target = other) := by
  have hremoved (t : GroupTuple) : t ∈ order (old.filter (· ∉ new)) ↔ t ∈ old ∧ t ∉ new := by
    rw [horder.mem, mem_filter, decide_eq_true_eq]
  have hadded (t : GroupTuple) : t ∈ order (new.filter (· ∉ old)) ↔ t ∈ new ∧ t ∉ old := by
    rw [horder.mem, mem_filter, decide_eq_true_eq]
  have hdelete := foldlM_deleteGroup target
    (fun t ht => hcolumns t (.inl ((hremoved t).mp ht).1)) hstored.ids
    hstored.portals
  generalize hkept : (rows.filter fun row => decide ¬ (row.target = target ∧
    ∃ t ∈ order (old.filter (· ∉ new)), columns t = row.columns)) = kept
    at hdelete
  have hmemKept (row : TargetGroupRow) (htarget : row.target = target) :
      row ∈ kept ↔ row ∈ rows ∧ ∃ t ∈ old, t ∈ new ∧ columns t = row.columns := by
    rw [← hkept, mem_filter, decide_eq_true_eq]
    constructor
    · intro hrow
      obtain ⟨t, ht, hsame⟩ := hold row hrow.1 htarget
      refine ⟨hrow.1, t, ht, ?_, hsame⟩
      by_contra hnot
      exact hrow.2 ⟨htarget, t, (hremoved t).mpr ⟨ht, hnot⟩, hsame⟩
    · rintro ⟨hrow, t, ht, hnew, hsame⟩
      refine ⟨hrow, ?_⟩
      rintro ⟨_, u, hu, husame⟩
      have huold := (hremoved u).mp hu
      have heq := holdOne t ht u huold.1 (hsame.trans husame.symm)
      exact huold.2 (heq ▸ hnew)
  have hfree : ∀ t ∈ order (new.filter (· ∉ old)), ∀ row ∈ kept,
      row.target = target → row.columns.portal ≠ (columns t).portal := by
    intro t ht row hrow htarget hportal
    obtain ⟨_, u, hu, hnew, hsame⟩ := (hmemKept row htarget).mp hrow
    have htnew := (hadded t).mp ht
    rw [← hsame] at hportal
    exact htnew.2 (hnewOne u hnew t htnew.1 hportal ▸ hu)
  have hportals : ((order (new.filter (· ∉ old))).map fun t =>
      (columns t).portal).Nodup := by
    apply List.Nodup.map_on _ (horder.nodup _)
    intro t ht u hu hsame
    exact hnewOne t ((hadded t).mp ht).1 u ((hadded u).mp hu).1 hsame
  have hids' : Distinct TargetGroupRow.id kept := hkept ▸ hstored.ids.filter _
  have hportals' : Distinct (fun row => (row.target, row.columns.portal)) kept :=
    hkept ▸ hstored.portals.filter _
  obtain ⟨added, hinsert, hids, hunique, hmap, htarget⟩ := foldlM_insertGroup target
      (fun t ht => hcolumns t (.inr ((hadded t).mp ht).1)) hids' hportals'
      hportals hfree
  have hmemAdded (c : GroupColumns) : (∃ row ∈ added, row.columns = c) ↔
      ∃ t ∈ order (new.filter (· ∉ old)), columns t = c := by
    rw [← List.mem_map, hmap, List.mem_map]
  refine ⟨kept ++ added, ?_, ⟨hids, hunique, ?_⟩, ?_, ?_⟩
  · unfold saveGroups
    rw [hdelete, ok_bind, hinsert]
  · intro row hrow
    rcases mem_append.mp hrow with hrow | hrow
    · rw [← hkept] at hrow
      exact hstored.groups row (mem_of_mem_filter hrow)
    · obtain ⟨t, ht, hsame⟩ := (hmemAdded row.columns).mp ⟨row, hrow, rfl⟩
      rw [← hsame]
      exact hgroups t ((hadded t).mp ht).1
  · intro c
    constructor
    · rintro ⟨row, hrow, hrowTarget, hc⟩
      rcases mem_append.mp hrow with hrow | hrow
      · obtain ⟨_, t, _, hnew, hsame⟩ := (hmemKept row hrowTarget).mp hrow
        exact ⟨t, hnew, hsame.trans hc⟩
      · obtain ⟨t, ht, hsame⟩ := (hmemAdded c).mp ⟨row, hrow, hc⟩
        exact ⟨t, ((hadded t).mp ht).1, hsame⟩
    · rintro ⟨t, ht, hc⟩
      by_cases holdMem : t ∈ old
      · obtain ⟨row, hrow, hrowTarget, hsame⟩ := hrows t holdMem
        exact ⟨row, mem_append_left _ ((hmemKept row hrowTarget).mpr
          ⟨hrow, t, holdMem, ht, hsame⟩), hrowTarget, hsame.symm.trans hc⟩
      · obtain ⟨row, hrow, hsame⟩ := (hmemAdded c).mpr ⟨t, (hadded t).mpr ⟨ht, holdMem⟩, hc⟩
        exact ⟨row, mem_append_right _ hrow, htarget row hrow, hsame⟩
  · intro other hother
    have hnone : added.filter (·.target = other) = [] := by
      rw [filter_eq_nil_iff]
      intro row hrow
      simp [htarget row hrow, hother.symm]
    rw [filter_append, hnone, append_nil, ← hkept, List.filter_filter]
    apply filter_congr
    intro row _
    by_cases hrow : row.target = other
    · simp [hrow, hother]
    · simp [hrow]

end

section

variable {references : TargetReferences} {schema : String}

theorem Denotes.item {dict : GroupDict} {group : TargetGroup}
    (hdenotes : Denotes dict group) {key : String} {value : GroupValue}
    (hmem : (key, value) ∈ group.values) :
    item dict.entries key = .ok value := by
  have hget : dict.entries.lookup key = some value := hdenotes.get? hmem
  rw [TargetGroups.item, hget]

theorem validateGroups_eq_ok {groups : List GroupDict}
    (hgroups : ∀ dict ∈ groups, ∃ group, Denotes dict group) (i : ℕ)
    (seen : List GroupValue) :
    ∃ errors, validateGroups references schema i seen groups = .ok errors ∧
      (errors = [] → (groups.map fun dict => dict.get? "portal").Nodup ∧
        ∀ dict ∈ groups, ∀ portal ∈ seen, dict.get? "portal" ≠ some portal) := by
  induction groups generalizing i seen with
  | nil => exact ⟨[], rfl, fun _ => ⟨nodup_nil, nofun⟩⟩
  | cons dict rest ih =>
    obtain ⟨group, hdenotes⟩ := hgroups dict mem_cons_self
    have hportal : dict.get? "portal" = some (.int group.portal) :=
      hdenotes.get? (by simp [TargetGroup.values])
    have hitem : item dict.entries "portal" = .ok (.int group.portal) :=
      hdenotes.item (by simp [TargetGroup.values])
    have hinitiator : item dict.entries "initiator" = .ok (ofOption group.initiator) :=
      hdenotes.item (by simp [TargetGroup.values])
    have hauth : item dict.entries "auth" = .ok (ofOption group.auth) :=
      hdenotes.item (by simp [TargetGroup.values])
    have hmethod : item dict.entries "authmethod" = .ok (.str group.authmethod.name) :=
      hdenotes.item (by simp [TargetGroup.values])
    obtain ⟨errors, hrest, hnone⟩ := ih
      (fun other hother => hgroups other (mem_cons_of_mem dict hother))
      (i + 1) (if !decide (GroupValue.int group.portal ∈ seen) &&
        isAmong references.portals (.int group.portal) then
          seen ++ [.int group.portal] else seen)
    unfold validateGroups
    rw [hitem, ok_bind, hinitiator, ok_bind, hauth, ok_bind, hmethod, ok_bind]
    simp only [hrest, ok_bind]
    refine ⟨_, rfl, ?_⟩
    intro hnil
    have hparts := append_eq_nil_iff.mp hnil
    have hfirst := (append_eq_nil_iff.mp (append_eq_nil_iff.mp hparts.1).1).1
    have hnew : GroupValue.int group.portal ∉ seen ∧
        isAmong references.portals (.int group.portal) = true := by
      by_cases hseen : GroupValue.int group.portal ∈ seen
      · simp [hseen] at hfirst
      · refine ⟨hseen, ?_⟩
        by_contra hfound
        simp [hseen, hfound] at hfirst
    have hlater := hnone hparts.2
    rw [if_pos (by simp [hnew])] at hlater
    constructor
    · rw [map_cons, nodup_cons]
      refine ⟨?_, hlater.1⟩
      intro hmem
      obtain ⟨other, hother, hsame⟩ := List.mem_map.mp hmem
      rw [hportal] at hsame
      exact hlater.2 other hother (.int group.portal) (by simp) hsame
    · intro other hother portal hseen hsame
      rcases mem_cons.mp hother with heq | hmem
      · rw [heq, hportal] at hsame
        exact hnew.1 (some.inj hsame ▸ hseen)
      · exact hlater.2 other hmem portal (mem_append_left _ hseen) hsame

end

/-! ## Updating -/

theorem columns_injective {group other : TargetGroup}
    (heq : group.columns = other.columns) : group = other := by
  have hdenotes := denotes_extendGroup group
  rw [heq] at hdenotes
  exact hdenotes.eq (denotes_extendGroup other)

section

variable {references : TargetReferences} {others : List VerrorEntry}
  {order : List GroupTuple → List GroupTuple} {rows : List TargetGroupRow}
  {target : ℕ} {payload : Option (List GroupDict)}

theorem exists_denotes_extendGroups_iff (hstored : Stored rows) {group : TargetGroup} :
    (∃ dict ∈ extendGroups rows target, Denotes dict group) ↔
      ∃ row ∈ rows, row.target = target ∧ row.columns = group.columns := by
  constructor
  · rintro ⟨dict, hdict, hdenotes⟩
    obtain ⟨row, hrow, rfl⟩ := List.mem_map.mp hdict
    rw [mem_filter, decide_eq_true_eq] at hrow
    obtain ⟨other, hother⟩ := hstored.groups row hrow.1
    rw [hother] at hdenotes
    rw [hdenotes.eq (denotes_extendGroup other)]
    exact ⟨row, hrow.1, hrow.2, hother⟩
  · rintro ⟨row, hrow, htarget, hcolumns⟩
    refine ⟨extendGroup row.columns, ?_, hcolumns ▸ denotes_extendGroup group⟩
    exact List.mem_map.mpr ⟨row, by simp [hrow, htarget], rfl⟩

theorem denotes_of_mem_extendGroups (hstored : Stored rows) {dict : GroupDict}
    (hdict : dict ∈ extendGroups rows target) : ∃ group, Denotes dict group := by
  obtain ⟨row, hrow, rfl⟩ := List.mem_map.mp hdict
  obtain ⟨group, hgroup⟩ := hstored.groups row (mem_of_mem_filter hrow)
  exact ⟨group, hgroup ▸ denotes_extendGroup group⟩

theorem authmethod_mem_of_denotes {dict : GroupDict}
    (hdenotes : ∃ group, Denotes dict group) : "authmethod" ∈ dict := by
  obtain ⟨group, hdenotes⟩ := hdenotes
  have hget : dict.get? "authmethod" = some (.str group.authmethod.name) :=
    hdenotes.get? (by simp [TargetGroup.values])
  exact mem_of_get?_eq_some hget

theorem saveGroups_self (horder : SetOrder order) (groups : List GroupTuple) :
    saveGroups order rows target groups groups = .ok rows := by
  have hnil : groups.filter (· ∉ groups) = [] := by
    rw [filter_eq_nil_iff]
    intro t ht
    simp [ht]
  have hempty : order [] = [] := by
    apply eq_nil_iff_forall_not_mem.mpr
    intro t ht
    exact absurd ((horder.mem [] t).mp ht) not_mem_nil
  unfold saveGroups
  rw [hnil, hempty]
  rfl

theorem saveGroups_payload (horder : SetOrder order) (hstored : Stored rows)
    {groups : List GroupDict}
    (hgroups : ∀ dict ∈ groups, ∃ group, Denotes dict group)
    (hportals : (groups.map fun dict => dict.get? "portal").Nodup) :
    ∃ rows', saveGroups order rows target (groups.map fun dict => (compressed dict).entries)
        ((extendGroups rows target).map fun dict =>
          (compressed dict).entries) = .ok rows' ∧ Stored rows' ∧
      (∀ group, (∃ row ∈ rows', row.target = target ∧
          row.columns = group.columns) ↔ ∃ dict ∈ groups, Denotes dict group) ∧
      ∀ other, other ≠ target → rows'.filter (·.target = other) =
        rows.filter (·.target = other) := by
  let columns (t : GroupTuple) : GroupColumns :=
    (columnsOf t).toOption.getD ⟨.none, .none, .none, .none⟩
  have hcolumns {dict : GroupDict} {group : TargetGroup} (hdenotes : Denotes dict group) :
      columns (compressed dict).entries = group.columns := by
    simp [columns, hdenotes.columnsOf, Except.toOption]
  have hread {dict : GroupDict} (hdict : ∃ group, Denotes dict group) :
      columnsOf (compressed dict).entries = .ok (columns (compressed dict).entries) := by
    obtain ⟨group, hdenotes⟩ := hdict
    rw [hcolumns hdenotes, hdenotes.columnsOf]
  have hrow (row : TargetGroupRow) (hmem : row ∈ rows) :
      columns (compressed (extendGroup row.columns)).entries = row.columns := by
    obtain ⟨group, hgroup⟩ := hstored.groups row hmem
    rw [hgroup]
    exact hcolumns (denotes_extendGroup group)
  have hold (t : GroupTuple) (ht : t ∈ (extendGroups rows target).map fun dict =>
      (compressed dict).entries) : ∃ row ∈ rows, row.target = target ∧
        (compressed (extendGroup row.columns)).entries = t := by
    obtain ⟨dict, hdict, heq⟩ := List.mem_map.mp ht
    obtain ⟨row, hmem, hextend⟩ := List.mem_map.mp hdict
    rw [mem_filter, decide_eq_true_eq] at hmem
    exact ⟨row, hmem.1, hmem.2, by rw [hextend, heq]⟩
  obtain ⟨rows', hsave, hstored', hsame, hothers⟩ := @saveGroups_eq rows target order horder hstored
      (groups.map fun dict => (compressed dict).entries)
      ((extendGroups rows target).map fun dict => (compressed dict).entries)
      columns
      (by
        intro t ht
        rcases ht with ht | ht
        · obtain ⟨dict, hdict, rfl⟩ := List.mem_map.mp ht
          exact hread (denotes_of_mem_extendGroups hstored hdict)
        · obtain ⟨dict, hdict, rfl⟩ := List.mem_map.mp ht
          exact hread (hgroups dict hdict))
      (by
        intro row hmem htarget
        exact ⟨_, List.mem_map_of_mem (List.mem_map.mpr
          ⟨row, by simp [hmem, htarget], rfl⟩), hrow row hmem⟩)
      (by
        intro t ht
        obtain ⟨row, hmem, htarget, rfl⟩ := hold t ht
        exact ⟨row, hmem, htarget, hrow row hmem⟩)
      (by
        intro t ht u hu heq
        obtain ⟨row, hmem, _, rfl⟩ := hold t ht
        obtain ⟨other, hother, _, rfl⟩ := hold u hu
        rw [hrow row hmem, hrow other hother] at heq
        rw [heq])
      (by
        intro t ht u hu heq
        obtain ⟨dict, hdict, rfl⟩ := List.mem_map.mp ht
        obtain ⟨other, hother, rfl⟩ := List.mem_map.mp hu
        obtain ⟨group, hgroup⟩ := hgroups dict hdict
        obtain ⟨group', hgroup'⟩ := hgroups other hother
        rw [hcolumns hgroup, hcolumns hgroup'] at heq
        have hget : dict.get? "portal" = some (.int group.portal) :=
          hgroup.get? (by simp [TargetGroup.values])
        have hget' : other.get? "portal" = some (.int group'.portal) :=
          hgroup'.get? (by simp [TargetGroup.values])
        have hportal : dict.get? "portal" = other.get? "portal" := by
          rw [hget, hget']
          exact congrArg some heq
        rw [inj_on_of_nodup_map hportals hdict hother hportal])
      (by
        intro t ht
        obtain ⟨dict, hdict, rfl⟩ := List.mem_map.mp ht
        obtain ⟨group, hgroup⟩ := hgroups dict hdict
        exact ⟨group, hcolumns hgroup⟩)
  refine ⟨rows', hsave, hstored', ?_, hothers⟩
  intro group
  rw [hsame]
  constructor
  · rintro ⟨t, ht, heq⟩
    obtain ⟨dict, hdict, rfl⟩ := List.mem_map.mp ht
    obtain ⟨other, hother⟩ := hgroups dict hdict
    rw [hcolumns hother] at heq
    exact ⟨dict, hdict, columns_injective heq ▸ hother⟩
  · rintro ⟨dict, hdict, hdenotes⟩
    exact ⟨_, List.mem_map_of_mem hdict, hcolumns hdenotes⟩

theorem map_heap (old groups : List GroupDict) : ((List.range old.length).map fun ref =>
      ((old ++ groups)[ref]?).getD Dict.empty) = old ∧
    ((List.range' old.length groups.length).map fun ref =>
      ((old ++ groups)[ref]?).getD Dict.empty) = groups := by
  constructor
  · apply ext_getElem
    · simp
    · intro i hi hi'
      simp [getElem?_append_left hi', getElem?_eq_getElem hi']
  · apply ext_getElem
    · simp
    · intro i hi hi'
      simp [getElem?_append_right, getElem?_eq_getElem hi']

theorem compressAndSave_same (horder : SetOrder order) {heap : GroupHeap} {n : ℕ}
    (hmem : ∀ ref ∈ List.range n, "authmethod" ∈ heap ref) :
    compressAndSave order rows target heap (List.range n) (List.range n) = .ok rows := by
  unfold compressAndSave
  rw [compress_eq nodup_range hmem, ok_bind, compress_eq nodup_range, ok_bind]
  · exact saveGroups_self horder _
  · intro ref href
    rw [if_pos href]
    exact authmethod_mem_compressed (heap ref)

theorem compressAndSave_disjoint {heap : GroupHeap} {old groups : List GroupDict}
    (hheap : (List.range old.length).map heap = old)
    (hheap' : (List.range' old.length groups.length).map heap = groups)
    (hold : ∀ dict ∈ old, "authmethod" ∈ dict)
    (hgroups : ∀ dict ∈ groups, "authmethod" ∈ dict) :
    compressAndSave order rows target heap
        (List.range' old.length groups.length) (List.range old.length) =
      saveGroups order rows target (groups.map fun dict => (compressed dict).entries)
        (old.map fun dict => (compressed dict).entries) := by
  have hnew : ∀ ref ∈ List.range' old.length groups.length, ref ∉ List.range old.length := by
    intro ref href hmem
    rw [mem_range'_1] at href
    rw [mem_range] at hmem
    omega
  unfold compressAndSave
  rw [compress_eq nodup_range', ok_bind, compress_eq nodup_range, ok_bind]
  · congr 1
    · conv_rhs => rw [← hheap', List.map_map]
      apply map_congr_left
      intro ref href
      simp [hnew ref href, href]
    · conv_rhs => rw [← hheap, List.map_map]
      apply map_congr_left
      intro ref href
      have hother : ref ∉ List.range' old.length groups.length := fun hmem => hnew ref hmem href
      simp only [Function.comp_apply]
      rw [if_pos href, if_neg hother]
  · intro ref href
    rw [if_neg fun hmem => hnew ref hmem href]
    apply hold
    rw [← hheap]
    exact List.mem_map_of_mem href
  · intro ref href
    apply hgroups
    rw [← hheap']
    exact List.mem_map_of_mem href

/-- An update that validation does not refuse stores the groups of its payload,
or leaves the old ones, and the groups of other targets as they are. -/
theorem doUpdate_groups (hstored : Stored rows) (horder : SetOrder order)
    (hpayload : ∀ groups, payload = some groups → ∀ dict ∈ groups, ∃ group, Denotes dict group)
    (haccepted : ∀ errors, doUpdate references others order rows target payload ≠
      .error (.validation errors)) :
    ∃ rows', doUpdate references others order rows target payload = .ok rows' ∧ Stored rows' ∧
      (∀ group, (∃ dict ∈ extendGroups rows' target, Denotes dict group) ↔
        ∃ dict ∈ payload.getD (extendGroups rows target), Denotes dict group) ∧
      ∀ other, other ≠ target → extendGroups rows' other = extendGroups rows other := by
  have hold : ∀ dict ∈ extendGroups rows target, ∃ group, Denotes dict group :=
    fun dict hdict => denotes_of_mem_extendGroups hstored hdict
  cases payload with
  | none =>
    have hheap := (map_heap (extendGroups rows target) []).1
    obtain ⟨errors, hvalidate, _⟩ := @validateGroups_eq_ok references
      "iscsi_target_create" _ hold 0 []
    unfold doUpdate at haccepted ⊢
    simp only [getD_none, hheap, hvalidate, ok_bind] at haccepted ⊢
    rw [if_neg (by
      intro hne
      exact haccepted (others ++ errors) (if_pos hne))]
    refine ⟨rows, ?_, hstored, fun group => Iff.rfl, fun _ _ => rfl⟩
    apply compressAndSave_same horder
    intro ref href
    have hdict := List.mem_map_of_mem (f := fun ref =>
      ((extendGroups rows target ++ [])[ref]?).getD Dict.empty) href
    rw [hheap] at hdict
    exact authmethod_mem_of_denotes (hold _ hdict)
  | some groups =>
    have hgroups := hpayload groups rfl
    obtain ⟨hheap, hheap'⟩ := map_heap (extendGroups rows target) groups
    obtain ⟨errors, hvalidate, hportals⟩ := @validateGroups_eq_ok references
      "iscsi_target_create" _ hgroups 0 []
    unfold doUpdate at haccepted ⊢
    simp only [getD_some, hheap', hvalidate, ok_bind] at haccepted ⊢
    have hnil : others ++ errors = [] := by
      by_contra hne
      exact haccepted (others ++ errors) (if_pos hne)
    rw [if_neg (not_not_intro hnil), compressAndSave_disjoint hheap hheap'
      (fun dict hdict => authmethod_mem_of_denotes (hold dict hdict))
      (fun dict hdict => authmethod_mem_of_denotes (hgroups dict hdict))]
    obtain ⟨rows', hsave, hstored', hsame, hothers⟩ := saveGroups_payload horder hstored hgroups
        (hportals (append_eq_nil_iff.mp hnil).2).1
    refine ⟨rows', hsave, hstored', ?_, ?_⟩
    · intro group
      rw [exists_denotes_extendGroups_iff hstored', hsame]
    · intro other hother
      rw [extendGroups, hothers other hother, extendGroups]

end

def chapRows : List TargetGroupRow :=
  [⟨1, 7, TargetGroup.columns ⟨1, none, some 3, .chap⟩⟩]

def mutualGroup : GroupDict where
  entries := [("authmethod", .str "CHAP_MUTUAL"), ("portal", .int 1),
    ("auth", .int 3), ("initiator", .none)]
  nodup := by simp

theorem stored_chapRows : Stored chapRows where
  ids := nodup_singleton _
  portals := nodup_singleton _
  groups row hrow := by
    rw [mem_singleton.mp hrow]
    exact ⟨_, rfl⟩

theorem setOrder_dedup : SetOrder List.dedup where
  nodup := nodup_dedup
  mem _ _ := mem_dedup

theorem denotes_mutualGroup : Denotes mutualGroup ⟨1, none, some 3, .chapMutual⟩ := by
  unfold Denotes
  decide

theorem doUpdate_groups_chap :
    ∃ rows', doUpdate ⟨[1], [], fun _ => some true⟩ [] List.dedup chapRows 7
        (some [mutualGroup]) = .ok rows' ∧
      ∃ dict ∈ extendGroups rows' 7, Denotes dict ⟨1, none, some 3, .chapMutual⟩ := by
  have hpayload : ∀ groups, some [mutualGroup] = some groups →
      ∀ dict ∈ groups, ∃ group, Denotes dict group := by
    intro groups heq dict hdict
    rw [← some.inj heq, mem_singleton] at hdict
    exact ⟨_, hdict ▸ denotes_mutualGroup⟩
  have haccepted : ∀ errors, doUpdate ⟨[1], [], fun _ => some true⟩ []
      List.dedup chapRows 7 (some [mutualGroup]) ≠ .error (.validation errors) :=
    by
      exact nofun
  obtain ⟨rows', hupdate, _, hsame, _⟩ :=
    doUpdate_groups stored_chapRows setOrder_dedup hpayload haccepted
  exact ⟨rows', hupdate, (hsame _).mpr ⟨mutualGroup, by simp, denotes_mutualGroup⟩⟩

end TargetGroups

end Middlewared
