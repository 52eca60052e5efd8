import Middlewared.Dict
import Middlewared.PyString
import Middlewared.TransitionSystem

/-!
# Directory services account cache

Each of the two cache files maps a key made of an id, and a key made of a name, to an account
entry.
-/

namespace Middlewared

open List

inductive IDType where
  | user
  | group
deriving DecidableEq

structure DirectoryAccount where
  id : ℕ
  name : String
deriving DecidableEq

/-- An entry of `user.query` or `group.query`: the account with the columns
that `_retrieve` sets, and all others as one value. -/
structure CacheEntry (Columns : Type*) where
  account : DirectoryAccount
  sid : Option String
  roles : List String
  columns : Columns

abbrev TdbFile (Columns : Type*) := Dict String (CacheEntry Columns)

/-- `directoryservice_cache_user` and `directoryservice_cache_group`. -/
structure DirectoryCache (Columns : Type*) where
  files : IDType → TdbFile Columns

variable {Columns : Type*}

def idKey (xid : ℕ) : String := "ID_" ++ toString xid

def nameKey (name : String) : String := "NAME_" ++ name

def tdbAddEntry (handle : TdbFile Columns) (xid : ℕ) (name : String)
    (entry : CacheEntry Columns) : TdbFile Columns :=
  (handle.set (idKey xid) entry).set (nameKey name) entry

/-- The loop of `fill_cache` over the accounts that NSS enumerates. -/
def fillFile (entries : List (CacheEntry Columns)) : TdbFile Columns :=
  entries.foldl (fun handle entry =>
      tdbAddEntry handle entry.account.id entry.account.name entry)
    Dict.empty

namespace DirectoryCache

def init : DirectoryCache Columns where
  files _ := Dict.empty

/-- `fill_cache` with its `_commit`. -/
def fillCache (users groups : List (CacheEntry Columns)) :
    DirectoryCache Columns where
  files
    | .user => fillFile users
    | .group => fillFile groups

/-- `insert_cache_entry`: the two operations of its batch. -/
def insertCacheEntry (cache : DirectoryCache Columns) (idType : IDType)
    (xid : ℕ) (_name : String) (entry : CacheEntry Columns) :
    DirectoryCache Columns where
  files := Function.update cache.files idType (((cache.files idType).set (idKey xid) entry).set
      (nameKey (toString xid)) entry)

def retrieveCacheEntry (cache : DirectoryCache Columns) (idType : IDType)
    (name : Option String) (xid : Option ℕ) : Option (CacheEntry Columns) :=
  match xid with
  | some xid => (cache.files idType).get? (idKey xid)
  | none => (cache.files idType).get? (nameKey (name.getD "None"))

/-- `DSCache._insert`. -/
def insert (cache : DirectoryCache Columns) (idType : IDType)
    (entry : CacheEntry Columns) : DirectoryCache Columns :=
  cache.insertCacheEntry idType entry.account.id entry.account.name entry

/-- `DSCache._retrieve`; `nss` is the entry that is made from what NSS answers
when the cache has none. -/
def retrieve (cache : DirectoryCache Columns) (idType : IDType)
    (who : Option String) (id : Option ℕ) (smb : Bool)
    (nss : Option (CacheEntry Columns)) :
    Option (CacheEntry Columns) × DirectoryCache Columns :=
  let strip (entry : CacheEntry Columns) : CacheEntry Columns :=
    { entry with sid := if smb then entry.sid else none, roles := [] }
  match cache.retrieveCacheEntry idType who id with
  | some entry => (some (strip entry), cache)
  | none =>
    match nss with
    | none => (none, cache)
    | some entry => (some (strip entry), cache.insert idType entry)

inductive Action (Columns : Type*) where
  | fillCache (users groups : List (CacheEntry Columns))
  | insert (idType : IDType) (entry : CacheEntry Columns)

def step (cache : DirectoryCache Columns) :
    Action Columns → Option (DirectoryCache Columns)
  | .fillCache users groups => some (fillCache users groups)
  | .insert idType entry => some (cache.insert idType entry)

def Action.writes : Action Columns → IDType → List (CacheEntry Columns)
  | .fillCache users _, .user => users
  | .fillCache _ groups, .group => groups
  | .insert written entry, idType => if written = idType then [entry] else []

end DirectoryCache

theorem idKey_injective : Function.Injective idKey := by
  intro first second heq
  apply PyString.toString_injective
  have hchars := congrArg String.toList heq
  simp only [idKey, String.toList_append] at hchars
  exact String.toList_injective (append_cancel_left hchars)

theorem nameKey_injective : Function.Injective nameKey := by
  intro first second heq
  have hchars := congrArg String.toList heq
  simp only [nameKey, String.toList_append] at hchars
  exact String.toList_injective (append_cancel_left hchars)

theorem idKey_ne_nameKey (xid : ℕ) (name : String) : idKey xid ≠ nameKey name := by
  intro heq
  have hchars := congrArg String.toList heq
  simp [idKey, nameKey] at hchars

section

variable (handle : TdbFile Columns) (xid : ℕ) (name : String)
  (entry : CacheEntry Columns)

@[simp] theorem get?_idKey_tdbAddEntry (other : ℕ) :
    (tdbAddEntry handle xid name entry).get? (idKey other) =
      if other = xid then some entry else handle.get? (idKey other) := by
  rw [tdbAddEntry, Dict.get?_set, if_neg (idKey_ne_nameKey other name), Dict.get?_set]
  simp only [idKey_injective.eq_iff]

@[simp] theorem get?_nameKey_tdbAddEntry (other : String) :
    (tdbAddEntry handle xid name entry).get? (nameKey other) =
      if other = name then some entry else handle.get? (nameKey other) := by
  rw [tdbAddEntry, Dict.get?_set, Dict.get?_set, if_neg (idKey_ne_nameKey xid other).symm]
  simp only [nameKey_injective.eq_iff]

end

/-! ## Coherence -/

section

variable {accounts : DirectoryAccount → Prop} {file : TdbFile Columns}

/-- What a file holds under a name or an id is the account of that name or id,
and the accounts are under both or under neither. -/
structure TdbFile.Coherent (accounts : DirectoryAccount → Prop)
    (file : TdbFile Columns) : Prop where
  byName : ∀ name entry, file.get? (nameKey name) = some entry → entry.account.name = name
  byId : ∀ xid entry, file.get? (idKey xid) = some entry → entry.account.id = xid
  found_iff : ∀ account, accounts account → ((file.get? (nameKey account.name)).isSome ↔
      (file.get? (idKey account.id)).isSome)

theorem coherent_empty : TdbFile.Coherent accounts (Dict.empty : TdbFile Columns) := by
  constructor <;> simp

def Unshared (accounts : DirectoryAccount → Prop) : Prop :=
  ∀ first second, accounts first → accounts second →
    first.name = second.name ∨ first.id = second.id → first = second

theorem TdbFile.Coherent.tdbAddEntry (hfile : file.Coherent accounts)
    (hunshared : Unshared accounts) {entry : CacheEntry Columns}
    (hentry : accounts entry.account) :
    TdbFile.Coherent accounts (tdbAddEntry file entry.account.id entry.account.name entry) where
  byName name other hget := by
    rw [get?_nameKey_tdbAddEntry] at hget
    split at hget
    case isTrue hname =>
      cases hget
      exact hname.symm
    case isFalse => exact hfile.byName name other hget
  byId xid other hget := by
    rw [get?_idKey_tdbAddEntry] at hget
    split at hget
    case isTrue hid =>
      cases hget
      exact hid.symm
    case isFalse => exact hfile.byId xid other hget
  found_iff account haccount := by
    rw [get?_idKey_tdbAddEntry, get?_nameKey_tdbAddEntry]
    by_cases hsame : account = entry.account
    · simp [hsame]
    · have hshares := mt (hunshared account entry.account haccount hentry) hsame
      rw [not_or] at hshares
      rw [if_neg hshares.1, if_neg hshares.2]
      exact hfile.found_iff account haccount

theorem coherent_fillFile (hunshared : Unshared accounts) {entries : List (CacheEntry Columns)}
    (hentries : ∀ entry ∈ entries, accounts entry.account) :
    TdbFile.Coherent accounts (fillFile entries) := by
  suffices hfold : ∀ file : TdbFile Columns, file.Coherent accounts →
      TdbFile.Coherent accounts (entries.foldl (fun handle entry =>
          tdbAddEntry handle entry.account.id entry.account.name entry) file)
    from hfold Dict.empty coherent_empty
  induction entries with
  | nil => exact fun _ hfile => hfile
  | cons entry rest ih =>
    intro file hfile
    rw [forall_mem_cons] at hentries
    exact ih hentries.2 _ (hfile.tdbAddEntry hunshared hentries.1)

end

namespace DirectoryCache

open TransitionSystem

variable {accounts : IDType → DirectoryAccount → Prop}
  {cache next : DirectoryCache Columns}

structure Coherent (accounts : IDType → DirectoryAccount → Prop)
    (cache : DirectoryCache Columns) : Prop where
  byName : ∀ idType name entry, cache.retrieveCacheEntry idType (some name) none = some entry →
      entry.account.name = name
  byId : ∀ idType name xid entry, cache.retrieveCacheEntry idType name (some xid) = some entry →
      entry.account.id = xid
  found_iff : ∀ idType account, accounts idType account →
    ((cache.retrieveCacheEntry idType (some account.name) none).isSome ↔
      (cache.retrieveCacheEntry idType none (some account.id)).isSome)

theorem coherent_iff_files : cache.Coherent accounts ↔
    ∀ idType, (cache.files idType).Coherent (accounts idType) := by
  constructor
  · intro hcache idType
    exact ⟨hcache.byName idType, hcache.byId idType none, hcache.found_iff idType⟩
  · intro hfiles
    exact ⟨fun idType => (hfiles idType).byName, fun idType _ => (hfiles idType).byId,
      fun idType => (hfiles idType).found_iff⟩

/-- A lazy insert writes the name key of the id, so the name has to be the id
written out. -/
def Action.InsertsUnderName : Action Columns → Prop
  | .fillCache _ _ => True
  | .insert _ entry => entry.account.name = toString entry.account.id

theorem files_insert (idType other : IDType) (entry : CacheEntry Columns) :
    (cache.insert idType entry).files other = if other = idType then
        tdbAddEntry (cache.files idType) entry.account.id (toString entry.account.id) entry
      else cache.files other := by
  by_cases hother : other = idType
  · subst hother
    simp [insert, insertCacheEntry, tdbAddEntry]
  · simp [insert, insertCacheEntry, hother]

theorem coherent_step_iff (hunshared : ∀ idType, Unshared (accounts idType))
    {action : Action Columns}
    (hwrites : ∀ idType, ∀ entry ∈ action.writes idType, accounts idType entry.account)
    (hcache : cache.Coherent accounts) (hstep : cache.step action = some next) :
    next.Coherent accounts ↔ action.InsertsUnderName := by
  cases action with
  | fillCache users groups =>
    cases hstep
    simp only [Action.InsertsUnderName, iff_true, coherent_iff_files]
    intro idType
    cases idType with
    | user => exact coherent_fillFile (hunshared .user) (hwrites .user)
    | group => exact coherent_fillFile (hunshared .group) (hwrites .group)
  | insert idType entry =>
    cases hstep
    have hentry : accounts idType entry.account := hwrites idType entry (by simp [Action.writes])
    rw [coherent_iff_files] at hcache ⊢
    constructor
    · intro hnext
      have hfile := hnext idType
      rw [files_insert, if_pos rfl] at hfile
      exact hfile.byName (toString entry.account.id) entry (by simp)
    · intro hname other
      rw [files_insert]
      split
      case isTrue hother =>
        subst hother
        rw [← show entry.account.name = _ from hname]
        exact (hcache other).tdbAddEntry (hunshared other) hentry
      case isFalse => exact hcache other

/-- Over any sequence of fills and lazy inserts, the cache is coherent all the
time exactly when each account that is inserted lazily is named by its id. -/
theorem cache_coherent_iff (hunshared : ∀ idType, Unshared (accounts idType))
    {actions : List (Action Columns)}
    (hwrites : ∀ action ∈ actions, ∀ idType, ∀ entry ∈ action.writes idType,
      accounts idType entry.account)
    (hrun : run step init actions = some cache) :
    EveryStep step (fun _ action => action.InsertsUnderName) init actions ↔
      ∀ k during, run step init (actions.take k) = some during → during.Coherent accounts := by
  apply everyStep_iff_forall_take_of_mem (fun _ => True) _ _ hwrites trivial _ hrun
  · exact fun _ _ _ _ _ _ => trivial
  · exact fun _ _ _ hkind _ hcoherent hstep =>
      coherent_step_iff hunshared hkind hcoherent hstep
  · exact coherent_iff_files.mpr fun _ => coherent_empty

def bob : CacheEntry Unit where
  account := ⟨1000, "bob"⟩
  sid := none
  roles := []
  columns := ()

def digits : CacheEntry Unit where
  account := ⟨1001, "1000"⟩
  sid := none
  roles := []
  columns := ()

def namedByItsId : CacheEntry Unit where
  account := ⟨2000, "2000"⟩
  sid := none
  roles := []
  columns := ()

def people : IDType → DirectoryAccount → Prop
  | .user, account =>
    account ∈ [bob.account, digits.account, namedByItsId.account]
  | .group, _ => False

theorem unshared_people : ∀ idType, Unshared (people idType)
  | .user => by
    have hall : ∀ first ∈ [bob.account, digits.account, namedByItsId.account],
        ∀ second ∈ [bob.account, digits.account, namedByItsId.account],
        first.name = second.name ∨ first.id = second.id → first = second := by
      decide
    exact fun first second hfirst hsecond =>
      hall first hfirst second hsecond
  | .group => fun _ _ hfirst => hfirst.elim

theorem people_writes : ∀ action ∈ [Action.fillCache [bob, digits] [], .insert .user namedByItsId],
    ∀ idType, ∀ entry ∈ action.writes idType, people idType entry.account := by
  intro action haction idType entry hentry
  simp only [mem_cons, not_mem_nil, or_false] at haction
  rcases haction with rfl | rfl <;> cases idType
  all_goals simp [Action.writes] at hentry
  · rcases hentry with rfl | rfl <;> simp [people]
  · simp [people, hentry]

theorem filled_coherent : ∃ cache, run step init
    [.fillCache [bob, digits] [], .insert .user namedByItsId] =
      some cache ∧ cache.Coherent people := by
  have hiff := @cache_coherent_iff Unit people _ unshared_people
    [.fillCache [bob, digits] [], .insert .user namedByItsId]
    people_writes rfl
  refine ⟨_, rfl, hiff.mp ?_ 2 _ rfl⟩
  exact everyStep_cons trivial rfl (everyStep_cons rfl rfl trivial)

/-- The second copy is filed under the text of the id in place of the name. -/
theorem inserted_not_coherent : ∃ cache, run step init [.insert .user bob] = some cache ∧
    ¬ cache.Coherent people := by
  refine ⟨_, rfl, ?_⟩
  intro hcoherent
  have hname := hcoherent.byName .user "1000" bob rfl
  exact absurd hname (by decide)

end DirectoryCache

end Middlewared
