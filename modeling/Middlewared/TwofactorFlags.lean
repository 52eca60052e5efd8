import Middlewared.DirectoryCache
import Middlewared.FilterConjunction
import Middlewared.FilterProjection

/-!
# Two-factor authentication of directory users

`user.query` adds the entries of the directory services cache to those of local users.
-/

namespace Middlewared.TwofactorFlags

open List Option TransitionSystem

def flagKey : String := "twofactor_auth_configured"

/-- The columns of a cached user besides those that `_retrieve` looks at. -/
structure UserColumns where
  flagged : Bool
  others : Row
  others_apart : ∀ key ∈ [flagKey, "local", "sid"], others.lookup key = none

/-- The entry that `fill_cache` writes, which has the flag, or the one of
`idmap.synthetic_user`, which has none. -/
def userRow (entry : CacheEntry UserColumns) : Row :=
  ("id", .int (100000000 + entry.account.id)) :: ("uid", .int entry.account.id) ::
    ("username", .str entry.account.name) :: ("local", .bool false) ::
    ("sid", entry.sid.elim .none .str) :: ("roles", .list (entry.roles.map .str)) ::
    ((if entry.columns.flagged then [(flagKey, .bool false)] else []) ++ entry.columns.others)

/-- A row of `account.twofactor_user_auth`. -/
structure TwofactorRow where
  userSid : Option String
  secret : Option String
deriving DecidableEq

/-- What `datastore.query` returns for `account.bsdusers`. -/
structure LocalUsers where
  rows : List Row
  isLocal : ∀ row ∈ rows, row ≠ [] ∧ row.lookup "local" = some (.bool true)

inductive UserQueryError where
  | filter (error : PyError)
  | validationErrors
  | indexError

/-- What `_retrieve` looks for. -/
inductive Principal where
  | who (name : String)
  | id (uid : ℤ)
deriving DecidableEq

/-- What is there besides the tables: the check of the arguments of
`_retrieve`, given whether it is one for names, and the entry that is made of
what NSS answers. -/
structure DirectoryEnv extends PyRuntime where
  clean : Bool → PyValue → Option Principal
  nss : Principal → Option (CacheEntry UserColumns)
  healthy : Bool

variable (env : DirectoryEnv) (cache : DirectoryCache UserColumns) (filters : List PyValue)

def excludesDsAccounts : PyValue → Bool
  | .list (.str name :: .str op :: .bool value :: _) =>
    name ∈ ["local", "builtin"] && (op = "=" && value || op = "!=" && !value)
  | _ => false

def filtersIncludeDsAccounts : Bool := !filters.any excludesDsAccounts

def filterRows (rows : List Row) : Except UserQueryError (List Row) :=
  match filterList env.toPyRuntime rows filters {} with
  | .ok (.rows rows) => .ok rows
  | .ok _ => .ok []
  | .error error => .error (.filter error)

def singleUser : List PyValue → Except UserQueryError (Option Principal)
  | [.list (.str name :: .str op :: operands)] =>
    let isName := name ∈ ["username", "name", "group"]
    if (isName ∨ name ∈ ["uid", "gid"]) ∧ op = "=" then
      match operands with
      | [] => .error .indexError
      | value :: _ =>
        match env.clean isName value with
        | some principal => .ok (some principal)
        | none => .error .validationErrors
    else .ok none
  | _ => .ok none

def retrieve (principal : Principal) : Option (CacheEntry UserColumns) :=
  match principal with
  | .who name => (cache.retrieve .user (some name) none true (env.nss principal)).1
  | .id uid =>
    if 0 ≤ uid then (cache.retrieve .user none (some uid.toNat) true (env.nss principal)).1
    else env.nss principal

def rowId (row : Row) : ℤ :=
  match row.lookup "id" with
  | some (.int id) => id
  | _ => 0

/-- `directoryservices.cache.query` -/
def cacheQuery : Except UserQueryError (List Row) := do
  match ← singleUser env filters with
  | some principal => return ((retrieve env cache principal).map userRow).toList
  | none =>
    let entries := (cache.files .user).entries.filter fun entry => entry.1.startsWith "ID_"
    let rows ← filterRows env filters (entries.map fun entry => userRow entry.2)
    return rows.mergeSort fun row other => rowId row ≤ rowId other

def dsUsers : Except UserQueryError (List Row) :=
  if filtersIncludeDsAccounts filters && env.healthy then cacheQuery env cache filters
  else .ok []

def lacksFlag (row : Row) : Bool :=
  !((row.lookup "local").getD .none).truthy && (row.lookup flagKey).isNone

variable (twofactor : List TwofactorRow)

/-- `bool(ad_users_2fa_mapping.get(user['sid']))`: the mapping has the row of
each SID, whatever its secret. -/
def isMapped (user : Row) : Bool :=
  twofactor.any fun entry => entry.userSid.any fun sid =>
    ((user.lookup "sid").getD .none).eq (.str sid)

def setFlag (user row : Row) : Row := setItem row flagKey (.bool (isMapped twofactor user))

/-- The loop over the entries without the flag, which `index` counts; an entry
is looked at before what is behind it is changed. -/
def flagLoop (done : List Row) (index : ℕ) : List Row → List Row
  | [] => done
  | user :: rest =>
    if lacksFlag user then
      flagLoop ((done ++ [user]).modify index (setFlag twofactor user)) (index + 1) rest
    else flagLoop (done ++ [user]) index rest

/-- `user.query` for Active Directory. -/
def userQuery (localUsers : LocalUsers) : Except UserQueryError (List Row) := do
  let users ← dsUsers env cache filters
  filterRows env filters (localUsers.rows ++ flagLoop twofactor [] 0 users)

def hasSecret (user : Row) : Bool :=
  twofactor.any fun entry => (entry.userSid.any fun sid =>
    ((user.lookup "sid").getD .none).eq (.str sid)) && entry.secret.any (· ≠ "")

def FlagsRight (result : List Row) : Prop :=
  ∀ row ∈ result, row.lookup "local" = some (.bool false) →
    row.lookup flagKey = some (.bool (hasSecret twofactor row))

/-- The filters let a row through. -/
def Accepted (row : Row) : Prop :=
  ∃ recorded, validateFilters env.toPyRuntime (maxFiltersDepth + 1) filters = .ok recorded ∧
    filters.allM (verdict env.toPyRuntime recorded row (maxFiltersDepth + 1)) = .ok true

/-- The cache answers the filters with an entry: with the one that is asked for, or with every
cached one that they let through. -/
def Answers (entry : CacheEntry UserColumns) : Prop :=
  match singleUser env filters with
  | .ok (some principal) => retrieve env cache principal = some entry
  | .ok none => (cache.files .user).get? (idKey entry.account.id) = some entry ∧
      Accepted env filters (userRow entry)
  | .error _ => False

/-- Among the entries that the cache answers with, the ones without a flag have smaller ids than
those of a fill, no user of a fill has a secret, and a user without a flag has one where its SID
has a row; the last two only where the filters let the flag of the entry through. -/
structure FlagsFit : Prop where
  insertedFirst : ∀ entry other, Answers env cache filters entry →
    Answers env cache filters other → entry.columns.flagged = true →
    other.columns.flagged = false → other.account.id < entry.account.id
  filled : ∀ entry, Answers env cache filters entry → entry.columns.flagged = true →
    Accepted env filters (userRow entry) → hasSecret twofactor (userRow entry) = false
  inserted : ∀ entry, Answers env cache filters entry → entry.columns.flagged = false →
    Accepted env filters (setItem (userRow entry) flagKey (.bool true)) →
    isMapped twofactor (userRow entry) = true → hasSecret twofactor (userRow entry) = true

section

variable {twofactor}

theorem modify_append_of_lt {done rest : List Row} {index : ℕ} (hlt : index < done.length)
    (f : Row → Row) : done.modify index f ++ rest = (done ++ rest).modify index f := by
  apply ext_getElem?
  intro j
  rw [getElem?_modify, getElem?_append, getElem?_append, length_modify,
    getElem?_modify]
  split
  · rfl
  · have hne : index ≠ j := by omega
    simp [hne]

theorem getElem?_flagLoop {done : List Row} {index : ℕ} (hindex : index ≤ done.length)
    (rest : List Row) (j : ℕ) : (flagLoop twofactor done index rest)[j]? =
      ((done ++ rest)[j]?).map fun row =>
        if index ≤ j then
          match (rest.filter lacksFlag)[j - index]? with
          | some user => setFlag twofactor user row
          | none => row
        else row := by
  induction rest generalizing done index with
  | nil => simp [flagLoop]
  | cons user rest ih =>
    have happend : done ++ user :: rest = (done ++ [user]) ++ rest := by simp
    rw [flagLoop, happend]
    cases hlacks : lacksFlag user with
    | false =>
      rw [if_neg Bool.false_ne_true, ih (by simp; omega), filter_cons_of_neg (by simp [hlacks])]
    | true =>
      have hlt : index < (done ++ [user]).length := by
        simp
        omega
      rw [if_pos rfl, ih (by simpa using hlt), modify_append_of_lt hlt,
        getElem?_modify, filter_cons_of_pos hlacks]
      cases hget : ((done ++ [user]) ++ rest)[j]? with
      | none => rfl
      | some row =>
        rcases Nat.lt_trichotomy index j with hj | hj | hj
        · have hsucc : j - index = (j - (index + 1)) + 1 := by omega
          simp [hsucc, Nat.le_of_lt hj, Nat.succ_le_of_lt hj, Nat.ne_of_lt hj]
        · simp [hj]
        · have hsucc : ¬ index + 1 ≤ j := by omega
          simp only [map_some, if_neg (Nat.ne_of_gt hj), if_neg hsucc,
            if_neg (Nat.not_le_of_lt hj), Option.map_eq_map]

/-- The entries without a flag stand before all others. -/
def LackingFirst (users : List Row) : Prop :=
  users.Pairwise fun user other => lacksFlag other = true → lacksFlag user = true

theorem LackingFirst.getElem?_filter {users : List Row} (hfirst : LackingFirst users) (j : ℕ) :
    (users.filter lacksFlag)[j]? = users[j]?.filter lacksFlag := by
  induction users generalizing j with
  | nil => rfl
  | cons user rest ih =>
    obtain ⟨hbefore, hrest⟩ := pairwise_cons.mp hfirst
    cases hlacks : lacksFlag user with
    | true =>
      rw [filter_cons_of_pos hlacks]
      cases j with
      | zero => simp [Option.filter_some, hlacks]
      | succ j => exact ih hrest j
    | false =>
      have hnone : ∀ other ∈ user :: rest, ¬ lacksFlag other = true := by
        intro other hother hlacksOther
        rcases mem_cons.mp hother with rfl | hmem
        · simp [hlacks] at hlacksOther
        · simp [hbefore other hmem hlacksOther] at hlacks
      rw [filter_eq_nil_iff.mpr hnone, getElem?_nil]
      cases hget : (user :: rest)[j]? with
      | none => rfl
      | some other => simp [Option.filter_some, hnone other (mem_of_getElem? hget)]

/-- Each entry without a flag gets its own one when these entries come first. -/
theorem flagLoop_of_lackingFirst {users : List Row} (hfirst : LackingFirst users) :
    flagLoop twofactor [] 0 users =
      users.map fun user => if lacksFlag user then setFlag twofactor user user else user := by
  apply ext_getElem?
  intro j
  rw [getElem?_flagLoop (Nat.le_refl 0), getElem?_map]
  simp only [nil_append, Nat.zero_le, if_true, Nat.sub_zero]
  rw [hfirst.getElem?_filter]
  cases users[j]? with
  | none => rfl
  | some user => cases hlacks : lacksFlag user <;> simp [Option.filter_some, hlacks]

theorem lackingFirst_of_forall {users : List Row} (hlate : ∀ user ∈
      users.drop (users.filter lacksFlag).length, lacksFlag user = false) :
    LackingFirst users := by
  generalize hk : (users.filter lacksFlag).length = k at hlate
  have hsplit := take_append_drop k users
  have hdrop : (users.drop k).filter lacksFlag = [] := by
    rw [filter_eq_nil_iff]
    intro user huser
    simp [hlate user huser]
  have htake : ((users.take k).filter lacksFlag).length = (users.take k).length := by
    apply Nat.le_antisymm (length_filter_le _ _)
    rw [← hsplit, filter_append, hdrop, append_nil] at hk
    rw [hk, length_take]
    exact Nat.min_le_left _ _
  rw [length_filter_eq_length_iff] at htake
  rw [← hsplit, LackingFirst, pairwise_append]
  refine ⟨?_, ?_, ?_⟩
  · exact Pairwise.imp_of_mem (fun huser _ _ _ => htake _ huser)
      (pairwise_of_forall fun _ _ => trivial)
  · exact Pairwise.imp_of_mem (fun _ hother _ hlacks => absurd hlacks (by simp [hlate _ hother]))
      (pairwise_of_forall fun _ _ => trivial)
  · exact fun user huser _ _ _ => htake user huser

theorem mem_flagLoop {users : List Row} {row : Row} (hrow : row ∈ flagLoop twofactor [] 0 users) :
    ∃ user ∈ users, row = user ∨ ∃ other, row = setFlag twofactor other user := by
  obtain ⟨j, hget⟩ := mem_iff_getElem?.mp hrow
  rw [getElem?_flagLoop (Nat.le_refl 0)] at hget
  simp only [nil_append, Nat.zero_le, if_true, map_eq_some_iff] at hget
  obtain ⟨user, huser, heq⟩ := hget
  refine ⟨user, mem_of_getElem? huser, ?_⟩
  split at heq
  · exact Or.inr ⟨_, heq.symm⟩
  · exact Or.inl heq.symm

/-- An entry from which on no flag is left keeps lacking its own. -/
theorem mem_flagLoop_of_drop {users : List Row} {user : Row}
    (huser : user ∈ users.drop (users.filter lacksFlag).length) :
    user ∈ flagLoop twofactor [] 0 users := by
  obtain ⟨i, hget⟩ := mem_iff_getElem?.mp huser
  rw [getElem?_drop] at hget
  refine mem_of_getElem? (i := (users.filter lacksFlag).length + i) ?_
  rw [getElem?_flagLoop (Nat.le_refl 0)]
  simp [hget]

end

section

variable {twofactor} {env} {filters} {rows result : List Row}

theorem lookup_userRow (entry : CacheEntry UserColumns) :
    (userRow entry).lookup "local" = some (.bool false) ∧
      (userRow entry).lookup flagKey =
        if entry.columns.flagged then some (.bool false) else none := by
  have hflag := entry.columns.others_apart flagKey (by simp)
  refine ⟨rfl, ?_⟩
  have htail : (userRow entry).lookup flagKey =
      ((if entry.columns.flagged then [(flagKey, PyValue.bool false)] else []) ++
        entry.columns.others).lookup flagKey := rfl
  rw [htail]
  cases entry.columns.flagged with
  | true => rfl
  | false => exact hflag

theorem lookup_setFlag {user row : Row} {key : String} : (setFlag twofactor user row).lookup key =
    if key = flagKey then some (.bool (isMapped twofactor user)) else row.lookup key :=
  lookup_setItem row flagKey key _

theorem hasSecret_setFlag {user row : Row} :
    hasSecret twofactor (setFlag twofactor user row) = hasSecret twofactor row := by
  unfold hasSecret
  rw [lookup_setFlag, if_neg (by decide)]

theorem hasSecret_imp_isMapped {user : Row} (hsecret : hasSecret twofactor user = true) :
    isMapped twofactor user = true := by
  unfold hasSecret at hsecret
  unfold isMapped
  rw [List.any_eq_true] at hsecret ⊢
  obtain ⟨entry, hentry, hboth⟩ := hsecret
  rw [Bool.and_eq_true] at hboth
  exact ⟨entry, hentry, hboth.1⟩

theorem lacksFlag_userRow (entry : CacheEntry UserColumns) :
    lacksFlag (userRow entry) = !entry.columns.flagged := by
  obtain ⟨hlocal, hflag⟩ := lookup_userRow entry
  rw [lacksFlag, hlocal, hflag]
  cases entry.columns.flagged <;> rfl

theorem mem_doFilters_iff {getter : Option Getter} {recorded : List (String × DateTime)}
    (hgetter : getter = none ∨ getter = some getImpl) (hrows : ∀ row ∈ rows, row ≠ [])
    (hfound : doFilters env.toPyRuntime filters [] false (Dict.ofEntries recorded) getter rows =
      .ok result) {row : Row} : row ∈ result ↔ row ∈ rows ∧
      filters.allM (verdict env.toPyRuntime recorded row (maxFiltersDepth + 1)) = .ok true := by
  induction rows generalizing getter result with
  | nil =>
    cases hfound
    simp
  | cons first rest ih =>
    rw [forall_mem_cons] at hrows
    have hchosen : getter.or (getterFn first) = some getImpl := by
      have hempty : first.isEmpty = false := by simpa using hrows.1
      unfold getterFn
      rcases hgetter with hnone | hsome
      · simp [hnone, hempty]
      · simp [hsome]
    obtain ⟨valid, hvalid, others, hothers, heq⟩ := doFilters_cons_eq_ok_iff.mp hfound
    rw [hchosen] at hvalid hothers
    have hrest := ih (Or.inr rfl) hrows.2 hothers
    subst heq
    rw [mem_cons, or_and_right]
    cases valid with
    | false =>
      rw [if_neg Bool.false_ne_true, hrest, iff_or_self]
      rintro ⟨rfl, hpass⟩
      cases hpass.symm.trans hvalid
    | true =>
      rw [if_pos rfl, mem_cons, hrest]
      apply or_congr_left
      constructor
      · rintro rfl
        exact ⟨rfl, hvalid⟩
      · exact And.left

theorem mem_filterRows_iff (hrows : ∀ row ∈ rows, row ≠ [])
    (hok : filterRows env filters rows = .ok result) {row : Row} :
    row ∈ result ↔ row ∈ rows ∧ Accepted env filters row := by
  have hlist : filterList env.toPyRuntime rows filters {} = .ok (.rows result) := by
    rw [filterRows, filterList_default] at hok
    rw [filterList_default]
    cases hvalid : validateFilters env.toPyRuntime (maxFiltersDepth + 1) filters with
    | error error =>
      rw [hvalid] at hok
      cases hok
    | ok recorded =>
      rw [hvalid, ok_bind] at hok
      rw [ok_bind]
      cases hfound : doFilters env.toPyRuntime filters [] false (Dict.ofEntries recorded) none
        rows with
      | error error =>
        rw [hfound] at hok
        cases hok
      | ok found =>
        rw [hfound] at hok
        cases hok
        rfl
  obtain ⟨recorded, hvalid, hfound⟩ := filterList_default_eq_ok_iff.mp hlist
  rw [mem_doFilters_iff (Or.inl rfl) hrows hfound]
  apply and_congr_right
  intro _
  constructor
  · exact fun hpass => ⟨recorded, hvalid, hpass⟩
  · intro haccepted
    obtain ⟨other, hother, hpass⟩ := haccepted
    rw [hvalid] at hother
    cases hother
    exact hpass

end

/-! ## The entries of the cache -/

section

variable {env cache filters twofactor} {actions : List (DirectoryCache.Action UserColumns)}

theorem startsWith_idKey (xid : ℕ) : (idKey xid).startsWith "ID_" = true := by
  simp [idKey]

theorem startsWith_nameKey (name : String) : (nameKey name).startsWith "ID_" = false := by
  simp [nameKey]

/-- Every entry whose key begins like one for an id is stored under its own id. -/
def Keyed (file : TdbFile UserColumns) : Prop :=
  ∀ key entry, file.get? key = some entry → key.startsWith "ID_" = true →
    key = idKey entry.account.id

theorem Keyed.tdbAddEntry {file : TdbFile UserColumns} (hfile : Keyed file) (name : String)
    (entry : CacheEntry UserColumns) : Keyed (tdbAddEntry file entry.account.id name entry) := by
  intro key other hget hid
  rw [Middlewared.tdbAddEntry, Dict.get?_set, Dict.get?_set] at hget
  split at hget
  case isTrue hname =>
    rw [hname, startsWith_nameKey] at hid
    cases hid
  case isFalse =>
    split at hget
    case isTrue hkey =>
      cases hget
      exact hkey
    case isFalse => exact hfile key other hget hid

theorem keyed_fillFile (entries : List (CacheEntry UserColumns)) : Keyed (fillFile entries) := by
  suffices hfold : ∀ file : TdbFile UserColumns, Keyed file →
      Keyed (entries.foldl (fun handle entry =>
        tdbAddEntry handle entry.account.id entry.account.name entry) file)
    from hfold Dict.empty fun _ _ hget => by simp at hget
  induction entries with
  | nil => exact fun _ hfile => hfile
  | cons entry rest ih => exact fun _ hfile => ih _ (hfile.tdbAddEntry entry.account.name entry)

theorem keyed_of_run (hrun : run DirectoryCache.step .init actions = some cache) :
    Keyed (cache.files .user) := by
  refine run_invariant (p := fun cache => Keyed (cache.files .user)) ?_ ?_ hrun
  · intro cache action next hkeyed hstep
    cases action with
    | fillCache users groups =>
      cases hstep
      exact keyed_fillFile users
    | insert idType entry =>
      cases hstep
      rw [DirectoryCache.files_insert]
      split
      case isTrue hother =>
        subst hother
        exact hkeyed.tdbAddEntry _ entry
      case isFalse => exact hkeyed
  · intro key entry hget
    cases hget

theorem rowId_userRow (entry : CacheEntry UserColumns) :
    rowId (userRow entry) = 100000000 + entry.account.id := rfl

/-- What the cache gives for the filters, in the order of the ids. -/
theorem dsUsers_spec (hkeyed : Keyed (cache.files .user)) {users : List Row}
    (hasked : filtersIncludeDsAccounts filters = true ∧ env.healthy = true)
    (hok : dsUsers env cache filters = .ok users) :
    (∀ row, row ∈ users ↔ ∃ entry, Answers env cache filters entry ∧ row = userRow entry) ∧
      users.Pairwise (fun user other => rowId user ≤ rowId other) ∧
      (users.length ≤ 1 ∨ ∀ row ∈ users, Accepted env filters row) := by
  rw [dsUsers, hasked.1, hasked.2, Bool.true_and, if_pos rfl, cacheQuery] at hok
  obtain ⟨single, hsingle, hrest⟩ := bind_eq_ok_iff.mp hok
  unfold Answers
  rw [hsingle]
  cases single with
  | some principal =>
    cases hrest
    cases hretrieve : retrieve env cache principal with
    | none => simp [hretrieve]
    | some entry => simp [hretrieve]
  | none =>
    obtain ⟨found, hfound, hsorted⟩ := bind_eq_ok_iff.mp hrest
    cases hsorted
    have hne : ∀ row ∈ ((cache.files .user).entries.filter fun entry =>
        entry.1.startsWith "ID_").map fun entry => userRow entry.2, row ≠ [] := by
      intro row hrow
      obtain ⟨entry, _, rfl⟩ := List.mem_map.mp hrow
      exact cons_ne_nil _ _
    have hmem : ∀ row, row ∈ found ↔ ∃ entry : CacheEntry UserColumns,
        ((cache.files .user).get? (idKey entry.account.id) = some entry ∧
          Accepted env filters (userRow entry)) ∧ row = userRow entry := by
      intro row
      rw [mem_filterRows_iff hne hfound]
      constructor
      · rintro ⟨hrow, haccepted⟩
        obtain ⟨⟨key, entry⟩, hentry, rfl⟩ := List.mem_map.mp hrow
        obtain ⟨hentry, hid⟩ := mem_filter.mp hentry
        have hget := Dict.mem_entries_iff.mp hentry
        have hkey := hkeyed key entry hget hid
        rw [hkey] at hget
        exact ⟨entry, ⟨hget, haccepted⟩, rfl⟩
      · rintro ⟨entry, ⟨hget, haccepted⟩, rfl⟩
        refine ⟨List.mem_map.mpr ⟨(idKey entry.account.id, entry), ?_, rfl⟩, haccepted⟩
        exact mem_filter.mpr ⟨Dict.mem_entries_iff.mpr hget, startsWith_idKey _⟩
    refine ⟨fun row => ?_, ?_, Or.inr fun row hrow => ?_⟩
    · rw [mem_mergeSort, hmem]
    · have htrans : ∀ row other third : Row, decide (rowId row ≤ rowId other) = true →
          decide (rowId other ≤ rowId third) = true → decide (rowId row ≤ rowId third) = true := by
        simp only [decide_eq_true_eq]
        intros
        omega
      have htotal : ∀ row other : Row,
          (decide (rowId row ≤ rowId other) || decide (rowId other ≤ rowId row)) = true := by
        simp only [Bool.or_eq_true, decide_eq_true_eq]
        intros
        omega
      exact (pairwise_mergeSort htrans htotal found).imp fun hle => of_decide_eq_true hle
    · rw [mem_mergeSort, hmem] at hrow
      obtain ⟨entry, ⟨_, haccepted⟩, rfl⟩ := hrow
      exact haccepted

end

/-! ## The flags that are returned -/

section

variable {env cache filters twofactor} {actions : List (DirectoryCache.Action UserColumns)}
  {localUsers : LocalUsers} {users result : List Row}

theorem lookup_local_flagLoop (hrows : ∀ user ∈ users, ∃ entry, user = userRow entry) {row : Row}
    (hrow : row ∈ flagLoop twofactor [] 0 users) : row.lookup "local" = some (.bool false) := by
  obtain ⟨user, huser, heq⟩ := mem_flagLoop hrow
  obtain ⟨entry, rfl⟩ := hrows user huser
  rcases heq with rfl | ⟨other, rfl⟩
  · rfl
  · rw [lookup_setFlag, if_neg (by decide)]
    rfl

theorem mem_userQuery_iff (hrows : ∀ user ∈ users, ∃ entry, user = userRow entry)
    (hok : filterRows env filters (localUsers.rows ++ flagLoop twofactor [] 0 users) = .ok result)
    {row : Row} : row ∈ result ↔ (row ∈ localUsers.rows ∨ row ∈ flagLoop twofactor [] 0 users) ∧
      Accepted env filters row := by
  rw [mem_filterRows_iff _ hok, mem_append]
  intro other hother hnil
  rcases mem_append.mp hother with hlocal | hds
  · exact (localUsers.isLocal other hlocal).1 hnil
  · have hlookup := lookup_local_flagLoop hrows hds
    rw [hnil] at hlookup
    cases hlookup

/-- The entries that lack a flag come first when all flags that are returned are right: an entry
behind as many others as there are without a flag never gets one. -/
theorem lackingFirst_of_flagsRight (hrows : ∀ user ∈ users, ∃ entry, user = userRow entry)
    (hthrough : users.length ≤ 1 ∨ ∀ row ∈ users, Accepted env filters row)
    (hok : filterRows env filters (localUsers.rows ++ flagLoop twofactor [] 0 users) = .ok result)
    (hright : FlagsRight twofactor result) : LackingFirst users := by
  apply lackingFirst_of_forall
  intro user huser
  by_contra hlacks
  rw [Bool.not_eq_false] at hlacks
  have hmem := mem_of_mem_drop huser
  rcases hthrough with hlength | hthrough
  · obtain ⟨only, rfl⟩ := length_eq_one_iff.mp
      (Nat.le_antisymm hlength (length_pos_of_mem hmem))
    rw [mem_singleton] at hmem
    subst hmem
    simp [hlacks] at huser
  · have hdone : user ∈ flagLoop twofactor [] 0 users := mem_flagLoop_of_drop huser
    have hflag := hright user ((mem_userQuery_iff hrows hok).mpr ⟨Or.inr hdone, hthrough user hmem⟩)
      (lookup_local_flagLoop hrows hdone)
    rw [lacksFlag, hflag] at hlacks
    simp at hlacks

theorem eq_of_answers {entry other : CacheEntry UserColumns}
    (hentry : Answers env cache filters entry) (hother : Answers env cache filters other)
    (hid : entry.account.id = other.account.id) : entry = other := by
  unfold Answers at hentry hother
  cases hsingle : singleUser env filters with
  | error error =>
    rw [hsingle] at hentry
    exact hentry.elim
  | ok single =>
    rw [hsingle] at hentry hother
    cases single with
    | some principal => exact some.inj (Eq.trans hentry.symm hother)
    | none =>
      have hget := hother.1
      rw [← hid] at hget
      exact some.inj (hentry.1.symm.trans hget)

/-- In the order of the ids, the entries that lack a flag come first when their ids are the
smaller ones, and only then. -/
theorem lackingFirst_iff
    (hmem : ∀ row, row ∈ users ↔ ∃ entry, Answers env cache filters entry ∧ row = userRow entry)
    (hsorted : users.Pairwise fun user other => rowId user ≤ rowId other) :
    LackingFirst users ↔ ∀ entry other, Answers env cache filters entry →
      Answers env cache filters other → entry.columns.flagged = true →
      other.columns.flagged = false → other.account.id < entry.account.id := by
  constructor
  · intro hfirst entry other hentry hother hflagged hlacks
    have hne : entry.account.id ≠ other.account.id := by
      intro hid
      rw [eq_of_answers hentry hother hid, hlacks] at hflagged
      cases hflagged
    have hboth := hsorted.and hfirst
    have heither : ∀ user ∈ users, ∀ late ∈ users,
        (rowId user ≤ rowId late ∧ (lacksFlag late = true → lacksFlag user = true)) ∨
        (rowId late ≤ rowId user ∧ (lacksFlag user = true → lacksFlag late = true)) := by
      have : Std.Symm fun user late : Row =>
          (rowId user ≤ rowId late ∧ (lacksFlag late = true → lacksFlag user = true)) ∨
          (rowId late ≤ rowId user ∧ (lacksFlag user = true → lacksFlag late = true)) :=
        ⟨fun _ _ hor => hor.symm⟩
      apply Pairwise.forall_of_forall
      · exact fun _ _ => Or.inl ⟨le_refl _, id⟩
      · exact hboth.imp Or.inl
    have hentryMem := (hmem (userRow entry)).mpr ⟨entry, hentry, rfl⟩
    have hotherMem := (hmem (userRow other)).mpr ⟨other, hother, rfl⟩
    rcases heither _ hentryMem _ hotherMem with ⟨_, hgives⟩ | ⟨hle, _⟩
    · rw [lacksFlag_userRow, lacksFlag_userRow, hflagged, hlacks] at hgives
      cases hgives rfl
    · rw [rowId_userRow, rowId_userRow] at hle
      omega
  · intro hids
    refine Pairwise.imp_of_mem ?_ hsorted
    intro user other huser hother hle hlacks
    obtain ⟨entry, hentry, rfl⟩ := (hmem user).mp huser
    obtain ⟨late, hlate, rfl⟩ := (hmem other).mp hother
    rw [lacksFlag_userRow, Bool.not_eq_true'] at hlacks ⊢
    cases hflagged : entry.columns.flagged with
    | false => rfl
    | true =>
      have hlt := hids entry late hentry hlate hflagged hlacks
      rw [rowId_userRow, rowId_userRow] at hle
      omega

/-- The flags that are returned are right exactly when those of the cached entries fit. -/
theorem flagsRight_iff (hrun : run DirectoryCache.step .init actions = some cache)
    (hok : userQuery env cache filters twofactor localUsers = .ok result) :
    FlagsRight twofactor result ↔
      (filtersIncludeDsAccounts filters = true ∧ env.healthy = true →
        FlagsFit env cache filters twofactor) := by
  obtain ⟨users, husers, hok⟩ := bind_eq_ok_iff.mp hok
  by_cases hasked : filtersIncludeDsAccounts filters = true ∧ env.healthy = true
  · obtain ⟨hmem, hsorted, hthrough⟩ := dsUsers_spec (keyed_of_run hrun) hasked husers
    have hrows : ∀ user ∈ users, ∃ entry, user = userRow entry := by
      intro user huser
      obtain ⟨entry, _, heq⟩ := (hmem user).mp huser
      exact ⟨entry, heq⟩
    have hresult := @mem_userQuery_iff env filters twofactor localUsers users result hrows hok
    rw [forall_prop_of_true hasked]
    constructor
    · intro hright
      have hfirst := lackingFirst_of_flagsRight hrows hthrough hok hright
      rw [flagLoop_of_lackingFirst hfirst] at hresult
      have hreturned : ∀ entry, Answers env cache filters entry → ∀ row,
          row = (if lacksFlag (userRow entry) then
            setFlag twofactor (userRow entry) (userRow entry) else userRow entry) →
          Accepted env filters row →
          row.lookup flagKey = some (.bool (hasSecret twofactor row)) := by
        intro entry hanswers row heq haccepted
        have huser := (hmem (userRow entry)).mpr ⟨entry, hanswers, rfl⟩
        have hrow : row ∈ flagLoop twofactor [] 0 users := by
          rw [flagLoop_of_lackingFirst hfirst, heq]
          exact List.mem_map_of_mem huser
        refine hright row (hresult.mpr ⟨Or.inr ?_, haccepted⟩) (lookup_local_flagLoop hrows hrow)
        rw [flagLoop_of_lackingFirst hfirst] at hrow
        exact hrow
      refine ⟨(lackingFirst_iff hmem hsorted).mp hfirst, ?_, ?_⟩
      · intro entry hanswers hflagged haccepted
        have hflag := hreturned entry hanswers _ rfl
        rw [lacksFlag_userRow, hflagged] at hflag
        have hlookup := hflag haccepted
        rw [Bool.not_true, if_neg Bool.false_ne_true, (lookup_userRow entry).2, hflagged] at hlookup
        cases hsecret : hasSecret twofactor (userRow entry) with
        | false => rfl
        | true => simp [hsecret] at hlookup
      · intro entry hanswers hflagged haccepted hmapped
        have hflag := hreturned entry hanswers _ rfl
        rw [lacksFlag_userRow, hflagged, Bool.not_false, if_pos rfl, hasSecret_setFlag,
          lookup_setFlag, if_pos rfl, setFlag, hmapped] at hflag
        have hsecret := hflag haccepted
        rw [some.injEq, PyValue.bool.injEq] at hsecret
        exact hsecret.symm
    · intro hfit row hrow hlocal
      have hfirst := (lackingFirst_iff hmem hsorted).mpr hfit.insertedFirst
      rw [flagLoop_of_lackingFirst hfirst] at hresult
      obtain ⟨hfrom, haccepted⟩ := hresult.mp hrow
      rcases hfrom with hmemLocal | hds
      · rw [(localUsers.isLocal row hmemLocal).2] at hlocal
        cases hlocal
      · obtain ⟨user, huser, heq⟩ := List.mem_map.mp hds
        obtain ⟨entry, hanswers, rfl⟩ := (hmem user).mp huser
        rw [lacksFlag_userRow] at heq
        cases hflagged : entry.columns.flagged with
        | true =>
          rw [hflagged, Bool.not_true, if_neg Bool.false_ne_true] at heq
          subst heq
          rw [hfit.filled entry hanswers hflagged haccepted, (lookup_userRow entry).2, hflagged]
          rfl
        | false =>
          rw [hflagged, Bool.not_false, if_pos rfl] at heq
          subst heq
          rw [hasSecret_setFlag, lookup_setFlag, if_pos rfl]
          cases hmapped : isMapped twofactor (userRow entry) with
          | true =>
            rw [setFlag, hmapped] at haccepted
            rw [hfit.inserted entry hanswers hflagged haccepted hmapped]
          | false =>
            cases hsecret : hasSecret twofactor (userRow entry) with
            | false => rfl
            | true =>
              rw [hasSecret_imp_isMapped hsecret] at hmapped
              cases hmapped
  · have hnone : users = [] := by
      rw [dsUsers, if_neg (by simpa using hasked)] at husers
      exact (Except.ok.inj husers).symm
    subst hnone
    simp only [hasked, false_implies, iff_true]
    intro row hrow hlocal
    obtain ⟨hfrom, _⟩ := (mem_userQuery_iff (by simp) hok).mp hrow
    rcases hfrom with hmemLocal | hds
    · rw [(localUsers.isLocal row hmemLocal).2] at hlocal
      cases hlocal
    · cases hds

end

/-! ## Users of Active Directory -/

def aliceEntry : CacheEntry UserColumns where
  account := ⟨1000, "alice"⟩
  sid := some "S-1-5-21-1-2-3-1000"
  roles := []
  columns := ⟨true, [], by simp⟩

def activeDirectory : DirectoryEnv where
  fromisoformat _ := none
  casefold text := text
  reMatch _ _ := .ok false
  reSearchIgnoreCase _ _ := .ok false
  clean _ _ := none
  nss _ := none
  healthy := true

theorem dsUsers_nil (cache : DirectoryCache UserColumns) : dsUsers activeDirectory cache [] =
    .ok ((((cache.files .user).entries.filter fun entry => entry.1.startsWith "ID_").map
      fun entry => userRow entry.2).mergeSort fun row other => rowId row ≤ rowId other) := rfl

theorem dsUsers_aliceEntry : dsUsers activeDirectory (.fillCache [aliceEntry] []) [] =
    .ok [userRow aliceEntry] := by
  have hentries : (fillFile [aliceEntry]).entries =
      [(idKey 1000, aliceEntry), (nameKey "alice", aliceEntry)] := rfl
  rw [dsUsers_nil, DirectoryCache.fillCache, hentries]
  simp [startsWith_idKey, startsWith_nameKey]

theorem userQuery_aliceEntry (twofactor : List TwofactorRow) :
    userQuery activeDirectory (.fillCache [aliceEntry] []) [] twofactor ⟨[], by simp⟩ =
      .ok [userRow aliceEntry] := by
  unfold userQuery
  rw [dsUsers_aliceEntry]
  rfl

def bobEntry : CacheEntry UserColumns where
  account := ⟨2000, "bob"⟩
  sid := some "S-1-5-21-1-2-3-2000"
  roles := []
  columns := ⟨true, [], by simp⟩

def carolEntry : CacheEntry UserColumns where
  account := ⟨1500, "carol"⟩
  sid := some "S-1-5-21-1-2-3-1500"
  roles := []
  columns := ⟨false, [], by simp⟩

def daveEntry : CacheEntry UserColumns where
  account := ⟨1200, "dave"⟩
  sid := some "S-1-5-21-1-2-3-1200"
  roles := []
  columns := ⟨false, [], by simp⟩

/-- A fill with bob, and carol and dave as they are asked for. -/
def filledThenAsked : List (DirectoryCache.Action UserColumns) :=
  [.fillCache [bobEntry] [], .insert .user carolEntry, .insert .user daveEntry]

def daveSecret : List TwofactorRow :=
  [⟨daveEntry.sid, some "ONSWG4TFOQ"⟩, ⟨none, some "OJSWC43PNY"⟩]

theorem filledThenAsked_flagsRight : ∃ cache,
    run DirectoryCache.step .init filledThenAsked = some cache ∧
    ∃ result, userQuery activeDirectory cache [] daveSecret ⟨[], by simp⟩ = .ok result ∧
      result.map (·.lookup flagKey) = [some (.bool true), some (.bool false), some (.bool false)] ∧
      FlagsRight daveSecret result := by
  have hentries : ((((DirectoryCache.fillCache [bobEntry] []).insert .user carolEntry).insert
      .user daveEntry).files .user).entries =
        [(idKey 2000, bobEntry), (nameKey "bob", bobEntry), (idKey 1500, carolEntry),
          (nameKey "1500", carolEntry), (idKey 1200, daveEntry), (nameKey "1200", daveEntry)] := rfl
  have husers : dsUsers activeDirectory (((DirectoryCache.fillCache [bobEntry] []).insert .user
      carolEntry).insert .user daveEntry) [] =
        .ok [userRow daveEntry, userRow carolEntry, userRow bobEntry] := by
    rw [dsUsers_nil, hentries]
    have hbob : rowId (userRow bobEntry) = 100002000 := rfl
    have hcarol : rowId (userRow carolEntry) = 100001500 := rfl
    have hdave : rowId (userRow daveEntry) = 100001200 := rfl
    simp [startsWith_idKey, startsWith_nameKey, mergeSort, hbob, hcarol, hdave]
  have hanswers : ∀ entry, Answers activeDirectory (((DirectoryCache.fillCache [bobEntry] []).insert
      .user carolEntry).insert .user daveEntry) [] entry →
        entry = bobEntry ∨ entry = carolEntry ∨ entry = daveEntry := by
    intro entry hanswer
    have hmem := Dict.mem_entries_iff.mpr hanswer.1
    rw [hentries] at hmem
    have hsecond := List.mem_map_of_mem (f := Prod.snd) hmem
    simpa using hsecond
  have hok : userQuery activeDirectory (((DirectoryCache.fillCache [bobEntry] []).insert .user
      carolEntry).insert .user daveEntry) [] daveSecret ⟨[], by simp⟩ =
        .ok [setFlag daveSecret (userRow daveEntry) (userRow daveEntry),
          setFlag daveSecret (userRow carolEntry) (userRow carolEntry), userRow bobEntry] := by
    unfold userQuery
    rw [husers]
    rfl
  have hfilled : run DirectoryCache.step .init filledThenAsked =
      some (((DirectoryCache.fillCache [bobEntry] []).insert .user carolEntry).insert
        .user daveEntry) := rfl
  refine ⟨_, hfilled, _, hok, rfl, (flagsRight_iff hfilled hok).mpr ?_⟩
  refine fun _ => ⟨?_, ?_, ?_⟩
  · intro entry other hentry hother hflagged hlacks
    rcases hanswers entry hentry with rfl | rfl | rfl
    · rcases hanswers other hother with rfl | rfl | rfl
      · cases hlacks
      · decide
      · decide
    · cases hflagged
    · cases hflagged
  · intro entry hentry hflagged _
    rcases hanswers entry hentry with rfl | rfl | rfl
    · decide
    · cases hflagged
    · cases hflagged
  · intro entry hentry hlacks _ hmapped
    rcases hanswers entry hentry with rfl | rfl | rfl
    · cases hlacks
    · exact absurd hmapped (by decide)
    · decide

/-- The entry of the first fill keeps the flag that the fill has written. -/
theorem aliceEntry_not_flagsRight :
    let twofactor : List TwofactorRow := [⟨aliceEntry.sid, some "ONSWG4TFOQ"⟩]
    ∃ result, userQuery activeDirectory (.fillCache [aliceEntry] []) [] twofactor ⟨[], by simp⟩ =
      .ok result ∧ ¬ FlagsRight twofactor result := by
  intro twofactor
  refine ⟨_, userQuery_aliceEntry twofactor, ?_⟩
  intro hright
  have hflag := hright _ mem_cons_self rfl
  cases hflag

end Middlewared.TwofactorFlags
