import Middlewared.ExceptRules
import Middlewared.InterfaceUpdate

/-!
# The addresses that an update stores

A stored alias row that finds one new address takes it over, and one that finds none is deleted.
-/

namespace Middlewared.NetworkDatabase

open Relational List Option

variable {Settings Columns : Type} {cols : AddressColumns Settings Columns}
variable {db next : NetworkDatabase Columns} {key : ℕ}

/-! ## The calls -/

theorem callOrRaise_eq_ok_iff {call : DatastoreCall Columns} :
    db.callOrRaise call = .ok next ↔ db.call call = some next := by
  unfold callOrRaise
  cases db.call call <;> simp

def setAliasColumns (db : NetworkDatabase Columns) (id : ℕ)
    (columns : Columns) : NetworkDatabase Columns :=
  { db with
    aliases := db.aliases.map fun row =>
      if row.id = id then { row with columns } else row }

def dropAlias (db : NetworkDatabase Columns) (id : ℕ) :
    NetworkDatabase Columns :=
  { db with aliases := db.aliases.filter fun row => !decide (row.id = id) }

@[simp] theorem callOrRaise_updateAlias (id : ℕ) (columns : Columns) :
    db.callOrRaise (.updateAlias (fun row => row.id = id) fun _ => columns) =
      .ok (db.setAliasColumns id columns) := by
  simp [callOrRaise, call, setAliasColumns]

@[simp] theorem callOrRaise_deleteAlias (id : ℕ) :
    db.callOrRaise (.deleteAlias fun row => row.id = id) = .ok (db.dropAlias id) := rfl

theorem aliasesOf_setAliasColumns (id : ℕ) (columns : Columns) :
    (db.setAliasColumns id columns).aliasesOf key = (db.aliasesOf key).map fun row =>
        if row.id = id then { row with columns } else row := by
  unfold setAliasColumns aliasesOf
  rw [List.filter_map]
  congr 1
  apply filter_congr
  intro row _
  by_cases hid : row.id = id <;> simp [hid]

theorem aliasesOf_dropAlias (id : ℕ) : (db.dropAlias id).aliasesOf key =
    (db.aliasesOf key).filter fun row => !decide (row.id = id) := by
  unfold dropAlias aliasesOf
  rw [List.filter_filter, List.filter_filter]
  apply filter_congr
  intro row _
  rw [Bool.and_comm]

theorem ids_setAliasColumns (id : ℕ) (columns : Columns) :
    ((db.setAliasColumns id columns).aliasesOf key).map AliasRow.id =
      (db.aliasesOf key).map AliasRow.id := by
  rw [aliasesOf_setAliasColumns, List.map_map]
  apply map_congr_left
  intro row _
  by_cases hid : row.id = id <;> simp [hid]

variable {done rest : List (AliasRow Columns)} {curr : AliasRow Columns}

theorem id_ne_of_distinct (hids : Distinct AliasRow.id (done ++ curr :: rest)) :
    ∀ row ∈ done ++ rest, row.id ≠ curr.id := by
  unfold Distinct at hids
  rw [map_append, map_cons, nodup_middle, nodup_cons, ← map_append] at hids
  intro row hrow hsame
  exact hids.1 (List.mem_map.mpr ⟨row, hrow, hsame⟩)

theorem aliasesOf_setAliasColumns_of_distinct (hrows : db.aliasesOf key = done ++ curr :: rest)
    (hids : Distinct AliasRow.id (db.aliasesOf key)) (columns : Columns) :
    (db.setAliasColumns curr.id columns).aliasesOf key = done ++ { curr with columns } :: rest := by
  rw [hrows] at hids
  have hothers := id_ne_of_distinct hids
  have hkept : ∀ rows : List (AliasRow Columns), rows ⊆ done ++ rest → (rows.map fun row =>
        if row.id = curr.id then { row with columns } else row) = rows := by
    intro rows hsub
    calc (rows.map fun row =>
          if row.id = curr.id then { row with columns } else row)
        = rows.map id := by
          apply map_congr_left
          intro row hrow
          exact if_neg (hothers row (hsub hrow))
      _ = rows := List.map_id rows
  rw [aliasesOf_setAliasColumns, hrows, map_append, map_cons, hkept done (subset_append_left _ _),
    hkept rest (subset_append_right _ _), if_pos rfl]

theorem aliasesOf_dropAlias_of_distinct (hrows : db.aliasesOf key = done ++ curr :: rest)
    (hids : Distinct AliasRow.id (db.aliasesOf key)) :
    (db.dropAlias curr.id).aliasesOf key = done ++ rest := by
  rw [hrows] at hids
  have hothers := id_ne_of_distinct hids
  have hkept : ∀ rows : List (AliasRow Columns), rows ⊆ done ++ rest →
      (rows.filter fun row => !decide (row.id = curr.id)) = rows := by
    intro rows hsub
    rw [filter_eq_self]
    intro row hrow
    simpa using hothers row (hsub hrow)
  rw [aliasesOf_dropAlias, hrows, filter_append,
    filter_cons_of_neg (by simp), hkept done (subset_append_left _ _),
    hkept rest (subset_append_right _ _)]

def entriesOf (cols : AddressColumns Settings Columns)
    (rows : List (AliasRow Columns)) : List AddressEntry :=
  rows.map fun row => cols.aliasEntry row.columns

@[simp] theorem entriesOf_append (first second : List (AliasRow Columns)) :
    entriesOf cols (first ++ second) = entriesOf cols first ++ entriesOf cols second :=
  map_append

/-! ## One stored row -/

namespace AliasDiff

variable {s t : AliasDiff Columns} {curr : AliasRow Columns}

def found (cols : AddressColumns Settings Columns)
    (newAliases : List AddressEntry) (curr : AliasRow Columns) : ℕ :=
  newAliases.countP fun newAlias =>
    newAlias.address = (cols.aliasEntry curr.columns).address

section

variable {newAliases : List AddressEntry} {newAlias : AddressEntry}
  {curr : AliasRow Columns}

theorem found_append (before later : List AddressEntry) : found cols (before ++ later) curr =
    found cols before curr + found cols later curr :=
  countP_append

theorem found_cons_of_eq (heq : newAlias.address = (cols.aliasEntry curr.columns).address) :
    found cols (newAlias :: newAliases) curr = found cols newAliases curr + 1 :=
  countP_cons_of_pos (by simpa using heq)

theorem found_cons_of_ne (hne : newAlias.address ≠ (cols.aliasEntry curr.columns).address) :
    found cols (newAlias :: newAliases) curr = found cols newAliases curr :=
  countP_cons_of_neg (by simpa using hne)

theorem found_eq_zero_iff : found cols newAliases curr = 0 ↔
    (cols.aliasEntry curr.columns).address ∉ newAliases.map AddressEntry.address := by
  unfold found
  simp

theorem exists_of_found_eq_one (hone : found cols newAliases curr = 1) :
    ∃ before newAlias later, newAliases = before ++ newAlias :: later ∧
      newAlias.address = (cols.aliasEntry curr.columns).address ∧
      found cols before curr = 0 ∧ found cols later curr = 0 := by
  have hpos : 0 < found cols newAliases curr := by omega
  obtain ⟨newAlias, hmem, haddress⟩ := List.countP_pos_iff.mp hpos
  have heq := of_decide_eq_true haddress
  obtain ⟨before, later, rfl⟩ := append_of_mem hmem
  rw [found_append, found_cons_of_eq heq] at hone
  exact ⟨before, newAlias, later, rfl, heq, by omega, by omega⟩

theorem ne_of_found_eq_zero {n : ℕ} (hzero : found cols newAliases curr = 0) :
    ∀ entry ∈ newAliases.zipIdx n, (cols.aliasEntry curr.columns).address ≠ entry.1.address := by
  intro entry hentry heq
  apply found_eq_zero_iff.mp hzero
  rw [heq]
  exact List.mem_map_of_mem (fst_mem_of_mem_zipIdx hentry)

end

theorem visit_of_ne {entry : AddressEntry × ℕ}
    (hne : (cols.aliasEntry curr.columns).address ≠ entry.1.address) :
    s.visit cols curr entry = .ok s :=
  if_neg hne

theorem foldlM_visit_of_forall_ne {entries : List (AddressEntry × ℕ)} (hne : ∀ entry ∈ entries,
      (cols.aliasEntry curr.columns).address ≠ entry.1.address) :
    entries.foldlM (visit cols curr) s = .ok s := by
  induction entries with
  | nil => rfl
  | cons entry rest ih =>
    rw [forall_mem_cons] at hne
    rw [foldlM_cons, visit_of_ne hne.1, ok_bind, ih hne.2]

theorem writeRow_eq_ok (cols : AddressColumns Settings Columns)
    (s : AliasDiff Columns) (curr : AliasRow Columns)
    (newAlias : AddressEntry) :
    (cols.aliasEntry curr.columns = newAlias ∧ s.writeRow cols curr newAlias = .ok s) ∨
      s.writeRow cols curr newAlias = .ok { s with
          database :=
            s.database.setAliasColumns curr.id (cols.ofAlias newAlias) } := by
  unfold writeRow
  by_cases hsame : cols.aliasEntry curr.columns = newAlias
  · left
    exact ⟨hsame, if_neg (not_not.mpr hsame)⟩
  · right
    rw [if_pos hsame, callOrRaise_updateAlias]
    rfl

theorem pop_eq_ok {idx : ℕ} (hpop : s.pop idx = .ok t) : t.database = s.database ∧
    t.newAliases.length + 1 = s.newAliases.length := by
  unfold pop at hpop
  split at hpop
  case isTrue hlt =>
    injection hpop with hpop
    subst hpop
    rw [length_eraseIdx_of_lt hlt]
    exact ⟨rfl, by omega⟩
  case isFalse => cases hpop

theorem visit_of_eq (key : ℕ) {entry : AddressEntry × ℕ}
    (heq : (cols.aliasEntry curr.columns).address = entry.1.address)
    (hvisit : s.visit cols curr entry = .ok t) :
    (t.database.aliasesOf key).map AliasRow.id = (s.database.aliasesOf key).map AliasRow.id ∧
      t.newAliases.length + 1 = s.newAliases.length := by
  unfold visit at hvisit
  rw [if_pos heq] at hvisit
  rcases writeRow_eq_ok cols s curr entry.1 with ⟨_, hwrite⟩ | hwrite
  · rw [hwrite, ok_bind] at hvisit
    obtain ⟨hdatabase, hlength⟩ := pop_eq_ok hvisit
    exact ⟨by rw [hdatabase], hlength⟩
  · rw [hwrite, ok_bind] at hvisit
    obtain ⟨hdatabase, hlength⟩ := pop_eq_ok hvisit
    exact ⟨by rw [hdatabase, ids_setAliasColumns], hlength⟩

theorem foldlM_visit_length (key : ℕ) {copy : List AddressEntry} {n : ℕ}
    (hfold : (copy.zipIdx n).foldlM (visit cols curr) s = .ok t) :
    (t.database.aliasesOf key).map AliasRow.id = (s.database.aliasesOf key).map AliasRow.id ∧
      t.newAliases.length + found cols copy curr = s.newAliases.length := by
  induction copy generalizing s n with
  | nil =>
    cases hfold
    exact ⟨rfl, rfl⟩
  | cons newAlias rest ih =>
    rw [zipIdx_cons, foldlM_cons, bind_eq_ok_iff] at hfold
    obtain ⟨r, hvisit, hrest⟩ := hfold
    obtain ⟨hids, hlength⟩ := ih hrest
    by_cases heq : (cols.aliasEntry curr.columns).address = newAlias.address
    · obtain ⟨hfirst, hone⟩ := visit_of_eq key heq hvisit
      refine ⟨hids.trans hfirst, ?_⟩
      rw [found_cons_of_eq heq.symm]
      omega
    · rw [visit_of_ne heq] at hvisit
      cases hvisit
      rw [found_cons_of_ne (Ne.symm heq)]
      exact ⟨hids, hlength⟩

theorem compareRow_of_found_eq_zero (hzero : found cols s.newAliases curr = 0) :
    s.compareRow cols curr = .ok { s with database := s.database.dropAlias curr.id } := by
  unfold compareRow
  rw [if_pos (found_eq_zero_iff.mp hzero), callOrRaise_deleteAlias]
  rfl

theorem compareRow_of_found_pos (hpos : 0 < found cols s.newAliases curr) : s.compareRow cols curr =
    s.newAliases.zipIdx.foldlM (visit cols curr) s := by
  unfold compareRow
  rw [if_neg (fun hnone => hpos.ne' (found_eq_zero_iff.mpr hnone))]

theorem compareRow_of_found_eq_one (hrows : s.database.aliasesOf key = done ++ curr :: rest)
    (hids : Distinct AliasRow.id (s.database.aliasesOf key))
    (hone : found cols s.newAliases curr = 1) :
    ∃ t row before newAlias later, s.compareRow cols curr = .ok t ∧
      t.database.aliasesOf key = done ++ row :: rest ∧
      row.id = curr.id ∧ cols.aliasEntry row.columns = newAlias ∧
      s.newAliases = before ++ newAlias :: later ∧
      t.newAliases = before ++ later ∧
      newAlias.address = (cols.aliasEntry curr.columns).address := by
  obtain ⟨before, newAlias, later, hsplit, haddress, hbefore, hlater⟩ := exists_of_found_eq_one hone
  have hpop : ∀ database : NetworkDatabase Columns,
      AliasDiff.pop ⟨database, s.newAliases⟩ before.length = .ok ⟨database, before ++ later⟩ := by
    intro database
    unfold pop
    have hlt : before.length < s.newAliases.length := by
      rw [hsplit, length_append, length_cons]
      omega
    rw [if_pos hlt, hsplit, eraseIdx_append_of_length_le le_rfl, Nat.sub_self, eraseIdx_cons_zero]
  have hwrite : ∃ database row, s.writeRow cols curr newAlias = .ok ⟨database, s.newAliases⟩ ∧
        database.aliasesOf key = done ++ row :: rest ∧
        row.id = curr.id ∧ cols.aliasEntry row.columns = newAlias := by
    rcases writeRow_eq_ok cols s curr newAlias with
      ⟨hsame, hwrite⟩ | hwrite
    · exact ⟨s.database, curr, hwrite, hrows, rfl, hsame⟩
    · exact ⟨_, _, hwrite, aliasesOf_setAliasColumns_of_distinct hrows hids _, rfl,
        cols.aliasEntry_ofAlias newAlias⟩
  obtain ⟨database, row, hwritten, hdatabase, hrow, hentry⟩ := hwrite
  refine ⟨⟨database, before ++ later⟩, row, before, newAlias, later, ?_,
    hdatabase, hrow, hentry, hsplit, rfl, haddress⟩
  have hvisit : s.visit cols curr (newAlias, before.length) = .ok ⟨database, before ++ later⟩ := by
    unfold visit
    rw [if_pos haddress.symm, hwritten, ok_bind, hpop]
  rw [compareRow_of_found_pos (by omega), hsplit, zipIdx_append,
    foldlM_append, foldlM_visit_of_forall_ne (ne_of_found_eq_zero hbefore),
    ok_bind, zipIdx_cons, foldlM_cons, Nat.zero_add, hvisit, ok_bind,
    foldlM_visit_of_forall_ne (ne_of_found_eq_zero hlater)]

theorem compareRow_of_found_le_one (hrows : s.database.aliasesOf key = done ++ curr :: rest)
    (hids : Distinct AliasRow.id (s.database.aliasesOf key))
    (hle : found cols s.newAliases curr ≤ 1) :
    ∃ t taken, s.compareRow cols curr = .ok t ∧ t.database.aliasesOf key = taken ++ rest ∧
      Distinct AliasRow.id (t.database.aliasesOf key) ∧
      (entriesOf cols taken ++ t.newAliases).Perm (entriesOf cols done ++ s.newAliases) ∧
      ∀ row, found cols t.newAliases row ≤ found cols s.newAliases row ∧
        (1 < found cols s.newAliases row →
          found cols t.newAliases row = found cols s.newAliases row) := by
  rcases Nat.eq_zero_or_pos (found cols s.newAliases curr) with hzero | hpos
  · have hdropped := aliasesOf_dropAlias_of_distinct hrows hids
    refine ⟨_, done, compareRow_of_found_eq_zero hzero, hdropped, ?_,
      List.Perm.refl _, fun row => ⟨le_rfl, fun _ => rfl⟩⟩
    rw [aliasesOf_dropAlias]
    exact hids.filter _
  · have hone : found cols s.newAliases curr = 1 := by omega
    obtain ⟨t, row, before, newAlias, later, hcompare, htaken, hid, hentry,
      hsplit, hleft, haddress⟩ := compareRow_of_found_eq_one hrows hids hone
    refine ⟨t, done ++ [row], hcompare, by simp [htaken], ?_, ?_, ?_⟩
    · rw [hrows] at hids
      unfold Distinct at *
      rw [htaken]
      simpa [hid] using hids
    · rw [hleft, hsplit, entriesOf_append]
      simp only [entriesOf, map_cons, map_nil, hentry, append_assoc]
      apply List.Perm.append_left
      rw [singleton_append]
      exact List.perm_middle.symm
    · intro other
      have hfewer : found cols t.newAliases other =
          found cols before other + found cols later other := by
        rw [hleft, found_append]
      by_cases heq : newAlias.address = (cols.aliasEntry other.columns).address
      · have hall : found cols s.newAliases other = found cols t.newAliases other + 1 := by
          rw [hsplit, found_append, found_cons_of_eq heq, hfewer]
          omega
        have hsame : found cols s.newAliases other = 1 := by
          rw [← hone]
          unfold found
          rw [← heq, haddress]
        omega
      · have hall : found cols s.newAliases other = found cols t.newAliases other := by
          rw [hsplit, found_append, found_cons_of_ne heq, hfewer]
        omega

theorem compareRow_length {done rest : List ℕ} (hids : (s.database.aliasesOf key).map AliasRow.id =
      done ++ curr.id :: rest)
    (hnodup : (done ++ curr.id :: rest).Nodup)
    (hcompare : s.compareRow cols curr = .ok t) :
    ∃ taken, (t.database.aliasesOf key).map AliasRow.id = taken ++ rest ∧ (taken ++ rest).Nodup ∧
      taken.length + t.newAliases.length + (found cols s.newAliases curr - 1) =
        done.length + s.newAliases.length := by
  rcases Nat.eq_zero_or_pos (found cols s.newAliases curr) with hzero | hpos
  · rw [compareRow_of_found_eq_zero hzero] at hcompare
    injection hcompare with hcompare
    subst hcompare
    have hothers : curr.id ∉ done ++ rest := by
      rw [nodup_middle, nodup_cons] at hnodup
      exact hnodup.1
    refine ⟨done, ?_, ?_, by simp [hzero]⟩
    · calc ((s.database.dropAlias curr.id).aliasesOf key).map AliasRow.id
          = ((s.database.aliasesOf key).map AliasRow.id).filter
              fun id => !decide (id = curr.id) := by
            rw [aliasesOf_dropAlias, List.filter_map]
            rfl
        _ = done ++ rest := by
            rw [hids, filter_append, filter_cons_of_neg (by simp), ← filter_append, filter_eq_self]
            intro id hid
            simpa using ne_of_mem_of_not_mem hid hothers
    · rw [nodup_middle, nodup_cons] at hnodup
      exact hnodup.2
  · rw [compareRow_of_found_pos hpos] at hcompare
    obtain ⟨hsame, hlength⟩ := foldlM_visit_length key hcompare
    refine ⟨done ++ [curr.id], by rw [hsame, hids]; simp, by simpa using hnodup, ?_⟩
    rw [length_append, length_singleton]
    omega

variable {todo : List (AliasRow Columns)}

theorem foldlM_compareRow_length {done : List ℕ}
    (hids : (s.database.aliasesOf key).map AliasRow.id = done ++ todo.map AliasRow.id)
    (hnodup : (done ++ todo.map AliasRow.id).Nodup)
    (hfold : todo.foldlM (compareRow cols) s = .ok t) :
    (t.database.aliasesOf key).length + t.newAliases.length ≤
      done.length + s.newAliases.length := by
  induction todo generalizing s done with
  | nil =>
    cases hfold
    have hlength := congrArg List.length hids
    rw [length_map, map_nil, append_nil] at hlength
    omega
  | cons curr todo ih =>
    rw [foldlM_cons, bind_eq_ok_iff] at hfold
    obtain ⟨r, hcompare, hrest⟩ := hfold
    obtain ⟨taken, htaken, hdistinct, hlength⟩ := compareRow_length hids hnodup hcompare
    have hle := ih htaken hdistinct hrest
    omega

theorem foldlM_compareRow_perm (s : AliasDiff Columns) (done : List (AliasRow Columns))
    (hrows : s.database.aliasesOf key = done ++ todo)
    (hids : Distinct AliasRow.id (s.database.aliasesOf key))
    (hle : ∀ row ∈ todo, found cols s.newAliases row ≤ 1) :
    ∃ t, todo.foldlM (compareRow cols) s = .ok t ∧
      (entriesOf cols (t.database.aliasesOf key) ++ t.newAliases).Perm
        (entriesOf cols done ++ s.newAliases) := by
  induction todo generalizing s done with
  | nil =>
    rw [append_nil] at hrows
    refine ⟨s, rfl, ?_⟩
    rw [hrows]
  | cons curr todo ih =>
    rw [forall_mem_cons] at hle
    obtain ⟨r, taken, hcompare, htaken, hdistinct, hperm, hfewer⟩ :=
      compareRow_of_found_le_one hrows hids hle.1
    have hrest : ∀ row ∈ todo, found cols r.newAliases row ≤ 1 :=
      fun row hrow => (hfewer row).1.trans (hle.2 row hrow)
    obtain ⟨t, hfold, hpermRest⟩ := ih r taken htaken hdistinct hrest
    refine ⟨t, ?_, hpermRest.trans hperm⟩
    rw [foldlM_cons, hcompare, ok_bind, hfold]

theorem foldlM_compareRow_lt (s : AliasDiff Columns) (done : List (AliasRow Columns))
    (hrows : s.database.aliasesOf key = done ++ todo)
    (hids : Distinct AliasRow.id (s.database.aliasesOf key))
    (hlt : ∃ row ∈ todo, 1 < found cols s.newAliases row)
    (hfold : todo.foldlM (compareRow cols) s = .ok t) :
    (t.database.aliasesOf key).length + t.newAliases.length <
      done.length + s.newAliases.length := by
  induction todo generalizing s done with
  | nil => simp at hlt
  | cons curr todo ih =>
    rw [foldlM_cons, bind_eq_ok_iff] at hfold
    obtain ⟨r, hcompare, hrest⟩ := hfold
    by_cases hone : found cols s.newAliases curr ≤ 1
    · obtain ⟨_, taken, hstep, htaken, hdistinct, hperm, hfewer⟩ :=
        compareRow_of_found_le_one hrows hids hone
      rw [hcompare] at hstep
      cases hstep
      have hbad : ∃ row ∈ todo, 1 < found cols r.newAliases row := by
        obtain ⟨row, hrow, hlt⟩ := hlt
        rcases List.mem_cons.mp hrow with rfl | hrow
        · omega
        · exact ⟨row, hrow, by rwa [(hfewer row).2 hlt]⟩
      have hless := ih r taken htaken hdistinct hbad hrest
      have hlength := hperm.length_eq
      simp only [entriesOf, length_append, length_map] at hlength
      omega
    · have hkeys : (s.database.aliasesOf key).map AliasRow.id =
          done.map AliasRow.id ++ curr.id :: todo.map AliasRow.id := by
        rw [hrows, map_append, map_cons]
      have hnodup : (done.map AliasRow.id ++ curr.id :: todo.map AliasRow.id).Nodup := by
        rw [← hkeys]
        exact hids
      obtain ⟨taken, htaken, hdistinct, hlength⟩ := compareRow_length hkeys hnodup hcompare
      have hle := foldlM_compareRow_length htaken hdistinct hrest
      rw [length_map] at hlength
      omega

theorem compareRow_interfaces (hcompare : s.compareRow cols curr = .ok t) :
    t.database.interfaces = s.database.interfaces := by
  have hvisit : ∀ s : AliasDiff Columns, ∀ entry : AddressEntry × ℕ,
      ∀ t : AliasDiff Columns, s.visit cols curr entry = .ok t →
        t.database.interfaces = s.database.interfaces := by
    intro s entry t hvisit
    by_cases heq : (cols.aliasEntry curr.columns).address = entry.1.address
    · unfold visit at hvisit
      rw [if_pos heq] at hvisit
      rcases writeRow_eq_ok cols s curr entry.1 with
        ⟨_, hwrite⟩ | hwrite
      all_goals
        rw [hwrite, ok_bind] at hvisit
        rw [(pop_eq_ok hvisit).1]
        first | done | rfl
    · rw [visit_of_ne heq] at hvisit
      cases hvisit
      rfl
  rcases Nat.eq_zero_or_pos (found cols s.newAliases curr) with hzero | hpos
  · rw [compareRow_of_found_eq_zero hzero] at hcompare
    cases hcompare
    rfl
  · rw [compareRow_of_found_pos hpos] at hcompare
    exact foldlM_keeps hcompare fun s entry _ t => hvisit s entry t

end AliasDiff

theorem insertNewAlias_eq_ok {newAlias : AddressEntry}
    (hinsert : db.insertNewAlias cols key newAlias = .ok next) :
    next.interfaces = db.interfaces ∧ ∃ row, cols.aliasEntry row.columns = newAlias ∧
        next.aliasesOf key = db.aliasesOf key ++ [row] := by
  unfold insertNewAlias at hinsert
  rw [callOrRaise_eq_ok_iff] at hinsert
  obtain ⟨_, rfl⟩ := ite_some_none_eq_some.mp hinsert
  refine ⟨rfl, ⟨nextKey (db.aliases.map AliasRow.id), key,
    cols.ofAlias newAlias⟩, cols.aliasEntry_ofAlias newAlias, ?_⟩
  unfold aliasesOf
  rw [filter_append, filter_cons_of_pos (by simp), filter_nil]

variable {newAliases : List AddressEntry}

theorem foldlM_insertNewAlias (hfold : newAliases.foldlM (insertNewAlias cols key) db = .ok next) :
    next.interfaces = db.interfaces ∧ entriesOf cols (next.aliasesOf key) =
        entriesOf cols (db.aliasesOf key) ++ newAliases := by
  induction newAliases generalizing db with
  | nil =>
    cases hfold
    exact ⟨rfl, (append_nil _).symm⟩
  | cons newAlias rest ih =>
    rw [foldlM_cons, bind_eq_ok_iff] at hfold
    obtain ⟨middle, hinsert, hrest⟩ := hfold
    obtain ⟨hsame, row, hentry, hrow⟩ := insertNewAlias_eq_ok hinsert
    obtain ⟨hinterfaces, hentries⟩ := ih hrest
    refine ⟨hinterfaces.trans hsame, ?_⟩
    rw [hentries, hrow, entriesOf_append, append_assoc]
    simp [entriesOf, hentry]

def FindsOne (cols : AddressColumns Settings Columns)
    (db : NetworkDatabase Columns) (key : ℕ) (newAliases : List AddressEntry) :
    Prop :=
  ∀ row ∈ db.aliasesOf key, AliasDiff.found cols newAliases row ≤ 1

theorem storeAliases_perm_iff (hids : Distinct AliasRow.id (db.aliasesOf key))
    (hstore : db.storeAliases cols key newAliases = .ok next) :
    (entriesOf cols (next.aliasesOf key)).Perm newAliases ↔ db.FindsOne cols key newAliases := by
  unfold storeAliases at hstore
  rw [bind_eq_ok_iff] at hstore
  obtain ⟨diff, hdiff, hinsert⟩ := hstore
  rw [(foldlM_insertNewAlias hinsert).2]
  constructor
  · intro hperm
    by_contra hbad
    unfold FindsOne at hbad
    push Not at hbad
    have hless := AliasDiff.foldlM_compareRow_lt ⟨db, newAliases⟩ []
      (nil_append _).symm hids hbad hdiff
    have hlength := hperm.length_eq
    simp only [entriesOf, length_append, length_map, length_nil] at hlength hless
    omega
  · intro hone
    obtain ⟨other, hother, hperm⟩ := AliasDiff.foldlM_compareRow_perm
      ⟨db, newAliases⟩ [] (nil_append _).symm hids hone
    rw [hdiff] at hother
    cases hother
    exact hperm

theorem storeAliases_interfaces (hstore : db.storeAliases cols key newAliases = .ok next) :
    next.interfaces = db.interfaces := by
  unfold storeAliases at hstore
  rw [bind_eq_ok_iff] at hstore
  obtain ⟨diff, hdiff, hinsert⟩ := hstore
  rw [(foldlM_insertNewAlias hinsert).1]
  exact foldlM_keeps hdiff (g := fun s => s.database.interfaces)
    fun s curr _ t hcompare => AliasDiff.compareRow_interfaces hcompare

theorem updateInterface_eq_ok {filters : InterfaceRow Columns → Bool}
    {name : InterfaceRow Columns → String}
    {columns : InterfaceRow Columns → Columns}
    (hupdate : db.callOrRaise (.updateInterface filters name columns) = .ok next) :
    next.aliases = db.aliases ∧
      next.interfaces = db.interfaces.map (renamed filters name columns) := by
  rw [callOrRaise_eq_ok_iff] at hupdate
  obtain ⟨_, rfl⟩ := ite_some_none_eq_some.mp hupdate
  exact ⟨rfl, rfl⟩

theorem id_renamed {filters : InterfaceRow Columns → Bool} {name : InterfaceRow Columns → String}
    {columns : InterfaceRow Columns → Columns} (row : InterfaceRow Columns) :
    (renamed filters name columns row).id = row.id := by
  unfold renamed
  split <;> rfl

theorem call_of_isLink {call : DatastoreCall Columns}
    (hlink : call.isLink = true) (hcall : db.call call = some next) :
    next.interfaces = db.interfaces ∧ next.aliases = db.aliases := by
  cases call <;> simp only [DatastoreCall.isLink, reduceCtorEq] at hlink <;>
    simp only [NetworkDatabase.call, dropLagg, ite_none_right_eq_some,
      some.injEq] at hcall
  case insertBridge | insertVlan | insertLagg | insertLaggMember =>
    obtain ⟨_, rfl⟩ := hcall
    exact ⟨rfl, rfl⟩
  all_goals
    subst hcall
    exact ⟨rfl, rfl⟩

theorem foldlM_callOrRaise_of_isLink {calls : List (DatastoreCall Columns)}
    (hlink : ∀ call ∈ calls, call.isLink = true)
    (hfold : calls.foldlM callOrRaise db = .ok next) :
    next.interfaces = db.interfaces ∧ next.aliases = db.aliases := by
  induction calls generalizing db with
  | nil =>
    cases hfold
    exact ⟨rfl, rfl⟩
  | cons call rest ih =>
    rw [forall_mem_cons] at hlink
    rw [foldlM_cons, bind_eq_ok_iff] at hfold
    obtain ⟨middle, hcall, hrest⟩ := hfold
    rw [callOrRaise_eq_ok_iff] at hcall
    have hfirst := call_of_isLink hlink.1 hcall
    have hothers := ih hlink.2 hrest
    exact ⟨hothers.1.trans hfirst.1, hothers.2.trans hfirst.2⟩

variable {version : String → Option ℕ}

theorem storeAddresses_iff {new : InterfaceData Settings}
    (hids : Distinct AliasRow.id (db.aliasesOf key))
    (hkey : key ∈ db.interfaces.map InterfaceRow.id)
    (hstore : db.storeAddresses cols version key new = .ok next) :
    ∃ stored, new.convertAliasesToDatastore version = .ok stored ∧
      (StoredExactly cols next key stored ↔ db.FindsOne cols key stored.2) := by
  unfold storeAddresses at hstore
  rw [bind_eq_ok_iff] at hstore
  obtain ⟨stored, hconvert, hstore⟩ := hstore
  rw [bind_eq_ok_iff] at hstore
  obtain ⟨middle, hupdate, hstore⟩ := hstore
  obtain ⟨haliases, hinterfaces⟩ := updateInterface_eq_ok hupdate
  have hsame : middle.aliasesOf key = db.aliasesOf key := by
    unfold aliasesOf
    rw [haliases]
  have hperm : (entriesOf cols (next.aliasesOf key)).Perm stored.2 ↔
      db.FindsOne cols key stored.2 := by
    rw [← hsame] at hids
    rw [storeAliases_perm_iff hids hstore, FindsOne, hsame, FindsOne]
  refine ⟨stored, hconvert, ?_⟩
  rw [← hperm]
  constructor
  · exact StoredExactly.aliases
  · intro hentries
    refine ⟨?_, hentries⟩
    obtain ⟨row, hrow, rfl⟩ := List.mem_map.mp hkey
    have hall := (storeAliases_interfaces hstore).trans hinterfaces
    refine ⟨_, hall ▸ List.mem_map_of_mem hrow, id_renamed row, ?_⟩
    rw [renamed, if_pos (by simp)]
    exact cols.interfaceEntry_setInterface new.settings stored.1 row.columns

theorem eq_of_map_getElem? {α : Type*} {first found : List α} {n : ℕ} (hlength : first.length ≤ n)
    (hall : (List.range n).map (fun i => first[i]?) = found.map some) :
    found = first := by
  have hn : n = found.length := by
    simpa using congrArg List.length hall
  apply ext_getElem?
  intro i
  rcases lt_or_ge i n with hlt | hle
  · have hfound : i < found.length := by omega
    have hi := congrArg (fun l => l[i]?) hall
    simp only [getElem?_map, getElem?_range hlt, map_some,
      getElem?_eq_getElem hfound, some.injEq] at hi
    rw [hi, getElem?_eq_getElem hfound]
  · rw [getElem?_eq_none (hn ▸ hle), getElem?_eq_none (hlength.trans hle)]

theorem address_addressEntry {active : Option InterfaceAlias}
    {failover : Option FailoverAlias × Option FailoverAlias}
    {entry : AddressEntry}
    (hentry : InterfaceData.addressEntry version (active, failover) = .ok entry) :
    some entry.address = active.map InterfaceAlias.address := by
  cases active with
  | none => cases hentry
  | some active =>
    unfold InterfaceData.addressEntry at hentry
    dsimp only at hentry
    cases hversion : version active.address with
    | none =>
      rw [hversion] at hentry
      cases hentry
    | some version =>
      rw [hversion] at hentry
      injection hentry with hentry
      subst hentry
      rfl

theorem addresses_convertAliasesToDatastore {new : InterfaceData Settings}
    {stored : AddressEntry × List AddressEntry}
    (hconvert : new.convertAliasesToDatastore version = .ok stored) :
    stored.2.map AddressEntry.address = new.aliases.tail.map InterfaceAlias.address := by
  unfold InterfaceData.convertAliasesToDatastore at hconvert
  rw [bind_eq_ok_iff] at hconvert
  obtain ⟨entries, hmap, hconvert⟩ := hconvert
  have hkept : entries.map (fun entry => some entry.address) =
      (InterfaceData.zipLongest new.aliases (new.failoverAliases.getD [])
        (new.failoverVirtualAliases.getD [])).map
        fun fields => fields.1.map InterfaceAlias.address :=
    map_mapM_results hmap fun fields entry => address_addressEntry
  have haddresses : entries.map AddressEntry.address = new.aliases.map InterfaceAlias.address := by
    apply eq_of_map_getElem? (n := max (max new.aliases.length (new.failoverAliases.getD []).length)
      (new.failoverVirtualAliases.getD []).length)
    · rw [length_map]
      omega
    · rw [List.map_map]
      refine Eq.trans ?_ hkept.symm
      unfold InterfaceData.zipLongest
      simp
  have htail : stored.2 = entries.tail := by
    cases entries <;> cases hconvert <;> rfl
  rw [htail, map_tail, haddresses, map_tail]

/-- No address of a stored alias row of the interface is requested twice after
the first. -/
def RepeatsNoAddress (cols : AddressColumns Settings Columns)
    (db : NetworkDatabase Columns) (key : ℕ) (aliases : List InterfaceAlias) :
    Prop :=
  ∀ row ∈ db.aliasesOf key, aliases.tail.countP (fun requested =>
    requested.address = (cols.aliasEntry row.columns).address) ≤ 1

theorem findsOne_iff {aliases : List InterfaceAlias}
    (haddresses : newAliases.map AddressEntry.address = aliases.tail.map InterfaceAlias.address) :
    db.FindsOne cols key newAliases ↔ db.RepeatsNoAddress cols key aliases := by
  have hfound : ∀ row, AliasDiff.found cols newAliases row = aliases.tail.countP fun requested =>
        requested.address = (cols.aliasEntry row.columns).address := by
    intro row
    have hcount := congrArg (List.countP fun address =>
      address = (cols.aliasEntry row.columns).address) haddresses
    rw [countP_map, countP_map] at hcount
    exact hcount
  unfold FindsOne RepeatsNoAddress
  simp only [hfound]

/-! ## `interface.update` -/

variable {context : UpdateContext Settings Columns} {oid : String}
  {iface : InterfaceData Settings} {data : InterfaceUpdate Settings}
  {config : InterfaceRow Columns}

theorem rename_eq_ok {name : String} (hrename : db.rename config name = .ok next) :
    next.aliases = db.aliases ∧ next.interfaces.map InterfaceRow.id =
        db.interfaces.map InterfaceRow.id := by
  unfold rename at hrename
  split at hrename
  · obtain ⟨haliases, hinterfaces⟩ := updateInterface_eq_ok hrename
    refine ⟨haliases, ?_⟩
    rw [hinterfaces, List.map_map]
    exact map_congr_left fun row _ => id_renamed row
  · cases hrename
    exact ⟨rfl, rfl⟩

/-- An update of an interface that has a row stores exactly the requested
addresses, when it returns, if and only if no address of a stored alias row is
requested twice after the first. -/
theorem doUpdate_storedExactly_iff (hconsistent : db.Consistent)
    (hconfig : db.interfaceNamed oid = some config)
    (hrun : db.doUpdate cols context oid iface data = .ok next) :
    (∃ stored, (iface.updated data context.licensed).convertAliasesToDatastore
        context.version = .ok stored ∧
        StoredExactly cols next config.id stored) ↔
      db.RepeatsNoAddress cols config.id (data.aliases.getD iface.aliases) := by
  unfold doUpdate at hrun
  rw [bind_eq_ok_iff] at hrun
  obtain ⟨_, _, hrun⟩ := hrun
  rw [bind_eq_ok_iff] at hrun
  obtain ⟨_, _, hrun⟩ := hrun
  rw [hconfig] at hrun
  rw [bind_eq_ok_iff] at hrun
  obtain ⟨named, hrename, hrun⟩ := hrun
  rw [bind_eq_ok_iff] at hrun
  obtain ⟨linked, hlinks, hstore⟩ := hrun
  obtain ⟨hnamed, hids⟩ := rename_eq_ok hrename
  obtain ⟨hlinked, haliases⟩ := foldlM_callOrRaise_of_isLink (context.isLink_of_mem _ _ _) hlinks
  have hsame : linked.aliasesOf config.id = db.aliasesOf config.id := by
    unfold aliasesOf
    rw [haliases, hnamed]
  have hdistinct : Distinct AliasRow.id (linked.aliasesOf config.id) := by
    rw [hsame]
    exact hconsistent.aliasIds.filter _
  have hkey : config.id ∈ linked.interfaces.map InterfaceRow.id := by
    rw [hlinked, hids]
    exact List.mem_map_of_mem (mem_of_find?_eq_some hconfig)
  obtain ⟨stored, hconvert, hiff⟩ := storeAddresses_iff hdistinct hkey hstore
  rw [findsOne_iff (addresses_convertAliasesToDatastore hconvert), RepeatsNoAddress, hsame] at hiff
  constructor
  · rintro ⟨other, hother, hstored⟩
    rw [hconvert] at hother
    cases hother
    exact hiff.mp hstored
  · intro hrepeats
    exact ⟨stored, hconvert, hiff.mpr hrepeats⟩

def exampleTables : NetworkDatabase AddressEntry where
  interfaces := [⟨1, "eno1", ⟨"10.0.0.1", "", some 24, some 4, ""⟩⟩]
  aliases := [⟨1, 1, ⟨"10.0.1.1", "", some 24, some 4, ""⟩⟩]
  bridge := []
  vlan := []
  lagg := []
  laggmembers := []
  ipv4gateway := ""

def exampleColumns : AddressColumns Unit AddressEntry where
  ofAlias := id
  aliasEntry := id
  aliasEntry_ofAlias _ := rfl
  newInterface _ entry := entry
  setInterface _ entry _ := entry
  interfaceEntry := id
  interfaceEntry_setInterface _ _ _ := rfl

def exampleContext : UpdateContext Unit AddressEntry where
  version address := if ':' ∈ address.toList then some 6 else some 4
  licensed := false
  commonErrors _ := []
  linkCalls _ _ _ := []
  isLink_of_mem _ _ _ _ hcall := absurd hcall List.not_mem_nil

def exampleInterface : InterfaceData Unit where
  name := "eno1"
  aliases := [⟨"INET", "10.0.0.1", 24⟩, ⟨"INET", "10.0.1.1", 24⟩]
  failoverAliases := some []
  failoverVirtualAliases := some []
  settings := ()

theorem exampleTables_consistent : exampleTables.Consistent where
  interfaceIds := nodup_singleton _
  interfaceNames := nodup_singleton _
  aliasIds := nodup_singleton _
  aliasInterfaces := by simp [Refer, exampleTables]
  bridgeIds := nodup_nil
  bridgeInterfaces := by simp [Refer, exampleTables]
  vlanIds := nodup_nil
  laggIds := nodup_nil
  laggInterfaces := by simp [Refer, exampleTables]
  laggMemberIds := nodup_nil
  laggMemberPhysnics := nodup_nil
  laggMemberGroups := by simp [Refer, exampleTables]

def remasked : InterfaceUpdate Unit where
  aliases := some [⟨"INET", "10.0.0.1", 24⟩, ⟨"INET", "10.0.1.1", 16⟩, ⟨"INET", "10.0.2.1", 24⟩]

theorem doUpdate_storedExactly_remasked :
    ∃ next, exampleTables.doUpdate exampleColumns exampleContext "eno1"
        exampleInterface remasked = .ok next ∧
      ∃ stored, (exampleInterface.updated remasked
          false).convertAliasesToDatastore exampleContext.version = .ok stored ∧
        StoredExactly exampleColumns next 1 stored := by
  have hruns : (exampleTables.doUpdate exampleColumns exampleContext "eno1"
      exampleInterface remasked).toOption.isSome := by decide
  have hrun := toOption_eq_some_iff.mp (some_get hruns).symm
  have hconfig : exampleTables.interfaceNamed "eno1" =
      some ⟨1, "eno1", ⟨"10.0.0.1", "", some 24, some 4, ""⟩⟩ := rfl
  refine ⟨_, hrun, (doUpdate_storedExactly_iff exampleTables_consistent hconfig hrun).mpr ?_⟩
  unfold RepeatsNoAddress
  decide

def maskedTwice : InterfaceUpdate Unit where
  aliases := some [⟨"INET", "10.0.0.1", 24⟩, ⟨"INET", "10.0.1.1", 24⟩,
    ⟨"INET", "10.0.1.1", 16⟩, ⟨"INET", "10.0.2.1", 24⟩]

def storedTwice : NetworkDatabase AddressEntry :=
  { exampleTables with
    aliases := [⟨1, 1, ⟨"10.0.1.1", "", some 16, some 4, ""⟩⟩,
      ⟨2, 1, ⟨"10.0.1.1", "", some 16, some 4, ""⟩⟩] }

/-- One address with two masks takes another alias out of the list. -/
theorem doUpdate_not_storedExactly : exampleTables.Consistent ∧
    (exampleTables.interfaceNamed "eno1").map InterfaceRow.id = some 1 ∧
    exampleTables.doUpdate exampleColumns exampleContext "eno1"
      exampleInterface maskedTwice = .ok storedTwice ∧
    ¬ ∃ stored, (exampleInterface.updated maskedTwice
        false).convertAliasesToDatastore exampleContext.version = .ok stored ∧
        StoredExactly exampleColumns storedTwice 1 stored := by
  refine ⟨exampleTables_consistent, rfl, by decide, ?_⟩
  rintro ⟨stored, hconvert, hstored⟩
  have hlength := addresses_convertAliasesToDatastore hconvert
  have hperm := hstored.aliases.length_eq
  have htwo : storedTwice.aliasesOf 1 = storedTwice.aliases := rfl
  have hthree := congrArg List.length hlength
  rw [length_map, ← hperm, htwo] at hthree
  exact absurd hthree (by decide)

end Middlewared.NetworkDatabase
