import Middlewared.DatastoreWrite
import Mathlib.Tactic

/-!
# All or nothing

A failed `insert` takes its row back, and the associations with it.
-/

namespace Middlewared

open List

variable {Value : Type*}

namespace Database

variable {db : Database Value} {name : String} {pk : Value}

def addPairs (db : Database Value) (name : String) (pk : Value)
    (values : List Value) : Database Value :=
  { db with
    assoc := Function.update db.assoc name
      (Multiset.ofList (values.map fun value => (pk, value)) + db.assoc name) }

theorem addPairs_nil : db.addPairs name pk [] = db := by
  simp [addPairs]

theorem insertPair_addPairs (value : Value) (rest : List Value) :
    (db.insertPair name pk value).addPairs name pk rest = db.addPairs name pk (value :: rest) := by
  simp [insertPair, addPairs, ← Multiset.cons_coe]

theorem mem_insertPair_iff {value other : Value} :
    (pk, other) ∈ (db.insertPair name pk value).assoc name ↔
      other = value ∨ (pk, other) ∈ db.assoc name := by
  simp [insertPair]

theorem eq_of_assoc {other : Database Value} (hrows : other.rows = db.rows)
    (hassoc : ∀ name, other.assoc name = db.assoc name)
    (hremote : other.remote = db.remote) : other = db := by
  obtain ⟨rows, assoc, remote⟩ := db
  obtain ⟨rows', assoc', remote'⟩ := other
  simp only at hrows hremote
  obtain rfl : assoc' = assoc := funext hassoc
  rw [hrows, hremote]

variable [DecidableEq Value]

def PairsAre (db : Database Value) (name : String) (pk : Value)
    (values : List Value) : Prop :=
  (db.assoc name).filter (fun pair => pair.1 = pk) =
    Multiset.ofList (values.map fun value => (pk, value))

def setPairs (db : Database Value) (name : String) (pk : Value)
    (values : List Value) : Database Value :=
  (db.deletePairs name pk).addPairs name pk values

theorem setPairs_assoc (db : Database Value) (name : String) (pk : Value) (values : List Value) :
    (db.setPairs name pk values).assoc name =
      Multiset.ofList (values.map fun value => (pk, value)) +
        (db.assoc name).filter fun pair => pair.1 ≠ pk := by
  simp [setPairs, addPairs, deletePairs]

theorem setPairs_remote (db : Database Value) (name : String) (pk : Value) (values : List Value) :
    (db.setPairs name pk values).remote = db.remote := rfl

theorem setPairs_assoc_of_ne {other : String} (hne : other ≠ name) (values : List Value) :
    (db.setPairs name pk values).assoc other = db.assoc other := by
  simp [setPairs, addPairs, deletePairs, hne]

theorem assoc_eq_add (db : Database Value) (name : String) (pk : Value) :
    db.assoc name = (db.assoc name).filter (fun pair => pair.1 = pk) +
      (db.assoc name).filter fun pair => pair.1 ≠ pk :=
  (Multiset.filter_add_not _ _).symm

theorem setPairs_eq_self_iff (values : List Value) :
    db.setPairs name pk values = db ↔ db.PairsAre name pk values := by
  have hsplit := assoc_eq_add db name pk
  have hread := setPairs_assoc db name pk values
  unfold PairsAre
  constructor
  · intro hsame
    rw [hsame, hsplit] at hread
    simpa using hread
  · intro hpairs
    apply eq_of_assoc
    · rfl
    · intro other
      by_cases hother : other = name
      · rw [hother, hread, ← hpairs]
        exact hsplit.symm
      · exact setPairs_assoc_of_ne hother values
    · rfl

theorem filter_setPairs (other : String) (values : List Value) :
    ((db.setPairs name pk values).assoc other).filter (fun pair => pair.1 ≠ pk) =
      (db.assoc other).filter fun pair => pair.1 ≠ pk := by
  by_cases hother : other = name
  · rw [hother, setPairs_assoc]
    simp
  · rw [setPairs_assoc_of_ne hother]

end Database

namespace Sqlite

variable [DecidableEq Value] {env : Sqlite Value} {table : Table Value}
  {db : Database Value} {relationship : Relationship} {pk : Value}

/-- The values ahead of the first one that is refused; `there` tells whether the
key has a row, and `seen` are the values written before. -/
def acceptedValues (env : Sqlite Value) (db : Database Value)
    (relationship : Relationship) (pk : Value) (there : Bool) :
    List Value → List Value → List Value
  | _, [] => []
  | seen, value :: rest =>
    if there && db.remote relationship.table value &&
        !env.refusesPair relationship.table pk value &&
        !(relationship.unique && value ∈ seen) then
      value :: acceptedValues env db relationship pk there (value :: seen) rest
    else []

theorem insertPairs_eq (env : Sqlite Value) (db current : Database Value)
    (values : List Value) {there : Bool} {seen : List Value}
    (hthere : current.hasRow table pk = there)
    (hremote : current.remote = db.remote)
    (hseen : ∀ value, (pk, value) ∈ current.assoc relationship.table ↔ value ∈ seen) :
    env.insertPairs table current relationship pk values = (current.addPairs relationship.table pk
          (acceptedValues env db relationship pk there seen values),
        if acceptedValues env db relationship pk there seen values = values then
          none else some .integrityError) := by
  induction values generalizing current seen with
  | nil => simp [insertPairs, acceptedValues, Database.addPairs_nil]
  | cons value rest ih =>
    have hdecide : decide ((pk, value) ∈ current.assoc relationship.table) =
        decide (value ∈ seen) := by
      rw [decide_eq_decide]
      exact hseen value
    unfold insertPairs acceptedValues acceptsPair
    rw [hthere, hremote, hdecide]
    by_cases haccepts : (there && db.remote relationship.table value &&
        !env.refusesPair relationship.table pk value &&
        !(relationship.unique && decide (value ∈ seen))) = true
    · have hnext : ∀ other, (pk, other) ∈ (current.insertPair relationship.table pk value).assoc
            relationship.table ↔ other ∈ value :: seen := by
        intro other
        rw [Database.mem_insertPair_iff, hseen, mem_cons]
      rw [if_pos haccepts, if_pos haccepts,
        ih (current.insertPair relationship.table pk value) hthere hremote hnext,
        Database.insertPair_addPairs]
      simp
    · rw [if_neg haccepts, if_neg haccepts, Database.addPairs_nil]
      simp

/-- What `_handle_relationships` writes of one relationship. -/
def writtenValues (env : Sqlite Value) (db : Database Value) (pk : Value)
    (there : Bool) (entry : Relationship × Value) : List Value :=
  match env.iterate entry.2 with
  | none => []
  | some values => acceptedValues env db entry.1 pk there [] values

def Complete (env : Sqlite Value) (db : Database Value) (pk : Value)
    (there : Bool) (entry : Relationship × Value) : Prop :=
  env.iterate entry.2 = some (env.writtenValues db pk there entry)

theorem handleRelationships_cons (env : Sqlite Value) {there : Bool}
    (hthere : db.hasRow table pk = there) (entry : Relationship × Value)
    (rest : List (Relationship × Value)) :
    (env.Complete db pk there entry ∧ env.handleRelationships table db pk (entry :: rest) =
          env.handleRelationships table
            (db.setPairs entry.1.table pk (env.writtenValues db pk there entry))
            pk rest) ∨
      (¬ env.Complete db pk there entry ∧
        ∃ error, env.handleRelationships table db pk (entry :: rest) =
          (db.setPairs entry.1.table pk (env.writtenValues db pk there entry), some error)) := by
  obtain ⟨relationship, value⟩ := entry
  unfold Complete writtenValues
  cases hiterate : env.iterate value with
  | none =>
    simp [handleRelationships, hiterate, Database.setPairs, Database.addPairs_nil]
  | some values =>
    have hempty : ∀ other, (pk, other) ∈
        (db.deletePairs relationship.table pk).assoc relationship.table ↔ other ∈ [] := by
      simp [Database.deletePairs]
    have hinsert := insertPairs_eq env db
      (db.deletePairs relationship.table pk) values hthere rfl hempty
    by_cases hcomplete : acceptedValues env db relationship pk there [] values = values
    · left
      simp only [hcomplete, true_and]
      simp only [handleRelationships, hiterate]
      rw [hinsert, if_pos hcomplete, hcomplete]
      rfl
    · right
      refine ⟨?_, .integrityError, ?_⟩
      · rw [Option.some.injEq]
        exact fun hsame => hcomplete hsame.symm
      · simp only [handleRelationships, hiterate]
        rw [hinsert, if_neg hcomplete]
        rfl

/-! ## All relationships -/

section

variable {there : Bool} {relationships : List (Relationship × Value)}

def tablesOf (relationships : List (Relationship × Value)) : List String :=
  relationships.map fun entry => entry.1.table

def AsBefore (env : Sqlite Value) (db : Database Value) (pk : Value)
    (there : Bool) : List (Relationship × Value) → Prop
  | [] => True
  | entry :: rest =>
    db.PairsAre entry.1.table pk (env.writtenValues db pk there entry) ∧
      (env.Complete db pk there entry → AsBefore env db pk there rest)

variable {other : Database Value}

variable (hremote : other.remote = db.remote)

include hremote

theorem acceptedValues_congr (seen values : List Value) :
    acceptedValues env other relationship pk there seen values =
      acceptedValues env db relationship pk there seen values := by
  induction values generalizing seen with
  | nil => rfl
  | cons value rest ih => simp only [acceptedValues, hremote, ih]

theorem writtenValues_congr (entry : Relationship × Value) :
    env.writtenValues other pk there entry = env.writtenValues db pk there entry := by
  unfold writtenValues
  split
  · rfl
  · exact acceptedValues_congr hremote _ _

theorem complete_congr (entry : Relationship × Value) :
    env.Complete other pk there entry ↔ env.Complete db pk there entry := by
  unfold Complete
  rw [writtenValues_congr hremote]

theorem asBefore_congr
    (hassoc : ∀ name ∈ tablesOf relationships, other.assoc name = db.assoc name) :
    env.AsBefore other pk there relationships ↔ env.AsBefore db pk there relationships := by
  induction relationships with
  | nil => rfl
  | cons entry rest ih =>
    unfold AsBefore
    rw [complete_congr hremote, writtenValues_congr hremote,
      ih fun name hname => hassoc name (mem_cons_of_mem _ hname)]
    unfold Database.PairsAre
    rw [hassoc entry.1.table mem_cons_self]

omit hremote

structure SameBut (db other : Database Value) (pk : Value)
    (names : List String) : Prop where
  rows : other.rows = db.rows
  remote : other.remote = db.remote
  assoc : ∀ name, name ∉ names → other.assoc name = db.assoc name
  others : ∀ name, (other.assoc name).filter (fun pair => pair.1 ≠ pk) =
    (db.assoc name).filter fun pair => pair.1 ≠ pk

theorem sameBut_setPairs (db : Database Value) (name : String) (pk : Value)
    (values : List Value) {names : List String} (hname : name ∈ names) :
    SameBut db (db.setPairs name pk values) pk names where
  rows := rfl
  remote := rfl
  assoc := by
    intro other hother
    apply Database.setPairs_assoc_of_ne
    intro heq
    rw [heq] at hother
    exact hother hname
  others := fun other => Database.filter_setPairs other values

theorem SameBut.trans {last : Database Value} {name : String}
    {names : List String} (hfirst : SameBut db other pk (name :: names))
    (hrest : SameBut other last pk names) :
    SameBut db last pk (name :: names) where
  rows := hrest.rows.trans hfirst.rows
  remote := hrest.remote.trans hfirst.remote
  assoc := fun known hknown =>
    (hrest.assoc known fun h => hknown (mem_cons_of_mem _ h)).trans (hfirst.assoc known hknown)
  others := fun known => (hrest.others known).trans (hfirst.others known)

theorem sameBut_handleRelationships (env : Sqlite Value) (hthere : db.hasRow table pk = there) :
    SameBut db (env.handleRelationships table db pk relationships).1 pk
      (tablesOf relationships) := by
  induction relationships generalizing db with
  | nil => exact ⟨rfl, rfl, fun _ _ => rfl, fun _ => rfl⟩
  | cons entry rest ih =>
    have hset : SameBut db (db.setPairs entry.1.table pk
        (env.writtenValues db pk there entry)) pk (tablesOf (entry :: rest)) :=
      sameBut_setPairs db entry.1.table pk _ mem_cons_self
    rcases handleRelationships_cons env hthere entry rest with
      ⟨_, hnext⟩ | ⟨_, error, hnext⟩
    · rw [hnext]
      exact hset.trans (ih hthere)
    · rw [hnext]
      exact hset

theorem handleRelationships_eq_none_iff (env : Sqlite Value)
    (relationships : List (Relationship × Value))
    (hthere : db.hasRow table pk = there) :
    (env.handleRelationships table db pk relationships).2 = none ↔
      ∀ entry ∈ relationships, env.Complete db pk there entry := by
  induction relationships generalizing db with
  | nil => simp [handleRelationships]
  | cons entry rest ih =>
    rw [forall_mem_cons]
    rcases handleRelationships_cons env hthere entry rest with
      ⟨hcomplete, hnext⟩ | ⟨hcomplete, error, hnext⟩
    · have hremote := Database.setPairs_remote db entry.1.table pk
        (env.writtenValues db pk there entry)
      have hthere' : (db.setPairs entry.1.table pk
          (env.writtenValues db pk there entry)).hasRow table pk = there := hthere
      rw [hnext, ih hthere']
      constructor
      · intro hrest
        refine ⟨hcomplete, ?_⟩
        intro other hother
        exact (complete_congr hremote other).mp (hrest other hother)
      · intro hall other hother
        exact (complete_congr hremote other).mpr (hall.2 other hother)
    · rw [hnext]
      constructor
      · intro hnone
        cases hnone
      · intro hall
        exact absurd hall.1 hcomplete

theorem handleRelationships_eq_self_iff (env : Sqlite Value) (hthere : db.hasRow table pk = there)
    (hnodup : (tablesOf relationships).Nodup) :
    (env.handleRelationships table db pk relationships).1 = db ↔
      env.AsBefore db pk there relationships := by
  induction relationships generalizing db with
  | nil => simp [handleRelationships, AsBefore]
  | cons entry rest ih =>
    obtain ⟨hnot, hnodup⟩ := List.nodup_cons.mp hnodup
    unfold AsBefore
    rw [← Database.setPairs_eq_self_iff]
    have hkept : env.AsBefore (db.setPairs entry.1.table pk (env.writtenValues db pk there entry))
        pk there rest ↔ env.AsBefore db pk there rest := by
      apply asBefore_congr (Database.setPairs_remote _ _ _ _)
      intro name hname
      apply Database.setPairs_assoc_of_ne
      intro heq
      rw [heq] at hname
      exact hnot hname
    rcases handleRelationships_cons env hthere entry rest with
      ⟨hcomplete, hnext⟩ | ⟨hcomplete, error, hnext⟩
    · have hthere' : (db.setPairs entry.1.table pk
          (env.writtenValues db pk there entry)).hasRow table pk = there := hthere
      have hlater := ih hthere' hnodup
      rw [hkept] at hlater
      rw [hnext]
      constructor
      · intro hsame
        -- the table of the first relationship is not written again
        have hframe := (sameBut_handleRelationships env hthere').assoc entry.1.table hnot
        have hfirst : db.setPairs entry.1.table pk (env.writtenValues db pk there entry) = db := by
          apply Database.eq_of_assoc
          · rfl
          · intro name
            by_cases hname : name = entry.1.table
            · rw [hname, ← hframe, hsame]
            · exact Database.setPairs_assoc_of_ne hname _
          · rfl
        refine ⟨hfirst, fun _ => hlater.mp ?_⟩
        rw [hsame, hfirst]
      · rintro ⟨hfirst, hrest⟩
        rw [hlater.mpr (hrest hcomplete), hfirst]
    · rw [hnext]
      simp [hcomplete]

end

end Sqlite

section

variable {table : Table Value} {fieldPrefix : String}

theorem extractLoop_found {entries : List (String × Value)}
    {values values' : Dict String Value} {found found' : List (Relationship × Value)}
    (hloop : table.extractLoop fieldPrefix entries values found = .ok (values', found')) :
    ∃ more, found' = found ++ more ∧ (more.map fun entry => entry.1.name).Sublist
        (entries.map fun entry => fieldPrefix ++ entry.1) ∧
      ∀ entry ∈ more, entry.1 ∈ table.relationships := by
  induction entries generalizing values found with
  | nil =>
    simp only [Table.extractLoop, Except.ok.injEq, Prod.mk.injEq] at hloop
    exact ⟨[], by simp [hloop.2], by simp, by simp⟩
  | cons entry rest ih =>
    obtain ⟨key, value⟩ := entry
    simp only [Table.extractLoop] at hloop
    split at hloop
    · rename_i relationship hfind
      obtain ⟨more, hmore, hnames, hmem⟩ := ih hloop
      have hname : relationship.name = fieldPrefix ++ key := by
        simpa using find?_some hfind
      refine ⟨(relationship, value) :: more, ?_, ?_, ?_⟩
      · rw [hmore, append_assoc]
        rfl
      · simp only [map_cons, hname]
        exact hnames.cons_cons _
      · intro entry hentry
        rcases List.mem_cons.mp hentry with hfirst | hrest
        · rw [hfirst]
          exact mem_of_find?_eq_some hfind
        · exact hmem entry hrest
    · split at hloop
      · cases hloop
      · obtain ⟨more, hmore, hnames, hmem⟩ := ih hloop
        exact ⟨more, hmore, hnames.cons _, hmem⟩

theorem extractRelationships_nodup {data values : Dict String Value}
    {relationships : List (Relationship × Value)}
    (hextract : table.extractRelationships fieldPrefix data = .ok (values, relationships)) :
    (Sqlite.tablesOf relationships).Nodup := by
  obtain ⟨more, hmore, hnames, hmem⟩ := extractLoop_found hextract
  rw [hmore]
  have hkeys : (data.entries.map fun entry => fieldPrefix ++ entry.1).Nodup := by
    have hinjective : Function.Injective fun key : String => fieldPrefix ++ key := by
      intro first second hsame
      simpa using hsame
    have hnodup := data.nodup_keys.map hinjective
    unfold Dict.keys at hnodup
    rwa [map_map] at hnodup
  have hfirst : (more.map Prod.fst).Nodup := by
    have hnodup := hkeys.sublist hnames
    apply List.Nodup.of_map Relationship.name
    rwa [map_map]
  have htables : ((more.map Prod.fst).map Relationship.table).Nodup := by
    apply List.Nodup.map_on _ hfirst
    intro first hfirst second hsecond hsame
    obtain ⟨entry, hentry, hread⟩ := mem_map.mp hfirst
    obtain ⟨other, hother, hreadOther⟩ := mem_map.mp hsecond
    exact inj_on_of_nodup_map table.relationships_nodup
      (hread ▸ hmem entry hentry) (hreadOther ▸ hmem other hother) hsame
  rwa [map_map] at htables

end

/-! ## Consistent databases -/

section

variable [DecidableEq Value] {table : Table Value} {db : Database Value}
  {pk : Value}

/-- The keys that SQLite enforces: the primary key of the rows, and the foreign
keys of the associations. -/
structure Database.Consistent (table : Table Value) (db : Database Value) :
    Prop where
  primary_key : ∀ pk, Multiset.countP (fun row => row table.pk = pk) db.rows ≤ 1
  foreign_key : ∀ name pair, pair ∈ db.assoc name → db.hasRow table pair.1 = true

def Sqlite.EnforcesKey (env : Sqlite Value) (table : Table Value) : Prop :=
  ∀ db row, env.refusesInsert db row = false → db.hasRow table (row table.pk) = false

def Database.RowHas (db : Database Value) (table : Table Value) (pk : Value)
    (values : Dict String Value) : Prop :=
  ∀ row ∈ db.rows, row table.pk = pk → ∀ column value,
    values.get? column = some value → row column = value

theorem hasRow_iff : db.hasRow table pk = true ↔ ∃ row ∈ db.rows, row table.pk = pk := by
  simp [Database.hasRow, Multiset.countP_pos]

theorem hasRow_eq_false_iff : db.hasRow table pk = false ↔ ∀ row ∈ db.rows, row table.pk ≠ pk := by
  simp [Database.hasRow, Multiset.countP_eq_zero]

variable {values : Dict String Value}

theorem updateRow_eq_self (hhas : db.RowHas table pk values) :
    db.updateRow table pk values = db := by
  have hrows : (db.updateRow table pk values).rows = db.rows := by
    apply (Multiset.map_congr rfl ?_).trans (Multiset.map_id db.rows)
    intro row hrow
    split_ifs with hpk
    · funext column
      cases hget : values.get? column with
      | none => rfl
      | some value => exact (hhas row hrow hpk column value hget).symm
    · rfl
  exact Database.eq_of_assoc hrows (fun _ => rfl) rfl

theorem rowHas_of_updateRow_rows (hdb : db.Consistent table)
    (hsame : (db.updateRow table pk values).rows = db.rows) :
    db.RowHas table pk values := by
  intro row hrow hpk column value hget
  obtain ⟨others, hothers⟩ := Multiset.exists_cons_of_mem hrow
  have hrest : ∀ other ∈ others, other table.pk ≠ pk := by
    have hone := hdb.primary_key pk
    rw [hothers, Multiset.countP_cons, if_pos hpk] at hone
    have hzero : Multiset.countP (fun row => row table.pk = pk) others = 0 := by
      omega
    exact Multiset.countP_eq_zero.mp hzero
  unfold Database.updateRow at hsame
  simp only [hothers, Multiset.map_cons, if_pos hpk] at hsame
  have hkept : others.map (fun row =>
      if row table.pk = pk then
        fun column => (values.get? column).getD (row column)
      else row) = others := by
    apply (Multiset.map_congr rfl ?_).trans (Multiset.map_id others)
    intro other hother
    exact if_neg (hrest other hother)
  rw [hkept, Multiset.cons_inj_left] at hsame
  have hread := congrFun hsame column
  rw [hget] at hread
  exact hread.symm

theorem updateRow_hasRow (values : Dict String Value) :
    (db.updateRow table pk values).hasRow table pk =
      (db.hasRow table pk && decide ((values.get? table.pk).getD pk = pk)) := by
  rw [Bool.eq_iff_iff, Bool.and_eq_true, decide_eq_true_eq, hasRow_iff, hasRow_iff]
  constructor
  · rintro ⟨row, hrow, hpk⟩
    obtain ⟨old, hold, hread⟩ := Multiset.mem_map.mp hrow
    split_ifs at hread with holdPk
    · rw [← hread] at hpk
      simp only [holdPk] at hpk
      exact ⟨⟨old, hold, holdPk⟩, hpk⟩
    · rw [hread] at holdPk
      exact absurd hpk holdPk
  · rintro ⟨⟨row, hrow, hpk⟩, hkey⟩
    refine ⟨_, Multiset.mem_map_of_mem _ hrow, ?_⟩
    rw [if_pos hpk, hpk]
    exact hkey

theorem updateRow_eq_self_of_countP (hdb : db.Consistent table)
    (hcount : Multiset.countP (fun row => row table.pk = pk) db.rows ≠ 1) :
    db.updateRow table pk values = db := by
  have hzero : Multiset.countP (fun row => row table.pk = pk) db.rows = 0 := by
    have hone := hdb.primary_key pk
    omega
  apply updateRow_eq_self
  intro row hrow hpk
  exact absurd hpk (Multiset.countP_eq_zero.mp hzero row hrow)

end

namespace Sqlite

section

variable {db after : Database Value}

def AllOrNothing (db : Database Value)
    (outcome : Database Value × Except WriteError Value) : Prop :=
  ∀ error, outcome.2 = .error error → outcome.1 = db

theorem allOrNothing_error {error : WriteError} :
    AllOrNothing db (after, .error error) ↔ after = db := by
  constructor
  · intro hall
    exact hall error rfl
  · intro hsame _ _
    exact hsame

theorem allOrNothing_ok {value : Value} : AllOrNothing db (after, .ok value) := by
  intro error herror
  cases herror

end

variable [DecidableEq Value] {env : Sqlite Value} {table : Table Value}
  {db : Database Value}

section

variable {row : Record Value}

theorem insertRow_hasRow (table : Table Value) (db : Database Value) (row : Record Value) :
    (db.insertRow row).hasRow table (row table.pk) = true :=
  hasRow_iff.mpr ⟨row, Multiset.mem_cons_self row db.rows, rfl⟩

theorem deleteRow_handleRelationships (env : Sqlite Value)
    (relationships : List (Relationship × Value)) (hdb : db.Consistent table)
    (hfresh : db.hasRow table (row table.pk) = false) :
    (env.handleRelationships table (db.insertRow row) (row table.pk)
      relationships).1.deleteRow table (row table.pk) = db := by
  have hframe : SameBut (db.insertRow row) _ (row table.pk) (tablesOf relationships) :=
    sameBut_handleRelationships env (insertRow_hasRow table db row)
  rw [hasRow_eq_false_iff] at hfresh
  apply Database.eq_of_assoc
  · unfold Database.deleteRow
    rw [hframe.rows]
    simp only [Database.insertRow]
    rw [Multiset.filter_cons_of_neg _ (by simp), Multiset.filter_eq_self]
    exact hfresh
  · intro name
    unfold Database.deleteRow
    simp only
    rw [hframe.others]
    simp only [Database.insertRow]
    rw [Multiset.filter_eq_self]
    intro pair hpair hpk
    obtain ⟨other, hother, hread⟩ := hasRow_iff.mp (hdb.foreign_key name pair hpair)
    exact hfresh other hother (hread.trans hpk)
  · exact hframe.remote

def InsertMeets (env : Sqlite Value) (table : Table Value)
    (db : Database Value) (data : Dict String Value) (options : WriteOptions)
    (eventsRaise : Bool) : Prop :=
  match table.extractRelationships options.fieldPrefix data with
  | .error _ => True
  | .ok (values, relationships) =>
    let row := env.newRow table db (table.setDefaults env values)
    env.refusesInsert db row = true ∨
      (∃ entry ∈ relationships, ¬ env.Complete db (row table.pk) true entry) ∨
      (options.sendEvents && eventsRaise) = false

theorem insert_allOrNothing_iff {data : Dict String Value}
    {options : WriteOptions} {eventsRaise : Bool}
    (hkey : env.EnforcesKey table) (hdb : db.Consistent table) :
    AllOrNothing db (env.insert table db data options eventsRaise) ↔
      env.InsertMeets table db data options eventsRaise := by
  unfold insert InsertMeets
  cases table.extractRelationships options.fieldPrefix data with
  | error error => simp [allOrNothing_error]
  | ok extracted =>
    obtain ⟨values, relationships⟩ := extracted
    simp only
    generalize env.newRow table db (table.setDefaults env values) = row
    cases hrefuses : env.refusesInsert db row with
    | true => simp [allOrNothing_error]
    | false =>
      have hcomplete : (env.handleRelationships table (db.insertRow row)
          (row table.pk) relationships).2 = none ↔
          ∀ entry ∈ relationships, env.Complete db (row table.pk) true entry := by
        have hremote : (db.insertRow row).remote = db.remote := rfl
        rw [handleRelationships_eq_none_iff env relationships (insertRow_hasRow table db row)]
        simp only [complete_congr hremote]
      have hframe : SameBut (db.insertRow row) _ (row table.pk) (tablesOf relationships) :=
        sameBut_handleRelationships env (insertRow_hasRow table db row)
      have hback := deleteRow_handleRelationships env relationships hdb (hkey db row hrefuses)
      cases hhandle : env.handleRelationships table (db.insertRow row)
          (row table.pk) relationships with
      | mk after raised =>
        rw [hhandle] at hcomplete hframe hback
        cases raised with
        | some error =>
          simp only [Bool.false_eq_true, if_false, allOrNothing_error, hback, true_iff, false_or]
          left
          by_contra hall
          push Not at hall
          exact absurd (hcomplete.mpr hall) (by simp)
        | none =>
          have hall := hcomplete.mp rfl
          have hrefused : ¬ ∃ entry ∈ relationships,
              ¬ env.Complete db (row table.pk) true entry := by
            push Not
            exact hall
          simp only [Bool.false_eq_true, if_false, false_or, hrefused]
          cases hevents : options.sendEvents && eventsRaise with
          | false => simp [allOrNothing_ok]
          | true =>
            -- the row is there, and stays
            simp only [if_true, allOrNothing_error, Bool.true_eq_false, iff_false]
            intro hsame
            have hrows := hframe.rows
            simp only [hsame, Database.insertRow] at hrows
            have hcard := congrArg Multiset.card hrows
            simp at hcard

end

/-! ## Updating -/

section

variable {relationships : List (Relationship × Value)}

def KeyStays (table : Table Value) (db : Database Value) (id : Value)
    (values : Dict String Value) : Bool :=
  db.hasRow table id && decide ((values.get? table.pk).getD id = id)

theorem updateRelationships_allOrNothing_iff (env : Sqlite Value)
    (id : Value) (values : Dict String Value)
    (hdb : db.Consistent table) (hnodup : (tablesOf relationships).Nodup) :
    AllOrNothing db (env.updateRelationships table
        (db.updateRow table id values) id relationships) ↔
      (∀ entry ∈ relationships, env.Complete db id (KeyStays table db id values) entry) ∨
        (db.RowHas table id values ∧
          env.AsBefore db id (KeyStays table db id values) relationships) := by
  have hthere : (db.updateRow table id values).hasRow table id =
      KeyStays table db id values := updateRow_hasRow values
  have hremote : (db.updateRow table id values).remote = db.remote := rfl
  have hcomplete := handleRelationships_eq_none_iff env relationships hthere
  simp only [complete_congr hremote] at hcomplete
  have hframe : SameBut (db.updateRow table id values) _ id
      (tablesOf relationships) := sameBut_handleRelationships env hthere
  have hsame := handleRelationships_eq_self_iff env hthere hnodup
  rw [asBefore_congr hremote fun _ _ => rfl] at hsame
  unfold updateRelationships
  cases hhandle : env.handleRelationships table (db.updateRow table id values) id relationships with
  | mk after raised =>
    rw [hhandle] at hcomplete hframe hsame
    cases raised with
    | none =>
      simp only [allOrNothing_ok, true_iff]
      exact Or.inl (hcomplete.mp rfl)
    | some error =>
      have hnot : ¬ ∀ entry ∈ relationships,
          env.Complete db id (KeyStays table db id values) entry := by
        intro hall
        exact absurd (hcomplete.mpr hall) (by simp)
      simp only [allOrNothing_error, hnot, false_or]
      constructor
      · intro hback
        have hrows : (db.updateRow table id values).rows = db.rows := by
          rw [← hframe.rows, hback]
        have hhas := rowHas_of_updateRow_rows hdb hrows
        refine ⟨hhas, hsame.mp ?_⟩
        rw [hback, updateRow_eq_self hhas]
      · rintro ⟨hhas, hbefore⟩
        exact (hsame.mpr hbefore).trans (updateRow_eq_self hhas)

def UpdateMeets (env : Sqlite Value) (table : Table Value)
    (db : Database Value) (idOrFilters : IdOrFilters Value)
    (data : Dict String Value) (options : WriteOptions) (eventsRaise : Bool) :
    Prop :=
  match idOrFilters.resolve with
  | .error _ => True
  | .ok id =>
    match table.extractRelationships options.fieldPrefix
        (table.renameForeignKeys data) with
    | .error _ => True
    | .ok (values, relationships) =>
      let rowWritten := values.entries ≠ []
      let eventsFail := rowWritten ∧ (options.sendEvents && eventsRaise) = true
      let there := KeyStays table db id values
      rowWritten ∧ (env.refusesUpdate db id values = true ∨ db.hasRow table id = false) ∨
        ¬ eventsFail ∧ (∀ entry ∈ relationships, env.Complete db id there entry) ∨
        db.RowHas table id values ∧ (eventsFail ∨ env.AsBefore db id there relationships)

theorem update_allOrNothing_iff {idOrFilters : IdOrFilters Value}
    {data : Dict String Value} {options : WriteOptions} {eventsRaise : Bool}
    (hdb : db.Consistent table) :
    AllOrNothing db (env.update table db idOrFilters data options eventsRaise) ↔
      env.UpdateMeets table db idOrFilters data options eventsRaise := by
  unfold update UpdateMeets
  cases idOrFilters.resolve with
  | error error => simp [allOrNothing_error]
  | ok id =>
    cases hextract : table.extractRelationships options.fieldPrefix
        (table.renameForeignKeys data) with
    | error error => simp [allOrNothing_error]
    | ok extracted =>
      obtain ⟨values, relationships⟩ := extracted
      have hrelated := updateRelationships_allOrNothing_iff env id
        values hdb (extractRelationships_nodup hextract)
      by_cases hempty : values.entries = []
      · have hhas : db.RowHas table id values := by
          intro row _ _ column value hget
          simp [Dict.get?, hempty] at hget
        rw [updateRow_eq_self hhas] at hrelated
        simp only [hempty, if_true, hrelated, hhas, true_and, ne_eq,
          not_true_eq_false, false_and, false_or, not_false_eq_true]
      · simp only [hempty, if_false, ne_eq, not_false_eq_true, true_and]
        cases hrefuses : env.refusesUpdate db id values with
        | true => simp [allOrNothing_error]
        | false =>
          simp only [Bool.false_eq_true, if_false, false_or]
          by_cases hcount : Multiset.countP (fun row => row table.pk = id) db.rows = 1
          · have hrow : db.hasRow table id = true := by
              simp [Database.hasRow, hcount]
            simp only [hcount, not_true_eq_false, if_false, hrow, Bool.true_eq_false, false_or]
            cases hevents : options.sendEvents && eventsRaise with
            | false => simpa using hrelated
            | true =>
              simp only [if_true, allOrNothing_error, not_true_eq_false,
                false_and, false_or, true_or, and_true]
              refine ⟨?_, updateRow_eq_self⟩
              intro hsame
              exact rowHas_of_updateRow_rows hdb (by rw [hsame])
          · have hrow : db.hasRow table id = false := by
              have hone := hdb.primary_key id
              simp only [Database.hasRow, decide_eq_false_iff_not]
              omega
            simp only [hcount, not_false_eq_true, if_true,
              allOrNothing_error, hrow, true_or, iff_true]
            exact updateRow_eq_self_of_countP hdb hcount

end

inductive WriteCall (Value : Type*) where
  | insert (data : Dict String Value) (options : WriteOptions) (eventsRaise : Bool)
  | update (idOrFilters : IdOrFilters Value) (data : Dict String Value)
      (options : WriteOptions) (eventsRaise : Bool)

def write (env : Sqlite Value) (table : Table Value) (db : Database Value) :
    WriteCall Value → Database Value × Except WriteError Value
  | .insert data options eventsRaise =>
    env.insert table db data options eventsRaise
  | .update idOrFilters data options eventsRaise =>
    env.update table db idOrFilters data options eventsRaise

def Meets (env : Sqlite Value) (table : Table Value) (db : Database Value) :
    WriteCall Value → Prop
  | .insert data options eventsRaise =>
    env.InsertMeets table db data options eventsRaise
  | .update idOrFilters data options eventsRaise =>
    env.UpdateMeets table db idOrFilters data options eventsRaise

/-- A write is all or nothing exactly when `send_insert_events` does not raise
once the row is written and, for an update, nothing raises after a statement
that has changed something. -/
theorem write_allOrNothing_iff (hkey : env.EnforcesKey table)
    (hdb : db.Consistent table) (call : WriteCall Value) :
    AllOrNothing db (env.write table db call) ↔ env.Meets table db call := by
  cases call with
  | insert data options eventsRaise => exact insert_allOrNothing_iff hkey hdb
  | update idOrFilters data options eventsRaise =>
    exact update_allOrNothing_iff hdb

end Sqlite

inductive Cell where
  | null
  | int (value : ℤ)
  | text (value : String)
  | ids (items : List ℤ)
deriving DecidableEq

def smartTest : Table Cell where
  columns := [{ name := "id" }, { name := "smarttest_desc", isText := true }]
  pk := "id"
  relationships := [{
    name := "smarttest_disks"
    table := "tasks_smarttest_smarttest_disks"
    unique := true }]
  relationships_nodup := by decide

def smartSqlite : Sqlite Cell where
  null := .null
  emptyText := .text ""
  iterate
    | .ids items => some (items.map .int)
    | _ => none
  rowid rows := .int (rows.card + 100)
  refusesInsert db row := db.hasRow smartTest (row "id")
  refusesUpdate _ _ _ := false
  refusesPair _ _ _ := false

def smartDatabase : Database Cell where
  rows := {fun column =>
    if column = "id" then .int 100
    else if column = "smarttest_desc" then .text "short" else .null}
  assoc name := if name = "tasks_smarttest_smarttest_disks" then
      {(.int 100, .int 10), (.int 100, .int 30)} else 0
  remote _ value := value ∈ [Cell.int 10, .int 20, .int 30]

def smartDisks (items : List ℤ) : Dict String Cell :=
  Dict.empty.set "disks" (.ids items)

def smartOptions : WriteOptions := { fieldPrefix := "smarttest_" }

theorem smartDatabase_consistent : smartDatabase.Consistent smartTest := by
  constructor
  · intro pk
    exact (Multiset.countP_le_card _ _).trans (by simp [smartDatabase])
  · intro name pair hpair
    have hpk : pair.1 = .int 100 := by
      simp only [smartDatabase] at hpair
      split_ifs at hpair
      · rcases Multiset.mem_cons.mp hpair with hfirst | hrest
        · rw [hfirst]
        · rw [Multiset.mem_singleton.mp hrest]
      · exact absurd hpair (Multiset.notMem_zero _)
    rw [hpk]
    rfl

theorem smartInsert_allOrNothing : (smartSqlite.write smartTest smartDatabase
      (.insert (smartDisks [10, 99]) smartOptions false)).2 = .error .integrityError ∧
    Sqlite.AllOrNothing smartDatabase (smartSqlite.write smartTest smartDatabase
      (.insert (smartDisks [10, 99]) smartOptions false)) := by
  refine ⟨rfl, ?_⟩
  refine (Sqlite.write_allOrNothing_iff ?_ smartDatabase_consistent _).mpr ?_
  · intro db row haccepts
    exact haccepts
  · exact Or.inr (Or.inr rfl)

/-- The old disks of the test are gone when the unknown one is refused. -/
theorem smartUpdate_not_allOrNothing : (smartSqlite.write smartTest smartDatabase
      (.update (.id (.int 100)) (smartDisks [20, 99]) smartOptions false)).2 =
        .error .integrityError ∧
    ¬ Sqlite.AllOrNothing smartDatabase (smartSqlite.write smartTest smartDatabase
      (.update (.id (.int 100)) (smartDisks [20, 99]) smartOptions false)) := by
  refine ⟨rfl, ?_⟩
  intro hall
  have hsame := hall .integrityError rfl
  have hlost := congrArg (fun db => decide ((Cell.int 100, Cell.int 10) ∈
      db.assoc "tasks_smarttest_smarttest_disks")) hsame
  exact absurd hlost (by decide)

end Middlewared
