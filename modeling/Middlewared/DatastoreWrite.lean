import Middlewared.Dict
import Mathlib.Data.Multiset.Filter

/-!
# Writing to the database

`datastore.insert` and `datastore.update` write a row and the association tables of its
many-to-many relationships, with one statement after another, each of them committed on its own.
The values of the columns are left open. What is known of SQLite beyond its keys, such as the
constraints of a row or the values it can bind, is given by `Sqlite`.
-/

namespace Middlewared

structure Column (Value : Type*) where
  name : String
  default : Option Value := none
  nullable : Bool := false
  isText : Bool := false
  foreignKey : Bool := false

/-- A many-to-many relationship, through an association table whose rows are
pairs of keys.  Both columns of the table are foreign keys that cascade. -/
structure Relationship where
  (name table : String)
  unique : Bool := false

structure Table (Value : Type*) where
  columns : List (Column Value)
  pk : String
  pkInteger : Bool := true
  relationships : List Relationship := []
  relationships_nodup : (relationships.map Relationship.table).Nodup

abbrev Record (Value : Type*) := String → Value

structure Database (Value : Type*) where
  rows : Multiset (Record Value)
  assoc : String → Multiset (Value × Value)
  remote : String → Value → Bool

inductive WriteError where
  | keyError (name : String)
  | runtimeError (message : String)
  | integrityError
  | typeError
  | eventError

structure Sqlite (Value : Type*) where
  (null emptyText : Value)
  iterate : Value → Option (List Value)
  rowid : Multiset (Record Value) → Value
  refusesInsert : Database Value → Record Value → Bool
  refusesUpdate : Database Value → Value → Dict String Value → Bool
  refusesPair : String → Value → Value → Bool

/-- The argument of that name, with the keys `datastore.query` finds for
filters. -/
inductive IdOrFilters (Value : Type*) where
  | id (id : Value)
  | filters (found : List Value)

/-- The key of the row found, which `datastore.query` gives with the prefix of the
table taken off; where the name of the key has that prefix, too (`storage.disk`), the
code raises `KeyError`, which is left out. -/
def IdOrFilters.resolve {Value : Type*} : IdOrFilters Value → Except WriteError Value
  | .id value => .ok value
  | .filters [value] => .ok value
  | .filters found =>
    .error (.runtimeError (toString found.length ++ " found, expecting one"))

structure WriteOptions where
  fieldPrefix : String := ""
  sendEvents : Bool := true

variable {Value : Type*} [DecidableEq Value]

namespace Database

variable (db : Database Value) (table : Table Value)

def hasRow (pk : Value) : Bool :=
  0 < Multiset.countP (fun row => row table.pk = pk) db.rows

def insertRow (row : Record Value) : Database Value :=
  { db with rows := row ::ₘ db.rows }

def updateRow (pk : Value) (values : Dict String Value) : Database Value :=
  { db with
    rows := db.rows.map fun row =>
      if row table.pk = pk then
        fun column => (values.get? column).getD (row column)
      else row }

def deleteRow (pk : Value) : Database Value :=
  { db with
    rows := db.rows.filter fun row => row table.pk ≠ pk
    assoc := fun name => (db.assoc name).filter fun pair => pair.1 ≠ pk }

def deletePairs (name : String) (pk : Value) : Database Value :=
  { db with
    assoc := Function.update db.assoc name
      ((db.assoc name).filter fun pair => pair.1 ≠ pk) }

def insertPair (name : String) (pk value : Value) : Database Value :=
  { db with assoc := Function.update db.assoc name ((pk, value) ::ₘ db.assoc name) }

end Database

namespace Table

variable (table : Table Value)

def names : List String :=
  table.columns.map Column.name

def getColByDjangoName (name : String) : Option String :=
  if name ∈ table.names then some name
  else if name ++ "_id" ∈ table.names then some (name ++ "_id")
  else none

def getCol (name fieldPrefix : String) : Except WriteError String :=
  match table.getColByDjangoName name with
  | some column => .ok column
  | none =>
    if fieldPrefix = "" then .error (.keyError name)
    else
      match table.getColByDjangoName (fieldPrefix ++ name) with
      | some column => .ok column
      | none => .error (.keyError name)

def extractLoop (fieldPrefix : String) :
    List (String × Value) → Dict String Value → List (Relationship × Value) →
      Except WriteError (Dict String Value × List (Relationship × Value))
  | [], values, found => .ok (values, found)
  | (key, value) :: rest, values, found =>
    match table.relationships.find? (·.name = fieldPrefix ++ key) with
    | some relationship =>
      extractLoop fieldPrefix rest values (found ++ [(relationship, value)])
    | none =>
      match table.getCol key fieldPrefix with
      | .error error => .error error
      | .ok column =>
        extractLoop fieldPrefix rest (values.set column value) found

def extractRelationships (fieldPrefix : String) (data : Dict String Value) :
    Except WriteError (Dict String Value × List (Relationship × Value)) :=
  table.extractLoop fieldPrefix data.entries Dict.empty []

def setDefault (values : Dict String Value) (column : String)
    (value : Value) : Dict String Value :=
  if column ∈ values then values else values.set column value

def setDefaults (env : Sqlite Value) (values : Dict String Value) :
    Dict String Value :=
  table.columns.foldl (fun values column =>
      let values :=
        match column.default with
        | some value => setDefault values column.name value
        | none => values
      if !column.nullable && column.isText then
        setDefault values column.name env.emptyText
      else values)
    values

/-- The loop of `update` that looks for foreign keys given without `_id`. -/
def renameForeignKeys (data : Dict String Value) : Dict String Value :=
  table.columns.foldl (fun data column =>
      let short := String.ofList
        (column.name.toList.take (column.name.length - 3))
      if column.foreignKey then
        match data.get? short with
        | some value => (data.erase short).set column.name value
        | none => data
      else data)
    data

end Table

namespace Sqlite

variable (env : Sqlite Value) (table : Table Value)

def acceptsPair (db : Database Value) (relationship : Relationship)
    (pk value : Value) : Bool :=
  db.hasRow table pk && db.remote relationship.table value &&
    !env.refusesPair relationship.table pk value &&
    !(relationship.unique && (pk, value) ∈ db.assoc relationship.table)

def insertPairs (db : Database Value) (relationship : Relationship)
    (pk : Value) : List Value → Database Value × Option WriteError
  | [] => (db, none)
  | value :: rest =>
    if env.acceptsPair table db relationship pk value then
      insertPairs (db.insertPair relationship.table pk value) relationship pk rest
    else (db, some .integrityError)

/-- `_handle_relationships`: what it leaves behind, and what it raises. -/
def handleRelationships (db : Database Value) (pk : Value) :
    List (Relationship × Value) → Database Value × Option WriteError
  | [] => (db, none)
  | (relationship, values) :: rest =>
    let db := db.deletePairs relationship.table pk
    match env.iterate values with
    | none => (db, some .typeError)
    | some values =>
      match env.insertPairs table db relationship pk values with
      | (db, some error) => (db, some error)
      | (db, none) => handleRelationships db pk rest

/-- The row an `INSERT` makes: what is not given is `NULL`, and SQLite chooses
an integer key. -/
def newRow (db : Database Value) (values : Dict String Value) :
    Record Value := fun column =>
  let value := (values.get? column).getD env.null
  if column = table.pk ∧ table.pkInteger = true ∧ value = env.null then
    env.rowid db.rows
  else value

/-- `insert`.  `eventsRaise` tells whether `datastore.send_insert_events`
raises. -/
def insert (db : Database Value) (data : Dict String Value)
    (options : WriteOptions) (eventsRaise : Bool) :
    Database Value × Except WriteError Value :=
  match table.extractRelationships options.fieldPrefix data with
  | .error error => (db, .error error)
  | .ok (values, relationships) =>
    let row := env.newRow table db (table.setDefaults env values)
    if env.refusesInsert db row then (db, .error .integrityError)
    else
      match env.handleRelationships table (db.insertRow row) (row table.pk)
          relationships with
      | (db, some error) => (db.deleteRow table (row table.pk), .error error)
      | (db, none) =>
        if options.sendEvents && eventsRaise then (db, .error .eventError)
        else (db, .ok (row table.pk))

def updateRelationships (db : Database Value) (id : Value)
    (relationships : List (Relationship × Value)) :
    Database Value × Except WriteError Value :=
  match env.handleRelationships table db id relationships with
  | (db, some error) => (db, .error error)
  | (db, none) => (db, .ok id)

def update (db : Database Value) (idOrFilters : IdOrFilters Value)
    (data : Dict String Value) (options : WriteOptions) (eventsRaise : Bool) :
    Database Value × Except WriteError Value :=
  match idOrFilters.resolve with
  | .error error => (db, .error error)
  | .ok id =>
    match table.extractRelationships options.fieldPrefix
        (table.renameForeignKeys data) with
    | .error error => (db, .error error)
    | .ok (values, relationships) =>
      if values.entries = [] then
        env.updateRelationships table db id relationships
      else if env.refusesUpdate db id values then
        (db, .error .integrityError)
      else
        let updated := db.updateRow table id values
        if Multiset.countP (fun row => row table.pk = id) db.rows ≠ 1 then
          (updated, .error (.runtimeError "No rows were updated"))
        else if options.sendEvents && eventsRaise then
          (updated, .error .eventError)
        else env.updateRelationships table updated id relationships

end Sqlite

end Middlewared
