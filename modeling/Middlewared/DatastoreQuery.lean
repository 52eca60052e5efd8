import Middlewared.FilterConjunction

/-!
# Filtering in the database

`datastore.query` translates filters to SQL.  The limits of SQLite on the size of a statement are
left out.
-/

namespace Middlewared

inductive SqlType where
  | integer
  | text

structure SqlTable where
  columns : List (String × SqlType)
  fieldPrefix : String := ""
  rows : List Row

namespace SqlTable

def names (table : SqlTable) : List String :=
  table.columns.map Prod.fst

def stripPrefix (table : SqlTable) (column : String) : String :=
  if table.fieldPrefix ≠ "" ∧ PyString.startsWith column table.fieldPrefix = true then
    PyString.dropFirst column table.fieldPrefix.length
  else column

def serialize (table : SqlTable) (row : Row) : Row :=
  row.map fun cell => (table.stripPrefix cell.1, cell.2)

def getColByDjangoName (table : SqlTable) (name : String) : Option String :=
  if name ∈ table.names then some name
  else if name ++ "_id" ∈ table.names then some (name ++ "_id")
  else none

def getCol (table : SqlTable) (name : String) : Except PyError String :=
  match table.getColByDjangoName name with
  | some column => .ok column
  | none =>
    if table.fieldPrefix = "" then .error .keyError
    else
      match table.getColByDjangoName (table.fieldPrefix ++ name) with
      | some column => .ok column
      | none => .error .keyError

end SqlTable

/-! ## Expressions -/

inductive SqlCompare where
  | eq
  | ne
  | gt
  | ge
  | lt
  | le

inductive SqlExpr where
  | compare (op : SqlCompare) (column : String) (value : PyValue)
  | isNull (column : String)
  | isNotNull (column : String)
  | regexp (column : String) (pattern : PyValue)
  | inList (column : String) (values : List PyValue)
  | like (column : String) (before : String) (value : PyValue) (after : String)
  | not (expr : SqlExpr)
  | and (left right : SqlExpr)
  | or (left right : SqlExpr)

structure SqlEngine where
  compareMixed : PyValue → PyValue → Ordering

def SqlEngine.compareValues (engine : SqlEngine) (a b : PyValue) : Ordering :=
  match a, b with
  | .int m, .int n => compare m n
  | .int m, .bool b => compare m (if b then 1 else 0)
  | .str s, .str t => PyValue.compareChars s.toList t.toList
  | a, b => engine.compareMixed a b

def SqlCompare.holds (op : SqlCompare) (order : Ordering) : Bool :=
  match op with
  | .eq => order = .eq
  | .ne => order ≠ .eq
  | .gt => order = .gt
  | .ge => order ≠ .lt
  | .lt => order = .lt
  | .le => order ≠ .gt

/-- `LIKE` does not distinguish the case of ASCII letters. -/
def foldCase (c : Char) : Char :=
  if 'A' ≤ c ∧ c ≤ 'Z' then Char.ofNat (c.toNat + 32) else c

def likeMatch : List Char → List Char → Bool
  | [], text => text.isEmpty
  | p :: pattern, text =>
    if p = '%' then text.tails.any (likeMatch pattern)
    else
      text.head?.any (fun c => p = '_' || foldCase p = foldCase c) && likeMatch pattern text.tail

def sqlText : PyValue → Except PyError (Option String)
  | .none => .ok none
  | .str text => .ok (some text)
  | .int n => .ok (some (toString n))
  | .bool value => .ok (some (if value then "1" else "0"))
  | _ => .error .operationalError

def likeValues (value : PyValue) (before : String) (operand : PyValue)
    (after : String) : Except PyError (Option Bool) := do
  let text ← sqlText value
  let pattern ← sqlText operand
  match text, pattern with
  | some text, some pattern =>
    .ok (some (likeMatch (before.toList ++ pattern.toList ++ after.toList) text.toList))
  | _, _ => .ok none

def regexp (rt : PyRuntime) (expr item : PyValue) : Except PyError Bool :=
  match item, expr with
  | .none, _ => .ok false
  | .str text, .str pattern => rt.reSearchIgnoreCase pattern text
  | _, _ => .error .operationalError

def not3 (a : Option Bool) : Option Bool :=
  a.map (!·)

def or3 : Option Bool → Option Bool → Option Bool
  | some true, _ | _, some true => some true
  | some false, some false => some false
  | _, _ => none

def and3 : Option Bool → Option Bool → Option Bool
  | some false, _ | _, some false => some false
  | some true, some true => some true
  | _, _ => none

def SqlExpr.eval (rt : PyRuntime) (engine : SqlEngine) (row : Row) :
    SqlExpr → Except PyError (Option Bool)
  | .compare op column value =>
    let cell := (row.lookup column).getD .none
    if cell.isNone || value.isNone then .ok none
    else .ok (some (op.holds (engine.compareValues cell value)))
  | .isNull column => .ok (some ((row.lookup column).getD .none).isNone)
  | .isNotNull column => .ok (some (!((row.lookup column).getD .none).isNone))
  | .regexp column pattern => do
    let hit ← Middlewared.regexp rt pattern ((row.lookup column).getD .none)
    .ok (some hit)
  | .inList column values =>
    let cell := (row.lookup column).getD .none
    if values.isEmpty then .ok (some false)
    else if cell.isNone then .ok none
    else .ok (some (values.any fun value =>
      SqlCompare.eq.holds (engine.compareValues cell value)))
  | .like column before value after =>
    likeValues ((row.lookup column).getD .none) before value after
  | .not expr => do
    let a ← expr.eval rt engine row
    .ok (not3 a)
  | .and left right => do
    let a ← left.eval rt engine row
    let b ← right.eval rt engine row
    .ok (and3 a b)
  | .or left right => do
    let a ← left.eval rt engine row
    let b ← right.eval rt engine row
    .ok (or3 a b)

/-- An integer that SQLite can hold. -/
def IsInt64 (n : ℤ) : Prop :=
  -2 ^ 63 ≤ n ∧ n < 2 ^ 63

instance (n : ℤ) : Decidable (IsInt64 n) :=
  inferInstanceAs (Decidable (_ ∧ _))

def bindParameter : PyValue → Except PyError Unit
  | .list _ | .dict _ => .error .operationalError
  | .int n => if IsInt64 n then .ok () else .error .overflowError
  | _ => .ok ()

/-- The expression, once its values are bound to the statement. -/
def bound (values : List PyValue) (expr : SqlExpr) : Except PyError SqlExpr := do
  values.forM bindParameter
  .ok expr

/-- A comparison with `None` is turned into a test for null; an order does not
take `None`, `True` and `False`. -/
def compareExpr (op : SqlCompare) (column : String) (value : PyValue) :
    Except PyError SqlExpr :=
  match op, value with
  | .eq, .none => .ok (.isNull column)
  | .ne, .none => .ok (.isNotNull column)
  | .eq, value => bound [value] (.compare .eq column value)
  | .ne, value => bound [value] (.compare .ne column value)
  | _, .none | _, .bool _ => .error .argumentError
  | op, value => bound [value] (.compare op column value)

def splitNulls (value : PyValue) : Except PyError (Bool × List PyValue) :=
  match value with
  | .list items =>
    .ok (items.any PyValue.isNone, items.filter (!PyValue.isNone ·))
  | .dict entries => .ok (false, entries.map fun entry => .str entry.1)
  | _ => .error .typeError

def inExpr (column : String) (value : PyValue) : Except PyError SqlExpr := do
  let (hasNulls, values) ← splitNulls value
  let expr := SqlExpr.inList column values
  bound values (if hasNulls then .or expr (.isNull column) else expr)

def ninExpr (column : String) (value : PyValue) : Except PyError SqlExpr := do
  let (hasNulls, values) ← splitNulls value
  let expr := SqlExpr.not (.inList column values)
  bound values (if hasNulls then .and expr (.isNotNull column) else expr)

def conditionExpr (op column : String) (value : PyValue) :
    Except PyError SqlExpr :=
  if op = "=" then compareExpr .eq column value
  else if op = "!=" then compareExpr .ne column value
  else if op = ">" then compareExpr .gt column value
  else if op = ">=" then compareExpr .ge column value
  else if op = "<" then compareExpr .lt column value
  else if op = "<=" then compareExpr .le column value
  else if op = "~" then bound [value] (.regexp column value)
  else if op = "in" then inExpr column value
  else if op = "nin" then ninExpr column value
  else if op = "^" then bound [value] (.like column "" value "%")
  else if op = "$" then bound [value] (.like column "%" value "")
  else .error (.valueError (.invalidOperation (.str op)))

def beforeDunder : List Char → List Char
  | [] => []
  | '_' :: '_' :: _ => []
  | c :: rest => c :: beforeDunder rest

/-- The column of a condition.  A name with `__` goes through a foreign key,
which no column of the table has. -/
def conditionColumn (table : SqlTable) (name : PyValue) :
    Except PyError String :=
  match name with
  | .str name =>
    if PyString.containsText name "__" then do
      let _ ← table.getCol (String.ofList (beforeDunder name.toList))
      .error .indexError
    else table.getCol name
  | _ => .error .typeError

def orExprs : List SqlExpr → Except PyError SqlExpr
  | [] => .error .typeError
  | expr :: rest => .ok (rest.foldl .or expr)

def filterToExpr (table : SqlTable) : ℕ → PyValue → Except PyError SqlExpr
  | 0, _ => .error .recursionError
  | depth + 1, filter =>
    match filter with
    | .list [name, op, value] => do
      let column ← conditionColumn table name
      match op with
      | .str op => conditionExpr op column value
      | op =>
        if op.hashable then .error (.valueError (.invalidOperation op))
        else .error .typeError
    | .list [op, value] => do
      if op.eq (.str "OR") then do
        let branches ← value.iterate
        let exprs ← branches.mapM (filterToExpr table depth)
        orExprs exprs
      else .error (.valueError (.invalidOperation op))
    | .list _ => .error (.valueError (.invalidFilter filter))
    | filter => .error (.valueError (.filterNotList filter))

def filtersToQueryset (table : SqlTable) (filters : List PyValue) :
    Except PyError (List SqlExpr) :=
  filters.mapM (filterToExpr table (maxFiltersDepth + 1))

def whereHolds (rt : PyRuntime) (engine : SqlEngine) (exprs : List SqlExpr)
    (row : Row) : Except PyError Bool := do
  let values ← exprs.mapM (·.eval rt engine row)
  .ok (values.all (· = some true))

def selectRows (rt : PyRuntime) (engine : SqlEngine) (exprs : List SqlExpr) :
    List Row → Except PyError (List Row)
  | [] => .ok []
  | row :: rest => do
    let keep ← whereHolds rt engine exprs row
    let others ← selectRows rt engine exprs rest
    .ok (if keep then row :: others else others)

def datastoreQuery (rt : PyRuntime) (engine : SqlEngine) (table : SqlTable)
    (filters : List PyValue) : Except PyError (List Row) := do
  let exprs ← filtersToQueryset table filters
  let kept ← selectRows rt engine exprs table.rows
  .ok (kept.map table.serialize)

/-- `CRUDService.query` of a service whose `datastore_extend` returns its
argument. -/
def crudQuery (rt : PyRuntime) (engine : SqlEngine) (table : SqlTable)
    (forceSqlFilters : Bool) (filters : List PyValue) :
    Except PyError QueryResult :=
  if forceSqlFilters then
    (datastoreQuery rt engine table filters).map .rows
  else do
    let result ← datastoreQuery rt engine table []
    filterList rt result filters { }

end Middlewared
