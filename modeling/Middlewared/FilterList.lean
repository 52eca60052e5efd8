import Middlewared.Dict
import Middlewared.FilterPath

/-!
# Filtering, ordering and selecting entries

The query language of the API, as `filter_list` evaluates it over a list of dictionaries.
-/

namespace Middlewared

inductive FilterOp where
  | eq
  | ne
  | gt
  | ge
  | lt
  | le
  | re
  | in
  | nin
  | rin
  | rnin
  | startswith
  | notstartswith
  | endswith
  | notendswith

def opmap : List (String × FilterOp) :=
  [("=", .eq), ("!=", .ne), (">", .gt), (">=", .ge), ("<", .lt), ("<=", .le),
    ("~", .re), ("in", .in), ("nin", .nin), ("rin", .rin), ("rnin", .rnin),
    ("^", .startswith), ("!^", .notstartswith), ("$", .endswith),
    ("!$", .notendswith)]

def textMethod (method : String → String → Bool) (x y : PyValue) :
    Except PyError Bool :=
  match x, y with
  | .str x, .str y => .ok (method x y)
  | .str _, _ => .error .typeError
  | _, _ => .error .attributeError

def opRe (rt : PyRuntime) (x y : PyValue) : Except PyError Bool :=
  match x, y with
  | .str text, .str pattern => rt.reMatch pattern text
  | _, _ => .error .typeError

/-- The operators that answer `False` for `None` before they look at the other
operand. -/
def unlessNone (x : PyValue) (op : Except PyError Bool) :
    Except PyError Bool :=
  if x.isNone then .ok false else op

def FilterOp.apply (rt : PyRuntime) (op : FilterOp) (x y : PyValue) :
    Except PyError Bool :=
  match op with
  | .eq => .ok (x.eq y)
  | .ne => .ok (!x.eq y)
  | .gt => (x.compare? y).map (· = .gt)
  | .ge => (x.compare? y).map (· ≠ .lt)
  | .lt => (x.compare? y).map (· = .lt)
  | .le => (x.compare? y).map (· ≠ .gt)
  | .re => opRe rt x y
  | .in => y.contains x
  | .nin => unlessNone x ((y.contains x).map (!·))
  | .rin => unlessNone x (x.contains y)
  | .rnin => unlessNone x ((x.contains y).map (!·))
  | .startswith => unlessNone x (textMethod PyString.startsWith x y)
  | .notstartswith =>
    unlessNone x ((textMethod PyString.startsWith x y).map (!·))
  | .endswith => unlessNone x (textMethod PyString.endsWith x y)
  | .notendswith => unlessNone x ((textMethod PyString.endsWith x y).map (!·))

/-- An operator as it is written: a leading `C` makes it ignore case. -/
def splitOp (op : String) : Except PyError (Bool × String) :=
  match op.toList with
  | [] => .error .indexError
  | 'C' :: rest => .ok (true, String.ofList rest)
  | _ => .ok (false, op)

def casefold (rt : PyRuntime) : PyValue → Except PyError PyValue
  | .none => .ok .none
  | .str text => .ok (.str (rt.casefold text))
  | .list items => do
    let folded ← items.mapM fun item =>
      match item with
      | .str text => .ok (PyValue.str (rt.casefold text))
      | _ => Except.error PyError.attributeError
    .ok (.list folded)
  | value => .error (.valueError (.casefoldUnsupported value))

def timestampDesignator : String := ".$date"

def maxFiltersDepth : ℕ := 3

def timestampOps : List String := ["=", "!=", ">", ">=", "<", "<="]

def isoTimestamp (rt : PyRuntime) (other : PyValue) :
    Except PyError (List (String × DateTime)) :=
  match other with
  | .str iso =>
    match rt.fromisoformat iso with
    | some ts => .ok [(iso, ts)]
    | none => .error (.valueError (.notIsoTimestamp other))
  | other => .error (.valueError (.notIsoTimestamp other))

def validateOperand (rt : PyRuntime) (op : String)
    (name value operand : PyValue) :
    Except PyError (List (String × DateTime)) :=
  match operand with
  | .str text =>
    if !PyString.endsWith text timestampDesignator then .ok []
    else if op ∉ timestampOps then
      .error (.valueError (.invalidTimestampOperation op))
    else isoTimestamp rt (if operand.eq name then value else name)
  | _ => .ok []

def validateCondition (rt : PyRuntime) (name op value : PyValue) :
    Except PyError (List (String × DateTime)) :=
  match op with
  | .str text => do
    let (ignoreCase, op) ← splitOp text
    if ignoreCase ∧ op = "~" then
      .error (.valueError (.invalidCaseInsensitiveOperation text))
    else if (opmap.lookup op).isNone then
      .error (.valueError (.invalidOperation (.str text)))
    else do
      let first ← validateOperand rt op name value name
      let second ← validateOperand rt op name value value
      .ok (first ++ second)
  | .list [] => .error .indexError
  | .dict _ => .error .keyError
  | _ => .error .typeError

def branchFilters (branch : PyValue) : Except PyError (List PyValue) :=
  match branch with
  | .list [] => .error .indexError
  | .list (.list first :: rest) => .ok (.list first :: rest)
  | .list _ => .ok [branch]
  | .str text => if text = "" then .error .indexError else .ok [branch]
  | .dict _ => .error .keyError
  | _ => .error .typeError

def positions : PyValue → Except PyError Unit
  | .dict _ => .error .keyError
  | _ => .ok ()

/-- `validate_filters`, with the number of levels still allowed; returns the
timestamps in the order in which they are recorded. -/
def validateFilters (rt : PyRuntime) :
    ℕ → List PyValue → Except PyError (List (String × DateTime))
  | 0, _ => .error (.valueError .maxDepthExceeded)
  | depth + 1, filters => do
    let recorded ← filters.mapM fun filter => do
      match ← filter.iterate with
      | [op, value] =>
        if !op.eq (.str "OR") then
          .error (.valueError (.invalidOperation op))
        else if !value.truthy then .error (.valueError .orWithoutBranch)
        else do
          let branches ← value.iterate
          let inner ← branches.mapM fun branch => do
            let filters ← branchFilters branch
            validateFilters rt depth filters
          .ok inner.flatten
      | [name, op, value] => do
        positions filter
        validateCondition rt name op value
      | _ => .error (.valueError (.invalidFilter filter))
    .ok recorded.flatten

abbrev Getter := PyValue → PyValue → Except PyError FilterGetResult

abbrev ValueMaps := Dict String DateTime

def applyCondition (rt : PyRuntime) (op : String) (source value : PyValue) :
    Except PyError Bool := do
  let (ignoreCase, op) ← splitOp op
  match opmap.lookup op with
  | none => .error .keyError
  | some fn =>
    if ignoreCase then do
      let source ← casefold rt source
      let value ← casefold rt value
      fn.apply rt source value
    else fn.apply rt source value

/-- `filterop`.  Each wildcard of the path takes one more level. -/
def filterop (rt : PyRuntime) (getter : Option Getter) :
    ℕ → PyValue → PyValue → String → PyValue → Except PyError Bool
  | 0, _, _, _, _ => .error .recursionError
  | fuel + 1, entry, name, op, value =>
    match getter with
    -- no entry has chosen a getter yet: `None(...)`
    | none => .error .typeError
    | some get => do
      match ← get entry name with
      | .done none => .ok false
      | .done (some source) => applyCondition rt op source value
      | .each items key =>
        items.anyM fun item =>
          filterop rt getter fuel item (.str key) op value

def pathDepth : PyValue → ℕ
  | .str text => text.toList.length + 1
  | _ => 1

def lookupOperand (maps : ValueMaps) (operand : PyValue) :
    Except PyError (Option DateTime) :=
  if operand.hashable then
    match operand with
    | .str text => .ok (maps.get? text)
    | _ => .ok none
  else .error .typeError

def evalCondition (rt : PyRuntime) (getter : Option Getter) (maps : ValueMaps)
    (entry name op value : PyValue) : Except PyError Bool :=
  match op with
  | .str op =>
    if maps.size = 0 then filterop rt getter (pathDepth name) entry name op value
    else do
      match ← lookupOperand maps name with
      -- `ts` is only assigned in the branch for the value
      | some _ => .error .unboundLocalError
      | none => do
        match ← lookupOperand maps value with
        | some ts =>
          match name with
          | .str _ =>
            filterop rt getter (pathDepth name) entry name op (.datetime ts)
          -- `operand_1.rstrip`
          | _ => .error .attributeError
        | none => filterop rt getter (pathDepth name) entry name op value
  | _ => .error .typeError

/-- `eval_filter`, with the number of levels `validate_filters` allows. -/
def evalFilter (rt : PyRuntime) (getter : Option Getter) (maps : ValueMaps)
    (entry : PyValue) : ℕ → PyValue → Except PyError Bool
  | 0, _ => .error .recursionError
  | depth + 1, filter => do
    match ← filter.iterate with
    | [_, value] => do
      let branches ← value.iterate
      branches.anyM fun branch => do
        let filters ← branchFilters branch
        filters.allM (evalFilter rt getter maps entry depth)
    | [name, op, value] => evalCondition rt getter maps entry name op value
    | _ => .error (.valueError (.invalidFilter filter))

inductive Select where
  | path (path : String)
  | pathAs (path : String) (name : String)
deriving DecidableEq

def setItem (entry : Row) (key : String) (value : PyValue) : Row :=
  if entry.any (·.1 = key) then
    entry.map fun item => if item.1 = key then (key, value) else item
  else entry ++ [(key, value)]

def setNested : List String → Row → String → PyValue → Except PyError Row
  | [], entry, last, value => .ok (setItem entry last value)
  | key :: keys, entry, last, value =>
    match entry.lookup key with
    | none => do
      let inner ← setNested keys [] last value
      .ok (setItem entry key (.dict inner))
    | some (.dict inner) => do
      let inner ← setNested keys inner last value
      .ok (setItem entry key (.dict inner))
    -- an assignment to an item of the value, or its `setdefault`
    | some _ => .error (if keys.isEmpty then .typeError else .attributeError)

def selectOne (row : Row) (entry : Row) (select : Select) :
    Except PyError Row :=
  match select with
  | .pathAs path name => do
    match ← selectPath (.dict row) path with
    | (_, none) => .ok entry
    | (_, some value) => .ok (setItem entry name value)
  | .path path => do
    match ← selectPath (.dict row) path with
    | (_, none) => .ok entry
    | (keys, some value) =>
      match keys.getLast? with
      | none => .error .indexError
      | some last => setNested keys.dropLast entry last value

def doSelect (rows : List Row) (select : List Select) :
    Except PyError (List Row) :=
  rows.mapM fun row => select.foldlM (selectOne row) []

def getterFn (entry : Row) : Option Getter :=
  if entry.isEmpty then none else some getImpl

def selected (select : List Select) (row : Row) : Except PyError Row :=
  if select.isEmpty then .ok row else select.foldlM (selectOne row) []

/-- `do_filters`; the getter is chosen at the first entry that is not
empty. -/
def doFilters (rt : PyRuntime) (filters : List PyValue) (select : List Select)
    (shortcircuit : Bool) (maps : ValueMaps) :
    Option Getter → List Row → Except PyError (List Row)
  | _, [] => .ok []
  | getter, row :: rest => do
    let getter := getter.or (getterFn row)
    let valid ← filters.allM
      (evalFilter rt getter maps (.dict row) (maxFiltersDepth + 1))
    if valid then do
      let entry ← selected select row
      if shortcircuit then .ok [entry]
      else do
        let others ← doFilters rt filters select shortcircuit maps getter rest
        .ok (entry :: others)
    else doFilters rt filters select shortcircuit maps getter rest

def decorate (order : String) (rows : List Row) :
    Except PyError (List (PyValue × Row)) :=
  rows.mapM fun row => do
    let key ← get (.dict row) order
    .ok (key, row)

def keyBefore (reverse : Bool) (b a : PyValue × Row) : Except PyError Bool :=
  if reverse then a.1.lt b.1 else b.1.lt a.1

def staysBefore (reverse : Bool) (a b : PyValue × Row) : Bool :=
  match keyBefore reverse b a with
  | .ok before => !before
  | .error _ => true

def allCompare (reverse : Bool) : List (PyValue × Row) → Bool
  | [] => true
  | a :: rest =>
    rest.all (fun b =>
      (keyBefore reverse a b).isOk && (keyBefore reverse b a).isOk) &&
      allCompare reverse rest

/-- `sorted(rows, key=..., reverse=...)`: stable in both directions, and it
raises when two keys do not compare. -/
def sortedBy (order : String) (reverse : Bool) (rows : List Row) :
    Except PyError (List Row) := do
  let decorated ← decorate order rows
  if allCompare reverse decorated then
    .ok ((decorated.insertionSort (staysBefore reverse · ·)).map (·.2))
  else .error .typeError

def nullsFirst : String := "nulls_first:"

def nullsLast : String := "nulls_last:"

def splitReverse (order : String) : String × Bool :=
  if PyString.startsWith order "-" then (PyString.dropFirst order 1, true)
  else (order, false)

def isNull (order : String) (row : Row) : Bool :=
  ((row.lookup order).getD .none).isNone

def orderNulls (rows : List Row) (order : String) :
    Except PyError (List Row × List Row) := do
  let (order, reverse) := splitReverse order
  let sorted ← sortedBy order reverse (rows.filter (!isNull order ·))
  .ok (rows.filter (isNull order), sorted)

def orderNoNull (rows : List Row) (order : String) :
    Except PyError (List Row) :=
  let (order, reverse) := splitReverse order
  sortedBy order reverse rows

def orderPass (rows : List Row) (order : String) : Except PyError (List Row) :=
  if PyString.startsWith order nullsFirst then do
    let (nulls, nonNulls) ←
      orderNulls rows (PyString.dropFirst order nullsFirst.length)
    .ok (nulls ++ nonNulls)
  else if PyString.startsWith order nullsLast then do
    let (nulls, nonNulls) ←
      orderNulls rows (PyString.dropFirst order nullsLast.length)
    .ok (nonNulls ++ nulls)
  else orderNoNull rows order

def doOrder (rows : List Row) (orderBy : List String) :
    Except PyError (List Row) :=
  orderBy.foldlM orderPass rows

structure QueryOptions where
  select : List Select := []
  orderBy : List String := []
  count : Bool := false
  get : Bool := false
  offset : ℤ := 0
  limit : ℤ := 0

inductive QueryResult where
  | rows (rows : List Row)
  | entry (row : Row)
  | count (count : ℕ)

def validateOptions (options : QueryOptions) : Except PyError Unit :=
  if options.get ∧ options.limit > 1 then .error (.valueError .getWithLimit)
  else if options.get ∧ options.offset ≠ 0 then
    .error (.valueError .getWithOffset)
  else .ok ()

def doGet : List Row → Except PyError QueryResult
  | [] => .error .matchNotFound
  | row :: _ => .ok (.entry row)

def sliceBound (length : ℕ) (bound : ℤ) : ℕ :=
  if bound < 0 then (length + bound).toNat else bound.toNat

def filteredRows (rt : PyRuntime) (rows : List Row) (filters : List PyValue)
    (select : List Select) (shortcircuit : Bool) :
    Except PyError (List Row) :=
  if filters.isEmpty then
    if select.isEmpty then .ok rows else doSelect rows select
  else do
    let recorded ← validateFilters rt (maxFiltersDepth + 1) filters
    doFilters rt filters select shortcircuit (Dict.ofEntries recorded) none rows

def filterList (rt : PyRuntime) (rows : List Row) (filters : List PyValue)
    (options : QueryOptions) : Except PyError QueryResult := do
  validateOptions options
  let shortcircuit := options.get && options.orderBy.isEmpty
  let rv ← filteredRows rt rows filters options.select shortcircuit
  if shortcircuit ∧ filters ≠ [] then doGet rv
  else if options.count then .ok (.count rv.length)
  else do
    let rv ← doOrder rv options.orderBy
    if options.get then doGet rv
    else
      let rv :=
        if options.offset = 0 then rv
        else rv.drop (sliceBound rv.length options.offset)
      .ok (.rows (if options.limit = 0 then rv
        else rv.take (sliceBound rv.length options.limit)))

end Middlewared
