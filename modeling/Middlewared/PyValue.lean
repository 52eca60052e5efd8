import Middlewared.PyString

/-!
# Values that filters look at

The values an entry or a filter can hold, with the comparisons of the language:
`==` never raises and compares dictionaries without regard to their order,
while `<` and its relatives raise on values that have no order.
-/

namespace Middlewared

/-- A point in time.  An aware one counts from the epoch in UTC; a naive one
has no time zone, and the two kinds do not compare. -/
structure DateTime where
  micros : ℤ
  aware : Bool
deriving DecidableEq

inductive PyValue where
  | none
  | bool (value : Bool)
  | int (value : ℤ)
  | str (value : String)
  | datetime (value : DateTime)
  | list (items : List PyValue)
  | dict (entries : List (String × PyValue))

abbrev Row := List (String × PyValue)

inductive PyValueError where
  | maxDepthExceeded
  | invalidOperation (op : PyValue)
  | orWithoutBranch
  | invalidFilter (filter : PyValue)
  | filterNotList (filter : PyValue)
  | invalidCaseInsensitiveOperation (op : String)
  | invalidTimestampOperation (op : String)
  | notIsoTimestamp (value : PyValue)
  | notIndexOrWildcard (key : String)
  | selectByIndex
  | casefoldUnsupported (value : PyValue)
  | getWithLimit
  | getWithOffset

inductive PyError where
  | typeError
  | attributeError
  | indexError
  | keyError
  | unboundLocalError
  | recursionError
  | matchNotFound
  | regexError
  | operationalError
  | overflowError
  | argumentError
  | valueError (error : PyValueError)

namespace PyValue

def truthy : PyValue → Bool
  | .none => false
  | .bool value => value
  | .int value => value ≠ 0
  | .str value => value ≠ ""
  | .datetime _ => true
  | .list items => !items.isEmpty
  | .dict entries => !entries.isEmpty

def isNone : PyValue → Bool
  | .none => true
  | _ => false

def hashable : PyValue → Bool
  | .list _ | .dict _ => false
  | _ => true

def asInt? : PyValue → Option ℤ
  | .bool value => some (if value then 1 else 0)
  | .int value => some value
  | _ => Option.none

mutual

def eq : PyValue → PyValue → Bool
  | .none, other => other.isNone
  | .bool a, other => other.asInt? = some (if a then 1 else 0)
  | .int a, other => other.asInt? = some a
  | .str a, .str b => a = b
  | .datetime a, .datetime b => a = b
  | .list as, .list bs => eqItems as bs
  | .dict as, .dict bs => as.length = bs.length && eqEntries as bs
  | .str _, _ | .datetime _, _ | .list _, _ | .dict _, _ => false

def eqItems : List PyValue → List PyValue → Bool
  | [], [] => true
  | a :: as, b :: bs => eq a b && eqItems as bs
  | [], _ :: _ | _ :: _, [] => false

def eqEntries : List (String × PyValue) → List (String × PyValue) → Bool
  | [], _ => true
  | (key, a) :: as, bs =>
    (match bs.lookup key with
      | some b => eq a b
      | Option.none => false) && eqEntries as bs

end

def compareChars : List Char → List Char → Ordering
  | [], [] => .eq
  | [], _ :: _ => .lt
  | _ :: _, [] => .gt
  | a :: as, b :: bs => (compare a.toNat b.toNat).then (compareChars as bs)

mutual

/-- What the operators `<`, `<=`, `>` and `>=` read off; lists are compared at
the first place where they differ. -/
def compare? : PyValue → PyValue → Except PyError Ordering
  | .str a, .str b => .ok (compareChars a.toList b.toList)
  | .datetime a, .datetime b =>
    if a.aware = b.aware then .ok (compare a.micros b.micros)
    else .error .typeError
  | .list as, .list bs => compareItems as bs
  | .bool a, other =>
    match other.asInt? with
    | some b => .ok (compare (if a then 1 else 0) b)
    | Option.none => .error .typeError
  | .int a, other =>
    match other.asInt? with
    | some b => .ok (compare a b)
    | Option.none => .error .typeError
  | .none, _ | .dict _, _ | .str _, _ | .datetime _, _ | .list _, _ =>
    .error .typeError

def compareItems : List PyValue → List PyValue → Except PyError Ordering
  | [], [] => .ok .eq
  | [], _ :: _ => .ok .lt
  | _ :: _, [] => .ok .gt
  | a :: as, b :: bs => if a.eq b then compareItems as bs else compare? a b

end

def lt (a b : PyValue) : Except PyError Bool :=
  (compare? a b).map (· = .lt)

def contains (container item : PyValue) : Except PyError Bool :=
  match container, item with
  | .list items, item => .ok (items.any fun other => other.eq item)
  | .str text, .str part => .ok (PyString.containsText text part)
  | .dict entries, .str key => .ok (entries.any fun entry => entry.1 = key)
  | .dict _, item => if item.hashable then .ok false else .error .typeError
  | _, _ => .error .typeError

def iterate : PyValue → Except PyError (List PyValue)
  | .list items => .ok items
  | .str text => .ok (text.toList.map fun c => .str (String.ofList [c]))
  | .dict entries => .ok (entries.map fun entry => .str entry.1)
  | _ => .error .typeError

end PyValue

/-- The parts of the standard library that filters use and that are not
modelled: the ISO-8601 parser, the Unicode case folding and the regular
expression engine, once anchored at the start and once searching without regard
to case. -/
structure PyRuntime where
  fromisoformat : String → Option DateTime
  casefold : String → String
  reMatch : (pattern text : String) → Except PyError Bool
  reSearchIgnoreCase : (pattern text : String) → Except PyError Bool

end Middlewared
