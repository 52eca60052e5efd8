import Middlewared.PyValue

/-!
# Alerts

An alert is a message about one issue of the system.
-/

namespace Middlewared

inductive Json where
  | null
  | bool (value : Bool)
  | number (literal : String)
  | str (value : String)
  | arr (items : List Json)
  | obj (entries : List (String × Json))

namespace Json

def hexDigits (width n : ℕ) : List Char :=
  let digits := Nat.toDigits 16 n
  List.replicate (width - digits.length) '0' ++ digits

def unicodeEscape (n : ℕ) : List Char :=
  ['\\', 'u'] ++ hexDigits 4 n

def escapeChar (c : Char) : List Char :=
  if c = '"' then ['\\', '"']
  else if c = '\\' then ['\\', '\\']
  else if c = '\n' then ['\\', 'n']
  else if c = '\r' then ['\\', 'r']
  else if c = '\t' then ['\\', 't']
  else if c.toNat = 8 then ['\\', 'b']
  else if c.toNat = 12 then ['\\', 'f']
  else if 32 ≤ c.toNat ∧ c.toNat < 127 then [c]
  else if c.toNat < 65536 then unicodeEscape c.toNat
  else
    let n := c.toNat - 65536
    unicodeEscape (55296 + n / 1024) ++ unicodeEscape (56320 + n % 1024)

def dumpsString (text : String) : String :=
  String.ofList (['"'] ++ text.toList.flatMap escapeChar ++ ['"'])

mutual

/-- `json.dumps(value, sort_keys=True)`. -/
def dumps : Json → String
  | .null => "null"
  | .bool value => if value then "true" else "false"
  | .number literal => literal
  | .str value => dumpsString value
  | .arr items => "[" ++ ", ".intercalate (dumpsItems items) ++ "]"
  | .obj entries =>
    let sorted :=
      (dumpsEntries entries).mergeSort fun a b => decide (a.1 ≤ b.1)
    "\x7b" ++ ", ".intercalate (sorted.map fun entry => dumpsString entry.1 ++ ": " ++ entry.2) ++
      "\x7d"

def dumpsItems : List Json → List String
  | [] => []
  | item :: rest => dumps item :: dumpsItems rest

def dumpsEntries : List (String × Json) → List (String × String)
  | [] => []
  | (key, value) :: rest => (key, dumps value) :: dumpsEntries rest

end

end Json

/-- `AlertClass` with its mixins: `oneShot` for `OneShotAlertClass`, whose
`expiresAfter` counts microseconds, and `dismissable` for
`DismissableAlertClass`. -/
structure AlertClass where
  (name title : String)
  text : Option String := none
  oneShot : Bool := false
  deletedAutomatically : Bool := true
  expiresAfter : Option ℤ := none
  dismissable : Bool := false
deriving DecidableEq

inductive AlertNode where
  | A
  | B
deriving DecidableEq

def AlertNode.other : AlertNode → AlertNode
  | .A => .B
  | .B => .A

/-- Identifiers are drawn in increasing order here; of the random ones of the
code only their being fresh is used. -/
structure Alert where
  uuid : Option ℕ
  source : Option String
  klass : AlertClass
  args : Json
  node : Option AlertNode
  key : String
  (datetime lastOccurrence : Option DateTime)
  dismissed : Option Bool
  mail : Option Json
  text : String

/-- Python's `value or other` for an optional text. -/
def orText (value : Option String) (other : String) : String :=
  match value with
  | some text => if text = "" then other else text
  | none => other

/-- `Alert.__init__`; the key defaults to the arguments. -/
def Alert.init (klass : AlertClass) (args : Json) (key : Option Json)
    (datetime lastOccurrence : Option DateTime) (node : Option AlertNode)
    (dismissed : Option Bool) (mail : Option Json) (uuid : Option ℕ)
    (source dumpedKey text : Option String) : Alert where
  uuid := uuid
  source := source
  klass := klass
  args := args
  node := node
  key := dumpedKey.getD (Json.dumps (key.getD args))
  datetime := datetime
  lastOccurrence := lastOccurrence.or datetime
  dismissed := dismissed
  mail := mail
  text := orText text (orText klass.text klass.title)

end Middlewared
