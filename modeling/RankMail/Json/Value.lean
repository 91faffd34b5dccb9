import RankMail.Json.Record

set_option autoImplicit false

/-! # Values kept for later

Where the kind of a value depends on a member that may come after it, the value is read into a
`Value` first and interpreted afterwards. Faults found by the interpretation have no position of
their own.
-/

namespace RankMail.Json

inductive Value where
  | null
  | boolean (value : Bool)
  | number (value : Number)
  | text (value : String)
  | list (items : List Value)
  | object (members : List (String × Value))
deriving Repr

def Value.found : Value → Found
  | null => .null
  | boolean value => .boolean value
  | number value => value.found
  | text value => .text value
  | list _ => .list
  | object _ => .object

namespace Reader

variable {α : Type}

def itemsLoop (value : Reader α) : Nat → Bool → Reader (List α)
  | 0, _ => pure []
  | steps + 1, isFirst => do
      match ← item isFirst value with
      | none => pure []
      | some first => do
          let rest ← itemsLoop value steps false
          pure (first :: rest)

def items (isFirst : Bool) (value : Reader α) : Reader (List α) := do
  itemsLoop value ((← left) + 1) isFirst

def pairsLoop (value : Reader α) : Nat → Bool → Reader (List (String × α))
  | 0, _ => pure []
  | steps + 1, isFirst => do
      match ← nextName isFirst with
      | none => pure []
      | some name => do
          colon
          let first ← value
          let rest ← pairsLoop value steps false
          pure ((name, first) :: rest)

def pairs (value : Reader α) : Reader (List (String × α)) := do
  pairsLoop value ((← left) + 1) true

/-- Reads a value that is neither a list nor an object, of which the next character is the
first. -/
def leaf (char : Char) : Reader Value :=
  match char with
  | 'n' => do skip; word ['u', 'l', 'l']; pure .null
  | 't' => do skip; word ['r', 'u', 'e']; pure (.boolean true)
  | 'f' => do skip; word ['a', 'l', 's', 'e']; pure (.boolean false)
  | '-' => do skip; let value ← number false; pure (.number value)
  | '"' => do skip; let value ← text; pure (.text value)
  | other =>
      if other.isDigit then do let value ← number true; pure (.number value)
      else failNext .valueExpected

/-- Reads any value; lists and objects may be nested `depth` deep, less one. -/
def value : Nat → Reader Value
  | 0 => do
      match ← peekToken with
      | none => failNext .openValue
      | some '[' => failNext .tooDeep
      | some '{' => failNext .tooDeep
      | some char => leaf char
  | depth + 1 => do
      match ← peekToken with
      | none => failNext .openValue
      | some '[' =>
          if depth = 0 then failNext .tooDeep
          else do
            skip
            let found ← enclosed (items true (value depth)) endList
            pure (.list found)
      | some '{' =>
          if depth = 0 then failNext .tooDeep
          else do
            skip
            let found ← enclosed (pairs (value depth)) endObject
            pure (.object found)
      | some char => leaf char

def unsignedValue (limit : Nat) (expected : String) : Value → Reader Nat
  | .number value => unsignedOf limit expected value
  | other => failContent (.wrongKind other.found expected)

end Reader

end RankMail.Json
