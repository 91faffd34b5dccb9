import RankMail.Json.Skip

set_option autoImplicit false

/-! # Records in a JSON text

A record is written as an object, whose members may come in any order, or as a list of its fields
in their own order. `Reader.record` reads either form. The members of an object go through
`Reader.members`, which keeps what has been read so far in a draft of the record: a `Slot` knows
the name of a member, whether the draft has it already, and how to read it into the draft.
-/

namespace RankMail.Json

/-- A member of a record of which a draft is kept. -/
structure Slot (Draft : Type) where
  name : String
  taken : Draft → Bool
  read : Draft → Reader Draft

namespace Reader

variable {α Draft : Type}

/-- What is wrong with a value of another kind than the expected one; the next character is its
first. A fault of the value itself comes before its being of the wrong kind. -/
def wrongKindHere (expected : String) : Reader α := placed do
  match ← peek with
  | some 'n' => do skip; word ['u', 'l', 'l']; failContent (.wrongKind .null expected)
  | some 't' => do
      skip
      word ['r', 'u', 'e']
      failContent (.wrongKind (.boolean true) expected)
  | some 'f' => do
      skip
      word ['a', 'l', 's', 'e']
      failContent (.wrongKind (.boolean false) expected)
  | some '-' => do
      skip
      let value ← number false
      failContent (.wrongKind value.found expected)
  | some '"' => do
      skip
      let value ← text
      failContent (.wrongKind (.text value) expected)
  | some '[' => failContent (.wrongKind .list expected)
  | some '{' => failContent (.wrongKind .object expected)
  | some char =>
      if char.isDigit then do
        let value ← number true
        failContent (.wrongKind value.found expected)
      else failNext .valueExpected
  | none => failNext .valueExpected

def unsignedOf (limit : Nat) (expected : String) : Number → Reader Nat
  | .unsigned value =>
      if value ≤ limit then pure value
      else failContent (.wrongValue (.integer value) expected)
  | .negative value => failContent (.wrongValue (.integer value) expected)
  | .double bits => failContent (.wrongKind (.double bits) expected)

def unsigned (limit : Nat) (expected : String) : Reader Nat := do
  match ← peekToken with
  | none => failNext .openValue
  | some '-' => placed do
      skip
      let value ← number false
      unsignedOf limit expected value
  | some char =>
      if char.isDigit then placed do
        let value ← number true
        unsignedOf limit expected value
      else wrongKindHere expected

def boolean : Reader Bool := do
  match ← peekToken with
  | none => failNext .openValue
  | some 't' => do skip; word ['r', 'u', 'e']; pure true
  | some 'f' => do skip; word ['a', 'l', 's', 'e']; pure false
  | some _ => wrongKindHere "a boolean"

/-- Moves to the next item of a list; whether there is one. -/
def nextItem (isFirst : Bool) : Reader Bool := do
  match ← peekToken with
  | none => failNext .openList
  | some ']' => pure false
  | some char =>
      if isFirst then pure true
      else if char = ',' then do
        skip
        match ← peekToken with
        | some ']' => failNext .trailingComma
        | some _ => pure true
        | none => failNext .openValue
      else failNext .listEndExpected

/-- Moves to the next member of an object and reads its name, if there is one. -/
def nextName (isFirst : Bool) : Reader (Option String) := do
  match ← peekToken with
  | none => failNext .openObject
  | some '}' => pure none
  | some char =>
      if isFirst then
        if char = '"' then do skip; some <$> text else failNext .keyNotString
      else if char = ',' then do
        skip
        match ← peekToken with
        | some '"' => do skip; some <$> text
        | some '}' => failNext .trailingComma
        | some _ => failNext .keyNotString
        | none => failNext .openValue
      else failNext .objectEndExpected

/-- Reads a field of a record in list form; none if the list has ended. -/
def item (isFirst : Bool) (value : Reader α) : Reader (Option α) := do
  if ← nextItem isFirst then some <$> value else pure none

/-- Reads the members of an object into a draft. Members without a slot are passed over. -/
def membersLoop (slots : List (Slot Draft)) : Nat → Bool → Draft → Reader Draft
  | 0, _, draft => pure draft
  | steps + 1, isFirst, draft => do
      match ← nextName isFirst with
      | none => pure draft
      | some name =>
          match slots.find? fun slot => slot.name == name with
          | none => do
              colon
              skipValue
              membersLoop slots steps false draft
          | some slot =>
              if slot.taken draft then failContent (.repeatedMember name)
              else do
                colon
                let longer ← slot.read draft
                membersLoop slots steps false longer

/-- Reads all members of an object into a draft; each takes a character at least. -/
def members (slots : List (Slot Draft)) (draft : Draft) : Reader Draft := do
  membersLoop slots ((← left) + 1) true draft

/-- Reads a record in either form. -/
def record (depth : Nat) (expected : String) (inObject inList : Nat → Reader α) : Reader α := do
  match ← peekToken with
  | none => failNext .openValue
  | some '[' => placed (nested (fun depth => do
      skip
      enclosed (inList depth) endList) depth)
  | some '{' => placed (nested (fun depth => do
      skip
      enclosed (inObject depth) endObject) depth)
  | some _ => wrongKindHere expected

def required (name : String) : Option α → Reader α
  | some value => pure value
  | none => failContent (.missingMember name)

def requiredItem (position : Nat) (expected : String) : Option α → Reader α
  | some value => pure value
  | none => failContent (.wrongLength position expected)

end Reader

end RankMail.Json
