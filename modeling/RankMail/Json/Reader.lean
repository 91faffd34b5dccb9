import RankMail.Json.Fault

set_option autoImplicit false

/-! # Reading JSON

A `Reader` goes through the characters of a text once, from left to right, and knows its position.
It stops at the first fault and keeps the place it stopped at, because a fault that is only about
the content of a value is given the position at which the value was left (`placed`).

There is no tree of the whole text: what is wanted at each place decides how it is read, and so
which of several faults of one text is the one reported.
-/

namespace RankMail.Json

/-- What is left of a text, and the position reached. -/
structure Cursor where
  rest : List Char
  line : Nat
  column : Nat
deriving Repr, DecidableEq

namespace Cursor

def start (text : String) : Cursor := ⟨text.toList, 1, 0⟩

def position (cursor : Cursor) : Position := ⟨cursor.line, cursor.column⟩

def next (cursor : Cursor) : Cursor :=
  match cursor.rest with
  | [] => cursor
  | '\n' :: rest => ⟨rest, cursor.line + 1, 0⟩
  | char :: rest => ⟨rest, cursor.line, cursor.column + char.utf8Size⟩

/-- The position one byte further on, or the same at the end of the text. -/
def nextPosition (cursor : Cursor) : Position :=
  match cursor.rest with
  | [] => cursor.position
  | '\n' :: _ => ⟨cursor.line + 1, 0⟩
  | _ :: _ => ⟨cursor.line, cursor.column + 1⟩

def drop (cursor : Cursor) : Nat → Cursor
  | 0 => cursor
  | count + 1 => cursor.next.drop count

/-- Some bytes further on, possibly in the middle of a character; a fault follows. -/
def dropBytes (cursor : Cursor) : Nat → Nat → Cursor
  | 0, _ => cursor
  | _, 0 => cursor
  | steps + 1, bytes =>
      match cursor.rest with
      | [] => cursor
      | char :: _ =>
          if char.utf8Size ≤ bytes then cursor.next.dropBytes steps (bytes - char.utf8Size)
          else { cursor with column := cursor.column + bytes }

end Cursor

/-- A way to read something off a text. -/
abbrev Reader := EStateM Fault Cursor

namespace Reader

variable {α : Type}

/-- The next character, which stays. -/
def peek : Reader (Option Char) := fun cursor => .ok cursor.rest.head? cursor

def skip : Reader Unit := fun cursor => .ok () cursor.next

/-- A fault at the position reached. -/
def fail (cause : Cause) : Reader α := fun cursor =>
  .error ⟨cause, some cursor.position⟩ cursor

/-- A fault at the next character. -/
def failNext (cause : Cause) : Reader α := fun cursor =>
  .error ⟨cause, some cursor.nextPosition⟩ cursor

/-- A fault of content, whose position is not known yet. -/
def failContent (cause : Cause) : Reader α := fun cursor => .error ⟨cause, none⟩ cursor

/-- Passes over the next character if it has a meaning here and returns the meaning. The fault of
one that has none is noticed at its first byte; `early` is the fault of a text that ends. -/
def take (early cause : Cause) (meaning : Char → Option α) : Reader α := fun cursor =>
  match cursor.rest with
  | [] => fail early cursor
  | char :: _ =>
      match meaning char with
      | some value => .ok value cursor.next
      | none => failNext cause cursor

/-- Gives a fault without a position the one at which the reader stopped. -/
def placed (reader : Reader α) : Reader α := fun cursor =>
  match reader cursor with
  | .ok value after => .ok value after
  | .error ⟨cause, none⟩ after => .error ⟨cause, some after.position⟩ after
  | .error fault after => .error fault after

/-- Reads the inside of a list or object and then its end. The end is looked for after a fault
too, which moves on the position that a fault of content is given; the first fault counts. -/
def enclosed (inside : Reader α) (close : Reader Unit) : Reader α := fun cursor =>
  match inside cursor with
  | .ok value after =>
      match close after with
      | .ok _ last => .ok value last
      | .error fault last => .error fault last
  | .error fault after =>
      match close after with
      | .ok _ last => .error fault last
      | .error _ last => .error fault last

def isBlank (char : Char) : Bool := char == ' ' || char == '\n' || char == '\t' || char == '\r'

/-- Passes over the blanks and looks at what follows. -/
def peekToken : Reader (Option Char) := fun cursor =>
  let after := cursor.drop (cursor.rest.takeWhile isBlank).length
  .ok after.rest.head? after

def word : List Char → Reader Unit
  | [] => pure ()
  | expected :: rest => do
      take .openValue .wordExpected fun char => if char = expected then some () else none
      word rest

/-- Reads a character that has to be a given one, after blanks. -/
def colon : Reader Unit := do
  match ← peekToken with
  | some ':' => skip
  | some _ => failNext .colonExpected
  | none => failNext .openObject

def endList : Reader Unit := do
  match ← peekToken with
  | some ']' => skip
  | some ',' => do
      skip
      match ← peekToken with
      | some ']' => failNext .trailingComma
      | _ => failNext .trailingText
  | some _ => failNext .trailingText
  | none => failNext .openList

def endObject : Reader Unit := do
  match ← peekToken with
  | some '}' => skip
  | some ',' => failNext .trailingComma
  | some _ => failNext .trailingText
  | none => failNext .openObject

def endText : Reader Unit := do
  match ← peekToken with
  | some _ => failNext .trailingText
  | none => pure ()

/-- The number of characters left, which bounds every loop over them. -/
def left : Reader Nat := fun cursor => .ok cursor.rest.length cursor

/-- Lists and objects may be nested this deep, less one. -/
def depthLimit : Nat := 128

def nested (inside : Nat → Reader α) : Nat → Reader α
  | 0 => failNext .tooDeep
  | 1 => failNext .tooDeep
  | depth + 1 => inside depth

def run (reader : Reader α) (text : String) : Except Fault α :=
  match (do let value ← reader; endText; pure value : Reader α) (Cursor.start text) with
  | .ok value _ => .ok value
  | .error fault _ => .error fault

end Reader

end RankMail.Json
