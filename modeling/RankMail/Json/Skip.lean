import RankMail.Json.Strings
import RankMail.Json.Numbers

set_option autoImplicit false

/-! # Passing over a value

The value of an unknown member is passed over: it has to be well formed, but it may be nested to
any depth, and numbers too large for a double are no fault. The lists and objects that are still
open stand on a stack.
-/

namespace RankMail.Json

/-- A list or object that is still open. -/
inductive Frame where
  | list
  | object
deriving Repr, DecidableEq

/-- What comes next while a value is passed over. -/
inductive Pending where
  /-- A value. -/
  | value
  /-- The first item of the innermost frame, or its end. -/
  | first
  /-- What follows an item of the innermost frame. -/
  | following
deriving Repr, DecidableEq

namespace Reader

def skipExponent : Reader Unit := do
  skip
  match ← peek with
  | some '+' => skip
  | some '-' => skip
  | _ => pure ()
  let _ ← take .badNumber .badNumber digitValue?
  let _ ← digits
  pure ()

def skipTail : Reader Unit := do
  match ← peek with
  | some '.' => do
      skip
      let found ← digits
      if found.isEmpty then failNext .badNumber
      else
        match ← peek with
        | some 'e' => skipExponent
        | some 'E' => skipExponent
        | _ => pure ()
  | some 'e' => skipExponent
  | some 'E' => skipExponent
  | _ => pure ()

def skipNumber : Reader Unit := do
  match ← take .badNumber .badNumber digitValue? with
  | 0 => do
      match ← peek with
      | some char => if char.isDigit then failNext .badNumber else skipTail
      | none => skipTail
  | _ => do
      let _ ← digits
      skipTail

/-- Passes over a value that is neither a list nor an object, of which the next character is the
first. -/
def skipLeaf (char : Char) : Reader Unit :=
  match char with
  | 'n' => do skip; word ['u', 'l', 'l']
  | 't' => do skip; word ['r', 'u', 'e']
  | 'f' => do skip; word ['a', 'l', 's', 'e']
  | '-' => do skip; skipNumber
  | '"' => do skip; skipText
  | other => if other.isDigit then skipNumber else failNext .valueExpected

def skipName : Reader Unit := do
  match ← peekToken with
  | some '"' => skip
  | some _ => failNext .keyNotString
  | none => failNext .openObject
  skipText
  colon

def enter : Frame → Reader Unit
  | .list => pure ()
  | .object => skipName

def closing : Frame → Char
  | .list => ']'
  | .object => '}'

/-- The fault of a text that ends within a frame. -/
def unclosed : Frame → Cause
  | .list => .openList
  | .object => .openObject

/-- The fault of a frame that goes on with neither a comma nor its end. -/
def unseparated : Frame → Cause
  | .list => .listEndExpected
  | .object => .objectEndExpected

/-- Passes over what is pending and all that the open frames still hold. -/
def skipLoop : Nat → Pending → List Frame → Reader Unit
  | 0, _, _ => pure ()
  | steps + 1, .value, frames => do
      match ← peekToken with
      | none => failNext .openValue
      | some '[' => do skip; skipLoop steps .first (.list :: frames)
      | some '{' => do skip; skipLoop steps .first (.object :: frames)
      | some char => do skipLeaf char; skipLoop steps .following frames
  | _ + 1, _, [] => pure ()
  | steps + 1, .first, frame :: outer => do
      match ← peekToken with
      | none => failNext (unclosed frame)
      | some char =>
          if char = closing frame then do skip; skipLoop steps .following outer
          else do enter frame; skipLoop steps .value (frame :: outer)
  | steps + 1, .following, frame :: outer => do
      match ← peekToken with
      | none => failNext (unclosed frame)
      | some ',' => do skip; enter frame; skipLoop steps .value (frame :: outer)
      | some char =>
          if char = closing frame then do skip; skipLoop steps .following outer
          else failNext (unseparated frame)

/-- Passes over a value. Every two steps of the loop pass over a character at least. -/
def skipValue : Reader Unit := do skipLoop (2 * (← left) + 2) .value []

end Reader

end RankMail.Json
