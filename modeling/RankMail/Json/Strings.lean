import RankMail.Json.Reader

set_option autoImplicit false

/-! # Strings in a JSON text

`Reader.text` reads a string and resolves its escapes; characters beyond 16 bits are written as a
pair of escapes. `Reader.skipText` passes over a string whose content is of no interest, and
accepts escapes that stand for no character.
-/

namespace RankMail.Json.Reader

def hexValue? (char : Char) : Option Nat :=
  if char.isDigit then some (char.toNat - '0'.toNat)
  else if 'a' ≤ char ∧ char ≤ 'f' then some (char.toNat - 'a'.toNat + 10)
  else if 'A' ≤ char ∧ char ≤ 'F' then some (char.toNat - 'A'.toNat + 10)
  else none

def hexQuad? : List Char → Option Nat
  | [] => some 0
  | char :: rest => do
      let high ← hexValue? char
      let low ← hexQuad? rest
      pure (high * 16 ^ rest.length + low)

def byteCount (chars : List Char) : Nat :=
  chars.foldr (fun char rest => char.utf8Size + rest) 0

def hexQuad : Reader Nat := fun cursor =>
  if 4 ≤ byteCount cursor.rest then
    match hexQuad? (cursor.rest.take 4) with
    | some value => .ok value (cursor.drop 4)
    | none => fail .badEscape (cursor.dropBytes 4 4)
  else fail .openString (cursor.drop cursor.rest.length)

/-- Passes over a given character, which continues a pair of escapes. -/
def pairMark (mark : Char) : Reader Unit := fun cursor =>
  match cursor.rest with
  | [] => fail .openString cursor
  | char :: _ =>
      if char = mark then .ok () cursor.next else fail .surrogateCut (cursor.dropBytes 1 1)

/-- Whether a number is the first of a pair. -/
def isLeading (value : Nat) : Bool := 0xD800 ≤ value && value ≤ 0xDBFF

/-- Whether a number is the second of a pair. -/
def isTrailing (value : Nat) : Bool := 0xDC00 ≤ value && value ≤ 0xDFFF

/-- Reads what follows the letter of a numeric escape. -/
def numericEscape : Reader Char := do
  let first ← hexQuad
  if isTrailing first then fail .loneSurrogate
  else if !isLeading first then pure (Char.ofNat first)
  else do
    pairMark '\\'
    pairMark 'u'
    let second ← hexQuad
    if isTrailing second then
      pure (Char.ofNat ((first - 0xD800) * 0x400 + (second - 0xDC00) + 0x10000))
    else fail .loneSurrogate

inductive Escape where
  | char (value : Char)
  /-- Four hexadecimal digits follow. -/
  | numeric
deriving Repr, DecidableEq

def escape? : Char → Option Escape
  | '"' => some (.char '"')
  | '\\' => some (.char '\\')
  | '/' => some (.char '/')
  | 'b' => some (.char '\x08')
  | 'f' => some (.char '\x0c')
  | 'n' => some (.char '\n')
  | 'r' => some (.char '\r')
  | 't' => some (.char '\t')
  | 'u' => some .numeric
  | _ => none

def escape : Reader Char := do
  match ← take .openString .badEscape escape? with
  | .char value => pure value
  | .numeric => numericEscape

/-- Reads the characters of a string up to its closing quote. -/
def textLoop : Nat → List Char → Reader (List Char)
  | 0, _ => fail .openString
  | steps + 1, before => do
      match ← peek with
      | none => fail .openString
      | some '"' => do skip; pure before.reverse
      | some '\\' => do
          skip
          let char ← escape
          textLoop steps (char :: before)
      | some char => do
          skip
          if char.toNat < 0x20 then fail .controlCharacter else textLoop steps (char :: before)

def text : Reader String := do
  let chars ← textLoop ((← left) + 1) []
  pure (String.ofList chars)

def skipEscape : Reader Unit := do
  match ← take .openString .badEscape escape? with
  | .char _ => pure ()
  | .numeric => do
      let _ ← hexQuad
      pure ()

def skipTextLoop : Nat → Reader Unit
  | 0 => fail .openString
  | steps + 1 => do
      match ← peek with
      | none => fail .openString
      | some '"' => skip
      | some '\\' => do
          skip
          skipEscape
          skipTextLoop steps
      | some char =>
          if char.toNat < 0x20 then fail .controlCharacter
          else do
            skip
            skipTextLoop steps

def skipText : Reader Unit := do skipTextLoop ((← left) + 1)

end RankMail.Json.Reader
