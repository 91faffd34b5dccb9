import RankMail.Json.Reader

set_option autoImplicit false

/-! # Numbers in a JSON text

A number without a fraction and an exponent is read exactly as long as it fits 64 bits. Every
other number becomes a double: as many leading digits as fit 64 bits, scaled by a power of ten in
double arithmetic.
-/

namespace RankMail.Json

inductive Number where
  | unsigned (value : Nat)
  | negative (value : Int)
  | double (bits : UInt64)
deriving Repr, DecidableEq

def Number.found : Number → Found
  | unsigned value => .integer value
  | negative value => .integer value
  | double bits => .double bits

namespace Reader

def digitValue (char : Char) : Nat := char.toNat - '0'.toNat

def digitValue? (char : Char) : Option Nat :=
  if char.isDigit then some (digitValue char) else none

/-- Passes over the digits that follow and returns them. -/
def digits : Reader (List Char) := fun cursor =>
  let found := cursor.rest.takeWhile Char.isDigit
  .ok found (cursor.drop found.length)

/-- Appends digits to a number as long as it fits 64 bits; the digits left over come second. -/
def absorb : Nat → List Char → Nat × List Char
  | value, [] => (value, [])
  | value, digit :: rest =>
      let longer := value * 10 + digitValue digit
      if longer < 2 ^ 64 then absorb longer rest else (value, digit :: rest)

/-- Powers of ten beyond this one are not doubles. -/
def greatestPower : Nat := 308

/-- A double divided by powers of ten until the exponent that is left is that of a double, then
scaled; none if it grows beyond the doubles. -/
def scale : Nat → Float → Int → Option Float
  | steps, value, exponent =>
      if exponent.natAbs ≤ greatestPower then
        let power := Float.ofScientific 1 false exponent.natAbs
        if 0 ≤ exponent then
          let scaled := value * power
          if scaled.isInf then none else some scaled
        else some (value / power)
      else if value == 0.0 then some value
      else if 0 ≤ exponent then none
      else
        match steps with
        | 0 => some 0.0
        | steps + 1 =>
            scale steps (value / Float.ofScientific 1 false greatestPower)
              (exponent + greatestPower)

def ofParts (positive : Bool) (value : Nat) (exponent : Int) : Reader Number :=
  match scale 3 value.toUInt64.toFloat exponent with
  | none => fail .numberTooLarge
  | some magnitude => pure (.double (if positive then magnitude else -magnitude).toBits)

/-- The exponents that are read exactly. -/
def exponentLimit : Nat := 2 ^ 31

/-- Reads digits of an exponent until it passes the limit; whether it stayed below. -/
def exponentDigits : Nat → Nat → Reader (Option Nat)
  | 0, value => pure (some value)
  | steps + 1, value => do
      match ← peek with
      | some char =>
          if char.isDigit then do
            skip
            let longer := value * 10 + digitValue char
            if longer < exponentLimit then exponentDigits steps longer else pure none
          else pure (some value)
      | none => pure (some value)

def exponent (positive : Bool) (value : Nat) (before : Int) : Reader Number := do
  skip
  let up ← (do
    match ← peek with
    | some '+' => do skip; pure true
    | some '-' => do skip; pure false
    | _ => pure true)
  let leading ← take .openValue .badNumber digitValue?
  match ← exponentDigits (← left) leading with
  | some power => ofParts positive value (if up then before + power else before - power)
  | none =>
      if value ≠ 0 ∧ up then fail .numberTooLarge
      else do
        let _ ← digits
        pure (.double (if positive then (0.0 : Float) else -0.0).toBits)

def afterDigits (positive : Bool) (value : Nat) (power : Int) : Reader Number := do
  match ← peek with
  | some 'e' => exponent positive value power
  | some 'E' => exponent positive value power
  | _ => ofParts positive value power

def fraction (positive : Bool) (value : Nat) (before : Int) : Reader Number := do
  skip
  let found ← digits
  if found.isEmpty then
    match ← peek with
    | some _ => failNext .badNumber
    | none => failNext .openValue
  else
    let (longer, left) := absorb value found
    afterDigits positive longer (before - ((found.length - left.length : Nat) : Int))

/-- What the digits of an integer stand for if nothing else belongs to the number. Zero with a
sign and integers beyond 64 bits with a sign are doubles. -/
def wholeNumber (positive : Bool) (value : Nat) : Number :=
  if positive then .unsigned value
  else if value = 0 ∨ 2 ^ 63 < value then .double (-value.toUInt64.toFloat).toBits
  else .negative (-value)

def afterInteger (positive : Bool) (value : Nat) : Reader Number := do
  match ← peek with
  | some '.' => fraction positive value 0
  | some 'e' => exponent positive value 0
  | some 'E' => exponent positive value 0
  | _ => pure (wholeNumber positive value)

def number (positive : Bool) : Reader Number := do
  match ← take .openValue .badNumber digitValue? with
  | 0 => do
      match ← peek with
      | some char => if char.isDigit then failNext .badNumber else afterInteger positive 0
      | none => afterInteger positive 0
  | leading => do
      let found ← digits
      let (value, left) := absorb leading found
      if left.isEmpty then afterInteger positive value
      else
        match ← peek with
        | some '.' => fraction positive value left.length
        | _ => afterDigits positive value left.length

end Reader

end RankMail.Json
