import RankMail.Power

set_option autoImplicit false

/-! # Shortest decimals

A double stands for a fraction `m * 2 ^ q`, and a decimal reads back as that double when it lies
between the midpoints to the double's two neighbours. `Decimal.shortest` finds the decimal of the
fewest digits that does, and the nearest of those: for one digit, two digits, and so on it tries
the two points of the decimal grid around the fraction, in exact arithmetic.

`Layout` says how such a decimal is then written out.
-/

namespace RankMail.Decimal

/-- A positive fraction with the ends of the interval of numbers that read back as it, all over
one denominator. -/
structure Interval where
  low : Nat
  value : Nat
  high : Nat
  denominator : Nat
  /-- Whether the ends themselves read back as the value. -/
  closed : Bool
deriving Repr, DecidableEq

/-- A decimal `digits * 10 ^ exponent`. -/
structure Number where
  digits : Nat
  exponent : Int
deriving Repr, DecidableEq

/-- The interval of a double that is neither zero nor infinite, by its bits without the sign. -/
def Interval.ofBits (bits : Nat) : Interval :=
  let fraction := bits % 2 ^ 52
  let field := bits / 2 ^ 52
  let significand := if field = 0 then fraction else fraction + 2 ^ 52
  let below := if fraction = 0 ∧ 1 < field then 1 else 2
  -- the value is `4 * significand * 2 ^ (power - 1077)`
  let power := if field = 0 then 1 else field
  let up := 2 ^ (power - 1077)
  { low := (4 * significand - below) * up
    value := 4 * significand * up
    high := (4 * significand + 2) * up
    denominator := 2 ^ (1077 - power)
    closed := significand % 2 == 0 }

def digitCount (number : Nat) : Nat := (toString number).length

/-- How many times a numerator below `denominator` has to be multiplied by ten to reach it. -/
def shortfall (denominator : Nat) : Nat → Nat → Nat
  | 0, _ => 0
  | steps + 1, numerator =>
      if denominator ≤ numerator then 0 else shortfall denominator steps (numerator * 10) + 1

/-- The power of ten of the leading digit of a fraction. -/
def leading (interval : Interval) : Int :=
  if interval.denominator ≤ interval.value then
    (digitCount (interval.value / interval.denominator) : Int) - 1
  else -(shortfall interval.denominator 400 interval.value : Int)

/-- Whether a point of the grid, as a multiple of the denominator, reads back as the value. -/
def Interval.holds (interval : Interval) (point : Nat) : Bool :=
  let scaled := point * interval.denominator
  if interval.closed then interval.low ≤ scaled && scaled ≤ interval.high
  else interval.low < scaled && scaled < interval.high

/-- The interval in units of `10 ^ exponent`. -/
def Interval.rescale (interval : Interval) (exponent : Int) : Interval :=
  let down := 10 ^ (-exponent).toNat
  { interval with
    low := interval.low * down
    value := interval.value * down
    high := interval.high * down
    denominator := interval.denominator * 10 ^ exponent.toNat }

/-- The nearest decimal with `count` digits, if it reads back as the value. -/
def atCount (interval : Interval) (count : Nat) : Option Number :=
  let exponent := leading interval - ((count : Int) - 1)
  let scaled := interval.rescale exponent
  let below := scaled.value / scaled.denominator
  let rest := scaled.value % scaled.denominator
  let nearBelow := 2 * rest < scaled.denominator
    || (2 * rest == scaled.denominator && below % 2 == 0)
  match scaled.holds below, scaled.holds (below + 1) with
  | true, true => some ⟨if nearBelow then below else below + 1, exponent⟩
  | true, false => some ⟨below, exponent⟩
  | false, true => some ⟨below + 1, exponent⟩
  | false, false => none

def Number.trim : Nat → Number → Number
  | 0, number => number
  | steps + 1, number =>
      if number.digits % 10 = 0 then trim steps ⟨number.digits / 10, number.exponent + 1⟩
      else number

/-- The shortest decimal that reads back as the value; seventeen digits always do. -/
def shortest (interval : Interval) : Number :=
  let found := (List.range' 1 17).findSome? (atCount interval)
  (found.getD ⟨0, 0⟩).trim 17

/-- How a decimal is written: where positional notation ends. -/
structure Layout where
  /-- The least power of ten of a leading digit that is written positionally. -/
  least : Int
  /-- The greatest one. -/
  greatest : Int
deriving Repr, DecidableEq

def zeros (count : Nat) : String := String.ofList (List.replicate count '0')

/-- A decimal without an exponent, with at least one digit on each side of the point. -/
def positional (digits : String) (exponent lead : Int) : String :=
  if 0 ≤ exponent then digits ++ zeros exponent.toNat ++ ".0"
  else if 0 ≤ lead then
    String.ofList (digits.toList.take (lead.toNat + 1)) ++ "."
      ++ String.ofList (digits.toList.drop (lead.toNat + 1))
  else "0." ++ zeros ((-lead).toNat - 1) ++ digits

/-- A decimal with one digit before the point and a signed exponent. -/
def scientific (digits : String) (lead : Int) : String :=
  let rest := digits.toList.drop 1
  String.ofList (digits.toList.take 1) ++ (if rest.isEmpty then "" else "." ++ String.ofList rest)
    ++ "e" ++ (if lead < 0 then "-" else "+") ++ toString lead.natAbs

def Layout.write (layout : Layout) (number : Number) : String :=
  let digits := toString number.digits
  let lead := number.exponent + ((digits.length : Int) - 1)
  if layout.least ≤ lead ∧ lead ≤ layout.greatest then positional digits number.exponent lead
  else scientific digits lead

/-- The written form of a finite double, by its bits. -/
def Layout.writeDouble (layout : Layout) (bits : UInt64) : String :=
  let magnitude := bits.toNat % 2 ^ 63
  let sign := if bits.toNat < 2 ^ 63 then "" else "-"
  if magnitude = 0 then sign ++ "0.0"
  else sign ++ layout.write (shortest (Interval.ofBits magnitude))

end RankMail.Decimal
