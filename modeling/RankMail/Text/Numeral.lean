set_option autoImplicit false

/-! # Numerals

The written forms of numbers other than the plain decimal one: hexadecimal with lower-case
letters, and decimal filled up with zeros on the left.
-/

namespace RankMail.Text

def hexDigits (number : Nat) : String := String.ofList (Nat.toDigits 16 number)

/-- A number in hexadecimal, marked as such. -/
def hex (number : Nat) : String := "0x" ++ hexDigits number

/-- A number in decimal, with at least `width` digits. -/
def padded (width number : Nat) : String :=
  let digits := toString number
  String.ofList (List.replicate (width - digits.length) '0') ++ digits

end RankMail.Text
