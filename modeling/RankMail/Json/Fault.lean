import RankMail.Text.Quoted
import RankMail.Decimal.Shortest

set_option autoImplicit false

/-! # Faults in a JSON text

Why a text was refused, and where. A `Cause` is either a matter of the text alone (it ends too
early, or it is not JSON) or a matter of what the text says (a value of the wrong kind, a missing
member). A cause of the second sort is found without a position; the reader fills one in
when it leaves the value in which it arose.
-/

namespace RankMail.Json

/-- What stood in the text where something else was expected. -/
inductive Found where
  | null
  | boolean (value : Bool)
  | integer (value : Int)
  /-- A number with a fraction or an exponent, or beyond 64 bits, by the bits of its double. -/
  | double (bits : UInt64)
  | text (value : String)
  | list
  | object
deriving Repr, DecidableEq

/-- Numbers are positional for leading digits from 10 ^ -5 to 10 ^ 15. -/
def doubleLayout : Decimal.Layout := ⟨-5, 15⟩

def Found.describe : Found → String
  | null => "null"
  | boolean value => "boolean `" ++ (if value then "true" else "false") ++ "`"
  | integer value => "integer `" ++ toString value ++ "`"
  | double bits => "floating point `" ++ doubleLayout.writeDouble bits ++ "`"
  | text value => "string " ++ Text.quoted value
  | list => "sequence"
  | object => "map"

/-- Why a text was refused. -/
inductive Cause where
  -- the text ends too early
  | openList
  | openObject
  | openString
  | openValue
  -- the text is not JSON
  | colonExpected
  | listEndExpected
  | objectEndExpected
  | wordExpected
  | valueExpected
  | badEscape
  | badNumber
  | numberTooLarge
  | controlCharacter
  | keyNotString
  | loneSurrogate
  | trailingComma
  | trailingText
  | surrogateCut
  | tooDeep
  -- the text does not describe what is wanted
  | missingMember (name : String)
  | repeatedMember (name : String)
  | wrongKind (found : Found) (expected : String)
  | wrongValue (found : Found) (expected : String)
  | wrongLength (length : Nat) (expected : String)
  | unknownVariant (name first second : String)
deriving Repr, DecidableEq

inductive Category where
  | early
  | grammar
  | content
deriving Repr, DecidableEq

namespace Cause

def category : Cause → Category
  | openList | openObject | openString | openValue => .early
  | missingMember _ | repeatedMember _ | wrongKind _ _ | wrongValue _ _ | wrongLength _ _
  | unknownVariant _ _ _ => .content
  | _ => .grammar

def message : Cause → String
  | openList => "EOF while parsing a list"
  | openObject => "EOF while parsing an object"
  | openString => "EOF while parsing a string"
  | openValue => "EOF while parsing a value"
  | colonExpected => "expected `:`"
  | listEndExpected => "expected `,` or `]`"
  | objectEndExpected => "expected `,` or `\x7d`"
  | wordExpected => "expected ident"
  | valueExpected => "expected value"
  | badEscape => "invalid escape"
  | badNumber => "invalid number"
  | numberTooLarge => "number out of range"
  | controlCharacter => "control character (\\u0000-\\u001F) found while parsing a string"
  | keyNotString => "key must be a string"
  | loneSurrogate => "lone leading surrogate in hex escape"
  | trailingComma => "trailing comma"
  | trailingText => "trailing characters"
  | surrogateCut => "unexpected end of hex escape"
  | tooDeep => "recursion limit exceeded"
  | missingMember name => "missing field `" ++ name ++ "`"
  | repeatedMember name => "duplicate field `" ++ name ++ "`"
  | wrongKind found expected => "invalid type: " ++ found.describe ++ ", expected " ++ expected
  | wrongValue found expected => "invalid value: " ++ found.describe ++ ", expected " ++ expected
  | wrongLength length expected =>
      "invalid length " ++ toString length ++ ", expected " ++ expected
  | unknownVariant name first second =>
      "unknown variant `" ++ name ++ "`, expected `" ++ first ++ "` or `" ++ second ++ "`"

end Cause

/-- A line, counted from one, and the bytes of it that precede. -/
structure Position where
  line : Nat
  column : Nat
deriving Repr, DecidableEq

/-- A cause with the position where it was noticed, once that is known. -/
structure Fault where
  cause : Cause
  position : Option Position
deriving Repr, DecidableEq

namespace Fault

def message (fault : Fault) : String := fault.cause.message

/-- The position of a fault; line zero if there is none. -/
def line (fault : Fault) : Nat := (fault.position.map Position.line).getD 0

def column (fault : Fault) : Nat := (fault.position.map Position.column).getD 0

end Fault

end RankMail.Json
