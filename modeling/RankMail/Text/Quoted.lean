import RankMail.Text.Numeral
import RankMail.Text.Marks

set_option autoImplicit false

/-! # Quoted text

Texts that came from outside are shown between double quotes in messages. A quote, a backslash
and the usual control characters have short escapes; every other character without a picture of
its own is written by its number.
-/

namespace RankMail.Text

def quotedChar (char : Char) : String :=
  match char with
  | '\x00' => "\\0"
  | '\t' => "\\t"
  | '\n' => "\\n"
  | '\r' => "\\r"
  | '"' => "\\\""
  | '\\' => "\\\\"
  | other =>
      if isMark other then "\\u\x7b" ++ hexDigits other.toNat ++ "\x7d" else String.singleton other

def quoted (text : String) : String :=
  "\"" ++ String.join (text.toList.map quotedChar) ++ "\""

end RankMail.Text
