import RankMail.Json.Value

set_option autoImplicit false

/-! # Tokens of a JSON text

A text is a row of tokens, with any blanks before, between and after them (`Spaced`):

    {  "user"   :  192 ,"eager":4096   }

A reader that is given such a text passes over the tokens that belong to it and leaves a text of
the tokens that remain. For a number this needs that something else than a further digit follows,
which is so where a value ends (`Ends`).
-/

namespace RankMail.Json

/-! ## Tokens -/

/-- The tokens of objects whose values are numbers, texts, truth values and objects. -/
inductive Token where
  | opening
  | closing
  | colon
  | comma
  | text (content : String)
  | number (value : Nat)
  | truth (value : Bool)
deriving Repr, DecidableEq

namespace Token

def chars : Token → List Char
  | opening => ['{']
  | closing => ['}']
  | colon => [':']
  | comma => [',']
  | text content => '"' :: (content.toList ++ ['"'])
  | number value => (toString value).toList
  | truth true => ['t', 'r', 'u', 'e']
  | truth false => ['f', 'a', 'l', 's', 'e']

end Token

/-- A text of some tokens, with blanks before, between and after them. -/
inductive Spaced : List Token → List Char → Prop
  | nil {blanks : List Char} (blank : ∀ char ∈ blanks, Reader.isBlank char = true) :
      Spaced [] blanks
  | cons {blanks chars : List Char} {token : Token} {tokens : List Token}
      (blank : ∀ char ∈ blanks, Reader.isBlank char = true) (rest : Spaced tokens chars) :
      Spaced (token :: tokens) (blanks ++ (token.chars ++ chars))

/-- What may follow a value. -/
def Ends : List Token → Prop
  | [] => True
  | .closing :: _ => True
  | .comma :: _ => True
  | _ => False

/-! ## Digits -/

theorem toDigits_head (value : Nat) : ∃ first rest, Nat.toDigits 10 value = first :: rest ∧
    (first = '0' → value = 0) := by
  induction value using Nat.strongRecOn with
  | ind value ih =>
      by_cases small : value < 10
      · refine ⟨value.digitChar, [], Nat.toDigits_of_lt_base small, ?_⟩
        have digits : ∀ digit < 10, digit.digitChar = '0' → digit = 0 := by decide
        exact digits value small
      · obtain ⟨first, rest, same, zero⟩ := ih (value / 10) (by omega)
        refine ⟨first, rest ++ [(value % 10).digitChar], ?_, fun isZero => ?_⟩
        · rw [Nat.toDigits_of_base_le (by decide) (by omega), same, List.cons_append]
        · have none := zero isZero
          omega

theorem isDigit_toDigits {value : Nat} {char : Char} (inside : char ∈ Nat.toDigits 10 value) :
    char.isDigit = true :=
  Nat.isDigit_of_mem_toDigits (by decide) (by decide) inside

theorem ne_of_isDigit {char : Char} (digit : char.isDigit = true) :
    char ≠ '-' ∧ char ≠ '"' ∧ char ≠ 'n' ∧ char ≠ 't' ∧ char ≠ 'f' ∧ char ≠ '[' ∧ char ≠ '{' := by
  refine ⟨?_, ?_, ?_, ?_, ?_, ?_, ?_⟩ <;> (rintro rfl; revert digit; decide)

/-! ## Tokens in a text -/

namespace Token

theorem chars_head (token : Token) :
    ∃ first rest, token.chars = first :: rest ∧ Reader.isBlank first = false := by
  cases token with
  | number value =>
      obtain ⟨first, rest, same, _⟩ := toDigits_head value
      have digit : first.isDigit = true := isDigit_toDigits (same ▸ List.mem_cons_self)
      refine ⟨first, rest, by rw [chars, Nat.toString_eq_repr, Nat.toList_repr, same], ?_⟩
      rw [Bool.eq_false_iff]
      intro blank
      simp only [Reader.isBlank, Bool.or_eq_true, beq_iff_eq] at blank
      rcases blank with ((rfl | rfl) | rfl) | rfl <;> exact absurd digit (by decide)
  | truth value => cases value <;> exact ⟨_, _, rfl, rfl⟩
  | _ => exact ⟨_, _, rfl, rfl⟩

end Token

namespace Spaced

variable {token : Token} {tokens : List Token} {text : List Char}

theorem split (spaced : Spaced (token :: tokens) text) : ∃ blanks tail,
    (∀ char ∈ blanks, Reader.isBlank char = true) ∧ text = blanks ++ (token.chars ++ tail) ∧
      Spaced tokens tail := by
  cases spaced with
  | cons blank rest => exact ⟨_, _, blank, rfl, rest⟩

theorem tight (spaced : Spaced tokens text) : Spaced (token :: tokens) (token.chars ++ text) :=
  .cons (List.forall_mem_nil _) spaced

theorem of_flatMap {blanks : List Char} (blank : ∀ char ∈ blanks, Reader.isBlank char = true)
    (tokens : List Token) : Spaced tokens (tokens.flatMap fun token => blanks ++ token.chars) := by
  induction tokens with
  | nil => exact .nil (List.forall_mem_nil _)
  | cons token tokens ih =>
      rw [List.flatMap_cons, List.append_assoc]
      exact .cons blank ih

theorem length_le (spaced : Spaced tokens text) : tokens.length ≤ text.length := by
  induction spaced with
  | nil => exact Nat.zero_le _
  | @cons blanks chars token tokens blank rest ih =>
      obtain ⟨first, more, same, _⟩ := token.chars_head
      simp only [List.length_append, same, List.length_cons]
      omega

/-- What follows a value does not go on with a number. -/
theorem head_of_ends (spaced : Spaced tokens text) (ends : Ends tokens) :
    ∀ char ∈ text.head?, char.isDigit = false ∧ char ≠ '.' ∧ char ≠ 'e' ∧ char ≠ 'E' := by
  have ofBlank : ∀ char, Reader.isBlank char = true →
      char.isDigit = false ∧ char ≠ '.' ∧ char ≠ 'e' ∧ char ≠ 'E' := by
    intro char blank
    simp only [Reader.isBlank, Bool.or_eq_true, beq_iff_eq] at blank
    rcases blank with ((rfl | rfl) | rfl) | rfl <;> decide
  cases spaced with
  | nil blank =>
      intro char first
      exact ofBlank char (blank char (List.mem_of_head? first))
  | @cons blanks chars token tokens blank rest =>
      cases blanks with
      | cons other blanks =>
          intro char first
          obtain rfl := Option.some.inj first
          exact ofBlank _ (blank _ List.mem_cons_self)
      | nil =>
          intro char first
          cases token with
          | closing =>
              obtain rfl := Option.some.inj first
              decide
          | comma =>
              obtain rfl := Option.some.inj first
              decide
          | _ => exact ends.elim

end Spaced

/-! ## Moving on -/

namespace Cursor

theorem rest_next (cursor : Cursor) : cursor.next.rest = cursor.rest.tail := by
  unfold next
  split <;> simp_all

theorem rest_drop (cursor : Cursor) (count : Nat) :
    (cursor.drop count).rest = cursor.rest.drop count := by
  induction count generalizing cursor with
  | zero => rfl
  | succ count ih => rw [drop, ih, rest_next, List.drop_tail]

end Cursor

namespace Reader

variable {α β : Type} {reader : Reader α} {cursor after : Cursor} {value : α}

theorem bind_eq (reads : reader cursor = .ok value after) (next : α → Reader β) :
    (reader >>= next) cursor = next value after := by
  simp only [bind, EStateM.bind, reads]

theorem placed_eq (reads : reader cursor = .ok value after) :
    placed reader cursor = .ok value after := by
  simp only [placed, reads]

variable {token : Token} {tokens : List Token}

theorem peekToken_eq (spaced : Spaced (token :: tokens) cursor.rest) :
    ∃ after tail, peekToken cursor = .ok token.chars.head? after ∧
      after.rest = token.chars ++ tail ∧ Spaced tokens tail := by
  obtain ⟨blanks, tail, blank, same, rest⟩ := spaced.split
  obtain ⟨first, more, chars, shown⟩ := token.chars_head
  have passed : cursor.rest.takeWhile isBlank = blanks := by
    rw [same, chars, List.takeWhile_append_of_pos blank, List.cons_append,
      List.takeWhile_cons_of_neg (by simp [shown]), List.append_nil]
  have left : (cursor.drop blanks.length).rest = token.chars ++ tail := by
    rw [Cursor.rest_drop, same, List.drop_left]
  refine ⟨cursor.drop blanks.length, tail, ?_, left, rest⟩
  simp only [peekToken, passed, left, chars, List.cons_append, List.head?_cons]

theorem skip_eq (cursor : Cursor) : skip cursor = .ok () cursor.next := rfl

/-- After the first character of a token that is a single one come the tokens that remain. -/
theorem rest_next_of_single {char : Char} {tail : List Char} (left : cursor.rest = [char] ++ tail)
    (rest : Spaced tokens tail) : Spaced tokens cursor.next.rest := by
  rw [Cursor.rest_next, left]
  exact rest

theorem colon_eq (spaced : Spaced (.colon :: tokens) cursor.rest) :
    ∃ after, colon cursor = .ok () after ∧ Spaced tokens after.rest := by
  obtain ⟨shown, tail, peeks, left, rest⟩ := peekToken_eq spaced
  exact ⟨shown.next, bind_eq peeks _, rest_next_of_single left rest⟩

theorem endObject_eq (spaced : Spaced (.closing :: tokens) cursor.rest) :
    ∃ after, endObject cursor = .ok () after ∧ Spaced tokens after.rest := by
  obtain ⟨shown, tail, peeks, left, rest⟩ := peekToken_eq spaced
  exact ⟨shown.next, bind_eq peeks _, rest_next_of_single left rest⟩

theorem endText_eq (spaced : Spaced [] cursor.rest) :
    ∃ after, endText cursor = .ok () after := by
  have blank : ∀ char ∈ cursor.rest, isBlank char = true := by
    cases spaced with
    | nil blank => exact blank
  have passed : (cursor.rest ++ []).takeWhile isBlank = cursor.rest ++ [] :=
    List.takeWhile_append_of_pos blank
  rw [List.append_nil] at passed
  have left : (cursor.drop cursor.rest.length).rest = [] := by
    rw [Cursor.rest_drop, List.drop_length]
  have peeks : peekToken cursor = .ok none (cursor.drop cursor.rest.length) := by
    simp only [peekToken, passed, left, List.head?_nil]
  exact ⟨_, bind_eq peeks _⟩

end Reader

end RankMail.Json
