import RankMail.Proofs.Json.Tokens

set_option autoImplicit false

/-! # Reading single values

Numbers without a fraction, texts without escapes and truth values, each read off a text that
begins with its token. `Reads` is what is known of a reader that takes a value: it gives the value
and leaves the tokens that follow.
-/

namespace RankMail.Json.Reader

variable {α : Type} {cursor : Cursor} {tokens : List Token} {tail : List Char}

/-- A reader takes the tokens of a value, wherever the value ends. -/
def Reads (reader : Reader α) (tokens : List Token) (value : α) : Prop :=
  ∀ cursor rest, Ends rest → Spaced (tokens ++ rest) cursor.rest →
    ∃ after, reader cursor = .ok value after ∧ Spaced rest after.rest

theorem peek_eq (cursor : Cursor) : peek cursor = .ok cursor.rest.head? cursor := rfl

/-! ## Numbers -/

theorem chars_number (value : Nat) : (Token.number value).chars = Nat.toDigits 10 value := by
  rw [Token.chars, Nat.toString_eq_repr, Nat.toList_repr]

theorem ofDigitChars_ge (found : List Char) (value : Nat) :
    value ≤ Nat.ofDigitChars 10 found value := by
  induction found generalizing value with
  | nil => exact Nat.le_refl _
  | cons digit rest ih =>
      have later := ih (10 * value + (digit.toNat - '0'.toNat))
      rw [Nat.ofDigitChars_cons]
      omega

/-- Digits that make a number of 64 bits are all taken up. -/
theorem absorb_eq (value : Nat) (found : List Char)
    (small : Nat.ofDigitChars 10 found value < 2 ^ 64) :
    absorb value found = (Nat.ofDigitChars 10 found value, []) := by
  induction found generalizing value with
  | nil => rfl
  | cons digit rest ih =>
      have longer : value * 10 + digitValue digit = 10 * value + (digit.toNat - '0'.toNat) := by
        rw [digitValue, Nat.mul_comm]
      rw [Nat.ofDigitChars_cons] at small ⊢
      have bound := ofDigitChars_ge rest (10 * value + (digit.toNat - '0'.toNat))
      rw [absorb, longer]
      simp only [if_pos (Nat.lt_of_le_of_lt bound small)]
      exact ih _ small

/-- What a character does not follow a number with leaves it as it is. -/
theorem afterInteger_eq (value : Nat)
    (follow : ∀ char ∈ cursor.rest.head?,
      char.isDigit = false ∧ char ≠ '.' ∧ char ≠ 'e' ∧ char ≠ 'E') :
    afterInteger true value cursor = .ok (.unsigned value) cursor := by
  rw [afterInteger, bind_eq (peek_eq cursor)]
  cases shown : cursor.rest.head? with
  | none => rfl
  | some char =>
      obtain ⟨_, point, lower, upper⟩ := follow char (by rw [shown]; rfl)
      refine congrFun (?_ : _ = (pure (.unsigned value) : Reader Number)) cursor
      split
      · next same => exact absurd (Option.some.inj same) point
      · next same => exact absurd (Option.some.inj same) lower
      · next same => exact absurd (Option.some.inj same) upper
      · rfl

/-- The only digit without a value is the zero. -/
theorem eq_zero_of_digitValue {char : Char} (digit : char.isDigit = true)
    (none : digitValue char = 0) : char = '0' := by
  have low : '0'.toNat ≤ char.toNat := by
    simp only [Char.isDigit, Bool.and_eq_true, decide_eq_true_eq] at digit
    exact digit.1
  have same : char.toNat = '0'.toNat := by
    rw [digitValue] at none
    omega
  exact Char.toNat_inj.mp same

/-- The numeral of a number of 64 bits is read as that number. -/
theorem number_eq {value : Nat} (small : value < 2 ^ 64)
    (left : cursor.rest = Nat.toDigits 10 value ++ tail)
    (follow : ∀ char ∈ tail.head?, char.isDigit = false ∧ char ≠ '.' ∧ char ≠ 'e' ∧ char ≠ 'E') :
    ∃ after, number true cursor = .ok (.unsigned value) after ∧ after.rest = tail := by
  obtain ⟨first, more, same, zero⟩ := toDigits_head value
  have allDigits : ∀ char ∈ first :: more, char.isDigit = true := fun char inside =>
    isDigit_toDigits (same ▸ inside)
  have digit := allDigits first List.mem_cons_self
  have whole : Nat.ofDigitChars 10 more (digitValue first) = value := by
    have back : Nat.ofDigitChars 10 (Nat.toDigits 10 value) 0 = value :=
      Nat.ofDigitChars_ten_toDigits
    rw [same, Nat.ofDigitChars_cons, Nat.mul_zero, Nat.zero_add] at back
    exact back
  rw [same, List.cons_append] at left
  have passed : cursor.next.rest = more ++ tail := by rw [Cursor.rest_next, left, List.tail_cons]
  have taken : take .openValue .badNumber digitValue? cursor =
      .ok (digitValue first) cursor.next := by
    simp only [take, left, digitValue?, if_pos digit]
  rw [number, bind_eq taken]
  by_cases isZero : digitValue first = 0
  · -- A zero stands alone.
    obtain rfl := zero (eq_zero_of_digitValue digit isZero)
    obtain ⟨rfl, rfl⟩ : '0' = first ∧ [] = more := List.cons.inj same
    have ends : afterInteger true 0 cursor.next = .ok (.unsigned 0) cursor.next :=
      afterInteger_eq 0 (by rwa [passed])
    refine ⟨cursor.next, ?_, passed⟩
    refine (bind_eq (peek_eq cursor.next) _).trans ?_
    rw [passed, List.nil_append]
    cases shown : tail.head? with
    | none => exact ends
    | some char =>
        have other := (follow char (by rw [shown]; rfl)).1
        simp only [other]
        exact ends
  · obtain ⟨leading, filled⟩ := Nat.exists_eq_succ_of_ne_zero isZero
    have stops : (more ++ tail).takeWhile Char.isDigit = more := by
      rw [List.takeWhile_append_of_pos fun char inside =>
        allDigits char (List.mem_cons_of_mem _ inside)]
      cases tail with
      | nil => exact List.append_nil _
      | cons other tail =>
          have shown := (follow other rfl).1
          rw [List.takeWhile_cons_of_neg (by simp [shown]), List.append_nil]
    have found : digits cursor.next = .ok more (cursor.next.drop more.length) := by
      simp only [digits, passed, stops]
    have left : (cursor.next.drop more.length).rest = tail := by
      rw [Cursor.rest_drop, passed, List.drop_left]
    have absorbed : absorb (digitValue first) more = (value, []) := by
      rw [absorb_eq _ _ (by rwa [whole]), whole]
    rw [filled] at absorbed ⊢
    refine ⟨cursor.next.drop more.length, (bind_eq found _).trans ?_, left⟩
    simp only [absorbed]
    exact afterInteger_eq value (by rwa [left])

theorem unsigned_reads {limit value : Nat} (expected : String) (fits : value ≤ limit)
    (small : limit < 2 ^ 64) : Reads (unsigned limit expected) [.number value] value := by
  intro cursor rest ends spaced
  obtain ⟨shown, tail, peeks, left, spacedRest⟩ := peekToken_eq spaced
  obtain ⟨first, more, same, _⟩ := toDigits_head value
  have digit : first.isDigit = true := isDigit_toDigits (same ▸ List.mem_cons_self)
  rw [chars_number] at left peeks
  obtain ⟨after, reads, gone⟩ := number_eq (Nat.lt_of_le_of_lt fits small) left
    (spacedRest.head_of_ends ends)
  have whole : (do let found ← number true; unsignedOf limit expected found : Reader Nat) shown =
      .ok value after := by
    rw [bind_eq reads, unsignedOf, if_pos fits]
    rfl
  refine ⟨after, ?_, gone ▸ spacedRest⟩
  rw [unsigned, bind_eq peeks, same, List.head?_cons]
  refine Eq.trans (congrFun ?_ shown) (placed_eq whole)
  split
  · next none => cases none
  · next minus => exact absurd (Option.some.inj minus) (ne_of_isDigit digit).1
  · next char other =>
      obtain rfl := Option.some.inj other
      rw [if_pos digit]

/-- A digit begins a number, where any value may stand. -/
theorem leaf_number {value : Nat} (small : value < 2 ^ 64) {first : Char} {more : List Char}
    (same : Nat.toDigits 10 value = first :: more)
    (left : cursor.rest = Nat.toDigits 10 value ++ tail)
    (follow : ∀ char ∈ tail.head?, char.isDigit = false ∧ char ≠ '.' ∧ char ≠ 'e' ∧ char ≠ 'E') :
    ∃ after, leaf first cursor = .ok (.number (.unsigned value)) after ∧ after.rest = tail := by
  have digit : first.isDigit = true := isDigit_toDigits (same ▸ List.mem_cons_self)
  obtain ⟨minus, quote, null, yes, no, _, _⟩ := ne_of_isDigit digit
  obtain ⟨after, reads, gone⟩ := number_eq small left follow
  refine ⟨after, ?_, gone⟩
  have whole : (do let found ← number true; pure (.number found) : Reader Value) cursor =
      .ok (.number (.unsigned value)) after := by
    rw [bind_eq reads]
    rfl
  refine Eq.trans (congrFun ?_ cursor) whole
  rw [leaf, if_pos digit]
  · exact null
  · exact yes
  · exact no
  · exact minus
  · exact quote

/-- A number is kept as such, where any value may stand. -/
theorem value_number_reads {number : Nat} (small : number < 2 ^ 64) (depth : Nat) :
    Reads (value (depth + 1)) [.number number] (.number (.unsigned number)) := by
  intro cursor rest ends spaced
  obtain ⟨shown, tail, peeks, left, spacedRest⟩ := peekToken_eq spaced
  obtain ⟨first, more, same, _⟩ := toDigits_head number
  have digit : first.isDigit = true := isDigit_toDigits (same ▸ List.mem_cons_self)
  obtain ⟨_, _, _, _, _, list, object⟩ := ne_of_isDigit digit
  rw [chars_number] at left peeks
  obtain ⟨after, reads, gone⟩ := leaf_number small same left (spacedRest.head_of_ends ends)
  refine ⟨after, ?_, gone ▸ spacedRest⟩
  rw [value, bind_eq peeks, same, List.head?_cons]
  refine Eq.trans (congrFun ?_ shown) reads
  split
  · next none => cases none
  · next other => exact absurd (Option.some.inj other) list
  · next other => exact absurd (Option.some.inj other) object
  · next char other =>
      obtain rfl := Option.some.inj other
      rfl

/-! ## Texts -/

/-- A character that stands for itself in a text. -/
def isPlain (char : Char) : Bool :=
  char != '"' && char != '\\' && !decide (char.toNat < 0x20)

theorem isPlain_iff {char : Char} :
    isPlain char = true ↔ char ≠ '"' ∧ char ≠ '\\' ∧ ¬char.toNat < 0x20 := by
  simp [isPlain, and_assoc]

/-- A text without escapes is read up to its closing quote. -/
theorem textLoop_eq {content : List Char} (plain : ∀ char ∈ content, isPlain char = true)
    (steps : Nat) (enough : content.length < steps) (before : List Char)
    (left : cursor.rest = content ++ '"' :: tail) :
    ∃ after, textLoop steps before cursor = .ok (before.reverse ++ content) after ∧
      after.rest = tail := by
  induction content generalizing steps before cursor with
  | nil =>
      obtain ⟨steps, rfl⟩ := Nat.exists_eq_succ_of_ne_zero (Nat.ne_of_gt enough)
      refine ⟨cursor.next, ?_, by rw [Cursor.rest_next, left]; rfl⟩
      rw [textLoop, bind_eq (peek_eq cursor), left, List.append_nil]
      rfl
  | cons char content ih =>
      obtain ⟨steps, rfl⟩ := Nat.exists_eq_succ_of_ne_zero (Nat.ne_of_gt (Nat.zero_lt_of_lt enough))
      obtain ⟨quote, slash, visible⟩ := isPlain_iff.mp (plain char List.mem_cons_self)
      have passed : cursor.next.rest = content ++ '"' :: tail := by
        rw [Cursor.rest_next, left]
        rfl
      have plainRest : ∀ other ∈ content, isPlain other = true := fun other inside =>
        plain other (List.mem_cons_of_mem _ inside)
      obtain ⟨after, reads, gone⟩ := ih plainRest steps (Nat.lt_of_succ_lt_succ enough)
        (char :: before) passed
      refine ⟨after, ?_, gone⟩
      rw [textLoop, bind_eq (peek_eq cursor), left, List.cons_append, List.head?_cons]
      have goesOn : (skip >>= fun _ => if char.toNat < 0x20 then fail .controlCharacter
          else textLoop steps (char :: before) : Reader (List Char)) cursor =
          .ok (before.reverse ++ char :: content) after := by
        rw [bind_eq (skip_eq cursor), if_neg visible, reads, List.reverse_cons, List.append_assoc]
        rfl
      refine Eq.trans (congrFun ?_ cursor) goesOn
      split
      · next none => cases none
      · next other => exact absurd (Option.some.inj other) quote
      · next other => exact absurd (Option.some.inj other) slash
      · next same other =>
          obtain rfl := Option.some.inj other
          rfl

/-- A text without escapes. -/
def isPlainText (content : String) : Bool := content.toList.all isPlain

theorem text_eq {content : String} (plain : isPlainText content = true)
    (left : cursor.rest = content.toList ++ '"' :: tail) :
    ∃ after, text cursor = .ok content after ∧ after.rest = tail := by
  have enough : content.toList.length < cursor.rest.length + 1 := by
    rw [left, List.length_append]
    omega
  obtain ⟨after, reads, gone⟩ := textLoop_eq (List.all_eq_true.mp plain) _ enough [] left
  refine ⟨after, ?_, gone⟩
  have counted : Reader.left cursor = .ok cursor.rest.length cursor := rfl
  rw [text, bind_eq counted, bind_eq reads, List.reverse_nil, List.nil_append]
  simp only [String.ofList_toList]
  rfl

/-- After the quote that opens it, a text without escapes is read, and the tokens that remain are
left. -/
theorem text_of_token {content : String} (plain : isPlainText content = true)
    (left : cursor.rest = (Token.text content).chars ++ tail) (rest : Spaced tokens tail) :
    ∃ after, text cursor.next = .ok content after ∧ Spaced tokens after.rest := by
  have passed : cursor.next.rest = content.toList ++ '"' :: tail := by
    rw [Cursor.rest_next, left]
    simp [Token.chars]
  obtain ⟨after, reads, gone⟩ := text_eq plain passed
  exact ⟨after, reads, gone ▸ rest⟩

/-! ## Truth values -/

theorem word_eq (rest : List Char) (left : cursor.rest = rest ++ tail) :
    ∃ after, word rest cursor = .ok () after ∧ after.rest = tail := by
  induction rest generalizing cursor with
  | nil => exact ⟨cursor, rfl, left⟩
  | cons expected rest ih =>
      have taken : take .openValue .wordExpected
          (fun char => if char = expected then some () else none) cursor = .ok () cursor.next := by
        simp only [take, left, List.cons_append, if_pos]
      obtain ⟨after, reads, gone⟩ := ih (show cursor.next.rest = rest ++ tail by
        rw [Cursor.rest_next, left]
        rfl)
      exact ⟨after, (bind_eq taken _).trans reads, gone⟩

theorem boolean_reads (value : Bool) : Reads boolean [.truth value] value := by
  intro cursor rest _ spaced
  obtain ⟨shown, tail, peeks, left, spacedRest⟩ := peekToken_eq spaced
  have passed : shown.next.rest = (Token.truth value).chars.tail ++ tail := by
    rw [Cursor.rest_next, left]
    cases value <;> rfl
  obtain ⟨after, reads, gone⟩ := word_eq _ passed
  refine ⟨after, (bind_eq peeks _).trans ?_, gone ▸ spacedRest⟩
  cases value with
  | true => exact (bind_eq (skip_eq shown) _).trans (bind_eq reads _)
  | false => exact (bind_eq (skip_eq shown) _).trans (bind_eq reads _)

end RankMail.Json.Reader
