import RankMail.Proofs.Json.Values

set_option autoImplicit false

/-! # Reading objects

An object is a row of members, each a name, a colon and the tokens of a value, with commas between
them. `membersLoop` reads them into a draft: if each member has a slot that is not taken yet and
reads its value (`Fills`), the draft is filled and the end of the object is left to be read.
-/

namespace RankMail.Json

/-- A member of an object: its name and the tokens of its value. -/
structure Member where
  name : String
  value : List Token
deriving Repr, DecidableEq

/-- The tokens of some members, the first of which has no comma before it if the object has just
begun. -/
def memberTokens : Bool → List Member → List Token
  | _, [] => []
  | true, first :: rest => .text first.name :: .colon :: (first.value ++ memberTokens false rest)
  | false, first :: rest =>
      .comma :: .text first.name :: .colon :: (first.value ++ memberTokens false rest)

def objectTokens (members : List Member) : List Token :=
  .opening :: (memberTokens true members ++ [.closing])

/-- A member ends where the next one or the end of the object begins. -/
theorem ends_members (members : List Member) (rest : List Token) :
    Ends (memberTokens false members ++ .closing :: rest) := by
  cases members <;> trivial

theorem length_le_memberTokens (isFirst : Bool) (members : List Member) :
    members.length ≤ (memberTokens isFirst members).length := by
  induction members generalizing isFirst with
  | nil => exact Nat.zero_le _
  | cons member members ih =>
      have later := ih false
      cases isFirst <;> simp [memberTokens] <;> omega

namespace Reader

variable {α Draft : Type} {cursor : Cursor} {tokens rest : List Token} {members : List Member}
  {member : Member}

/-- A reader takes all members of an object and leaves its end. -/
def ReadsInside (reader : Reader α) (members : List Member) (value : α) : Prop :=
  ∀ cursor rest, Spaced (memberTokens true members ++ .closing :: rest) cursor.rest →
    ∃ after, reader cursor = .ok value after ∧ Spaced (.closing :: rest) after.rest

/-- The name of the next member is read. -/
theorem nextName_eq {isFirst : Bool} (plain : isPlainText member.name = true)
    (spaced : Spaced (memberTokens isFirst (member :: members) ++ rest) cursor.rest) :
    ∃ after, nextName isFirst cursor = .ok (some member.name) after ∧
      Spaced (.colon :: (member.value ++ (memberTokens false members ++ rest))) after.rest := by
  rw [← List.append_assoc, ← List.cons_append]
  cases isFirst with
  | true =>
      obtain ⟨shown, tail, peeks, left, spacedRest⟩ := peekToken_eq spaced
      obtain ⟨after, reads, gone⟩ := text_of_token plain left spacedRest
      refine ⟨after, (bind_eq peeks _).trans ?_, gone⟩
      exact (bind_eq (skip_eq shown) _).trans (by
        simp only [Functor.map, EStateM.map, reads])
  | false =>
      obtain ⟨shown, tail, peeks, left, spacedRest⟩ := peekToken_eq spaced
      have gone : Spaced _ shown.next.rest := rest_next_of_single left spacedRest
      obtain ⟨named, more, peeksName, leftName, spacedMore⟩ := peekToken_eq gone
      obtain ⟨after, reads, done⟩ := text_of_token plain leftName spacedMore
      refine ⟨after, (bind_eq peeks _).trans ?_, done⟩
      refine (bind_eq (skip_eq shown) _).trans ((bind_eq peeksName _).trans ?_)
      exact (bind_eq (skip_eq named) _).trans (by
        simp only [Functor.map, EStateM.map, reads])

/-- At the end of an object there is no further name, and the end stays. -/
theorem nextName_end {isFirst : Bool} (spaced : Spaced (.closing :: rest) cursor.rest) :
    ∃ after, nextName isFirst cursor = .ok none after ∧
      Spaced (.closing :: rest) after.rest := by
  obtain ⟨shown, tail, peeks, left, spacedRest⟩ := peekToken_eq spaced
  refine ⟨shown, bind_eq peeks _, ?_⟩
  rw [left]
  exact spacedRest.tight

/-- Members that fill a draft: each has a slot of its own, which is not taken before and reads the
value. -/
inductive Fills (slots : List (Slot Draft)) : Draft → List Member → Draft → Prop
  | nil {draft : Draft} : Fills slots draft [] draft
  | cons {draft longer final : Draft} {member : Member} {members : List Member}
      {slot : Slot Draft} (plain : isPlainText member.name = true)
      (found : slots.find? (fun slot => slot.name == member.name) = some slot)
      (free : slot.taken draft = false) (reads : Reads (slot.read draft) member.value longer)
      (rest : Fills slots longer members final) : Fills slots draft (member :: members) final

/-- A draft that is told by the fields it has is filled by the members of further fields, one after
the other, in whatever order they come. -/
theorem fills_of_fields {Field : Type} {slots : List (Slot Draft)} (member : Field → Member)
    (draft : List Field → Draft) (plain : ∀ field, isPlainText (member field).name = true)
    (step : ∀ {done field}, field ∉ done → ∃ slot,
      slots.find? (fun slot => slot.name == (member field).name) = some slot ∧
      slot.taken (draft done) = false ∧
      Reads (slot.read (draft done)) (member field).value (draft (done ++ [field])))
    (done rest : List Field) (nodup : (done ++ rest).Nodup) :
    Fills slots (draft done) (rest.map member) (draft (done ++ rest)) := by
  induction rest generalizing done with
  | nil =>
      rw [List.append_nil]
      exact .nil
  | cons field rest ih =>
      have away : field ∉ done := fun inside =>
        (List.nodup_append.mp nodup).2.2 field inside field List.mem_cons_self rfl
      have later : done ++ field :: rest = done ++ [field] ++ rest := by simp
      obtain ⟨slot, found, free, reads⟩ := step away
      rw [later] at nodup ⊢
      exact .cons (plain field) found free reads (ih (done ++ [field]) nodup)

theorem membersLoop_eq {slots : List (Slot Draft)} {draft final : Draft}
    (fills : Fills slots draft members final) (steps : Nat) (enough : members.length < steps)
    {isFirst : Bool}
    (spaced : Spaced (memberTokens isFirst members ++ .closing :: rest) cursor.rest) :
    ∃ after, membersLoop slots steps isFirst draft cursor = .ok final after ∧
      Spaced (.closing :: rest) after.rest := by
  induction fills generalizing steps isFirst cursor with
  | nil =>
      obtain ⟨steps, rfl⟩ := Nat.exists_eq_succ_of_ne_zero (Nat.ne_of_gt enough)
      obtain ⟨after, reads, gone⟩ := nextName_end spaced
      exact ⟨after, (bind_eq reads _).trans rfl, gone⟩
  | @cons draft longer final member members slot plain found free reads _ ih =>
      obtain ⟨steps, rfl⟩ := Nat.exists_eq_succ_of_ne_zero (Nat.ne_of_gt (Nat.zero_lt_of_lt enough))
      obtain ⟨named, readsName, spacedName⟩ := nextName_eq plain spaced
      obtain ⟨parted, readsColon, spacedColon⟩ := colon_eq spacedName
      obtain ⟨valued, readsValue, spacedValue⟩ := reads _ _ (ends_members members rest) spacedColon
      obtain ⟨after, goesOn, gone⟩ := ih steps (Nat.lt_of_succ_lt_succ enough) spacedValue
      refine ⟨after, ?_, gone⟩
      rw [membersLoop, bind_eq readsName]
      simp only [found, free, Bool.false_eq_true, if_false]
      rw [bind_eq readsColon, bind_eq readsValue]
      exact goesOn

/-- Members that fill a draft are all read, with steps enough for each. -/
theorem members_reads {slots : List (Slot Draft)} {draft final : Draft}
    (fills : Fills slots draft members final) :
    ReadsInside (Reader.members slots draft) members final := by
  intro cursor rest spaced
  have enough : members.length < cursor.rest.length + 1 := by
    have tokens := length_le_memberTokens true members
    have chars := spaced.length_le
    rw [List.length_append] at chars
    omega
  have counted : left cursor = .ok cursor.rest.length cursor := rfl
  obtain ⟨after, reads, gone⟩ := membersLoop_eq fills _ enough spaced
  exact ⟨after, (bind_eq counted _).trans reads, gone⟩

/-- A record is read from an object whose members its reader takes. -/
theorem record_reads {depth : Nat} {expected : String} {inObject inList : Nat → Reader α}
    {value : α} (inside : ReadsInside (inObject (depth + 1)) members value) :
    Reads (record (depth + 2) expected inObject inList) (objectTokens members) value := by
  intro cursor rest _ spaced
  obtain ⟨shown, tail, peeks, left, spacedRest⟩ := peekToken_eq spaced
  have entered : Spaced (memberTokens true members ++ .closing :: rest) shown.next.rest := by
    have gone : Spaced (memberTokens true members ++ [.closing] ++ rest) shown.next.rest :=
      rest_next_of_single left spacedRest
    rwa [List.append_assoc] at gone
  obtain ⟨final, reads, gone⟩ := inside _ _ entered
  obtain ⟨after, closes, done⟩ := endObject_eq gone
  refine ⟨after, (bind_eq peeks _).trans ?_, done⟩
  have whole : enclosed (inObject (depth + 1)) endObject shown.next = .ok value after := by
    simp only [enclosed, reads, closes]
  exact placed_eq ((bind_eq (skip_eq shown) _).trans whole)

theorem required_eq (name : String) (value : α) (cursor : Cursor) :
    required name (some value) cursor = .ok value cursor := rfl

/-- A text that is a value and nothing else is read as that value. -/
theorem run_eq {reader : Reader α} {value : α} {text : String} (reads : Reads reader tokens value)
    (spaced : Spaced tokens text.toList) : run reader text = .ok value := by
  have begins : Spaced (tokens ++ []) (Cursor.start text).rest := by
    rw [List.append_nil]
    exact spaced
  have ends : Ends [] := trivial
  obtain ⟨gone, done, left⟩ := reads _ _ ends begins
  obtain ⟨after, gone⟩ := endText_eq left
  have whole : (do let value ← reader; endText; pure value : Reader α) (Cursor.start text) =
      .ok value after := by
    rw [bind_eq done, bind_eq gone]
    rfl
  rw [run, whole]

end Reader

end RankMail.Json
