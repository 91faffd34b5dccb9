import Mathlib.Data.List.Infix
import Mathlib.Data.List.Nodup
import RankMail.Offset

set_option autoImplicit false

/-! # Broken chains

While a sender stands between its two steps, the chain of a queue is broken: the fragment that was
the tail is not linked, and the sender owes it the link. `Strung` describes such a chain. Every
fragment of a line is either linked to the next one, or unlinked with the link owed, and the last
one is unlinked.

A line changes in three ways, each of which keeps it strung: a fragment is put at its end, with the
link to it owed (`Strung.append`), an owed link is made (`Strung.pay`), and the first fragment is
taken away (`Strung.tail`).
-/

namespace RankMail

/-- Two fragments stand in a line, the one right before the other. -/
def Adjacent (before after : Offset) (line : List Offset) : Prop := [before, after] <:+: line

/-- A fragment is linked to the next one, or the link is owed. -/
def Joined (link : Offset → Offset) (owed : Offset → Offset → Prop) (before after : Offset) :
    Prop :=
  (owed before after ∧ link before = .free) ∨ (¬owed before after ∧ link before = after)

/-- Each fragment of a line is joined to the next one, and the last one is unlinked. -/
def Strung (link : Offset → Offset) (owed : Offset → Offset → Prop) : List Offset → Prop
  | [] => True
  | [last] => link last = .free
  | before :: after :: rest => Joined link owed before after ∧ Strung link owed (after :: rest)

variable {link relinked : Offset → Offset} {owed owing : Offset → Offset → Prop}
  {before after other first last added : Offset} {line rest : List Offset}

/-! ## Neighbours in a line -/

theorem adjacent_cons : Adjacent before after (first :: other :: rest) ↔
    (before = first ∧ after = other) ∨ Adjacent before after (other :: rest) := by
  rw [Adjacent, List.infix_cons_iff, Adjacent]
  simp

theorem not_adjacent_single : ¬Adjacent before after [first] := by
  intro adjacent
  have short := adjacent.length_le
  simp at short

theorem Adjacent.left (adjacent : Adjacent before after line) : before ∈ line :=
  adjacent.subset (by simp)

theorem Adjacent.right (adjacent : Adjacent before after line) : after ∈ line :=
  adjacent.subset (by simp)

theorem Adjacent.append (adjacent : Adjacent before after line) (more : List Offset) :
    Adjacent before after (line ++ more) :=
  adjacent.trans (List.prefix_append line more).isInfix

theorem adjacent_last (ends : line.getLast? = some last) :
    Adjacent last added (line ++ [added]) := by
  obtain ⟨start, rfl⟩ := List.getLast?_eq_some_iff.mp ends
  exact ⟨start, [], by simp⟩

theorem Adjacent.unique (nodup : line.Nodup) (one : Adjacent before after line)
    (two : Adjacent before other line) : after = other := by
  induction line with
  | nil => cases one.left
  | cons first rest ih =>
      cases rest with
      | nil => exact absurd one not_adjacent_single
      | cons second more =>
          obtain ⟨alone, nodupRest⟩ := List.nodup_cons.mp nodup
          rcases adjacent_cons.mp one with ⟨rfl, rfl⟩ | one <;>
            rcases adjacent_cons.mp two with ⟨same, rfl⟩ | two
          · rfl
          · exact absurd two.left alone
          · exact absurd (same ▸ one.left) alone
          · exact ih nodupRest one two

/-! ## How a line may change -/

theorem Strung.congr (strung : Strung link owed line)
    (links : ∀ offset ∈ line, relinked offset = link offset)
    (owes : ∀ before after, Adjacent before after line → (owing before after ↔ owed before after)) :
    Strung relinked owing line := by
  induction line with
  | nil => trivial
  | cons first rest ih =>
      cases rest with
      | nil => exact (links first List.mem_cons_self).trans strung
      | cons second rest =>
          have further : Strung relinked owing (second :: rest) :=
            ih strung.2 (fun offset inside => links offset (List.mem_cons_of_mem _ inside))
              fun before after adjacent => owes before after (adjacent_cons.mpr (.inr adjacent))
          refine ⟨?_, further⟩
          have here := owes first second (adjacent_cons.mpr (.inl ⟨rfl, rfl⟩))
          have same := links first List.mem_cons_self
          rcases strung.1 with ⟨owe, unlinked⟩ | ⟨paid, linked⟩
          · exact .inl ⟨here.mpr owe, same.trans unlinked⟩
          · exact .inr ⟨fun owe => paid (here.mp owe), same.trans linked⟩

theorem Strung.tail (strung : Strung link owed (first :: line)) : Strung link owed line := by
  cases line with
  | nil => trivial
  | cons second rest => exact strung.2

theorem Strung.cons (strung : Strung link owed (other :: rest))
    (joined : Joined link owed first other) :
    Strung link owed (first :: other :: rest) := ⟨joined, strung⟩

theorem Strung.link_mem {offset : Offset} (strung : Strung link owed line)
    (inside : offset ∈ line) : link offset = .free ∨ link offset ∈ line := by
  induction line with
  | nil => cases inside
  | cons first rest ih =>
      rcases List.mem_cons.mp inside with rfl | behind
      · cases rest with
        | nil => exact .inl strung
        | cons second more =>
            rcases strung.1 with ⟨_, unlinked⟩ | ⟨_, linked⟩
            · exact .inl unlinked
            · rw [linked]
              exact .inr (List.mem_cons_of_mem _ List.mem_cons_self)
      · exact (ih strung.tail behind).imp id (List.mem_cons_of_mem _)

/-- Where nothing is owed, the links say which line follows a fragment. -/
theorem Strung.unique {more : List Offset}
    (one : Strung link (fun _ _ => False) (first :: line))
    (two : Strung link (fun _ _ => False) (first :: more)) (proper : .free ∉ line)
    (properMore : .free ∉ more) : line = more := by
  induction line generalizing first more with
  | nil =>
      cases more with
      | nil => rfl
      | cons second rest =>
          rcases two.1 with ⟨owe, _⟩ | ⟨_, linked⟩
          · exact owe.elim
          · obtain rfl : .free = second := one.symm.trans linked
            exact absurd List.mem_cons_self properMore
  | cons second rest ih =>
      have linked : link first = second := (one.1.resolve_left fun owe => owe.1).2
      cases more with
      | nil =>
          obtain rfl : .free = second := two.symm.trans linked
          exact absurd List.mem_cons_self proper
      | cons third others =>
          obtain rfl : second = third := linked.symm.trans (two.1.resolve_left fun owe => owe.1).2
          rw [ih one.tail two.tail (fun inside => proper (List.mem_cons_of_mem _ inside))
            fun inside => properMore (List.mem_cons_of_mem _ inside)]

theorem Strung.append (strung : Strung link owed line) (ends : line.getLast? = some last)
    (new : added ∉ line) (unlinked : link added = .free)
    (owes : ∀ before after,
      owing before after ↔ owed before after ∨ (before = last ∧ after = added)) :
    Strung link owing (line ++ [added]) := by
  induction line with
  | nil => simp at ends
  | cons first rest ih =>
      cases rest with
      | nil =>
          obtain rfl : first = last := by simpa using ends
          exact ⟨.inl ⟨(owes first added).mpr (.inr ⟨rfl, rfl⟩), strung⟩, unlinked⟩
      | cons second rest =>
          have further : Strung link owing (second :: rest ++ [added]) :=
            ih strung.2 (by simpa [List.getLast?_cons_cons] using ends)
              fun inside => new (List.mem_cons_of_mem _ inside)
          refine ⟨?_, further⟩
          rcases strung.1 with ⟨owe, free⟩ | ⟨paid, linked⟩
          · exact .inl ⟨(owes first second).mpr (.inl owe), free⟩
          · refine .inr ⟨fun owe => ?_, linked⟩
            rcases (owes first second).mp owe with owe | ⟨_, rfl⟩
            · exact paid owe
            · exact new (List.mem_cons_of_mem _ List.mem_cons_self)

theorem Strung.pay (strung : Strung link owed line) (nodup : line.Nodup)
    (adjacent : Adjacent before after line)
    (links : ∀ offset ∈ line, relinked offset = if offset = before then after else link offset)
    (owes : ∀ one two, owing one two ↔ owed one two ∧ ¬(one = before ∧ two = after)) :
    Strung relinked owing line := by
  induction line with
  | nil => trivial
  | cons first rest ih =>
      cases rest with
      | nil => exact absurd adjacent not_adjacent_single
      | cons second rest =>
          obtain ⟨alone, nodupRest⟩ := List.nodup_cons.mp nodup
          have firstLink := links first List.mem_cons_self
          rcases adjacent_cons.mp adjacent with ⟨rfl, rfl⟩ | behind
          · -- The link is made at the head of the line; nothing behind it changes.
            have joined : Joined relinked owing before after :=
              .inr ⟨fun owe => ((owes before after).mp owe).2 ⟨rfl, rfl⟩, by simpa using firstLink⟩
            refine ⟨joined, strung.2.congr ?_ ?_⟩
            · intro offset inside
              have differs : offset ≠ before := fun same => alone (same ▸ inside)
              rw [links offset (List.mem_cons_of_mem _ inside), if_neg differs]
            · intro one two neighbours
              rw [owes]
              exact and_iff_left fun same => alone (same.1 ▸ neighbours.left)
          · -- The link is made further behind, so the first one stays joined as it was.
            have differs : first ≠ before := fun same => alone (same ▸ behind.left)
            rw [if_neg differs] at firstLink
            have further : Strung relinked owing (second :: rest) :=
              ih strung.2 nodupRest behind fun offset inside =>
                links offset (List.mem_cons_of_mem _ inside)
            refine ⟨?_, further⟩
            rcases strung.1 with ⟨owe, unlinked⟩ | ⟨paid, linked⟩
            · have still := (owes first second).mpr ⟨owe, fun same => differs same.1⟩
              exact .inl ⟨still, firstLink.trans unlinked⟩
            · exact .inr ⟨fun owe => paid ((owes _ _).mp owe).1, firstLink.trans linked⟩

end RankMail
