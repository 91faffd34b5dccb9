import RankMail.Proofs.Network.Basic

set_option autoImplicit false

/-! # Where a slot is

A slot that has been carved is unused, or it is held as a fragment, or it is in a queue, or it has
been received as a message, or it is retired; and while an operation is going on it may be in the
hand of the node that acts:

            alloc            send             read
    unused -------> held ----------> queued ---------> received
       ^              |                ^  |               |
       |     free     |                |  | read (own)    | release
       +--------------+                |  v               |
       +-----------------------------------+              |
                                       +------------------+

Each slot is in one place and there once: `Exact`. A step takes a slot from one place to another
(`Exact.move`) or adds one that has just been carved (`Exact.add`).
-/

namespace RankMail

/-- Where a slot may be. -/
inductive Location where
  | unused (rank : UInt32) (sizeClass : SizeClass)
  | held
  | queued (rank : UInt32)
  | received
  | retired
  /-- With a node that is just doing something with it. -/
  | hand
deriving DecidableEq

/-- Each carved slot is in one place, and there once; and nothing else is anywhere. -/
structure Exact (contents : Location → List Offset) (IsCarved : Offset → Prop) : Prop where
  nodup : ∀ location, (contents location).Nodup
  once : ∀ {one two offset}, offset ∈ contents one → offset ∈ contents two → one = two
  somewhere : ∀ {offset}, IsCarved offset ↔ ∃ location, offset ∈ contents location

/-- A slot goes from one place to another. -/
structure Moves (offset : Offset) (source target : Location)
    (before after : Location → List Offset) : Prop where
  differ : source ≠ target
  taken : (before source).Perm (offset :: after source)
  put : (after target).Perm (offset :: before target)
  others : ∀ location, location ≠ source → location ≠ target →
    (after location).Perm (before location)

namespace Moves

variable {offset other : Offset} {source target location : Location}
  {before after : Location → List Offset}

theorem mem_before (moves : Moves offset source target before after)
    (inside : other ∈ after location) :
    other ∈ before location ∨ (location = target ∧ other = offset) := by
  by_cases atTarget : location = target
  · subst atTarget
    rcases List.mem_cons.mp (moves.put.mem_iff.mp inside) with rfl | inside
    · exact .inr ⟨rfl, rfl⟩
    · exact .inl inside
  · by_cases atSource : location = source
    · subst atSource
      exact .inl (moves.taken.mem_iff.mpr (List.mem_cons_of_mem _ inside))
    · exact .inl ((moves.others location atSource atTarget).mem_iff.mp inside)

theorem mem_after (moves : Moves offset source target before after)
    (inside : other ∈ before location) :
    other ∈ after location ∨ (location = source ∧ other = offset) := by
  by_cases atSource : location = source
  · subst atSource
    rcases List.mem_cons.mp (moves.taken.mem_iff.mp inside) with rfl | inside
    · exact .inr ⟨rfl, rfl⟩
    · exact .inl inside
  · by_cases atTarget : location = target
    · subst atTarget
      exact .inl (moves.put.mem_iff.mpr (List.mem_cons_of_mem _ inside))
    · exact .inl ((moves.others location atSource atTarget).mem_iff.mpr inside)

theorem mem_source (moves : Moves offset source target before after) : offset ∈ before source :=
  moves.taken.mem_iff.mpr List.mem_cons_self

theorem mem_target (moves : Moves offset source target before after) : offset ∈ after target :=
  moves.put.mem_iff.mpr List.mem_cons_self

end Moves

namespace Exact

variable {offset : Offset} {source target : Location} {before after : Location → List Offset}
  {IsCarved IsCarvedAfter : Offset → Prop}

/-- A slot that goes from one place to another is in one place again. -/
theorem move (exact : Exact before IsCarved) (moves : Moves offset source target before after) :
    Exact after IsCarved := by
  -- It was only at the source, and there once.
  have absent : offset ∉ before target := fun inside =>
    moves.differ (exact.once moves.mem_source inside)
  have gone : offset ∉ after source :=
    (List.nodup_cons.mp (moves.taken.nodup_iff.mp (exact.nodup source))).1
  constructor
  · intro location
    by_cases atTarget : location = target
    · subst atTarget
      exact moves.put.nodup_iff.mpr (List.nodup_cons.mpr ⟨absent, exact.nodup location⟩)
    · by_cases atSource : location = source
      · subst atSource
        exact (List.nodup_cons.mp (moves.taken.nodup_iff.mp (exact.nodup location))).2
      · exact (moves.others location atSource atTarget).nodup_iff.mpr (exact.nodup location)
  · -- The slot itself is nowhere but at the target; the others are where they were.
    have only : ∀ {location}, offset ∈ after location → location = target := by
      intro location inside
      rcases moves.mem_before inside with was | ⟨same, _⟩
      · obtain rfl := exact.once moves.mem_source was
        exact absurd inside gone
      · exact same
    intro one two other inOne inTwo
    rcases moves.mem_before inOne with wasOne | ⟨rfl, rfl⟩
    · rcases moves.mem_before inTwo with wasTwo | ⟨rfl, rfl⟩
      · exact exact.once wasOne wasTwo
      · exact only inOne
    · exact (only inTwo).symm
  · intro other
    rw [exact.somewhere]
    constructor
    · rintro ⟨location, inside⟩
      rcases moves.mem_after inside with still | ⟨_, rfl⟩
      · exact ⟨location, still⟩
      · exact ⟨target, moves.mem_target⟩
    · rintro ⟨location, inside⟩
      rcases moves.mem_before inside with was | ⟨_, rfl⟩
      · exact ⟨location, was⟩
      · exact ⟨source, moves.mem_source⟩

theorem add (exact : Exact before IsCarved) (new : ¬IsCarved offset)
    (carved : ∀ other, IsCarvedAfter other ↔ IsCarved other ∨ other = offset)
    (put : (after target).Perm (offset :: before target))
    (others : ∀ location, location ≠ target → (after location).Perm (before location)) :
    Exact after IsCarvedAfter := by
  have absent : ∀ location, offset ∉ before location := fun location inside =>
    new (exact.somewhere.mpr ⟨location, inside⟩)
  -- Only the target has changed, by the new slot.
  have mem : ∀ {location other}, other ∈ after location ↔
      other ∈ before location ∨ (location = target ∧ other = offset) := by
    intro location other
    by_cases atTarget : location = target
    · subst atTarget
      rw [put.mem_iff, List.mem_cons]
      simp [or_comm]
    · rw [(others location atTarget).mem_iff]
      simp [atTarget]
  constructor
  · intro location
    by_cases atTarget : location = target
    · subst atTarget
      exact put.nodup_iff.mpr (List.nodup_cons.mpr ⟨absent location, exact.nodup location⟩)
    · exact (others location atTarget).nodup_iff.mpr (exact.nodup location)
  · intro one two other inOne inTwo
    rcases mem.mp inOne with wasOne | ⟨rfl, rfl⟩
    · rcases mem.mp inTwo with wasTwo | ⟨rfl, rfl⟩
      · exact exact.once wasOne wasTwo
      · exact absurd wasOne (absent one)
    · rcases mem.mp inTwo with wasTwo | ⟨rfl, _⟩
      · exact absurd wasTwo (absent two)
      · rfl
  · intro other
    rw [carved, exact.somewhere]
    constructor
    · rintro (⟨location, inside⟩ | rfl)
      · exact ⟨location, mem.mpr (.inl inside)⟩
      · exact ⟨target, mem.mpr (.inr ⟨rfl, rfl⟩)⟩
    · rintro ⟨location, inside⟩
      rcases mem.mp inside with was | ⟨_, rfl⟩
      · exact .inl ⟨location, was⟩
      · exact .inr rfl

theorem congr (exact : Exact before IsCarved)
    (places : ∀ location, (after location).Perm (before location))
    (carved : ∀ offset, IsCarvedAfter offset ↔ IsCarved offset) : Exact after IsCarvedAfter where
  nodup location := (places location).nodup_iff.mpr (exact.nodup location)
  once one two := exact.once ((places _).mem_iff.mp one) ((places _).mem_iff.mp two)
  somewhere := by
    intro offset
    rw [carved, exact.somewhere]
    exact exists_congr fun location => (places location).mem_iff.symm

end Exact

/-! ## The places of a network -/

/-- What is in a queue: a message with what it says, or a fragment on its way back. -/
structure Item where
  offset : Offset
  letter : Option Letter
deriving DecidableEq

namespace Network

def unused (network : Network) (rank : UInt32) (sizeClass : SizeClass) : List Offset :=
  ((network.nodes rank).map fun node =>
    (node.pool.free.get sizeClass).map Fragment.offset).getD []

/-- What is where, if the queues hold some items and the node that acts has some slots in its
hand. -/
def contents (network : Network) (pending : UInt32 → List Item) (hand : List Offset) :
    Location → List Offset
  | .unused rank sizeClass => network.unused rank sizeClass
  | .held => network.fragments.map Fragment.offset
  | .queued rank => (pending rank).map Item.offset
  | .received => network.received.map fun delivery => delivery.message.offset
  | .retired => network.retired.map Prod.fst
  | .hand => hand

end Network

end RankMail
