import RankMail.Queue

set_option autoImplicit false

/-! # The words of a queue

A queue is spread over shared memory: its head and its tail lie in its own block, and every
fragment in it holds the link to the next one. A `Chain` says where these words lie. The head is
treated as the link of the mark `free`, because the first fragment hangs on the head in the same
way as every other fragment hangs on the one before it; so `Queue.attach`, which replaces the head
or a link, replaces one link in both cases (`Queue.attach_eq`).

What a step does to the words is said by `link_setLink`, `link_setTail`, `tail_setLink` and
`tail_setTail`. They ask for no more than that the words of different fragments share no byte
(`Chain.Separate`).
-/

namespace RankMail

/-- Where the words of a queue lie. -/
structure Chain where
  /-- Where the head and the tail begin. -/
  block : Place
  /-- Where the header of a fragment begins. -/
  place : Offset → Place

namespace Chain

variable {chain : Chain} {IsFragment : Offset → Prop}

/-- Where the link of a fragment lies, or the head if none is given. -/
def linkPlace (chain : Chain) (offset : Offset) : Place :=
  if offset.isFree then chain.block else chain.place offset

def tailPlace (chain : Chain) : Place := chain.block.shift QueueField.tail.distance

/-- What a fragment is linked to, or the first fragment if none is given. -/
def link (chain : Chain) (memory : Memory) (offset : Offset) : Offset :=
  Offset.ofWord (memory.word 8 (chain.linkPlace offset))

def tail (chain : Chain) (memory : Memory) : Offset :=
  Offset.ofWord (memory.word 8 chain.tailPlace)

def setLink (chain : Chain) (memory : Memory) (offset target : Offset) : Memory :=
  memory.setWord 8 (chain.linkPlace offset) target.word

def setTail (chain : Chain) (memory : Memory) (target : Offset) : Memory :=
  memory.setWord 8 chain.tailPlace target.word

/-- The words of different fragments, and those of the queue itself, share no byte. -/
structure Separate (chain : Chain) (IsFragment : Offset → Prop) : Prop where
  proper : ∀ {offset}, IsFragment offset → offset ≠ .free
  fromBlock : ∀ {offset}, IsFragment offset → Memory.Apart (chain.place offset) 8 chain.block 16
  fromOther : ∀ {offset other}, IsFragment offset → IsFragment other → offset ≠ other →
    Memory.Apart (chain.place offset) 8 (chain.place other) 8

/-! ## What a replaced word does to the others -/

theorem ofWord_setWord (memory : Memory) (place : Place) (offset : Offset) :
    Offset.ofWord ((memory.setWord 8 place offset.word).word 8 place) = offset := by
  have small : offset.word < 256 ^ 8 := offset.word_lt
  rw [Memory.word_setWord_same, Nat.mod_eq_of_lt small, Offset.ofWord_word]

theorem linkPlace_free (chain : Chain) : chain.linkPlace .free = chain.block := rfl

theorem linkPlace_proper {offset : Offset} (proper : offset ≠ .free) :
    chain.linkPlace offset = chain.place offset := by
  have differs : ¬offset.isFree = true := fun free => proper (Offset.isFree_iff.mp free)
  rw [linkPlace, if_neg differs]

/-- The mark `free` or a fragment: what has a link. -/
def HasLink (IsFragment : Offset → Prop) (offset : Offset) : Prop :=
  offset = .free ∨ IsFragment offset

theorem Separate.links (separate : chain.Separate IsFragment) {offset other : Offset}
    (one : HasLink IsFragment offset) (two : HasLink IsFragment other) (differ : offset ≠ other) :
    Memory.Apart (chain.linkPlace offset) 8 (chain.linkPlace other) 8 := by
  rcases one with rfl | one <;> rcases two with rfl | two
  · exact absurd rfl differ
  · rw [linkPlace_free, linkPlace_proper (separate.proper two)]
    intro same
    have split := separate.fromBlock two same.symm
    omega
  · rw [linkPlace_free, linkPlace_proper (separate.proper one)]
    intro same
    have split := separate.fromBlock one same
    omega
  · rw [linkPlace_proper (separate.proper one), linkPlace_proper (separate.proper two)]
    exact separate.fromOther one two differ

theorem Separate.tail (separate : chain.Separate IsFragment) {offset : Offset}
    (has : HasLink IsFragment offset) :
    Memory.Apart (chain.linkPlace offset) 8 chain.tailPlace 8 := by
  rcases has with rfl | fragment
  · intro _
    simp [linkPlace_free, tailPlace, Place.shift, QueueField.tail]
  · rw [linkPlace_proper (separate.proper fragment)]
    intro same
    have split := separate.fromBlock fragment same
    simp only [tailPlace, Place.shift, QueueField.tail]
    omega

theorem link_setLink (separate : chain.Separate IsFragment) {offset other : Offset}
    (one : HasLink IsFragment offset) (two : HasLink IsFragment other) (memory : Memory)
    (target : Offset) :
    chain.link (chain.setLink memory offset target) other =
      if other = offset then target else chain.link memory other := by
  split
  · next same => rw [same, link, setLink, ofWord_setWord]
  · next differs =>
    rw [link, setLink, Memory.word_setWord_apart (separate.links two one differs), link]

theorem tail_setLink (separate : chain.Separate IsFragment) {offset : Offset}
    (has : HasLink IsFragment offset) (memory : Memory) (target : Offset) :
    chain.tail (chain.setLink memory offset target) = chain.tail memory := by
  have apart : Memory.Apart chain.tailPlace 8 (chain.linkPlace offset) 8 := by
    intro same
    exact (separate.tail has same.symm).symm
  rw [Chain.tail, setLink, Memory.word_setWord_apart apart, Chain.tail]

theorem link_setTail (separate : chain.Separate IsFragment) {offset : Offset}
    (has : HasLink IsFragment offset) (memory : Memory) (target : Offset) :
    chain.link (chain.setTail memory target) offset = chain.link memory offset := by
  rw [link, setTail, Memory.word_setWord_apart (separate.tail has), link]

/-- Two memories are the same but for the words of a queue. -/
def Keeps (chain : Chain) (IsFragment : Offset → Prop) (before after : Memory) : Prop :=
  ∀ place count, Memory.Apart place count chain.block 16 →
    (∀ offset, IsFragment offset → Memory.Apart place count (chain.place offset) 8) →
    after.read place count = before.read place count

theorem Separate.keeps_setLink (separate : chain.Separate IsFragment) {offset : Offset}
    (has : HasLink IsFragment offset) (memory : Memory) (target : Offset) :
    chain.Keeps IsFragment memory (chain.setLink memory offset target) := by
  intro place count fromBlock fromFragments
  have apart : Memory.Apart place count (chain.linkPlace offset) 8 := by
    rcases has with rfl | fragment
    · intro same
      have split := fromBlock same
      rw [linkPlace_free]
      omega
    · rw [linkPlace_proper (separate.proper fragment)]
      exact fromFragments offset fragment
  refine Memory.read_write_apart ?_ memory
  rwa [LittleEndian.length_bytes]

theorem keeps_setTail (chain : Chain) (IsFragment : Offset → Prop) (memory : Memory)
    (target : Offset) : chain.Keeps IsFragment memory (chain.setTail memory target) := by
  intro place count fromBlock _
  refine Memory.read_write_apart ?_ memory
  rw [LittleEndian.length_bytes]
  intro same
  have split := fromBlock same
  simp only [tailPlace, Place.shift, QueueField.tail]
  omega

theorem tail_setTail (chain : Chain) (memory : Memory) (target : Offset) :
    chain.tail (chain.setTail memory target) = target := ofWord_setWord ..

end Chain

/-! ## The steps of a queue, on its words -/

namespace Queue

variable {queue : Queue} {chain : Chain} {offset previous target : Offset} {memory : Memory}

/-- A queue reaches a fragment where a chain says that it lies. -/
structure Reaches (queue : Queue) (chain : Chain) (offset : Offset) : Prop where
  block : queue.block = chain.block
  header : queue.addresses.header offset = .ok (chain.place offset)
  proper : offset ≠ .free

theorem setHead_eq (same : queue.block = chain.block) (target : Offset) (memory : Memory) :
    queue.setHead target memory = .done () (chain.setLink memory .free target) := by
  rw [Chain.setLink, Chain.linkPlace_free, ← same]
  rfl

theorem setLink_eq (reaches : queue.Reaches chain offset) (target : Offset) (memory : Memory) :
    queue.setLink offset target memory = .done () (chain.setLink memory offset target) := by
  have found : queue.header offset memory = .done (chain.place offset) memory := by
    rw [Queue.header, reaches.header]
    rfl
  rw [Queue.setLink, Action.bind_done found, Chain.setLink, Chain.linkPlace_proper reaches.proper]
  rfl

theorem link_eq (reaches : queue.Reaches chain offset) (memory : Memory) :
    queue.link offset memory = .done (chain.link memory offset) memory := by
  have found : queue.header offset memory = .done (chain.place offset) memory := by
    rw [Queue.header, reaches.header]
    rfl
  rw [Queue.link, Action.bind_done found, Chain.link, Chain.linkPlace_proper reaches.proper]
  rfl

/-- Linking a fragment to what was the tail replaces one link, also if there was no tail. -/
theorem attach_eq (same : queue.block = chain.block)
    (reaches : previous ≠ .free → queue.Reaches chain previous) (offset : Offset)
    (memory : Memory) :
    queue.attach previous offset memory = .done () (chain.setLink memory previous offset) := by
  by_cases first : previous = .free
  · subst first
    exact setHead_eq same offset memory
  · have linked : ¬previous.isFree = true := fun free => first (Offset.isFree_iff.mp free)
    rw [attach, if_neg linked]
    exact setLink_eq (reaches first) offset memory

theorem exchangeTail_eq (same : queue.block = chain.block) (offset : Offset) (memory : Memory) :
    queue.exchangeTail offset memory =
      .done (chain.tail memory) (chain.setTail memory offset) := by
  rw [Chain.tail, Chain.setTail, Chain.tailPlace, ← same]
  rfl

theorem takeHead_eq (same : queue.block = chain.block) (memory : Memory) :
    queue.takeHead memory = .done (chain.link memory .free) (chain.setLink memory .free .free) := by
  rw [Chain.link, Chain.setLink, Chain.linkPlace_free, ← same]
  rfl

theorem releaseTail_eq (same : queue.block = chain.block) (offset : Offset) (memory : Memory) :
    queue.releaseTail offset memory =
      if chain.tail memory = offset then .done true (chain.setTail memory .free)
      else .done false memory := by
  rw [Chain.tail, Chain.setTail, Chain.tailPlace, ← same]
  rfl

end Queue

end RankMail
