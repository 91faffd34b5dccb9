import RankMail.Proofs.Ends
import RankMail.Proofs.Memory.Frame
import RankMail.Proofs.Queue.Strung
import RankMail.Proofs.Queue.Words

set_option autoImplicit false

/-! # A queue that one party uses at a time

When each operation on a queue runs to its end before the next one begins, nothing is owed between
them, and the words of the queue hold a list: `Chain.Holds`. Here `Queue.enqueue` puts a fragment at
the end of the list and `Queue.dequeue` takes the first one away, and neither writes anything but
words of the queue.

An operation follows links that somebody else has made, and aborts if a header cannot be reached.
The parameter `stuck` says whether that may happen.
-/

namespace RankMail

namespace Chain

/-- The words of a queue hold a list of fragments. -/
structure Holds (chain : Chain) (memory : Memory) (queue : List Offset) : Prop where
  strung : Strung (chain.link memory) (fun _ _ => False) (.free :: queue)
  ends : (.free :: queue).getLast? = some (chain.tail memory)

variable {chain : Chain} {IsFragment : Offset → Prop} {memory after : Memory}
  {queue rest : List Offset} {offset first next : Offset}

/-- Words that are the same hold the same list, wherever they lie. -/
theorem Holds.congr {other : Chain} (holds : chain.Holds memory queue)
    (links : ∀ offset, offset = .free ∨ offset ∈ queue →
      other.link after offset = chain.link memory offset)
    (tail : other.tail after = chain.tail memory) : other.Holds after queue where
  strung := holds.strung.congr (fun offset inside => links offset (List.mem_cons.mp inside))
    fun _ _ _ => Iff.rfl
  ends := by
    rw [tail]
    exact holds.ends

theorem setLink_writes (chain : Chain) (memory : Memory) (offset target : Offset) :
    Memory.Keeps [(chain.linkPlace offset, 8)] memory (chain.setLink memory offset target) :=
  Memory.keeps_setWord ..

theorem setTail_writes (chain : Chain) (memory : Memory) (target : Offset) :
    Memory.Keeps [(chain.tailPlace, 8)] memory (chain.setTail memory target) :=
  Memory.keeps_setWord ..

theorem holds_nil (head : chain.link memory .free = .free) (tail : chain.tail memory = .free) :
    chain.Holds memory [] where
  strung := head
  ends := by
    rw [tail]
    rfl

theorem Holds.head_nil (holds : chain.Holds memory []) : chain.link memory .free = .free :=
  holds.strung

theorem Holds.head_cons (holds : chain.Holds memory (first :: rest)) :
    chain.link memory .free = first := by
  rcases holds.strung.1 with ⟨owed, _⟩ | ⟨_, linked⟩
  · exact absurd owed id
  · exact linked

theorem Holds.link_last (holds : chain.Holds memory [first]) :
    chain.link memory first = .free := holds.strung.2

theorem Holds.link_cons (holds : chain.Holds memory (first :: next :: rest)) :
    chain.link memory first = next := by
  rcases holds.strung.2.1 with ⟨owed, _⟩ | ⟨_, linked⟩
  · exact absurd owed id
  · exact linked

/-- The head, the tail and the links of the fragments in the list name fragments in the list, or
nothing. -/
theorem Holds.words (holds : chain.Holds memory queue) :
    (∀ offset ∈ .free :: queue, chain.link memory offset = .free ∨
      chain.link memory offset ∈ queue) ∧
    (chain.tail memory = .free ∨ chain.tail memory ∈ queue) := by
  refine ⟨fun offset inside => ?_, List.mem_cons.mp (List.mem_of_getLast? holds.ends)⟩
  exact (holds.strung.link_mem inside).elim .inl List.mem_cons.mp

/-- A fragment that hangs on nothing is put at the end of the list. -/
theorem Holds.append (separate : chain.Separate IsFragment) (holds : chain.Holds memory queue)
    (fragments : ∀ offset ∈ queue, IsFragment offset) (nodup : queue.Nodup)
    (new : IsFragment offset) (away : offset ∉ queue) :
    chain.Holds (chain.setLink
      (chain.setTail (chain.setLink memory offset .free) offset) (chain.tail memory) offset)
      (queue ++ [offset]) := by
  have hasLink : ∀ other, other ∈ Offset.free :: queue → HasLink IsFragment other := by
    intro other inside
    exact (List.mem_cons.mp inside).imp id (fragments other)
  have last := List.mem_of_getLast? holds.ends
  have outside : offset ∉ Offset.free :: queue := by
    rintro (_ | ⟨_, inside⟩)
    · exact separate.proper new rfl
    · exact away inside
  have nodupLine : (Offset.free :: queue).Nodup :=
    List.nodup_cons.mpr ⟨fun inside => separate.proper (fragments _ inside) rfl, nodup⟩
  -- The links once the fragment is unlinked and has become the tail.
  have links : ∀ other, HasLink IsFragment other →
      chain.link (chain.setTail (chain.setLink memory offset .free) offset) other =
        if other = offset then .free else chain.link memory other := by
    intro other has
    rw [link_setTail separate has, link_setLink separate (.inr new) has]
  have owing : Strung (chain.link (chain.setTail (chain.setLink memory offset .free) offset))
      (fun before after => before = chain.tail memory ∧ after = offset)
      (.free :: (queue ++ [offset])) := by
    have before : Strung (chain.link
        (chain.setTail (chain.setLink memory offset .free) offset))
        (fun _ _ => False) (.free :: queue) := by
      refine holds.strung.congr (fun other inside => ?_) fun _ _ _ => Iff.rfl
      rw [links other (hasLink other inside), if_neg]
      rintro rfl
      exact outside inside
    refine before.append holds.ends outside ?_ ?_
    · rw [links offset (.inr new), if_pos rfl]
    · intro before after
      exact (iff_of_eq (false_or _)).symm
  constructor
  · refine owing.pay ?_ (adjacent_last holds.ends) ?_ ?_
    · exact nodupLine.append (List.nodup_singleton offset) (List.disjoint_singleton.mpr outside)
    · intro other inside
      refine link_setLink separate (hasLink _ last) ?_ _ _
      rcases List.mem_append.mp (show other ∈ (.free :: queue) ++ [offset] from inside) with
        inside | inside
      · exact hasLink other inside
      · exact .inr (List.mem_singleton.mp inside ▸ new)
    · intro before after
      exact (and_not_self_iff _).symm
  · rw [tail_setLink separate (hasLink _ last), tail_setTail]
    exact List.getLast?_concat (l := .free :: queue)

theorem Holds.release (separate : chain.Separate IsFragment) :
    chain.Holds (chain.setTail (chain.setLink memory .free .free) .free) [] where
  strung := by
    show chain.link _ .free = .free
    rw [link_setTail separate (.inl rfl), link_setLink separate (.inl rfl) (.inl rfl), if_pos rfl]
  ends := congrArg some (tail_setTail ..).symm

theorem Holds.pass (separate : chain.Separate IsFragment)
    (holds : chain.Holds memory (first :: next :: rest))
    (fragments : ∀ offset ∈ first :: next :: rest, IsFragment offset) :
    chain.Holds (chain.setLink (chain.setLink memory .free .free) .free next) (next :: rest) := by
  have links : ∀ other, HasLink IsFragment other →
      chain.link (chain.setLink (chain.setLink memory .free .free) .free next) other =
        if other = .free then next else chain.link memory other := by
    intro other has
    rw [link_setLink separate (.inl rfl) has]
    split
    · rfl
    · next differs => rw [link_setLink separate (.inl rfl) has, if_neg differs]
  constructor
  · refine Strung.cons (holds.strung.2.2.congr (fun other inside => ?_) fun _ _ _ => Iff.rfl)
      (.inr ⟨id, ?_⟩)
    · have fragment := fragments other (List.mem_cons_of_mem _ inside)
      rw [links other (.inr fragment), if_neg (separate.proper fragment)]
    · rw [links .free (.inl rfl), if_pos rfl]
  · rw [tail_setLink separate (.inl rfl), tail_setLink separate (.inl rfl), ← holds.ends]
    simp [List.getLast?_cons_cons]

end Chain

namespace Queue

variable {queue : Queue} {chain : Chain} {IsFragment : Offset → Prop} {memory : Memory}
  {line rest : List Offset} {offset first : Offset} {stuck : Prop}

/-- A queue reaches a fragment where a chain says that it lies, or has an excuse. -/
def ReachesOr (queue : Queue) (chain : Chain) (stuck : Prop) (offset : Offset) : Prop :=
  queue.Reaches chain offset ∨ (∃ cause, queue.addresses.header offset = .error cause) ∧ stuck

/-- A fragment is put at the end of the list. Its link, the tail and the link of what was the tail
before are written, or the head if there was no tail. -/
theorem enqueue_writes (separate : chain.Separate IsFragment) (holds : chain.Holds memory line)
    (fragments : ∀ offset ∈ line, IsFragment offset) (nodup : line.Nodup)
    (new : IsFragment offset) (away : offset ∉ line) (block : queue.block = chain.block)
    (reaches : queue.Reaches chain offset)
    (others : ∀ other ∈ line, queue.ReachesOr chain stuck other) :
    (queue.enqueue offset memory).Meets stuck fun result after =>
      result = .ok () ∧ chain.Holds after (line ++ [offset]) ∧
        Memory.Keeps [(chain.place offset, 8), (chain.tailPlace, 8),
          (chain.linkPlace (chain.tail memory), 8)] memory after := by
  have last := List.mem_of_getLast? holds.ends
  have unlink := setLink_eq reaches .free memory
  have exchange := exchangeTail_eq block offset (chain.setLink memory offset .free)
  rw [Chain.tail_setLink separate (.inr new)] at exchange
  have further : chain.tail memory ≠ offset := by
    intro same
    rcases List.mem_cons.mp (same ▸ last) with free | inside
    · exact separate.proper new free
    · exact away inside
  rw [enqueue, Action.bind_done unlink, Action.bind_done exchange, if_neg further]
  have attached : (chain.tail memory ≠ .free → queue.Reaches chain (chain.tail memory)) →
      (queue.attach (chain.tail memory) offset
        (chain.setTail (chain.setLink memory offset .free) offset)).Meets stuck
        fun result after => result = .ok () ∧ chain.Holds after (line ++ [offset]) ∧
          Memory.Keeps [(chain.place offset, 8), (chain.tailPlace, 8),
            (chain.linkPlace (chain.tail memory), 8)] memory after := by
    intro reachesLast
    rw [attach_eq block reachesLast]
    refine ⟨rfl, holds.append separate fragments nodup new away, ?_⟩
    rw [← Chain.linkPlace_proper (separate.proper new)]
    exact ((chain.setLink_writes memory offset .free).trans
      (chain.setTail_writes _ offset)).trans (chain.setLink_writes _ _ offset)
  -- The last fragment may be one that the queue does not reach; the list may be empty.
  rcases List.mem_cons.mp last with free | inside
  · exact attached fun proper => absurd free proper
  · rcases others _ inside with found | ⟨⟨cause, missing⟩, excused⟩
    · exact attached fun _ => found
    · have proper := separate.proper (fragments _ inside)
      have linked : ¬(chain.tail memory).isFree = true := fun free =>
        proper (Offset.isFree_iff.mp free)
      rw [attach, if_neg linked, setLink, header, missing]
      exact excused

theorem header_eq (reaches : queue.Reaches chain offset) (memory : Memory) :
    queue.header offset memory = .done (chain.place offset) memory := by
  rw [header, reaches.header]
  rfl

theorem linkAt_eq (proper : offset ≠ .free) (memory : Memory) :
    linkAt (chain.place offset) memory = .done (chain.link memory offset) memory := by
  rw [Chain.link, Chain.linkPlace_proper proper]
  rfl

/-- The first fragment of the list is taken away. Only the head and the tail are written. -/
theorem dequeue_meets (separate : chain.Separate IsFragment) (holds : chain.Holds memory line)
    (fragments : ∀ offset ∈ line, IsFragment offset) (nodup : line.Nodup)
    (block : queue.block = chain.block)
    (others : ∀ other ∈ line, queue.ReachesOr chain stuck other) :
    (queue.dequeue memory).Meets stuck fun result after =>
      result = .ok line.head? ∧ chain.Holds after line.tail ∧
        Memory.Keeps [(chain.block, 8), (chain.tailPlace, 8)] memory after := by
  have take := takeHead_eq block memory
  have taken : Memory.Keeps [(chain.block, 8)] memory (chain.setLink memory .free .free) :=
    chain.setLink_writes memory .free .free
  have links : ∀ other, IsFragment other →
      chain.link (chain.setLink memory .free .free) other = chain.link memory other := by
    intro other fragment
    rw [Chain.link_setLink separate (.inl rfl) (.inr fragment), if_neg (separate.proper fragment)]
  rw [dequeue]
  cases line with
  | nil =>
      rw [holds.head_nil] at take
      rw [Action.bind_done take]
      refine ⟨rfl, holds.congr (fun other inside => ?_) (Chain.tail_setLink separate (.inl rfl) ..),
        taken.trans (Memory.Keeps.refl [(chain.tailPlace, 8)] _)⟩
      obtain rfl : other = .free := by simpa using inside
      rw [Chain.link_setLink separate (.inl rfl) (.inl rfl), if_pos rfl, holds.head_nil]
  | cons first rest =>
      have fragment := fragments first List.mem_cons_self
      have proper := separate.proper fragment
      have shown : ¬first.isFree = true := fun free => proper (Offset.isFree_iff.mp free)
      rw [holds.head_cons] at take
      rw [Action.bind_done take, if_neg shown]
      rcases others first List.mem_cons_self with reaches | ⟨⟨cause, missing⟩, excused⟩
      · have read : linkAt (chain.place first) (chain.setLink memory .free .free) =
            .done (chain.link (chain.setLink memory .free .free) first)
              (chain.setLink memory .free .free) := linkAt_eq proper _
        rw [links first fragment] at read
        rw [Action.bind_done (header_eq reaches _), Action.bind_done read]
        cases rest with
        -- It was the only one, and the tail is released.
        | nil =>
            have release := releaseTail_eq block first (chain.setLink memory .free .free)
            have last : chain.tail (chain.setLink memory .free .free) = first := by
              rw [Chain.tail_setLink separate (.inl rfl)]
              exact (Option.some.inj holds.ends).symm
            rw [if_pos last] at release
            rw [holds.link_last, if_neg proper.symm, Offset.isFree_free, Bool.not_true,
              if_neg Bool.false_ne_true, Action.bind_done release]
            exact ⟨rfl, Chain.Holds.release separate, taken.trans (chain.setTail_writes _ .free)⟩
        | cons next rest =>
            -- There is another one behind it, which becomes the head.
            have alone := (List.nodup_cons.mp nodup).1
            have further : next ≠ first := by
              rintro rfl
              exact alone List.mem_cons_self
            have nextProper := separate.proper (fragments next (by simp))
            have linked : next.isFree = false := by simpa [Offset.isFree] using nextProper
            have advance := setHead_eq block next (chain.setLink memory .free .free)
            rw [holds.link_cons, if_neg further, linked, Bool.not_false, if_pos rfl,
              Action.bind_done advance]
            refine ⟨rfl, holds.pass separate fragments, ?_⟩
            exact (taken.trans (chain.setLink_writes _ .free next)).mono
              (by simp [Chain.linkPlace_free])
      · rw [Action.bind_apply, header, missing]
        exact excused

end Queue

end RankMail
