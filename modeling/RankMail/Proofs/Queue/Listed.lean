import Mathlib.Logic.Relation
import RankMail.Proofs.Queue.Order
import RankMail.Proofs.Queue.Quiet

set_option autoImplicit false

/-! # A queue is a list

Operations that run to their end, one after the other, do with the words of a queue what they would
do with a list: an `Errand` answers what the list answers, and leaves words that hold what is left
of the list (`Channel.Lists`).

    list       [A, B, C]
    head --> A --> B --> C --> free
                         ^
    tail ----------------'

What has been appended is at each time what has been taken followed by what is left
(`Errand.sends_eq`), so a list that errands have left is also a moment of the traffic on the queue,
from which senders and the receiver go on step by step (`Channel.Lists.orderly`). There a sender may
stand still after it has become the tail. As long as one does, the tail is some fragment, and the
queue is not empty.
-/

namespace RankMail

open Relation (ReflTransGen)

variable {Party : Type}

/-! ## What a list does -/

/-- An operation on a queue that runs to its end. -/
inductive Errand (Party : Type) where
  | enqueue (party : Party) (offset : Offset)
  | dequeue
deriving Repr, DecidableEq

namespace Errand

/-- What is returned if the queue is a list. -/
def answer : Errand Party → List Offset → Option Offset
  | enqueue _ _, _ => none
  | dequeue, list => list.head?

def leaves : Errand Party → List Offset → List Offset
  | enqueue _ offset, list => list ++ [offset]
  | dequeue, list => list.tail

def answers : List (Errand Party) → List Offset → List (Option Offset)
  | [], _ => []
  | errand :: rest, list => errand.answer list :: answers rest (errand.leaves list)

def leavesAll : List (Errand Party) → List Offset → List Offset
  | [], list => list
  | errand :: rest, list => leavesAll rest (errand.leaves list)

def sends : List (Errand Party) → List (Party × Offset)
  | [] => []
  | enqueue party offset :: rest => (party, offset) :: sends rest
  | dequeue :: rest => sends rest

/-- What is appended to a list is what is taken from it, followed by what is left. -/
theorem sends_eq (errands : List (Errand Party)) (list : List Offset) :
    list ++ (sends errands).map Prod.snd =
      (answers errands list).filterMap id ++ leavesAll errands list := by
  induction errands generalizing list with
  | nil => simp [sends, answers, leavesAll]
  | cons errand rest ih =>
      cases errand with
      | enqueue party offset =>
          have later := ih (list ++ [offset])
          simpa [sends, answers, leavesAll, answer, leaves] using later
      | dequeue =>
          have later := ih list.tail
          cases list with
          | nil => simpa [sends, answers, leavesAll, answer, leaves] using later
          | cons first list =>
              simpa [sends, answers, leavesAll, answer, leaves] using later

/-- A fragment that is in the list is not appended to it. -/
def IsAllowed (channel : Channel Party) : Errand Party → List Offset → Prop
  | enqueue _ offset, list => channel.IsFragment offset ∧ offset ∉ list
  | dequeue, _ => True

def AreAllowed (channel : Channel Party) : List (Errand Party) → List Offset → Prop
  | [], _ => True
  | errand :: rest, list =>
      errand.IsAllowed channel list ∧ AreAllowed channel rest (errand.leaves list)

/-- What an errand writes: the link of the fragment that is appended, the tail, and the link of what
was the tail before, or the head if there was none; or else the head and the tail. -/
def writes (channel : Channel Party) : Errand Party → List Offset → List (Place × Nat)
  | enqueue _ offset, list =>
      [(channel.site.place offset, 8), (channel.chain.tailPlace, 8),
        (channel.chain.linkPlace (list.getLast?.getD .free), 8)]
  | dequeue, _ => [(channel.block, 8), (channel.chain.tailPlace, 8)]

end Errand

/-! ## What a queue does -/

namespace Channel

def perform (channel : Channel Party) : Errand Party → Action Memory (Option Offset)
  | .enqueue party offset => do
      (channel.queueOf party).enqueue offset
      pure none
  | .dequeue => channel.ownQueue.dequeue

def performAll (channel : Channel Party) :
    List (Errand Party) → Action Memory (List (Option Offset))
  | [] => pure []
  | errand :: rest => do
      let answer ← channel.perform errand
      let answers ← channel.performAll rest
      pure (answer :: answers)

/-- The words of a queue hold a list of fragments, and nobody stands in the gap. -/
structure Lists (channel : Channel Party) (memory : Memory) (list : List Offset) : Prop where
  holds : channel.chain.Holds memory list
  fragments : ∀ offset ∈ list, channel.IsFragment offset
  nodup : list.Nodup

end Channel

theorem Strung.link_getElem? {link : Offset → Offset} {list : List Offset}
    (strung : Strung link (fun _ _ => False) list) {offset : Offset} (index : Nat)
    (found : list[index]? = some offset) : link offset = list[index + 1]?.getD .free := by
  induction list generalizing index with
  | nil => cases found
  | cons first rest ih =>
      cases index with
      | succ index => exact ih strung.tail index found
      | zero =>
          obtain rfl := Option.some.inj found
          cases rest with
          | nil => exact strung
          | cons next rest =>
              rcases strung.1 with ⟨owed, _⟩ | ⟨_, linked⟩
              · exact owed.elim
              · exact linked

namespace Channel.Lists

variable {channel : Channel Party} {memory : Memory} {list : List Offset} {queue : Queue}
  {errand : Errand Party} {errands : List (Errand Party)} {offset : Offset} {index : Nat}

theorem proper (lists : channel.Lists memory list) (inside : offset ∈ list) : offset ≠ .free :=
  channel.proper (lists.fragments offset inside)

theorem head (lists : channel.Lists memory list) (block : queue.block = channel.block) :
    queue.head memory = .done (list.head?.getD .free) memory := by
  have linked : channel.chain.link memory .free = list.head?.getD .free := by
    have first := lists.holds.strung.link_getElem? 0 rfl
    cases list <;> exact first
  rw [← linked, Chain.link, Chain.linkPlace_free, Queue.head, block]
  rfl

theorem tail_eq (lists : channel.Lists memory list) :
    channel.chain.tail memory = list.getLast?.getD .free := by
  have ends := lists.holds.ends
  rw [List.getLast?_cons] at ends
  exact (Option.some.inj ends).symm

theorem tail (lists : channel.Lists memory list) (block : queue.block = channel.block) :
    queue.tail memory = .done (list.getLast?.getD .free) memory := by
  rw [← lists.tail_eq, Chain.tail, Queue.tail, block]
  rfl

theorem link (lists : channel.Lists memory list) (found : list[index]? = some offset) :
    channel.ownQueue.link offset memory = .done (list[index + 1]?.getD .free) memory := by
  have fragment := lists.fragments offset (List.mem_of_getElem? found)
  have linked : channel.chain.link memory offset = list[index + 1]?.getD .free :=
    lists.holds.strung.link_getElem? (index + 1) found
  rw [Queue.link_eq (Channel.reaches fragment), linked]

theorem head_iff (lists : channel.Lists memory list) :
    list.head?.getD .free = .free ↔ list = [] := by
  cases list with
  | nil => simp
  | cons first rest => simpa using lists.proper List.mem_cons_self

theorem tail_iff (lists : channel.Lists memory list) :
    list.getLast?.getD .free = .free ↔ list = [] := by
  cases ends : list.getLast? with
  | none => simpa using List.getLast?_eq_none_iff.mp ends
  | some last =>
      have inside := List.mem_of_getLast? ends
      simpa [List.ne_nil_of_mem inside] using lists.proper inside

/-- The two words show whether the list is empty. -/
theorem isEmpty (lists : channel.Lists memory list) (block : queue.block = channel.block) :
    queue.isEmpty memory = .done list.isEmpty memory := by
  rw [Queue.isEmpty, Action.bind_done (lists.head block)]
  cases list with
  | nil => rw [List.head?_nil, Option.getD_none, Offset.isFree_free, if_pos rfl,
      Action.bind_done (lists.tail block)]; rfl
  | cons first rest =>
      have shown : ¬first.isFree = true := fun free =>
        lists.proper List.mem_cons_self (Offset.isFree_iff.mp free)
      rw [List.head?_cons, Option.getD_some, if_neg shown]
      rfl

/-- An errand answers what the list answers, and writes no more than it has to. -/
theorem perform (lists : channel.Lists memory list) (allowed : errand.IsAllowed channel list) :
    ∃ after, channel.perform errand memory = .done (errand.answer list) after ∧
      channel.Lists after (errand.leaves list) ∧
      Memory.Keeps (errand.writes channel list) memory after := by
  cases errand with
  | enqueue party offset =>
      obtain ⟨new, away⟩ := allowed
      obtain ⟨after, done, held, keeps⟩ := (Queue.enqueue_writes channel.separate lists.holds
        lists.fragments lists.nodup new away rfl (Channel.senderReaches party new)
        fun other inside =>
          .inl (Channel.senderReaches party (lists.fragments other inside))).done_unit
      refine ⟨after, ?_, ⟨held, ?_, ?_⟩, ?_⟩
      · rw [Channel.perform, Action.bind_done done]
        rfl
      · intro other inside
        rcases List.mem_append.mp inside with inside | inside
        · exact lists.fragments other inside
        · exact List.mem_singleton.mp inside ▸ new
      · exact lists.nodup.append (List.nodup_singleton offset)
          (List.disjoint_singleton.mpr away)
      · rw [lists.tail_eq] at keeps
        exact keeps
  | dequeue =>
      have others : ∀ other ∈ list, channel.ownQueue.ReachesOr channel.chain False other :=
        fun other inside => .inl (Channel.reaches (lists.fragments other inside))
      have meets := Queue.dequeue_meets channel.separate lists.holds lists.fragments lists.nodup
        rfl others
      have gives : (channel.ownQueue.dequeue memory).Meets False fun result state =>
          ∃ value, result = .ok value ∧ value = list.head? ∧
            channel.chain.Holds state list.tail ∧
            Memory.Keeps [(channel.block, 8), (channel.chain.tailPlace, 8)] memory state :=
        meets.mono fun result state ⟨ok, held, keeps⟩ => ⟨list.head?, ok, rfl, held, keeps⟩
      obtain ⟨_, after, done, rfl, held, keeps⟩ := gives.done
      refine ⟨after, done, ⟨held, fun other inside => ?_, ?_⟩, keeps⟩
      · exact lists.fragments other (List.mem_of_mem_tail inside)
      · exact lists.nodup.sublist (List.tail_sublist list)

/-- Errands answer what the list answers, and leave what it leaves. -/
theorem performAll (lists : channel.Lists memory list)
    (allowed : Errand.AreAllowed channel errands list) :
    ∃ after, channel.performAll errands memory = .done (Errand.answers errands list) after ∧
      channel.Lists after (Errand.leavesAll errands list) := by
  induction errands generalizing memory list with
  | nil => exact ⟨memory, rfl, lists⟩
  | cons errand rest ih =>
      obtain ⟨first, done, held, _⟩ := lists.perform allowed.1
      obtain ⟨last, doneRest, heldRest⟩ := ih held allowed.2
      refine ⟨last, ?_, heldRest⟩
      rw [Channel.performAll, Action.bind_done done, Action.bind_done doneRest]
      rfl

end Channel.Lists

/-! ## Senders that stand still -/

variable [DecidableEq Party] {channel : Channel Party} {traffic : Traffic Party}

/-- The moment after a number of errands: nobody does anything, and what has been appended and taken
is on record. -/
def Traffic.settled (memory : Memory) (errands : List (Errand Party)) : Traffic Party where
  memory := memory
  senders := fun _ => .idle
  receiver := .idle
  appended := Errand.sends errands
  taken := (Errand.answers errands []).filterMap id

theorem Channel.Lists.orderly {memory : Memory} {errands : List (Errand Party)}
    (lists : channel.Lists memory (Errand.leavesAll errands [])) :
    Orderly channel (.settled memory errands) (Errand.leavesAll errands []) where
  history := by
    have sends := Errand.sends_eq errands []
    rwa [List.nil_append] at sends
  fragments := lists.fragments
  nodup := lists.nodup
  ends := lists.holds.ends
  strung := by
    refine lists.holds.strung.congr (fun _ _ => rfl) fun _ _ _ => ⟨?_, False.elim⟩
    rintro ⟨party, owes⟩
    cases owes
  receiver := trivial
  headless still := absurd rfl still
  senders _ := trivial
  sending carries := nomatch carries
  alone carries := nomatch carries

theorem Orderly.steps {queue : List Offset} {after : Traffic Party}
    (orderly : Orderly channel traffic queue) (later : ReflTransGen channel.Step traffic after) :
    ∃ rest, Orderly channel after rest := by
  induction later with
  | refl => exact ⟨queue, orderly⟩
  | tail _ step ih =>
      obtain ⟨rest, kept⟩ := ih
      exact kept.step step

/-- A sender that owes a link has appended a fragment that is still queued, so there is a tail. -/
theorem Orderly.tail_of_owes {queue : List Offset} {previous offset : Offset}
    (orderly : Orderly channel traffic queue) (owes : traffic.Owes previous offset) :
    channel.chain.tail traffic.memory ≠ .free := by
  have inside : offset ∈ queue := by
    obtain ⟨party, stands⟩ := owes
    have fragment : channel.IsFragment offset := orderly.sending (show
      (traffic.senders party).fragment? = some offset by rw [stands]; rfl)
    exact (Receiver.mem_line (orderly.owing ⟨party, stands⟩).right).resolve_left
      (channel.proper fragment)
  rcases List.eq_nil_or_concat queue with rfl | ⟨rest, last, rfl⟩
  · cases inside
  · have ends := orderly.ends
    rw [List.concat_eq_append, Receiver.line_append, List.getLast?_concat] at ends
    obtain rfl := Option.some.inj ends
    exact orderly.proper (by simp)

/-- A queue that somebody has appended to and not yet linked does not look empty. -/
theorem Orderly.isEmpty_of_owes {list : List Offset} {previous offset : Offset} {queue : Queue}
    (orderly : Orderly channel traffic list) (owes : traffic.Owes previous offset)
    (block : queue.block = channel.block) :
    queue.isEmpty traffic.memory = .done false traffic.memory := by
  have head : queue.head traffic.memory =
      .done (channel.chain.link traffic.memory .free) traffic.memory := by
    rw [Chain.link, Chain.linkPlace_free, Queue.head, block]
    rfl
  have tail : queue.tail traffic.memory =
      .done (channel.chain.tail traffic.memory) traffic.memory := by
    rw [Chain.tail, Queue.tail, block]
    rfl
  have shown : (channel.chain.tail traffic.memory).isFree = false :=
    Orderly.isFree_eq_false (orderly.tail_of_owes owes)
  rw [Queue.isEmpty, Action.bind_done head]
  split
  · rw [Action.bind_done tail, shown]
    rfl
  · rfl

/-- **A queue is a list.** From empty control words, whatever else memory holds, errands return what
they would return on a list. Afterwards the head is the first of what is left of the list and the
tail is the last, each fragment is linked to the next one, and no further errand writes more than
the words at the end that it changes; to take a fragment changes nothing but the head and the tail.
If senders go on from there and one of them stands still after it has become the tail, the queue is
not empty, whatever the others and the receiver do. -/
theorem Channel.errands_as_list {memory : Memory} {errands : List (Errand Party)}
    (noHead : channel.chain.link memory .free = .free)
    (noTail : channel.chain.tail memory = .free)
    (allowed : Errand.AreAllowed channel errands []) :
    ∃ list after, list = Errand.leavesAll errands [] ∧
      channel.performAll errands memory = .done (Errand.answers errands []) after ∧
      (∀ queue : Queue, queue.block = channel.block →
        queue.head after = .done (list.head?.getD .free) after ∧
        queue.tail after = .done (list.getLast?.getD .free) after ∧
        queue.isEmpty after = .done list.isEmpty after) ∧
      (list.head?.getD .free = .free ↔ list = []) ∧
      (list.getLast?.getD .free = .free ↔ list = []) ∧
      (∀ index offset, list[index]? = some offset →
        channel.ownQueue.link offset after = .done (list[index + 1]?.getD .free) after) ∧
      (∀ errand : Errand Party, errand.IsAllowed channel list →
        ∃ changed, channel.perform errand after = .done (errand.answer list) changed ∧
          Memory.Keeps (errand.writes channel list) after changed) ∧
      (∀ answer changed, channel.perform .dequeue after = .done answer changed →
        ∀ place count, Memory.Apart place count channel.block 16 →
          changed.read place count = after.read place count) ∧
      ∀ traffic, ReflTransGen channel.Step (.settled after errands) traffic →
        (∃ previous offset, traffic.Owes previous offset) →
        ∀ queue : Queue, queue.block = channel.block →
          queue.isEmpty traffic.memory = .done false traffic.memory := by
  have empty : channel.Lists memory [] :=
    ⟨Chain.holds_nil noHead noTail, List.forall_mem_nil _, List.nodup_nil⟩
  obtain ⟨after, done, lists⟩ := empty.performAll allowed
  refine ⟨_, after, rfl, done, fun queue block => ⟨lists.head block, lists.tail block,
    lists.isEmpty block⟩, lists.head_iff, lists.tail_iff, fun index offset found =>
    lists.link found, fun errand fits => ?_, fun answer changed taken place count apart => ?_, ?_⟩
  · obtain ⟨changed, performed, _, keeps⟩ := lists.perform fits
    exact ⟨changed, performed, keeps⟩
  · have fits : Errand.IsAllowed channel .dequeue (Errand.leavesAll errands []) := trivial
    obtain ⟨_, performed, _, keeps⟩ := lists.perform fits
    obtain ⟨_, rfl⟩ := Outcome.done.inj (taken.symm.trans performed)
    have head : Memory.Apart place count channel.block 8 := by
      intro same
      have split := apart same
      omega
    have tail : Memory.Apart place count channel.chain.tailPlace 8 := by
      intro same
      have split := apart same
      simp only [Chain.tailPlace, Channel.chain, Place.shift, QueueField.tail]
      omega
    exact keeps.read (by simp [Errand.writes, head, tail])
  · rintro traffic later ⟨previous, offset, owes⟩ queue block
    obtain ⟨list, orderly⟩ := lists.orderly.steps later
    exact orderly.isEmpty_of_owes owes block

/-- Two errands of different senders and one of the receiver, and the first fragment is appended
again while its link is the one from before. -/
def reuseErrands : List (Errand Bool) :=
  [.enqueue false ⟨0, 384⟩, .enqueue true ⟨1, 448⟩, .dequeue, .enqueue true ⟨0, 384⟩, .dequeue,
    .dequeue]

/-- All that was appended has been taken. Then a sender stands still after it has become the tail,
and the queue is not empty. -/
theorem errands_as_list_reused : ∃ (after : Memory) (traffic : Traffic Bool),
    Errand.AreAllowed twoSenders reuseErrands [] ∧
    twoSenders.performAll reuseErrands quiet =
      .done [none, none, some ⟨0, 384⟩, none, some ⟨1, 448⟩, some ⟨0, 384⟩] after ∧
    twoSenders.ownQueue.isEmpty after = .done true after ∧
    ReflTransGen twoSenders.Step (.settled after reuseErrands) traffic ∧
    traffic.Owes .free ⟨1, 448⟩ ∧
    twoSenders.ownQueue.isEmpty traffic.memory = .done false traffic.memory := by
  have one : twoSenders.IsFragment ⟨0, 384⟩ := ⟨⟨_, rfl, rfl, by decide⟩, by decide⟩
  have two : twoSenders.IsFragment ⟨1, 448⟩ := ⟨⟨_, rfl, rfl, by decide⟩, by decide⟩
  have allowed : Errand.AreAllowed twoSenders reuseErrands [] :=
    ⟨⟨one, by decide⟩, ⟨two, by decide⟩, trivial, ⟨one, by decide⟩, trivial, trivial, trivial⟩
  obtain ⟨list, after, rfl, done, ends, _, _, _, _, _, gap⟩ :=
    Channel.errands_as_list (show twoSenders.chain.link quiet .free = .free by decide)
      (by decide) allowed
  obtain ⟨_, tail, empty⟩ := ends twoSenders.ownQueue rfl
  have noTail : twoSenders.chain.tail after = .free := (Outcome.done.inj tail).1
  have steps := ReflTransGen.single (@Channel.Step.begin _ _ twoSenders
    (.settled after reuseErrands) true _ rfl two (fun inside => nomatch inside)
    (by rintro ⟨party, sends⟩; cases party <;> cases sends))
  have unlink := Queue.setLink_eq (Channel.senderReaches true two) .free after
  have steps := steps.tail (@Channel.Step.send _ _ _ _ true (.arriving ⟨1, 448⟩) _
    (Action.bind_done unlink _))
  have arrive := Queue.exchangeTail_eq (show (twoSenders.queueOf true).block =
    twoSenders.chain.block from rfl) ⟨1, 448⟩ (twoSenders.chain.setLink after ⟨1, 448⟩ .free)
  rw [Chain.tail_setLink twoSenders.separate (.inr two), noTail] at arrive
  have steps := steps.tail (@Channel.Step.send _ _ _ _ true (.owing .free ⟨1, 448⟩) _
    (Action.bind_done arrive _))
  exact ⟨after, _, allowed, done, empty, steps, ⟨true, rfl⟩, gap _ steps ⟨_, _, true, rfl⟩ _ rfl⟩

end RankMail
