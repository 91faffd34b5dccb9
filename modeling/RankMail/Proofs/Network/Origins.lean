import RankMail.Proofs.Network.Runs

set_option autoImplicit false

/-! # Who has put what into a queue

The words of a queue do not say who has put a slot into it. `Network.PutBy` does: it follows a run
back to the step before which the slot was not in the queue, and after which it has been there all
the time.

A slot comes into a queue when somebody sends it or when somebody who has read it gives it back, and
each time its flag is written anew. So however often a slot has been used before, the flag says by
which of the two it came (`Network.PutBy.isBack_iff`):

    put by                     own    flag
    send, also to oneself      any    no
    release by another rank    yes    yes
-/

namespace RankMail

namespace Network

/-- A slot is in the queue of a rank: the words of the queue hold a line in which it is. -/
def IsQueued (network : Network) (rank : UInt32) (offset : Offset) : Prop :=
  ∃ node line, network.nodes rank = some node ∧ .free ∉ line ∧
    (network.chain rank).Holds network.world.memory line ∧ offset ∈ line

def isBack (network : Network) (rank : UInt32) (offset : Offset) : Bool :=
  offset.rank = rank && network.isReturned offset

/-- One thing that happens to a network, and by which operation, if it is one. -/
inductive Step (directory : String) (network : Network) : Option Operation → Network → Prop
  | turn (process : UInt32) (addresses : AddressSpace) :
      Step directory network none (network.turned process addresses)
  | create {rank : UInt32} {config : Config} {node : Node} {world : World}
      (new : network.nodes rank = none)
      (created : Node.create directory rank config network.world = .done node world) :
      Step directory network none (network.joined rank node world)
  | perform {after : Network} (operation : Operation)
      (ends : (operation.perform network).state? = some after) :
      Step directory network (some operation) after
  | close {segment : Segment} {world : World} (member : segment ∈ network.world.segments)
      (unkept : ¬network.Keeps segment.file.base)
      (closed : segment.close network.world = .done () world) :
      Step directory network none { network with world }

/-- A slot is in the queue of a rank, and has been there since a step has put it there. -/
inductive PutBy (directory : String) (rank : UInt32) (offset : Offset)
    (cause : Option Operation) : Network → Prop
  | put {network after : Network} (reached : Reached directory network)
      (absent : ¬network.IsQueued rank offset) (step : Step directory network cause after)
      (present : after.IsQueued rank offset) : PutBy directory rank offset cause after
  | stay {network after : Network} {other : Option Operation}
      (put : PutBy directory rank offset cause network) (step : Step directory network other after)
      (present : after.IsQueued rank offset) : PutBy directory rank offset cause after

def GivenBack (rank : UInt32) (cause : Option Operation) : Prop :=
  ∃ delivery, cause = some (.release delivery) ∧ delivery.reader ≠ rank

variable {directory : String} {network after : Network} {rank : UInt32} {offset : Offset}
  {cause : Option Operation} {item : Item}

/-- Everything in the queue of a rank has been put there. -/
theorem Reached.putBy (reached : Reached directory network) :
    network.IsQueued rank offset → ∃ cause, PutBy directory rank offset cause network := by
  -- A step leaves the slot where it was, or has put it there.
  have goOn : ∀ {network after : Network} {cause : Option Operation},
      Reached directory network → Step directory network cause after →
      (network.IsQueued rank offset → ∃ cause, PutBy directory rank offset cause network) →
      after.IsQueued rank offset → ∃ cause, PutBy directory rank offset cause after := by
    intro network after cause reached step ih present
    by_cases queued : network.IsQueued rank offset
    · obtain ⟨earlier, put⟩ := ih queued
      exact ⟨earlier, .stay put step present⟩
    · exact ⟨cause, .put reached queued step present⟩
  induction reached with
  | start proper =>
      rintro ⟨_, _, found, _⟩
      cases found
  | turn process addresses reached ih => exact goOn reached (.turn process addresses) ih
  | create reached new created ih => exact goOn reached (.create new created) ih
  | perform operation reached ends ih => exact goOn reached (.perform operation ends) ih
  | close reached member unkept closed ih => exact goOn reached (.close member unkept closed) ih

theorem Carries.isBack_eq (carries : network.Carries rank item) :
    network.isBack rank item.offset = item.isBack := by
  obtain ⟨offset, letter⟩ := item
  cases letter with
  | none =>
      obtain ⟨flag, own⟩ := carries
      rw [isBack, flag, Bool.and_true]
      exact decide_eq_true own
  | some letter =>
      rw [isBack, carries.1, Bool.and_false]
      rfl

end Network

/-! ## What is pending -/

namespace Operation.Turns

variable {operation : Operation} {rank : UInt32} {line lineAfter : List Item} {item : Item}

/-- Either nothing has been added to what is pending; or one item comes last, and it is on its way
back exactly if another rank has given it back. -/
theorem shape (turns : operation.Turns rank line lineAfter) : lineAfter <:+ line ∨
    ∃ last, lineAfter = line ++ [last] ∧
      (last.isBack = true ↔ Network.GivenBack rank (some operation)) := by
  cases turns with
  | stay => exact .inl (List.suffix_refl line)
  | read behind => exact .inl behind
  | send | writeToPeer => exact .inr ⟨_, rfl, by simp [Item.isBack, Network.GivenBack]⟩
  | release foreign => exact .inr ⟨_, rfl, iff_of_true rfl ⟨_, rfl, foreign⟩⟩

theorem kept (turns : operation.Turns rank line lineAfter)
    (nodup : (lineAfter.map Item.offset).Nodup) (inside : item ∈ lineAfter)
    (before : item.offset ∈ line.map Item.offset) : item ∈ line := by
  rcases turns.shape with behind | ⟨last, rfl, _⟩
  · exact behind.subset inside
  · rcases List.mem_append.mp inside with inside | same
    · exact inside
    · obtain rfl := List.mem_singleton.mp same
      rw [List.map_append, List.nodup_append] at nodup
      exact absurd rfl (nodup.2.2 _ before _ List.mem_cons_self)

/-- What was not pending before is on its way back exactly if another rank has given it back. -/
theorem isBack_iff (turns : operation.Turns rank line lineAfter) (inside : item ∈ lineAfter)
    (new : item.offset ∉ line.map Item.offset) :
    item.isBack = true ↔ Network.GivenBack rank (some operation) := by
  have absent : item ∉ line := fun old => new (List.mem_map.mpr ⟨item, old, rfl⟩)
  rcases turns.shape with behind | ⟨last, rfl, back⟩
  · exact absurd (behind.subset inside) absent
  · obtain rfl := List.mem_singleton.mp ((List.mem_append.mp inside).resolve_left absent)
    exact back

end Operation.Turns

namespace Settled

variable {directory : String} {mapped : List Segment} {network after : Network}
  {pending : UInt32 → List Item} {rank : UInt32} {offset : Offset} {cause : Option Operation}

theorem isQueued_iff (settled : Settled directory mapped network pending) :
    network.IsQueued rank offset ↔ offset ∈ (pending rank).map Item.offset := by
  have sound := settled.sound
  have proper : .free ∉ (pending rank).map Item.offset := fun inside =>
    (sound.charted.separate sound.carved rank).proper (sound.isCarved (.queued rank) inside) rfl
  constructor
  · rintro ⟨node, line, found, properLine, holds, inside⟩
    rwa [holds.strung.unique (sound.holds found).strung properLine proper] at inside
  · intro inside
    cases found : network.nodes rank with
    | none =>
        rw [sound.nobody found] at inside
        cases inside
    | some node => exact ⟨node, _, found, proper, sound.holds found, inside⟩

/-- A step leaves a settled network settled, and makes of what is pending what its operation may
make of it. -/
theorem step (settled : Settled directory mapped network pending)
    (step : Network.Step directory network cause after) :
    ∃ mapped pendingAfter, Settled directory mapped after pendingAfter ∧
      ∀ rank, pendingAfter rank = pending rank ∨ ∃ operation, cause = some operation ∧
        operation.Turns rank (pending rank) (pendingAfter rank) := by
  cases step with
  | turn process addresses =>
      exact ⟨mapped, pending, settled.turn process addresses, fun _ => .inl rfl⟩
  | create new created => exact ⟨_, pending, settled.create new created, fun _ => .inl rfl⟩
  | perform operation ends =>
      have proceeds := (settled.perform_meets operation).mono fun _ _ => Proceeds.settled
      obtain ⟨mappedAfter, pendingAfter, settledAfter, turns⟩ := proceeds.post_of_state ends
      exact ⟨mappedAfter, pendingAfter, settledAfter, fun rank => .inr ⟨operation, rfl, turns rank⟩⟩
  | close member unkept closed =>
      exact ⟨mapped, pending, settled.close member unkept closed, fun _ => .inl rfl⟩

end Settled

namespace Network.PutBy

variable {directory : String} {network : Network} {rank : UInt32} {offset : Offset}
  {cause : Option Operation}

/-- A slot in a queue is an item that is pending, and the item says who has put it there. -/
theorem pending (put : PutBy directory rank offset cause network) :
    ∃ mapped pending, Settled directory mapped network pending ∧ ∃ item ∈ pending rank,
      item.offset = offset ∧ (item.isBack = true ↔ GivenBack rank cause) := by
  induction put with
  | put reached absent step present =>
      obtain ⟨mapped, pending, settled⟩ := reached.settled
      obtain ⟨mappedAfter, pendingAfter, settledAfter, turns⟩ := settled.step step
      rw [settled.isQueued_iff] at absent
      obtain ⟨item, inside, rfl⟩ := List.mem_map.mp (settledAfter.isQueued_iff.mp present)
      refine ⟨mappedAfter, pendingAfter, settledAfter, item, inside, rfl, ?_⟩
      rcases turns rank with same | ⟨operation, rfl, put⟩
      · exact absurd (List.mem_map.mpr ⟨item, same ▸ inside, rfl⟩) absent
      · exact put.isBack_iff inside absent
  | stay put step present ih =>
      obtain ⟨mapped, pending, settled, before, insideBefore, rfl, who⟩ := ih
      obtain ⟨mappedAfter, pendingAfter, settledAfter, turns⟩ := settled.step step
      obtain ⟨item, inside, same⟩ := List.mem_map.mp (settledAfter.isQueued_iff.mp present)
      refine ⟨mappedAfter, pendingAfter, settledAfter, item, inside, same, ?_⟩
      have still : item ∈ pending rank := by
        rcases turns rank with equal | ⟨operation, _, turns⟩
        · exact equal ▸ inside
        · exact turns.kept (settledAfter.sound.exact.nodup (.queued rank)) inside
            (List.mem_map.mpr ⟨before, insideBefore, same.symm⟩)
      -- A slot is pending once, so it is still the item that it was.
      rwa [List.inj_on_of_nodup_map (settled.sound.exact.nodup (.queued rank)) still insideBefore
        same]

/-- A slot in the queue of a rank is its own and has the flag exactly if another rank has given it
back. -/
theorem isBack_iff (put : PutBy directory rank offset cause network) :
    network.isBack rank offset = true ↔ GivenBack rank cause := by
  obtain ⟨mapped, pending, settled, item, inside, rfl, who⟩ := put.pending
  rw [(settled.sound.items inside).isBack_eq]
  exact who

end Network.PutBy

end RankMail
