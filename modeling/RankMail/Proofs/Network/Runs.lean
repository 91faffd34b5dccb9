import RankMail.Proofs.Network.Creating
import RankMail.Proofs.Network.Operations

set_option autoImplicit false

/-! # Runs

Every network that is reached is settled (`Network.Reached.settled`): one lemma for each operation,
put together by cases, and from it by induction what a run keeps. In a network of which all nodes
have attached each other no run of operations aborts or hangs, as long as nothing is attached or
detached and each fragment is used with its own node (`Settled.run`).
-/

namespace RankMail

variable {directory : String} {mapped : List Segment} {network after : Network}
  {pending : UInt32 → List Item}

/-- Every operation leaves a settled network settled, and it ends unless nodes have to do with what
they have not attached. -/
theorem Settled.perform_meets (settled : Settled directory mapped network pending)
    (operation : Operation) :
    (operation.perform network).Meets (¬(operation.IsOrderly ∧ network.IsWhole))
      (Proceeds directory network pending operation) := by
  have whole : network.IsWhole ∨ ¬(operation.IsOrderly ∧ network.IsWhole) :=
    (Classical.em network.IsWhole).imp_right fun broken both => broken both.2
  have same : ∀ result state, Proceeds directory network pending operation result state →
      Proceeds directory network pending operation result state := fun _ _ => id
  cases operation with
  | alloc rank sizeClass =>
      refine Action.meets_bind ((settled.alloc_meets rank sizeClass).always ?_)
      rintro (fault | fragment) after ⟨settled, whole, _, retired, carved, _⟩ <;>
        exact ⟨⟨mapped, pending, settled, fun _ => .stay⟩, fun _ => whole, .inl retired, carved⟩
  | write fragment data => exact (settled.fill_meets (fragment.fills_write data) _).always same
  | setLength fragment length =>
      exact (settled.fill_meets (fragment.fills_setLength length) _).always same
  | edit fragment start data =>
      exact (settled.fill_meets (fragment.fills_edit start data) _).always same
  | writeToPeer rank peer fragment =>
      refine settled.writeToPeer_meets whole ?_ peer
      exact (Classical.em (fragment.segment.rank = rank)).imp_right fun foreign both =>
        foreign both.1
  | send rank peer payload => exact settled.send_meets whole rank peer payload
  | free rank fragment => exact (settled.free_meets rank fragment).always same
  | drop fragment => exact (settled.drop_meets fragment).always same
  | read rank =>
      refine Action.meets_bind ((settled.read_meets whole rank).mono ?_)
      rintro (fault | message) after
          ⟨⟨pendingAfter, settled, turns, _⟩, whole, retired, _, carved, _⟩ <;>
        exact ⟨⟨mapped, pendingAfter, settled, turns⟩, fun _ => whole, .inl retired, carved⟩
  | release delivery => exact settled.release_meets whole delivery
  | discard delivery => exact (settled.discard_meets delivery).always same
  | attach rank peer =>
      refine (settled.attach_meets rank peer).excuse ?_
      exact fun _ both => both.1
  | detach rank peer => exact (settled.detach_meets rank peer).always same

/-- Every network that is reached is settled. -/
theorem Network.Reached.settled (reached : Network.Reached directory network) :
    ∃ mapped pending, Settled directory mapped network pending := by
  induction reached with
  | start proper =>
      have positive : 0 < 16 * pageSize := by decide
      exact ⟨[], _, .start proper rfl ⟨positive, Nat.mul_mod_left 16 pageSize⟩⟩
  | turn process addresses reached ih =>
      obtain ⟨mapped, pending, settled⟩ := ih
      exact ⟨mapped, pending, settled.turn process addresses⟩
  | create reached new created ih =>
      obtain ⟨mapped, pending, settled⟩ := ih
      exact ⟨_, pending, settled.create new created⟩
  | perform operation reached ends ih =>
      obtain ⟨mapped, pending, settled⟩ := ih
      have proceeds := (settled.perform_meets operation).mono fun _ _ => Proceeds.settled
      obtain ⟨mappedAfter, pendingAfter, settledAfter, _⟩ := proceeds.post_of_state ends
      exact ⟨mappedAfter, pendingAfter, settledAfter⟩
  | close reached member unkept closed ih =>
      obtain ⟨mapped, pending, settled⟩ := ih
      exact ⟨mapped, pending, settled.close member unkept closed⟩

theorem Network.Reached.run (operations : List Operation)
    (reached : Network.Reached directory network) (ends : network.run operations = some after) :
    Network.Reached directory after := by
  induction operations generalizing network with
  | nil =>
      obtain rfl := Option.some.inj ends
      exact reached
  | cons operation rest ih =>
      obtain ⟨next, performed, ends⟩ := Option.bind_eq_some_iff.mp ends
      exact ih (.perform operation reached performed) ends

/-- In a whole network every run of orderly operations comes to an end, and the network is settled
and whole again. -/
theorem Settled.run (operations : List Operation)
    (settled : Settled directory mapped network pending) (whole : network.IsWhole)
    (orderly : ∀ operation ∈ operations, operation.IsOrderly) :
    ∃ after, network.run operations = some after ∧ after.IsWhole ∧
      ∃ mappedAfter pendingAfter, Settled directory mappedAfter after pendingAfter := by
  induction operations generalizing network mapped pending with
  | nil => exact ⟨network, rfl, whole, mapped, pending, settled⟩
  | cons operation rest ih =>
      have first := orderly operation List.mem_cons_self
      have performs := settled.perform_meets operation
      obtain ⟨next, performed⟩ := performs.state fun excused => excused ⟨first, whole⟩
      obtain ⟨_, _, settledNext, _⟩ :=
        (performs.mono fun _ _ => Proceeds.settled).post_of_state performed
      have wholeNext := (performs.mono fun _ _ proceeds =>
        proceeds.whole first whole).post_of_state performed
      obtain ⟨after, ends, kept⟩ := ih settledNext wholeNext fun other inside =>
        orderly other (List.mem_cons_of_mem _ inside)
      exact ⟨after, Option.bind_eq_some_iff.mpr ⟨next, performed, ends⟩, kept⟩

end RankMail
