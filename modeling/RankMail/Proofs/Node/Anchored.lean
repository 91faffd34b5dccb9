import RankMail.Proofs.Memory.Scope
import RankMail.Proofs.Node.Peers
import RankMail.Proofs.Pool.Recycling

set_option autoImplicit false

/-! # The segment of an arena

The pool of a node carves from the segment that the node was made with. Whatever there is in memory,
and whatever the node does, this stays so (`Reached.arena_segment`): nothing that is read from
memory decides which segment it is.
-/

namespace RankMail

/-! ## Pools -/

theorem Arena.carve_segment (sizeClass : SizeClass) (scene : Scene Arena) :
    (Arena.carve sizeClass scene).Meets True fun _ after =>
      after.actor.segment = scene.actor.segment := by
  rw [Arena.carve, Action.bind_done (Scene.self_apply _)]
  cases slotSize (scene.actor.capacities.capacity sizeClass) with
  | none => exact rfl
  | some size =>
      refine Action.meets_bind (Action.meets_within.mpr (Outcome.meets_any ?_))
      rintro (fault | _ | position) memory
      · exact rfl
      · exact rfl
      · dsimp only
        rw [Arena.carveAt, Action.bind_done (Scene.self_apply _)]
        split <;> exact rfl

namespace Pool

/-- Nothing of a state of a pool is hidden, and its arena keeps its segment. -/
def anchor : Scope (Scene Pool) := .keeping fun scene => scene.actor.arena.segment

variable {scene : Scene Pool}

theorem carve_anchored (sizeClass : SizeClass) :
    anchor.Bounds (inArena (Arena.carve sizeClass)) scene :=
  Scope.bounds_keeping (meets_inArena.mpr (Arena.carve_segment sizeClass _))

theorem grow_anchored (sizeClass : SizeClass) (count : Nat) :
    ∀ {scene}, anchor.Bounds (grow sizeClass count) scene := by
  induction count with
  | zero => exact Scope.bounds_pure ()
  | succ count ih =>
      refine Scope.bounds_bind (Scope.bounds_attempt (carve_anchored sizeClass))
        fun {result _} _ => ?_
      rcases result with fault | extra
      · cases fault with
        | exhausted => exact Scope.bounds_pure ()
        | _ => exact Scope.bounds_fail _
      · exact Scope.bounds_bind (Scope.bounds_keeping (by rw [push_eq]; rfl)) fun _ => ih

theorem get_anchored (sizeClass : SizeClass) : anchor.Bounds (get sizeClass) scene := by
  refine Scope.bounds_keeping ?_
  rw [get, Action.bind_done (Scene.self_apply _)]
  cases scene.actor.free.get sizeClass with
  | cons fragment rest => exact rfl
  | nil =>
      exact (Scope.bounds_bind (carve_anchored sizeClass) fun _ =>
        Scope.bounds_bind (grow_anchored sizeClass _) fun _ => Scope.bounds_pure _).leaves

theorem MayRegain.segment {before after : Scene Pool} (regained : MayRegain before after) :
    after.actor.arena.segment = before.actor.arena.segment := by
  rcases regained with rfl | ⟨_, _, _, _, rfl⟩ <;> rfl

theorem recycle_anchored (address : Nat) : anchor.Bounds (recycle address) scene :=
  Scope.bounds_keeping ((recycle_meets address scene).mono fun _ _ => MayRegain.segment)

theorem put_anchored (fragment : Fragment) : anchor.Bounds (put fragment) scene :=
  Scope.bounds_keeping ((put_meets fragment scene).mono fun _ _ => MayRegain.segment)

end Pool

/-! ## Nodes -/

namespace Node

variable {Value : Type} {scene : Scene Node} {node : Node}

/-- Nothing of a state of a node is hidden, and it keeps its segment, from which its pool carves. -/
def anchor : Scope (Scene Node) :=
  .keeping fun scene => (scene.actor.segment, scene.actor.pool.arena.segment)

theorem look_anchored (view : Scene Node → Value) : anchor.Bounds (.look view) scene :=
  Scope.bounds_look fun same => congrArg view same

theorem inMemory_anchored (action : Action Memory Value) :
    anchor.Bounds (Scene.inMemory action) scene :=
  Scope.bounds_keeping (Action.meets_within.mpr (Outcome.meets_any fun _ _ => rfl))

theorem inPool_anchored {action : Action (Scene Pool) Value}
    (bounds : ∀ {scene}, Pool.anchor.Bounds action scene) :
    anchor.Bounds (inPool action) scene :=
  Scope.bounds_keeping (meets_inPool.mpr
    (bounds.leaves.mono fun _ _ kept => congrArg (Prod.mk scene.actor.segment) kept))

theorem writeToPeer_anchored (peer : UInt32) (fragment : Fragment) :
    anchor.Bounds (writeToPeer peer fragment) scene := by
  refine Scope.bounds_bind (look_anchored _) fun {node _} _ => ?_
  cases node.segmentOf? peer with
  | none => exact Scope.bounds_bind (inPool_anchored (Pool.put_anchored _)) fun _ =>
      Scope.bounds_fail _
  | some target => exact Scope.bounds_bind (Scope.bounds_ofAbort _) fun _ => inMemory_anchored _

theorem send_anchored (peer : UInt32) (payload : List UInt8) :
    anchor.Bounds (send peer payload) scene := by
  refine Scope.bounds_bind (look_anchored _) fun {node _} _ => ?_
  cases node.classFor payload.length with
  | error fault => exact Scope.bounds_fail fault
  | ok sizeClass =>
      refine Scope.bounds_bind (Scope.bounds_pure sizeClass) fun _ => ?_
      refine Scope.bounds_bind (inPool_anchored (Pool.get_anchored _)) fun _ => ?_
      exact Scope.bounds_bind (inMemory_anchored _) fun _ => writeToPeer_anchored _ _

theorem reclaim_anchored (address : Nat) : anchor.Bounds (reclaim address) scene :=
  Scope.bounds_bind (Scope.bounds_attempt (inPool_anchored (Pool.recycle_anchored address)))
    fun _ => Scope.bounds_pure ()

theorem readWithin_anchored (fuel : Nat) : ∀ {scene}, anchor.Bounds (readWithin fuel) scene := by
  induction fuel with
  | zero => exact Scope.bounds_hang
  | succ fuel ih =>
      refine Scope.bounds_bind (look_anchored _) fun _ => ?_
      refine Scope.bounds_bind (inMemory_anchored _) fun {taken _} _ => ?_
      cases taken with
      | none => exact Scope.bounds_pure none
      | some offset =>
          refine Scope.bounds_bind (Scope.bounds_ofAbort _) fun _ => ?_
          refine Scope.bounds_bind (Scope.bounds_ofAbort _) fun _ => ?_
          refine Scope.bounds_bind (look_anchored _) fun _ => ?_
          split
          · exact Scope.bounds_bind (reclaim_anchored _) fun _ => ih
          · exact Scope.bounds_bind (Scope.bounds_ofAbort _) fun _ => Scope.bounds_pure _

theorem release_anchored (message : Message) : anchor.Bounds (release message) scene := by
  refine Scope.bounds_bind (look_anchored _) fun _ => ?_
  split
  · exact inPool_anchored (Pool.recycle_anchored _)
  · refine Scope.bounds_bind (look_anchored _) fun {node _} _ => ?_
    cases node.segmentOf? message.owner with
    | none => exact Scope.bounds_fail _
    | some target => exact Scope.bounds_bind (Scope.bounds_ofAbort _) fun _ => inMemory_anchored _

theorem detachPeer_anchored (rank : UInt32) : anchor.Bounds (detachPeer rank) scene := by
  refine Scope.bounds_keeping ?_
  rw [detachPeer, Action.bind_done (Scene.self_apply _)]
  split <;> exact rfl

theorem Deed.anchored (deed : Deed) : anchor.Bounds deed.perform scene := by
  cases deed with
  | detachPeer rank =>
      exact Scope.bounds_bind (detachPeer_anchored rank) fun _ => Scope.bounds_pure ()
  | alloc sizeClass =>
      exact Scope.bounds_bind (inPool_anchored (Pool.get_anchored _)) fun _ => Scope.bounds_pure ()
  | free fragment => exact inPool_anchored (Pool.put_anchored _)
  | writeToPeer peer fragment => exact writeToPeer_anchored peer fragment
  | send peer payload => exact send_anchored peer payload
  | read =>
      refine Scope.bounds_bind ?_ fun _ => Scope.bounds_pure ()
      exact Scope.bounds_bind (look_anchored _) fun _ => readWithin_anchored _
  | release message => exact release_anchored message
  | wait bound => exact Scope.bounds_bind (look_anchored _) fun _ => inMemory_anchored _

theorem AttachEnds.anchored {world : World} {rank : UInt32} {state : Node × World}
    {outcome : Outcome (Node × World) Unit} (ends : AttachEnds node world rank outcome)
    (comes : outcome.state? = some state) :
    state.1.segment = node.segment ∧ state.1.pool = node.pool := by
  cases ends with
  | known | refused | joins =>
      obtain rfl := Option.some.inj comes
      exact ⟨rfl, rfl⟩
  | waits | oversteps => cases comes

/-- The pool of every node carves from the segment of the node. -/
theorem Reached.arena_segment (reached : node.Reached) :
    node.pool.arena.segment = node.segment := by
  induction reached with
  | create created =>
      obtain ⟨_, segment, _, addresses, _, rfl⟩ := create_done_ends created
      rfl
  | attach reached positive ends ih =>
      obtain ⟨segment, pool⟩ := (attachPeer_ends _ positive _).anchored ends
      rw [pool, ih, segment]
  | perform reached ends ih =>
      obtain ⟨segment, arena⟩ := Prod.mk.inj ((Deed.anchored _).leaves.post_of_state ends)
      rw [arena, ih, segment]

end Node

end RankMail
