import RankMail.Proofs.Network.Refusals

set_option autoImplicit false

/-! # Steps that carve nothing

A node carves slots when it takes one and has none of the class. Nothing else that it does touches
its arena, and then no cursor moves in any segment either, since cursors lie before all that is
written otherwise:

    0         40         queue         doorbell         slots
      cursor   |  written by whoever reads, gives back, waits, or sends an unused slot

`Scene.Steady` says so of a node that acts, and `Network.Steady` of all nodes.
-/

namespace RankMail

/-! ## Waiting -/

theorem Queue.isEmpty_looks (queue : Queue) (memory : Memory) :
    ∃ answer, queue.isEmpty memory = .done answer memory := by
  have head : queue.head memory = .done _ memory := Action.look_apply _ _
  rw [Queue.isEmpty, Action.bind_done head]
  split
  · exact ⟨_, rfl⟩
  · exact ⟨_, rfl⟩

namespace Doorbell

variable {ready : Action Memory Bool}

def waitersRange (bell : Doorbell) : Place × Nat :=
  (bell.block.shift DoorbellField.waiters.distance, DoorbellField.waiters.width)

/-- Whoever parks for a bounded time comes back, and has only counted itself on and off. -/
theorem park_writes (bell : Doorbell) (limit : Nat)
    (looks : ∀ memory, ∃ answer, ready memory = .done answer memory) (memory : Memory) :
    ∃ after, bell.park (some limit) ready memory = .done () after ∧
      memory.Keeps [bell.waitersRange] after := by
  let enlisted := memory.store DoorbellField.waiters bell.block
    (memory.load DoorbellField.waiters bell.block + 1)
  let withdrawn := enlisted.store DoorbellField.waiters bell.block
    (enlisted.load DoorbellField.waiters bell.block + (2 ^ 32 - 1))
  have keeps : memory.Keeps [bell.waitersRange] withdrawn :=
    ((memory.keeps_store ..).trans (enlisted.keeps_store ..)).mono
      (List.append_subset.mpr ⟨List.Subset.refl _, List.Subset.refl _⟩)
  refine ⟨withdrawn, ?_, keeps⟩
  have enlist : bell.enlist memory = .done () enlisted := Action.modify_apply _ _
  have rings : bell.rings enlisted = .done _ enlisted := Action.look_apply _ _
  obtain ⟨answer, looked⟩ := looks enlisted
  rw [Doorbell.park, Action.bind_done enlist, Action.bind_done rings, Action.bind_done looked]
  cases answer with
  | true => rfl
  | false =>
      -- A sleep with a bound is over at last, whether or not a ring has come.
      have slept : bell.sleep (enlisted.load DoorbellField.rings bell.block) (some limit) enlisted =
          .done () enlisted := by
        rw [Doorbell.sleep, Action.bind_done rings, if_pos rfl]
        rfl
      exact Action.bind_done slept _

/-- A wait with a bound comes to an end, and writes nothing but the count of those who wait. -/
theorem wait_writes (bell : Doorbell) (strategy : WaitStrategy) (limit : Nat)
    (looks : ∀ memory, ∃ answer, ready memory = .done answer memory) (memory : Memory) :
    ∃ after, bell.wait strategy (some limit) ready memory = .done () after ∧
      memory.Keeps [bell.waitersRange] after := by
  cases strategy with
  | busyPoll interval =>
      obtain ⟨answer, looked⟩ := looks memory
      exact ⟨memory, Action.bind_done looked _, .refl ..⟩
  | hybrid spin =>
      obtain ⟨answer, looked⟩ : ∃ answer, (if spin = 0 then pure false else ready) memory =
          .done answer memory := by
        split
        · exact ⟨false, rfl⟩
        · exact looks memory
      rw [Doorbell.wait, Option.map_some, Action.bind_done looked]
      cases answer with
      | true => exact ⟨memory, rfl, .refl ..⟩
      | false =>
          rw [if_neg Bool.false_ne_true]
          split
          · exact ⟨memory, rfl, .refl ..⟩
          · exact bell.park_writes _ looks memory

end Doorbell

/-- A node that waits for a bounded time writes only the count of those who wait at its own
doorbell. -/
theorem Node.wait_writes (limit : Nat) (scene : Scene Node) :
    ∃ memory, Node.wait (some limit) scene = .done () { scene with memory } ∧
      scene.memory.Keeps [scene.actor.segment.doorbell.waitersRange] memory := by
  have looks : ∀ memory, ∃ answer,
      (do return !(← scene.actor.queue.isEmpty) : Action Memory Bool) memory =
        .done answer memory := by
    intro memory
    obtain ⟨answer, looked⟩ := scene.actor.queue.isEmpty_looks memory
    exact ⟨!answer, Action.bind_done looked _⟩
  obtain ⟨memory, waited, keeps⟩ := scene.actor.segment.doorbell.wait_writes
    scene.actor.config.wait limit looks scene.memory
  refine ⟨memory, ?_, keeps⟩
  rw [Node.wait, Action.bind_done (Scene.self_apply _), Scene.inMemory_apply, waited]
  rfl

/-! ## Cursors -/

/-- What is written begins behind the cursors. -/
def IsPastCursors (touched : List (Place × Nat)) : Prop :=
  ∀ range ∈ touched, 40 ≤ range.1.address

theorem Memory.Keeps.cursor {before after : Memory} {touched : List (Place × Nat)}
    (keeps : before.Keeps touched after) (past : IsPastCursors touched) (segment : Segment) :
    segment.cursor after = segment.cursor before :=
  keeps.load fun range inside _ => .inl (past range inside)

/-- A node goes on with its arena, and no cursor moves. -/
structure Scene.Steady (before after : Scene Node) : Prop where
  rest : after.actor =
    { before.actor with pool := { before.actor.pool with free := after.actor.pool.free } }
  cursor : ∀ segment : Segment, segment.cursor after.memory = segment.cursor before.memory

namespace Scene.Steady

variable {before after : Scene Node} {touched : List (Place × Nat)}

theorem refl (scene : Scene Node) : scene.Steady scene := ⟨rfl, fun _ => rfl⟩

theorem of_keeps (actor : after.actor = before.actor) (keeps : before.memory.Keeps touched
    after.memory) (past : IsPastCursors touched) : before.Steady after where
  rest := by rw [actor]
  cursor := keeps.cursor past

end Scene.Steady

theorem Scene.Recycles.steady {before after : Scene Node} {fragment : Fragment}
    (recycles : before.Recycles fragment after) (past : 40 ≤ fragment.position) :
    before.Steady after where
  rest := by
    rw [recycles.actor]
    rfl
  cursor := recycles.keeps.cursor (List.forall_mem_singleton.mpr past)

namespace Sound

variable {directory : String} {mapped : List Segment} {network : Network} {rank peer : UInt32}
  {pending : UInt32 → List Item} {hand : List Offset} {scene after : Scene Node}
  {fragment : Fragment} {stuck : Prop} {offset : Offset}

theorem place_past (sound : Sound directory mapped network pending hand)
    (carved : network.IsCarved offset) : 40 ≤ (network.place offset).address := by
  obtain ⟨_, _, slot⟩ := carved
  exact Nat.le_trans (by decide : 40 ≤ arenaStart) (Charted.slot_above sound.carved slot)

theorem appending_past {node : Node} (sound : Sound directory mapped network pending hand)
    (found : network.nodes peer = some node) (carved : network.IsCarved offset) :
    IsPastCursors (network.appending peer offset) := by
  refine List.forall_mem_cons.mpr ⟨sound.place_past carved, List.forall_mem_cons.mpr ⟨?_,
    List.forall_mem_cons.mpr ⟨?_, List.forall_mem_singleton.mpr ?_⟩⟩⟩
  · exact (by decide : 40 ≤ queueStart + QueueField.tail.distance)
  · rcases List.mem_cons.mp (List.mem_of_getLast? (sound.tail_eq found)) with head | inside
    · rw [head, Chain.linkPlace_free]
      exact (by decide : 40 ≤ queueStart)
    · have last := sound.isCarved (.queued peer) inside
      rw [Chain.linkPlace_proper ((sound.charted.separate sound.carved peer).proper last)]
      exact sound.place_past last
  · exact (by decide : 40 ≤ doorbellStart)

theorem handle_past (sound : Sound directory mapped (network.left rank scene) pending hand)
    (handle : scene.actor.IsHandle fragment) : 40 ≤ fragment.position :=
  Nat.le_trans (by decide : 40 ≤ arenaStart) (sound.handle_inside handle).2

theorem readQueue_steady
    (sound : Sound directory mapped (network.left rank scene) pending hand)
    (reaching : (network.left rank scene).Reaching scene.actor stuck) :
    (Node.readQueue scene).Meets stuck fun _ after => scene.Steady after := by
  refine (sound.readQueue_skims reaching).mono ?_
  rintro result after ⟨fragments, skimmed⟩
  refine ⟨skimmed.skims.rest, skimmed.skims.keeps.cursor (List.forall_mem_cons.mpr ⟨?_,
    List.forall_mem_map.mpr fun fragment inside => ?_⟩)⟩
  · exact (by decide : 40 ≤ queueStart)
  · exact sound.handle_past (skimmed.handles fragment inside)

theorem release_steady {message : Message} {letter : Letter}
    (sound : Sound directory mapped (network.left rank scene) pending (message.offset :: hand))
    (read : (network.left rank scene).HasRead mapped ⟨rank, message, letter⟩)
    (current : ∀ segment, scene.actor.segmentOf? message.owner = some segment →
      segment = message.segment ∨ stuck)
    (reaching : (network.left rank scene).Reaching scene.actor stuck) :
    (Node.release message scene).Meets stuck fun _ after => scene.Steady after := by
  refine (sound.release_writes read current reaching).mono ?_
  rintro (fault | value) after ends
  · obtain ⟨_, _, rfl⟩ := ends
    exact .refl _
  · by_cases mine : message.owner = rank
    · simp only [if_pos mine] at ends
      obtain ⟨⟨fragment, handle, _, recycles⟩, _⟩ := ends
      exact recycles.steady (sound.handle_past handle)
    · simp only [if_neg mine] at ends
      obtain ⟨actor, keeps, _⟩ := ends
      obtain ⟨owner, foundOwner, _⟩ := read.owner
      have carved := sound.isCarved .hand List.mem_cons_self
      exact .of_keeps actor keeps (List.forall_mem_cons.mpr
        ⟨Nat.le_trans (sound.place_past carved) (Nat.le_add_right ..),
          sound.appending_past foundOwner carved⟩)

/-- A fragment in hand is sent to a node that is attached, and nothing is carved. -/
theorem writeToPeer_steady
    (sound : Sound directory mapped (network.left rank scene) pending (fragment.offset :: hand))
    (handle : scene.actor.IsHandle fragment)
    (reaching : (network.left rank scene).Reaching scene.actor False)
    (attached : scene.actor.segmentOf? peer ≠ none) :
    ∃ after, Node.writeToPeer peer fragment scene = .done () after ∧
      after.actor = scene.actor ∧ scene.Steady after := by
  refine Outcome.Meets.done_unit ((sound.writeToPeer_writes handle reaching peer).mono ?_)
  rintro (fault | value) after ends
  · exact absurd ends.2.1 attached
  · obtain ⟨actor, keeps, _⟩ := ends
    obtain ⟨target, there⟩ := Option.ne_none_iff_exists'.mp attached
    obtain ⟨_, _, peerNode, foundPeer, _⟩ :=
      sound.charted.peers (network.nodes_left rank scene) there
    refine ⟨rfl, actor, .of_keeps actor keeps (List.forall_mem_cons.mpr ⟨?_,
      sound.appending_past foundPeer (sound.isCarved .hand List.mem_cons_self)⟩)⟩
    exact Nat.le_trans (sound.handle_past handle) (Nat.le_add_right ..)

/-- A node that has taken a slot of the class for its bytes sends them to a node that it has
attached, and carves nothing any more. -/
theorem send_of_taken {sizeClass : SizeClass} {payload : List UInt8} {grown : Scene Pool}
    (sound : Sound directory mapped (network.left rank scene) pending hand)
    (reaching : (network.left rank scene).Reaching scene.actor False)
    (attached : scene.actor.segmentOf? peer ≠ none)
    (chosen : scene.actor.pool.arena.capacities.forPayload payload.length = some sizeClass)
    (taken : Pool.get sizeClass scene.pool = .done fragment grown) :
    ∃ after, Node.send peer payload scene = .done () after ∧
      after.actor = { scene.actor with pool := grown.actor } ∧
      ∀ segment : Segment, segment.cursor after.memory = segment.cursor grown.memory := by
  have allocated : Node.alloc sizeClass scene = .done fragment (grown.around scene.actor) :=
    congrArg (Outcome.mapState (Scene.around scene.actor)) taken
  have alloc := sound.alloc_holds chosen
  rw [allocated] at alloc
  obtain ⟨grows, held, handle, same, enough⟩ := alloc
  obtain ⟨written, wrote, actor, soundWritten, _⟩ := (held.write_meets handle enough).done_unit
  have growsToo : scene.actor.Grows written.actor := actor ▸ grows
  have keeps := fragment.write_meets payload (grown.around scene.actor).memory
  have wroteMemory := wrote
  rw [Scene.inMemory_apply, Fragment.write_eq enough] at wroteMemory
  rw [Fragment.write_eq enough] at keeps
  obtain rfl := (Outcome.done.inj wroteMemory).2
  have past := held.handle_past handle
  have cursor := keeps.cursor (List.forall_mem_cons.mpr
    ⟨Nat.le_trans past (Nat.le_add_right ..), List.forall_mem_singleton.mpr
      (Nat.le_trans past (Nat.le_add_right ..))⟩)
  obtain ⟨after, sent, kept, steady⟩ := soundWritten.writeToPeer_steady (actor ▸ handle)
    (reaching.grows growsToo) ((growsToo.segmentOf? peer).trans_ne attached)
  refine ⟨after, ?_, kept.trans actor, fun segment =>
    (steady.cursor segment).trans (cursor segment)⟩
  rw [Node.send_of_class peer chosen, Action.bind_done allocated, Action.bind_done wrote]
  exact sent

end Sound

end RankMail
