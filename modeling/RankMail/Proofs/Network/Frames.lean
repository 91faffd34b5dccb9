import RankMail.Proofs.Network.Conservation
import RankMail.Proofs.Network.Contents
import RankMail.Proofs.Network.Origins

set_option autoImplicit false

/-! # What operations write

An operation of a node may write its own file, and in the files of others what leads to the end of a
queue; it writes nothing else (`Operation.reach`):

    operation                              own file     elsewhere
    send, writeToPeer                      yes          the way to the peer
    release, of a message of another       no           flags and link, the way to the owner
    release, of its own message            yes          nothing
    alloc, free, read                      yes          nothing
    filling a fragment                     the payload and its length
    dropping, attaching, detaching         nothing

In its own file, too, a node leaves alone what somebody uses, unless it has been given just that.
What comes back to it in its queue it takes back when it reads, and there the length becomes zero:
nobody uses the slot any more (`Operation.TakesBack`).
-/

namespace RankMail

namespace Network

def file (network : Network) (rank : UInt32) : List (Place × Nat) :=
  match network.nodes rank with
  | none => []
  | some node => [(node.segment.place, node.segment.size)]

/-- Somebody uses a slot: it is in a queue, or somebody holds it as a fragment or as a message. -/
def InUse (network : Network) (offset : Offset) : Prop :=
  (∃ rank, network.IsQueued rank offset) ∨
    (∃ fragment ∈ network.fragments, fragment.offset = offset) ∨
    ∃ delivery ∈ network.received, delivery.message.offset = offset

end Network

namespace Operation

def given : Operation → Option Offset
  | write fragment _ | setLength fragment _ | edit fragment _ _ | writeToPeer _ _ fragment
  | free _ fragment | drop fragment => some fragment.offset
  | release delivery | discard delivery => some delivery.message.offset
  | alloc .. | send .. | read _ | attach .. | detach .. => none

/-- The rank in whose file an operation may write anything, its own. -/
def home : Operation → Option UInt32
  | alloc rank _ | writeToPeer rank _ _ | send rank _ _ | free rank _ | read rank => some rank
  | release delivery =>
      if delivery.message.owner = delivery.reader then some delivery.reader else none
  | write .. | setLength .. | edit .. | drop _ | discard _ | attach .. | detach .. => none

/-- What an operation may write besides. -/
def outward (network : Network) : Operation → List (Place × Nat)
  | writeToPeer _ peer _ | send _ peer _ => network.inlet peer
  | release delivery =>
      if delivery.message.owner = delivery.reader then []
      else network.stamp delivery.message.offset ++ network.inlet delivery.message.owner
  | write fragment _ | setLength fragment _ | edit fragment _ _ =>
      [(fragment.payloadPlace, fragment.capacity), (fragment.lengthPlace, 4)]
  | alloc .. | free .. | read _ | drop _ | discard _ | attach .. | detach .. => []

def reach (network : Network) (operation : Operation) : List (Place × Nat) :=
  operation.home.elim [] network.file ++ operation.outward network

/-- A node that reads takes a slot back: it was on its way back in the node's queue and is unused
now, and its content is the same but for the length. -/
structure TakesBack (network after : Network) (operation : Operation) (offset : Offset)
    (room : Nat) : Prop where
  reads : operation = .read offset.rank
  queued : network.IsQueued offset.rank offset
  back : network.isReturned offset = true
  unused : ∃ sizeClass, offset ∈ after.unused offset.rank sizeClass
  content : after.content offset room = { network.content offset room with length := 0 }

/-- What an operation makes of a network, as to memory: it writes what it may, no class in a header
changes, and what somebody uses and the operation has not been given keeps its content. -/
structure Frames (network : Network) (operation : Operation) (after : Network) : Prop where
  classed : network.AreClassed → after.AreClassed
  keeps : network.world.memory.Keeps (operation.reach network) after.world.memory
  spares : network.AreClassed → ∀ offset index descriptor,
    network.Slot offset index descriptor → network.InUse offset →
      operation.given ≠ some offset →
        after.content offset descriptor.capacity.toNat =
            network.content offset descriptor.capacity.toNat ∨
          TakesBack network after operation offset descriptor.capacity.toNat

end Operation

namespace Network

variable {network after : Network} {rank : UInt32} {node : Node} {slots : List Offset}
  {outward : List (Place × Nat)} {scene : Scene Node} {offset : Offset} {index : Nat}
  {descriptor : Descriptor} {operation : Operation}

/-! ## From the scene of a node to the network -/

theorem Framed.keeps_file (found : network.nodes rank = some node)
    (framed : network.Framed rank slots outward (network.world.enter node) scene) :
    network.world.memory.Keeps (network.file rank ++ outward) scene.memory := by
  obtain ⟨inward, keeps, owned⟩ := framed.writes
  refine keeps.widen fun {place count} _ apart range inside => ?_
  rcases List.mem_append.mp inside with inside | inside
  · have own := owned range inside
    have region : range.1.region = node.segment.file.region := own.region
    have stop : range.1.address + range.2 ≤ node.segment.size := own.stop
    have away := apart (node.segment.place, node.segment.size)
      (List.mem_append_left _ (by simp [file, found]))
    simp only [Memory.Apart, Segment.place] at away ⊢
    omega
  · exact apart range (List.mem_append_right _ inside)

/-- A slot with which a node has nothing to do keeps its content. -/
theorem Framed.content_eq (found : network.nodes rank = some node)
    (framed : network.Framed rank slots outward (network.world.enter node) scene)
    (slot : network.Slot offset index descriptor) (away : offset ∉ slots)
    (apart : Memory.ApartFrom ((network.place offset).shift 8) (56 + descriptor.capacity.toNat)
      outward) :
    (network.left rank scene).content offset descriptor.capacity.toNat =
      network.content offset descriptor.capacity.toNat := by
  obtain ⟨inward, keeps, owned⟩ := framed.writes
  rw [left_enter found] at owned
  have evolves := evolves_left found framed.grows keeps
  rw [content, evolves.place]
  refine Memory.contentAt_congr keeps fun range inside => ?_
  rcases List.mem_append.mp inside with inside | inside
  · have split := (owned range inside).apart slot away
    intro same
    have split := split same
    simp only [Place.shift, headerSize] at split ⊢
    omega
  · exact apart range inside

end Network

theorem Network.Persists.areClassed {network after : Network} (persists : network.Persists after)
    (classed : network.AreClassed) : after.AreClassed := by
  intro offset index descriptor slot
  have old := persists.slot.mp slot
  obtain ⟨node, found, _⟩ := id old
  rw [persists.place ⟨_, _, old⟩, Network.place_of_node found, Segment.placeAt,
    persists.load found]
  have same := classed _ _ _ old
  rwa [Network.place_of_node found] at same

namespace Operation.Frames

variable {network after next : Network} {operation : Operation}

theorem idle (network : Network) (operation : Operation) : operation.Frames network network :=
  ⟨id, .refl .., fun _ _ _ _ _ _ _ => .inl rfl⟩

theorem relabel (frames : operation.Frames network after) (world : next.world = after.world)
    (nodes : next.nodes = after.nodes) : operation.Frames network next := by
  obtain ⟨_, _, _, _, _, _⟩ := next
  subst world nodes
  refine ⟨frames.classed, frames.keeps, fun classed offset index descriptor slot used away => ?_⟩
  refine (frames.spares classed offset index descriptor slot used away).imp_right fun back => ?_
  exact ⟨back.reads, back.queued, back.back, back.unused, back.content⟩

theorem persist (persists : network.Persists after)
    (memory : after.world.memory = network.world.memory) : operation.Frames network after where
  classed := persists.areClassed
  keeps := memory ▸ .refl ..
  spares _ offset index descriptor slot _ _ := by
    refine .inl ?_
    rw [Network.content, persists.place ⟨_, _, slot⟩, memory]
    rfl

end Operation.Frames

/-- A node has acted, and has kept apart from what somebody uses. -/
theorem Network.Framed.frames {network : Network} {rank : UInt32} {node : Node}
    {slots : List Offset} {outward : List (Place × Nat)} {scene : Scene Node}
    {operation : Operation}
    (framed : network.Framed rank slots outward (network.world.enter node) scene)
    (found : network.nodes rank = some node)
    (keeps : network.world.memory.Keeps (operation.reach network) scene.memory)
    (spares : network.AreClassed → ∀ offset index descriptor,
      network.Slot offset index descriptor → network.InUse offset →
        operation.given ≠ some offset →
          offset ∉ slots ∧ Memory.ApartFrom ((network.place offset).shift 8)
              (56 + descriptor.capacity.toNat) outward ∨
            operation.TakesBack network (network.left rank scene) offset
              descriptor.capacity.toNat) :
    operation.Frames network (network.left rank scene) where
  classed classed := framed.classed (by rwa [left_enter found])
  keeps := keeps
  spares classed offset index descriptor slot used away :=
    (spares classed offset index descriptor slot used away).imp_left fun apart =>
      framed.content_eq found slot apart.1 apart.2

theorem Charted.payload_apart {directory : String} {mapped : List Segment} {network : Network}
    {rank : UInt32} {node : Node} {offset : Offset} {index : Nat} {descriptor : Descriptor}
    {fragments : List Fragment} (charted : Charted directory mapped network)
    (carved : network.AreCarved) (found : network.nodes rank = some node)
    (slot : network.Slot offset index descriptor)
    (handles : ∀ fragment ∈ fragments, node.IsHandle fragment) :
    Memory.ApartFrom ((network.place offset).shift headerSize) descriptor.capacity.toNat
      ((node.queue.block, 16) :: fragments.map fun fragment => (fragment.place, headerSize)) := by
  refine Memory.apartFrom_cons.mpr ⟨fun _ => .inr ?_,
    List.forall_mem_map.mpr fun fragment inside same => ?_⟩
  · exact Nat.le_trans (by decide : queueStart + 16 ≤ arenaStart)
      (Nat.le_trans (slot_above carved slot) (Nat.le_add_right ..))
  · obtain ⟨_, _, second, next, fits⟩ := charted.fits carved found (handles fragment inside)
    rw [fits.place] at same ⊢
    by_cases equal : offset = fragment.offset
    · subst equal
      exact .inr (Nat.le_refl _)
    · have split := charted.slots_apart carved slot fits.slot equal same
      simp only [Place.shift, headerSize] at split ⊢
      omega

namespace Settled

variable {directory : String} {mapped : List Segment} {network : Network}
  {pending : UInt32 → List Item} {rank : UInt32} {node : Node} {fragment : Fragment}
  {delivery : Delivery} {stuck : Prop} {operation : Operation} {offset : Offset}

theorem inUse_iff (settled : Settled directory mapped network pending) :
    network.InUse offset ↔ ∃ location : Location,
      location.IsUse ∧ offset ∈ network.contents pending [] location := by
  constructor
  · rintro (⟨rank, queued⟩ | ⟨fragment, held, rfl⟩ | ⟨delivery, read, rfl⟩)
    · exact ⟨.queued rank, trivial, settled.isQueued_iff.mp queued⟩
    · exact ⟨.held, trivial, List.mem_map.mpr ⟨fragment, held, rfl⟩⟩
    · exact ⟨.received, trivial, List.mem_map.mpr ⟨delivery, read, rfl⟩⟩
  · rintro ⟨location, use, inside⟩
    cases location with
    | held => exact .inr (.inl (List.mem_map.mp inside))
    | queued rank => exact .inl ⟨rank, settled.isQueued_iff.mpr inside⟩
    | received => exact .inr (.inr (List.mem_map.mp inside))
    | unused | retired | hand => cases use

/-! ## Each operation -/

theorem alloc_frames (settled : Settled directory mapped network pending) (rank : UInt32)
    (sizeClass : SizeClass) :
    ((Operation.alloc rank sizeClass).perform network).Meets False fun _ after =>
      (Operation.alloc rank sizeClass).Frames network after := by
  refine Action.meets_bind (Action.meets_bind (Network.meets_asNode
    (fun _ => .idle ..) fun {node} found => ?_))
  refine ((settled.enter found).framed_alloc sizeClass).mono ?_
  intro result scene framed
  have frames : (Operation.alloc rank sizeClass).Frames network (network.left rank scene) :=
    framed.frames found (framed.keeps_file found) fun _ offset _ _ _ _ _ =>
      .inl ⟨List.not_mem_nil, fun _ inside => absurd inside List.not_mem_nil⟩
  cases result with
  | error fault => exact frames
  | ok fragment => exact frames.relabel rfl rfl

theorem send_frames (settled : Settled directory mapped network pending)
    (whole : network.IsWhole ∨ stuck) (rank peer : UInt32) (payload : List UInt8) :
    ((Operation.send rank peer payload).perform network).Meets stuck fun _ after =>
      (Operation.send rank peer payload).Frames network after := by
  refine Action.meets_bind (Network.meets_asNode (fun _ => .idle ..) fun {node} found => ?_)
  have reaching : network.Reaching node stuck := Network.IsWhole.reaching whole found
  have sound := settled.enter found
  rw [← Network.left_enter found] at reaching
  refine (sound.framed_send reaching peer payload).mono ?_
  rintro result scene ⟨slots, framed, idle⟩
  rw [Network.left_enter found] at framed idle
  have frames : (Operation.send rank peer payload).Frames network (network.left rank scene) := by
    refine framed.frames found (framed.keeps_file found) fun _ offset _ _ slot used _ => ?_
    obtain ⟨location, use, inside⟩ := settled.inUse_iff.mp used
    refine .inl ⟨fun sent => idle offset sent location use inside, fun range member => ?_⟩
    exact settled.sound.beside_inlet peer range member offset _ _ slot
  cases result with
  | error fault => exact frames
  | ok value => exact frames.relabel rfl rfl

/-- An operation that works on the slot that it has been given spares all others. -/
theorem spares_given {room : Nat} {outward : List (Place × Nat)} {after : Network}
    {other : Offset} (given : operation.given = some other)
    (away : operation.given ≠ some offset)
    (apart : Memory.ApartFrom ((network.place offset).shift 8) (56 + room) outward) :
    offset ∉ [other] ∧ Memory.ApartFrom ((network.place offset).shift 8) (56 + room) outward ∨
      operation.TakesBack network after offset room := by
  refine .inl ⟨fun inside => away ?_, apart⟩
  rw [given, List.mem_singleton.mp inside]

theorem writeToPeer_frames (settled : Settled directory mapped network pending)
    (whole : network.IsWhole ∨ stuck) (own : fragment.segment.rank = rank ∨ stuck)
    (peer : UInt32) :
    ((Operation.writeToPeer rank peer fragment).perform network).Meets stuck fun _ after =>
      (Operation.writeToPeer rank peer fragment).Frames network after := by
  refine Network.meets_byNode (fun _ => .idle ..) fun {node} found =>
    Network.meets_withFragment (.idle ..) fun held => ?_
  rw [Action.bind_done (Action.look_apply _ _)]
  refine Action.meets_bind (Network.meets_spend found ?_)
  have lost := settled.sound.unhold held
  have reaching : (network.withoutFragment fragment).Reaching node stuck :=
    Network.IsWhole.reaching whole found
  have known : (network.withoutFragment fragment).IsHandle fragment := settled.sound.held held
  have enter : (network.withoutFragment fragment).left rank
      ((network.withoutFragment fragment).world.enter node) = network.withoutFragment fragment :=
    Network.left_enter found
  have sound := lost
  rw [← enter] at sound known reaching
  by_cases mine : fragment.segment.rank = rank
  · have handle := settled.own_handle found held mine
    refine (sound.framed_writeToPeer handle reaching peer).mono ?_
    intro result scene framed
    rw [enter] at framed
    have framed := framed.relabel network rfl rfl
    have frames : (Operation.writeToPeer rank peer fragment).Frames network
        (network.left rank scene) :=
      framed.frames found (framed.keeps_file found) fun _ offset _ _ slot _ away =>
        spares_given rfl away fun range member =>
          settled.sound.beside_inlet peer range member offset _ _ slot
    cases result with
    | error fault =>
        simp only [if_pos mine]
        exact frames.relabel rfl rfl
    | ok value => exact frames.relabel rfl rfl
  · refine (sound.writeToPeer_foreign known mine (own.resolve_left mine) peer).mono ?_
    rintro result scene ⟨rfl, rfl⟩
    simp only [if_neg mine]
    rw [enter]
    exact (Operation.Frames.idle ..).relabel rfl rfl

theorem free_frames (settled : Settled directory mapped network pending) (rank : UInt32)
    (fragment : Fragment) :
    ((Operation.free rank fragment).perform network).Meets False fun _ after =>
      (Operation.free rank fragment).Frames network after := by
  refine Network.meets_byNode (fun _ => .idle ..) fun {node} found =>
    Network.meets_withFragment (.idle ..) fun held => Network.meets_spend found ?_
  have lost := settled.sound.unhold held
  have known : (network.withoutFragment fragment).IsHandle fragment := settled.sound.held held
  have enter : (network.withoutFragment fragment).left rank
      ((network.withoutFragment fragment).world.enter node) = network.withoutFragment fragment :=
    Network.left_enter found
  have sound := lost
  rw [← enter] at sound known
  by_cases mine : fragment.segment.rank = rank
  · have handle := settled.own_handle found held mine
    refine (sound.free_recycles handle).mono ?_
    rintro result scene ⟨rfl, recycles, _⟩
    have framed := (sound.framed_recycles handle recycles).relabel network rfl rfl
    have frames : (Operation.free rank fragment).Frames network (network.left rank scene) :=
      framed.frames found (framed.keeps_file found) fun _ offset _ _ _ _ away =>
        spares_given rfl away fun _ inside => absurd inside List.not_mem_nil
    exact frames.relabel rfl rfl
  · rw [show network.world.enter node =
        (network.withoutFragment fragment).world.enter node from rfl, sound.free_foreign known mine]
    show ite _ _ _
    rw [if_neg mine, enter]
    exact (Operation.Frames.idle ..).relabel rfl rfl

theorem fill_frames (settled : Settled directory mapped network pending)
    {action : Action Memory Unit}
    (fills : (action network.world.memory).Meets False fun _ after => network.world.memory.Keeps
      [(fragment.payloadPlace, fragment.capacity), (fragment.lengthPlace, 4)] after)
    (home : operation.home = none) (given : operation.given = some fragment.offset)
    (outward : operation.outward network =
      [(fragment.payloadPlace, fragment.capacity), (fragment.lengthPlace, 4)]) :
    (Network.withFragment fragment (Network.inMemory action) network).Meets False fun _ after =>
      operation.Frames network after := by
  refine Network.meets_withFragment (.idle ..) fun held => Action.meets_within.mpr ?_
  refine fills.mono fun _ memory keeps => ?_
  obtain ⟨rank, node, found, handle⟩ := settled.sound.held held
  let scene : Scene Node := ⟨node, memory, network.world.notices⟩
  have framed : network.Framed rank [fragment.offset] [] (network.world.enter node) scene :=
    (settled.enter found).framed_fill handle rfl keeps
  have frames : operation.Frames network (network.left rank scene) := by
    refine framed.frames found ?_ fun _ offset _ _ _ _ away =>
      spares_given given away fun _ inside => absurd inside List.not_mem_nil
    rwa [Operation.reach, home, outward]
  rwa [Network.left_memory found] at frames

theorem release_frames (settled : Settled directory mapped network pending)
    (whole : network.IsWhole ∨ stuck) (delivery : Delivery) :
    ((Operation.release delivery).perform network).Meets stuck fun _ after =>
      (Operation.release delivery).Frames network after := by
  refine Network.meets_withDelivery (.idle ..) fun read => ?_
  rw [Network.loseDelivery, Action.bind_done (Action.modify_apply _ _)]
  obtain ⟨node, found⟩ := (settled.sound.read read).reader
  obtain ⟨sound, known⟩ := settled.take_up read found
  have reaching : (network.withoutDelivery delivery).Reaching node stuck :=
    Network.IsWhole.reaching whole found
  have enter : (network.withoutDelivery delivery).left delivery.reader
      (network.world.enter node) = network.withoutDelivery delivery :=
    Network.left_enter found
  have current : ∀ segment, node.segmentOf? delivery.message.owner = some segment →
      segment = delivery.message.segment ∨ stuck := by
    intro segment attached
    refine whole.imp_left fun whole => ?_
    exact Option.some.inj (attached.symm.trans (whole.current read found))
  rw [← enter] at reaching
  refine Action.meets_bind (Action.meets_attempt (Network.meets_asNode
    (fun missing => absurd (found.symm.trans missing) (by simp)) fun {actor} same => ?_))
  obtain rfl : node = actor := Option.some.inj (found.symm.trans same)
  refine (sound.framed_release known current reaching).mono ?_
  intro result scene framed
  have frames : (Operation.release delivery).Frames network
      (network.left delivery.reader scene) := by
    rw [enter] at framed
    by_cases mine : delivery.message.owner = delivery.reader
    · rw [if_pos mine] at framed
      have framed := framed.relabel network rfl rfl
      refine framed.frames found ?_ fun _ offset _ _ _ _ away =>
        spares_given rfl away fun _ inside => absurd inside List.not_mem_nil
      have keeps := framed.keeps_file found
      rwa [Operation.reach, Operation.home, Operation.outward, if_pos mine, if_pos mine]
    · rw [if_neg mine] at framed
      obtain ⟨framed, keeps⟩ := framed
      have framed := framed.relabel network rfl rfl
      refine framed.frames found ?_ fun _ offset _ _ slot _ away =>
        .inl ⟨List.not_mem_nil, fun range member => ?_⟩
      · rwa [Operation.reach, Operation.home, Operation.outward, if_neg mine, if_neg mine]
      · rcases List.mem_append.mp member with member | member
        · obtain ⟨_, _, given⟩ := settled.sound.isCarved .received
            (List.mem_map.mpr ⟨delivery, read, rfl⟩)
          have differ : offset ≠ delivery.message.offset := fun same => away (same ▸ rfl)
          exact settled.sound.apart_stamp slot given differ range member
        · exact settled.sound.beside_inlet _ range member offset _ _ slot
  cases result with
  | error fault => exact frames.relabel rfl rfl
  | ok value => exact frames.relabel rfl rfl

/-- A slot that a node takes back when it reads. -/
theorem takesBack {scene : Scene Node} {result : Except Fault (Option Message)}
    {fragments : List Fragment} {index : Nat} {descriptor : Descriptor}
    (settled : Settled directory mapped network pending) (classed : network.AreClassed)
    (found : network.nodes rank = some node)
    (skimmed : Sound.Skimmed directory mapped network rank pending [] (network.world.enter node)
      fragments result scene)
    (slot : network.Slot offset index descriptor)
    (inside : offset ∈ fragments.map Fragment.offset) :
    (Operation.read rank).TakesBack network (network.left rank scene) offset
      descriptor.capacity.toNat := by
  have sound := settled.sound
  obtain ⟨fragment, member, same⟩ := List.mem_map.mp inside
  -- It is the slot of an item that is on its way back.
  rw [skimmed.offsets] at inside
  obtain ⟨⟨_, letter⟩, first, rfl⟩ := List.mem_map.mp inside
  have back := List.all_eq_true.mp List.all_takeWhile _ first
  obtain rfl : letter = none := by simpa [Item.isBack] using back
  have queued := List.takeWhile_subset _ first
  obtain ⟨flag, rfl⟩ := sound.items queued
  have handle := skimmed.handles fragment member
  have blank := skimmed.skims.headers fragment member
  dsimp only at same slot
  subst same
  refine
    { reads := rfl
      queued := settled.isQueued_iff.mpr (List.mem_map.mpr ⟨_, queued, rfl⟩)
      back := flag
      unused := ⟨fragment.sizeClass, ?_⟩
      content := ?_ }
  · rw [Network.unused_of_node (Network.nodes_left ..), skimmed.skims.free]
    refine List.mem_map.mpr ⟨fragment, List.mem_append_left _ ?_, rfl⟩
    exact List.mem_reverse.mpr (List.mem_filter.mpr ⟨member, decide_eq_true rfl⟩)
  · have arena := (sound.charted.placed found).arenaRank
    change fragment.IsBlank node.pool.arena.rank scene.memory at blank
    rw [arena] at blank
    have evolves := Network.evolves_left found skimmed.skims.grows skimmed.skims.keeps
    rw [Network.content, evolves.place]
    exact sound.content_blank classed found handle blank (skimmed.skims.keeps.read
      (sound.charted.payload_apart sound.carved found slot skimmed.handles))

theorem read_frames (settled : Settled directory mapped network pending)
    (whole : network.IsWhole ∨ stuck) (rank : UInt32) :
    ((Operation.read rank).perform network).Meets stuck fun _ after =>
      (Operation.read rank).Frames network after := by
  refine Action.meets_bind (Action.meets_bind (Network.meets_asNode (fun _ => .idle ..)
    fun {node} found => ?_))
  have reaching : network.Reaching node stuck := Network.IsWhole.reaching whole found
  rw [← Network.left_enter found] at reaching
  refine ((settled.enter found).readQueue_skims reaching).mono ?_
  rintro result scene ⟨fragments, skimmed⟩
  have framed := (settled.enter found).framed_skims skimmed.handles skimmed.skims
  have frames : (Operation.read rank).Frames network (network.left rank scene) := by
    refine framed.frames found (framed.keeps_file found) fun classed offset _ _ slot _ _ => ?_
    by_cases inside : offset ∈ fragments.map Fragment.offset
    · exact .inr (settled.takesBack classed found skimmed slot inside)
    · exact .inl ⟨inside, fun _ inside => absurd inside List.not_mem_nil⟩
  rcases result with fault | message | message
  · exact frames
  · exact frames
  · exact frames.relabel rfl rfl

theorem attach_frames (settled : Settled directory mapped network pending) (rank peer : UInt32) :
    ((Operation.attach rank peer).perform network).Meets True fun _ after =>
      (Operation.attach rank peer).Frames network after := by
  have charted := settled.sound.charted
  show (Network.attach rank peer network).Meets True _
  rw [Network.attach]
  split
  · next node other found foundPeer =>
      refine Outcome.meets_mapState.mpr ?_
      rw [Node.attachPeer, Action.bind_done (Action.look_apply _ _)]
      split
      · exact .persist (Network.persists_update found node rfl rfl rfl) rfl
      · have filed : network.world.disk.Files node.directory (Segment.fileName peer)
            other.segment.file.region :=
          (charted.placed found).nodeDirectory ▸ charted.filed foundPeer
        refine Action.meets_bind (Action.meets_within.mpr ((Segment.attach_meets filed).mono ?_))
        rintro (fault | segment) world ⟨addresses, nextBase, segments, rfl, _⟩
        · exact .persist (Network.persists_update found node rfl rfl rfl) rfl
        · cases registered : node.addresses.register peer segment.mapping with
          | error cause =>
              exact Action.meets_bind
                (Action.meets_ofAbort (.inr ⟨⟨cause, registered⟩, trivial⟩))
          | ok known =>
              exact Action.meets_bind (Action.meets_ofAbort (.inl ⟨known, registered,
                .persist (Network.persists_update found (node.attached segment known) rfl rfl rfl)
                  rfl⟩))
  · exact .idle ..

theorem detach_frames (network : Network) (rank peer : UInt32) :
    ((Operation.detach rank peer).perform network).Meets False fun _ after =>
      (Operation.detach rank peer).Frames network after := by
  refine Action.meets_bind (Network.meets_asNode (fun _ => .idle ..) fun {node} found => ?_)
  rw [Node.detachPeer, Action.bind_done (Scene.self_apply _)]
  split
  · exact .persist (Network.persists_update found (node.detached peer) rfl rfl rfl) rfl
  · exact .persist (Network.persists_update found node rfl rfl rfl) rfl

/-- Whatever is done, somebody writes what the operation may write. -/
theorem perform_frames (settled : Settled directory mapped network pending)
    (operation : Operation) :
    (operation.perform network).Meets (¬(operation.IsOrderly ∧ network.IsWhole)) fun _ after =>
      operation.Frames network after := by
  have whole : network.IsWhole ∨ ¬(operation.IsOrderly ∧ network.IsWhole) :=
    (Classical.em network.IsWhole).imp_right fun broken both => broken both.2
  cases operation with
  | alloc rank sizeClass => exact (settled.alloc_frames rank sizeClass).excuse False.elim
  | write fragment data =>
      exact (settled.fill_frames (fragment.write_meets data _) rfl rfl rfl).excuse False.elim
  | setLength fragment length =>
      refine (settled.fill_frames ?_ rfl rfl rfl).excuse False.elim
      exact (fragment.setLength_meets length _).mono fun _ _ keeps => keeps.mono (by simp)
  | edit fragment start data =>
      refine (settled.fill_frames ?_ rfl rfl rfl).excuse False.elim
      exact (fragment.edit_meets start data _).mono fun _ _ edited => edited.2.mono (by simp)
  | writeToPeer rank peer fragment =>
      refine settled.writeToPeer_frames whole ?_ peer
      exact (Classical.em (fragment.segment.rank = rank)).imp_right fun foreign both =>
        foreign both.1
  | send rank peer payload => exact settled.send_frames whole rank peer payload
  | free rank fragment => exact (settled.free_frames rank fragment).excuse False.elim
  | drop fragment =>
      exact Network.meets_withFragment (.idle ..) fun _ =>
        (Operation.Frames.idle ..).relabel rfl rfl
  | read rank => exact settled.read_frames whole rank
  | release delivery => exact settled.release_frames whole delivery
  | discard delivery =>
      exact Network.meets_withDelivery (.idle ..) fun _ =>
        (Operation.Frames.idle ..).relabel rfl rfl
  | attach rank peer => exact (settled.attach_frames rank peer).excuse fun _ both => both.1
  | detach rank peer => exact (detach_frames network rank peer).excuse False.elim

end Settled

theorem Network.Reached.areClassed {directory : String} {network : Network}
    (reached : Network.Reached directory network) : network.AreClassed := by
  induction reached with
  | start proper =>
      rintro _ _ _ ⟨_, found, _⟩
      cases found
  | turn _ _ _ ih => exact (Network.persists_world rfl).areClassed ih
  | @create network rank config node world reached new created ih =>
      obtain ⟨_, _, settled⟩ := reached.settled
      have creates := Node.create_meets settled.sound.charted.disk directory rank config
      rw [created] at creates
      exact (settled.sound.charted.persists_joined new (creates node rfl)).areClassed ih
  | perform operation reached ends ih =>
      obtain ⟨_, _, settled⟩ := reached.settled
      have frames := (settled.perform_frames operation).post_of_state ends
      exact frames.classed ih
  | close reached member unkept closed ih =>
      have memory := congrArg (fun outcome => outcome.state?.map World.memory) closed
      rw [Segment.close_eq] at memory
      exact (Network.persists_world (Option.some.inj memory).symm).areClassed ih

/-- **A node writes what is its own.** Whatever has been done before, an operation of a network that
is reached writes at most what it may (`Operation.reach`):

* One that sends to a peer writes the sender's own file; and in the way to the peer, the head and
  the tail of its queue, its count of rings, and the link of what was last in its queue.
* One that gives back a message of another node writes the flags and the link of that message, and
  what is in the way to its owner. It writes nothing of its own file.
* One that takes a slot, takes a fragment back, gives back a message of its own, or reads, writes
  its own file.
* One that fills a fragment writes the payload and its length.
* No other one writes anything.

So the content of a slot that somebody uses stays as it is, wherever the slot lies, unless the
operation has been given that slot. There is one exception: a node that reads takes back what is on
its way back in its own queue. Of such a slot, which nobody uses from then on, the length becomes
zero, and everything else in it stays as it is.

The operation comes to an end if all nodes have attached one another and it uses a fragment with its
own node. -/
theorem Network.Reached.writes_only_own {directory : String} {network : Network}
    (reached : Network.Reached directory network) (operation : Operation) :
    (operation.perform network).Meets (¬(operation.IsOrderly ∧ network.IsWhole)) fun _ after =>
      network.world.memory.Keeps (operation.reach network) after.world.memory ∧
      ∀ offset index descriptor, network.Slot offset index descriptor → network.InUse offset →
        operation.given ≠ some offset →
          after.content offset descriptor.capacity.toNat =
              network.content offset descriptor.capacity.toNat ∨
            operation.TakesBack network after offset descriptor.capacity.toNat := by
  obtain ⟨_, _, settled⟩ := reached.settled
  refine (settled.perform_frames operation).mono fun _ _ frames => ⟨frames.keeps, ?_⟩
  exact frames.spares reached.areClassed

/-- A node of two sends to the other one. -/
theorem Network.writes_only_own_twoNodes :
    Network.Reached "/" twoNodes ∧ twoNodes.IsWhole ∧ ∃ after,
      ((Operation.send 0 1 [104, 105]).perform twoNodes).state? = some after ∧
      twoNodes.world.memory.Keeps ((Operation.send 0 1 [104, 105]).reach twoNodes)
        after.world.memory := by
  -- Stated of any network first, so that nothing is computed.
  have sends : ∀ network, Network.Reached "/" network → network.IsWhole → ∃ after,
      ((Operation.send 0 1 [104, 105]).perform network).state? = some after ∧
      network.world.memory.Keeps ((Operation.send 0 1 [104, 105]).reach network)
        after.world.memory := by
    intro network reached whole
    have writes := reached.writes_only_own (.send 0 1 [104, 105])
    obtain ⟨after, ends⟩ := writes.state fun excused => excused ⟨trivial, whole⟩
    exact ⟨after, ends, (writes.post_of_state ends).1⟩
  have whole := twoNodes_assembled.1.whole twoNodes_assembled.2
  exact ⟨twoNodes_assembled.1.reached, whole, sends _ twoNodes_assembled.1.reached whole⟩

/-- A node that reads clears the length of a fragment that is in its queue: the fragment has been
sent with two bytes in it and given back, and two messages have been sent after it. -/
theorem Network.clears_returned_twoNodes :
    ∃ before after, Network.Reached "/" before ∧ before.IsMutual ∧ before.IsQueued 0 ⟨0, 384⟩ ∧
      ((Operation.read 0).perform before).state? = some after ∧
      (before.content ⟨0, 384⟩ 64).length = 2 ∧ (after.content ⟨0, 384⟩ 64).length = 0 := by
  have facts : ∃ read ∈ twoNodes.run [.send 0 1 [104, 105], .send 1 1 [], .read 1],
      ∃ delivery ∈ read.received,
        ∃ before ∈ read.run [.release delivery, .send 0 0 [], .send 0 0 []],
          ∃ after ∈ ((Operation.read 0).perform before).state?,
            (before.nodes 0).isSome = true ∧
            (before.chain 0).link before.world.memory .free = ⟨0, 384⟩ ∧
            (before.chain 0).link before.world.memory ⟨0, 384⟩ = ⟨0, 512⟩ ∧
            (before.chain 0).link before.world.memory ⟨0, 512⟩ = ⟨0, 640⟩ ∧
            (before.chain 0).link before.world.memory ⟨0, 640⟩ = .free ∧
            (before.chain 0).tail before.world.memory = ⟨0, 640⟩ ∧
            (before.content ⟨0, 384⟩ 64).length = 2 ∧
            (after.content ⟨0, 384⟩ 64).length = 0 := by
    decide +kernel
  obtain ⟨read, sent, delivery, _, before, released, after, ends, present, first, second, third,
    last, tail, long, short⟩ := facts
  obtain ⟨node, found⟩ := Option.isSome_iff_exists.mp present
  have holds : (before.chain 0).Holds before.world.memory [⟨0, 384⟩, ⟨0, 512⟩, ⟨0, 640⟩] := by
    refine ⟨⟨.inr ⟨id, first⟩, .inr ⟨id, second⟩, .inr ⟨id, third⟩, last⟩, ?_⟩
    rw [tail]
    rfl
  have reached := twoNodes_assembled.1.reached.run _ sent
  have whole : before.IsWhole := by
    obtain ⟨_, again, whole, _⟩ := twoNodes_assembled.1.run twoNodes_assembled.2
      [.send 0 1 [104, 105], .send 1 1 [], .read 1] (by simp [Operation.IsOrderly])
    obtain rfl := Option.some.inj (sent.symm.trans again)
    obtain ⟨_, _, settled⟩ := reached.settled
    obtain ⟨_, again, whole, _⟩ := settled.run
      [.release delivery, .send 0 0 [], .send 0 0 []] whole (by simp [Operation.IsOrderly])
    obtain rfl := Option.some.inj (released.symm.trans again)
    exact whole
  exact ⟨before, after, reached.run _ released, whole.reaches,
    ⟨node, _, found, by decide, holds, List.mem_cons_self⟩, ends, long, short⟩

end RankMail
