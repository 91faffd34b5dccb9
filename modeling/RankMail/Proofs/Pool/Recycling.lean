import RankMail.Proofs.Network.Assembled

set_option autoImplicit false

/-! # Recycling

A pool believes nothing that a header says of a slot, except which slot it is. Whatever stands in
the 64 bytes of a header when a slot comes back, the pool looks for one word in it, the index:

    the index of the slot    the slot gets the header with which it was carved, and goes among
                             the unused ones of the class with which it was carved
    any other number         the pool aborts

This is so in whatever way the slot comes back (`Pool.ComesTo`) and whatever has happened to the
pool and to its memory before (`Pool.Reached.recycles_by_index`).

Nor is the length in a header believed: the payload of a fragment ends with its slot, and the
payload of a message with the mapping at the latest.
-/

namespace RankMail

/-- The pools that come about on a segment that has been made. Others who have mapped the segment
may claim a part of it, and may write whatever and wherever they like as long as the cursor
stays. -/
inductive Pool.Reached : Scene Pool → Prop
  | create {directory : String} {rank source : UInt32} {size growBatch : Nat} {removesFile : Bool}
      {world after : World} {segment : Segment} {capacities : Capacities} {arena : Arena}
      {notices : List Notice} (proper : world.disk.IsProper world.memory.fresh)
      (created : Segment.create directory rank size removesFile world = .done segment after)
      (made : Arena.ofSegment segment capacities source = .ok arena) :
      Reached ⟨.ofArena arena growBatch, after.memory, notices⟩
  | carve {scene after : Scene Pool} {sizeClass : SizeClass} (reached : Reached scene)
      (ends : (Pool.inArena (Arena.carve sizeClass) scene).state? = some after) : Reached after
  | get {scene after : Scene Pool} {sizeClass : SizeClass} (reached : Reached scene)
      (ends : (Pool.get sizeClass scene).state? = some after) : Reached after
  | put {scene after : Scene Pool} {fragment : Fragment} (reached : Reached scene)
      (ends : (Pool.put fragment scene).state? = some after) : Reached after
  | recycle {scene after : Scene Pool} {address : Nat} (reached : Reached scene)
      (ends : (Pool.recycle address scene).state? = some after) : Reached after
  | claim {scene : Scene Pool} {length : Nat} {memory : Memory} (reached : Reached scene)
      (aligned : length % headerAlignment = 0)
      (ends : (scene.actor.arena.segment.reserve length scene.memory).state? = some memory) :
      Reached { scene with memory }
  | overwrite {scene : Scene Pool} {memory : Memory} (reached : Reached scene)
      (cursor : scene.actor.arena.segment.cursor memory =
        scene.actor.arena.segment.cursor scene.memory) : Reached { scene with memory }

/-! ## What a pool does to its arena -/

namespace Pool

variable {scene after : Scene Pool} {sizeClass : SizeClass} {index : Nat} {descriptor : Descriptor}

/-- The slots of a pool lie behind one another. -/
def IsStacked (scene : Scene Pool) : Prop := scene.actor.arena.Stacked scene.memory

theorem IsStacked.carve (stacked : IsStacked scene) (sizeClass : SizeClass) :
    (inArena (Arena.carve sizeClass) scene).Meets False fun _ after => IsStacked after := by
  refine meets_inArena.mpr ((@Arena.Stacked.carve_meets
    ⟨scene.actor.arena, scene.memory, scene.notices⟩ stacked sizeClass).mono ?_)
  rintro (fault | fragment) ⟨arena, memory, notices⟩
  · rintro ⟨_, rfl, rfl⟩
    exact stacked
  · rintro ⟨_, _, stacked, _⟩
    exact stacked

theorem IsStacked.grow (stacked : IsStacked scene) (sizeClass : SizeClass) (count : Nat) :
    (grow sizeClass count scene).Meets False fun _ after => IsStacked after := by
  induction count generalizing scene with
  | zero => exact stacked
  | succ count ih =>
      refine Action.meets_bind (Action.meets_attempt ((stacked.carve sizeClass).mono ?_))
      rintro (fault | extra) after carved
      · cases fault with
        | exhausted => exact carved
        | _ => exact carved
      · show ((push sizeClass extra >>= fun _ => grow sizeClass count) after).Meets _ _
        rw [Action.bind_done (push_eq ..)]
        exact ih carved

theorem IsStacked.get (stacked : IsStacked scene) (sizeClass : SizeClass) :
    (get sizeClass scene).Meets False fun _ after => IsStacked after := by
  rw [Pool.get, Action.bind_done (Scene.self_apply _)]
  cases top : scene.actor.free.get sizeClass with
  | cons fragment rest => exact stacked
  | nil =>
      refine Action.meets_bind ((stacked.carve sizeClass).mono ?_)
      rintro (fault | fragment) after carved
      · exact carved
      · refine Action.meets_bind ((carved.grow sizeClass _).mono ?_)
        rintro (fault | value) last grown <;> exact grown

/-- What may become of a pool when something comes back: nothing, or a slot that it has carved gets
the header with which it was carved and goes on top of the unused ones. -/
def MayRegain (before after : Scene Pool) : Prop :=
  after = before ∨ ∃ index descriptor notices, before.actor.arena.Has index descriptor ∧
    after = ⟨before.actor.pushed descriptor.sizeClass (before.actor.arena.handle index descriptor),
      before.memory.writeHeader (before.actor.arena.segment.placeAt descriptor.position)
        (.fresh before.actor.arena.rank (UInt32.ofNat index) descriptor.sizeClass
          descriptor.capacity), notices⟩

/-- A pool finds a slot again or changes nothing, whatever the address is. -/
theorem recycle_meets (address : Nat) (scene : Scene Pool) :
    (recycle address scene).Meets True fun _ after => MayRegain scene after := by
  rw [Pool.recycle, Action.bind_done (Scene.self_apply _)]
  dsimp only
  split
  · exact .inl rfl
  · rw [Action.bind_done (Action.look_apply _ _)]
    cases known : scene.actor.arena.descriptor? (UInt32.ofNat (scene.memory.load HeaderField.slot
        (scene.actor.arena.segment.placeAt (address - scene.actor.arena.segment.file.base)))) with
    | none => trivial
    | some descriptor =>
        by_cases here : descriptor.position = address - scene.actor.arena.segment.file.base
        · simp only [if_neg (not_not.mpr here)]
          obtain ⟨notices, compared⟩ := compare_eq (scene.actor.arena.segment.placeAt
            (address - scene.actor.arena.segment.file.base)) _ descriptor scene
          rw [Action.bind_done compared]
          refine .inr ⟨_, descriptor, notices, known, ?_⟩
          simp only [Arena.handle, UInt32.ofNat_toNat]
          rfl
        · simp only [ne_eq, if_pos here]
          trivial

theorem put_meets (fragment : Fragment) (scene : Scene Pool) :
    (put fragment scene).Meets True fun _ after => MayRegain scene after := by
  rw [Pool.put, Action.bind_done (Scene.self_apply _)]
  split
  · exact .inl rfl
  · exact recycle_meets ..

theorem IsStacked.regain (stacked : IsStacked scene) (regained : MayRegain scene after) :
    IsStacked after := by
  rcases regained with rfl | ⟨index, descriptor, notices, has, rfl⟩
  · exact stacked
  · exact stacked.congr (scene.actor.arena.segment.cursor_write scene.memory (stacked.above has) _)

theorem IsStacked.claim (stacked : IsStacked scene) {length : Nat} {memory : Memory}
    (aligned : length % headerAlignment = 0)
    (ends : (scene.actor.arena.segment.reserve length scene.memory).state? = some memory) :
    IsStacked { scene with memory } := by
  by_cases fits : scene.actor.arena.segment.cursor scene.memory + length < 2 ^ 64 ∧
      scene.actor.arena.segment.cursor scene.memory + length ≤ scene.actor.arena.segment.size
  · rw [Segment.reserve_fits fits] at ends
    obtain rfl := Option.some.inj ends
    have cursor := scene.actor.arena.segment.cursor_store scene.memory fits.1
    have whole := stacked.cursorAligned
    refine stacked.advance ?_ ?_ ?_
    · simp only [cursor, headerAlignment] at aligned whole ⊢
      omega
    · rw [cursor]
      exact Nat.le_add_right ..
    · rw [cursor]
      exact fits.2
  · rw [Segment.reserve_refused fits] at ends
    obtain rfl := Option.some.inj ends
    exact stacked

/-- The slots of every pool that is reached lie behind one another. -/
theorem Reached.isStacked (reached : Reached scene) : IsStacked scene := by
  induction reached with
  | @create directory rank source size _ removesFile _ _ _ _ _ _ proper created made =>
      have meets := Segment.create_meets proper directory rank size removesFile
      rw [created] at meets
      obtain ⟨valid, rfl⟩ := Arena.ofSegment_ok made
      exact ((meets _ rfl).carved valid source).toStacked
  | carve _ ends ih => exact (ih.carve _).post_of_state ends
  | get _ ends ih => exact (ih.get _).post_of_state ends
  | put _ ends ih => exact ih.regain ((put_meets ..).post_of_state ends)
  | recycle _ ends ih => exact ih.regain ((recycle_meets ..).post_of_state ends)
  | claim _ aligned ends ih => exact ih.claim aligned ends
  | overwrite _ cursor ih => exact ih.congr cursor

end Pool

/-! ## The ways in which a slot comes back -/

/-- A node knows where it has mapped the segments that it has attached, its own among them. -/
structure Node.IsWired (node : Node) : Prop where
  aligned : node.segment.file.base % headerAlignment = 0
  known : ∀ rank, node.addresses.find? rank = (node.segmentOf? rank).map Segment.mapping

theorem Network.Reached.isWired {directory : String} {network : Network} {rank : UInt32}
    {node : Node} (reached : Network.Reached directory network)
    (found : network.nodes rank = some node) : node.IsWired := by
  obtain ⟨mapped, pending, settled⟩ := reached.settled
  have charted := settled.sound.charted
  refine ⟨?_, charted.knows found⟩
  have aligned := (charted.laid.spread (charted.peers found (charted.own_segment found)).1).2.1
  simp only [pageSize, headerAlignment] at aligned ⊢
  omega

theorem Node.IsWired.resolve {node : Node} (wired : node.IsWired) {position : Nat}
    (small : position < 2 ^ 32) (aligned : position % headerAlignment = 0)
    (inside : position + headerSize ≤ node.segment.size) :
    node.addresses.resolve ⟨node.rank, UInt32.ofNat position⟩ =
        .ok (node.segment.addressAt position) ∧
      node.addresses.header ⟨node.rank, UInt32.ofNat position⟩ =
        .ok (node.segment.placeAt position) := by
  have number := UInt32.toNat_ofNat_of_lt' small
  -- The position in the mark `free` is not aligned.
  have proper : (⟨node.rank, UInt32.ofNat position⟩ : Offset) ≠ .free := by
    intro same
    have last : position = Offset.free.position.toNat := by
      rw [← number]
      exact congrArg (fun offset : Offset => offset.position.toNat) same
    rw [last] at aligned
    exact absurd aligned (by decide)
  have known : node.addresses.find? node.rank = some node.segment.mapping := by
    rw [wired.known, Node.segmentOf?, if_pos rfl]
    rfl
  have resolved := @Site.resolve_of_mapping _ ⟨node.rank, UInt32.ofNat position⟩ _ proper known
    (by rw [number]; exact inside) (by rw [number]; exact aligned) wired.aligned
  rwa [number] at resolved

/-- A node that takes one of its own fragments from its queue, on its way back, gives it to its
pool. -/
theorem Node.readWithin_returned {scene : Scene Node} {memory : Memory} {offset : Offset}
    {address : Nat} {place : Place} (fuel : Nat)
    (taken : scene.actor.queue.dequeue scene.memory = .done (some offset) memory)
    (resolved : scene.actor.addresses.resolve offset = .ok address)
    (header : scene.actor.addresses.header offset = .ok place)
    (own : offset.rank = scene.actor.rank) (returned : memory.isReturnedAt place = true) :
    Node.readWithin (fuel + 1) scene =
      (Node.reclaim address >>= fun _ => Node.readWithin fuel) { scene with memory } := by
  have dequeued : Scene.inMemory scene.actor.queue.dequeue scene =
      .done (some offset) { scene with memory } := by
    rw [Scene.inMemory_apply, taken]
    rfl
  rw [Node.readWithin, Action.bind_done (Scene.self_apply _), Action.bind_done dequeued]
  simp only [resolved, header]
  rw [Action.bind_done (Action.ofAbort_ok ..), Action.bind_done (Action.ofAbort_ok ..),
    Action.bind_done (Action.look_apply ..), if_pos ⟨own, returned⟩]

/-- What a pool does with a fragment that it does not refuse is what its node does with it. -/
theorem Node.reclaim_bind {scene : Scene Node} {address : Nat} {outcome : Outcome (Scene Node) Unit}
    (recycled : Node.inPool (Pool.recycle address) scene = outcome)
    (accepted : ∀ fault state, outcome ≠ .failed fault state) {Value : Type}
    (next : Unit → Action (Scene Node) Value) :
    (Node.reclaim address >>= next) scene = Action.bind (fun _ => outcome) next scene := by
  rw [Action.bind_apply, Node.reclaim, Action.bind_apply, Action.attempt, recycled]
  cases outcome with
  | done value after => rfl
  | failed fault state => exact absurd rfl (accepted fault state)
  | aborted cause => rfl
  | hung => rfl

namespace Pool

variable {scene after : Scene Pool} {index : Nat} {descriptor : Descriptor}

/-- In whatever way a slot comes back to a pool, it has one outcome: by the address of its header;
by its handle; as a message of the node's own that is given back; or out of the node's queue, with
the flag of a fragment that is on its way back. -/
structure ComesTo (scene : Scene Pool) (fragment : Fragment)
    (outcome : Outcome (Scene Pool) Unit) : Prop where
  recycle : Pool.recycle fragment.address scene = outcome
  put : Pool.put fragment scene = outcome
  release : ∀ node : Node, node.segment = fragment.segment →
    Node.release ⟨node.segment, ⟨node.rank, UInt32.ofNat fragment.position⟩⟩ (scene.around node) =
      outcome.mapState (Scene.around node)
  read : ∀ (node : Node) (memory : Memory) (fuel : Nat), node.IsWired →
    node.segment = fragment.segment →
    node.queue.dequeue memory =
      .done (some ⟨node.rank, UInt32.ofNat fragment.position⟩) scene.memory →
    scene.memory.isReturnedAt fragment.place = true →
    Node.readWithin (fuel + 1) (Scene.around node { scene with memory }) =
      Action.bind (fun _ => outcome.mapState (Scene.around node)) (fun _ => Node.readWithin fuel)
        (scene.around node)

/-- What becomes of a pool and of memory when a slot is taken back: the slot has the header with
which it was carved, and is on top of the unused ones of its class; nothing else changes. -/
structure Restored (before : Scene Pool) (index : Nat) (descriptor : Descriptor)
    (after : Scene Pool) : Prop where
  header : after.memory.read (before.actor.arena.segment.placeAt descriptor.position) headerSize =
    (Header.fresh before.actor.arena.rank (UInt32.ofNat index) descriptor.sizeClass
      descriptor.capacity).bytes
  payload : after.memory.read (before.actor.arena.segment.placeAt
      (descriptor.position + headerSize)) descriptor.capacity.toNat =
    before.memory.read (before.actor.arena.segment.placeAt
      (descriptor.position + headerSize)) descriptor.capacity.toNat
  others : before.memory.Keeps
    [(before.actor.arena.segment.placeAt descriptor.position, headerSize)] after.memory
  free : ∀ sizeClass, after.actor.free.get sizeClass =
    if sizeClass = descriptor.sizeClass then
      before.actor.arena.handle index descriptor :: before.actor.free.get sizeClass
    else before.actor.free.get sizeClass
  rest : after.actor = { before.actor with free := after.actor.free }

theorem IsStacked.position_eq (stacked : IsStacked scene)
    (has : scene.actor.arena.Has index descriptor) :
    (UInt32.ofNat descriptor.position).toNat = descriptor.position := by
  have within := Arena.Stacked.position_lt stacked has
  have size := stacked.small
  simp only [maxSegmentSize] at size
  exact UInt32.toNat_ofNat_of_lt' (show descriptor.position < 2 ^ 32 by omega)

/-- A node finds a slot of its pool that comes out of its queue, and gives it to the pool. -/
theorem IsStacked.readWithin_eq (stacked : IsStacked scene)
    (has : scene.actor.arena.Has index descriptor) {node : Node} (wired : node.IsWired)
    (own : node.segment = scene.actor.arena.segment) {memory : Memory} (fuel : Nat)
    (taken : node.queue.dequeue memory =
      .done (some ⟨node.rank, UInt32.ofNat descriptor.position⟩) scene.memory)
    (returned : scene.memory.isReturnedAt
      (scene.actor.arena.segment.placeAt descriptor.position) = true) :
    Node.readWithin (fuel + 1) (Scene.around node { scene with memory }) =
      (Node.reclaim (scene.actor.arena.segment.addressAt descriptor.position) >>= fun _ =>
        Node.readWithin fuel) (scene.around node) := by
  have small : descriptor.position < 2 ^ 32 :=
    stacked.position_eq has ▸ (UInt32.ofNat descriptor.position).toNat_lt
  have inside : descriptor.position + headerSize ≤ node.segment.size := by
    have within := Arena.Stacked.within stacked has
    rw [own]
    simp only [Descriptor.stop] at within
    omega
  obtain ⟨resolved, header⟩ := wired.resolve small (stacked.aligned has) inside
  rw [own] at resolved header
  exact @Node.readWithin_returned (Scene.around node { scene with memory }) scene.memory
    _ _ _ fuel taken resolved header rfl returned

/-- A slot has the same outcome in whatever way it comes back, unless it is refused. -/
theorem IsStacked.comesTo (stacked : IsStacked scene)
    (has : scene.actor.arena.Has index descriptor) {outcome : Outcome (Scene Pool) Unit}
    (recycled : Pool.recycle (scene.actor.arena.handle index descriptor).address scene = outcome)
    (accepted : ∀ fault state, outcome ≠ .failed fault state) :
    ComesTo scene (scene.actor.arena.handle index descriptor) outcome := by
  have inPool : ∀ node : Node,
      Node.inPool (Pool.recycle (scene.actor.arena.segment.addressAt descriptor.position))
        (scene.around node) = outcome.mapState (Scene.around node) := by
    intro node
    rw [← recycled]
    rfl
  exact
    { recycle := recycled
      put := by
        rw [Pool.put, Action.bind_done (Scene.self_apply _), if_neg (by simp [Arena.handle])]
        exact recycled
      release := fun node own => by
        have address : Message.address
            ⟨node.segment, ⟨node.rank, UInt32.ofNat descriptor.position⟩⟩ =
              scene.actor.arena.segment.addressAt descriptor.position := by
          rw [Message.address, Message.position, stacked.position_eq has, own]
          rfl
        rw [Node.release, Action.bind_done (Scene.self_apply _), if_pos (by rfl)]
        exact (congrArg (fun found => Node.inPool (Pool.recycle found) _) address).trans
          (inPool node)
      read := fun node memory fuel wired own taken returned => by
        have reclaims := @Node.reclaim_bind (scene.around node) _ _ (inPool node)
        refine (stacked.readWithin_eq has wired own fuel taken returned).trans
          (reclaims (fun fault state failed => ?_) _)
        cases outcome with
        | failed fault state => exact accepted fault state rfl
        | done | aborted | hung => cases failed }

/-! ## Taking a slot back -/

theorem length_fresh (memory : Memory) (fragment : Fragment) (source slot capacity : UInt32)
    (sizeClass : SizeClass) :
    fragment.length (memory.writeHeader fragment.place (.fresh source slot sizeClass capacity)) =
      0 := by
  have length : (memory.writeHeader fragment.place (.fresh source slot sizeClass capacity)).load
      HeaderField.length fragment.place = 0 := by
    rw [Memory.load_writeHeader _ _ _ (by decide)]
    exact congrArg LittleEndian.value (Memory.take_drop_middle
      (LittleEndian.bytes 8 Offset.free.word ++ LittleEndian.bytes 4 source.toNat
        ++ LittleEndian.bytes 4 slot.toNat ++ LittleEndian.bytes 4 capacity.toNat)
      (LittleEndian.bytes 4 0) _)
  rw [Fragment.length, length, Nat.zero_min]

theorem get_pushed (pool : Pool) (sizeClass : SizeClass) (fragment : Fragment) (memory : Memory)
    (notices : List Notice) :
    get sizeClass ⟨pool.pushed sizeClass fragment, memory, notices⟩ =
      .done fragment ⟨pool, memory, notices⟩ := by
  have top : (pool.pushed sizeClass fragment).free.get sizeClass =
      fragment :: pool.free.get sizeClass := by
    rw [pushed, PerClass.get_set, if_pos rfl]
  have popped : (pool.pushed sizeClass fragment).free.set sizeClass (pool.free.get sizeClass) =
      pool.free := by
    cases sizeClass <;> rfl
  rw [get, Action.bind_done (Scene.self_apply _)]
  simp only [top, popped]
  rfl

theorem restored_pushed (pool : Pool) (memory : Memory) (notices noticed : List Notice)
    (index : Nat) (descriptor : Descriptor) :
    Restored ⟨pool, memory, notices⟩ index descriptor
      ⟨pool.pushed descriptor.sizeClass (pool.arena.handle index descriptor),
        memory.writeHeader (pool.arena.segment.placeAt descriptor.position)
          (.fresh pool.arena.rank (UInt32.ofNat index) descriptor.sizeClass descriptor.capacity),
        noticed⟩ where
  header := by
    rw [← Header.length_bytes]
    exact Memory.read_write_same ..
  payload := by
    refine (memory.keeps_writeHeader (pool.arena.segment.placeAt descriptor.position) _).read ?_
    simp only [Memory.apartFrom_cons, Memory.apartFrom_nil, and_true, Memory.Apart,
      Segment.placeAt]
    exact fun _ => .inr (Nat.le_refl _)
  others := Memory.keeps_writeHeader ..
  free sizeClass := by
    dsimp only [pushed]
    rw [PerClass.get_set]
    split
    · next same => rw [same]
    · rfl
  rest := rfl

/-- A slot that is named by its header is taken back, and handed out again when the next slot of its
class is asked for. -/
theorem IsStacked.takesBack (stacked : IsStacked scene)
    (has : scene.actor.arena.Has index descriptor)
    (named : scene.memory.load HeaderField.slot
      (scene.actor.arena.handle index descriptor).place = index) :
    ∃ after, ComesTo scene (scene.actor.arena.handle index descriptor) (.done () after) ∧
      Restored scene index descriptor after ∧
      Pool.get descriptor.sizeClass after =
        .done (scene.actor.arena.handle index descriptor)
          ⟨scene.actor, after.memory, after.notices⟩ ∧
      (scene.actor.arena.handle index descriptor).length after.memory = 0 := by
  obtain ⟨pool, memory, notices⟩ := scene
  obtain ⟨noticed, recycled⟩ := @recycle_named pool memory notices _ _ stacked has named
  exact ⟨_, stacked.comesTo has recycled (fun _ _ failed => by cases failed),
    restored_pushed .., get_pushed .., length_fresh ..⟩

end Pool

/-! ## What a message shows -/

theorem AddressMap.inside_of_resolve {map : AddressMap} {offset : Offset} {address : Nat}
    (resolved : map.resolve offset = .ok address) :
    ∃ mapping, map.find? offset.rank = some mapping ∧
      offset.position.toNat + headerSize ≤ mapping.size := by
  cases found : map.find? offset.rank with
  | none => simp [resolve, expect, found, bind, Except.bind] at resolved
  | some mapping =>
      refine ⟨mapping, rfl, Nat.not_lt.mp fun short => ?_⟩
      simp [resolve, expect, found, short, bind, Except.bind] at resolved

theorem Node.IsWired.messageAt {node : Node} (wired : node.IsWired) {offset : Offset}
    {address : Nat} {message : Message} (resolved : node.addresses.resolve offset = .ok address)
    (found : node.messageAt offset = .ok message) :
    message.position + headerSize ≤ message.segment.size := by
  obtain ⟨mapping, known, inside⟩ := AddressMap.inside_of_resolve resolved
  rw [wired.known] at known
  cases attached : node.segmentOf? offset.rank with
  | none => simp [attached] at known
  | some segment =>
      rw [attached] at known
      obtain rfl := Option.some.inj known
      rw [Node.messageAt, attached] at found
      obtain rfl := Except.ok.inj found
      exact inside

theorem Node.readWithin_inside (fuel : Nat) :
    ∀ {scene : Scene Node}, scene.actor.IsWired →
      (Node.readWithin fuel scene).Meets True fun result _ => ∀ message,
        result = .ok (some message) → message.position + headerSize ≤ message.segment.size := by
  induction fuel with
  | zero => exact fun _ => trivial
  | succ fuel ih =>
      intro scene wired
      rw [Node.readWithin, Action.bind_done (Scene.self_apply _)]
      refine Action.meets_bind (Action.meets_within.mpr (Outcome.meets_any ?_))
      rintro (fault | _ | offset) memory
      · exact fun _ same => by cases same
      · exact fun _ same => by cases same
      · cases resolved : scene.actor.addresses.resolve offset with
        | error cause =>
            exact Action.meets_bind (Action.meets_ofAbort (.inr ⟨⟨_, resolved⟩, trivial⟩))
        | ok address =>
            refine Action.meets_bind (Action.meets_ofAbort (.inl ⟨_, resolved, ?_⟩))
            cases header : scene.actor.addresses.header offset with
            | error cause =>
                exact Action.meets_bind (Action.meets_ofAbort (.inr ⟨⟨_, rfl⟩, trivial⟩))
            | ok place =>
                refine Action.meets_bind (Action.meets_ofAbort (.inl ⟨_, rfl, ?_⟩))
                dsimp only
                rw [Action.bind_done (Action.look_apply _ _)]
                split
                · -- Whatever the pool does, the node has mapped what it had mapped.
                  refine Action.meets_bind (Action.meets_bind (Action.meets_attempt
                    (Node.meets_inPool.mpr (Outcome.meets_any fun _ _ => ?_))))
                  exact ih ⟨wired.aligned, wired.known⟩
                · cases found : scene.actor.messageAt offset with
                  | error cause =>
                      exact Action.meets_bind (Action.meets_ofAbort (.inr ⟨⟨_, rfl⟩, trivial⟩))
                  | ok message =>
                      refine Action.meets_bind (Action.meets_ofAbort (.inl ⟨_, rfl, ?_⟩))
                      intro other same
                      obtain rfl := Option.some.inj (Except.ok.inj same)
                      exact wired.messageAt resolved found

/-- The payload of a message that a wired node has read lies in the segment, whatever is written
into its header. -/
theorem Node.IsWired.payload_inside {scene after : Scene Node} (wired : scene.actor.IsWired)
    {message : Message} (read : Node.readQueue scene = .done (some message) after)
    (memory : Memory) :
    message.position + headerSize + message.length memory ≤ message.segment.size := by
  have inside := Node.readWithin_inside (scene.actor.pool.arena.descriptors.size + 2) wired
  rw [Node.readQueue, Action.bind_done (Scene.self_apply _)] at read
  rw [read] at inside
  have room := inside message rfl
  rw [Message.length]
  omega

theorem Arena.Stacked.payload_inside {arena : Arena} {memory : Memory} {index : Nat}
    {descriptor : Descriptor} (stacked : arena.Stacked memory)
    (has : arena.Has index descriptor) (shown : Memory) :
    descriptor.position + headerSize + (arena.handle index descriptor).length shown ≤
        descriptor.stop ∧ descriptor.stop ≤ arena.segment.size := by
  refine ⟨?_, stacked.within has⟩
  have most : (arena.handle index descriptor).length shown ≤ descriptor.capacity.toNat :=
    Nat.min_le_right ..
  rw [Descriptor.stop]
  omega

/-- **Recycling by the index alone.** Take any pool, and any slot that it has carved. Whatever
stands in the header of the slot, the slot has one outcome in whatever way it comes back:

* if the header names the slot, it is taken back: it gets the header with which it was carved, its
  payload stays, and it goes among the unused ones of the class with which it was carved, from where
  it is handed out next, with that class and capacity and with an empty payload;
* if the header names another slot, or none, the pool aborts.

Whatever stands in a header, too, the payload of a fragment lies in its slot, and the payload of a
message in the mapping from which it was read. -/
theorem Pool.Reached.recycles_by_index {scene : Scene Pool} (reached : Pool.Reached scene)
    {index : Nat} {descriptor : Descriptor} (has : scene.actor.arena.Has index descriptor) :
    let fragment := scene.actor.arena.handle index descriptor
    (∀ bytes : List UInt8, bytes.length = headerSize →
      Pool.Reached { scene with memory := scene.memory.write fragment.place bytes }) ∧
    (scene.memory.load HeaderField.slot fragment.place = index →
      ∃ after, Pool.ComesTo scene fragment (.done () after) ∧
        Pool.Restored scene index descriptor after ∧
        Pool.get descriptor.sizeClass after =
          .done fragment ⟨scene.actor, after.memory, after.notices⟩ ∧
        fragment.sizeClass = descriptor.sizeClass ∧
        fragment.capacity = scene.actor.arena.capacities.capacity descriptor.sizeClass ∧
        fragment.length after.memory = 0) ∧
    (scene.memory.load HeaderField.slot fragment.place ≠ index →
      ∃ slot, Pool.ComesTo scene fragment (.aborted (.notCarved descriptor.position slot))) ∧
    (∀ memory, descriptor.position + headerSize + fragment.length memory ≤ descriptor.stop ∧
      descriptor.stop ≤ scene.actor.arena.segment.size) ∧
    ∀ (reader after : Scene Node) (message : Message), reader.actor.IsWired →
      Node.readQueue reader = .done (some message) after →
        ∀ memory, message.position + headerSize + message.length memory ≤ message.segment.size := by
  have stacked := reached.isStacked
  refine ⟨fun bytes _ => ?_, fun named => ?_, fun unnamed => ?_, stacked.payload_inside has, ?_⟩
  · exact reached.overwrite (scene.actor.arena.segment.cursor_write _ (stacked.above has) bytes)
  · obtain ⟨after, comes, restored, taken, empty⟩ := stacked.takesBack has named
    exact ⟨after, comes, restored, taken, rfl, stacked.capacity has, empty⟩
  · obtain ⟨pool, memory, notices⟩ := scene
    have refused := @Pool.recycle_unnamed pool memory notices _ _ stacked has unnamed
    exact ⟨_, stacked.comesTo has refused fun _ _ failed => by cases failed⟩
  · intro reader after message wired read memory
    exact wired.payload_inside read memory

theorem Memory.slot_zeros (memory : Memory) (place : Place) :
    (memory.write place (List.replicate 64 0)).load HeaderField.slot place = 0 := by
  have whole := memory.read_write_same place (List.replicate 64 0)
  rw [List.length_replicate] at whole
  rw [Memory.load, Memory.word, Memory.read_shift _ place
    (show HeaderField.slot.distance + HeaderField.slot.width ≤ 64 by decide), whole]
  rfl

namespace Pool

/-- The pool of a small segment once it has handed out a slot. -/
def small : Option (Scene Pool) :=
  match Segment.create "/" 0 2048 false (.start 7 []) with
  | .done segment world =>
      match Arena.ofSegment segment ⟨64, 128, 256⟩ 0 with
      | .ok arena => (Pool.get .user ⟨.ofArena arena 2, world.memory, []⟩).state?
      | .error _ => none
  | _ => none

theorem small_reached {scene : Scene Pool} (found : small = some scene) : Reached scene := by
  rw [small] at found
  split at found
  · next created =>
    split at found
    · next made => exact .get (.create (Disk.isProper_empty _) created made) found
    · cases found
  · cases found

/-- A slot is taken back although its header has been filled with zeros, for that still names it.
And whatever is written into the memory of two nodes once one of them has read a message, the
payload ends with the mapping at the latest. -/
theorem recycles_by_index_zeros :
    (∃ scene, Reached scene ∧ scene.actor.arena.Has 0 ⟨.user, 384, 64⟩ ∧
      let fragment := scene.actor.arena.handle 0 ⟨.user, 384, 64⟩
      let memory := scene.memory.write fragment.place (List.replicate 64 0)
      ∃ after, Pool.recycle fragment.address { scene with memory } = .done () after) ∧
    ∃ network node message after, Network.Reached "/" network ∧ network.nodes 1 = some node ∧
      Node.readQueue (network.world.enter node) = .done (some message) after ∧
      ∀ memory, message.position + headerSize + message.length memory ≤ message.segment.size := by
  have first : small.map (fun scene => scene.actor.arena.descriptors[0]?) =
      some (some ⟨.user, 384, 64⟩) := by decide +kernel
  obtain ⟨scene, found, has⟩ := Option.map_eq_some_iff.mp first
  have reached := small_reached found
  have zeros := (reached.recycles_by_index has).1 (List.replicate 64 0) List.length_replicate
  obtain ⟨after, comes, _⟩ := (zeros.recycles_by_index has).2.1 (Memory.slot_zeros ..)
  refine ⟨⟨scene, reached, has, after, comes.recycle⟩, ?_⟩
  have read : ∃ network ∈ Network.twoNodes.run [.send 0 1 [104, 105], .send 1 1 []],
      ∃ node ∈ network.nodes 1, ∃ result ∈ (Node.readQueue (network.world.enter node)).done?,
        result.1.isSome = true := by
    decide +kernel
  obtain ⟨network, sent, node, here, ⟨message?, reader⟩, gets, some⟩ := read
  obtain ⟨message, rfl⟩ := Option.isSome_iff_exists.mp some
  have reachedNetwork := Network.twoNodes_assembled.1.reached.run _ sent
  have read := Outcome.eq_of_done? gets
  exact ⟨network, node, message, reader, reachedNetwork, here, read,
    (reached.recycles_by_index has).2.2.2.2 _ _ _ (reachedNetwork.isWired here) read⟩

end Pool

end RankMail
