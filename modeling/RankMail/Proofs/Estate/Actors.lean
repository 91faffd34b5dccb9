import RankMail.Proofs.Estate.Handles

set_option autoImplicit false

/-! # Actors on the ground

Arenas, pools and nodes fit the ground if what they keep does: their segments are mapped, and their
descriptors and handles are those of slots that have been carved. Whatever they do, they fit
afterwards, on a ground in which perhaps more has been carved: `Ground.Leads`. The lemmas follow the
definitions of the actions one by one.
-/

namespace RankMail

namespace Ground

variable {State Actor Part Value Result : Type} {ground more : Ground} {state : State}
  {Good : Ground → State → Prop} {Fits : Ground → Actor → Prop} {Gives : Ground → Value → Prop}
  {GivesThen : Ground → Result → Prop}

/-- Whatever comes of an action, its state is good for the ground, as far as that has been carved,
and so is what the action gives. -/
def Comes (ground : Ground) (Good : Ground → State → Prop) (Gives : Ground → Value → Prop)
    (outcome : Outcome State Value) : Prop :=
  outcome.Meets True fun result after => ∃ more, ground.Extends more ∧ Good more after ∧
    ∀ value, result = .ok value → Gives more value

/-- Anything will do. -/
def Anything (_ : Ground) (_ : Value) : Prop := True

/-! ## One action after the other -/

theorem comes_done (good : Good ground state) {value : Value} (gives : Gives ground value) :
    ground.Comes Good Gives (.done value state) :=
  ⟨ground, .refl ground, good, fun _ same => Except.ok.inj same ▸ gives⟩

theorem comes_failed (good : Good ground state) (fault : Fault) :
    ground.Comes Good Gives (.failed fault state) :=
  ⟨ground, .refl ground, good, fun _ same => by cases same⟩

theorem Comes.extends {outcome : Outcome State Value} (comes : more.Comes Good Gives outcome)
    (ext : ground.Extends more) : ground.Comes Good Gives outcome :=
  Outcome.Meets.mono comes fun _ _ ⟨most, further, rest⟩ => ⟨most, ext.trans further, rest⟩

theorem comes_bind {action : Action State Value} {next : Value → Action State Result}
    (first : ground.Comes Good Gives (action state))
    (follow : ∀ {more value after}, ground.Extends more → Good more after → Gives more value →
      more.Comes Good GivesThen (next value after)) :
    ground.Comes Good GivesThen ((action >>= next) state) := by
  refine Action.meets_bind (Outcome.Meets.mono first ?_)
  rintro (fault | value) after ⟨more, ext, good, gives⟩
  · exact ⟨more, ext, good, fun _ same => by cases same⟩
  · exact (follow ext good (gives value rfl)).extends ext

theorem comes_attempt {action : Action State Value}
    (comes : ground.Comes Good Gives (action state)) :
    ground.Comes Good (fun more result => ∀ value, result = .ok value → Gives more value)
      (Action.attempt action state) := by
  refine Action.meets_attempt (Outcome.Meets.mono comes ?_)
  rintro result after ⟨more, ext, good, gives⟩
  exact ⟨more, ext, good, fun _ same => Except.ok.inj same ▸ gives⟩

/-! ## Scenes -/

/-- The ground is sound, and the actor fits it. -/
structure Bears (ground : Ground) (Fits : Ground → Actor → Prop) (scene : Scene Actor) : Prop where
  sound : ground.Sound scene.memory
  fits : Fits ground scene.actor

/-- Whatever an actor does, it fits the ground afterwards. -/
abbrev Leads (ground : Ground) (Fits : Ground → Actor → Prop) (Gives : Ground → Value → Prop)
    (outcome : Outcome (Scene Actor) Value) : Prop :=
  ground.Comes (fun ground scene => ground.Bears Fits scene) Gives outcome

theorem leads_inMemory {scene : Scene Actor} (bears : ground.Bears Fits scene)
    {action : Action Memory Value}
    (meets : (action scene.memory).Meets True fun result after => ground.Sound after ∧
      ∀ value, result = .ok value → Gives ground value) :
    ground.Leads Fits Gives (Scene.inMemory action scene) := by
  refine Outcome.meets_mapState.mpr (meets.mono ?_)
  rintro result after ⟨sound, gives⟩
  exact ⟨ground, .refl ground, ⟨sound, bears.fits⟩, gives⟩

theorem leads_work {scene : Scene Actor} (bears : ground.Bears Fits scene)
    {action : Action Memory Unit}
    (meets : (action scene.memory).Meets True fun _ after => ground.Sound after) :
    ground.Leads Fits Anything (Scene.inMemory action scene) :=
  leads_inMemory bears (meets.mono fun _ _ sound => ⟨sound, fun _ _ => trivial⟩)

theorem leads_inPart {part : Actor → Part} {replace : Part → Actor → Actor}
    {Suits : Ground → Part → Prop} {scene : Scene Actor} {action : Action (Scene Part) Value}
    (leads : ground.Leads Suits Gives (action ⟨part scene.actor, scene.memory, scene.notices⟩))
    (back : ∀ {more inner}, ground.Extends more → Suits more inner →
      Fits more (replace inner scene.actor)) :
    ground.Leads Fits Gives (Scene.inPart part replace action scene) := by
  refine Outcome.meets_mapState.mpr (Outcome.Meets.mono leads ?_)
  rintro result after ⟨more, ext, bears, gives⟩
  exact ⟨more, ext, ⟨bears.sound, back ext bears.fits⟩, gives⟩

/-! ## Arenas -/

/-- An arena whose segment is mapped and whose slots have been carved. -/
structure FitsArena (ground : Ground) (arena : Arena) : Prop where
  mapped : arena.segment ∈ ground.mapped
  carved : ∀ {index descriptor}, arena.Has index descriptor →
    ground.Has arena.segment.file.region descriptor.position descriptor.capacity.toNat

theorem FitsArena.retain {arena : Arena} (fits : ground.FitsArena arena)
    (retains : Retains [arena.segment] ground more) : more.FitsArena arena :=
  ⟨retains.mapped _ List.mem_cons_self fits.mapped, fun has => retains.parcels (fits.carved has)⟩

theorem fitsArena_new {segment : Segment} (mapped : segment ∈ ground.mapped)
    (capacities : Capacities) (rank : UInt32) :
    ground.FitsArena ⟨segment, capacities, rank, #[]⟩ :=
  ⟨mapped, fun has => by simp [Arena.Has] at has⟩

theorem slotSize_some {capacity size : Nat} (sized : slotSize capacity = some size) :
    capacity ≤ maxCapacity ∧ headerSize + capacity ≤ size := by
  have allowed : capacity ≤ maxCapacity := by
    rw [slotSize] at sized
    split at sized
    · cases sized
    · omega
  obtain ⟨again, same, _, room⟩ := Arena.slotSize_eq allowed
  exact ⟨allowed, Option.some.inj (same.symm.trans sized) ▸ room⟩

/-- Carving a slot in a range that has been claimed for it. -/
theorem carveAt_leads {scene : Scene Arena} (bears : ground.Bears FitsArena scene)
    {sizeClass : SizeClass} {position length : Nat}
    (sized : slotSize (scene.actor.capacities.capacity sizeClass) = some length)
    (claimed : ground.IsClaimed scene.memory scene.actor.segment position length) :
    ground.Leads FitsArena Holds (Arena.carveAt sizeClass position scene) := by
  obtain ⟨arena, memory, notices⟩ := scene
  obtain ⟨allowed, room⟩ := slotSize_some sized
  by_cases full : 2 ^ 32 ≤ arena.descriptors.size
  · rw [Arena.carveAt, Action.bind_done (Scene.self_apply _)]
    simp only [if_pos full]
    exact comes_failed bears _
  · rw [Arena.carveAt_eq allowed (Nat.not_le.mp full)]
    have grown := bears.sound.grow bears.fits.mapped claimed room
    have capacity := Arena.capacity_next allowed position
    have here : (ground.grown ⟨arena.segment.file.region, position,
        arena.capacities.capacity sizeClass⟩).Has arena.segment.file.region position
          (arena.nextDescriptor sizeClass position).capacity.toNat :=
      capacity ▸ List.mem_cons_self
    refine ⟨_, ground.extends_grown _, ⟨grown.stamp List.mem_cons_self rfl, bears.fits.mapped,
      fun has => ?_⟩, fun value same => ?_⟩
    · rcases Arena.has_extended has with ⟨has, _⟩ | ⟨_, rfl⟩
      · exact List.mem_cons_of_mem _ (bears.fits.carved has)
      · exact here
    · obtain rfl := Except.ok.inj same
      exact ⟨bears.fits.mapped, here⟩

theorem carve_leads {scene : Scene Arena} (bears : ground.Bears FitsArena scene)
    (sizeClass : SizeClass) :
    ground.Leads FitsArena Holds (Arena.carve sizeClass scene) := by
  rw [Arena.carve, Action.bind_done (Scene.self_apply _)]
  cases sized : slotSize (scene.actor.capacities.capacity sizeClass) with
  | none => exact comes_failed bears _
  | some length =>
      refine Action.meets_bind (Outcome.meets_mapState.mpr
        ((bears.sound.reserve_meets bears.fits.mapped length).always ?_))
      rintro result after ⟨sound, claimed⟩
      have bears : ground.Bears FitsArena { scene with memory := after } := ⟨sound, bears.fits⟩
      rcases result with fault | _ | position
      · exact comes_failed bears fault
      · refine comes_failed ?_ _
        exact ⟨sound, bears.fits⟩
      · exact carveAt_leads bears sized (claimed position rfl)

/-! ## Pools -/

/-- A pool whose arena fits, and whose unused slots have been carved. -/
structure FitsPool (ground : Ground) (pool : Pool) : Prop where
  arena : ground.FitsArena pool.arena
  free : ∀ sizeClass, ∀ fragment ∈ pool.free.get sizeClass, ground.Holds fragment

theorem FitsPool.retain {pool : Pool} (fits : ground.FitsPool pool)
    (retains : Retains pool.segments ground more) : more.FitsPool pool where
  arena := fits.arena.retain (retains.subset (List.cons_subset_cons _ (List.nil_subset _)))
  free sizeClass fragment inside := by
    refine (fits.free sizeClass fragment inside).retain (retains.subset ?_)
    refine List.cons_subset.mpr ⟨List.mem_cons_of_mem _ (List.mem_map_of_mem ?_), List.nil_subset _⟩
    exact List.mem_flatten.mpr ⟨_, List.mem_map_of_mem sizeClass.mem_all, inside⟩

theorem FitsArena.toPool {arena : Arena} (fits : ground.FitsArena arena) (growBatch : Nat) :
    ground.FitsPool (.ofArena arena growBatch) :=
  ⟨fits, fun sizeClass fragment inside => by simp [Pool.ofArena] at inside⟩

theorem FitsPool.replace {pool : Pool} (fits : ground.FitsPool pool) {sizeClass : SizeClass}
    {fragments : List Fragment} (hold : ∀ fragment ∈ fragments, ground.Holds fragment) :
    ground.FitsPool { pool with free := pool.free.set sizeClass fragments } where
  arena := fits.arena
  free other fragment inside := by
    rw [PerClass.get_set] at inside
    split at inside
    · exact hold fragment inside
    · exact fits.free other fragment inside

theorem carve_inArena_leads {scene : Scene Pool} (bears : ground.Bears FitsPool scene)
    (sizeClass : SizeClass) :
    ground.Leads FitsPool Holds (Pool.inArena (Arena.carve sizeClass) scene) :=
  leads_inPart (carve_leads ⟨bears.sound, bears.fits.arena⟩ sizeClass) fun ext fits =>
    ⟨fits, (bears.fits.retain (ext.retains _)).free⟩

theorem push_leads {scene : Scene Pool} (bears : ground.Bears FitsPool scene)
    (sizeClass : SizeClass) {fragment : Fragment} (holds : ground.Holds fragment) :
    ground.Leads FitsPool Anything (Pool.push sizeClass fragment scene) := by
  rw [Pool.push_eq]
  have hold := List.forall_mem_cons.mpr ⟨holds, bears.fits.free sizeClass⟩
  refine comes_done ?_ ?_
  · exact ⟨bears.sound, bears.fits.replace hold⟩
  · trivial

theorem grow_leads {scene : Scene Pool} (bears : ground.Bears FitsPool scene)
    (sizeClass : SizeClass) (count : Nat) :
    ground.Leads FitsPool Anything (Pool.grow sizeClass count scene) := by
  induction count generalizing ground scene with
  | zero => exact comes_done bears trivial
  | succ count ih =>
      rw [Pool.grow]
      refine comes_bind (comes_attempt (carve_inArena_leads bears sizeClass)) ?_
      intro more result after ext bears gives
      split
      · exact comes_bind (push_leads bears sizeClass (gives _ rfl)) fun _ bears _ => ih bears
      · exact comes_done bears trivial
      · exact comes_failed bears _

theorem get_leads {scene : Scene Pool} (bears : ground.Bears FitsPool scene)
    (sizeClass : SizeClass) :
    ground.Leads FitsPool Holds (Pool.get sizeClass scene) := by
  rw [Pool.get, Action.bind_done (Scene.self_apply _)]
  have free := bears.fits.free sizeClass
  cases found : scene.actor.free.get sizeClass with
  | cons fragment rest =>
      rw [found] at free
      obtain ⟨first, others⟩ := List.forall_mem_cons.mp free
      dsimp only
      rw [Action.bind_done (Scene.become_apply _ _)]
      refine comes_done ?_ ?_
      · exact ⟨bears.sound, bears.fits.replace others⟩
      · exact first
  | nil =>
      refine comes_bind (carve_inArena_leads bears sizeClass) fun ext bears holds => ?_
      exact comes_bind (grow_leads bears sizeClass _) fun ext bears _ =>
        comes_done bears (holds.retain (ext.retains _))

theorem getFirst_leads {scene : Scene Pool} (bears : ground.Bears FitsPool scene) (last : Fault)
    (classes : List SizeClass) :
    ground.Leads FitsPool Holds (Pool.getFirst last classes scene) := by
  induction classes generalizing ground scene last with
  | nil => exact comes_failed bears last
  | cons sizeClass rest ih =>
      rw [Pool.getFirst]
      refine comes_bind (comes_attempt (get_leads bears sizeClass)) ?_
      intro more result after ext bears gives
      split
      · exact comes_done bears (gives _ rfl)
      · exact ih bears _
      · exact comes_failed bears _

/-- A slot becomes what its descriptor says. -/
theorem restore_leads {scene : Scene Pool} (bears : ground.Bears FitsPool scene) {slot : UInt32}
    {index : Nat} {descriptor : Descriptor} (has : scene.actor.arena.Has index descriptor) :
    ground.Leads FitsPool Anything (Pool.restore slot descriptor scene) := by
  have carved := bears.fits.arena.carved has
  have mapped := bears.fits.arena.mapped
  rw [Pool.restore, Action.bind_done (Scene.self_apply _)]
  refine comes_bind (leads_work bears (bears.sound.stamp carved rfl)) fun ext bears _ => ?_
  exact push_leads bears _ ⟨ext.mapped ▸ mapped, ext.parcels carved⟩

theorem recycle_leads {scene : Scene Pool} (bears : ground.Bears FitsPool scene) (address : Nat) :
    ground.Leads FitsPool Anything (Pool.recycle address scene) := by
  rw [Pool.recycle, Action.bind_done (Scene.self_apply _)]
  by_cases outside : address < scene.actor.arena.segment.file.base ∨
      scene.actor.arena.segment.size ≤ address - scene.actor.arena.segment.file.base
  · simp only [if_pos outside]
    exact comes_failed bears _
  · simp only [if_neg outside]
    rw [Action.bind_done (Action.look_apply _ _)]
    generalize UInt32.ofNat (scene.memory.load HeaderField.slot _) = slot
    cases known : scene.actor.arena.descriptor? slot with
    | none => trivial
    | some descriptor =>
        dsimp only
        split
        · trivial
        · obtain ⟨notices, compared⟩ := Pool.compare_eq (scene.actor.arena.segment.placeAt
            (address - scene.actor.arena.segment.file.base)) slot descriptor scene
          rw [Action.bind_done compared]
          refine restore_leads ?_ known
          exact ⟨bears.sound, bears.fits⟩

theorem put_leads {scene : Scene Pool} (bears : ground.Bears FitsPool scene)
    (fragment : Fragment) : ground.Leads FitsPool Anything (Pool.put fragment scene) := by
  rw [Pool.put, Action.bind_done (Scene.self_apply _)]
  by_cases foreign : fragment.segment.file.base ≠ scene.actor.arena.segment.file.base
  · simp only [if_pos foreign]
    exact comes_failed bears _
  · simp only [if_neg foreign]
    exact recycle_leads bears _

/-! ## Nodes -/

/-- A node whose segments are mapped, that knows where, and whose pool fits. -/
structure FitsNode (directory : String) (ground : Ground) (node : Node) : Prop where
  home : node.directory = directory
  rank : node.segment.rank = node.rank
  mapped : ∀ segment ∈ node.segment :: node.peers, segment ∈ ground.mapped
  linked : ∀ rank mapping, node.addresses.find? rank = some mapping →
    ∃ segment ∈ node.segment :: node.peers, segment.rank = rank ∧ mapping = segment.mapping
  pool : ground.FitsPool node.pool

section

variable {directory : String} {node : Node} {scene : Scene Node}

theorem FitsNode.retain (fits : ground.FitsNode directory node)
    (retains : Retains node.segments ground more) : more.FitsNode directory node where
  home := fits.home
  rank := fits.rank
  mapped segment inside :=
    retains.mapped segment (List.mem_append_left _ inside) (fits.mapped segment inside)
  linked := fits.linked
  pool := fits.pool.retain (retains.subset (List.subset_append_right ..))

theorem FitsNode.knows (fits : ground.FitsNode directory node) : ground.Knows node.addresses := by
  intro rank mapping found
  obtain ⟨segment, inside, same⟩ := fits.linked rank mapping found
  exact ⟨segment, fits.mapped segment inside, same⟩

theorem FitsNode.segmentOf? (fits : ground.FitsNode directory node) {rank : UInt32}
    {segment : Segment} (found : node.segmentOf? rank = some segment) :
    segment ∈ ground.mapped ∧ segment.rank = rank := by
  rw [Node.segmentOf?] at found
  split at found
  · next same =>
      obtain rfl := Option.some.inj found
      exact ⟨fits.mapped _ List.mem_cons_self, same ▸ fits.rank⟩
  · exact ⟨fits.mapped segment (List.mem_cons_of_mem _ (List.mem_of_find?_eq_some found)),
      by simpa using List.find?_some found⟩

theorem inPool_leads {action : Action (Scene Pool) Value}
    (bears : ground.Bears (FitsNode directory) scene)
    (leads : ∀ {scene : Scene Pool}, ground.Bears FitsPool scene →
      ground.Leads FitsPool Gives (action scene)) :
    ground.Leads (FitsNode directory) Gives (Node.inPool action scene) :=
  leads_inPart (leads ⟨bears.sound, bears.fits.pool⟩) fun ext fits =>
    { bears.fits.retain (ext.retains _) with pool := fits }

/-- A fragment of any arena is sent, if it belongs to the node's own. -/
theorem writeToPeer_leads (bears : ground.Bears (FitsNode directory) scene) (peer : UInt32)
    {fragment : Fragment} (holds : ground.Holds fragment) :
    ground.Leads (FitsNode directory) Anything (Node.writeToPeer peer fragment scene) := by
  rw [Node.writeToPeer, Action.bind_done (Scene.self_apply _)]
  cases found : scene.actor.segmentOf? peer with
  | none =>
      refine comes_bind (inPool_leads bears fun bears => put_leads bears fragment) ?_
      exact fun _ bears _ => comes_failed bears _
  | some target =>
      dsimp only
      cases located : scene.actor.addresses.offset fragment.address with
      | error cause => trivial
      | ok offset =>
          have slot := bears.sound.admits_address bears.fits.knows holds.mapped holds.carved
            located
          rw [Action.bind_done (Action.ofAbort_ok _ _)]
          refine leads_work bears (Action.meets_bind (Outcome.meets_done.mpr ?_))
          exact (bears.sound.setField holds.carved (by decide) (by decide) _).deliver_meets
            bears.fits.knows (bears.fits.segmentOf? found).1 slot

theorem send_leads (bears : ground.Bears (FitsNode directory) scene) (peer : UInt32)
    (payload : List UInt8) :
    ground.Leads (FitsNode directory) Anything (Node.send peer payload scene) := by
  rw [Node.send, Action.bind_done (Scene.self_apply _)]
  cases scene.actor.classFor payload.length with
  | error fault => exact comes_failed bears fault
  | ok sizeClass =>
      rw [Action.bind_done (Action.ofFault_ok _ _)]
      refine comes_bind (inPool_leads bears fun bears => get_leads bears sizeClass) ?_
      intro more fragment after ext bears holds
      refine comes_bind (leads_work bears (bears.sound.write_meets holds payload)) ?_
      exact fun ext bears _ => writeToPeer_leads bears peer (holds.retain (ext.retains _))

/-- A message comes from a queue, so it lies in a slot. -/
theorem messageAt_brings (fits : ground.FitsNode directory node) {offset : Offset}
    (slot : ground.Admits offset) {message : Message} (proper : ground.Proper)
    (found : node.messageAt offset = .ok message) : ground.Brings message := by
  rw [Node.messageAt] at found
  cases known : node.segmentOf? offset.rank with
  | none =>
      rw [known] at found
      cases found
  | some segment =>
      rw [known] at found
      obtain rfl := Except.ok.inj found
      obtain ⟨mapped, rank⟩ := fits.segmentOf? known
      obtain ⟨plot, here, region, _⟩ := proper.charted segment mapped
      obtain ⟨capacity, carved⟩ := slot.slot plot (rank ▸ here)
      exact ⟨mapped, rank.symm, capacity, by rw [region]; exact carved⟩

theorem reclaim_leads (bears : ground.Bears (FitsNode directory) scene) (address : Nat) :
    ground.Leads (FitsNode directory) Anything (Node.reclaim address scene) :=
  comes_bind (comes_attempt (inPool_leads bears fun bears => recycle_leads bears address))
    fun _ bears _ => comes_done bears trivial

/-- What the node takes from the queue of a segment are offsets of slots. -/
theorem dequeue_leads (bears : ground.Bears (FitsNode directory) scene) {target : Segment}
    (mapped : target ∈ ground.mapped) :
    ground.Leads (FitsNode directory)
      (fun more found => ∀ offset, found = some offset → more.Admits offset)
      (Scene.inMemory (target.queue scene.actor.addresses).dequeue scene) := by
  obtain ⟨plot, serves⟩ := bears.sound.serves bears.fits.knows mapped
  refine leads_inMemory bears ((bears.sound.dequeue_meets serves).mono ?_)
  rintro result after ⟨sound, slots⟩
  exact ⟨sound, fun value same offset found => slots offset (found ▸ same)⟩

/-- The message that is read lies in a slot. -/
theorem readWithin_leads (bears : ground.Bears (FitsNode directory) scene) (fuel : Nat) :
    ground.Leads (FitsNode directory)
      (fun more found => ∀ message, found = some message → more.Brings message)
      (Node.readWithin fuel scene) := by
  induction fuel generalizing ground scene with
  | zero => trivial
  | succ fuel ih =>
      rw [Node.readWithin, Action.bind_done (Scene.self_apply _)]
      refine comes_bind (dequeue_leads bears (bears.fits.mapped _ List.mem_cons_self)) ?_
      rintro more (_ | offset) after ext later slots
      · exact comes_done later fun _ same => by cases same
      · have fits := bears.fits.retain (ext.retains _)
        have slot := slots offset rfl
        dsimp only
        cases scene.actor.addresses.resolve offset with
        | error cause => trivial
        | ok address =>
            cases scene.actor.addresses.header offset with
            | error cause => trivial
            | ok place =>
                simp only [Action.bind_done (Action.ofAbort_ok _ _),
                  Action.bind_done (Action.look_apply _ _)]
                split
                · exact comes_bind (reclaim_leads later address) fun _ later _ => ih later
                · cases found : scene.actor.messageAt offset with
                  | error cause => trivial
                  | ok message =>
                      refine comes_done later fun again same => ?_
                      obtain rfl := Option.some.inj same
                      exact messageAt_brings fits slot later.sound.toProper found

theorem readQueue_leads (bears : ground.Bears (FitsNode directory) scene) :
    ground.Leads (FitsNode directory)
      (fun more found => ∀ message, found = some message → more.Brings message)
      (Node.readQueue scene) := by
  rw [Node.readQueue, Action.bind_done (Scene.self_apply _)]
  exact readWithin_leads bears _

theorem release_leads (bears : ground.Bears (FitsNode directory) scene) {message : Message}
    (brings : ground.Brings message) :
    ground.Leads (FitsNode directory) Anything (Node.release message scene) := by
  obtain ⟨capacity, carved⟩ := brings.carved
  rw [Node.release, Action.bind_done (Scene.self_apply _)]
  by_cases own : message.owner = scene.actor.rank
  · simp only [if_pos own]
    exact inPool_leads bears fun bears => recycle_leads bears _
  · simp only [if_neg own]
    rw [Node.sendBack, Action.bind_done (Scene.self_apply _)]
    cases found : scene.actor.segmentOf? message.owner with
    | none => exact comes_failed bears _
    | some target =>
        dsimp only
        cases located : scene.actor.addresses.offsetFor message.owner message.address with
        | error cause => trivial
        | ok offset =>
            have slot := bears.sound.admits_address bears.fits.knows brings.mapped carved
              located
            rw [Action.bind_done (Action.ofAbort_ok _ _)]
            refine leads_work bears (Action.meets_bind (Outcome.meets_done.mpr ?_))
            exact (bears.sound.setField carved (by decide) (by decide) _).deliver_meets
              bears.fits.knows (bears.fits.segmentOf? found).1 slot

theorem detachPeer_leads (bears : ground.Bears (FitsNode directory) scene) (rank : UInt32) :
    ground.Leads (FitsNode directory) Anything (Node.detachPeer rank scene) := by
  rw [Node.detachPeer, Action.bind_done (Scene.self_apply _)]
  by_cases known : (scene.actor.peer? rank).isSome
  · simp only [if_pos known]
    rw [Action.bind_done (Scene.become_apply _ _)]
    refine comes_done ?_ trivial
    refine ⟨bears.sound, { bears.fits with
      mapped := fun segment inside => ?_
      linked := fun other mapping found => ?_ }⟩
    · refine bears.fits.mapped segment (List.cons_subset_cons _ ?_ inside)
      exact List.filter_subset_self _
    · rw [AddressMap.find?_unregister] at found
      split at found
      · cases found
      · next differs =>
          obtain ⟨segment, inside, rfl, same⟩ := bears.fits.linked other mapping found
          refine ⟨segment, ?_, rfl, same⟩
          rcases List.mem_cons.mp inside with rfl | inside
          · exact List.mem_cons_self
          · exact List.mem_cons_of_mem _ (List.mem_filter.mpr ⟨inside, by simpa using differs⟩)
  · simp only [if_neg known]
    exact comes_done bears trivial

end

end Ground

end RankMail
