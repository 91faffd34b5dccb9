import RankMail.Proofs.Network.Attaching
import RankMail.Proofs.Node.Creation

set_option autoImplicit false

/-! # Nodes that join

A node that is created has a file of its own, which is none of the files of the nodes that there
are, and it has carved nothing and has nothing in its queue (`Node.Created`). So a network that it
joins stays settled (`Settled.join`).
-/

namespace RankMail

/-- What there is once a node has been created. -/
structure Node.Created (directory : String) (rank : UInt32) (config : Config) (world : World)
    (node : Node) (after : World) : Prop where
  made : Segment.Made directory rank config.segmentSize.toNat world node.segment after
  node_eq : node = { node with directory, rank, peers := [] }
  addresses : (AddressMap.empty rank).register rank node.segment.mapping = .ok node.addresses
  pool : node.pool = .ofArena ⟨node.segment, config.capacities, rank, #[]⟩ config.growBatch.toNat
  valid : config.capacities.validate = .ok ()

theorem Node.create_meets {world : World} (proper : world.disk.IsProper world.memory.fresh)
    (directory : String) (rank : UInt32) (config : Config) :
    (Node.create directory rank config world).Meets True fun result after =>
      ∀ node, result = .ok node → node.Created directory rank config world after := by
  refine (create_ends directory rank config world).mono ?_
  rintro (fault | node) after ends
  · exact fun _ same => by cases same
  · obtain ⟨segment, made, valid, addresses, registered, rfl⟩ := ends
    have makes := Segment.create_meets proper directory rank config.segmentSize.toNat
      config.removeOnClose
    rw [(makeSegment_done made).2] at makes
    intro node same
    obtain rfl := Except.ok.inj same
    exact ⟨makes segment rfl, rfl, registered, rfl, valid⟩

theorem Segment.Made.carved {directory : String} {rank : UInt32} {size : Nat} {world after : World}
    {segment : Segment} {capacities : Capacities}
    (made : Segment.Made directory rank size world segment after)
    (valid : capacities.validate = .ok ()) (source : UInt32) :
    (⟨segment, capacities, source, #[]⟩ : Arena).Carved after.memory := by
  have cursor := made.cursor
  have sized := made.sized
  have above := made.above
  exact
    { small := sized ▸ made.below
      allowed := Capacities.le_maxCapacity valid
      cursorAligned := by rw [cursor]; decide
      cursorAbove := by
        rw [cursor]
        exact Nat.le_refl _
      cursorBelow := by
        rw [cursor]
        show arenaStart ≤ segment.size
        omega
      aligned := fun has => by simp [Arena.Has] at has
      above := fun has => by simp [Arena.Has] at has
      below := fun has => by simp [Arena.Has] at has
      apart := fun has => by simp [Arena.Has] at has
      capacity := fun has => by simp [Arena.Has] at has
      names := fun has => by simp [Arena.Has] at has }

namespace Node.Created

variable {directory : String} {mapped : List Segment} {network : Network} {rank : UInt32}
  {config : Config} {node : Node} {world after : World}

theorem placed (created : node.Created directory rank config world after) :
    node.Placed directory rank := by
  have made := created.made
  have arena := congrArg Pool.arena created.pool
  rw [created.node_eq]
  exact
    { nodeRank := rfl
      nodeDirectory := rfl
      segmentRank := made.named
      arena := congrArg Arena.segment arena
      arenaRank := congrArg Arena.rank arena
      addressRank := AddressMap.own_register created.addresses
      usable := made.usable
      above := made.sized ▸ made.above
      below := made.sized ▸ made.below
      alone := rfl }

theorem segmentOf? (created : node.Created directory rank config world after) (other : UInt32) :
    node.segmentOf? other = if other = rank then some node.segment else none := by
  rw [created.node_eq]
  rfl

theorem knows (created : node.Created directory rank config world after) (other : UInt32) :
    node.addresses.find? other = (node.segmentOf? other).map Segment.mapping := by
  rw [created.segmentOf?, AddressMap.find?_register created.addresses]
  split <;> rfl

/-- A node that has been created has carved nothing, and its queue is empty. -/
theorem isNew (created : node.Created directory rank config world after) :
    node.IsNew after.memory := by
  have arena : node.pool.arena = ⟨node.segment, config.capacities, rank, #[]⟩ :=
    congrArg Pool.arena created.pool
  constructor
  · rw [arena]
    exact created.made.carved created.valid rank
  · rw [arena]
  · intro sizeClass
    rw [created.pool]
    exact PerClass.get_const ..
  · exact created.made.head
  · exact created.made.tail

end Node.Created

namespace Network

variable {network : Network} {rank other : UInt32} {node peer : Node} {world : World}

theorem nodes_of_joined (found : (network.joined rank node world).nodes other = some peer) :
    (other = rank ∧ peer = node) ∨ (other ≠ rank ∧ network.nodes other = some peer) := by
  by_cases same : other = rank
  · subst same
    exact .inl ⟨rfl, by simpa [joined] using found.symm⟩
  · exact .inr ⟨same, by simpa [joined, same] using found⟩

theorem nodes_joined (new : network.nodes rank = none) (found : network.nodes other = some peer) :
    other ≠ rank ∧ (network.joined rank node world).nodes other = some peer := by
  have differs : other ≠ rank := by
    rintro rfl
    simp [new] at found
  exact ⟨differs, by simpa [joined, differs] using found⟩

theorem nodes_joined_other (differs : other ≠ rank) (network : Network) (node : Node)
    (world : World) : (network.joined rank node world).nodes other = network.nodes other := by
  simp [joined, differs]

@[simp] theorem nodes_joined_self (network : Network) (rank : UInt32) (node : Node)
    (world : World) : (network.joined rank node world).nodes rank = some node := by
  simp [joined]

end Network

namespace Charted

variable {directory : String} {mapped : List Segment} {network : Network} {rank other : UInt32}
  {config : Config} {node peer : Node} {world : World}

theorem region_ne (charted : Charted directory mapped network) (new : network.nodes rank = none)
    (created : node.Created directory rank config network.world world)
    (found : network.nodes other = some peer) :
    world.disk.Files directory (Segment.fileName other) peer.segment.file.region ∧
      peer.segment.file.region ≠ node.segment.file.region := by
  have differs : other ≠ rank := by
    rintro rfl
    simp [new] at found
  exact created.made.disk.others differs (charted.filed found)

theorem join (charted : Charted directory mapped network) (new : network.nodes rank = none)
    (created : node.Created directory rank config network.world world) :
    Charted directory (node.segment :: mapped) (network.joined rank node world) where
  placed found := by
    rcases Network.nodes_of_joined found with ⟨rfl, rfl⟩ | ⟨_, found⟩
    · exact created.placed
    · exact charted.placed found
  knows found := by
    rcases Network.nodes_of_joined found with ⟨rfl, rfl⟩ | ⟨_, found⟩
    · exact created.knows
    · exact charted.knows found
  peers found attached := by
    rcases Network.nodes_of_joined found with ⟨rfl, rfl⟩ | ⟨_, found⟩
    · rw [created.segmentOf?] at attached
      split at attached
      · next same =>
          obtain rfl := Option.some.inj attached
          exact ⟨List.mem_cons_self, created.made.named.trans same.symm, _,
            same ▸ network.nodes_joined_self .., rfl, rfl⟩
      · cases attached
    · obtain ⟨inside, named, owner, foundOwner, same⟩ := charted.peers found attached
      exact ⟨List.mem_cons_of_mem _ inside, named, owner,
        (Network.nodes_joined new foundOwner).2, same⟩
  regions foundOne foundTwo same := by
    rcases Network.nodes_of_joined foundOne with ⟨rfl, rfl⟩ | ⟨_, old⟩
    · rcases Network.nodes_of_joined foundTwo with ⟨rfl, rfl⟩ | ⟨_, oldToo⟩
      · rfl
      · exact absurd same.symm (charted.region_ne new created oldToo).2
    · rcases Network.nodes_of_joined foundTwo with ⟨rfl, rfl⟩ | ⟨_, oldToo⟩
      · exact absurd same (charted.region_ne new created old).2
      · exact charted.regions old oldToo same
  size found := by
    have made := created.made
    rcases Network.nodes_of_joined found with ⟨rfl, rfl⟩ | ⟨_, found⟩
    · exact ⟨made.length.trans made.sized.symm, made.known⟩
    · -- Other files keep their bytes: the new one is in a region of its own.
      obtain ⟨size, known⟩ := charted.size found
      refine ⟨?_, Nat.lt_of_lt_of_le known made.only.fresh⟩
      show (world.memory.region _).size = _
      rw [made.only.region (charted.region_ne new created found).2]
      exact size
  laid := by
    have laid := charted.laid.cons created.made.base
    rw [created.made.sized, ← created.made.nextBase] at laid
    exact laid
  disk :=
    { known := fun found => by
        have known := created.made.disk.proper.known found
        have fresh := created.made.only.fresh
        have last := created.made.known
        show _ < world.memory.fresh
        omega
      apart := created.made.disk.proper.apart }
  filed found := by
    rcases Network.nodes_of_joined found with ⟨rfl, rfl⟩ | ⟨_, found⟩
    · exact created.made.disk.files
    · exact (charted.region_ne new created found).1
  removed {segment} inside removes := by
    have member : segment ∈ world.segments := inside
    rw [created.made.segments] at member
    rcases List.mem_cons.mp member with rfl | member
    · exact ⟨rank, node, network.nodes_joined_self .., rfl⟩
    · obtain ⟨other, peer, found, base⟩ := charted.removed member removes
      exact ⟨other, peer, (Network.nodes_joined new found).2, base⟩

end Charted

/-- What is there stays as it is when a node joins. -/
theorem Charted.persists_joined {directory : String} {mapped : List Segment} {network : Network}
    {rank : UInt32} {config : Config} {node : Node} {world : World}
    (charted : Charted directory mapped network) (new : network.nodes rank = none)
    (created : node.Created directory rank config network.world world) :
    network.Persists (network.joined rank node world) where
  forth found := ⟨_, (Network.nodes_joined new found).2, rfl, rfl⟩
  back found := by
    rcases Network.nodes_of_joined found with ⟨rfl, rfl⟩ | ⟨_, found⟩
    · exact .inr ⟨new, created.isNew⟩
    · exact .inl ⟨_, found, rfl, rfl⟩
  read found _ count := created.made.only.read (charted.region_ne new created found).2 count
  fragments := rfl
  received := rfl
  retired := rfl
  log := rfl

theorem Settled.join {directory : String} {mapped : List Segment} {network : Network}
    {pending : UInt32 → List Item} {rank : UInt32} {config : Config} {node : Node} {world : World}
    (settled : Settled directory mapped network pending) (new : network.nodes rank = none)
    (created : node.Created directory rank config network.world world) :
    Settled directory (node.segment :: mapped) (network.joined rank node world) pending :=
  settled.persist (settled.sound.charted.persists_joined new created)
    (settled.sound.charted.join new created) (List.subset_cons_self ..)

/-- A network stays settled when a node is created. -/
theorem Settled.create {directory : String} {mapped : List Segment} {network : Network}
    {pending : UInt32 → List Item} {rank : UInt32} {config : Config} {node : Node} {world : World}
    (settled : Settled directory mapped network pending) (new : network.nodes rank = none)
    (created : Node.create directory rank config network.world = .done node world) :
    Settled directory (node.segment :: mapped) (network.joined rank node world) pending := by
  have creates := Node.create_meets settled.sound.charted.disk directory rank config
  rw [created] at creates
  exact settled.join new (creates node rfl)

theorem Settled.start {directory : String} {world : World}
    (proper : world.disk.IsProper world.memory.fresh)
    (unmapped : world.segments = []) (next : 0 < world.nextBase ∧ world.nextBase % pageSize = 0) :
    Settled directory [] (.start world) fun _ => [] where
  sound :=
    { charted :=
        { placed := fun found => by cases found
          knows := fun found => by cases found
          peers := fun found => by cases found
          regions := fun found => by cases found
          size := fun found => by cases found
          laid :=
            { spread := fun inside => absurd inside List.not_mem_nil
              clear := fun inside => absurd inside List.not_mem_nil
              next := next }
          disk := proper
          filed := fun found => by cases found
          removed := fun inside => by
            rw [show (Network.start world).world.segments = [] from unmapped] at inside
            exact absurd inside List.not_mem_nil }
      carved := fun found => by cases found
      unused := fun found => by cases found
      held := fun inside => absurd inside List.not_mem_nil
      read := fun inside => absurd inside List.not_mem_nil
      nobody := fun _ => rfl
      holds := fun found => by cases found
      items := fun inside => absurd inside List.not_mem_nil
      exact :=
        { nodup := fun location => by cases location <;> exact List.nodup_nil
          once := fun {one two offset} inside => by
            cases one <;> exact absurd inside List.not_mem_nil
          somewhere := fun {offset} => by
            constructor
            · rintro ⟨_, _, _, found, _⟩
              cases found
            · rintro ⟨location, inside⟩
              cases location <;> exact absurd inside List.not_mem_nil } }
  logged := ⟨fun _ => rfl, fun inside => absurd inside List.not_mem_nil⟩

end RankMail
