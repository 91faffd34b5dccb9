import RankMail.Proofs.Network.Steps

set_option autoImplicit false

/-! # Taking slots and taking them back

A node that takes a slot gets one that is in no other place (`alloc_meets`), whether it was unused
or is carved now, and whatever else is carved at the same time goes among the unused ones. A slot
that comes back by its address is found again among those that have been carved, and goes among the
unused ones of its class (`recycles_meets`).
-/

namespace RankMail

def Scene.around (node : Node) (inner : Scene Pool) : Scene Node :=
  ⟨{ node with pool := inner.actor }, inner.memory, inner.notices⟩

theorem Node.meets_inPool {Value : Type} {stuck : Prop} {action : Action (Scene Pool) Value}
    {scene : Scene Node} {post : Except Fault Value → Scene Node → Prop} :
    (Node.inPool action scene).Meets stuck post ↔
      (action ⟨scene.actor.pool, scene.memory, scene.notices⟩).Meets stuck fun result inner =>
        post result (inner.around scene.actor) := Outcome.meets_mapState

theorem Pool.meets_inArena {Value : Type} {stuck : Prop} {action : Action (Scene Arena) Value}
    {inner : Scene Pool} {post : Except Fault Value → Scene Pool → Prop} :
    (Pool.inArena action inner).Meets stuck post ↔
      (action ⟨inner.actor.arena, inner.memory, inner.notices⟩).Meets stuck fun result carved =>
        post result ⟨{ inner.actor with arena := carved.actor }, carved.memory, carved.notices⟩ :=
  Outcome.meets_mapState

theorem Arena.Grows.trans {one two three : Arena} (first : one.Grows two)
    (second : two.Grows three) : one.Grows three where
  segment := second.segment.trans first.segment
  capacities := second.capacities.trans first.capacities
  rank := second.rank.trans first.rank
  has found := second.has (first.has found)

theorem Node.Grows.trans {one two three : Node} (first : one.Grows two)
    (second : two.Grows three) : one.Grows three where
  rest := by rw [second.rest, first.rest]
  arena := first.arena.trans second.arena

theorem Node.IsHandle.grows {node after : Node} {fragment : Fragment}
    (handle : node.IsHandle fragment) (grows : node.pool.arena.Grows after.pool.arena) :
    after.IsHandle fragment := by
  obtain ⟨index, descriptor, has, rfl⟩ := handle
  exact ⟨index, descriptor, grows.has has, by rw [Arena.handle, Arena.handle, grows.segment]⟩

/-- What a node makes of its scene when it takes one of its slots back: the slot has the header with
which it was carved, and is on top of the unused ones of its class. -/
structure Scene.Recycles (before : Scene Node) (fragment : Fragment) (after : Scene Node) :
    Prop where
  actor : after.actor = before.actor.keeping fragment.sizeClass
    (fragment :: before.actor.pool.free.get fragment.sizeClass)
  memory : after.memory = before.memory.writeHeader fragment.place
    (.fresh before.actor.pool.arena.rank fragment.slot fragment.sizeClass
      (UInt32.ofNat fragment.capacity))

theorem Scene.Recycles.grows {before after : Scene Node} {fragment : Fragment}
    (recycles : before.Recycles fragment after) : before.actor.Grows after.actor := by
  rw [recycles.actor]
  exact ⟨rfl, .refl _⟩

namespace Sound

variable {directory : String} {mapped : List Segment} {network : Network} {rank : UInt32}
  {node : Node} {pending : UInt32 → List Item} {hand : List Offset} {inner : Scene Pool}

theorem notice {scene : Scene Node} (notices : List Notice)
    (sound : Sound directory mapped (network.left rank scene) pending hand) :
    Sound directory mapped (network.left rank ⟨scene.actor, scene.memory, notices⟩) pending
      hand := by
  rw [← network.left_left rank scene]
  exact sound.touch (Network.nodes_left ..) (Network.changes_nil _ _)
    (fun _ inside => absurd inside List.not_mem_nil) (fun _ => .inl List.not_mem_nil) notices

/-- A pool carves a slot into the hand of its node, or there is no room and nothing changes. -/
theorem carve_meets
    (sound : Sound directory mapped (network.left rank (inner.around node)) pending hand)
    (sizeClass : SizeClass) :
    (Pool.inArena (Arena.carve sizeClass) inner).Meets False fun result after =>
      inner.actor.arena.Grows after.actor.arena ∧
        match result with
        | .ok fragment =>
            Sound directory mapped (network.left rank (after.around node)) pending
                (fragment.offset :: hand) ∧
              (after.around node).actor.IsHandle fragment ∧ fragment.sizeClass = sizeClass
        | .error fault => fault = .exhausted sizeClass ∧
            Sound directory mapped (network.left rank (after.around node)) pending hand := by
  have found := network.nodes_left rank (inner.around node)
  refine Pool.meets_inArena.mpr ((Arena.carve_meets (sound.carved found) sizeClass).mono ?_)
  rintro (fault | fragment) ⟨arena, memory, notices⟩
  · rintro ⟨rfl, rfl, rfl⟩
    exact ⟨.refl _, rfl, sound.notice notices⟩
  · rintro ⟨rfl, rfl, fits, keeps⟩
    have carved := sound.carve found rfl fits keeps notices
    rw [Network.left_left] at carved
    refine ⟨⟨rfl, rfl, rfl, fun old => old.extended _ _⟩, ?_, ⟨_, _, Arena.has_last .., rfl⟩, rfl⟩
    have offset := sound.charted.offset_handle found inner.actor.arena.descriptors.size
      (inner.actor.arena.nextDescriptor sizeClass (inner.actor.arena.segment.cursor inner.memory))
    exact offset ▸ carved

theorem push_pool {fragment : Fragment}
    (sound : Sound directory mapped (network.left rank (inner.around node)) pending
      (fragment.offset :: hand))
    (handle : (inner.around node).actor.IsHandle fragment) :
    Sound directory mapped (network.left rank
      (Scene.around node { inner with actor := inner.actor.pushed fragment.sizeClass fragment }))
      pending hand := by
  have pushed := push (Network.nodes_left ..) sound handle inner.notices
  rwa [Network.left_left] at pushed

theorem grow_meets (sizeClass : SizeClass) (count : Nat) :
    ∀ {inner : Scene Pool},
      Sound directory mapped (network.left rank (inner.around node)) pending hand →
      (Pool.grow sizeClass count inner).Meets False fun result after =>
        result = .ok () ∧ inner.actor.arena.Grows after.actor.arena ∧
          Sound directory mapped (network.left rank (after.around node)) pending hand := by
  -- Each turn carves a slot into the hand and puts it among the unused ones.
  induction count with
  | zero => exact fun sound => ⟨rfl, .refl _, sound⟩
  | succ count ih =>
      intro inner sound
      refine Action.meets_bind (Action.meets_attempt ((sound.carve_meets sizeClass).mono ?_))
      rintro (fault | extra) after ⟨grows, carved⟩
      · obtain ⟨rfl, sound⟩ := carved
        exact ⟨rfl, grows, sound⟩
      · obtain ⟨sound, handle, rfl⟩ := carved
        show ((Pool.push extra.sizeClass extra >>= fun _ => Pool.grow extra.sizeClass count)
          after).Meets _ _
        rw [Action.bind_done (Pool.push_eq ..)]
        refine (ih (sound.push_pool handle)).mono ?_
        rintro result last ⟨rfl, growsMore, sound⟩
        exact ⟨rfl, grows.trans growsMore, sound⟩

/-- A pool hands out a slot that is in no other place, or nothing changes but for the room. -/
theorem get_meets
    (sound : Sound directory mapped (network.left rank (inner.around node)) pending hand)
    (sizeClass : SizeClass) :
    (Pool.get sizeClass inner).Meets False fun result after =>
      inner.actor.arena.Grows after.actor.arena ∧
        match result with
        | .ok fragment =>
            Sound directory mapped (network.left rank (after.around node)) pending
                (fragment.offset :: hand) ∧
              (after.around node).actor.IsHandle fragment ∧ fragment.sizeClass = sizeClass
        | .error fault => fault = .exhausted sizeClass ∧
            Sound directory mapped (network.left rank (after.around node)) pending hand := by
  rw [Pool.get, Action.bind_done (Scene.self_apply _)]
  cases top : inner.actor.free.get sizeClass with
  | cons fragment rest =>
      have found := network.nodes_left rank (inner.around node)
      -- There is an unused slot, and the one on top goes into the hand.
      obtain ⟨handle, same⟩ := sound.unused found
        (show fragment ∈ inner.actor.free.get sizeClass by rw [top]; exact List.mem_cons_self)
      have popped := sound.pop found top inner.notices
      rw [Network.left_left] at popped
      exact ⟨.refl _, popped, handle, same⟩
  | nil =>
      -- There is none: a slot is carved, and more of them for later.
      refine Action.meets_bind ((sound.carve_meets sizeClass).mono ?_)
      rintro (fault | fragment) after ⟨grows, carved⟩
      · exact ⟨grows, carved⟩
      · obtain ⟨sound, handle, same⟩ := carved
        refine Action.meets_bind ((grow_meets sizeClass _ sound).mono ?_)
        rintro result last ⟨rfl, growsMore, sound⟩
        exact ⟨grows.trans growsMore, sound, handle.grows growsMore, same⟩

/-- A node takes a slot into its hand. -/
theorem alloc_meets {scene : Scene Node}
    (sound : Sound directory mapped (network.left rank scene) pending hand)
    (sizeClass : SizeClass) :
    (Node.alloc sizeClass scene).Meets False fun result after =>
      scene.actor.Grows after.actor ∧
        match result with
        | .ok fragment =>
            Sound directory mapped (network.left rank after) pending (fragment.offset :: hand) ∧
              after.actor.IsHandle fragment ∧ fragment.sizeClass = sizeClass
        | .error fault => fault = .exhausted sizeClass ∧
            Sound directory mapped (network.left rank after) pending hand := by
  refine Node.meets_inPool.mpr ((get_meets sound sizeClass).mono ?_)
  rintro result after ⟨grows, rest⟩
  exact ⟨⟨rfl, grows⟩, rest⟩

theorem restore {memory : Memory} {index : Nat} {descriptor : Descriptor}
    (sound : Sound directory mapped network pending hand)
    (found : network.nodes rank = some node) (has : node.pool.arena.Has index descriptor)
    (inHand : (⟨rank, UInt32.ofNat descriptor.position⟩ : Offset) ∈ hand)
    (written : network.world.memory.writeHeader
      (node.pool.arena.segment.placeAt descriptor.position) (.fresh node.pool.arena.rank
        (UInt32.ofNat index) descriptor.sizeClass descriptor.capacity) = memory)
    (notices : List Notice) :
    Sound directory mapped (network.left rank ⟨node, memory, notices⟩) pending hand := by
  have slot := sound.charted.slot_of_has sound.carved found has
  have place : network.place ⟨rank, UInt32.ofNat descriptor.position⟩ =
      node.pool.arena.segment.placeAt descriptor.position := by
    rw [Network.place_of_node (by exact found), sound.charted.arena_eq found,
      UInt32.toNat_ofNat_of_lt' (sound.charted.position_lt sound.carved found has)]
  rw [← place] at written
  have changes : network.Changes (slotZones ⟨rank, UInt32.ofNat descriptor.position⟩
      descriptor.capacity.toNat) network.world.memory memory := by
    refine ⟨Network.hasZone_slotZones slot, ?_⟩
    have keeps := Memory.keeps_writeHeader network.world.memory
      (network.place ⟨rank, UInt32.ofNat descriptor.position⟩) (.fresh node.pool.arena.rank
        (UInt32.ofNat index) descriptor.sizeClass descriptor.capacity)
    rw [written] at keeps
    refine keeps.widen fun {place count} positive apart => ?_
    simp only [slotZones, List.map_cons, List.map_nil, Memory.apartFrom_cons,
      Memory.apartFrom_nil, Network.range, Network.zonePlace, Zone.home, Zone.start, Zone.length,
      Place.shift, and_true, Memory.Apart, headerSize] at apart ⊢
    omega
  refine sound.touch found changes (fun zone inside => ?_) ?_ notices
  · exact .inl ⟨_, home_slotZones inside, .inl inHand⟩
  · intro offset other next again
    by_cases same : offset = ⟨rank, UInt32.ofNat descriptor.position⟩
    · subst same
      obtain ⟨rfl, rfl⟩ := Charted.slot_unique sound.carved slot again
      have names := Memory.names_writeHeader network.world.memory
        (network.place ⟨rank, UInt32.ofNat descriptor.position⟩) (.fresh node.pool.arena.rank
          (UInt32.ofNat index) descriptor.sizeClass descriptor.capacity)
      rw [written] at names
      have ranks := (sound.charted.placed found).arenaRank
      exact .inr (ranks ▸ names)
    · exact .inl (by simp [slotZones, same])

theorem recycles_meets {scene : Scene Node} {fragment : Fragment}
    (sound : Sound directory mapped (network.left rank scene) pending (fragment.offset :: hand))
    (handle : scene.actor.IsHandle fragment) :
    (Node.inPool (Pool.recycle fragment.address) scene).Meets False fun result after =>
      result = .ok () ∧ scene.Recycles fragment after ∧
        Sound directory mapped (network.left rank after) pending hand := by
  obtain ⟨node, memory, notices⟩ := scene
  obtain ⟨index, descriptor, has, rfl⟩ := handle
  have found := network.nodes_left rank ⟨node, memory, notices⟩
  have offset := sound.charted.offset_handle found index descriptor
  obtain ⟨noticed, recycled⟩ :=
    @Pool.recycle_eq node.pool memory notices index descriptor (sound.carved found) has
  refine Node.meets_inPool.mpr ?_
  rw [show (node.pool.arena.handle index descriptor).address =
    node.pool.arena.segment.addressAt descriptor.position from rfl, recycled]
  refine ⟨rfl, ⟨rfl, ?_⟩, ?_⟩
  · simp only [Arena.handle, Scene.around, UInt32.ofNat_toNat]
    rfl
  · have restored := sound.restore found has (offset ▸ List.mem_cons_self) rfl noticed
    rw [Network.left_left] at restored
    exact @push_pool _ _ _ _ node _ _ ⟨node.pool, _, noticed⟩ _ restored
      ⟨index, descriptor, has, rfl⟩

end Sound

end RankMail
