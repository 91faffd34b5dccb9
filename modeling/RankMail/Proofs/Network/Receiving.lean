import RankMail.Proofs.Network.Skimming

set_option autoImplicit false

/-! # Giving back

A message that is given back goes among the unused ones if the slot is the node's own, and with a
flag to the end of the queue of its owner if not (`release_meets`). So what is on its way back in a
queue has been put there by another node than the one that will take it back.
-/

namespace RankMail

namespace Sound

variable {directory : String} {mapped : List Segment} {network : Network} {rank : UInt32}
  {node : Node} {pending : UInt32 → List Item} {hand : List Offset} {scene : Scene Node}
  {stuck : Prop} {offset : Offset}

theorem setReturned
    (sound : Sound directory mapped (network.left rank scene) pending (offset :: hand))
    (flags : UInt16) :
    Sound directory mapped (network.left rank ⟨scene.actor, scene.memory.store HeaderField.flags
        ((network.left rank scene).place offset) (flags ||| returnedFlag).toNat,
        scene.notices⟩) pending (offset :: hand) ∧
      (network.left rank ⟨scene.actor, scene.memory.store HeaderField.flags
        ((network.left rank scene).place offset) (flags ||| returnedFlag).toNat,
        scene.notices⟩).Carries offset.rank ⟨offset, none⟩ := by
  obtain ⟨index, descriptor, slot⟩ := sound.isCarved .hand List.mem_cons_self
  have filled := sound.fill (Network.nodes_left ..) (.inl List.mem_cons_self) slot
    (Memory.keeps_store _ HeaderField.flags ((network.left rank scene).place offset)
      (flags ||| returnedFlag).toNat)
    (fun range member => ⟨24, List.mem_singleton.mp member ▸ rfl, by decide, by
      rw [List.mem_singleton.mp member]
      show 24 + 2 ≤ 64 + _
      omega⟩) scene.notices
  rw [Network.left_left] at filled
  exact ⟨filled, Memory.isReturnedAt_store_or .., rfl⟩

/-- A message in hand begins inside the mapping from which it was read. -/
theorem message_inside {message : Message} {letter : Letter}
    (sound : Sound directory mapped network pending (message.offset :: hand))
    (read : network.HasRead mapped ⟨rank, message, letter⟩) :
    message.offset.position.toNat < message.segment.size := by
  obtain ⟨owner, foundOwner, same, _⟩ := read.owner
  obtain ⟨index, descriptor, slot⟩ := sound.isCarved .hand List.mem_cons_self
  obtain ⟨home, foundHome, _, room⟩ := sound.charted.isSlot sound.carved slot
  obtain rfl : _ = home := by
    simpa [Charted.site, show network.nodes message.offset.rank = some owner from
      foundOwner] using foundHome
  have size : message.segment.file.size = owner.segment.file.size := same.size
  simp only [headerSize, Segment.size] at room ⊢
  omega

/-- The slot of a message in hand goes to the end of the queue of its owner: its flags are written,
and what has to be to append it. -/
theorem sendBack_writes {message : Message} {letter : Letter}
    (sound : Sound directory mapped (network.left rank scene) pending (message.offset :: hand))
    (read : (network.left rank scene).HasRead mapped ⟨rank, message, letter⟩)
    (current : ∀ segment, scene.actor.segmentOf? message.owner = some segment →
      segment = message.segment ∨ stuck)
    (reaches : ∀ item ∈ pending message.owner,
      (scene.actor.segmentOf? item.offset.rank).isSome = true ∨ stuck) :
    (Node.sendBack message scene).Meets stuck fun result after =>
      match result with
      | .ok () => after.actor = scene.actor ∧
          scene.memory.Keeps ((((network.left rank scene).place message.offset).shift
              HeaderField.flags.distance, 2) ::
            (network.left rank scene).appending message.owner message.offset) after.memory ∧
          Sound directory mapped (network.left rank after) (Function.update pending message.owner
            (pending message.owner ++ [⟨message.offset, none⟩])) hand
      | .error fault => fault = .unknownPeer message.owner ∧
          scene.actor.segmentOf? message.owner = none ∧ after = scene := by
  have found := network.nodes_left rank scene
  have inside := sound.message_inside read
  obtain ⟨owner, foundOwner, same, _⟩ := read.owner
  dsimp only at foundOwner same
  rw [Node.sendBack, Action.bind_done (Scene.self_apply _)]
  cases attached : scene.actor.segmentOf? message.owner with
  | none => exact ⟨rfl, rfl, rfl⟩
  | some segment =>
      by_cases here : segment = message.segment
      · subst here
        have located := sound.charted.offsetFor_eq found attached inside
        have offset : scene.actor.addresses.offsetFor message.owner message.address =
            .ok message.offset := by
          rw [Message.address, Message.position, located]
          exact congrArg _ (Offset.eq_of_toNat rfl (by simp))
        refine Action.meets_bind (Action.meets_ofAbort (.inl ⟨_, offset, ?_⟩))
        have place : message.place = (network.left rank scene).place message.offset := by
          rw [Network.place_of_node foundOwner, Message.place, Segment.placeAt, same.region]
          rfl
        obtain ⟨flagged, carries⟩ := sound.setReturned (message.flags scene.memory)
        have keeps := scene.memory.keeps_store HeaderField.flags
          ((network.left rank scene).place message.offset)
          (message.flags scene.memory ||| returnedFlag).toNat
        have appending := sound.appending_eq flagged (Network.evolves_scene (.refl _) keeps)
          foundOwner message.offset
        have delivered := deliver_writes ⟨message.offset, none⟩ flagged attached carries
          (Option.isSome_of_mem attached) reaches
        change (Scene.inMemory (scene.actor.deliver message.segment message.offset) ⟨scene.actor,
          scene.memory.store HeaderField.flags message.place
            (message.flags scene.memory ||| returnedFlag).toNat, scene.notices⟩).Meets stuck _
        rw [place]
        refine delivered.mono ?_
        rintro result after ⟨rfl, actor, keepsMore, sound⟩
        exact ⟨actor, appending ▸ keeps.trans keepsMore, sound⟩
      · -- The owner has been detached and attached again: the message lies in the old mapping.
        have refused := sound.charted.offsetFor_other found attached read.segment
          (fun same => here same.symm) inside
        have excused := (current segment attached).resolve_left here
        exact Action.meets_bind (Action.meets_ofAbort (.inr ⟨⟨_, refused⟩, excused⟩))

/-- Likewise, without a word about what is written. -/
theorem sendBack_meets {message : Message} {letter : Letter}
    (sound : Sound directory mapped (network.left rank scene) pending (message.offset :: hand))
    (read : (network.left rank scene).HasRead mapped ⟨rank, message, letter⟩)
    (current : ∀ segment, scene.actor.segmentOf? message.owner = some segment →
      segment = message.segment ∨ stuck)
    (reaches : ∀ item ∈ pending message.owner,
      (scene.actor.segmentOf? item.offset.rank).isSome = true ∨ stuck) :
    (Node.sendBack message scene).Meets stuck fun result after =>
      match result with
      | .ok () => after.actor = scene.actor ∧
          Sound directory mapped (network.left rank after) (Function.update pending message.owner
            (pending message.owner ++ [⟨message.offset, none⟩])) hand
      | .error fault => fault = .unknownPeer message.owner ∧
          scene.actor.segmentOf? message.owner = none ∧ after = scene := by
  refine (sound.sendBack_writes read current reaches).mono ?_
  rintro (fault | value) after ends
  · exact ends
  · exact ⟨ends.1, ends.2.2⟩

theorem letters_returned (pending : UInt32 → List Item) (owner : UInt32) (offset : Offset)
    (other : UInt32) :
    (Function.update pending owner (pending owner ++ [⟨offset, none⟩]) other).filterMap
      Item.letter = (pending other).filterMap Item.letter := by
  by_cases target : other = owner
  · subst target
    rw [Function.update_self, List.filterMap_append]
    exact List.append_nil _
  · rw [Function.update_of_ne target]

/-- A message that a node has read, of which the slot is in its hand, is given back; or its owner is
no longer attached, and nothing happens. -/
theorem release_writes {message : Message} {letter : Letter}
    (sound : Sound directory mapped (network.left rank scene) pending (message.offset :: hand))
    (read : (network.left rank scene).HasRead mapped ⟨rank, message, letter⟩)
    (current : ∀ segment, scene.actor.segmentOf? message.owner = some segment →
      segment = message.segment ∨ stuck)
    (reaching : (network.left rank scene).Reaching scene.actor stuck) :
    (Node.release message scene).Meets stuck fun result after =>
      match result with
      | .ok () =>
          if message.owner = rank then
            (∃ fragment, scene.actor.IsHandle fragment ∧ fragment.offset = message.offset ∧
              scene.Recycles fragment after) ∧
            Sound directory mapped (network.left rank after) pending hand
          else after.actor = scene.actor ∧
            scene.memory.Keeps ((((network.left rank scene).place message.offset).shift
                HeaderField.flags.distance, 2) ::
              (network.left rank scene).appending message.owner message.offset) after.memory ∧
            Sound directory mapped (network.left rank after) (Function.update pending message.owner
              (pending message.owner ++ [⟨message.offset, none⟩])) hand
      | .error fault => fault = .unknownPeer message.owner ∧
          scene.actor.segmentOf? message.owner = none ∧ after = scene := by
  have found := network.nodes_left rank scene
  rw [Node.release, Action.bind_done (Scene.self_apply _), (sound.charted.placed found).nodeRank]
  by_cases mine : message.owner = rank
  · simp only [if_pos mine]
    obtain ⟨owner, foundOwner, _, own⟩ := read.owner
    dsimp only at foundOwner own
    rw [mine, found] at foundOwner
    obtain rfl := Option.some.inj foundOwner
    obtain ⟨fragment, handle, same, recycled⟩ := sound.recycle_offset mine
      (show message.address = scene.actor.segment.addressAt message.offset.position.toNat by
        rw [Message.address, own mine]
        rfl)
    refine recycled.always ?_
    rintro result after ⟨rfl, recycles, sound⟩
    exact ⟨⟨fragment, handle, same, recycles⟩, sound⟩
  · simp only [if_neg mine]
    exact sound.sendBack_writes read current (sound.reaches_pending reaching message.owner)

theorem release_meets {message : Message} {letter : Letter}
    (sound : Sound directory mapped (network.left rank scene) pending (message.offset :: hand))
    (read : (network.left rank scene).HasRead mapped ⟨rank, message, letter⟩)
    (current : ∀ segment, scene.actor.segmentOf? message.owner = some segment →
      segment = message.segment ∨ stuck)
    (reaching : (network.left rank scene).Reaching scene.actor stuck) :
    (Node.release message scene).Meets stuck fun result after =>
      scene.actor.Grows after.actor ∧
        match result with
        | .ok () => Sound directory mapped (network.left rank after)
            (if message.owner = rank then pending
            else Function.update pending message.owner
              (pending message.owner ++ [⟨message.offset, none⟩])) hand
        | .error fault => fault = .unknownPeer message.owner ∧
            scene.actor.segmentOf? message.owner = none ∧ after = scene := by
  refine (sound.release_writes read current reaching).mono ?_
  rintro (fault | value) after ends
  · obtain ⟨rfl, missing, rfl⟩ := ends
    exact ⟨.refl _, rfl, missing, rfl⟩
  · by_cases mine : message.owner = rank
    · simp only [if_pos mine] at ends ⊢
      obtain ⟨⟨_, _, _, recycles⟩, sound⟩ := ends
      exact ⟨recycles.grows, sound⟩
    · simp only [if_neg mine] at ends ⊢
      obtain ⟨actor, _, sound⟩ := ends
      exact ⟨actor ▸ .refl _, sound⟩

end Sound

end RankMail
