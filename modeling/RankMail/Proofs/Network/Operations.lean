import RankMail.Proofs.Network.Settled

set_option autoImplicit false

/-! # Operations

What each operation makes of a settled network, apart from attaching and detaching: a settled
network (`Proceeds`), with what has been sent appended to what is pending, and what has been read
taken from it.
-/

namespace RankMail

namespace Network

variable {network after : Network} {pending pendingAfter : UInt32 → List Item}

/-- The log goes on saying what is pending when no message comes or goes. -/
theorem Logged.same (logged : network.Logged pending) (log : after.log = network.log)
    (received : after.received ⊆ network.received)
    (letters : ∀ rank, (pendingAfter rank).filterMap Item.letter =
      (pending rank).filterMap Item.letter) : after.Logged pendingAfter where
  sent rank := by
    rw [letters, sentTo, surfacedAt, log]
    exact logged.sent rank
  surfaced inside := by
    rw [surfacedAt, log]
    exact logged.surfaced (received inside)

theorem Logged.record_sent (logged : network.Logged pending) {source target : UInt32}
    {payload : List UInt8} {offset : Offset}
    (log : after.log = network.log ++ [.sent source target payload])
    (received : after.received ⊆ network.received) :
    after.Logged (Function.update pending target
      (pending target ++ [⟨offset, some ⟨source, source, payload⟩⟩])) := by
  have surfaced : ∀ rank, after.surfacedAt rank = network.surfacedAt rank := by
    intro rank
    rw [surfacedAt, log, List.filterMap_append]
    exact List.append_nil _
  constructor
  · intro rank
    rw [surfaced, sentTo, log, List.filterMap_append]
    by_cases same : rank = target
    · subst same
      rw [Function.update_self, List.filterMap_append, ← List.append_assoc, ← logged.sent]
      simp [Event.sentTo, sentTo]
    · rw [Function.update_of_ne same, ← logged.sent]
      simp [Event.sentTo, sentTo, Ne.symm same]
  · intro delivery inside
    rw [surfaced]
    exact logged.surfaced (received inside)

theorem Logged.record_surfaced (logged : network.Logged pending) {delivery : Delivery}
    {rest : List Item}
    (first : (pending delivery.reader).filterMap Item.letter =
      delivery.letter :: rest.filterMap Item.letter)
    (log : after.log = network.log ++ [.surfaced delivery.reader delivery.letter])
    (received : after.received = delivery :: network.received) :
    after.Logged (Function.update pending delivery.reader rest) := by
  have surfaced : ∀ rank, after.surfacedAt rank = network.surfacedAt rank ++
      if rank = delivery.reader then [delivery.letter] else [] := by
    intro rank
    rw [surfacedAt, log, List.filterMap_append]
    by_cases same : rank = delivery.reader
    · simp [Event.surfacedAt, surfacedAt, same]
    · simp [Event.surfacedAt, surfacedAt, same, Ne.symm same]
  constructor
  · intro rank
    have sent : after.sentTo rank = network.sentTo rank := by
      rw [sentTo, log, List.filterMap_append]
      exact List.append_nil _
    rw [sent, surfaced, logged.sent]
    by_cases same : rank = delivery.reader
    · subst same
      rw [Function.update_self, first, if_pos rfl, List.append_assoc]
      rfl
    · rw [Function.update_of_ne same, if_neg same, List.append_nil]
  · intro other inside
    rw [surfaced]
    rw [received] at inside
    rcases List.mem_cons.mp inside with rfl | inside
    · simp
    · exact List.mem_append_left _ (logged.surfaced inside)

end Network

namespace Fragment

/-- An action writes into the body of a fragment's slot and nowhere else. -/
def Fills (fragment : Fragment) (action : Action Memory Unit) : Prop :=
  ∀ memory, ∃ touched, (action memory).Meets False fun _ after =>
    memory.Keeps touched after ∧ ∀ range ∈ touched, ∃ distance,
      range.1 = fragment.place.shift distance ∧ 20 ≤ distance ∧
        distance + range.2 ≤ headerSize + fragment.capacity

theorem fills_of_keeps {fragment : Fragment} {action : Action Memory Unit}
    (meets : ∀ memory, (action memory).Meets False fun _ after =>
      memory.Keeps [(fragment.payloadPlace, fragment.capacity), (fragment.lengthPlace, 4)]
        after) : fragment.Fills action := by
  intro memory
  refine ⟨_, (meets memory).mono fun _ after keeps => ⟨keeps, fun range inside => ?_⟩⟩
  rcases List.mem_pair.mp inside with rfl | rfl
  · exact ⟨64, rfl, by decide, Nat.le_refl _⟩
  · exact ⟨20, rfl, Nat.le_refl _, by simp only [headerSize]; omega⟩

theorem fills_setLength (fragment : Fragment) (length : Nat) :
    fragment.Fills (fragment.setLength length) :=
  fills_of_keeps fun memory => (fragment.setLength_meets length memory).mono
    fun _ _ keeps => keeps.mono (by simp)

theorem fills_write (fragment : Fragment) (data : List UInt8) :
    fragment.Fills (fragment.write data) :=
  fills_of_keeps (fragment.write_meets data)

theorem fills_edit (fragment : Fragment) (start : Nat) (data : List UInt8) :
    fragment.Fills (fragment.edit start data) :=
  fills_of_keeps fun memory => (fragment.edit_meets start data memory).mono
    fun _ _ edited => edited.2.mono (by simp)

end Fragment

namespace Settled

variable {directory : String} {mapped : List Segment} {network after : Network}
  {pending : UInt32 → List Item} {rank : UInt32} {node : Node} {fragment : Fragment}
  {delivery : Delivery} {stuck : Prop} {operation : Operation} {result : Except Fault Unit}

theorem idle (settled : Settled directory mapped network pending) :
    Proceeds directory network pending operation result network :=
  ⟨⟨mapped, pending, settled, fun _ => .stay⟩, fun _ => id, .inl rfl, id⟩

/-- A node has acted, and its user gives up nothing. -/
theorem proceeds_left {scene : Scene Node} {mappedAfter : List Segment}
    {pendingAfter : UInt32 → List Item} (found : network.nodes rank = some node)
    (grows : node.Grows scene.actor) (settled : Settled directory mappedAfter after pendingAfter)
    (turns : ∀ rank, operation.Turns rank (pending rank) (pendingAfter rank))
    (nodes : after.nodes = (network.left rank scene).nodes)
    (received : after.received ⊆ network.received) (retired : after.retired = network.retired) :
    Proceeds directory network pending operation result after where
  settled := ⟨mappedAfter, pendingAfter, settled, turns⟩
  whole _ whole := (whole.left found grows).relabel nodes received
  retired := .inl retired
  carved carved := by
    obtain ⟨index, descriptor, owner, foundOwner, slot⟩ := Network.isCarved_grows found grows carved
    exact ⟨index, descriptor, owner, nodes ▸ foundOwner, slot⟩

/-- The network as a node finds it that begins to act. -/
theorem enter (settled : Settled directory mapped network pending)
    (found : network.nodes rank = some node) :
    Sound directory mapped (network.left rank (network.world.enter node)) pending [] := by
  rw [Network.left_enter found]
  exact settled.sound

/-! ## Holding fragments -/

theorem alloc_meets (settled : Settled directory mapped network pending) (rank : UInt32)
    (sizeClass : SizeClass) :
    (Network.alloc rank sizeClass network).Meets False fun result after =>
      Settled directory mapped after pending ∧ (network.IsWhole → after.IsWhole) ∧
        after.received = network.received ∧ after.retired = network.retired ∧
        (∀ {offset}, network.IsCarved offset → after.IsCarved offset) ∧
        ∀ fragment, result = .ok fragment → fragment.offset.rank = rank ∧
          after.fragments = fragment :: network.fragments := by
  refine Action.meets_bind (Network.meets_asNode (fun _ => ?_) fun {node} found => ?_)
  · exact ⟨settled, id, rfl, rfl, id, fun _ same => by cases same⟩
  · refine ((settled.enter found).alloc_meets sizeClass).mono ?_
    rintro (fault | fragment) scene ⟨grows, taken⟩
    · refine ⟨⟨taken.2, settled.logged.same rfl (List.Subset.refl _) fun _ => rfl⟩, ?_, rfl, rfl,
        Network.isCarved_grows found grows, fun _ same => by cases same⟩
      exact fun whole => whole.left found grows
    · obtain ⟨sound, handle, _⟩ := taken
      have held := sound.hold ⟨rank, scene.actor, Network.nodes_left .., handle⟩
      refine ⟨⟨held, settled.logged.same rfl (List.Subset.refl _) fun _ => rfl⟩, ?_, rfl, rfl,
        Network.isCarved_grows found grows, ?_⟩
      · exact fun whole => (whole.left found grows).relabel rfl (List.Subset.refl _)
      · intro other same
        obtain rfl := Except.ok.inj same
        exact ⟨(sound.charted.fits sound.carved (Network.nodes_left ..) handle).2.1, rfl⟩

theorem fill_meets (settled : Settled directory mapped network pending)
    {action : Action Memory Unit} (fills : fragment.Fills action) (operation : Operation) :
    (Network.withFragment fragment (Network.inMemory action) network).Meets False
      (Proceeds directory network pending operation) := by
  refine Network.meets_withFragment settled.idle fun held => Action.meets_within.mpr ?_
  obtain ⟨touched, meets⟩ := fills network.world.memory
  refine meets.mono ?_
  rintro result memory ⟨keeps, inside⟩
  obtain ⟨rank, node, found, handle⟩ := settled.sound.held held
  obtain ⟨_, _, index, descriptor, fits⟩ :=
    settled.sound.charted.fits settled.sound.carved found handle
  have filled := settled.sound.fill found (.inr (List.mem_map.mpr ⟨fragment, held, rfl⟩))
    fits.slot keeps (fun range member => ?_) network.world.notices
  · have whole : network.IsWhole →
        (network.left rank ⟨node, memory, network.world.notices⟩).IsWhole :=
      fun whole => whole.left found (.refl node)
    rw [Network.left_memory found] at filled whole
    exact ⟨⟨mapped, pending, ⟨filled, settled.logged.same rfl (List.Subset.refl _) fun _ => rfl⟩,
        fun _ => .stay⟩, fun _ => whole, .inl rfl, id⟩
  · rw [← fits.place, ← fits.capacity]
    exact inside range member

theorem drop_meets (settled : Settled directory mapped network pending) (fragment : Fragment) :
    (Network.drop fragment network).Meets False
      (Proceeds directory network pending (.drop fragment)) := by
  refine Network.meets_withFragment settled.idle fun held => ?_
  -- The slot goes from what is held into the hand, and from there to what is retired.
  have dropped := (settled.sound.unhold held).retire .dropped
  exact ⟨⟨mapped, pending, ⟨dropped, settled.logged.same rfl (List.Subset.refl _) fun _ => rfl⟩,
      fun _ => .stay⟩, fun _ whole => whole.relabel rfl (List.Subset.refl _),
    .inr ⟨fragment.offset, .dropped, rfl, .drop held, fun _ => rfl⟩, id⟩

/-! ## Sending -/

/-- The handle of a fragment that is used with its own node. -/
theorem own_handle (settled : Settled directory mapped network pending)
    (found : network.nodes rank = some node) (held : fragment ∈ network.fragments)
    (own : fragment.segment.rank = rank) : node.IsHandle fragment := by
  obtain ⟨other, peer, foundPeer, handle⟩ := settled.sound.held held
  obtain ⟨segment, _⟩ := settled.sound.charted.fits settled.sound.carved foundPeer handle
  -- The rank of the segment is the rank of the node that has carved the slot.
  have same : other = rank := by
    rw [← own, segment, (settled.sound.charted.placed foundPeer).segmentRank]
  rw [same, found] at foundPeer
  exact Option.some.inj foundPeer ▸ handle

theorem writeToPeer_meets (settled : Settled directory mapped network pending)
    (whole : network.IsWhole ∨ stuck) (own : fragment.segment.rank = rank ∨ stuck)
    (peer : UInt32) :
    (Network.writeToPeer rank peer fragment network).Meets stuck
      (Proceeds directory network pending (.writeToPeer rank peer fragment)) := by
  refine Network.meets_byNode (fun _ => settled.idle) fun {node} found =>
    Network.meets_withFragment settled.idle fun held => ?_
  rw [Action.bind_done (Action.look_apply _ _)]
  refine Action.meets_bind (Network.meets_spend found ?_)
  have lost := settled.sound.unhold held
  have reaching : (network.withoutFragment fragment).Reaching node stuck :=
    Network.IsWhole.reaching whole found
  have known : (network.withoutFragment fragment).IsHandle fragment := settled.sound.held held
  have enter : (network.withoutFragment fragment).left rank
      ((network.withoutFragment fragment).world.enter node) = network.withoutFragment fragment :=
    Network.left_enter found
  by_cases mine : fragment.segment.rank = rank
  · have handle := settled.own_handle found held mine
    have letter : (network.withoutFragment fragment).letter fragment.offset = _ :=
      settled.sound.letter_of_handle found handle
    rw [← enter] at lost reaching
    refine (lost.writeToPeer_meets handle reaching peer).mono ?_
    -- There is no such peer, and the fragment has been taken back; or it has been sent.
    rintro (fault | value) scene ⟨grows, ends⟩
    · obtain ⟨rfl, _, freed⟩ := ends
      simp only [if_pos mine]
      exact proceeds_left found grows
        ⟨freed, settled.logged.same rfl (List.Subset.refl _) fun _ => rfl⟩ (fun _ => .stay) rfl
        (List.Subset.refl _) rfl
    · rw [enter, letter] at ends
      exact proceeds_left found grows
        ⟨ends.log _, settled.logged.record_sent rfl (List.Subset.refl _)⟩
        (Operation.turns_update (.writeToPeer ..)) rfl (List.Subset.refl _) rfl
  · -- The address lies in another segment, so nothing is sent and the pool refuses the fragment:
    -- the slot is lost to its owner.
    have excused := own.resolve_left mine
    have sound := lost
    rw [← enter] at sound known
    refine (sound.writeToPeer_foreign known mine excused peer).mono ?_
    rintro result scene ⟨rfl, rfl⟩
    simp only [if_neg mine]
    rw [enter]
    exact ⟨⟨mapped, pending, ⟨lost.retire .foreign,
        settled.logged.same rfl (List.Subset.refl _) fun _ => rfl⟩, fun _ => .stay⟩,
      fun orderly => absurd orderly mine,
      .inr ⟨fragment.offset, .foreign, rfl, .writeToPeer held mine, fun same => by cases same⟩, id⟩

theorem free_meets (settled : Settled directory mapped network pending) (rank : UInt32)
    (fragment : Fragment) :
    (Network.free rank fragment network).Meets False
      (Proceeds directory network pending (.free rank fragment)) := by
  refine Network.meets_byNode (fun _ => settled.idle) fun {node} found =>
    Network.meets_withFragment settled.idle fun held => Network.meets_spend found ?_
  have lost := settled.sound.unhold held
  have known : (network.withoutFragment fragment).IsHandle fragment := settled.sound.held held
  have enter : (network.withoutFragment fragment).left rank
      ((network.withoutFragment fragment).world.enter node) = network.withoutFragment fragment :=
    Network.left_enter found
  by_cases mine : fragment.segment.rank = rank
  · have handle := settled.own_handle found held mine
    rw [← enter] at lost
    refine (lost.free_meets handle).mono ?_
    rintro result scene ⟨rfl, grows, freed⟩
    exact proceeds_left found grows
      ⟨freed, settled.logged.same rfl (List.Subset.refl _) fun _ => rfl⟩ (fun _ => .stay) rfl
      (List.Subset.refl _) rfl
  · have sound := lost
    rw [← enter] at sound known
    -- The pool refuses a fragment of another node, and the slot is lost to its owner.
    rw [show network.world.enter node =
        (network.withoutFragment fragment).world.enter node from rfl, sound.free_foreign known mine]
    show ite _ _ _
    rw [if_neg mine, enter]
    exact ⟨⟨mapped, pending, ⟨lost.retire .foreign,
        settled.logged.same rfl (List.Subset.refl _) fun _ => rfl⟩, fun _ => .stay⟩,
      fun orderly => absurd orderly mine,
      .inr ⟨fragment.offset, .foreign, rfl, .free held mine, fun same => by cases same⟩, id⟩

theorem send_meets (settled : Settled directory mapped network pending)
    (whole : network.IsWhole ∨ stuck) (rank peer : UInt32) (payload : List UInt8) :
    (Network.send rank peer payload network).Meets stuck
      (Proceeds directory network pending (.send rank peer payload)) := by
  refine Action.meets_bind (Network.meets_asNode (fun _ => settled.idle) fun {node} found => ?_)
  have reaching : network.Reaching node stuck := Network.IsWhole.reaching whole found
  rw [← Network.left_enter found] at reaching
  refine ((settled.enter found).send_meets reaching peer payload).mono ?_
  rintro (fault | value) scene ⟨grows, ends⟩
  · exact proceeds_left found grows
      ⟨ends.2, settled.logged.same rfl (List.Subset.refl _) fun _ => rfl⟩ (fun _ => .stay) rfl
      (List.Subset.refl _) rfl
  · obtain ⟨offset, sent⟩ := ends
    exact proceeds_left found grows
      ⟨sent.log _, settled.logged.record_sent rfl (List.Subset.refl _)⟩
      (Operation.turns_update (.send ..)) rfl (List.Subset.refl _) rfl

/-! ## Receiving and giving back -/

theorem letter_of_message {message : Message} {hand : List Offset} {owner : Node}
    (sound : Sound directory mapped network pending hand)
    (slot : network.IsCarved message.offset) (found : network.nodes message.owner = some owner)
    (same : message.segment.SameFile owner.segment) :
    message.place = network.place message.offset ∧
      message.letter network.world.memory = network.letter message.offset := by
  obtain ⟨index, descriptor, slot⟩ := slot
  obtain ⟨again, foundAgain, has, position⟩ := id slot
  obtain rfl : again = owner := Option.some.inj (foundAgain.symm.trans found)
  have place : message.place = network.place message.offset := by
    rw [Network.place_of_node foundAgain, Message.place, Segment.placeAt, same.region]
    rfl
  have names := sound.charted.names sound.carved slot
  have within := (sound.carved found).within has
  have size : message.segment.size = again.segment.size := same.size
  rw [← place] at names
  rw [sound.charted.arena_eq found, ← size, Descriptor.stop, position] at within
  refine ⟨place, ?_⟩
  rw [Message.letter_eq names within, Network.letter, place]
  rfl

/-- What is known of a message that a node has just read. -/
theorem hasRead {message : Message} {letter : Letter} {hand : List Offset} {scene : Scene Node}
    (sound : Sound directory mapped (network.left rank scene) pending (message.offset :: hand))
    (attached : scene.actor.segmentOf? message.owner = some message.segment)
    (carries : (network.left rank scene).Carries rank ⟨message.offset, some letter⟩) :
    message.letter (network.left rank scene).world.memory = letter ∧
      (network.left rank scene).HasRead mapped ⟨rank, message, letter⟩ := by
  have found := network.nodes_left rank scene
  obtain ⟨inside, _, owner, foundOwner, same⟩ := sound.charted.peers found attached
  have told := letter_of_message sound (sound.isCarved .hand List.mem_cons_self) foundOwner same
  refine ⟨told.2.trans carries.2.symm, ⟨scene.actor, found⟩, inside,
    ⟨owner, foundOwner, same, fun own => ?_⟩, carries.2, carries.1⟩
  dsimp only at own
  rw [own] at attached foundOwner
  rw [sound.charted.own_segment found] at attached
  rw [Option.some.inj (foundOwner.symm.trans found)]
  exact (Option.some.inj attached).symm

theorem letters_dropWhile (line : List Item) :
    (line.dropWhile Item.isBack).filterMap Item.letter = line.filterMap Item.letter := by
  induction line with
  | nil => rfl
  | cons item rest ih =>
      obtain ⟨offset, letter⟩ := item
      cases letter with
      | none => exact ih
      | some letter => rfl

/-- A node reads its queue: the first message that is pending surfaces, if there is one. -/
theorem read_meets (settled : Settled directory mapped network pending)
    (whole : network.IsWhole ∨ stuck) (rank : UInt32) :
    (Network.read rank network).Meets stuck fun result after =>
      (∃ pendingAfter, Settled directory mapped after pendingAfter ∧
        (∀ other, (Operation.read rank).Turns other (pending other) (pendingAfter other)) ∧
        (result = .ok none → pendingAfter rank = [])) ∧
      (network.IsWhole → after.IsWhole) ∧ after.retired = network.retired ∧
        after.fragments = network.fragments ∧
        (∀ {offset}, network.IsCarved offset → after.IsCarved offset) ∧
        match result with
        | .ok none => after.received = network.received ∧ after.log = network.log
        | .ok (some message) => ∃ letter, message.letter after.world.memory = letter ∧
            after.received = ⟨rank, message, letter⟩ :: network.received ∧
            after.log = network.log ++ [.surfaced rank letter]
        | .error _ => network.nodes rank = none ∧ after = network := by
  refine Action.meets_bind (Network.meets_asNode (fun missing => ?_) fun {node} found => ?_)
  · exact ⟨⟨pending, settled, fun _ => .stay, fun same => by cases same⟩, id, rfl, rfl, id, missing,
      rfl⟩
  · have reaching : network.Reaching node stuck := Network.IsWhole.reaching whole found
    rw [← Network.left_enter found] at reaching
    refine ((settled.enter found).readQueue_skims reaching).mono ?_
    rintro result scene ⟨fragments, skimmed⟩
    have grows := skimmed.skims.grows
    have ends := skimmed.ends
    have letters := letters_dropWhile (pending rank)
    have behind := List.dropWhile_suffix (l := pending rank) Item.isBack
    rcases dropWhile_isBack (pending rank) with left | ⟨offset, letter, rest, left⟩ <;>
      rw [left] at ends letters behind
    · -- All that was pending was on its way back: no letter is gone.
      obtain ⟨rfl, sound⟩ := ends
      refine ⟨⟨_, ⟨sound, settled.logged.same rfl (List.Subset.refl _) fun other => ?_⟩,
        Operation.turns_update (.read behind), fun _ => Function.update_self ..⟩,
        fun whole => whole.left found grows, rfl, rfl, Network.isCarved_grows found grows, rfl, rfl⟩
      by_cases same : other = rank
      · subst same
        rw [Function.update_self, ← letters]
      · rw [Function.update_of_ne same]
    · -- The first letter surfaces, and what was on its way back before it is gone.
      obtain ⟨segment, rfl, attached, carries, sound⟩ := ends
      obtain ⟨told, read⟩ := @hasRead _ _ _ _ _ ⟨segment, offset⟩ _ _ _ sound attached carries
      have received := (sound.receive read).log (network.log ++ [.surfaced rank letter])
      subst told
      refine ⟨⟨_, ⟨received, ?_⟩,
        Operation.turns_update (.read ((List.suffix_cons ..).trans behind)),
        fun same => by cases same⟩, fun whole => ?_, rfl, rfl, Network.isCarved_grows found grows,
        _, rfl, rfl, rfl⟩
      · exact @Network.Logged.record_surfaced _ _ _ settled.logged ⟨rank, ⟨segment, offset⟩, _⟩ rest
          letters.symm rfl rfl
      · have left := whole.left found grows
        refine ⟨left.reaches, fun {delivery reader} inside foundReader => ?_⟩
        rcases List.mem_cons.mp inside with rfl | inside
        · obtain rfl := Option.some.inj ((network.nodes_left rank scene).symm.trans foundReader)
          exact attached
        · exact left.current inside foundReader

theorem discard_meets (settled : Settled directory mapped network pending) (delivery : Delivery) :
    (Network.discard delivery network).Meets False
      (Proceeds directory network pending (.discard delivery)) := by
  refine Network.meets_withDelivery settled.idle fun read => ?_
  have dropped := (settled.sound.unreceive read).retire .dropped
  exact ⟨⟨mapped, pending, ⟨dropped, settled.logged.same rfl List.erase_subset fun _ => rfl⟩,
      fun _ => .stay⟩, fun _ whole => whole.relabel rfl List.erase_subset,
    .inr ⟨delivery.message.offset, .dropped, rfl, .discard read, fun _ => rfl⟩, id⟩

/-- A node that is about to give a message back has its slot in hand. -/
theorem take_up (settled : Settled directory mapped network pending)
    (held : delivery ∈ network.received) (found : network.nodes delivery.reader = some node) :
    Sound directory mapped ((network.withoutDelivery delivery).left delivery.reader
        (network.world.enter node)) pending [delivery.message.offset] ∧
      ((network.withoutDelivery delivery).left delivery.reader
        (network.world.enter node)).HasRead mapped delivery := by
  have enter : (network.withoutDelivery delivery).left delivery.reader
      (network.world.enter node) = network.withoutDelivery delivery :=
    Network.left_enter found
  rw [enter]
  exact ⟨settled.sound.unreceive held, { settled.sound.read held with }⟩

theorem release_meets (settled : Settled directory mapped network pending)
    (whole : network.IsWhole ∨ stuck) (delivery : Delivery) :
    (Network.release delivery network).Meets stuck
      (Proceeds directory network pending (.release delivery)) := by
  refine Network.meets_withDelivery settled.idle fun read => ?_
  rw [Network.loseDelivery, Action.bind_done (Action.modify_apply _ _)]
  obtain ⟨node, found⟩ := (settled.sound.read read).reader
  obtain ⟨sound, known⟩ := settled.take_up read found
  have reaching : (network.withoutDelivery delivery).Reaching node stuck :=
    Network.IsWhole.reaching whole found
  have enter : (network.withoutDelivery delivery).left delivery.reader
      (network.world.enter node) = network.withoutDelivery delivery :=
    Network.left_enter found
  have current : ∀ segment, node.segmentOf? delivery.message.owner = some segment →
      segment = delivery.message.segment ∨ stuck := by
    intro segment attached
    refine whole.imp_left fun whole => ?_
    exact Option.some.inj (attached.symm.trans (whole.current read found))
  rw [← enter] at reaching
  refine Action.meets_bind (Action.meets_attempt (Network.meets_asNode
    (fun missing => absurd (found.symm.trans missing) (by simp)) fun {actor} same => ?_))
  obtain rfl : node = actor := Option.some.inj (found.symm.trans same)
  refine (sound.release_meets known current reaching).mono ?_
  rintro (fault | value) scene ⟨grows, ends⟩
  · -- The owner has been detached. The message has been given away all the same, so its slot is
    -- lost.
    obtain ⟨rfl, gone, rfl⟩ := ends
    show Proceeds _ _ _ _ _ _
    rw [enter]
    exact ⟨⟨mapped, pending, ⟨(settled.sound.unreceive read).retire .ownerGone,
        settled.logged.same rfl List.erase_subset fun _ => rfl⟩, fun _ => .stay⟩,
      fun _ whole => whole.relabel rfl List.erase_subset,
      .inr ⟨delivery.message.offset, .ownerGone, rfl, .release read found gone,
        fun same => by cases same⟩, id⟩
  · by_cases mine : delivery.message.owner = delivery.reader
    · simp only [if_pos mine] at ends
      exact proceeds_left found grows
        ⟨ends, settled.logged.same rfl List.erase_subset fun _ => rfl⟩ (fun _ => .stay) rfl
        List.erase_subset rfl
    · simp only [if_neg mine] at ends
      exact proceeds_left found grows
        ⟨ends, settled.logged.same rfl List.erase_subset (Sound.letters_returned pending _ _)⟩
        (Operation.turns_update (.release (Ne.symm mine))) rfl List.erase_subset rfl

end Settled

end RankMail
