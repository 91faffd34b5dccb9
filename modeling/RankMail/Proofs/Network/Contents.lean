import RankMail.Proofs.Network.Ranges

set_option autoImplicit false

/-! # What nodes write in the files of others

A node reaches into the file of another one to append something to its queue (`Network.inlet`), and
to flag a fragment that it gives back (`Network.stamp`):

    head, tail     of the queue
    rings          of the doorbell
    link           of what was last in the queue, wherever that lies
    link, flags    of the fragment that is given back

So of a slot that is only in a queue nothing is written but its link, and what the slot says of
itself and holds, its `Content`, stays.
-/

namespace RankMail

/-- What a slot says of itself and holds: its header without the link and the flags, and the bytes
of its payload. -/
structure Content where
  source : UInt32
  slot : UInt32
  capacity : UInt32
  length : UInt32
  classIndex : UInt8
  payload : List UInt8
deriving Repr, DecidableEq

namespace Memory

def contentAt (memory : Memory) (place : Place) (room : Nat) : Content :=
  let header := Header.read memory place
  { source := header.source
    slot := header.slot
    capacity := header.capacity
    length := header.length
    classIndex := header.classIndex
    payload := memory.read (place.shift headerSize) room }

theorem contentAt_congr {before after : Memory} {touched : List (Place × Nat)} {place : Place}
    {room : Nat} (keeps : before.Keeps touched after)
    (apart : ApartFrom (place.shift 8) (56 + room) touched) :
    after.contentAt place room = before.contentAt place room := by
  have same := keeps.read apart
  have load : ∀ field distance, field.distance = 8 + distance → distance + field.width ≤ 56 →
      after.load field place = before.load field place := by
    intro field distance here inside
    have part := @read_part _ _ (place.shift 8) distance field.width _ same (by omega)
    rw [Memory.load, Memory.load, word, word, here]
    simp only [Place.shift, Nat.add_assoc] at part ⊢
    rw [part]
  have payload := @read_part _ _ (place.shift 8) 56 room _ same (Nat.le_refl _)
  simp only [contentAt, Header.read]
  rw [load HeaderField.source 0 rfl (by decide), load HeaderField.slot 4 rfl (by decide),
    load HeaderField.capacity 8 rfl (by decide), load HeaderField.length 12 rfl (by decide),
    load HeaderField.sizeClass 18 rfl (by decide)]
  exact congrArg _ payload

end Memory

/-- Where the slots are that somebody uses. -/
def Location.IsUse : Location → Prop
  | held | queued _ | received => True
  | unused _ _ | retired | hand => False

namespace Network

/-- What may be written to append something to the queue of a rank and to ring its doorbell: the
head and the tail of the queue, the count of rings, and the link of what is last in the queue. That
is the head again if the queue is empty. -/
def inlet (network : Network) (rank : UInt32) : List (Place × Nat) :=
  match network.nodes rank with
  | none => []
  | some node =>
      let chain := network.chain rank
      [(node.segment.queueBlock, 16), (node.segment.doorbellBlock, 4),
        (chain.linkPlace (chain.tail network.world.memory), 8)]

/-- What is written of a fragment that is given back: its flags and its link. -/
def stamp (network : Network) (offset : Offset) : List (Place × Nat) :=
  [((network.place offset).shift HeaderField.flags.distance, HeaderField.flags.width),
    (network.place offset, 8)]

def content (network : Network) (offset : Offset) (room : Nat) : Content :=
  network.world.memory.contentAt (network.place offset) room

/-- A range that reaches over no slot, unless over its link. -/
def Beside (network : Network) (range : Place × Nat) : Prop :=
  ∀ offset index descriptor, network.Slot offset index descriptor →
    Memory.Apart ((network.place offset).shift 8) (56 + descriptor.capacity.toNat) range.1 range.2

variable {network : Network} {range : Place × Nat} {peer : UInt32} {peerNode : Node}
  {offset : Offset}

theorem Beside.bland (beside : network.Beside range) : network.Bland range := by
  intro other index descriptor slot same
  have split := beside other index descriptor slot same
  simp only [Place.shift, HeaderField.sizeClass] at split ⊢
  omega

theorem keeps_appending {before after : Memory} {touched : List (Place × Nat)}
    (found : network.nodes peer = some peerNode)
    (keeps : before.Keeps (touched ++ network.appending peer offset) after) :
    before.Keeps ((touched ++ [(network.place offset, 8)]) ++ network.inlet peer) after := by
  refine keeps.widen fun {place count} _ apart => ?_
  simp only [inlet, appending, found, Memory.ApartFrom, List.append_assoc, List.forall_mem_append,
    List.forall_mem_cons, List.not_mem_nil, false_implies, implies_true, and_true,
    List.singleton_append] at apart ⊢
  obtain ⟨old, link, words, bell, last⟩ := apart
  refine ⟨old, link, ?_, last, ?_⟩
  · simp only [Memory.Apart, chain, Chain.tailPlace, Place.shift, region_of_node found,
      Segment.queueBlock, Segment.placeAt, QueueField.tail] at words ⊢
    omega
  · rw [region_of_node found]
    exact bell

end Network

namespace Sound

variable {directory : String} {mapped : List Segment} {network : Network} {rank peer : UInt32}
  {pending : UInt32 → List Item} {hand : List Offset} {scene : Scene Node} {fragment : Fragment}
  {stuck : Prop} {offset : Offset} {index : Nat} {descriptor : Descriptor}

/-! ## Appending -/

theorem beside_link (sound : Sound directory mapped network pending hand)
    (slot : network.Slot offset index descriptor) : network.Beside (network.place offset, 8) := by
  intro other second next slotOther same
  by_cases equal : other = offset
  · subst equal
    exact .inr (Nat.le_refl _)
  · have split := sound.charted.slots_apart sound.carved slotOther slot equal same
    simp only [Place.shift, headerSize] at split ⊢
    omega

theorem beside_inlet (sound : Sound directory mapped network pending hand) (peer : UInt32) :
    ∀ range ∈ network.inlet peer, network.Beside range := by
  intro range inside
  cases found : network.nodes peer with
  | none => simp [Network.inlet, found] at inside
  | some node =>
      -- Control words lie before all slots.
      have control : ∀ {place : Place} {count : Nat}, place.address + count ≤ arenaStart →
          network.Beside (place, count) := fun stop other _ _ slot _ =>
        .inr (Nat.le_trans stop (Nat.le_trans (Charted.slot_above sound.carved slot)
          (Nat.le_add_right ..)))
      simp only [Network.inlet, found, List.mem_cons, List.not_mem_nil, or_false] at inside
      rcases inside with rfl | rfl | rfl
      · exact control (by decide : queueStart + 16 ≤ arenaStart)
      · exact control (by decide : doorbellStart + 4 ≤ arenaStart)
      · rcases List.mem_cons.mp (List.mem_of_getLast? (sound.tail_eq found)) with head | inside
        · rw [head, Chain.linkPlace_free]
          exact control (by decide : queueStart + 8 ≤ arenaStart)
        · obtain ⟨_, _, slot⟩ := sound.isCarved (.queued peer) inside
          rw [Chain.linkPlace_proper (sound.charted.proper sound.carved slot)]
          exact sound.beside_link slot

theorem apart_stamp {other : Offset} {second : Nat} {next : Descriptor}
    (sound : Sound directory mapped network pending hand)
    (slot : network.Slot offset index descriptor) (given : network.Slot other second next)
    (differ : offset ≠ other) :
    Memory.ApartFrom ((network.place offset).shift 8) (56 + descriptor.capacity.toNat)
      (network.stamp other) := by
  intro range inside same
  have split := sound.charted.slots_apart sound.carved slot given differ
  rcases List.mem_pair.mp inside with rfl | rfl
  · have split := split same
    simp only [Place.shift, HeaderField.flags, headerSize] at split ⊢
    omega
  · have split := split same
    simp only [Place.shift, headerSize] at split ⊢
    omega

/-- A header with which a slot was carved says what the slot says, but for the length. -/
theorem content_blank {node : Node} {memory : Memory} {room : Nat}
    (sound : Sound directory mapped network pending hand) (classed : network.AreClassed)
    (found : network.nodes rank = some node) (handle : node.IsHandle fragment)
    (blank : fragment.IsBlank rank memory)
    (payload : memory.read ((network.place fragment.offset).shift headerSize) room =
      network.world.memory.read ((network.place fragment.offset).shift headerSize) room) :
    memory.contentAt (network.place fragment.offset) room =
      { network.content fragment.offset room with length := 0 } := by
  obtain ⟨_, ranks, index, descriptor, fits⟩ := sound.charted.fits sound.carved found handle
  have header := Header.read_of_bytes blank
  rw [fits.place] at header
  have names := sound.charted.names sound.carved fits.slot
  have slot : fragment.slot = UInt32.ofNat index := by
    obtain ⟨second, next, has, rfl⟩ := handle
    have other := sound.charted.slot_of_has sound.carved found has
    rw [← sound.charted.offset_handle found second next] at other
    exact congrArg UInt32.ofNat (Charted.slot_unique sound.carved other fits.slot).1
  rw [Memory.contentAt, header, payload]
  simp only [Network.content, Memory.contentAt, Header.read, names.source, names.slot,
    names.capacity, classed _ _ _ fits.slot, Fragment.blank, Header.fresh, slot, fits.capacity,
    fits.sizeClass, ranks, UInt32.ofNat_toNat]

theorem node_of_pending (sound : Sound directory mapped network pending hand) {item : Item}
    (inside : item ∈ pending peer) : ∃ node, network.nodes peer = some node := by
  by_contra missing
  rw [sound.nobody (by simpa [Option.eq_none_iff_forall_ne_some] using missing)] at inside
  cases inside

/-- A node that sends a fragment of its own writes its flags and its link, or its header if there is
no such peer; and what is in the way to the peer. -/
theorem framed_writeToPeer
    (sound : Sound directory mapped (network.left rank scene) pending (fragment.offset :: hand))
    (handle : scene.actor.IsHandle fragment)
    (reaching : (network.left rank scene).Reaching scene.actor stuck) (peer : UInt32) :
    (Node.writeToPeer peer fragment scene).Meets stuck fun _ after =>
      network.Framed rank [fragment.offset] ((network.left rank scene).inlet peer) scene after := by
  refine (sound.writeToPeer_writes handle reaching peer).mono ?_
  rintro (fault | value) after ends
  · obtain ⟨_, _, recycles, _⟩ := ends
    exact (sound.framed_recycles handle recycles).beyond _
  · obtain ⟨actor, keeps, sent⟩ := ends
    have item : ⟨fragment.offset, some ((network.left rank scene).letter fragment.offset)⟩ ∈
        Function.update pending peer (pending peer ++
          [⟨fragment.offset, some ((network.left rank scene).letter fragment.offset)⟩]) peer := by
      simp
    obtain ⟨next, foundNext⟩ := sent.node_of_pending item
    obtain ⟨peerNode, foundPeer, _⟩ :=
      (Network.evolves_scene (actor ▸ .refl _) keeps).back foundNext
    obtain ⟨_, _, _, _, fits⟩ :=
      sound.charted.fits sound.carved (network.nodes_left rank scene) handle
    have split := @Network.keeps_appending _ _ _ _ _ _ [_] foundPeer keeps
    refine sound.framed_body handle actor split (List.forall_mem_cons.mpr
      ⟨⟨24, rfl, .inl (by decide : 24 + 2 ≤ 26), ?_⟩,
        List.forall_mem_singleton.mpr ⟨0, ?_, ?_, ?_⟩⟩)
      fun range inside => (sound.beside_inlet peer range inside).bland
    · exact Nat.le_trans (by decide : 24 + 2 ≤ headerSize) (Nat.le_add_right ..)
    · exact fits.place.symm
    · exact .inl (by decide : 0 + 8 ≤ 26)
    · exact Nat.le_trans (by decide : 0 + 8 ≤ headerSize) (Nat.le_add_right ..)

theorem inlet_eq {after : Network} {mappedAfter : List Segment} {handAfter : List Offset}
    (sound : Sound directory mapped network pending hand)
    (soundAfter : Sound directory mappedAfter after pending handAfter)
    (evolves : network.Evolves after) (peer : UInt32) : after.inlet peer = network.inlet peer := by
  cases foundNext : after.nodes peer with
  | some next =>
      obtain ⟨node, found, grows⟩ := evolves.back foundNext
      simp only [Network.inlet, found, foundNext, grows.segment,
        sound.tail_evolves soundAfter evolves found]
      rw [evolves.chain]
  | none =>
      have found : network.nodes peer = none := by
        by_contra present
        obtain ⟨node, found⟩ := Option.ne_none_iff_exists'.mp present
        obtain ⟨next, there, _⟩ := evolves.forth found
        simp [foundNext] at there
      simp only [Network.inlet, found, foundNext]

theorem framed_fill {after : Scene Node}
    (sound : Sound directory mapped (network.left rank scene) pending hand)
    (handle : scene.actor.IsHandle fragment) (actor : after.actor = scene.actor)
    (keeps : scene.memory.Keeps
      [(fragment.payloadPlace, fragment.capacity), (fragment.lengthPlace, 4)] after.memory) :
    network.Framed rank [fragment.offset] [] scene after := by
  refine sound.framed_body handle actor (keeps.mono (List.subset_append_left _ []))
    (fun range inside => ?_) fun _ inside => absurd inside List.not_mem_nil
  rcases List.mem_pair.mp inside with rfl | rfl
  · exact ⟨64, rfl, .inr (by decide), Nat.le_refl _⟩
  · exact ⟨20, rfl, .inl (by decide : 20 + 4 ≤ 26),
      Nat.le_trans (by decide : 20 + 4 ≤ headerSize) (Nat.le_add_right ..)⟩

/-- A slot that a node has just taken was in no use before. -/
theorem idle_of_taken {taken : Scene Node}
    (sound : Sound directory mapped (network.left rank taken) pending (offset :: hand))
    {location : Location} (use : location.IsUse) :
    offset ∉ (network.left rank scene).contents pending hand location := by
  intro inside
  cases location with
  | held => cases @Exact.once _ _ sound.exact .held .hand _ inside List.mem_cons_self
  | queued other =>
      cases @Exact.once _ _ sound.exact (.queued other) .hand _ inside List.mem_cons_self
  | received => cases @Exact.once _ _ sound.exact .received .hand _ inside List.mem_cons_self
  | unused | retired | hand => cases use

/-- A node that sends bytes writes a slot that was in no use, if at all, the cursor and the headers
of a batch, and what is in the way to the peer. -/
theorem framed_send (sound : Sound directory mapped (network.left rank scene) pending hand)
    (reaching : (network.left rank scene).Reaching scene.actor stuck) (peer : UInt32)
    (payload : List UInt8) :
    (Node.send peer payload scene).Meets stuck fun _ after => ∃ slots,
      network.Framed rank slots ((network.left rank scene).inlet peer) scene after ∧
      ∀ offset ∈ slots, ∀ location : Location, location.IsUse →
        offset ∉ (network.left rank scene).contents pending hand location := by
  cases chosen : scene.actor.pool.arena.capacities.forPayload payload.length with
  | none =>
      rw [Node.send_of_none peer chosen]
      exact ⟨[], .quiet rfl rfl, fun _ inside => absurd inside List.not_mem_nil⟩
  | some sizeClass =>
      rw [Node.send_of_class peer chosen]
      refine Action.meets_bind (((sound.alloc_holds chosen).both
        (sound.framed_alloc sizeClass)).always ?_)
      rintro (fault | fragment) taken ⟨⟨_, allocated⟩, took⟩
      · exact ⟨[], took.beyond _, fun _ inside => absurd inside List.not_mem_nil⟩
      · obtain ⟨soundTaken, handle, _, enough⟩ := allocated
        have writes : (Scene.inMemory (fragment.write payload) taken).Meets False
            fun _ written => taken.memory.Keeps [(fragment.payloadPlace, fragment.capacity),
              (fragment.lengthPlace, 4)] written.memory :=
          Outcome.meets_mapState.mpr (fragment.write_meets payload taken.memory)
        refine Action.meets_bind (((soundTaken.write_meets handle enough).both writes).always ?_)
        rintro result written ⟨⟨rfl, actor, soundWritten, _⟩, keeps⟩
        have framed := (took.mono (List.nil_subset _)).trans
          (soundTaken.framed_fill handle actor keeps)
        have grows := framed.grows
        obtain ⟨_, keeps, _⟩ := framed.writes
        -- Nothing has been appended yet, so the way to the peer is what it was.
        have inlet := sound.inlet_eq soundWritten (Network.evolves_scene grows keeps) peer
        have sent := soundWritten.framed_writeToPeer (actor ▸ handle) (reaching.grows grows) peer
        rw [inlet] at sent
        refine sent.mono fun _ after delivered => ⟨_, framed.trans delivered, ?_⟩
        rintro offset inside location use
        obtain rfl := List.mem_singleton.mp inside
        exact soundTaken.idle_of_taken use

/-! ## Giving back -/

/-- A node that gives back a message of another node writes its flags and its link and what is in
the way to the owner, and nothing in its own file; one that gives back a message of its own writes
its header. -/
theorem framed_release {message : Message} {letter : Letter}
    (sound : Sound directory mapped (network.left rank scene) pending (message.offset :: hand))
    (read : (network.left rank scene).HasRead mapped ⟨rank, message, letter⟩)
    (current : ∀ segment, scene.actor.segmentOf? message.owner = some segment →
      segment = message.segment ∨ stuck)
    (reaching : (network.left rank scene).Reaching scene.actor stuck) :
    (Node.release message scene).Meets stuck fun _ after =>
      if message.owner = rank then network.Framed rank [message.offset] [] scene after
      else
        let outward := (network.left rank scene).stamp message.offset ++
          (network.left rank scene).inlet message.owner
        network.Framed rank [] outward scene after ∧ scene.memory.Keeps outward after.memory := by
  refine (sound.release_writes read current reaching).mono ?_
  rintro (fault | value) after ends
  · obtain ⟨_, _, rfl⟩ := ends
    split
    · exact .quiet rfl rfl
    · exact ⟨.quiet rfl rfl, .refl ..⟩
  · by_cases mine : message.owner = rank
    · rw [if_pos mine] at ends ⊢
      obtain ⟨⟨fragment, handle, same, recycles⟩, _⟩ := ends
      exact same ▸ sound.framed_recycles handle recycles
    · rw [if_neg mine] at ends ⊢
      obtain ⟨actor, keeps, _⟩ := ends
      obtain ⟨owner, foundOwner, _⟩ := read.owner
      obtain ⟨index, descriptor, slot⟩ := sound.isCarved .hand List.mem_cons_self
      have split := @Network.keeps_appending _ _ _ _ _ _ [_] foundOwner keeps
      refine ⟨?_, split⟩
      refine
        { grows := actor ▸ .refl _
          classed := fun classed => classed.bland (actor ▸ .refl _) (by rw [actor]) split
            fun range inside => ?_
          writes := ⟨[], split, fun _ inside => absurd inside List.not_mem_nil⟩ }
      rcases List.mem_append.mp inside with inside | inside
      · rcases List.mem_pair.mp inside with rfl | rfl
        · exact sound.charted.bland_slot sound.carved slot
            (Nat.le_trans (by decide : 24 + 2 ≤ headerSize) (Nat.le_add_right ..))
            (.inl (by decide : 24 + 2 ≤ 26))
        · exact (sound.beside_link slot).bland
      · exact (sound.beside_inlet _ range inside).bland

end Sound

end RankMail
