import Mathlib.Data.List.Perm.Subperm
import RankMail.Proofs.Network.Sending

set_option autoImplicit false

/-! # Reading past what has returned

A node that reads its queue takes slots from it until one of them is a message. Those before it are
its own and on their way back, so they go among the unused ones and are not seen:

    queue before    returned  returned  returned  message  ...
                    \__________________________/     |      |
                      unused, the last on top      read   queue after

There are no more of them than the node has carved, so it never runs out of turns
(`returning_le`). What it does to its pool and to memory on the way is said by `Scene.Skims`; that
is carried through the turns by induction on what is pending (`readWithin_skims`).
-/

namespace RankMail

def Item.isBack (item : Item) : Bool := item.letter.isNone

/-- The fragments on their way back before the first message of a queue. -/
def returning (line : List Item) : Nat := (line.takeWhile Item.isBack).length

theorem dropWhile_isBack (line : List Item) : line.dropWhile Item.isBack = [] ∨
    ∃ offset letter rest, line.dropWhile Item.isBack = ⟨offset, some letter⟩ :: rest := by
  have first := List.head?_dropWhile_not Item.isBack line
  cases left : line.dropWhile Item.isBack with
  | nil => exact .inl rfl
  | cons item rest =>
      rw [left] at first
      obtain ⟨offset, letter⟩ := item
      cases letter with
      | none => cases first
      | some letter => exact .inr ⟨offset, letter, rest, rfl⟩

/-! ## Taking slots back -/

/-- What a node makes of its scene when it takes slots of its own out of its queue, the first of the
list first: each of them has the header with which it was carved and has gone on top of the unused
ones of its class. Besides these headers, only the head and the tail of the queue are written. -/
structure Scene.Skims (before : Scene Node) (fragments : List Fragment) (after : Scene Node) :
    Prop where
  free : ∀ sizeClass, after.actor.pool.free.get sizeClass =
    (fragments.filter fun fragment => fragment.sizeClass = sizeClass).reverse ++
      before.actor.pool.free.get sizeClass
  rest : after.actor =
    { before.actor with pool := { before.actor.pool with free := after.actor.pool.free } }
  headers : ∀ fragment ∈ fragments, after.memory.read fragment.place headerSize =
    (Header.fresh before.actor.pool.arena.rank fragment.slot fragment.sizeClass
      (UInt32.ofNat fragment.capacity)).bytes
  keeps : before.memory.Keeps ((before.actor.queue.block, 16) ::
    fragments.map fun fragment => (fragment.place, headerSize)) after.memory

namespace Scene.Skims

variable {before between recycled after : Scene Node} {fragment : Fragment}
  {fragments : List Fragment}

theorem grows (skims : before.Skims fragments after) : before.actor.Grows after.actor where
  rest := by rw [skims.rest]
  arena := by
    rw [skims.rest]
    exact .refl _

theorem nil (actor : after.actor = before.actor)
    (keeps : before.memory.Keeps [(before.actor.queue.block, 16)] after.memory) :
    before.Skims [] after where
  free sizeClass := by
    rw [actor]
    rfl
  rest := by rw [actor]
  headers _ inside := absurd inside List.not_mem_nil
  keeps := keeps

theorem cons (recycles : between.Recycles fragment recycled)
    (actor : between.actor = before.actor)
    (keeps : before.memory.Keeps [(before.actor.queue.block, 16)] between.memory)
    (skims : recycled.Skims fragments after)
    (apart : Memory.ApartFrom fragment.place headerSize ((before.actor.queue.block, 16) ::
      fragments.map fun other => (other.place, headerSize))) :
    before.Skims (fragment :: fragments) after := by
  have kept : recycled.actor = before.actor.keeping fragment.sizeClass
      (fragment :: before.actor.pool.free.get fragment.sizeClass) := actor ▸ recycles.actor
  have block : recycled.actor.queue.block = before.actor.queue.block := by
    rw [kept]
    rfl
  have keepsMore := skims.keeps
  rw [block] at keepsMore
  constructor
  · intro sizeClass
    rw [skims.free, kept, Node.keeping, PerClass.get_set, List.filter_cons]
    by_cases same : sizeClass = fragment.sizeClass
    · simp [same]
    · simp [same, Ne.symm same]
  · rw [skims.rest, kept]
    rfl
  · intro other inside
    rcases List.mem_cons.mp inside with rfl | inside
    · -- What comes after it is written elsewhere.
      rw [keepsMore.read apart, recycles.memory, actor, ← Header.length_bytes]
      exact Memory.read_write_same ..
    · rw [skims.headers other inside, kept]
      rfl
  · have written := Memory.keeps_writeHeader between.memory fragment.place
      (.fresh between.actor.pool.arena.rank fragment.slot fragment.sizeClass
        (UInt32.ofNat fragment.capacity))
    rw [← recycles.memory] at written
    exact ((keeps.trans written).trans keepsMore).mono (by simp)

end Scene.Skims

/-- The headers of different slots of a node lie apart from one another and from its queue. -/
theorem Charted.headers_apart {directory : String} {mapped : List Segment} {network : Network}
    {rank : UInt32} {node : Node} {fragment : Fragment} {fragments : List Fragment}
    (charted : Charted directory mapped network) (carved : network.AreCarved)
    (found : network.nodes rank = some node) (handle : node.IsHandle fragment)
    (handles : ∀ other ∈ fragments, node.IsHandle other)
    (new : fragment.offset ∉ fragments.map Fragment.offset) :
    Memory.ApartFrom fragment.place headerSize ((node.queue.block, 16) ::
      fragments.map fun other => (other.place, headerSize)) := by
  obtain ⟨_, _, index, descriptor, fits⟩ := charted.fits carved found handle
  refine Memory.apartFrom_cons.mpr ⟨fun _ => .inr ?_,
    List.forall_mem_map.mpr fun other inside => ?_⟩
  · have above := Charted.slot_above carved fits.slot
    rw [fits.place]
    exact Nat.le_trans (show queueStart + 16 ≤ arenaStart by decide) above
  · obtain ⟨_, _, second, next, fitsOther⟩ := charted.fits carved found (handles other inside)
    have differ : fragment.offset ≠ other.offset := fun same =>
      new (List.mem_map.mpr ⟨other, inside, same.symm⟩)
    intro regions
    have split := charted.slots_apart carved fits.slot fitsOther.slot differ
    rw [← fits.place, ← fitsOther.place] at split
    have split := split regions
    dsimp only
    omega

namespace Sound

variable {directory : String} {mapped : List Segment} {network : Network} {rank : UInt32}
  {node : Node} {pending : UInt32 → List Item} {hand : List Offset} {scene : Scene Node}
  {stuck : Prop} {offset : Offset}

/-! ## Taking from the queue -/

theorem dequeue_meets
    (sound : Sound directory mapped (network.left rank scene) pending hand)
    (reaching : (network.left rank scene).Reaching scene.actor stuck) :
    (Scene.inMemory scene.actor.queue.dequeue scene).Meets stuck fun result after =>
      after.actor = scene.actor ∧
        scene.memory.Keeps [(scene.actor.queue.block, 16)] after.memory ∧
        match pending rank with
        | [] => result = .ok none ∧ Sound directory mapped (network.left rank after) pending hand
        | item :: rest => result = .ok (some item.offset) ∧
            Sound directory mapped (network.left rank after) (Function.update pending rank rest)
              (item.offset :: hand) ∧ (network.left rank after).Carries rank item := by
  obtain ⟨node, memory, notices⟩ := scene
  have found := network.nodes_left rank ⟨node, memory, notices⟩
  have separate := sound.charted.separate sound.carved rank
  have fragments : ∀ offset ∈ (pending rank).map Item.offset,
      (network.left rank ⟨node, memory, notices⟩).IsCarved offset := fun offset inside =>
    sound.isCarved (.queued rank) inside
  have block : node.queue.block =
      ((network.left rank ⟨node, memory, notices⟩).chain rank).block := by
    show (⟨node.segment.file.region, queueStart⟩ : Place) = ⟨_, queueStart⟩
    rw [Network.region_of_node found]
  -- The words of the queue hold what is pending, so its first item is the first of the list.
  have taken : (node.queue.dequeue memory).Meets stuck _ :=
    Queue.dequeue_meets separate (sound.holds found) fragments
      (sound.exact.nodup (.queued rank)) block fun offset inside => by
        have carved := fragments offset inside
        obtain ⟨index, descriptor, owner, foundOwner, _⟩ := carved
        refine (sound.charted.header_or sound.carved found (fragments offset inside)
          (reaching foundOwner)).imp_left fun header => ?_
        exact ⟨block, header, separate.proper (fragments offset inside)⟩
  refine Outcome.meets_mapState.mpr (taken.mono ?_)
  rintro result after ⟨rfl, holds, keeps⟩
  have changes := changes_queue found keeps
  refine ⟨rfl, block ▸ changes.keeps, ?_⟩
  cases line : pending rank with
  | nil =>
      rw [line] at holds
      have same : Function.update pending rank [] = pending := by
        rw [← line, Function.update_eq_self]
      refine ⟨rfl, ?_⟩
      rw [← same, ← network.left_left rank ⟨node, memory, notices⟩]
      exact sound.requeue found found [] changes
        (fun _ inside => absurd inside List.not_mem_nil) holds
        (fun _ inside => absurd inside List.not_mem_nil) (same.symm ▸ sound.exact)
  | cons item rest =>
      rw [line] at holds
      have member : item ∈ pending rank := line ▸ List.mem_cons_self
      have taken := sound.dequeue found line holds changes notices
      rw [Network.left_left] at taken
      refine ⟨rfl, taken, ?_⟩
      rw [← network.left_left rank ⟨node, memory, notices⟩]
      exact sound.carries_links found changes
        (sound.isCarved (.queued rank) (List.mem_map.mpr ⟨item, member, rfl⟩)) (sound.items member)

theorem handle_of_slot (sound : Sound directory mapped network pending hand)
    (slot : network.IsCarved offset) (found : network.nodes offset.rank = some node) :
    ∃ fragment, node.IsHandle fragment ∧ fragment.offset = offset ∧
      fragment.address = node.segment.addressAt offset.position.toNat := by
  obtain ⟨index, descriptor, slot⟩ := slot
  obtain ⟨again, foundAgain, has, position⟩ := id slot
  obtain rfl := Option.some.inj (found.symm.trans foundAgain)
  refine ⟨node.pool.arena.handle index descriptor, ⟨index, descriptor, has, rfl⟩, ?_, ?_⟩
  · rw [sound.charted.offset_handle found, slot.position_eq]
  · rw [← sound.charted.arena_eq found, ← position]
    rfl

theorem recycle_offset
    (sound : Sound directory mapped (network.left rank scene) pending (offset :: hand))
    (own : offset.rank = rank) {address : Nat}
    (here : address = scene.actor.segment.addressAt offset.position.toNat) :
    ∃ fragment, scene.actor.IsHandle fragment ∧ fragment.offset = offset ∧
      (Node.inPool (Pool.recycle address) scene).Meets False fun result after =>
        result = .ok () ∧ scene.Recycles fragment after ∧
          Sound directory mapped (network.left rank after) pending hand := by
  have found := network.nodes_left rank scene
  obtain ⟨fragment, handle, rfl, same⟩ := sound.handle_of_slot
    (sound.isCarved .hand List.mem_cons_self) (by rw [own]; exact found)
  rw [here, ← same]
  exact ⟨fragment, handle, rfl, sound.recycles_meets handle⟩

theorem reclaim_meets
    (sound : Sound directory mapped (network.left rank scene) pending (offset :: hand))
    (own : offset.rank = rank) {address : Nat}
    (here : address = scene.actor.segment.addressAt offset.position.toNat) :
    ∃ fragment, scene.actor.IsHandle fragment ∧ fragment.offset = offset ∧
      (Node.reclaim address scene).Meets False fun result after =>
        result = .ok () ∧ scene.Recycles fragment after ∧
          Sound directory mapped (network.left rank after) pending hand := by
  obtain ⟨fragment, handle, same, recycled⟩ := sound.recycle_offset own here
  refine ⟨fragment, handle, same, Action.meets_bind (Action.meets_attempt (recycled.mono ?_))⟩
  rintro result after ⟨_, recycles, sound⟩
  exact ⟨rfl, recycles, sound⟩

/-- A node that takes a slot into its hand finds its address and its header, if it has attached the
rank to which the slot belongs. -/
theorem locate_meets {Value : Type}
    (sound : Sound directory mapped (network.left rank scene) pending (offset :: hand))
    (reaching : (network.left rank scene).Reaching scene.actor stuck)
    {next : Nat → Place → Action (Scene Node) Value}
    {post : Except Fault Value → Scene Node → Prop}
    (meets : ∀ segment, scene.actor.segmentOf? offset.rank = some segment →
      (next (segment.addressAt offset.position.toNat) ((network.left rank scene).place offset)
        scene).Meets stuck post) :
    ((do
      let address ← .ofAbort (scene.actor.addresses.resolve offset)
      let place ← .ofAbort (scene.actor.addresses.header offset)
      next address place : Action (Scene Node) Value) scene).Meets stuck post := by
  have found := network.nodes_left rank scene
  have carved := sound.isCarved .hand List.mem_cons_self
  cases attached : scene.actor.segmentOf? offset.rank with
  | none =>
      -- A node aborts over an offset of a rank that it has not attached.
      obtain ⟨_, _, owner, foundOwner, _⟩ := carved
      have excused := (reaching foundOwner).resolve_left (by simp [attached])
      exact Action.meets_bind (Action.meets_ofAbort
        (.inr ⟨⟨_, sound.charted.resolve_missing found attached⟩, excused⟩))
  | some segment =>
      have resolved := sound.charted.resolve_eq sound.carved found carved attached
      have header := (@Charted.header_or _ _ _ _ _ _ sound.charted sound.carved found carved
        False (.inl (by rw [attached]; rfl))).resolve_right And.right
      refine Action.meets_bind (Action.meets_ofAbort (.inl ⟨_, resolved, ?_⟩))
      exact Action.meets_bind (Action.meets_ofAbort (.inl ⟨_, header, meets segment attached⟩))

/-- A node has gone through its queue up to the first message, or to the end if there is none: it
has the message in its hand, and what was on its way back before it has been taken back. -/
structure Skimmed (directory : String) (mapped : List Segment) (network : Network) (rank : UInt32)
    (pending : UInt32 → List Item) (hand : List Offset) (before : Scene Node)
    (fragments : List Fragment) (result : Except Fault (Option Message)) (after : Scene Node) :
    Prop where
  offsets : fragments.map Fragment.offset =
    ((pending rank).takeWhile Item.isBack).map Item.offset
  handles : ∀ fragment ∈ fragments, before.actor.IsHandle fragment
  skims : before.Skims fragments after
  ends : match (pending rank).dropWhile Item.isBack with
    | [] => result = .ok none ∧
        Sound directory mapped (network.left rank after) (Function.update pending rank []) hand
    | item :: rest => ∃ segment, result = .ok (some ⟨segment, item.offset⟩) ∧
        after.actor.segmentOf? item.offset.rank = some segment ∧
        (network.left rank after).Carries rank item ∧
        Sound directory mapped (network.left rank after) (Function.update pending rank rest)
          (item.offset :: hand)

/-- A node takes slots from its queue until one of them is a message. -/
theorem readWithin_skims (line : List Item) :
    ∀ {fuel : Nat} {scene : Scene Node} {pending : UInt32 → List Item},
      pending rank = line → returning line < fuel →
      Sound directory mapped (network.left rank scene) pending hand →
      (network.left rank scene).Reaching scene.actor stuck →
      (Node.readWithin fuel scene).Meets stuck fun result after => ∃ fragments,
        Skimmed directory mapped network rank pending hand scene fragments result after := by
  -- Each turn takes the first item of the line that is pending.
  induction line with
  | nil =>
      intro fuel scene pending line enough sound reaching
      obtain _ | fuel := fuel
      · exact absurd enough (Nat.not_lt_zero _)
      rw [Node.readWithin, Action.bind_done (Scene.self_apply _)]
      refine Action.meets_bind ((sound.dequeue_meets reaching).mono ?_)
      rw [line]
      rintro result after ⟨actor, keeps, rfl, sound⟩
      refine ⟨[], by rw [line]; rfl, fun _ inside => absurd inside List.not_mem_nil,
        .nil actor keeps, ?_⟩
      rw [line]
      refine ⟨rfl, ?_⟩
      rw [← line, Function.update_eq_self]
      exact sound
  | cons item rest ih =>
      intro fuel scene pending line enough sound reaching
      obtain _ | fuel := fuel
      · exact absurd enough (Nat.not_lt_zero _)
      have alone := sound.exact.nodup (.queued rank)
      simp only [Network.contents, line, List.map_cons, List.nodup_cons] at alone
      rw [Node.readWithin, Action.bind_done (Scene.self_apply _)]
      refine Action.meets_bind ((sound.dequeue_meets reaching).mono ?_)
      rw [line]
      rintro result ⟨node, memory, notices⟩ ⟨rfl, keeps, rfl, sound, carries⟩
      have found := network.nodes_left rank ⟨scene.actor, memory, notices⟩
      have reaching :
          (network.left rank ⟨scene.actor, memory, notices⟩).Reaching scene.actor stuck :=
        reaching.grows (.refl _)
      refine sound.locate_meets reaching fun segment attached => ?_
      change Outcome.Meets stuck _ ((if item.offset.rank = scene.actor.rank ∧
        (network.left rank ⟨scene.actor, memory, notices⟩).isReturned item.offset = true
        then _ else _ : Action (Scene Node) (Option Message)) _)
      obtain ⟨offset, letter⟩ := item
      cases letter with
      | none =>
          -- A fragment on its way back goes among the unused ones, and the next one is taken.
          obtain ⟨flag, own⟩ := carries
          have named := (sound.charted.placed found).nodeRank
          have here : segment = scene.actor.segment := by
            rw [own, sound.charted.own_segment found] at attached
            exact (Option.some.inj attached).symm
          rw [if_pos ⟨own.trans named.symm, flag⟩, here]
          obtain ⟨fragment, handle, rfl, reclaimed⟩ := sound.reclaim_meets own rfl
          refine Action.meets_bind (reclaimed.always ?_)
          rintro result next ⟨rfl, recycles, soundNext⟩
          have fewer : returning rest < fuel := Nat.lt_of_succ_lt_succ enough
          refine (ih (Function.update_self ..) fewer soundNext
            (reaching.grows recycles.grows)).mono ?_
          rintro result last ⟨fragments, offsets, handles, skims, ends⟩
          rw [recycles.actor] at handles
          simp only [Function.update_self, Function.update_idem] at offsets ends
          have new : fragment.offset ∉ fragments.map Fragment.offset := by
            rw [offsets]
            exact fun inside => alone.1 ((List.takeWhile_sublist _).map _ |>.subset inside)
          have apart := sound.charted.headers_apart sound.carved found handle handles new
          refine ⟨fragment :: fragments, by rw [line, List.map_cons, offsets]; rfl,
            List.forall_mem_cons.mpr ⟨handle, handles⟩, .cons recycles rfl keeps skims apart, ?_⟩
          rw [line]
          exact ends
      | some letter =>
          -- The first message ends the search; what is behind it stays in the queue.
          obtain ⟨flag, _⟩ := id carries
          rw [if_neg (by rw [flag]; simp)]
          have message : scene.actor.messageAt offset = .ok ⟨segment, offset⟩ := by
            rw [Node.messageAt, attached]
          refine Action.meets_bind (Action.meets_ofAbort (.inl ⟨_, message, ?_⟩))
          refine ⟨[], by rw [line]; rfl, fun _ inside => absurd inside List.not_mem_nil,
            .nil rfl keeps, ?_⟩
          rw [line]
          exact ⟨segment, rfl, attached, carries, sound⟩

/-- No more fragments are on their way back than have been carved. -/
theorem returning_le (sound : Sound directory mapped network pending hand)
    (found : network.nodes rank = some node) :
    returning (pending rank) ≤ node.pool.arena.descriptors.size := by
  have returned : ∀ item ∈ (pending rank).takeWhile Item.isBack,
      item.offset ∈ node.pool.arena.descriptors.toList.map fun descriptor =>
        (⟨rank, UInt32.ofNat descriptor.position⟩ : Offset) := by
    intro item inside
    have member := List.takeWhile_subset _ inside
    have free := List.all_eq_true.mp List.all_takeWhile item inside
    obtain ⟨offset, letter⟩ := item
    obtain rfl : letter = none := by simpa [Item.isBack] using free
    obtain ⟨_, rfl⟩ := sound.items member
    obtain ⟨index, descriptor, slot⟩ :=
      sound.isCarved (.queued offset.rank) (List.mem_map.mpr ⟨_, member, rfl⟩)
    obtain ⟨again, foundAgain, has, _⟩ := id slot
    obtain rfl := Option.some.inj (found.symm.trans foundAgain)
    exact List.mem_map.mpr ⟨descriptor, Array.mem_toList_iff.mpr (Array.mem_of_getElem? has),
      by rw [slot.position_eq]⟩
  -- They are different slots that the node has carved, so there are no more of them than it has
  -- descriptors.
  have nodup : (((pending rank).takeWhile Item.isBack).map Item.offset).Nodup :=
    (sound.exact.nodup (.queued rank)).sublist ((List.takeWhile_sublist _).map _)
  have fits := (nodup.subperm (List.forall_mem_map.mpr returned)).length_le
  simpa [returning] using fits

theorem readQueue_skims
    (sound : Sound directory mapped (network.left rank scene) pending hand)
    (reaching : (network.left rank scene).Reaching scene.actor stuck) :
    (Node.readQueue scene).Meets stuck fun result after => ∃ fragments,
      Skimmed directory mapped network rank pending hand scene fragments result after := by
  have enough := sound.returning_le (Network.nodes_left ..)
  rw [Node.readQueue, Action.bind_done (Scene.self_apply _)]
  exact readWithin_skims _ rfl (by omega) sound reaching

end Sound

end RankMail
