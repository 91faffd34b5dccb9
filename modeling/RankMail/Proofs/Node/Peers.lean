import RankMail.Proofs.Address.Translation
import RankMail.Proofs.Network.Attaching
import RankMail.Proofs.Node.Creation
import RankMail.Proofs.Segment.Admission

set_option autoImplicit false

/-! # Attaching peers

A node that attaches a peer maps its segment and then enters it in the address map:

    known already -->                                              nothing
    unknown       --> attach the segment --> refused               nothing
                                         --> enter it in the map   one more peer
                                                                   abort

A segment is accepted by what it says of itself, which is that it is of that rank and of that
length. The address map asks more, a rank and a length that an offset can express, and aborts if it
is not given that (`Reached.attachPeer_cases`).
-/

namespace RankMail

namespace Node

variable {Value Result : Type} {node : Node} {rank : UInt32}

/-! ## What a node knows -/

/-- A node knows where it has mapped the segments that it has attached, its own among them, and
offsets can express all of them. -/
structure IsConnected (node : Node) : Prop where
  /-- A node is not its own peer. -/
  alone : node.peer? node.rank = none
  known : ∀ rank, node.addresses.find? rank = (node.segmentOf? rank).map Segment.mapping
  expressible : ∀ {rank segment}, node.segmentOf? rank = some segment →
    AddressMap.IsExpressible rank segment.mapping

def OnlyPools (action : Action (Scene Node) Value) : Prop := ∀ scene,
  (action scene).Meets True fun _ after =>
    after.actor = { scene.actor with pool := after.actor.pool }

section

variable {action : Action (Scene Node) Value} {next : Value → Action (Scene Node) Result}

theorem onlyPools_pure (value : Value) : OnlyPools (pure value : Action (Scene Node) Value) :=
  fun _ => rfl

theorem onlyPools_fail (fault : Fault) : OnlyPools (.fail fault : Action (Scene Node) Value) :=
  fun _ => rfl

theorem onlyPools_ofAbort (value : Except Abort Value) :
    OnlyPools (.ofAbort value : Action (Scene Node) Value) := by
  intro scene
  cases value with
  | ok value => exact rfl
  | error cause => trivial

theorem onlyPools_bind (one : OnlyPools action) (two : ∀ value, OnlyPools (next value)) :
    OnlyPools (action >>= next) := by
  intro scene
  refine Action.meets_bind ((one scene).mono ?_)
  rintro (fault | value) between changed
  · exact changed
  · refine (two value between).mono fun result after changedAgain => ?_
    rw [changedAgain, changed]

theorem onlyPools_look (view : Scene Node → Value) :
    OnlyPools (.look view : Action (Scene Node) Value) := fun _ => rfl

theorem onlyPools_attempt (only : OnlyPools action) : OnlyPools (Action.attempt action) :=
  fun scene => Action.meets_attempt ((only scene).mono fun _ _ changed => changed)

theorem onlyPools_inMemory (action : Action Memory Value) :
    OnlyPools (Scene.inMemory action : Action (Scene Node) Value) :=
  fun _ => Action.meets_within.mpr (Outcome.meets_any fun _ _ => rfl)

theorem onlyPools_inPool (action : Action (Scene Pool) Value) : OnlyPools (inPool action) :=
  fun _ => meets_inPool.mpr (Outcome.meets_any fun _ _ => rfl)

end

theorem onlyPools_writeToPeer (peer : UInt32) (fragment : Fragment) :
    OnlyPools (writeToPeer peer fragment) := by
  refine onlyPools_bind (onlyPools_look _) fun node => ?_
  cases node.segmentOf? peer with
  | none => exact onlyPools_bind (onlyPools_inPool _) fun _ => onlyPools_fail _
  | some target => exact onlyPools_bind (onlyPools_ofAbort _) fun _ => onlyPools_inMemory _

theorem onlyPools_send (peer : UInt32) (payload : List UInt8) : OnlyPools (send peer payload) := by
  refine onlyPools_bind (onlyPools_look _) fun node => ?_
  cases node.classFor payload.length with
  | error fault => exact onlyPools_fail fault
  | ok sizeClass =>
      refine onlyPools_bind (onlyPools_pure sizeClass) fun sizeClass => ?_
      refine onlyPools_bind (onlyPools_inPool _) fun fragment => ?_
      exact onlyPools_bind (onlyPools_inMemory _) fun _ => onlyPools_writeToPeer peer fragment

theorem onlyPools_readWithin (fuel : Nat) : OnlyPools (readWithin fuel) := by
  induction fuel with
  | zero => exact fun _ => trivial
  | succ fuel ih =>
      refine onlyPools_bind (onlyPools_look _) fun node => ?_
      refine onlyPools_bind (onlyPools_inMemory _) fun taken => ?_
      cases taken with
      | none => exact onlyPools_pure none
      | some offset =>
          refine onlyPools_bind (onlyPools_ofAbort _) fun address => ?_
          refine onlyPools_bind (onlyPools_ofAbort _) fun place => ?_
          refine onlyPools_bind (onlyPools_look _) fun isReturned => ?_
          split
          · refine onlyPools_bind ?_ fun _ => ih
            exact onlyPools_bind (onlyPools_attempt (onlyPools_inPool _)) fun _ => onlyPools_pure ()
          · exact onlyPools_bind (onlyPools_ofAbort _) fun message => onlyPools_pure (some message)

theorem onlyPools_release (message : Message) : OnlyPools (release message) := by
  refine onlyPools_bind (onlyPools_look _) fun node => ?_
  split
  · exact onlyPools_inPool _
  · refine onlyPools_bind (onlyPools_look _) fun node => ?_
    cases node.segmentOf? message.owner with
    | none => exact onlyPools_fail _
    | some target => exact onlyPools_bind (onlyPools_ofAbort _) fun _ => onlyPools_inMemory _

/-- What a node does without the disk. -/
inductive Deed where
  | detachPeer (rank : UInt32)
  | alloc (sizeClass : SizeClass)
  | free (fragment : Fragment)
  | writeToPeer (peer : UInt32) (fragment : Fragment)
  | send (peer : UInt32) (payload : List UInt8)
  | read
  | release (message : Message)
  | wait (bound : Option Nat)

def Deed.perform : Deed → Action (Scene Node) Unit
  | .detachPeer rank => do
      let _ ← Node.detachPeer rank
      pure ()
  | .alloc sizeClass => do
      let _ ← Node.alloc sizeClass
      pure ()
  | .free fragment => Node.free fragment
  | .writeToPeer peer fragment => Node.writeToPeer peer fragment
  | .send peer payload => Node.send peer payload
  | .read => do
      let _ ← Node.readQueue
      pure ()
  | .release message => Node.release message
  | .wait bound => Node.wait bound

/-- The nodes that come about, whatever the worlds are like in which they do something. No file is
ever mapped at the address zero. -/
inductive Reached : Node → Prop
  | create {directory : String} {rank : UInt32} {config : Config} {world after : World}
      {node : Node} (created : Node.create directory rank config world = .done node after) :
      Reached node
  | attach {node : Node} {rank : UInt32} {world : World} {state : Node × World}
      (reached : Reached node) (positive : 0 < world.nextBase)
      (ends : (attachPeer rank (node, world)).state? = some state) : Reached state.1
  | perform {scene after : Scene Node} {deed : Deed} (reached : Reached scene.actor)
      (ends : (deed.perform scene).state? = some after) : Reached after.actor

/-- Whatever becomes of the pool, a node knows what it has known. -/
theorem IsConnected.pool (connected : node.IsConnected) (pool : Pool) :
    IsConnected { node with pool } :=
  ⟨connected.alone, connected.known, connected.expressible⟩

theorem create_connected {directory : String} {config : Config} {world after : World}
    (created : Node.create directory rank config world = .done node after) :
    node.IsConnected := by
  obtain ⟨_, segment, _, addresses, registered, rfl⟩ := create_done_ends created
  refine ⟨rfl, fun other => ?_, fun {other peer} found => ?_⟩
  · dsimp only [fresh]
    rw [AddressMap.find?_register registered, segmentOf?]
    split <;> rfl
  · rw [segmentOf?] at found
    split at found
    · next own =>
      obtain rfl := Option.some.inj found
      obtain rfl := own
      exact AddressMap.expressible_of_register registered
    · cases found

theorem IsConnected.attached (connected : node.IsConnected) {segment : Segment} {known : AddressMap}
    (missing : node.segmentOf? segment.rank = none)
    (registered : node.addresses.register segment.rank segment.mapping = .ok known) :
    (node.attached segment known).IsConnected := by
  have differs : segment.rank ≠ node.rank := by
    intro own
    rw [segmentOf?, if_pos own] at missing
    cases missing
  refine ⟨?_, fun other => ?_, fun {other peer} found => ?_⟩
  · rw [peer?, Node.attached, List.find?_cons_of_neg (by simpa using differs)]
    exact connected.alone
  · rw [segmentOf?_attached differs]
    show known.find? other = _
    rw [AddressMap.find?_register registered, connected.known]
    split <;> rfl
  · rw [segmentOf?_attached differs] at found
    split at found
    · next here =>
      obtain rfl := Option.some.inj found
      obtain rfl := here
      exact AddressMap.expressible_of_register registered
    · exact connected.expressible found

theorem IsConnected.detached (connected : node.IsConnected) (differs : rank ≠ node.rank) :
    (node.detached rank).IsConnected := by
  refine ⟨?_, fun other => ?_, fun {other peer} found => ?_⟩
  · have alone := connected.alone
    rw [peer?, List.find?_eq_none] at alone ⊢
    exact fun peer inside => alone peer (List.mem_of_mem_filter inside)
  · rw [segmentOf?_detached differs]
    show (node.addresses.unregister rank).find? other = _
    rw [AddressMap.find?_unregister, connected.known]
    split <;> rfl
  · rw [segmentOf?_detached differs] at found
    split at found
    · cases found
    · exact connected.expressible found

theorem Deed.onlyPools {deed : Deed} (stays : ∀ rank, deed ≠ .detachPeer rank) :
    OnlyPools deed.perform := by
  cases deed with
  | detachPeer rank => exact absurd rfl (stays rank)
  | alloc sizeClass => exact onlyPools_bind (onlyPools_inPool _) fun _ => onlyPools_pure ()
  | free fragment => exact onlyPools_inPool _
  | writeToPeer peer fragment => exact onlyPools_writeToPeer peer fragment
  | send peer payload => exact onlyPools_send peer payload
  | read =>
      refine onlyPools_bind ?_ fun _ => onlyPools_pure ()
      exact onlyPools_bind (onlyPools_look _) fun _ => onlyPools_readWithin _
  | release message => exact onlyPools_release message
  | wait bound => exact onlyPools_bind (onlyPools_look _) fun _ => onlyPools_inMemory _

theorem IsConnected.perform {scene : Scene Node} (connected : scene.actor.IsConnected)
    (deed : Deed) : (deed.perform scene).Meets True fun _ after => after.actor.IsConnected := by
  by_cases detaches : ∃ rank, deed = .detachPeer rank
  · obtain ⟨rank, rfl⟩ := detaches
    refine Action.meets_bind ?_
    rw [Node.detachPeer, Action.bind_done (Scene.self_apply _)]
    split
    · next attached =>
      refine connected.detached fun own => ?_
      rw [own, connected.alone] at attached
      cases attached
    · exact connected
  · have only := Deed.onlyPools fun rank same => detaches ⟨rank, same⟩
    exact (only scene).mono fun _ _ changed => changed ▸ connected.pool _

/-! ## Attaching -/

section

variable {world : World}

/-- The segment of a peer that has been attached is longer than offsets can express, or the rank is
one that they cannot. -/
def Oversteps (directory : String) (rank : UInt32) (world : World) : Prop :=
  ∃ segment after, Segment.attach directory rank world = .done segment after ∧
    (maxRank < rank.toNat ∨ maxSegmentSize < segment.size)

/-- Nothing has come of attaching a peer. -/
structure Unchanged (node : Node) (world : World) (state : Node × World) : Prop where
  node : state.1 = node
  memory : state.2.memory = world.memory
  disk : state.2.disk = world.disk
  segments : state.2.segments = world.segments

/-- The node reaches every byte of a segment through offsets of its rank. -/
def Reaches (node : Node) (rank : UInt32) (segment : Segment) : Prop :=
  node.segmentOf? rank = some segment ∧ ∀ position < segment.size, ∃ offset,
    Offset.ofRank? rank (UInt32.ofNat position) = some offset ∧
      node.addresses.address offset = .ok (segment.addressAt position)

theorem IsConnected.reaches (connected : node.IsConnected) {segment : Segment}
    (found : node.segmentOf? rank = some segment) : node.Reaches rank segment := by
  refine ⟨found, fun position inside => ?_⟩
  have known : node.addresses.find? rank = some segment.mapping := by
    rw [connected.known, found]
    rfl
  exact AddressMap.address_of_expressible known (connected.expressible found) inside

/-- How it ends when a node attaches a peer: it knows the peer already, or the segment of the peer
is waited for, or it is refused, or offsets cannot express it, or there is one peer more. -/
inductive AttachEnds (node : Node) (world : World) (rank : UInt32) :
    Outcome (Node × World) Unit → Prop
  | known {segment : Segment} (found : node.segmentOf? rank = some segment) :
      AttachEnds node world rank (.done () (node, world))
  | waits (missing : node.segmentOf? rank = none)
      (hangs : Segment.attach node.directory rank world = .hung) :
      AttachEnds node world rank .hung
  | refused {fault : Fault} {after : World} (missing : node.segmentOf? rank = none)
      (fails : Segment.attach node.directory rank world = .failed fault after)
      (unchanged : Unchanged node world (node, after)) :
      AttachEnds node world rank (.failed fault (node, after))
  | oversteps {segment : Segment} {after : World} (missing : node.segmentOf? rank = none)
      (attached : Segment.attach node.directory rank world = .done segment after)
      (strange : ¬AddressMap.IsExpressible rank segment.mapping) :
      AttachEnds node world rank (.aborted (.unaddressable rank))
  | joins {segment : Segment} {after : World} {known : AddressMap}
      (missing : node.segmentOf? segment.rank = none) (named : segment.rank = rank)
      (attached : Segment.attach node.directory rank world = .done segment after)
      (memory : after.memory = world.memory) (disk : after.disk = world.disk)
      (registered : node.addresses.register segment.rank segment.mapping = .ok known) :
      AttachEnds node world rank (.done () (node.attached segment known, after))

/-- There is no other end, unless a file is mapped at the address zero. -/
theorem attachPeer_ends (node : Node) (positive : 0 < world.nextBase) (rank : UInt32) :
    AttachEnds node world rank (attachPeer rank (node, world)) := by
  rw [attachPeer, Action.bind_done (Action.look_apply _ _)]
  cases found : node.segmentOf? rank with
  | some segment => exact .known found
  | none =>
      simp only [Option.isSome_none, Bool.false_eq_true, if_false, Action.bind_apply,
        Action.within_apply]
      rcases Segment.attach_cases node.directory rank world with ⟨_, hangs⟩ | ⟨_, meets⟩
      · simp only [hangs, Outcome.mapState]
        exact .waits found hangs
      · cases ends : Segment.attach node.directory rank world with
        | done segment after =>
            rw [ends] at meets
            obtain ⟨memory, disk, joins⟩ := meets
            obtain rfl : segment.rank = rank := congrArg Segment.rank joins.maps
            have base : segment.file.base = world.nextBase :=
              congrArg (MappedFile.base ∘ Segment.file) joins.maps
            have somewhere : segment.mapping.base ≠ 0 :=
              Nat.ne_of_gt (Nat.lt_of_lt_of_eq positive base.symm)
            rcases node.addresses.register_cases segment.rank somewhere
              with ⟨strange, cause⟩ | ⟨_, known, registered⟩
            · simp only [Outcome.mapState, cause]
              exact .oversteps found ends strange
            · simp only [Outcome.mapState, registered]
              exact .joins found rfl ends memory disk registered
        | failed fault after =>
            rw [ends] at meets
            obtain ⟨memory, disk, refuses⟩ := meets
            exact .refused found ends ⟨rfl, memory, disk, refuses.segments⟩
        | aborted cause =>
            rw [ends] at meets
            exact meets.elim
        | hung =>
            rw [ends] at meets
            exact meets.elim

end

namespace AttachEnds

variable {world : World} {outcome : Outcome (Node × World) Unit} {state : Node × World}

theorem connected (ends : AttachEnds node world rank outcome) (connected : node.IsConnected)
    (comes : outcome.state? = some state) : state.1.IsConnected := by
  cases ends with
  | known found =>
      obtain rfl := Option.some.inj comes
      exact connected
  | waits missing hangs => cases comes
  | refused missing fails unchanged =>
      obtain rfl := Option.some.inj comes
      exact connected
  | oversteps missing attached strange => cases comes
  | joins missing named attached memory disk registered =>
      obtain rfl := Option.some.inj comes
      exact connected.attached missing registered

theorem aborted_iff (ends : AttachEnds node world rank outcome) (cause : Abort) :
    outcome = .aborted cause ↔ cause = .unaddressable rank ∧ node.segmentOf? rank = none ∧
      Oversteps node.directory rank world := by
  cases ends with
  | known found =>
      refine iff_of_false (by simp) fun both => ?_
      rw [found] at both
      cases both.2.1
  | waits missing hangs =>
      refine iff_of_false (by simp) fun ⟨_, _, _, _, attached, _⟩ => ?_
      rw [hangs] at attached
      cases attached
  | refused missing fails unchanged =>
      refine iff_of_false (by simp) fun ⟨_, _, _, _, attached, _⟩ => ?_
      rw [fails] at attached
      cases attached
  | @oversteps segment after missing attached strange =>
      have beyond : maxRank < rank.toNat ∨ maxSegmentSize < segment.size := by
        by_contra inside
        have rank : rank.toNat ≤ maxRank := by omega
        have size : segment.size ≤ maxSegmentSize := by omega
        exact strange ⟨rank, size⟩
      rw [Outcome.aborted.injEq]
      exact ⟨fun same => ⟨same.symm, missing, segment, after, attached, beyond⟩,
        fun both => both.1.symm⟩
  | @joins segment after known missing named attached memory disk registered =>
      refine iff_of_false (by simp) fun ⟨_, _, _, _, again, beyond⟩ => ?_
      rw [attached] at again
      obtain ⟨rfl, rfl⟩ := Outcome.done.inj again
      have fits := AddressMap.expressible_of_register registered
      have rank := named ▸ fits.rank
      have size : segment.size ≤ maxSegmentSize := fits.size
      omega

theorem hung_iff (ends : AttachEnds node world rank outcome) : outcome = .hung ↔
    node.segmentOf? rank = none ∧ Segment.attach node.directory rank world = .hung := by
  cases ends with
  | known found =>
      refine iff_of_false (by simp) fun both => ?_
      rw [found] at both
      cases both.1
  | waits missing hangs => exact iff_of_true rfl ⟨missing, hangs⟩
  | refused missing fails unchanged =>
      refine iff_of_false (by simp) fun both => ?_
      rw [fails] at both
      cases both.2
  | oversteps missing attached strange =>
      refine iff_of_false (by simp) fun both => ?_
      rw [attached] at both
      cases both.2
  | joins missing named attached memory disk registered =>
      refine iff_of_false (by simp) fun both => ?_
      rw [attached] at both
      cases both.2

/-- What is refused leaves nothing behind. -/
theorem unchanged {fault : Fault} (ends : AttachEnds node world rank outcome)
    (fails : outcome = .failed fault state) : Unchanged node world state := by
  cases ends with
  | refused missing refuses unchanged =>
      obtain ⟨rfl, rfl⟩ := Outcome.failed.inj fails
      exact unchanged
  | _ => cases fails

/-- What all other ranks stand for stays. -/
theorem others (ends : AttachEnds node world rank outcome) (done : outcome = .done () state) :
    state.2.memory = world.memory ∧ state.2.disk = world.disk ∧
      (state.1.segmentOf? rank).isSome ∧
      ∀ other, other ≠ rank → state.1.segmentOf? other = node.segmentOf? other ∧
        state.1.addresses.find? other = node.addresses.find? other := by
  cases ends with
  | known found =>
      obtain ⟨-, rfl⟩ := Outcome.done.inj done
      exact ⟨rfl, rfl, Option.isSome_of_eq_some found, fun _ _ => ⟨rfl, rfl⟩⟩
  | @joins segment after known missing named attached memory disk registered =>
      obtain ⟨-, rfl⟩ := Outcome.done.inj done
      obtain rfl := named
      have differs : segment.rank ≠ node.rank := fun own => by
        rw [segmentOf?, if_pos own] at missing
        cases missing
      have finds := segmentOf?_attached differs known
      refine ⟨memory, disk, by rw [finds, if_pos rfl]; rfl, fun other apart => ?_⟩
      exact ⟨(finds other).trans (if_neg apart),
        (AddressMap.find?_register registered other).trans (if_neg apart)⟩
  | _ => cases done

end AttachEnds

/-- Every node is connected. -/
theorem Reached.connected (reached : node.Reached) : node.IsConnected := by
  induction reached with
  | create created => exact create_connected created
  | attach reached positive ends ih =>
      exact (attachPeer_ends _ positive _).connected ih ends
  | perform reached ends ih => exact (ih.perform _).post_of_state ends

/-- **Attaching a peer.** Whatever lies under the name of a rank, a node that attaches it has one of
these ends:

* it aborts exactly if it does not know the rank, the segment says what it should, and the rank or
  the length of the segment is more than an offset can express;
* it waits for ever exactly if it does not know the rank and the segment is waited for;
* it is told a fault, and then knows what it has known, and nothing has been written;
* it has attached the peer, and then reaches every byte of the segment through offsets of that rank,
  while all other ranks stand for what they stood for. -/
theorem Reached.attachPeer_aborts_iff {world : World} (reached : node.Reached)
    (positive : 0 < world.nextBase) (rank : UInt32) :
    (∀ cause, attachPeer rank (node, world) = .aborted cause ↔
      cause = .unaddressable rank ∧ node.segmentOf? rank = none ∧
        Oversteps node.directory rank world) ∧
    (attachPeer rank (node, world) = .hung ↔
      node.segmentOf? rank = none ∧ Segment.attach node.directory rank world = .hung) ∧
    (∀ fault state, attachPeer rank (node, world) = .failed fault state →
      Unchanged node world state) ∧
    ∀ state, attachPeer rank (node, world) = .done () state →
      state.2.memory = world.memory ∧ state.2.disk = world.disk ∧
      (∃ segment, state.1.Reaches rank segment) ∧
      ∀ other, other ≠ rank → state.1.segmentOf? other = node.segmentOf? other ∧
        state.1.addresses.find? other = node.addresses.find? other := by
  have ends := attachPeer_ends node positive rank
  refine ⟨ends.aborted_iff, ends.hung_iff, fun fault state fails => ends.unchanged fails,
    fun state done => ?_⟩
  obtain ⟨memory, disk, found, others⟩ := ends.others done
  obtain ⟨segment, found⟩ := Option.isSome_iff_exists.mp found
  have connected := ends.connected reached.connected (congrArg Outcome.state? done)
  exact ⟨memory, disk, ⟨segment, connected.reaches found⟩, others⟩

/-! ## A neighbour and a stranger -/

/-- In a directory there is the segment of one rank, and under the name of another rank, which no
offset can express, a file that has the header of a segment. -/
def street : World :=
  ((do
    let _ ← Segment.create "/" 1 1000 false
    World.writeFile (Segment.path "/" 0x80000000) (Segment.controlBytes 0x80000000 385 7 ++ [0]) :
      Action World Unit) (.start 7 [])).state?.get (by decide +kernel)

def resident : Node × World :=
  (Node.create "/" 0 ⟨2048, ⟨64, 128, 256⟩, 2, .busyPoll 1, false, false⟩ street).done?.get
    (by decide +kernel)

theorem reached_resident : resident.1.Reached :=
  .create (Outcome.eq_of_done? (Option.some_get _).symm)

/-- The node attaches its neighbour and reaches all of his segment. -/
theorem attachPeer_neighbour : resident.1.Reached ∧ 0 < resident.2.nextBase ∧
    ∃ state segment, attachPeer 1 (resident.1, resident.2) = .done () state ∧
      state.1.Reaches 1 segment := by
  have positive : 0 < resident.2.nextBase := by decide +kernel
  obtain ⟨-, -, -, attaches⟩ := reached_resident.attachPeer_aborts_iff positive 1
  have done : (attachPeer 1 (resident.1, resident.2)).done?.isSome := by decide +kernel
  obtain ⟨last, found⟩ := Option.isSome_iff_exists.mp done
  have ends : attachPeer 1 (resident.1, resident.2) = .done () last.2 := Outcome.eq_of_done? found
  obtain ⟨-, -, ⟨segment, reaches⟩, -⟩ := attaches last.2 ends
  exact ⟨reached_resident, positive, last.2, segment, ends, reaches⟩

/-- The node attaches the stranger, whose file is accepted, and aborts. -/
theorem attachPeer_stranger_aborts :
    (Segment.attach "/" 0x80000000 resident.2).done?.isSome ∧
      attachPeer 0x80000000 resident = .aborted (.unaddressable 0x80000000) := by
  decide +kernel

end Node

end RankMail
