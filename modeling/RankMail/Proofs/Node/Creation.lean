import RankMail.Node
import RankMail.Proofs.Pool.Slots
import RankMail.Proofs.Segment.Lifecycle

set_option autoImplicit false

/-! # How a node comes about

Creating a node makes a segment, and then makes the node of it. By then the file has the name of the
rank, so whoever attaches the rank finds it. If the segment is to be locked in physical memory and
the system refuses, it is closed again, and what becomes of the file is up to the segment:

    makeSegment   file published  -->  ofSegment   node
                                            \
                                             closed, the file removed if that is due

Nothing else can go wrong after the segment has been made, and locking itself changes nothing.
-/

namespace RankMail

variable {directory : String} {rank : UInt32} {config : Config} {segment : Segment}
  {world after : World} {node : Node} {fault : Fault}

namespace Segment

theorem lock_meets (segment : Segment) (world : World) :
    (segment.lock world).Meets False fun _ after => after = world := by
  rw [lock, MappedFile.lock]
  split
  · exact rfl
  · exact rfl

theorem lock_eq (allowed : world.addresses.lockFault = none) (segment : Segment) :
    segment.lock world = .done () world := by
  rw [lock, MappedFile.lock, allowed]

theorem meets_unlessFailed {Value : Type} {stuck : Prop} {action : Action World Value}
    {post : Except Fault Value → World → Prop}
    (meets : (action world).Meets stuck fun result after =>
      match result with
      | .ok value => post (.ok value) after
      | .error fault => ∀ last, segment.close after = .done () last → post (.error fault) last) :
    (segment.unlessFailed action world).Meets stuck post := by
  refine Action.meets_bind (Action.meets_attempt (meets.mono ?_))
  rintro (fault | value) between holds
  · have closes := close_eq segment between
    refine Action.meets_bind ?_
    rw [closes]
    exact holds _ closes
  · exact holds

theorem unlessFailed_done {Value : Type} {action : Action World Value} {value : Value}
    (ends : action world = .done value after) (segment : Segment) :
    segment.unlessFailed action world = .done value after := by
  rw [unlessFailed, Action.bind_done (Action.attempt_done ends)]
  rfl

end Segment

namespace Node

theorem meets_makeSegment {stuck : Prop} {post : Except Fault Segment → World → Prop}
    (refused : ∀ fault, config.validate = .error fault → post (.error fault) world)
    (makes : config.validate = .ok () → (Segment.create directory rank config.segmentSize.toNat
      config.removeOnClose world).Meets stuck post) :
    (makeSegment directory rank config world).Meets stuck post := by
  rw [makeSegment]
  cases valid : config.validate with
  | error fault => exact refused fault valid
  | ok value => exact makes valid

theorem makeSegment_eq (valid : config.validate = .ok ()) :
    makeSegment directory rank config world =
      Segment.create directory rank config.segmentSize.toNat config.removeOnClose world := by
  rw [makeSegment, valid]
  rfl

theorem makeSegment_done (made : makeSegment directory rank config world = .done segment after) :
    config.validate = .ok () ∧ Segment.create directory rank config.segmentSize.toNat
      config.removeOnClose world = .done segment after := by
  cases valid : config.validate with
  | error fault =>
      rw [makeSegment, valid] at made
      cases made
  | ok value => exact ⟨rfl, makeSegment_eq valid ▸ made⟩

theorem makeSegment_named (made : makeSegment directory rank config world = .done segment after) :
    segment.rank = rank ∧ segment.removesFile = config.removeOnClose := by
  have ends := Segment.create_ends directory rank config.segmentSize.toNat config.removeOnClose
    world
  rw [(makeSegment_done made).2] at ends
  obtain ⟨_, _, _, _, _, _, _, _, _, _, _, rfl, _⟩ := ends segment rfl
  exact ⟨rfl, rfl⟩

def fresh (directory : String) (rank : UInt32) (config : Config) (segment : Segment)
    (addresses : AddressMap) : Node :=
  ⟨directory, rank, config, segment, [], addresses,
    .ofArena ⟨segment, config.capacities, rank, #[]⟩ config.growBatch.toNat⟩

/-- The node is fresh, in the addresses that its segment is registered in. -/
def IsFounded (directory : String) (rank : UInt32) (config : Config) (segment : Segment)
    (node : Node) : Prop :=
  ∃ addresses, (AddressMap.empty rank).register rank segment.mapping = .ok addresses ∧
    node = fresh directory rank config segment addresses

theorem ofSegment_meets (directory : String) (rank : UInt32) (config : Config) (segment : Segment)
    (world : World) :
    (ofSegment directory rank config segment world).Meets True fun result after =>
      match result with
      | .ok node => after = world ∧ config.capacities.validate = .ok () ∧
          node.IsFounded directory rank config segment
      | .error _ => segment.close world = .done () after := by
  have locks : ((if config.lockMemory = true then segment.lock else pure ()) world).Meets True
      fun _ between => between = world := by
    split
    · exact (segment.lock_meets world).excuse False.elim
    · exact rfl
  refine Segment.meets_unlessFailed (Action.meets_bind (locks.mono ?_))
  rintro (fault | value) between rfl
  · exact fun _ closes => closes
  · cases registered : (AddressMap.empty rank).register rank segment.mapping with
    | error cause =>
        exact Action.meets_bind (Action.meets_ofAbort (.inr ⟨⟨cause, rfl⟩, trivial⟩))
    | ok addresses =>
        refine Action.meets_bind (Action.meets_ofAbort (.inl ⟨addresses, rfl, ?_⟩))
        dsimp only
        cases arena : Arena.ofSegment segment config.capacities rank with
        | error fault => exact fun _ closes => closes
        | ok arena =>
            obtain ⟨valid, rfl⟩ := Arena.ofSegment_ok arena
            exact ⟨rfl, valid, addresses, registered, rfl⟩

theorem ofSegment_eq {addresses : AddressMap}
    (registered : (AddressMap.empty rank).register rank segment.mapping = .ok addresses)
    (capacities : config.capacities.validate = .ok ())
    (allowed : config.lockMemory = true → world.addresses.lockFault = none) :
    ofSegment directory rank config segment world =
      .done (fresh directory rank config segment addresses) world := by
  have locked : (if config.lockMemory = true then segment.lock else pure ()) world =
      .done () world := by
    split
    · next wanted => exact segment.lock_eq (allowed wanted)
    · rfl
  refine Segment.unlessFailed_done ((Action.bind_done locked _).trans ?_) segment
  rw [registered, Action.bind_done (Action.ofAbort_ok ..), Arena.ofSegment, capacities]
  rfl

/-- Where a node has been created nothing but its segment has been made. If it cannot be created,
neither can its segment; or that has been made, and is closed again. -/
theorem create_ends (directory : String) (rank : UInt32) (config : Config) (world : World) :
    (create directory rank config world).Meets True fun result after =>
      match result with
      | .ok node => ∃ segment, makeSegment directory rank config world = .done segment after ∧
          config.capacities.validate = .ok () ∧ node.IsFounded directory rank config segment
      | .error fault => makeSegment directory rank config world = .failed fault after ∨
          ∃ segment made, makeSegment directory rank config world = .done segment made ∧
            segment.close made = .done () after := by
  rw [create, Action.bind_apply]
  cases made : makeSegment directory rank config world with
  | done segment between =>
      refine (ofSegment_meets directory rank config segment between).mono ?_
      rintro (fault | node) after ends
      · exact .inr ⟨segment, between, rfl, ends⟩
      · obtain ⟨rfl, valid, founded⟩ := ends
        exact ⟨segment, rfl, valid, founded⟩
  | failed fault between => exact .inl rfl
  | aborted cause => trivial
  | hung => trivial

theorem create_done_ends (created : create directory rank config world = .done node after) :
    config.validate = .ok () ∧ ∃ segment,
      Segment.create directory rank config.segmentSize.toNat config.removeOnClose world =
        .done segment after ∧ node.IsFounded directory rank config segment := by
  have ends := create_ends directory rank config world
  rw [created] at ends
  obtain ⟨segment, made, _, founded⟩ := ends
  obtain ⟨valid, made⟩ := makeSegment_done made
  exact ⟨valid, segment, made, founded⟩

end Node

end RankMail
