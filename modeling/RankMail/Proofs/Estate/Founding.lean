import RankMail.Proofs.Estate.Filing
import RankMail.Proofs.Node.Creation

set_option autoImplicit false

/-! # Nodes that are made and that attach

A node that is created has a segment of its own, an arena in which nothing has been carved, and no
peers; a node that attaches a peer has mapped one more segment. Both fit the ground they come to.
-/

namespace RankMail

open Segment

namespace Ground

variable {directory : String} {ground : Ground} {world : World} {rank : UInt32} {node : Node}
  {segment : Segment} {addresses : AddressMap}

theorem Describes.same (describes : ground.Describes directory world) :
    { ground with mapped := world.segments } = ground := by
  rw [← describes.mapped]

theorem fitsNode_fresh (mapped : segment ∈ ground.mapped) (config : Config)
    (registered : (AddressMap.empty segment.rank).register segment.rank segment.mapping =
      .ok addresses) :
    ground.FitsNode directory (.fresh directory segment.rank config segment addresses) where
  home := rfl
  rank := rfl
  mapped := List.forall_mem_cons.mpr ⟨mapped, fun _ inside => nomatch inside⟩
  linked other mapping found := by
    rw [Node.fresh, AddressMap.find?_register registered] at found
    split at found
    · next same => exact ⟨segment, List.mem_cons_self, same.symm, (Option.some.inj found).symm⟩
    · cases found
  pool := (fitsArena_new mapped config.capacities segment.rank).toPool _

theorem Describes.makeSegment_meets (describes : ground.Describes directory world)
    (vacant : ground.Vacant world.memory rank) (config : Config) :
    (Node.makeSegment directory rank config world).Meets False fun result after =>
      match result with
      | .ok segment => (ground.founded (segment.plot world.process) segment).Describes directory
            after ∧
          segment.rank = rank ∧ segment.size = config.segmentSize.toNat ∧
          segment ∉ world.segments ∧ after.segments = segment :: world.segments ∧
          after.process = world.process
      | .error _ => ground.Describes directory after := by
  refine Node.meets_makeSegment (fun _ _ => describes) fun _ => ?_
  refine ((describes.create_founds vacant _ _).both (describes.create_fails rank _ _)).mono ?_
  rintro (fault | segment) after ⟨founds, fails⟩
  · exact fails fault rfl
  · exact founds segment rfl

/-- Making a node of a segment that is mapped. If that fails, the segment is not mapped any more. -/
theorem Describes.ofSegment_meets (describes : ground.Describes directory world)
    (mapped : segment ∈ ground.mapped) (config : Config) :
    (Node.ofSegment directory segment.rank config segment world).Meets True fun result after =>
      match result with
      | .ok node => after = world ∧ ground.FitsNode directory node
      | .error _ => after.segments = world.segments.filter (· != segment) ∧
          Describes directory { ground with mapped := after.segments } after := by
  refine (Node.ofSegment_meets directory segment.rank config segment world).mono ?_
  rintro (fault | node) after ends
  · have closes := describes.close_meets isName_fileName
      (describes.paths segment (describes.mapped ▸ mapped))
    rw [ends] at closes
    exact closes.2
  · obtain ⟨rfl, _, addresses, registered, rfl⟩ := ends
    exact ⟨rfl, fitsNode_fresh mapped config registered⟩

theorem FitsNode.attached (fits : ground.FitsNode directory node) {known : AddressMap}
    (registered : node.addresses.register segment.rank segment.mapping = .ok known) :
    Ground.FitsNode directory { ground with mapped := segment :: ground.mapped }
      { node with addresses := known, peers := segment :: node.peers } where
  home := fits.home
  rank := fits.rank
  mapped other inside := by
    simp only [List.mem_cons] at inside ⊢
    rcases inside with rfl | rfl | inside
    · exact .inr (fits.mapped _ List.mem_cons_self)
    · exact .inl rfl
    · exact .inr (fits.mapped _ (List.mem_cons_of_mem _ inside))
  linked other mapping found := by
    rw [AddressMap.find?_register registered] at found
    split at found
    · next same =>
        exact ⟨segment, List.mem_cons_of_mem _ List.mem_cons_self, same.symm,
          (Option.some.inj found).symm⟩
    · obtain ⟨peer, inside, same⟩ := fits.linked other mapping found
      refine ⟨peer, ?_, same⟩
      exact List.cons_subset_cons _ (List.subset_cons_self ..) inside
  pool := fits.pool.retain ⟨fun _ _ => List.mem_cons_of_mem _, fun _ => id⟩

theorem Describes.attachPeer_meets (describes : ground.Describes directory world)
    (fits : ground.FitsNode directory node) (rank : UInt32) :
    (Node.attachPeer rank (node, world)).Meets True fun _ state =>
      world.segments ⊆ state.2.segments ∧
      Describes directory { ground with mapped := state.2.segments } state.2 ∧
      FitsNode directory { ground with mapped := state.2.segments } state.1 := by
  have unchanged : world.segments ⊆ world.segments ∧
      Describes directory { ground with mapped := world.segments } world ∧
      FitsNode directory { ground with mapped := world.segments } node := by
    rw [describes.same]
    exact ⟨List.Subset.refl _, describes, fits⟩
  rw [Node.attachPeer, Action.bind_done (Action.look_apply _ _)]
  by_cases known : (node.segmentOf? rank).isSome
  · simp only [if_pos known]
    exact unchanged
  · simp only [if_neg known, fits.home]
    refine Action.meets_bind (Action.meets_within.mpr ((describes.attach_meets rank).always ?_))
    rintro (fault | segment) after ends
    · subst ends
      exact unchanged
    · obtain ⟨rfl, segments, attached⟩ := ends
      cases registered : node.addresses.register segment.rank segment.mapping with
      | error cause =>
          exact Action.meets_bind (Action.meets_ofAbort (.inr ⟨⟨cause, registered⟩, trivial⟩))
      | ok known =>
          refine Action.meets_bind (Action.meets_ofAbort (.inl ⟨known, registered, ?_⟩))
          have mapped : after.segments = segment :: ground.mapped :=
            segments.trans (congrArg _ describes.mapped.symm)
          refine ⟨segments ▸ List.subset_cons_self .., ?_, ?_⟩
          · show Describes directory { ground with mapped := after.segments } after
            rw [mapped]
            exact attached
          · show FitsNode directory { ground with mapped := after.segments } _
            rw [mapped]
            exact fits.attached registered

end Ground

end RankMail
