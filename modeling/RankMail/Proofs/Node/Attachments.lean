import RankMail.Proofs.Node.Peers

set_option autoImplicit false

/-! # The tables of a node

A node keeps what it has attached in two tables: its peers, each a segment, and its address map,
each a base and a length. Every call changes both or neither:

    attachPeer rank       known already     neither
                          refused           neither
                          accepted          a peer more and a mapping more
    attachPeers ranks     as far as the first that is refused
    detachPeer rank       a peer            the peer and its mapping are gone
                          none              neither

So the two always name the same ranks (`Becomes.tables_agree`), and a rank that an offset from the
queue could be resolved for is one that the node has the segment of.
-/

namespace RankMail

/-! ## Reasons to abort -/

section

variable {State Part Value Result : Type} {cause : Abort} {state : State}

theorem Action.bind_ne_aborted {action : Action State Value} {next : Value → Action State Result}
    (one : action state ≠ .aborted cause)
    (two : ∀ value between, action state = .done value between →
      next value between ≠ .aborted cause) :
    (action >>= next) state ≠ .aborted cause := by
  rw [Action.bind_apply]
  cases first : action state with
  | done value between => exact two value between first
  | failed fault after => exact fun aborts => by cases aborts
  | aborted other =>
      rintro ⟨⟩
      exact one first
  | hung => exact fun aborts => by cases aborts

theorem Action.ofAbort_bind_ne_aborted {value : Except Abort Value}
    {next : Value → Action State Result} (one : value ≠ .error cause)
    (two : ∀ found, value = .ok found → next found state ≠ .aborted cause) :
    (Action.ofAbort value >>= next) state ≠ .aborted cause := by
  cases value with
  | ok found => exact two found rfl
  | error other =>
      rintro ⟨⟩
      exact one rfl

theorem Action.within_bind_ne_aborted {part : State → Part} {replace : Part → State → State}
    {action : Action Part Value} {next : Value → Action State Result}
    (one : action (part state) ≠ .aborted cause)
    (two : ∀ value inner, next value (replace inner state) ≠ .aborted cause) :
    (Action.within part replace action >>= next) state ≠ .aborted cause := by
  rw [Action.bind_apply, Action.within_apply]
  cases ends : action (part state) with
  | done value inner => exact two value inner
  | failed fault inner => exact fun aborts => by cases aborts
  | aborted other =>
      rintro ⟨⟩
      exact one ends
  | hung => exact fun aborts => by cases aborts

/-- An action that never aborts for a certain reason. -/
def Action.Spares (cause : Abort) (action : Action State Value) : Prop :=
  ∀ state, action state ≠ .aborted cause

namespace Action.Spares

variable {action : Action State Value} {next : Value → Action State Result}

theorem pure (value : Value) : Spares cause (Pure.pure value : Action State Value) :=
  fun _ aborts => by cases aborts

theorem fail (fault : Fault) : Spares cause (.fail fault : Action State Value) :=
  fun _ aborts => by cases aborts

theorem look (view : State → Value) : Spares cause (.look view) := fun _ aborts => by cases aborts

theorem modify (change : State → State) : Spares cause (.modify change) :=
  fun _ aborts => by cases aborts

theorem ofAbort {value : Except Abort Value} (differs : value ≠ .error cause) :
    Spares cause (.ofAbort value : Action State Value) := by
  intro state aborts
  cases value with
  | ok value => cases aborts
  | error other =>
      obtain rfl := Outcome.aborted.inj aborts
      exact differs rfl

theorem bind (one : action.Spares cause) (two : ∀ value, (next value).Spares cause) :
    (action >>= next).Spares cause :=
  fun state => Action.bind_ne_aborted (one state) fun value between _ => two value between

theorem within {part : State → Part} {replace : Part → State → State}
    {action : Action Part Value} (spares : action.Spares cause) :
    Spares cause (.within part replace action) := by
  intro state aborts
  rw [Action.within_apply] at aborts
  cases ends : action (part state) with
  | aborted other =>
      rw [ends] at aborts
      obtain rfl := Outcome.aborted.inj aborts
      exact spares _ ends
  | done | failed | hung =>
      rw [ends] at aborts
      cases aborts

theorem attempt (spares : action.Spares cause) : Spares cause (.attempt action) := by
  intro state aborts
  rw [Action.attempt] at aborts
  cases ends : action state with
  | aborted other =>
      rw [ends] at aborts
      obtain rfl := Outcome.aborted.inj aborts
      exact spares _ ends
  | done | failed | hung =>
      rw [ends] at aborts
      cases aborts

end Action.Spares

end

namespace AddressMap

variable {map : AddressMap} {offset other : Offset}

/-- What an address map says of an offset, it says without regard to segments. -/
theorem address_ne_unattached : map.address offset ≠ .error (.unattached other) := by
  rw [address]
  split
  · exact fun aborts => by cases aborts
  · cases found : map.find? offset.rank with
    | none => simp [expect_of_none found, bind, Except.bind]
    | some mapping =>
        simp only [expect, found, bind, Except.bind]
        split <;> exact fun aborts => by cases aborts

theorem resolve_ne_unattached : map.resolve offset ≠ .error (.unattached other) := by
  rw [resolve]
  cases found : map.find? offset.rank with
  | none => simp [expect_of_none found, bind, Except.bind]
  | some mapping =>
      simp only [expect, found, bind, Except.bind]
      split
      · exact fun aborts => by cases aborts
      · cases translated : map.address offset with
        | error cause =>
            rintro ⟨⟩
            exact address_ne_unattached translated
        | ok address =>
            dsimp only
            split <;> exact fun aborts => by cases aborts

theorem header_ne_unattached : map.header offset ≠ .error (.unattached other) := by
  rw [header]
  cases resolved : map.resolve offset with
  | error cause =>
      rintro ⟨⟩
      exact resolve_ne_unattached resolved
  | ok address =>
      simp only [place, bind, Except.bind]
      cases translated : map.address offset with
      | error cause =>
          rintro ⟨⟩
          exact address_ne_unattached translated
      | ok address =>
          cases found : map.find? offset.rank with
          | none => simp [expect_of_none found]
          | some mapping => simp [expect, found]

end AddressMap

section

variable {other : Offset}

theorem Queue.dequeue_spares (queue : Queue) : queue.dequeue.Spares (.unattached other) := by
  refine .bind (fun _ aborts => by cases aborts) fun first => ?_
  split
  · exact .pure none
  · refine .bind (.ofAbort AddressMap.header_ne_unattached) fun place => ?_
    refine .bind (.look _) fun next => ?_
    split
    · exact fun _ aborts => by cases aborts
    · split
      · exact .bind (.modify _) fun _ => .pure _
      · refine .bind (fun memory aborts => ?_) fun released => ?_
        · rw [Queue.releaseTail] at aborts
          split at aborts <;> cases aborts
        · split
          · exact .pure _
          · refine .bind (.bind (.look _) fun late => ?_) fun _ =>
              .bind (.modify _) fun _ => .pure _
            split
            · exact fun _ aborts => by cases aborts
            · exact .pure _

theorem Pool.recycle_spares (address : Nat) :
    (Pool.recycle address).Spares (.unattached other) := by
  refine .bind (.look _) fun pool => ?_
  dsimp only
  split
  · exact .fail _
  · refine .bind (.look _) fun slot => ?_
    cases pool.arena.descriptor? slot with
    | none => exact fun _ aborts => by cases aborts
    | some descriptor =>
        dsimp only
        split
        · exact fun _ aborts => by cases aborts
        · refine .bind (.bind (.look _) fun found => ?_) fun _ => ?_
          · split
            · exact .modify _
            · exact .pure ()
          · exact .bind (.look _) fun _ => .bind (.within (.modify _)) fun _ =>
              .bind (.look _) fun _ => .modify _

end

namespace Node

variable {node : Node} {rank : UInt32}

/-! ## Both tables -/

def peerRanks (node : Node) : List UInt32 := node.peers.map Segment.rank

theorem mem_peerRanks : rank ∈ node.peerRanks ↔ (node.peer? rank).isSome := by
  rw [peerRanks, peer?, List.find?_isSome, List.mem_map]
  simp

/-- What a node has of a rank is its own segment or that of a peer. -/
theorem segmentOf?_isSome_iff :
    (node.segmentOf? rank).isSome ↔ rank = node.rank ∨ rank ∈ node.peerRanks := by
  rw [mem_peerRanks, segmentOf?]
  split
  case isTrue own => simp [own]
  case isFalse differs => simp [differs]

/-- The tables of a node that has come of another one agree, and still hold the segment of the
first. -/
structure Agrees (made node : Node) : Prop extends node.IsConnected where
  unique : node.peerRanks.Nodup
  rank : node.rank = made.rank
  segment : node.segment = made.segment

variable {made : Node}

theorem Agrees.not_mem (agrees : made.Agrees node) : node.rank ∉ node.peerRanks := by
  rw [mem_peerRanks, agrees.alone]
  exact Bool.false_ne_true

/-- A mapping is registered for exactly the ranks that the node has the segment of. -/
theorem Agrees.isRegistered_iff (agrees : made.Agrees node) (rank : UInt32) :
    node.addresses.isRegistered rank = true ↔ (node.segmentOf? rank).isSome = true := by
  rw [AddressMap.isRegistered, agrees.known, Option.isSome_map]

theorem Agrees.pool (agrees : made.Agrees node) (pool : Pool) :
    made.Agrees { node with pool } where
  toIsConnected := agrees.toIsConnected.pool pool
  unique := agrees.unique
  rank := agrees.rank
  segment := agrees.segment

theorem create_agrees {directory : String} {config : Config} {world after : World}
    (created : Node.create directory rank config world = .done made after) :
    made.rank = rank ∧ made.Agrees made := by
  have connected := create_connected created
  obtain ⟨_, segment, _, addresses, _, rfl⟩ := create_done_ends created
  exact ⟨rfl, connected, List.nodup_nil, rfl, rfl⟩

/-- What comes of detaching: whether there was such a peer, and the node without it. -/
theorem detachPeer_eq (scene : Scene Node) (rank : UInt32) :
    detachPeer rank scene = .done (decide (rank ∈ scene.actor.peerRanks))
      { scene with
        actor := if rank ∈ scene.actor.peerRanks then scene.actor.detached rank
          else scene.actor } := by
  rw [detachPeer, Action.bind_done (Scene.self_apply _)]
  by_cases attached : rank ∈ scene.actor.peerRanks
  · rw [if_pos (mem_peerRanks.mp attached), if_pos attached, decide_eq_true attached]
    rfl
  · rw [if_neg fun isSome => attached (mem_peerRanks.mpr isSome), if_neg attached,
      decide_eq_false attached]
    rfl

theorem mem_peerRanks_detached {other : UInt32} :
    other ∈ (node.detached rank).peerRanks ↔ other ∈ node.peerRanks ∧ other ≠ rank := by
  simp only [peerRanks, detached, List.mem_map, List.mem_filter, bne_iff_ne]
  constructor
  · rintro ⟨segment, ⟨inside, differs⟩, rfl⟩
    exact ⟨⟨segment, inside, rfl⟩, differs⟩
  · rintro ⟨⟨segment, inside, rfl⟩, differs⟩
    exact ⟨segment, ⟨inside, differs⟩, rfl⟩

theorem Agrees.detached (agrees : made.Agrees node) (attached : rank ∈ node.peerRanks) :
    made.Agrees (node.detached rank) where
  toIsConnected := agrees.toIsConnected.detached fun own => agrees.not_mem (own ▸ attached)
  unique := agrees.unique.sublist (List.filter_sublist.map Segment.rank)
  rank := agrees.rank
  segment := agrees.segment

theorem Agrees.perform {scene after : Scene Node} (agrees : made.Agrees scene.actor) {deed : Deed}
    (ends : (deed.perform scene).state? = some after) : made.Agrees after.actor := by
  by_cases detaches : ∃ rank, deed = .detachPeer rank
  · obtain ⟨rank, rfl⟩ := detaches
    rw [Deed.perform, Action.bind_done (detachPeer_eq scene rank)] at ends
    obtain rfl := Option.some.inj ends
    by_cases attached : rank ∈ scene.actor.peerRanks
    · rw [if_pos attached]
      exact agrees.detached attached
    · rw [if_neg attached]
      exact agrees
  · have only := Deed.onlyPools (fun rank same => detaches ⟨rank, same⟩) scene
    rw [only.post_of_state ends]
    exact agrees.pool _

/-! ## Attaching -/

variable {world : World} {state : Node × World}

/-- If attaching comes to an end, the file has not been mapped at the address zero. -/
theorem attachPeer_comes (ends : (attachPeer rank (node, world)).state? = some state) :
    AttachEnds node world rank (attachPeer rank (node, world)) := by
  rcases Nat.eq_zero_or_pos world.nextBase with zero | positive
  · rw [attachPeer, Action.bind_done (Action.look_apply _ _)] at ends ⊢
    cases found : node.segmentOf? rank with
    | some segment => exact .known found
    | none =>
        simp only [found, Option.isSome_none, Bool.false_eq_true, if_false, Action.bind_apply,
          Action.within_apply] at ends ⊢
        rcases Segment.attach_cases node.directory rank world with ⟨_, hangs⟩ | ⟨_, meets⟩
        · rw [hangs] at ends
          cases ends
        · cases attached : Segment.attach node.directory rank world with
          | done segment after =>
              rw [attached] at ends meets
              obtain ⟨_, _, joins⟩ := meets
              have base : segment.mapping.base = 0 :=
                (congrArg (MappedFile.base ∘ Segment.file) joins.maps).trans zero
              simp only [Outcome.mapState, AddressMap.register, if_pos base] at ends
              cases ends
          | failed fault after =>
              rw [attached] at meets
              obtain ⟨memory, disk, refuses⟩ := meets
              exact .refused found attached ⟨rfl, memory, disk, refuses.segments⟩
          | aborted cause =>
              rw [attached] at meets
              exact meets.elim
          | hung =>
              rw [attached] at meets
              exact meets.elim
  · exact attachPeer_ends node positive rank

/-- A node that has attached the peers of some ranks has those and the peers it had, of which it
has the same segments. -/
structure Gains (node : Node) (ranks : List UInt32) (after : Node) : Prop where
  rank : after.rank = node.rank
  mem : ∀ other, other ∈ after.peerRanks ↔
    other ∈ node.peerRanks ∨ other ∈ ranks ∧ other ≠ node.rank
  kept : ∀ {other segment}, node.segmentOf? other = some segment →
    after.segmentOf? other = some segment

theorem Gains.refl (node : Node) : node.Gains [] node := ⟨rfl, by simp, id⟩

theorem Gains.cons {between after : Node} {ranks : List UInt32} (one : node.Gains [rank] between)
    (rest : between.Gains ranks after) : node.Gains (rank :: ranks) after where
  rank := rest.rank.trans one.rank
  mem other := by
    rw [rest.mem, one.mem, one.rank, List.mem_singleton, List.mem_cons]
    tauto
  kept found := rest.kept (one.kept found)

namespace AttachEnds

variable {outcome : Outcome (Node × World) Unit}

theorem agrees (ends : AttachEnds node world rank outcome) (agrees : made.Agrees node)
    (comes : outcome.state? = some state) : made.Agrees state.1 := by
  have connected := ends.connected agrees.toIsConnected comes
  cases ends with
  | known found =>
      obtain rfl := Option.some.inj comes
      exact agrees
  | waits missing hangs => cases comes
  | refused missing fails unchanged =>
      obtain rfl := Option.some.inj comes
      exact agrees
  | oversteps missing attached strange => cases comes
  | @joins segment after known missing named attached memory disk registered =>
      obtain rfl := Option.some.inj comes
      have new : segment.rank ∉ node.peerRanks := fun inside => by
        have isSome := segmentOf?_isSome_iff.mpr (.inr inside)
        rw [missing] at isSome
        cases isSome
      exact ⟨connected, List.nodup_cons.mpr ⟨new, agrees.unique⟩, agrees.rank, agrees.segment⟩

theorem gains (ends : AttachEnds node world rank outcome) (done : outcome = .done () state) :
    node.Gains [rank] state.1 := by
  cases ends with
  | @known segment found =>
      obtain ⟨-, rfl⟩ := Outcome.done.inj done
      have inside := segmentOf?_isSome_iff.mp (Option.isSome_of_eq_some found)
      refine ⟨rfl, fun other => ?_, id⟩
      rw [List.mem_singleton]
      refine ⟨.inl, ?_⟩
      rintro (old | ⟨rfl, differs⟩)
      · exact old
      · exact inside.resolve_left differs
  | @joins segment after known missing named attached memory disk registered =>
      obtain ⟨-, rfl⟩ := Outcome.done.inj done
      obtain rfl := named
      have differs : segment.rank ≠ node.rank := fun own => by
        rw [segmentOf?, if_pos own] at missing
        cases missing
      refine ⟨rfl, fun other => ?_, fun {other old} found => ?_⟩
      · show other ∈ segment.rank :: node.peerRanks ↔ _
        rw [List.mem_cons, List.mem_singleton]
        constructor
        · rintro (rfl | old)
          · exact .inr ⟨rfl, differs⟩
          · exact .inl old
        · rintro (old | ⟨rfl, -⟩)
          · exact .inr old
          · exact .inl rfl
      · rw [segmentOf?_attached differs, if_neg, found]
        rintro rfl
        rw [found] at missing
        cases missing
  | _ => cases done

end AttachEnds

theorem attachPeer_failed {fault : Fault}
    (fails : attachPeer rank (node, world) = .failed fault state) : state.1 = node :=
  ((attachPeer_comes (congrArg Outcome.state? fails)).unchanged fails).node

section

variable {ranks : List UInt32}

/-- Attaching some peers ends with the last of them, or with the first that fails. -/
theorem attachPeers_cases (ends : (attachPeers ranks (node, world)).state? = some state) :
    (attachPeers ranks (node, world) = .done () state ∧ node.Gains ranks state.1) ∨
      ∃ fault before failing rest between, ranks = before ++ failing :: rest ∧
        attachPeers before (node, world) = .done () between ∧
        attachPeer failing between = .failed fault state ∧
        attachPeers ranks (node, world) = .failed fault state ∧
        node.Gains before state.1 := by
  induction ranks generalizing node world with
  | nil =>
      obtain rfl := Option.some.inj ends
      exact .inl ⟨rfl, .refl node⟩
  | cons rank rest ih =>
      rw [attachPeers] at ends ⊢
      cases first : attachPeer rank (node, world) with
      | done value between =>
          have gains := (attachPeer_comes (congrArg Outcome.state? first)).gains first
          rw [Action.bind_done first] at ends ⊢
          rcases ih ends with ⟨done, more⟩ |
            ⟨fault, before, failing, last, middle, rfl, done, refused, fails, more⟩
          · exact .inl ⟨done, gains.cons more⟩
          · refine .inr ⟨fault, rank :: before, failing, last, middle, rfl, ?_, refused, fails,
              gains.cons more⟩
            rw [attachPeers, Action.bind_done first]
            exact done
      | failed fault after =>
          rw [Action.bind_apply, first] at ends ⊢
          obtain rfl := Option.some.inj ends
          exact .inr ⟨fault, [], rank, rest, (node, world), rfl, rfl, first, rfl,
            attachPeer_failed first ▸ .refl node⟩
      | aborted cause =>
          rw [Action.bind_apply, first] at ends
          cases ends
      | hung =>
          rw [Action.bind_apply, first] at ends
          cases ends

/-- Attaching some peers is attaching them one after the other. -/
theorem Agrees.attachPeers (agrees : made.Agrees node)
    (ends : (attachPeers ranks (node, world)).state? = some state) : made.Agrees state.1 := by
  induction ranks generalizing node world with
  | nil =>
      obtain rfl := Option.some.inj ends
      exact agrees
  | cons rank rest ih =>
      rw [Node.attachPeers, Action.bind_apply] at ends
      cases first : attachPeer rank (node, world) with
      | done value between =>
          have comes := congrArg Outcome.state? first
          rw [first] at ends
          exact ih ((attachPeer_comes comes).agrees agrees comes) ends
      | failed fault after =>
          rw [first] at ends
          obtain rfl := Option.some.inj ends
          rw [attachPeer_failed first]
          exact agrees
      | aborted | hung =>
          rw [first] at ends
          cases ends

end

/-! ## Reading -/

/-- A node that is connected has the segment of every rank that an offset can be resolved for. -/
theorem IsConnected.messageAt (connected : node.IsConnected) {offset : Offset} {address : Nat}
    (resolved : node.addresses.resolve offset = .ok address) :
    ∃ message, node.messageAt offset = .ok message := by
  obtain ⟨mapping, known, _⟩ := AddressMap.resolve_inv resolved
  rw [connected.known] at known
  obtain ⟨segment, found, -⟩ := Option.map_eq_some_iff.mp known
  exact ⟨⟨segment, offset⟩, by rw [Node.messageAt, found]⟩

/-- Whatever there is in memory, reading comes upon no message of a rank that is not attached. -/
theorem IsConnected.readWithin_ne (fuel : Nat) (offset : Offset) :
    ∀ {scene : Scene Node}, scene.actor.IsConnected →
      readWithin fuel scene ≠ .aborted (.unattached offset) := by
  induction fuel with
  | zero => exact fun _ aborts => by cases aborts
  | succ fuel ih =>
      intro scene connected
      rw [readWithin, Action.bind_done (Scene.self_apply _)]
      refine Action.within_bind_ne_aborted (Queue.dequeue_spares _ _) fun taken memory => ?_
      cases taken with
      | none => exact fun aborts => by cases aborts
      | some front =>
          refine Action.ofAbort_bind_ne_aborted AddressMap.resolve_ne_unattached
            fun address resolved => ?_
          refine Action.ofAbort_bind_ne_aborted AddressMap.header_ne_unattached fun place _ => ?_
          rw [Action.bind_done (Action.look_apply _ _)]
          split
          · -- Whatever the pool does, the node knows what it has known.
            refine Action.bind_ne_aborted ?_ fun _ between recycled => ?_
            · refine Action.Spares.bind (.attempt (.within ?_)) (fun _ => .pure ()) _
              exact Pool.recycle_spares address
            · have only := onlyPools_bind (onlyPools_attempt (onlyPools_inPool
                (Pool.recycle address))) (fun _ => onlyPools_pure ()) { scene with memory }
              refine ih ?_
              rw [only.post_of_state (congrArg Outcome.state? recycled)]
              exact connected.pool _
          · obtain ⟨message, found⟩ := connected.messageAt resolved
            refine Action.ofAbort_bind_ne_aborted ?_ fun _ _ aborts => by cases aborts
            rw [found]
            exact fun same => by cases same

/-! ## Calls -/

/-- What a program does with a node: it attaches some peers, or does something without the disk,
detaching among others. -/
inductive Call where
  | attachPeer (rank : UInt32)
  | attachPeers (ranks : List UInt32)
  | does (deed : Deed)

def Call.perform : Call → Action (Node × World) Unit
  | .attachPeer rank => Node.attachPeer rank
  | .attachPeers ranks => Node.attachPeers ranks
  | .does deed => .within (fun state => state.2.enter state.1)
      (fun scene state => (scene.actor, state.2.leave scene)) deed.perform

/-- What has become of a node by calls, the first in front, whether they were done or failed. Each
was made in a world of its own: between two of them anything may have happened to memory and to the
disk. -/
inductive Becomes (made : Node) : List Call → Node → Prop
  | start : Becomes made [] made
  | call {calls : List Call} {node : Node} {call : Call} {world : World} {state : Node × World}
      (becomes : Becomes made calls node)
      (ends : (call.perform (node, world)).state? = some state) :
      Becomes made (calls ++ [call]) state.1

/-- Whatever is done with a node, its tables agree. -/
theorem Agrees.call (agrees : made.Agrees node) {call : Call}
    (ends : (call.perform (node, world)).state? = some state) : made.Agrees state.1 := by
  cases call with
  | attachPeer rank => exact (attachPeer_comes ends).agrees agrees ends
  | attachPeers ranks => exact agrees.attachPeers ends
  | does deed =>
      rw [Call.perform, Action.within_apply, Outcome.state?_mapState,
        Option.map_eq_some_iff] at ends
      obtain ⟨scene, ends, rfl⟩ := ends
      have enters : made.Agrees (world.enter node).actor := agrees
      exact enters.perform ends

theorem Becomes.agrees {calls : List Call} (becomes : made.Becomes calls node)
    (agrees : made.Agrees made) : made.Agrees node := by
  induction becomes with
  | start => exact agrees
  | call becomes ends ih => exact ih.call ends

/-- **The two tables.** Whatever peers a node attaches and detaches, one by one or several at once,
and whatever each of these calls comes to:

* a mapping is registered for the node's own rank and for the ranks of its peers, and for no other
  rank, and it is the mapping of the segment that the node has of that rank;
* no peer is listed twice and the node itself is not listed. Its own mapping is the one of the
  segment that it was made with. Attaching its own rank does nothing, and detaching it does nothing;
* the node has the segment of exactly the ranks that are registered, so reading, whatever there is
  in memory, never comes upon a message of a rank that is not attached;
* detaching takes exactly the one peer away;
* attaching some peers adds exactly them, or, if it fails, exactly those before the first that
  fails; of the ranks that were attached before, the segments stay. -/
theorem Becomes.tables_agree {directory : String} {config : Config} {origin after : World}
    {calls : List Call} (created : Node.create directory rank config origin = .done made after)
    (becomes : made.Becomes calls node) :
    (∀ other, (node.addresses.isRegistered other = true ↔ other = rank ∨ other ∈ node.peerRanks) ∧
      node.addresses.find? other = (node.segmentOf? other).map Segment.mapping) ∧
    (node.peerRanks.Nodup ∧ rank ∉ node.peerRanks ∧ node.segmentOf? rank = some made.segment ∧
      (∀ world, attachPeer rank (node, world) = .done () (node, world)) ∧
      ∀ memory notices, detachPeer rank ⟨node, memory, notices⟩ =
        .done false ⟨node, memory, notices⟩) ∧
    (∀ other, (node.segmentOf? other).isSome = true ↔ node.addresses.isRegistered other = true) ∧
    (∀ memory notices offset,
      readQueue ⟨node, memory, notices⟩ ≠ .aborted (.unattached offset)) ∧
    (∀ other memory notices, ∃ next, detachPeer other ⟨node, memory, notices⟩ =
        .done (decide (other ∈ node.peerRanks)) ⟨next, memory, notices⟩ ∧
      ∀ peer, peer ∈ next.peerRanks ↔ peer ∈ node.peerRanks ∧ peer ≠ other) ∧
    ∀ ranks world state, (attachPeers ranks (node, world)).state? = some state →
      (attachPeers ranks (node, world) = .done () state ∧ node.Gains ranks state.1) ∨
      ∃ fault before failing rest between, ranks = before ++ failing :: rest ∧
        attachPeers before (node, world) = .done () between ∧
        attachPeer failing between = .failed fault state ∧
        attachPeers ranks (node, world) = .failed fault state ∧
        node.Gains before state.1 := by
  obtain ⟨rfl, agreed⟩ := create_agrees created
  have agrees := becomes.agrees agreed
  have own : node.segmentOf? made.rank = some made.segment := by
    rw [segmentOf?, if_pos agrees.rank.symm, agrees.segment]
  have unlisted : made.rank ∉ node.peerRanks := agrees.rank ▸ agrees.not_mem
  refine ⟨fun other => ⟨?_, agrees.known other⟩, ⟨agrees.unique, unlisted, own, fun world => ?_,
    fun memory notices => ?_⟩, fun other => (agrees.isRegistered_iff other).symm,
    fun memory notices offset => ?_, fun other memory notices => ?_,
    fun ranks world state ends => attachPeers_cases ends⟩
  · rw [agrees.isRegistered_iff, segmentOf?_isSome_iff, agrees.rank]
  · rw [attachPeer, Action.bind_done (Action.look_apply _ _), own]
    rfl
  · rw [detachPeer_eq, decide_eq_false unlisted, if_neg unlisted]
  · rw [readQueue, Action.bind_done (Scene.self_apply _)]
    exact agrees.toIsConnected.readWithin_ne _ offset
  · refine ⟨_, detachPeer_eq _ other, fun peer => ?_⟩
    dsimp only
    split
    case isTrue listed => exact mem_peerRanks_detached
    case isFalse missing =>
      refine ⟨fun inside => ⟨inside, ?_⟩, And.left⟩
      rintro rfl
      exact missing inside

/-- The resident after it has attached its neighbour and failed to attach somebody who is not
there. -/
def settler : Node × World :=
  ((attachPeers [1, 5] (resident.1, resident.2)).state?).get (by decide +kernel)

/-- Of two ranks that a node was to attach the first one is registered, for attaching the second one
fails. -/
theorem tables_agree_settler :
    Node.create "/" 0 ⟨2048, ⟨64, 128, 256⟩, 2, .busyPoll 1, false, false⟩ street =
        .done resident.1 resident.2 ∧
      resident.1.Becomes [.attachPeers [1, 5]] settler.1 ∧
      settler.1.addresses.isRegistered 1 = true ∧ settler.1.addresses.isRegistered 5 = false := by
  have created : Node.create "/" 0 ⟨2048, ⟨64, 128, 256⟩, 2, .busyPoll 1, false, false⟩ street =
      .done resident.1 resident.2 := Outcome.eq_of_done? (Option.some_get _).symm
  have ends : ((Call.attachPeers [1, 5]).perform (resident.1, resident.2)).state? = some settler :=
    (Option.some_get _).symm
  have becomes : resident.1.Becomes [.attachPeers [1, 5]] settler.1 := .call .start ends
  have ranks : settler.1.peerRanks = [1] := by decide +kernel
  obtain ⟨registered, -⟩ := becomes.tables_agree created
  refine ⟨created, becomes, (registered 1).1.mpr (.inr ?_), ?_⟩
  · rw [ranks]
    exact List.mem_singleton_self 1
  · rw [Bool.eq_false_iff]
    intro present
    have inside := (registered 5).1.mp present
    rw [ranks] at inside
    exact absurd inside (by decide)

end Node

end RankMail
