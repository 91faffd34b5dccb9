import RankMail.PingPong
import RankMail.Proofs.Network.Rally

set_option autoImplicit false

/-! # Round trips

The two nodes of a session are two nodes of a network, and as long as they only send, read and
release, it makes no difference whether they do so in the session or in the network
(`Plays.send`, `Plays.receive`, `Plays.release`). So round trips are a rally in which the two take
turns, and every one of them succeeds (`start_roundTrips`).
-/

namespace RankMail

namespace PingPong

variable {Value : Type} {session : Session} {network after : Network}

/-! ## Two nodes of a network -/

/-- The nodes of a session are those of a network, in the same world. -/
structure Session.IsOf (session : Session) (network : Network) : Prop where
  ping : network.nodes pingRank = some session.ping
  pong : network.nodes pongRank = some session.pong
  world : session.world = network.world

theorem Session.IsOf.congr (isOf : session.IsOf network) (nodes : after.nodes = network.nodes)
    (world : after.world = network.world) : session.IsOf after where
  ping := by rw [nodes, isOf.ping]
  pong := by rw [nodes, isOf.pong]
  world := by rw [world, isOf.world]

theorem differ : pingRank ≠ pongRank := by decide

def Plays (rank : UInt32)
    (side : {Value : Type} → Action (Scene Node) Value → Action Session Value) : Prop :=
  ∀ {Value : Type} {action : Action (Scene Node) Value} {session : Session}
    {network after : Network} {value : Value}, session.IsOf network →
      Network.asNode rank action network = .done value after →
        ∃ last, side action session = .done value last ∧ last.IsOf after

/-- One side plays the rank whose node it finds in a session, acts with, and puts back. -/
theorem plays_of {rank : UInt32} {part : Session → Node} {replace : Scene Node → Session → Session}
    (own : ∀ {session network}, Session.IsOf session network →
      network.nodes rank = some (part session))
    (back : ∀ {session network}, Session.IsOf session network → ∀ scene,
      (replace scene session).IsOf (network.left rank scene)) :
    Plays rank (.within (fun session => session.world.enter (part session)) replace) := by
  intro Value action session network after value isOf acts
  show ∃ last, Action.within _ replace action session = _ ∧ _
  rw [Action.within_apply, isOf.world]
  simp only [Network.asNode, own isOf] at acts
  cases ends : action (network.world.enter (part session)) with
  | done result scene =>
      rw [ends] at acts
      obtain ⟨rfl, rfl⟩ := Outcome.done.inj acts
      exact ⟨_, rfl, back isOf scene⟩
  | failed | aborted | hung =>
      rw [ends] at acts
      cases acts

theorem plays_ping : Plays pingRank asPing := by
  refine plays_of Session.IsOf.ping fun isOf scene => ?_
  exact ⟨Network.nodes_left .., (Network.nodes_left_other differ.symm scene).trans isOf.pong,
    congrArg (World.leave · scene) isOf.world⟩

theorem plays_pong : Plays pongRank asPong := by
  refine plays_of Session.IsOf.pong fun isOf scene => ?_
  exact ⟨(Network.nodes_left_other differ scene).trans isOf.ping, Network.nodes_left ..,
    congrArg (World.leave · scene) isOf.world⟩

namespace Plays

variable {rank peer : UInt32}
  {side : {Value : Type} → Action (Scene Node) Value → Action Session Value}
  {payload : List UInt8} {delivery : Delivery}

theorem send (plays : Plays rank side) (isOf : session.IsOf network)
    (sent : Network.send rank peer payload network = .done () after) :
    ∃ last, side (Node.send peer payload) session = .done () last ∧ last.IsOf after := by
  obtain ⟨_, between, acts, recorded⟩ := Action.done_of_bind sent
  obtain ⟨last, ends, isOfBetween⟩ := plays isOf acts
  obtain ⟨_, rfl⟩ := Outcome.done.inj recorded
  exact ⟨last, ends, isOfBetween.congr rfl rfl⟩

theorem receive (plays : Plays rank side) (isOf : session.IsOf network)
    (received : Network.receive rank network = .done (some delivery) after) :
    delivery.reader = rank ∧ delivery ∈ after.received ∧
      ∃ last, side Node.readQueue session = .done (some delivery.message) last ∧
        last.IsOf after := by
  obtain ⟨message?, read, reads, wraps⟩ := Action.done_of_bind received
  obtain ⟨found?, between, acts, logs⟩ := Action.done_of_bind reads
  obtain ⟨last, ends, isOfBetween⟩ := plays isOf acts
  cases found? with
  | none =>
      obtain ⟨rfl, rfl⟩ := Outcome.done.inj logs
      cases wraps
  | some message =>
      obtain ⟨rfl, rfl⟩ := Outcome.done.inj logs
      obtain ⟨same, rfl⟩ := Outcome.done.inj wraps
      obtain rfl := Option.some.inj same
      exact ⟨rfl, List.mem_cons_self, last, ends, isOfBetween.congr rfl rfl⟩

theorem release (plays : Plays rank side) (isOf : session.IsOf network)
    (reader : delivery.reader = rank) (held : delivery ∈ network.received)
    (released : Network.release delivery network = .done () after) :
    ∃ last, side (Node.release delivery.message) session = .done () last ∧ last.IsOf after := by
  subst reader
  rw [Network.release, Network.withDelivery, Action.bind_done (Action.get_apply _), if_pos held,
    Network.loseDelivery, Action.bind_done (Action.modify_apply _ _)] at released
  obtain ⟨result, between, attempted, released⟩ := Action.done_of_bind released
  have isOfLost : session.IsOf (network.withoutDelivery delivery) := isOf.congr rfl rfl
  cases acts : Network.asNode delivery.reader (Node.release delivery.message)
      (network.withoutDelivery delivery) with
  | done value next =>
      rw [Action.attempt_done acts] at attempted
      obtain ⟨rfl, rfl⟩ := Outcome.done.inj attempted
      obtain ⟨_, rfl⟩ := Outcome.done.inj released
      exact plays isOfLost acts
  | failed fault next =>
      -- A failure is handed on.
      rw [Action.attempt_failed acts] at attempted
      obtain ⟨rfl, rfl⟩ := Outcome.done.inj attempted
      obtain ⟨_, _, _, failed⟩ := Action.done_of_bind released
      cases failed
  | aborted | hung =>
      rw [Action.attempt, acts] at attempted
      cases attempted

end Plays

/-! ## Rounds -/

def pair (payload : List UInt8) : Pair := ⟨pingRank, pongRank, payload⟩

variable {payload : List UInt8} {directory : String} {batch : UInt32 → Nat}
  {pending : UInt32 → List Item}

/-- A round trip is a round. -/
theorem roundTrip_done (isOf : session.IsOf network)
    (round : Rally.Round (pair payload) network after) :
    ∃ last, roundTrip payload session = .done none last ∧ last.IsOf after := by
  obtain ⟨asks, hears, copies, frees, answers, gets, settles⟩ := round
  obtain ⟨asked, asks, isOf⟩ := plays_ping.send isOf asks
  obtain ⟨reader, inside, heard, hears, isOf⟩ := plays_pong.receive isOf hears
  have echoes := congrArg World.memory isOf.world
  obtain ⟨freed, frees, isOf⟩ := plays_pong.release isOf reader inside frees
  obtain ⟨answered, answers, isOf⟩ := plays_pong.send isOf answers
  obtain ⟨reader, inside, replied, gets, isOf⟩ := plays_ping.receive isOf gets
  obtain ⟨last, settles, isOf⟩ := plays_ping.release isOf reader inside settles
  have requested : request payload session = .done () asked := asks
  have answered_done : answer asked = .done () answered := by
    rw [answer, Action.bind_done hears]
    dsimp only
    rw [Action.bind_done (Action.look_apply _ _), echoes, copies, Action.bind_done frees]
    exact answers
  have settled : settle answered = .done () last := by
    rw [settle, Action.bind_done gets]
    exact settles
  refine ⟨last, ?_, isOf⟩
  simp only [roundTrip, Action.bind_done (Action.attempt_done requested),
    Action.bind_done (Action.attempt_done answered_done),
    Action.bind_done (Action.attempt_done settled), Action.pure_apply]

/-- When ping may send, any number of round trips succeeds, and is one of the runs of a rally. -/
theorem roundTrips_reaches (isOf : session.IsOf network)
    (ready : Rally.Ready directory (pair payload) batch network pending) (rounds : Nat) :
    ∃ last after, roundTrips payload rounds session = .done none last ∧ last.IsOf after ∧
      Rally.Reaches (pair payload) (.start network rounds) ⟨after, .finished, .drain⟩ := by
  induction rounds generalizing session network pending with
  | zero => exact ⟨session, network, rfl, isOf, .refl⟩
  | succ left ih =>
      obtain ⟨between, _, round, readyNext⟩ := ready.round differ
      obtain ⟨next, trip, isOfNext⟩ := roundTrip_done isOf round
      obtain ⟨last, after, trips, isOfLast, reaches⟩ := ih isOfNext readyNext
      obtain ⟨_, asks, answers⟩ := round.reaches left
      refine ⟨last, after, ?_, isOfLast, (asks.trans answers).trans reaches⟩
      rw [roundTrips, Action.bind_done trip]
      exact trips

/-! ## From the beginning -/

variable {node joined : Node} {peer : UInt32} {world between : World} {config : Config}
  {ping pong : Node}

theorem attachPeer_of_attached (ends : attached node peer world = .done joined between) :
    Node.attachPeer peer (node, world) = .done () (joined, between) := by
  rw [attached] at ends
  split at ends
  · next found =>
      obtain ⟨rfl, rfl⟩ := Outcome.done.inj ends
      exact found
  all_goals cases ends

theorem segmentOf?_of_attached (ends : attached node peer world = .done joined between) :
    joined.config = node.config ∧ (joined.segmentOf? peer).isSome = true := by
  replace ends := attachPeer_of_attached ends
  have comes := Node.attachPeer_comes (congrArg Outcome.state? ends)
  generalize Node.attachPeer peer (node, world) = outcome at comes ends
  cases comes with
  | known found =>
      obtain ⟨rfl, rfl⟩ := Prod.mk.inj (Outcome.done.inj ends).2
      exact ⟨rfl, found ▸ rfl⟩
  | @joins segment _ _ missing named =>
      obtain ⟨rfl, rfl⟩ := Prod.mk.inj (Outcome.done.inj ends).2
      have differs : segment.rank ≠ node.rank := fun same => by
        rw [Node.segmentOf?, if_pos same] at missing
        cases missing
      exact ⟨rfl, by rw [node.segmentOf?_attached differs, if_pos named.symm]; rfl⟩
  | waits | refused | oversteps => cases ends

theorem create_config {rank : UInt32}
    (created : Node.create directory rank config world = .done node between) :
    node.config = config := by
  obtain ⟨_, _, _, _, _, rfl⟩ := Node.create_done_ends created
  rfl

/-- In a network the node attaches the peer likewise. -/
theorem assembled_attached {rank : UInt32} (assembled : Network.Assembled directory network)
    (ends : attached node peer network.world = .done joined between)
    (found : network.nodes rank = some node) (present : (network.nodes peer).isSome = true) :
    Network.Assembled directory (network.joined rank joined between) := by
  obtain ⟨other, foundPeer⟩ := Option.isSome_iff_exists.mp present
  have attaches : Network.attach rank peer network =
      .done () (network.joined rank joined between) := by
    simp only [Network.attach, found, foundPeer, attachPeer_of_attached ends]
    rfl
  exact assembled.attach (congrArg Outcome.state? attaches)

def IsPair (network : Network) (ping pong : Node) : Prop :=
  ∀ rank, network.nodes rank =
    if rank = pingRank then some ping else if rank = pongRank then some pong else none

theorem IsPair.pingNode (isPair : IsPair network ping pong) :
    network.nodes pingRank = some ping := by
  rw [isPair, if_pos rfl]

theorem IsPair.pongNode (isPair : IsPair network ping pong) :
    network.nodes pongRank = some pong := by
  rw [isPair, if_neg differ.symm, if_pos rfl]

theorem IsPair.isMutual (isPair : IsPair network ping pong)
    (assembled : Network.Assembled directory network)
    (reachesPong : (ping.segmentOf? pongRank).isSome = true)
    (reachesPing : (pong.segmentOf? pingRank).isSome = true) : network.IsMutual := by
  intro rank node other peer found foundPeer
  obtain ⟨_, _, settled⟩ := assembled.reached.settled
  have own : node.segmentOf? rank = some node.segment :=
    settled.sound.charted.own_segment found
  have among : ∀ {rank node}, network.nodes rank = some node →
      rank = pingRank ∨ rank = pongRank := by
    intro rank node found
    rw [isPair] at found
    split_ifs at found with ping pong
    · exact .inl ping
    · exact .inr pong
  rcases among found with rfl | rfl <;> rcases among foundPeer with rfl | rfl
  · rw [own]
    rfl
  · obtain rfl := Option.some.inj (isPair.pingNode.symm.trans found)
    exact reachesPong
  · obtain rfl := Option.some.inj (isPair.pongNode.symm.trans found)
    exact reachesPing
  · rw [own]
    rfl

/-- What has been started where there was no node yet is a network of two nodes that have attached
each other. -/
theorem start_isOf (assembled : Network.Assembled directory network)
    (vacant : ∀ rank, network.nodes rank = none)
    (started : start directory config network.world = .done (ping, pong) world) :
    ∃ after, Network.Assembled directory after ∧ after.IsMutual ∧
      (⟨ping, pong, world⟩ : Session).IsOf after ∧ ping.config = config ∧
      pong.config = config := by
  obtain ⟨alone, one, madePing, started⟩ := Action.done_of_bind started
  obtain ⟨other, two, madePong, started⟩ := Action.done_of_bind started
  obtain ⟨second, three, attachPing, started⟩ := Action.done_of_bind started
  obtain ⟨first, four, attachPong, ends⟩ := Action.done_of_bind started
  obtain ⟨same, rfl⟩ := Outcome.done.inj ends
  obtain ⟨rfl, rfl⟩ := Prod.mk.inj same
  obtain ⟨configPing, reachesPong⟩ := segmentOf?_of_attached attachPong
  obtain ⟨configPong, reachesPing⟩ := segmentOf?_of_attached attachPing
  -- The same is done in the network, step by step.
  have made := (assembled.create (vacant _) madePing).create
    ((Network.nodes_joined_other differ.symm ..).trans (vacant _)) madePong
  have half := assembled_attached made attachPing (Network.nodes_joined_self ..)
    (by simp [Network.nodes_joined_other differ])
  have whole : Network.Assembled directory (Network.joined _ pingRank first four) :=
    assembled_attached half attachPong (by simp [Network.nodes_joined_other differ]) (by simp)
  have isPair : IsPair (((network.joined pingRank alone one).joined pongRank other two).joined
      pongRank second three |>.joined pingRank first four) first second := by
    intro rank
    simp only [Network.joined, Function.update_apply, vacant]
    split_ifs <;> rfl
  exact ⟨_, whole, isPair.isMutual whole reachesPong reachesPing,
    ⟨isPair.pingNode, isPair.pongNode, rfl⟩,
    configPing.trans (create_config madePing), configPong.trans (create_config madePong)⟩

/-- **Round trips succeed.** Once two nodes have been made where there was none, and have attached
each other, and a class of theirs holds the payload, every round trip succeeds, however many there
are. They are a run of a rally of two nodes, after which ping has finished and pong is about to
drain its queue. -/
theorem start_roundTrips (assembled : Network.Assembled directory network)
    (vacant : ∀ rank, network.nodes rank = none)
    (started : start directory config network.world = .done (ping, pong) world)
    (held : ∃ sizeClass, payload.length ≤ config.capacities.capacity sizeClass) (rounds : Nat) :
    ∃ begun last after, Network.Assembled directory begun ∧ begun.IsMutual ∧
      (⟨ping, pong, world⟩ : Session).IsOf begun ∧
      roundTrips payload rounds ⟨ping, pong, world⟩ = .done none last ∧ last.IsOf after ∧
      Rally.Reaches (pair payload) (.start begun rounds) ⟨after, .finished, .drain⟩ := by
  obtain ⟨begun, whole, attached, isOf, configPing, configPong⟩ :=
    start_isOf assembled vacant started
  have fits : ∀ rank ∈ (pair payload).ranks, ∃ node, begun.nodes rank = some node ∧
      ∃ sizeClass, payload.length ≤ node.config.capacities.capacity sizeClass := by
    intro rank member
    rcases List.mem_pair.mp member with rfl | rfl
    · exact ⟨ping, isOf.ping, configPing ▸ held⟩
    · exact ⟨pong, isOf.pong, configPong ▸ held⟩
  obtain ⟨_, ready⟩ := Rally.start_ready whole attached fits
  obtain ⟨last, after, trips, isOfLast, reaches⟩ := roundTrips_reaches isOf ready rounds
  exact ⟨begun, last, after, whole, attached, isOf, trips, isOfLast, reaches⟩

example : ((start "/" Network.smallConfig (.start 7 [])).done?).isSome = true := by decide +kernel

end PingPong

end RankMail
