import RankMail.Proofs.Network.Receiving

set_option autoImplicit false

/-! # Between operations

Between two operations a network is `Settled`: it is sound, nobody has a slot in hand, and the log
says what is pending, namely whatever has been sent to a rank and has not surfaced there
(`Network.Logged`). Each operation that neither attaches nor detaches leaves a settled network
settled, whether it is done or fails; what has been carved stays carved, a slot that it retires has
a reason, and what is pending changes only as it may (`Operation.Turns`, `Proceeds`).

In a network that `IsWhole` every node has attached every other one, and no operation aborts or
hangs as long as fragments are used only with their own nodes.
-/

namespace RankMail

/-- What has been sent to a rank has surfaced there or is pending, in order; and the messages that
are held have surfaced. -/
structure Network.Logged (network : Network) (pending : UInt32 → List Item) : Prop where
  sent : ∀ rank, network.sentTo rank =
    network.surfacedAt rank ++ (pending rank).filterMap Item.letter
  surfaced : ∀ {delivery}, delivery ∈ network.received →
    delivery.letter ∈ network.surfacedAt delivery.reader

/-- What holds of a network between two operations. -/
structure Settled (directory : String) (mapped : List Segment) (network : Network)
    (pending : UInt32 → List Item) : Prop where
  sound : Sound directory mapped network pending []
  logged : network.Logged pending

/-- Every node has attached every other one, and messages have been read from the mappings that
their readers still have. -/
structure Network.IsWhole (network : Network) : Prop where
  reaches : network.IsMutual
  current : ∀ {delivery node}, delivery ∈ network.received →
    network.nodes delivery.reader = some node →
      node.segmentOf? delivery.message.owner = some delivery.message.segment

/-- How a slot comes to be retired by an operation. -/
inductive Operation.Retires (network : Network) : Operation → Offset → Retirement → Prop
  | drop {fragment : Fragment} (held : fragment ∈ network.fragments) :
      Retires network (.drop fragment) fragment.offset .dropped
  | discard {delivery : Delivery} (read : delivery ∈ network.received) :
      Retires network (.discard delivery) delivery.message.offset .dropped
  | release {delivery : Delivery} {node : Node} (read : delivery ∈ network.received)
      (found : network.nodes delivery.reader = some node)
      (gone : node.segmentOf? delivery.message.owner = none) :
      Retires network (.release delivery) delivery.message.offset .ownerGone
  | writeToPeer {rank peer : UInt32} {fragment : Fragment} (held : fragment ∈ network.fragments)
      (foreign : fragment.segment.rank ≠ rank) :
      Retires network (.writeToPeer rank peer fragment) fragment.offset .foreign
  | free {rank : UInt32} {fragment : Fragment} (held : fragment ∈ network.fragments)
      (foreign : fragment.segment.rank ≠ rank) :
      Retires network (.free rank fragment) fragment.offset .foreign

/-- What an operation may make of what is pending at a rank: it stays as it is; or the rank reads;
or there comes last what is sent to the rank, or a fragment that another rank gives back. -/
inductive Operation.Turns (rank : UInt32) (line : List Item) : Operation → List Item → Prop
  | stay {operation : Operation} : Turns rank line operation line
  | read {rest : List Item} (behind : rest <:+ line) : Turns rank line (.read rank) rest
  | send (source : UInt32) (payload : List UInt8) (offset : Offset) (letter : Letter) :
      Turns rank line (.send source rank payload) (line ++ [⟨offset, some letter⟩])
  | writeToPeer (source : UInt32) (fragment : Fragment) (letter : Letter) :
      Turns rank line (.writeToPeer source rank fragment)
        (line ++ [⟨fragment.offset, some letter⟩])
  | release {delivery : Delivery} (foreign : delivery.reader ≠ rank) :
      Turns rank line (.release delivery) (line ++ [⟨delivery.message.offset, none⟩])

theorem Operation.turns_update {operation : Operation} {pending : UInt32 → List Item}
    {target : UInt32} {line : List Item} (turns : operation.Turns target (pending target) line)
    (rank : UInt32) :
    operation.Turns rank (pending rank) (Function.update pending target line rank) := by
  by_cases same : rank = target
  · subst same
    rwa [Function.update_self]
  · rw [Function.update_of_ne same]
    exact .stay

/-- What an operation makes of a settled network. -/
structure Proceeds (directory : String) (network : Network) (pending : UInt32 → List Item)
    (operation : Operation) (result : Except Fault Unit) (after : Network) : Prop where
  settled : ∃ mapped pendingAfter, Settled directory mapped after pendingAfter ∧
    ∀ rank, operation.Turns rank (pending rank) (pendingAfter rank)
  whole : operation.IsOrderly → network.IsWhole → after.IsWhole
  retired : after.retired = network.retired ∨ ∃ offset reason,
    after.retired = (offset, reason) :: network.retired ∧
      operation.Retires network offset reason ∧ (result = .ok () → reason = .dropped)
  carved : ∀ {offset}, network.IsCarved offset → after.IsCarved offset

/-! ## What whoever uses the nodes does -/

namespace Sound

variable {directory : String} {mapped : List Segment} {network : Network} {rank : UInt32}
  {node : Node} {pending : UInt32 → List Item} {hand : List Offset} {fragment : Fragment}
  {delivery : Delivery} {offset : Offset}

/-- A fragment in hand is given to the user of the node. -/
theorem hold (sound : Sound directory mapped network pending (fragment.offset :: hand))
    (handle : network.IsHandle fragment) :
    Sound directory mapped { network with fragments := fragment :: network.fragments } pending
      hand := by
  refine sound.relabel { network with fragments := fragment :: network.fragments } rfl rfl
    (fun inside => ?_) sound.read (sound.exact.move
    { differ := (by simp : Location.hand ≠ .held)
      taken := .refl _
      put := .refl _
      others := fun location notHand notHeld => ?_ })
  · rcases List.mem_cons.mp inside with rfl | inside
    · exact handle
    · exact sound.held inside
  · cases location with
    | hand => exact absurd rfl notHand
    | held => exact absurd rfl notHeld
    | unused | queued | received | retired => exact .refl _

/-- A fragment that is held is given to a node. -/
theorem unhold (sound : Sound directory mapped network pending hand)
    (held : fragment ∈ network.fragments) :
    Sound directory mapped (network.withoutFragment fragment) pending
      (fragment.offset :: hand) := by
  refine sound.relabel (network.withoutFragment fragment) rfl rfl
    (fun inside => sound.held (List.mem_of_mem_erase inside)) sound.read (sound.exact.move
      { differ := (by simp : Location.held ≠ .hand)
        taken := (List.perm_cons_erase held).map Fragment.offset
        put := .refl _
        others := fun location notHeld notHand => ?_ })
  cases location with
  | hand => exact absurd rfl notHand
  | held => exact absurd rfl notHeld
  | unused | queued | received | retired => exact .refl _

theorem receive (sound : Sound directory mapped network pending (delivery.message.offset :: hand))
    (read : network.HasRead mapped delivery) :
    Sound directory mapped { network with received := delivery :: network.received } pending
      hand := by
  refine sound.relabel { network with received := delivery :: network.received } rfl rfl
    sound.held (fun inside => ?_) (sound.exact.move
    { differ := (by simp : Location.hand ≠ .received)
      taken := .refl _
      put := .refl _
      others := fun location notHand notRead => ?_ })
  · rcases List.mem_cons.mp inside with rfl | inside
    · exact read
    · exact sound.read inside
  · cases location with
    | hand => exact absurd rfl notHand
    | received => exact absurd rfl notRead
    | unused | held | queued | retired => exact .refl _

theorem unreceive (sound : Sound directory mapped network pending hand)
    (read : delivery ∈ network.received) :
    Sound directory mapped (network.withoutDelivery delivery) pending
      (delivery.message.offset :: hand) := by
  refine sound.relabel (network.withoutDelivery delivery) rfl rfl sound.held
    (fun inside => sound.read (List.mem_of_mem_erase inside)) (sound.exact.move
      { differ := (by simp : Location.received ≠ .hand)
        taken := (List.perm_cons_erase read).map fun delivery : Delivery => delivery.message.offset
        put := .refl _
        others := fun location notRead notHand => ?_ })
  cases location with
  | hand => exact absurd rfl notHand
  | received => exact absurd rfl notRead
  | unused | held | queued | retired => exact .refl _

/-- A slot in hand is given up. -/
theorem retire (sound : Sound directory mapped network pending (offset :: hand))
    (reason : Retirement) :
    Sound directory mapped { network with retired := (offset, reason) :: network.retired } pending
      hand := by
  refine sound.relabel { network with retired := (offset, reason) :: network.retired } rfl rfl
    sound.held sound.read (sound.exact.move
    { differ := (by simp : Location.hand ≠ .retired)
      taken := .refl _
      put := .refl _
      others := fun location notHand notRetired => ?_ })
  cases location with
  | hand => exact absurd rfl notHand
  | retired => exact absurd rfl notRetired
  | unused | held | queued | received => exact .refl _

theorem log (sound : Sound directory mapped network pending hand) (events : List Event) :
    Sound directory mapped { network with log := events } pending hand := by
  refine sound.relabel { network with log := events } rfl rfl sound.held sound.read
    (sound.exact.congr (fun location => ?_) fun _ => Iff.rfl)
  cases location <;> exact .refl _

end Sound

/-! ## Wholeness -/

namespace Network

variable {network after : Network} {rank : UInt32} {node : Node} {scene : Scene Node}
  {stuck : Prop}

theorem isCarved_grows (found : network.nodes rank = some node) (grows : node.Grows scene.actor)
    {offset : Offset} (carved : network.IsCarved offset) :
    (network.left rank scene).IsCarved offset := by
  obtain ⟨index, descriptor, owner, foundOwner, has, position⟩ := carved
  by_cases same : offset.rank = rank
  · rw [same, found] at foundOwner
    obtain rfl := Option.some.inj foundOwner
    exact ⟨index, descriptor, scene.actor, by simp [left, same], grows.arena.has has, position⟩
  · exact ⟨index, descriptor, owner, by simpa [left, same] using foundOwner, has, position⟩

theorem IsWhole.reaching (whole : network.IsWhole ∨ stuck)
    (found : network.nodes rank = some node) : network.Reaching node stuck := by
  intro other peer foundPeer
  exact whole.imp_left fun whole => whole.reaches found foundPeer

theorem IsWhole.left (whole : network.IsWhole) (found : network.nodes rank = some node)
    (grows : node.Grows scene.actor) : (network.left rank scene).IsWhole := by
  have back : ∀ {other next}, (network.left rank scene).nodes other = some next →
      ∃ peer, network.nodes other = some peer ∧ peer.Grows next := by
    intro other next foundNext
    rcases nodes_of_left foundNext with ⟨rfl, rfl⟩ | ⟨_, foundNext⟩
    · exact ⟨node, found, grows⟩
    · exact ⟨next, foundNext, .refl next⟩
  constructor
  · intro one next two peer foundNext foundPeer
    obtain ⟨old, foundOld, growsOld⟩ := back foundNext
    obtain ⟨oldPeer, foundOldPeer, _⟩ := back foundPeer
    rw [growsOld.segmentOf?]
    exact whole.reaches foundOld foundOldPeer
  · intro delivery next inside foundNext
    obtain ⟨old, foundOld, growsOld⟩ := back foundNext
    rw [growsOld.segmentOf?]
    exact whole.current inside foundOld

theorem IsWhole.relabel (whole : network.IsWhole) (nodes : after.nodes = network.nodes)
    (received : after.received ⊆ network.received) : after.IsWhole where
  reaches := by
    rw [IsMutual, nodes]
    exact whole.reaches
  current inside := by
    rw [nodes]
    exact whole.current (received inside)

/-! ## How the parts of an operation end -/

variable {Value : Type} {post : Except Fault Value → Network → Prop}
  {closing : Except Fault Unit → Network → Prop}

theorem meets_asNode {action : Action (Scene Node) Value}
    (missing : network.nodes rank = none → post (.error (.unknownPeer rank)) network)
    (acts : ∀ {node}, network.nodes rank = some node →
      (action (network.world.enter node)).Meets stuck fun result scene =>
        post result (network.left rank scene)) :
    (asNode rank action network).Meets stuck post := by
  rw [asNode]
  split
  · next none => exact missing none
  · next node found => exact Outcome.meets_mapState.mpr (acts found)

theorem meets_byNode {action : Action Network Unit}
    (missing : network.nodes rank = none → closing (.error (.unknownPeer rank)) network)
    (acts : ∀ {node}, network.nodes rank = some node → (action network).Meets stuck closing) :
    (byNode rank action network).Meets stuck closing := by
  rw [byNode, Action.bind_done (Action.get_apply _)]
  cases found : network.nodes rank with
  | none => exact missing found
  | some node => exact acts found

theorem meets_withFragment {fragment : Fragment} {action : Action Network Unit}
    (absent : closing (.ok ()) network)
    (acts : fragment ∈ network.fragments → (action network).Meets stuck closing) :
    (withFragment fragment action network).Meets stuck closing := by
  rw [withFragment, Action.bind_done (Action.get_apply _)]
  by_cases held : fragment ∈ network.fragments
  · rw [if_pos held]
    exact acts held
  · rw [if_neg held]
    exact absent

theorem meets_withDelivery {delivery : Delivery} {action : Action Network Unit}
    (absent : closing (.ok ()) network)
    (acts : delivery ∈ network.received → (action network).Meets stuck closing) :
    (withDelivery delivery action network).Meets stuck closing := by
  rw [withDelivery, Action.bind_done (Action.get_apply _)]
  by_cases read : delivery ∈ network.received
  · rw [if_pos read]
    exact acts read
  · rw [if_neg read]
    exact absent

/-- A fragment is spent: if that fails, one of another node is retired. -/
theorem meets_spend {fragment : Fragment} {action : Action (Scene Node) Unit}
    (found : network.nodes rank = some node)
    (acts : (action (network.world.enter node)).Meets stuck fun result scene =>
      let lost := (network.withoutFragment fragment).left rank scene
      match result with
      | .ok () => closing (.ok ()) lost
      | .error fault =>
          if fragment.segment.rank = rank then closing (.error fault) lost
          else closing (.error fault)
            { lost with retired := (fragment.offset, .foreign) :: lost.retired }) :
    (spend rank fragment action network).Meets stuck closing := by
  rw [spend, loseFragment, Action.bind_done (Action.modify_apply _ _)]
  refine Action.meets_bind (Action.meets_attempt (meets_asNode (fun missing => ?_) fun same => ?_))
  · exact absurd (found.symm.trans missing) (by simp)
  · obtain rfl := Option.some.inj (found.symm.trans same)
    refine acts.mono ?_
    rintro (fault | value) scene holds
    · by_cases own : fragment.segment.rank = rank
      · simp only [if_pos own] at holds ⊢
        exact holds
      · simp only [if_neg own] at holds ⊢
        exact holds
    · exact holds

end Network

end RankMail
