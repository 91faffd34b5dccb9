import Mathlib.Logic.Function.Basic
import RankMail.Node
import RankMail.Proofs.Disk.Files

set_option autoImplicit false

/-! # Networks

A `Network` is a number of nodes with distinct ranks that have their segments in one directory, and
what their programs hold of them: fragments that have been allocated and not yet sent, and messages
that have been read and not yet given back. Each operation of a node is carried out by the node
itself and runs to its end; the operations of the nodes come in any order. The nodes belong to any
number of processes, of which each has its own addresses; between two operations another process may
go on (`Network.turned`).

Besides, a network keeps two records. The `log` says what has been sent and what has surfaced, each
at the moment at which it happened and as it was then. What nobody will ever give back is `retired`,
with the reason:

    dropped     a fragment or a message was let go of
    ownerGone   a message could not be given back because its owner was no longer attached
    foreign     a fragment was handed to a node that it does not belong to, which refused it
-/

namespace RankMail

/-- What a message says: who filled it, in whose arena it lies, and its payload. -/
structure Letter where
  source : UInt32
  owner : UInt32
  payload : List UInt8
deriving Repr, DecidableEq

/-- What a message says as it stands. -/
def Message.letter (message : Message) (memory : Memory) : Letter :=
  ⟨message.source memory, message.owner, message.payload memory⟩

/-- A message that a node has read and not given back, with what it said when it was read. -/
structure Delivery where
  reader : UInt32
  message : Message
  letter : Letter
deriving Repr, DecidableEq

/-- Something that has happened. -/
inductive Event where
  | sent (source target : UInt32) (payload : List UInt8)
  | surfaced (reader : UInt32) (letter : Letter)
deriving Repr, DecidableEq

/-- What an event sends to a rank: a message of the sender's own arena, filled by the sender. -/
def Event.sentTo (rank : UInt32) : Event → Option Letter
  | sent source target payload => if target = rank then some ⟨source, source, payload⟩ else none
  | surfaced _ _ => none

/-- What surfaces at a rank by an event. -/
def Event.surfacedAt (rank : UInt32) : Event → Option Letter
  | sent _ _ _ => none
  | surfaced reader letter => if reader = rank then some letter else none

/-- Why nobody will give a slot back. -/
inductive Retirement where
  | dropped
  | ownerGone
  | foreign
deriving Repr, DecidableEq

def Fragment.offset (fragment : Fragment) : Offset :=
  ⟨fragment.segment.rank, UInt32.ofNat fragment.position⟩

/-- Nodes, what is held of them, and what has happened. -/
structure Network where
  world : World
  nodes : UInt32 → Option Node
  /-- The fragments that can still be sent. -/
  fragments : List Fragment
  /-- The messages that have not been given back. -/
  received : List Delivery
  retired : List (Offset × Retirement)
  /-- What has happened, the first in front. -/
  log : List Event

namespace Network

variable {Value : Type}

def start (world : World) : Network := ⟨world, fun _ => none, [], [], [], []⟩

/-- A network that a node has joined. -/
def joined (network : Network) (rank : UInt32) (node : Node) (world : World) : Network :=
  { network with
    world
    nodes := Function.update network.nodes rank (some node) }

/-- A network in which another process goes on, with addresses and limits of its own. -/
def turned (network : Network) (process : UInt32) (addresses : AddressSpace) : Network :=
  { network with world := { network.world with process, addresses } }

/-! ## What has happened -/

/-- What has been sent to a rank, the first in front. -/
def sentTo (network : Network) (rank : UInt32) : List Letter :=
  network.log.filterMap (Event.sentTo rank)

/-- What has surfaced at a rank, the first in front. -/
def surfacedAt (network : Network) (rank : UInt32) : List Letter :=
  network.log.filterMap (Event.surfacedAt rank)

def record (event : Event) : Action Network Unit := .modify fun network =>
  { network with log := network.log ++ [event] }

def retire (offset : Offset) (reason : Retirement) : Action Network Unit := .modify fun network =>
  { network with retired := (offset, reason) :: network.retired }

/-! ## Acting -/

/-- The network after a scene of one of its nodes. -/
def left (network : Network) (rank : UInt32) (scene : Scene Node) : Network :=
  { network with
    world := network.world.leave scene
    nodes := Function.update network.nodes rank (some scene.actor) }

/-- Lets the node of a rank act. -/
def asNode (rank : UInt32) (action : Action (Scene Node) Value) : Action Network Value :=
  fun network =>
    match network.nodes rank with
    | none => .failed (.unknownPeer rank) network
    | some node => (action (network.world.enter node)).mapState (network.left rank)

/-- An action that only a node can carry out. -/
def byNode (rank : UInt32) (action : Action Network Unit) : Action Network Unit := do
  if ((← .get).nodes rank).isSome then action else .fail (.unknownPeer rank)

def inMemory (action : Action Memory Value) : Action Network Value :=
  .within (fun network => network.world.memory)
    (fun memory network => { network with world := { network.world with memory } }) action

/-! ## Sending -/

def alloc (rank : UInt32) (sizeClass : SizeClass) : Action Network Fragment := do
  let fragment ← asNode rank (Node.alloc sizeClass)
  .modify fun network => { network with fragments := fragment :: network.fragments }
  pure fragment

def withFragment (fragment : Fragment) (action : Action Network Unit) : Action Network Unit := do
  if fragment ∈ (← .get).fragments then action else pure ()

/-- The network without a fragment that somebody holds. -/
def withoutFragment (network : Network) (fragment : Fragment) : Network :=
  { network with fragments := network.fragments.erase fragment }

def loseFragment (fragment : Fragment) : Action Network Unit := .modify fun network =>
  network.withoutFragment fragment

def write (fragment : Fragment) (data : List UInt8) : Action Network Unit :=
  withFragment fragment (inMemory (fragment.write data))

def setLength (fragment : Fragment) (length : Nat) : Action Network Unit :=
  withFragment fragment (inMemory (fragment.setLength length))

def edit (fragment : Fragment) (start : Nat) (data : List UInt8) : Action Network Unit :=
  withFragment fragment (inMemory (fragment.edit start data))

/-- A node does something with a fragment for good. If it fails, and the fragment is of another
node, nobody will give it back. -/
def spend (rank : UInt32) (fragment : Fragment) (action : Action (Scene Node) Unit) :
    Action Network Unit := do
  loseFragment fragment
  match ← Action.attempt (asNode rank action) with
  | .ok () => pure ()
  | .error fault => do
      if fragment.segment.rank = rank then pure () else retire fragment.offset .foreign
      .fail fault

def writeToPeer (rank peer : UInt32) (fragment : Fragment) : Action Network Unit :=
  byNode rank (withFragment fragment do
    let payload ← .look fun network => fragment.payload network.world.memory
    spend rank fragment (Node.writeToPeer peer fragment)
    record (.sent rank peer payload))

def send (rank peer : UInt32) (payload : List UInt8) : Action Network Unit := do
  asNode rank (Node.send peer payload)
  record (.sent rank peer payload)

def free (rank : UInt32) (fragment : Fragment) : Action Network Unit :=
  byNode rank (withFragment fragment (spend rank fragment (Node.free fragment)))

def drop (fragment : Fragment) : Action Network Unit :=
  withFragment fragment do
    loseFragment fragment
    retire fragment.offset .dropped

/-! ## Receiving -/

def read (rank : UInt32) : Action Network (Option Message) := do
  match ← asNode rank Node.readQueue with
  | none => pure none
  | some message => do
      let letter ← .look fun network => message.letter network.world.memory
      record (.surfaced rank letter)
      .modify fun network => { network with
        received := ⟨rank, message, letter⟩ :: network.received }
      pure (some message)

def withDelivery (delivery : Delivery) (action : Action Network Unit) : Action Network Unit := do
  if delivery ∈ (← .get).received then action else pure ()

def withoutDelivery (network : Network) (delivery : Delivery) : Network :=
  { network with received := network.received.erase delivery }

def loseDelivery (delivery : Delivery) : Action Network Unit := .modify fun network =>
  network.withoutDelivery delivery

/-- A node gives back a message that it has read. -/
def release (delivery : Delivery) : Action Network Unit :=
  withDelivery delivery do
    loseDelivery delivery
    match ← Action.attempt (asNode delivery.reader (Node.release delivery.message)) with
    | .ok () => pure ()
    | .error fault => do
        retire delivery.message.offset .ownerGone
        .fail fault

def discard (delivery : Delivery) : Action Network Unit :=
  withDelivery delivery do
    loseDelivery delivery
    retire delivery.message.offset .dropped

/-! ## Attaching -/

def attach (rank peer : UInt32) : Action Network Unit := fun network =>
  match network.nodes rank, network.nodes peer with
  | some node, some _ => (Node.attachPeer peer (node, network.world)).mapState fun state =>
      { network with
        world := state.2
        nodes := Function.update network.nodes rank (some state.1) }
  | _, _ => .failed (.unknownPeer peer) network

def detach (rank peer : UInt32) : Action Network Unit := do
  let _ ← asNode rank (Node.detachPeer peer)

end Network

/-! ## What may happen -/

/-- What a node of a network, or whoever holds something of it, may do. -/
inductive Operation where
  | alloc (rank : UInt32) (sizeClass : SizeClass)
  | write (fragment : Fragment) (data : List UInt8)
  | setLength (fragment : Fragment) (length : Nat)
  | edit (fragment : Fragment) (start : Nat) (data : List UInt8)
  | writeToPeer (rank peer : UInt32) (fragment : Fragment)
  | send (rank peer : UInt32) (payload : List UInt8)
  | free (rank : UInt32) (fragment : Fragment)
  | drop (fragment : Fragment)
  | read (rank : UInt32)
  | release (delivery : Delivery)
  | discard (delivery : Delivery)
  | attach (rank peer : UInt32)
  | detach (rank peer : UInt32)
deriving Repr, DecidableEq

def Operation.perform : Operation → Action Network Unit
  | alloc rank sizeClass => do
      let _ ← Network.alloc rank sizeClass
  | write fragment data => Network.write fragment data
  | setLength fragment length => Network.setLength fragment length
  | edit fragment start data => Network.edit fragment start data
  | writeToPeer rank peer fragment => Network.writeToPeer rank peer fragment
  | send rank peer payload => Network.send rank peer payload
  | free rank fragment => Network.free rank fragment
  | drop fragment => Network.drop fragment
  | read rank => do
      let _ ← Network.read rank
  | release delivery => Network.release delivery
  | discard delivery => Network.discard delivery
  | attach rank peer => Network.attach rank peer
  | detach rank peer => Network.detach rank peer

/-- An operation that leaves attached what is attached, and uses a fragment with its own node. -/
def Operation.IsOrderly : Operation → Prop
  | writeToPeer rank _ fragment | free rank fragment => fragment.segment.rank = rank
  | attach .. | detach .. => False
  | _ => True

namespace Network

/-- The network after some operations, one after the other, whether they are done or fail; none if
one of them aborts or hangs. -/
def run (network : Network) : List Operation → Option Network
  | [] => some network
  | operation :: rest => (operation.perform network).state?.bind fun after => after.run rest

/-- Every node has attached every other one. -/
def IsMutual (network : Network) : Prop :=
  ∀ {rank node other peer}, network.nodes rank = some node → network.nodes other = some peer →
    (node.segmentOf? other).isSome = true

/-- Something that is held keeps a mapping. -/
def Keeps (network : Network) (base : Nat) : Prop :=
  (∃ rank node, network.nodes rank = some node ∧ ∃ segment ∈ node.segments,
    segment.file.base = base) ∨
  (∃ fragment ∈ network.fragments, fragment.segment.file.base = base) ∨
  ∃ delivery ∈ network.received, delivery.message.segment.file.base = base

/-- The networks that are reached in a directory. Another process may go on at any time, or what the
system allows may change; a node may be made for a rank that has none; an operation may be done or
fail, and whatever comes of it goes on; and a segment that nothing keeps may be closed. -/
inductive Reached (directory : String) : Network → Prop
  | start {process : UInt32} {running : List UInt32} {memory : Memory} {disk : Disk}
      (proper : disk.IsProper memory.fresh) :
      Reached directory (.start { World.start process running with memory, disk })
  | turn {network : Network} (process : UInt32) (addresses : AddressSpace)
      (reached : Reached directory network) : Reached directory (network.turned process addresses)
  | create {network : Network} {rank : UInt32} {config : Config} {node : Node} {world : World}
      (reached : Reached directory network) (new : network.nodes rank = none)
      (created : Node.create directory rank config network.world = .done node world) :
      Reached directory (network.joined rank node world)
  | perform {network after : Network} (operation : Operation)
      (reached : Reached directory network)
      (ends : (operation.perform network).state? = some after) : Reached directory after
  | close {network : Network} {segment : Segment} {world : World}
      (reached : Reached directory network) (member : segment ∈ network.world.segments)
      (unkept : ¬network.Keeps segment.file.base)
      (closed : segment.close network.world = .done () world) :
      Reached directory { network with world }

end Network

end RankMail
