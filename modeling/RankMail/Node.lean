import RankMail.Segment.Lifecycle
import RankMail.Pool
import RankMail.Message

set_option autoImplicit false

/-! # Nodes

A `Node` is what a rank has in its own process: its segment, which holds its inbound queue and its
arena, the segments of the peers that it has attached, and the pool of its unused slots.

Fragments travel without being copied. A sender appends a fragment of its own arena to the queue of
a peer; the peer reads it there and, once it is done, appends it to the queue of the rank that owns
its slot, with a flag that says that the fragment is on its way back. Its owner takes it from
there into the pool:

    pool --> send --> queue of the peer --> message --> release --> queue of the owner --> pool
-/

namespace RankMail

/-- What a rank has in its own process. -/
structure Node where
  directory : String
  rank : UInt32
  config : Config
  segment : Segment
  /-- The segments of the attached peers. -/
  peers : List Segment
  addresses : AddressMap
  pool : Pool
deriving Repr, DecidableEq

namespace Node

/-! ## Creating and attaching -/

/-- Makes the segment of a node, if the configuration is valid. -/
def makeSegment (directory : String) (rank : UInt32) (config : Config) : Action World Segment := do
  .ofFault config.validate
  Segment.create directory rank config.segmentSize.toNat config.removeOnClose

/-- Makes a node of a segment that has been made for it. The segment is closed again if it is to be
locked and cannot be. -/
def ofSegment (directory : String) (rank : UInt32) (config : Config) (segment : Segment) :
    Action World Node :=
  segment.unlessFailed do
    (if config.lockMemory then segment.lock else pure ())
    let addresses ← .ofAbort ((AddressMap.empty rank).register rank segment.mapping)
    let arena ← .ofFault (Arena.ofSegment segment config.capacities rank)
    pure
      { directory
        rank
        config
        segment
        peers := []
        addresses
        pool := .ofArena arena config.growBatch.toNat }

def create (directory : String) (rank : UInt32) (config : Config) : Action World Node := do
  ofSegment directory rank config (← makeSegment directory rank config)

/-- The segments that the node keeps mapped. -/
def segments (node : Node) : List Segment := node.segment :: node.peers ++ node.pool.segments

def peer? (node : Node) (rank : UInt32) : Option Segment :=
  node.peers.find? fun segment => segment.rank == rank

/-- The segment of the node itself or of an attached peer. -/
def segmentOf? (node : Node) (rank : UInt32) : Option Segment :=
  if rank = node.rank then some node.segment else node.peer? rank

/-- Attaches a peer; nothing happens if it is attached, or if the rank is the node's own. -/
def attachPeer (rank : UInt32) : Action (Node × World) Unit := do
  let node ← .look Prod.fst
  if (node.segmentOf? rank).isSome then pure ()
  else
    let segment ← .within Prod.snd (fun world state => (state.1, world))
      (Segment.attach node.directory rank)
    let addresses ← .ofAbort (node.addresses.register rank segment.mapping)
    .modify fun state =>
      ({ state.1 with addresses, peers := segment :: state.1.peers }, state.2)

/-- Attaches peers up to the first that cannot be attached. -/
def attachPeers : List UInt32 → Action (Node × World) Unit
  | [] => pure ()
  | rank :: rest => do
      attachPeer rank
      attachPeers rest

/-- Detaches a peer; whether there was one. -/
def detachPeer (rank : UInt32) : Action (Scene Node) Bool := do
  let node ← Scene.self
  if (node.peer? rank).isSome then do
    Scene.become { node with
      peers := node.peers.filter fun segment => segment.rank != rank
      addresses := node.addresses.unregister rank }
    pure true
  else pure false

/-! ## Sending -/

def inPool {Value : Type} (action : Action (Scene Pool) Value) : Action (Scene Node) Value :=
  Scene.inPart Node.pool (fun pool node => { node with pool }) action

def queue (node : Node) : Queue := node.segment.queue node.addresses

def alloc (sizeClass : SizeClass) : Action (Scene Node) Fragment := inPool (Pool.get sizeClass)

/-- Takes back a fragment that has not been sent. -/
def free (fragment : Fragment) : Action (Scene Node) Unit := inPool (Pool.put fragment)

/-- Appends a fragment to the queue of a segment and rings its doorbell. -/
def deliver (node : Node) (target : Segment) (offset : Offset) : Action Memory Unit := do
  (target.queue node.addresses).enqueue offset
  target.doorbell.ring

/-- Sends a fragment of the node's own arena. If there is no such peer, the fragment is taken
back. -/
def writeToPeer (peer : UInt32) (fragment : Fragment) : Action (Scene Node) Unit := do
  let node ← Scene.self
  match node.segmentOf? peer with
  | none => do
      free fragment
      .fail (.unknownPeer peer)
  | some target => do
      let offset ← .ofAbort (node.addresses.offset fragment.address)
      Scene.inMemory do
        fragment.setFlags 0
        node.deliver target offset

/-- The class of the fragment in which so many bytes are sent: the least that holds them. -/
def classFor (node : Node) (length : Nat) : Except Fault SizeClass :=
  let capacities := node.pool.arena.capacities
  match capacities.forPayload length with
  | some sizeClass => .ok sizeClass
  | none => .error (.oversize length (capacities.capacity .maxSend))

def send (peer : UInt32) (payload : List UInt8) : Action (Scene Node) Unit := do
  let sizeClass ← .ofFault ((← Scene.self).classFor payload.length)
  let fragment ← alloc sizeClass
  Scene.inMemory (fragment.write payload)
  writeToPeer peer fragment

/-! ## Receiving -/

/-- Takes back a fragment that has returned to its owner. That it cannot be taken back is ignored,
and the slot is lost. -/
def reclaim (address : Nat) : Action (Scene Node) Unit := do
  let _ ← Action.attempt (inPool (Pool.recycle address))

/-- The message at an offset that has been taken from the queue. -/
def messageAt (node : Node) (offset : Offset) : Except Abort Message :=
  match node.segmentOf? offset.rank with
  | some segment => .ok { segment, offset }
  | none => .error (.unattached offset)

/-- Takes messages from the queue until one is not a fragment on its way back, at most as many as
there is fuel for. -/
def readWithin : Nat → Action (Scene Node) (Option Message)
  | 0 => .hang
  | fuel + 1 => do
      let node ← Scene.self
      match ← Scene.inMemory node.queue.dequeue with
      | none => pure none
      | some offset => do
          let address ← .ofAbort (node.addresses.resolve offset)
          let place ← .ofAbort (node.addresses.header offset)
          let isReturned ← .look fun scene => scene.memory.isReturnedAt place
          if offset.rank = node.rank ∧ isReturned = true then do
            reclaim address
            readWithin fuel
          else return some (← .ofAbort (node.messageAt offset))

/-- Takes the next message from the queue, if there is one. Own fragments that have returned go
into the pool and are not seen. Each of them is a slot that was carved, and comes back but once. -/
def readQueue : Action (Scene Node) (Option Message) := do
  readWithin ((← Scene.self).pool.arena.descriptors.size + 2)

/-- Sends a message's fragment back to the rank that owns its slot. -/
def sendBack (message : Message) : Action (Scene Node) Unit := do
  let node ← Scene.self
  match node.segmentOf? message.owner with
  | none => .fail (.unknownPeer message.owner)
  | some target => do
      let offset ← .ofAbort (node.addresses.offsetFor message.owner message.address)
      Scene.inMemory do
        .modify fun memory => memory.store HeaderField.flags message.place
          (message.flags memory ||| returnedFlag).toNat
        node.deliver target offset

def release (message : Message) : Action (Scene Node) Unit := do
  if message.owner = (← Scene.self).rank then inPool (Pool.recycle message.address)
  else sendBack message

/-! ## Waiting -/

/-- Waits until there may be something in the queue, for some microseconds if there is a bound. -/
def wait (bound : Option Nat) : Action (Scene Node) Unit := do
  let node ← Scene.self
  Scene.inMemory (node.segment.doorbell.wait node.config.wait bound
    (do return !(← node.queue.isEmpty)))

end Node

end RankMail
