import RankMail.Holdings
import RankMail.Proofs.Estate.Growth

set_option autoImplicit false

/-! # Runs of calls

An `Estate` is what all who work in one directory hold, together with an account of every segment
that has been made. A `Call` is one operation of the library on something held by its name; after
each call what nobody holds any more is closed. A run, `Estate.Reached`, is any number of calls in a
directory in which there is no segment yet, whatever else there is (`Estate.Begins`).

Of the callers little is asked (`Call.Allowed`): that they claim ranges in whole multiples of a
header's alignment, that they append to queues themselves only what they have in hand, and that a
rank that has had a segment gets another one only when nothing of the earlier one is mapped and no
offset of the rank is queued in any segment that is in use.
-/

namespace RankMail

/-- The segment of a rank is in use while it is mapped or there is a file of its name. -/
def World.uses (world : World) (rank : UInt32) : Bool :=
  world.segments.any (fun segment => segment.rank == rank) ||
    world.disk.entries.any fun entry => entry.1.getLast? == some (Segment.fileName rank)

/-- All that is held. -/
structure Estate where
  holdings : Holdings
  /-- All segments that have been made, the latest first. -/
  made : List Plot
  /-- The offsets that callers have taken from queues themselves. -/
  taken : List Offset

namespace Estate

variable {Value Thing : Type}

/-- Nothing is held, and nothing has been made. -/
def start (process : UInt32) (running : List UInt32) : Estate :=
  ⟨.start (.start process running), [], []⟩

/-- An estate begins: nothing is held, and where the directory lies, or will lie, no file has the
name of a rank, for what somebody else has put there could be attached and lead anywhere. Of
everything else there may be anything in memory and on disk. -/
inductive Begins (directory : String) : Estate → Prop
  | start {process : UInt32} {running : List UInt32} {memory : Memory} {disk : Disk}
      (proper : disk.IsProper memory.fresh)
      (free : ∀ rank region, disk.find? (Path.place directory ++ [Segment.fileName rank]) ≠
        some (.file region)) :
      Begins directory ⟨.start { World.start process running with memory, disk }, [], []⟩

/-- It may begin with nothing at all. -/
theorem begins_start (directory : String) (process : UInt32) (running : List UInt32) :
    (start process running).Begins directory :=
  .start (Disk.isProper_empty _) fun _ _ => Disk.find?_empty

def memory (estate : Estate) : Memory := estate.holdings.world.memory

def latest? (estate : Estate) (rank : UInt32) : Option Plot :=
  estate.made.find? fun plot => plot.rank == rank

/-- The ground, as far as it can be seen: the segments that are in use, and what is mapped. -/
def ground (estate : Estate) : Ground :=
  { made := estate.made
    current := fun rank =>
      if estate.holdings.world.uses rank = true then estate.latest? rank else none
    mapped := estate.holdings.world.segments
    parcels := []
    floor := 0 }

def inHoldings (action : Action Holdings Value) : Action Estate Value :=
  .within holdings (fun holdings estate => { estate with holdings }) action

def does (action : Action Holdings Value) : Action Estate Unit := do
  let _ ← inHoldings action
  pure ()

/-- Does something with a thing of a name; nothing happens if there is none. -/
def given (table : Holdings → Named Thing) (name : String) (action : Thing → Action Estate Unit) :
    Action Estate Unit := fun estate =>
  match (table estate.holdings).find? name with
  | some thing => action thing estate
  | none => .done () estate

/-- Enters the segment of a rank that has just been made and mapped, with the size that was asked
for. What has been taken from queues in the rank's earlier segment is of no use any more. -/
def record (rank : UInt32) (size : Nat) (estate : Estate) : Estate :=
  match estate.holdings.world.segments with
  | [] => estate
  | segment :: _ => { estate with
      made := ⟨rank, segment.file.region, size, estate.holdings.world.process⟩ :: estate.made
      taken := estate.taken.filter fun offset => offset.rank != rank }

@[simp] theorem holdings_record (rank : UInt32) (size : Nat) (estate : Estate) :
    (record rank size estate).holdings = estate.holdings := by
  rw [record]
  split <;> rfl

/-- Keeps in mind what has been taken from a queue. -/
def remember (offset : Option Offset) (estate : Estate) : Estate :=
  { estate with taken := offset.toList ++ estate.taken }

def settled (estate : Estate) : Estate := { estate with holdings := estate.holdings.settled }

/-- A caller has an offset in hand: he has taken it from a queue himself, or holds the fragment or
the message. -/
inductive InHand (estate : Estate) : Offset → Prop
  | taken {offset : Offset} (inside : offset ∈ estate.taken) : estate.InHand offset
  | fragment {entry : String × Fragment} (inside : entry ∈ estate.holdings.fragments) :
      estate.InHand ⟨entry.2.segment.rank, UInt32.ofNat entry.2.position⟩
  | message {entry : String × Message} (inside : entry ∈ estate.holdings.messages) :
      estate.InHand entry.2.offset

/-- A rank may get a segment: it has never had one, or of what it has had nothing is mapped, and
nothing of it is queued in a segment that is in use. -/
def IsVacant (estate : Estate) (rank : UInt32) : Prop :=
  (∀ plot ∈ estate.made, plot.rank ≠ rank) ∨ estate.ground.Vacant estate.memory rank

end Estate

/-- An operation on what is held; everything is named. -/
inductive Call where
  /-- Another process goes on, with addresses and limits of its own. -/
  | proceed (process : UInt32) (addresses : AddressSpace)
  | create (name : String) (rank : UInt32) (size : Nat) (removesFile : Bool)
  | attach (name : String) (rank : UInt32)
  | reserve (segment : String) (length : Nat)
  | ring (segment : String)
  | arena (name segment : String) (capacities : Capacities) (rank : UInt32)
  | carve (arena : String) (sizeClass : SizeClass) (name : Option String)
  | pool (arena name : String) (growBatch : Nat)
  | get (pool : String) (sizeClass : SizeClass) (name : Option String)
  | getFallback (pool : String) (classes : List SizeClass) (name : Option String)
  | put (pool fragment : String)
  | write (fragment : String) (data : List UInt8)
  | edit (fragment : String) (start : Nat) (data : List UInt8)
  | setLength (fragment : String) (length : Nat)
  | node (name : String) (rank : UInt32) (config : Config)
  | attachPeer (node : String) (rank : UInt32)
  | detachPeer (node : String) (rank : UInt32)
  | alloc (node : String) (sizeClass : SizeClass) (name : Option String)
  | free (node fragment : String)
  | send (node : String) (peer : UInt32) (data : List UInt8)
  | writeToPeer (node : String) (peer : UInt32) (fragment : String)
  | read (node : String) (name : Option String)
  | release (node message : String)
  /-- Appends an offset to the queue of a rank that the node has attached. -/
  | enqueue (node : String) (rank : UInt32) (offset : Offset)
  /-- Takes an offset from the queue of a rank that the node has attached. -/
  | dequeue (node : String) (rank : UInt32)
  | drop (name : String)
deriving Repr, DecidableEq

namespace Call

open Estate

def perform (directory : String) : Call → Action Estate Unit
  | .proceed process addresses => .modify fun estate => { estate with
      holdings := { estate.holdings with
        world := { estate.holdings.world with process, addresses } } }
  | .create name rank size removesFile => do
      inHoldings (Holdings.keepSegment name (Segment.create directory rank size removesFile))
      .modify (record rank size)
  | .attach name rank => does (Holdings.keepSegment name (Segment.attach directory rank))
  | .reserve place length => given Holdings.segments place fun segment =>
      does (Holdings.inMemory (segment.reserve length))
  | .ring place => given Holdings.segments place fun segment =>
      does (Holdings.inMemory segment.doorbell.ring)
  | .arena name place capacities rank => given Holdings.segments place fun segment =>
      does (Holdings.keepArena name (Arena.ofSegment segment capacities rank))
  | .carve actor sizeClass name => given Holdings.arenas actor fun arena =>
      does (Holdings.keepFragment name (Holdings.asArena actor arena (Arena.carve sizeClass)))
  | .pool actor name growBatch => given Holdings.arenas actor fun arena =>
      does (Holdings.turnIntoPool actor arena name growBatch)
  | .get actor sizeClass name => given Holdings.pools actor fun pool =>
      does (Holdings.keepFragment name (Holdings.asPool actor pool (Pool.get sizeClass)))
  | .getFallback actor classes name => given Holdings.pools actor fun pool =>
      does (Holdings.keepFragment name (Holdings.asPool actor pool (Pool.getFallback classes)))
  | .put actor thing => given Holdings.pools actor fun pool =>
      given Holdings.fragments thing fun fragment =>
        does (Holdings.spendFragment thing (Holdings.asPool actor pool (Pool.put fragment)))
  | .write thing data => given Holdings.fragments thing fun fragment =>
      does (Holdings.inMemory (fragment.write data))
  | .edit thing start data => given Holdings.fragments thing fun fragment =>
      does (Holdings.inMemory (fragment.edit start data))
  | .setLength thing length => given Holdings.fragments thing fun fragment =>
      does (Holdings.inMemory (fragment.setLength length))
  -- The segment has been made even if the node is not.
  | .node name rank config => do
      let segment ← inHoldings (Holdings.inWorld (Node.makeSegment directory rank config))
      .modify (record rank config.segmentSize.toNat)
      inHoldings (Holdings.keepNode name (Node.ofSegment directory rank config segment))
  | .attachPeer actor rank => given Holdings.nodes actor fun node =>
      does (Holdings.asNodeInWorld actor node (Node.attachPeer rank))
  | .detachPeer actor rank => given Holdings.nodes actor fun node =>
      does (Holdings.asNode actor node (Node.detachPeer rank))
  | .alloc actor sizeClass name => given Holdings.nodes actor fun node =>
      does (Holdings.keepFragment name (Holdings.asNode actor node (Node.alloc sizeClass)))
  | .free actor thing => given Holdings.nodes actor fun node =>
      given Holdings.fragments thing fun fragment =>
        does (Holdings.spendFragment thing (Holdings.asNode actor node (Node.free fragment)))
  | .send actor peer data => given Holdings.nodes actor fun node =>
      does (Holdings.asNode actor node (Node.send peer data))
  | .writeToPeer actor peer thing => given Holdings.nodes actor fun node =>
      given Holdings.fragments thing fun fragment =>
        does (Holdings.spendFragment thing
          (Holdings.asNode actor node (Node.writeToPeer peer fragment)))
  | .read actor name => given Holdings.nodes actor fun node =>
      does (Holdings.keepMessage name (Holdings.asNode actor node Node.readQueue))
  | .release actor thing => given Holdings.nodes actor fun node =>
      given Holdings.messages thing fun message =>
        does (Holdings.spendMessage thing (Holdings.asNode actor node (Node.release message)))
  | .enqueue actor rank offset => given Holdings.nodes actor fun node =>
      match node.segmentOf? rank with
      | some target => does (Holdings.inMemory ((target.queue node.addresses).enqueue offset))
      | none => pure ()
  | .dequeue actor rank => given Holdings.nodes actor fun node =>
      match node.segmentOf? rank with
      | some target => do
          let offset ← inHoldings (Holdings.inMemory (target.queue node.addresses).dequeue)
          .modify (remember offset)
      | none => pure ()
  | .drop name => does (Holdings.drop name)

/-- Making a segment and then a node of it is creating the node. -/
theorem holdings_perform_node (directory name : String) (rank : UInt32) (config : Config)
    (estate : Estate) :
    ((Call.node name rank config).perform directory estate).mapState Estate.holdings =
      Holdings.keepNode name (Node.create directory rank config) estate.holdings := by
  simp only [perform, inHoldings, Holdings.keepNode, Holdings.inWorld, Node.create,
    Action.bind_apply, Action.within_apply]
  cases Node.makeSegment directory rank config estate.holdings.world with
  | done segment made =>
      simp only [Outcome.mapState_done, Action.modify_apply, holdings_record]
      cases Node.ofSegment directory rank config segment made <;> rfl
  | failed fault made => rfl
  | aborted cause => rfl
  | hung => rfl

/-- What is asked of a caller. -/
def Allowed (estate : Estate) : Call → Prop
  | .create _ rank _ _ => estate.IsVacant rank
  | .node _ rank _ => estate.IsVacant rank
  | .reserve _ length => length % headerAlignment = 0
  | .enqueue _ _ offset => estate.InHand offset
  | _ => True

end Call

/-- What calls in a directory make of an estate, one after the other, whether they succeed or
fail. -/
inductive Estate.Runs (directory : String) (estate : Estate) : Estate → Prop
  | refl : Runs directory estate estate
  | call {between after : Estate} {call : Call} (runs : Runs directory estate between)
      (allowed : call.Allowed between)
      (ends : (call.perform directory between).state? = some after) :
      Runs directory estate after.settled

/-- The estates that calls lead to when there is no segment yet. -/
def Estate.Reached (directory : String) (estate : Estate) : Prop :=
  ∃ first : Estate, first.Begins directory ∧ first.Runs directory estate

end RankMail
