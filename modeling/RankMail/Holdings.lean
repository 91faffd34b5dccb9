import RankMail.Node

set_option autoImplicit false

/-! # Holdings

`Holdings` are the world together with everything that a program holds in it, each thing under a
name of its own. What counts for a segment is not who made it but who holds it: an arena, a pool, a
node, a fragment and a message each keep the segment mapped that they lie in. When nobody holds a
segment any more, it is closed, and its file is removed if it is the file's maker.
-/

namespace RankMail

abbrev Named (α : Type) := List (String × α)

namespace Named

variable {α : Type}

def find? (held : Named α) (name : String) : Option α := held.lookup name

def without (held : Named α) (name : String) : Named α := held.filter fun entry => entry.1 != name

/-- Gives a name to a thing, and takes it from the thing that had it. -/
def put (held : Named α) (name : String) (value : α) : Named α := (name, value) :: held.without name

def values (held : Named α) : List α := held.map Prod.snd

@[simp] theorem find?_put_same (held : Named α) (name : String) (value : α) :
    (held.put name value).find? name = some value := by
  simp [put, find?]

end Named

/-- The world and what a program holds in it. -/
structure Holdings where
  world : World
  segments : Named Segment
  arenas : Named Arena
  pools : Named Pool
  nodes : Named Node
  fragments : Named Fragment
  messages : Named Message
deriving Repr, DecidableEq

namespace Holdings

variable {Actor Value : Type}

def start (world : World) : Holdings := ⟨world, [], [], [], [], [], []⟩

/-! ## Acting -/

def inWorld (action : Action World Value) : Action Holdings Value :=
  .within world (fun world holdings => { holdings with world }) action

def inMemory (action : Action Memory Value) : Action Holdings Value :=
  inWorld (World.inMemory action)

/-- Lets an actor act, and keeps what becomes of it. -/
def act (actor : Actor) (keep : Actor → Holdings → Holdings) (action : Action (Scene Actor) Value) :
    Action Holdings Value :=
  .within (fun holdings => holdings.world.enter actor)
    (fun scene holdings => keep scene.actor { holdings with world := holdings.world.leave scene })
    action

/-- Lets an arena act, which keeps its name. -/
def asArena (name : String) (arena : Arena) : Action (Scene Arena) Value → Action Holdings Value :=
  act arena fun changed holdings => { holdings with arenas := holdings.arenas.put name changed }

def asPool (name : String) (pool : Pool) : Action (Scene Pool) Value → Action Holdings Value :=
  act pool fun changed holdings => { holdings with pools := holdings.pools.put name changed }

def asNode (name : String) (node : Node) : Action (Scene Node) Value → Action Holdings Value :=
  act node fun changed holdings => { holdings with nodes := holdings.nodes.put name changed }

def asNodeInWorld (name : String) (node : Node) (action : Action (Node × World) Value) :
    Action Holdings Value :=
  .within (fun holdings => (node, holdings.world))
    (fun state holdings =>
      { holdings with world := state.2, nodes := holdings.nodes.put name state.1 })
    action

/-! ## Holding and letting go -/

/-- Names the segment that an action comes to. -/
def keepSegment (name : String) (action : Action World Segment) : Action Holdings Unit := do
  let segment ← inWorld action
  .modify fun holdings => { holdings with segments := holdings.segments.put name segment }

def keepNode (name : String) (action : Action World Node) : Action Holdings Unit := do
  let node ← inWorld action
  .modify fun holdings => { holdings with nodes := holdings.nodes.put name node }

def keepArena (name : String) (arena : Except Fault Arena) : Action Holdings Unit := do
  let arena ← .ofFault arena
  .modify fun holdings => { holdings with arenas := holdings.arenas.put name arena }

def turnIntoPool (name : String) (arena : Arena) (target : String) (growBatch : Nat) :
    Action Holdings Unit :=
  .modify fun holdings => { holdings with
    arenas := holdings.arenas.without name
    pools := holdings.pools.put target (.ofArena arena growBatch) }

/-- Names the fragment that an action comes to, if it is to have a name. -/
def keepFragment (name : Option String) (action : Action Holdings Fragment) :
    Action Holdings Fragment := do
  let fragment ← action
  if let some name := name then
    .modify fun holdings => { holdings with fragments := holdings.fragments.put name fragment }
  pure fragment

def keepMessage (name : Option String) (action : Action Holdings (Option Message)) :
    Action Holdings (Option Message) := do
  let message ← action
  if let (some name, some message) := (name, message) then
    .modify fun holdings => { holdings with messages := holdings.messages.put name message }
  pure message

/-- Lets go of a fragment, however an action with it ends. -/
def spendFragment (name : String) (action : Action Holdings Unit) : Action Holdings Unit :=
  fun holdings => (action holdings).mapState fun after =>
    { after with fragments := after.fragments.without name }

def spendMessage (name : String) (action : Action Holdings Unit) : Action Holdings Unit :=
  fun holdings => (action holdings).mapState fun after =>
    { after with messages := after.messages.without name }

def count (holdings : Holdings) : Nat :=
  holdings.segments.length + holdings.arenas.length + holdings.pools.length + holdings.nodes.length
    + holdings.fragments.length + holdings.messages.length

/-- Lets go of everything of a name, and returns how many things that were. -/
def drop (name : String) : Action Holdings Nat := fun holdings =>
  let after := { holdings with
    segments := holdings.segments.without name
    arenas := holdings.arenas.without name
    pools := holdings.pools.without name
    nodes := holdings.nodes.without name
    fragments := holdings.fragments.without name
    messages := holdings.messages.without name }
  .done (holdings.count - after.count) after

/-! ## Closing -/

/-- The segments that something held keeps mapped. -/
def heldSegments (holdings : Holdings) : List Segment :=
  holdings.segments.values
    ++ holdings.arenas.values.map Arena.segment
    ++ holdings.pools.values.flatMap Pool.segments
    ++ holdings.nodes.values.flatMap Node.segments
    ++ holdings.fragments.values.map Fragment.segment
    ++ holdings.messages.values.map Message.segment

/-- Closes the segments that nobody holds any more. -/
def closeUnheld : Action Holdings Unit := do
  let held := (← .get).heldSegments
  inWorld (Segment.closeUnheld (held.map fun segment => segment.file.base))

/-- The holdings once everything that nobody holds is closed. -/
def settled (holdings : Holdings) : Holdings := (closeUnheld holdings).state?.getD holdings

end Holdings

end RankMail
