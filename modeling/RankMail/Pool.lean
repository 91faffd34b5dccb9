import RankMail.Arena

set_option autoImplicit false

/-! # Pools

A `Pool` keeps the carved slots that nobody uses, for each class the one that came back last on
top. When a class has none left, several slots are carved at once.

A slot comes back by the address of its header. What its header says of class and capacity does
not count: the slot becomes what its descriptor says, and its header is written anew. Only the
index in it has to be right, or else there is no telling what the bytes belong to.
-/

namespace RankMail

/-- The unused slots of an arena. -/
structure Pool where
  arena : Arena
  /-- The unused slots of each class, the latest first. -/
  free : PerClass (List Fragment)
  /-- How many slots are carved at once. -/
  growBatch : Nat
deriving Repr, DecidableEq

namespace Pool

/-- The pool of an arena, without unused slots. At least one slot is carved at once. -/
def ofArena (arena : Arena) (growBatch : Nat) : Pool :=
  { arena, free := .const [], growBatch := max growBatch 1 }

/-- The segments that the pool keeps mapped. -/
def segments (pool : Pool) : List Segment :=
  pool.arena.segment :: pool.free.toList.flatten.map Fragment.segment

def inArena {Value : Type} (action : Action (Scene Arena) Value) : Action (Scene Pool) Value :=
  Scene.inPart Pool.arena (fun arena pool => { pool with arena }) action

/-- Puts an unused slot on top of those of a class. -/
def push (sizeClass : SizeClass) (fragment : Fragment) : Action (Scene Pool) Unit := do
  let pool ← Scene.self
  Scene.become { pool with
    free := pool.free.set sizeClass (fragment :: pool.free.get sizeClass) }

/-- Carves some slots, as many as there is room for. -/
def grow (sizeClass : SizeClass) : Nat → Action (Scene Pool) Unit
  | 0 => pure ()
  | count + 1 => do
      match ← Action.attempt (inArena (Arena.carve sizeClass)) with
      | .ok extra => do
          push sizeClass extra
          grow sizeClass count
      | .error (.exhausted _) => pure ()
      | .error fault => .fail fault

def get (sizeClass : SizeClass) : Action (Scene Pool) Fragment := do
  let pool ← Scene.self
  match pool.free.get sizeClass with
  | fragment :: rest => do
      Scene.become { pool with free := pool.free.set sizeClass rest }
      pure fragment
  | [] => do
      let fragment ← inArena (Arena.carve sizeClass)
      grow sizeClass (pool.growBatch - 1)
      pure fragment

/-- Takes a slot of the first class that has one; `last` is the fault if there is none. -/
def getFirst (last : Fault) : List SizeClass → Action (Scene Pool) Fragment
  | [] => .fail last
  | sizeClass :: rest => do
      match ← Action.attempt (get sizeClass) with
      | .ok fragment => pure fragment
      | .error (.exhausted exhausted) => getFirst (.exhausted exhausted) rest
      | .error fault => .fail fault

/-- Takes a slot of the first class that has one. -/
def getFallback (classes : List SizeClass) : Action (Scene Pool) Fragment :=
  getFirst (.refused .noClass) classes

/-- Writes the header of a slot anew and puts the slot among the unused ones. -/
def restore (slot : UInt32) (descriptor : Descriptor) : Action (Scene Pool) Unit := do
  let pool ← Scene.self
  let place := pool.arena.segment.placeAt descriptor.position
  Scene.inMemory (.modify fun memory => memory.writeHeader place
    (Header.fresh pool.arena.rank slot descriptor.sizeClass descriptor.capacity))
  push descriptor.sizeClass
    { segment := pool.arena.segment
      position := descriptor.position
      slot
      sizeClass := descriptor.sizeClass
      capacity := descriptor.capacity.toNat }

/-- Gives a notice if the header of a slot does not say what the slot was carved as. -/
def compare (place : Place) (slot : UInt32) (descriptor : Descriptor) :
    Action (Scene Pool) Unit := do
  let found ← .look fun scene =>
    (UInt8.ofNat (scene.memory.load HeaderField.sizeClass place),
      UInt32.ofNat (scene.memory.load HeaderField.capacity place))
  if found.1.toNat ≠ descriptor.sizeClass.index ∨ found.2 ≠ descriptor.capacity then
    Scene.notify (.restored slot found.1 found.2 descriptor.sizeClass descriptor.capacity)

/-- Takes back the slot whose header begins at an address. -/
def recycle (address : Nat) : Action (Scene Pool) Unit := do
  let pool ← Scene.self
  let segment := pool.arena.segment
  if address < segment.file.base ∨ segment.size ≤ address - segment.file.base then
    .fail (.refused .foreignFragment)
  else
    let position := address - segment.file.base
    let place := segment.placeAt position
    let slot ← .look fun scene => UInt32.ofNat (scene.memory.load HeaderField.slot place)
    match pool.arena.descriptor? slot with
    | none => .abort (.notCarved position slot)
    | some descriptor =>
        if descriptor.position ≠ position then .abort (.notCarved position slot)
        else do
          compare place slot descriptor
          restore slot descriptor

def put (fragment : Fragment) : Action (Scene Pool) Unit := do
  let pool ← Scene.self
  if fragment.segment.file.base ≠ pool.arena.segment.file.base then
    .fail (.refused .foreignFragment)
  else recycle fragment.address

end Pool

end RankMail
