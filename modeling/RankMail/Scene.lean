import RankMail.Outcome
import RankMail.Notice
import RankMail.Memory.Basic

set_option autoImplicit false

/-! # Scenes

Most of what an arena, a pool or a node does changes itself and shared memory, and nothing else: no
file is made, found or removed. A `Scene` is such an actor with the memory it works on and the
notices it has given. That the disk stays as it is, is so by type.
-/

namespace RankMail

/-- An actor, shared memory, and the notices given so far. -/
structure Scene (Actor : Type) where
  actor : Actor
  memory : Memory
  notices : List Notice
deriving Repr, DecidableEq

namespace Scene

variable {Actor Part Value : Type}

def self : Action (Scene Actor) Actor := .look Scene.actor

def become (actor : Actor) : Action (Scene Actor) Unit := .modify fun scene =>
  { scene with actor }

/-- Works on shared memory. -/
def inMemory (action : Action Memory Value) : Action (Scene Actor) Value :=
  .within Scene.memory (fun memory scene => { scene with memory }) action

/-- Lets a part of the actor act. -/
def inPart (part : Actor → Part) (replace : Part → Actor → Actor)
    (action : Action (Scene Part) Value) : Action (Scene Actor) Value :=
  .within (fun scene => ⟨part scene.actor, scene.memory, scene.notices⟩)
    (fun inner scene => ⟨replace inner.actor scene.actor, inner.memory, inner.notices⟩) action

def notify (notice : Notice) : Action (Scene Actor) Unit := .modify fun scene =>
  { scene with notices := scene.notices ++ [notice] }

@[simp] theorem self_apply (scene : Scene Actor) :
    (self : Action (Scene Actor) Actor) scene = .done scene.actor scene := rfl

@[simp] theorem become_apply (actor : Actor) (scene : Scene Actor) :
    (become actor) scene = .done () { scene with actor } := rfl

@[simp] theorem notify_apply (notice : Notice) (scene : Scene Actor) :
    (notify notice) scene = .done () { scene with notices := scene.notices ++ [notice] } := rfl

theorem inMemory_apply (action : Action Memory Value) (scene : Scene Actor) :
    (inMemory action) scene =
      (action scene.memory).mapState fun memory => { scene with memory } := rfl

theorem inPart_apply (part : Actor → Part) (replace : Part → Actor → Actor)
    (action : Action (Scene Part) Value) (scene : Scene Actor) :
    (inPart part replace action) scene =
      (action ⟨part scene.actor, scene.memory, scene.notices⟩).mapState fun inner =>
        ⟨replace inner.actor scene.actor, inner.memory, inner.notices⟩ := rfl

end Scene

end RankMail
