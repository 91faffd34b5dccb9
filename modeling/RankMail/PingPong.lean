import RankMail.Node

set_option autoImplicit false

/-! # Ping and pong

Two nodes of one directory: ping sends a payload and waits for it to come back, pong sends back
what it gets. After a round trip every slot is with its owner again, or on its way there, so
however many round trips there are, no slot has to be carved after the first.

The two take turns, and each turn is an action of its own: `request`, `answer`, `settle`.
-/

namespace RankMail

namespace PingPong

def pingRank : UInt32 := 0

def pongRank : UInt32 := 1

structure Session where
  ping : Node
  pong : Node
  world : World
deriving Repr, DecidableEq

/-- Who could not go on, and why. -/
inductive Stop where
  | ping (fault : Fault)
  | pong (fault : Fault)
deriving Repr, DecidableEq

variable {Value : Type}

def asPing (action : Action (Scene Node) Value) : Action Session Value :=
  .within (fun session => session.world.enter session.ping)
    (fun scene session =>
      { session with ping := scene.actor, world := session.world.leave scene }) action

def asPong (action : Action (Scene Node) Value) : Action Session Value :=
  .within (fun session => session.world.enter session.pong)
    (fun scene session =>
      { session with pong := scene.actor, world := session.world.leave scene }) action

/-- A node that has attached a peer. -/
def attached (node : Node) (peer : UInt32) : Action World Node := fun world =>
  match Node.attachPeer peer (node, world) with
  | .done _ (joined, after) => .done joined after
  | .failed fault (_, after) => .failed fault after
  | .aborted cause => .aborted cause
  | .hung => .hung

/-- Creates both nodes, and attaches each to the other. -/
def start (directory : String) (config : Config) : Action World (Node × Node) := do
  let ping ← Node.create directory pingRank config
  let pong ← Node.create directory pongRank config
  let pong ← attached pong pingRank
  let ping ← attached ping pongRank
  pure (ping, pong)

/-! ## A round trip -/

def request (payload : List UInt8) : Action Session Unit := asPing (Node.send pongRank payload)

/-- Pong sends back what it has got. -/
def answer : Action Session Unit := do
  match ← asPong Node.readQueue with
  | none => .fail (.refused .silence)
  | some message => do
      let echo ← .look fun session => message.payload session.world.memory
      asPong (Node.release message)
      asPong (Node.send pingRank echo)

/-- Ping takes the answer and gives it back. -/
def settle : Action Session Unit := do
  match ← asPing Node.readQueue with
  | none => .fail (.refused .noAnswer)
  | some message => asPing (Node.release message)

/-- The turns of one round trip, up to the first that fails. -/
def roundTrip (payload : List UInt8) : Action Session (Option Stop) := do
  match ← Action.attempt (request payload) with
  | .error fault => return some (.ping fault)
  | .ok _ =>
      match ← Action.attempt answer with
      | .error fault => return some (.pong fault)
      | .ok _ =>
          match ← Action.attempt settle with
          | .error fault => return some (.ping fault)
          | .ok _ => return none

def roundTrips (payload : List UInt8) : Nat → Action Session (Option Stop)
  | 0 => pure none
  | count + 1 => do
      match ← roundTrip payload with
      | some stop => return some stop
      | none => roundTrips payload count

end PingPong

end RankMail
