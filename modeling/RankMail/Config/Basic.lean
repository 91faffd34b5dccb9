import RankMail.Layout
import RankMail.Fault

set_option autoImplicit false

/-! # Configuration of a node

How large a node's segment is, the capacities of its fragments, how many slots are carved at once,
and how the node waits. `Config.validate` accepts the configurations with which a node can be
created and a fragment of each class taken.
-/

namespace RankMail

/-- How an idle receiver waits. -/
inductive WaitStrategy where
  /-- Looks at its queue for some microseconds, then sleeps until the doorbell rings. -/
  | hybrid (spin : UInt32)
  /-- Sleeps for a fixed number of microseconds. -/
  | busyPoll (interval : UInt64)
deriving Repr, DecidableEq

namespace WaitStrategy

/-- Sleeps for a number of nanoseconds, in whole microseconds of 64 bits. -/
def busyPollOf (nanoseconds : Nat) : WaitStrategy := .busyPoll (UInt64.ofNat (nanoseconds / 1000))

def inspect : WaitStrategy → String
  | hybrid spin => "Hybrid \x7b spin_us: " ++ toString spin ++ " \x7d"
  | busyPoll interval => "BusyPoll \x7b interval_us: " ++ toString interval ++ " \x7d"

end WaitStrategy

structure Config where
  /-- The size of the node's segment in bytes, control words included. -/
  segmentSize : UInt64
  capacities : Capacities
  /-- How many slots are carved each time a free list has run dry. -/
  growBatch : UInt64
  wait : WaitStrategy
  /-- Whether the file of the segment is removed when the segment is closed. -/
  removeOnClose : Bool
  /-- Whether the segment is kept in physical memory. -/
  lockMemory : Bool
deriving Repr, DecidableEq

namespace Capacities

/-- The capacities of a node that asks for none. -/
def standard : Capacities := ⟨192, 4096, 32768⟩

def largestSlot (capacities : Capacities) : Except Fault Nat :=
  capacities.toList.foldlM (fun largest capacity =>
    match slotSize capacity.toNat with
    | some size => .ok (max largest size)
    | none => .error (.config .capacityTooLarge)) 0

/-- Whether fragments can be carved with these capacities, and if not, why. -/
def validate (capacities : Capacities) : Except Fault Unit :=
  if capacities.user = 0 ∨ capacities.eager = 0 ∨ capacities.maxSend = 0 then
    .error (.config .zeroCapacity)
  else if capacities.user = capacities.eager ∨ capacities.user = capacities.maxSend
      ∨ capacities.eager = capacities.maxSend then
    .error (.config .equalCapacities)
  else do
    let _ ← capacities.largestSlot
    .ok ()

end Capacities

namespace Config

def standardGrowBatch : UInt64 := 8

def standardWait : WaitStrategy := .hybrid 20

/-- The configuration of a node that only says how large its segment is. -/
def ofSegmentSize (segmentSize : UInt64) : Config :=
  { segmentSize
    capacities := .standard
    growBatch := standardGrowBatch
    wait := standardWait
    removeOnClose := true
    lockMemory := false }

def standard : Config := ofSegmentSize 4194304

/-- Whether a node can be created with a configuration, and if not, why. -/
def validate (config : Config) : Except Fault Unit :=
  if maxSegmentSize < config.segmentSize.toNat then .error (.config .segmentTooLarge)
  else if config.segmentSize.toNat ≤ arenaStart then .error (.config .noDataRegion)
  else if config.growBatch = 0 then .error (.config .noGrowth)
  else do
    config.capacities.validate
    if config.segmentSize.toNat - arenaStart < (← config.capacities.largestSlot) then
      .error (.config .slotTooLarge)
    else .ok ()

end Config

end RankMail
