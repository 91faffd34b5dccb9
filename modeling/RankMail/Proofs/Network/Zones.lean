import RankMail.Proofs.Network.Chart

set_option autoImplicit false

/-! # Who writes where

The bytes that a network works on fall into zones, each with a use of its own:

    cursor    where the next slot of a rank is carved
    queue     the head and the tail of a rank's queue
    bell      the two words of a rank's doorbell
    link      what the header of a slot is linked to
    name      what the header of a slot never changes: who carved it, its index and its capacity
    body      the rest of the slot: length, flags, class and payload

No two zones share a byte (`Charted.zones_apart`), so a step that names the zones it writes leaves
all others as they are (`Charted.read_zone`).
-/

namespace RankMail

/-- A part of shared memory with a use of its own. -/
inductive Zone where
  | cursor (rank : UInt32)
  | queue (rank : UInt32)
  | bell (rank : UInt32)
  | link (offset : Offset)
  | name (offset : Offset)
  | body (offset : Offset) (capacity : Nat)
deriving DecidableEq

namespace Zone

/-- Whose control words, or which slot, a zone belongs to. -/
def home : Zone → UInt32 ⊕ Offset
  | cursor rank => .inl rank
  | queue rank => .inl rank
  | bell rank => .inl rank
  | link offset => .inr offset
  | name offset => .inr offset
  | body offset _ => .inr offset

def start : Zone → Nat
  | cursor _ => 32
  | queue _ => queueStart
  | bell _ => doorbellStart
  | link _ => 0
  | name _ => 8
  | body _ _ => 20

def length : Zone → Nat
  | cursor _ => 8
  | queue _ => 16
  | bell _ => 8
  | link _ => 8
  | name _ => 12
  | body _ capacity => 44 + capacity

/-- Zones of one home that begin elsewhere share no byte. -/
theorem split {one two : Zone} (same : one.home = two.home) (differ : one.start ≠ two.start) :
    one.start + one.length ≤ two.start ∨ two.start + two.length ≤ one.start := by
  cases one <;> cases two <;>
    simp [home, start, length, queueStart, doorbellStart] at same differ ⊢

theorem stop_le {zone : Zone} {rank : UInt32} (control : zone.home = .inl rank) :
    zone.start + zone.length ≤ arenaStart := by
  cases zone <;> simp [home, start, length, queueStart, doorbellStart, arenaStart] at control ⊢

end Zone

namespace Network

variable {network : Network} {before after : Memory} {zones : List Zone} {zone one two : Zone}

def zonePlace (network : Network) (zone : Zone) : Place :=
  match zone.home with
  | .inl rank => ⟨network.region rank, zone.start⟩
  | .inr offset => (network.place offset).shift zone.start

def range (network : Network) (zone : Zone) : Place × Nat :=
  (network.zonePlace zone, zone.length)

def HasZone (network : Network) (zone : Zone) : Prop :=
  match zone with
  | .cursor rank | .queue rank | .bell rank => ∃ node, network.nodes rank = some node
  | .link offset | .name offset => network.IsCarved offset
  | .body offset capacity => ∃ index descriptor, network.Slot offset index descriptor ∧
      capacity = descriptor.capacity.toNat

/-- Two memories differ at most in some zones. -/
structure Changes (network : Network) (zones : List Zone) (before after : Memory) : Prop where
  known : ∀ zone ∈ zones, network.HasZone zone
  keeps : Memory.Keeps (zones.map network.range) before after

theorem HasZone.node {rank : UInt32} (has : network.HasZone zone)
    (control : zone.home = .inl rank) : ∃ node, network.nodes rank = some node := by
  cases zone <;> simp only [Zone.home, Sum.inl.injEq, reduceCtorEq] at control
  all_goals exact control ▸ has

theorem HasZone.slot {offset : Offset} (has : network.HasZone zone)
    (inside : zone.home = .inr offset) :
    ∃ index descriptor, network.Slot offset index descriptor ∧
      zone.start + zone.length ≤ headerSize + descriptor.capacity.toNat := by
  cases zone with
  | cursor | queue | bell => simp [Zone.home] at inside
  | link | name =>
      obtain rfl := Sum.inr.inj inside
      obtain ⟨index, descriptor, slot⟩ := has
      exact ⟨index, descriptor, slot, by simp only [Zone.start, Zone.length, headerSize]; omega⟩
  | body =>
      obtain rfl := Sum.inr.inj inside
      obtain ⟨index, descriptor, slot, rfl⟩ := has
      exact ⟨index, descriptor, slot, by simp only [Zone.start, Zone.length, headerSize]; omega⟩

end Network

namespace Charted

variable {directory : String} {mapped : List Segment} {network : Network} {one two : Zone}
  {before after : Memory} {zones : List Zone}

theorem start_ne (carved : network.AreCarved) (here : network.HasZone one)
    (there : network.HasZone two) (differ : one ≠ two) (same : one.home = two.home) :
    one.start ≠ two.start := by
  cases one <;> cases two <;>
    simp only [Zone.home, Zone.start, queueStart, doorbellStart, reduceCtorEq, Sum.inl.injEq,
      Sum.inr.injEq, ne_eq, not_true_eq_false] at same ⊢ <;> subst same
  case body.body =>
      obtain ⟨_, _, slot, rfl⟩ := here
      obtain ⟨_, _, again, rfl⟩ := there
      exact differ (by rw [(slot_unique carved slot again).2])
  all_goals first | exact differ rfl | decide

/-- Different zones share no byte. -/
theorem zones_apart (charted : Charted directory mapped network) (carved : network.AreCarved)
    (here : network.HasZone one) (there : network.HasZone two) (differ : one ≠ two) :
    Memory.Apart (network.zonePlace one) one.length (network.zonePlace two) two.length := by
  by_cases same : one.home = two.home
  · have split := Zone.split same (start_ne carved here there differ same)
    intro _
    simp only [Network.zonePlace, same]
    cases two.home <;> simp only [Place.shift] <;> omega
  · cases home : one.home with
    | inl rank =>
        obtain ⟨node, found⟩ := here.node home
        have below := Zone.stop_le home
        cases homeOther : two.home with
        | inl other =>
            obtain ⟨peer, foundPeer⟩ := there.node homeOther
            simp only [Network.zonePlace, home, homeOther]
            intro regions
            rw [Network.region_of_node found, Network.region_of_node foundPeer] at regions
            exact absurd (by rw [home, homeOther, charted.regions found foundPeer regions]) same
        -- Control words lie before the slots of the same file.
        | inr offset =>
            obtain ⟨_, _, slot, _⟩ := there.slot homeOther
            have above := slot_above carved slot
            simp only [Network.zonePlace, home, homeOther, Place.shift, Network.place, Memory.Apart]
            intro _
            omega
    | inr offset =>
        obtain ⟨_, _, slot, stop⟩ := here.slot home
        cases homeOther : two.home with
        | inl other =>
            have above := slot_above carved slot
            have below := Zone.stop_le homeOther
            simp only [Network.zonePlace, home, homeOther, Place.shift, Network.place, Memory.Apart]
            intro _
            omega
        | inr other =>
            obtain ⟨_, _, slotOther, stopOther⟩ := there.slot homeOther
            -- Two slots, and different slots lie apart.
            have differ : offset ≠ other := by
              rintro rfl
              exact same (home.trans homeOther.symm)
            simp only [Network.zonePlace, home, homeOther, Place.shift, Memory.Apart]
            intro regions
            have split := charted.slots_apart carved slot slotOther differ regions
            omega

theorem read_zone (charted : Charted directory mapped network) (carved : network.AreCarved)
    (changes : network.Changes zones before after) (zone : Zone) (has : network.HasZone zone)
    (away : zone ∉ zones) :
    after.read (network.zonePlace zone) zone.length =
      before.read (network.zonePlace zone) zone.length := by
  refine changes.keeps.read fun range inside => ?_
  obtain ⟨other, member, rfl⟩ := List.mem_map.mp inside
  refine charted.zones_apart carved has (changes.known other member) ?_
  rintro rfl
  exact away member

end Charted

end RankMail
