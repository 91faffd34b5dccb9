import RankMail.AddressMap

set_option autoImplicit false

/-! # Sites

Each process maps the segments of a job at addresses of its own, but all of them mean the same bytes
by the same offset. A `Site` says which bytes: it gives the file of every rank, and no two ranks
share a file. An address map that keeps to a site (`Site.Knows` for one rank, `Site.Covers` for all)
takes an offset to the place that the site names, whatever the base addresses are: `header_eq`.
-/

namespace RankMail

theorem Offset.eq_of_toNat {offset other : Offset} (ranks : offset.rank = other.rank)
    (positions : offset.position.toNat = other.position.toNat) : offset = other := by
  obtain ⟨rank, position⟩ := offset
  obtain ⟨rankOther, positionOther⟩ := other
  obtain rfl : rank = rankOther := ranks
  obtain rfl : position = positionOther := UInt32.toNat_inj.mp positions
  rfl

structure Home where
  region : Nat
  size : Nat

instance : Inhabited Home := ⟨⟨0, 0⟩⟩

/-- Which file belongs to which rank. -/
structure Site where
  home : UInt32 → Option Home
  /-- No two ranks share a file. -/
  apart : ∀ {rank other here there}, home rank = some here → home other = some there →
    here.region = there.region → rank = other

namespace Site

variable {site : Site} {map : AddressMap} {offset other : Offset}

def place (site : Site) (offset : Offset) : Place :=
  ⟨((site.home offset.rank).getD default).region, offset.position.toNat⟩

/-- An offset at which the header of a fragment may begin: its rank has a file, the whole header
lies in it, and the position is aligned. -/
def IsSlot (site : Site) (offset : Offset) : Prop :=
  ∃ home, site.home offset.rank = some home ∧ offset.position.toNat % headerAlignment = 0 ∧
    offset.position.toNat + headerSize ≤ home.size

/-- An address map has mapped the file of a rank, at an aligned base. -/
def Knows (site : Site) (map : AddressMap) (rank : UInt32) : Prop :=
  ∃ home mapping, site.home rank = some home ∧ map.find? rank = some mapping ∧
    mapping.region = home.region ∧ mapping.size = home.size ∧ mapping.base % headerAlignment = 0

def Covers (site : Site) (map : AddressMap) : Prop :=
  ∀ {rank home}, site.home rank = some home → site.Knows map rank

theorem place_of_home {home : Home} (found : site.home offset.rank = some home) :
    site.place offset = ⟨home.region, offset.position.toNat⟩ := by
  rw [place, found]
  rfl

/-- The mark `free` is no place of a header, for it is not aligned. -/
theorem IsSlot.proper (slot : site.IsSlot offset) : offset ≠ .free := by
  rintro rfl
  obtain ⟨_, _, aligned, _⟩ := slot
  exact absurd aligned (by decide)

theorem IsSlot.apart (one : site.IsSlot offset) (two : site.IsSlot other)
    (differ : offset ≠ other) :
    Memory.Apart (site.place offset) headerSize (site.place other) headerSize := by
  obtain ⟨here, found, aligned, _⟩ := one
  obtain ⟨there, foundOther, alignedOther, _⟩ := two
  rw [place_of_home found, place_of_home foundOther]
  intro same
  have ranks : offset.rank = other.rank := site.apart found foundOther same
  -- In one file they begin at different multiples of the length of a header.
  have positions : offset.position.toNat ≠ other.position.toNat := fun equal =>
    differ (Offset.eq_of_toNat ranks equal)
  simp only [headerAlignment] at aligned alignedOther
  simp only [headerSize]
  omega

theorem resolve_of_mapping {mapping : Mapping} (proper : offset ≠ .free)
    (found : map.find? offset.rank = some mapping)
    (inside : offset.position.toNat + headerSize ≤ mapping.size)
    (aligned : offset.position.toNat % headerAlignment = 0)
    (base : mapping.base % headerAlignment = 0) :
    map.resolve offset = .ok (mapping.base + offset.position.toNat) ∧
      map.header offset = .ok ⟨mapping.region, offset.position.toNat⟩ := by
  have notFree : offset.isFree = false := by simpa [Offset.isFree] using proper
  have expected : map.expect offset.rank = .ok mapping := by
    rw [AddressMap.expect, found]
  simp only [headerSize, headerAlignment] at inside aligned base
  have room : ¬mapping.size < offset.position.toNat + headerSize := by
    simp only [headerSize]
    omega
  have within : ¬mapping.size ≤ offset.position.toNat := by omega
  have address : map.address offset = .ok (mapping.base + offset.position.toNat) := by
    simp [AddressMap.address, notFree, expected, within, bind, Except.bind]
  have even : (mapping.base + offset.position.toNat) % headerAlignment = 0 := by
    simp only [headerAlignment]
    omega
  have resolved : map.resolve offset = .ok (mapping.base + offset.position.toNat) := by
    simp [AddressMap.resolve, expected, room, address, even, bind, Except.bind]
  have located : map.place offset = .ok ⟨mapping.region, offset.position.toNat⟩ := by
    simp [AddressMap.place, expected, address, bind, Except.bind]
  refine ⟨resolved, ?_⟩
  rw [AddressMap.header, resolved]
  exact located

theorem header_eq (slot : site.IsSlot offset) (knows : site.Knows map offset.rank) :
    map.header offset = .ok (site.place offset) := by
  have proper := slot.proper
  obtain ⟨home, foundHome, aligned, inside⟩ := slot
  obtain ⟨_, mapping, foundAgain, found, region, size, base⟩ := knows
  obtain rfl := Option.some.inj (foundHome.symm.trans foundAgain)
  rw [place_of_home foundHome, ← region]
  exact (resolve_of_mapping proper found (size ▸ inside) aligned base).2

end Site

end RankMail
