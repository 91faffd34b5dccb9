import RankMail.Fault

set_option autoImplicit false

/-! # Room for mappings

A process has only so many addresses. They lie in areas between what it consists of itself, and a
mapping has to fit into one area, so the longest that still fits may be shorter than all that is
left. An area keeps account of the mappings in it, each by its base and its length, but not of
where in the area they are. That an area is never overfull is part of its type.

Whether a process may have what it has mapped locked in physical memory is for the system to decide,
which may decide otherwise the next time it is asked.
-/

namespace RankMail

def totalLength (mappings : List (Nat × Nat)) : Nat :=
  mappings.foldr (fun mapping rest => mapping.2 + rest) 0

/-- An area of addresses, and the mappings in it by their bases and lengths. -/
structure Area where
  size : Nat
  taken : List (Nat × Nat)
  /-- The mappings fit into the area. -/
  fits : totalLength taken ≤ size := by decide
deriving Repr, DecidableEq

namespace Area

def used (area : Area) : Nat := totalLength area.taken

/-- Makes room for a mapping, if there is enough. -/
def take? (area : Area) (base length : Nat) : Option Area :=
  if enough : area.used + length ≤ area.size then
    some
      { size := area.size
        taken := (base, length) :: area.taken
        fits := by
          show length + area.used ≤ area.size
          omega }
  else none

theorem totalLength_filter_le (keep : Nat × Nat → Bool) (taken : List (Nat × Nat)) :
    totalLength (taken.filter keep) ≤ totalLength taken := by
  induction taken with
  | nil => exact Nat.le_refl 0
  | cons mapping rest ih =>
      have step : ∀ others, totalLength (mapping :: others) = mapping.2 + totalLength others :=
        fun _ => rfl
      rw [List.filter_cons, step]
      split
      · rw [step]
        omega
      · omega

def giveBack (area : Area) (base : Nat) : Area :=
  { size := area.size
    taken := area.taken.filter fun mapping => mapping.1 != base
    fits := Nat.le_trans (totalLength_filter_le _ area.taken) area.fits }

/-- Makes room for a mapping in the first area that has enough. -/
def takeFirst? (base length : Nat) : List Area → Option (List Area)
  | [] => none
  | area :: rest =>
      match area.take? base length with
      | some fuller => some (fuller :: rest)
      | none => (takeFirst? base length rest).map (area :: ·)

end Area

structure AddressSpace where
  /-- Those that are filled first are in front. -/
  areas : List Area
  /-- Why the system does not lock what is mapped, if it does not. -/
  lockFault : Option FileFault
deriving Repr, DecidableEq

namespace AddressSpace

/-- The addresses of a process that has mapped nothing and may lock what it maps. Its program lies
at two thirds of them, and what is above the program is filled first. -/
def start : AddressSpace :=
  { areas := [{ size := 2 ^ 47 / 3, taken := [] }, { size := 2 ^ 47 / 3 * 2, taken := [] }]
    lockFault := none }

def take? (space : AddressSpace) (base length : Nat) : Option AddressSpace :=
  (Area.takeFirst? base length space.areas).map fun areas => { space with areas }

def giveBack (space : AddressSpace) (base : Nat) : AddressSpace :=
  { space with areas := space.areas.map (·.giveBack base) }

theorem lockFault_take? {space fuller : AddressSpace} {base length : Nat}
    (taken : space.take? base length = some fuller) : fuller.lockFault = space.lockFault := by
  obtain ⟨areas, _, rfl⟩ := Option.map_eq_some_iff.mp taken
  rfl

@[simp] theorem lockFault_giveBack (space : AddressSpace) (base : Nat) :
    (space.giveBack base).lockFault = space.lockFault := rfl

end AddressSpace

end RankMail
