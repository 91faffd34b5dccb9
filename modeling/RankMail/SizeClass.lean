import RankMail.Power

set_option autoImplicit false

/-! # Size classes

Fragments come in three sizes. A `SizeClass` is one of the three, `PerClass` holds one thing for
each, and `Capacities` is the payload capacity of each class in bytes. The three capacities may
stand in any order; `Capacities.forPayload` picks the class of least capacity that holds a
payload, and `forPayload_eq_some`, `forPayload_eq_none_iff` say so.

A fragment occupies a slot of the arena: its header followed by its payload, filled up to a
multiple of the header's alignment. `slotSize` is the length of that slot.
-/

namespace RankMail

/-- The kinds of fragment, by purpose. -/
inductive SizeClass where
  | user
  | eager
  | maxSend
deriving Repr, DecidableEq

namespace SizeClass

/-- The classes in the order of their numbers. -/
def all : List SizeClass := [user, eager, maxSend]

/-- The number that stands for a class in a fragment's header. -/
def index : SizeClass → Nat
  | user => 0
  | eager => 1
  | maxSend => 2

def ofIndex? : Nat → Option SizeClass
  | 0 => some user
  | 1 => some eager
  | 2 => some maxSend
  | _ => none

/-- The name of a class in messages. -/
def name : SizeClass → String
  | user => "User"
  | eager => "Eager"
  | maxSend => "MaxSend"

theorem mem_all (sizeClass : SizeClass) : sizeClass ∈ all := by
  cases sizeClass <;> simp [all]

@[simp] theorem ofIndex?_index (sizeClass : SizeClass) :
    ofIndex? sizeClass.index = some sizeClass := by
  cases sizeClass <;> rfl

theorem index_lt (sizeClass : SizeClass) : sizeClass.index < 3 := by
  cases sizeClass <;> decide

end SizeClass

/-- One thing for each size class. -/
structure PerClass (α : Type) where
  user : α
  eager : α
  maxSend : α
deriving Repr, DecidableEq

namespace PerClass

variable {α β : Type}

def const (value : α) : PerClass α := ⟨value, value, value⟩

instance [Inhabited α] : Inhabited (PerClass α) := ⟨const default⟩

def get (held : PerClass α) : SizeClass → α
  | .user => held.user
  | .eager => held.eager
  | .maxSend => held.maxSend

def set (held : PerClass α) (sizeClass : SizeClass) (value : α) : PerClass α :=
  match sizeClass with
  | .user => { held with user := value }
  | .eager => { held with eager := value }
  | .maxSend => { held with maxSend := value }

/-- The three things in the order of the classes. -/
def toList (held : PerClass α) : List α := SizeClass.all.map held.get

def map (change : α → β) (held : PerClass α) : PerClass β :=
  ⟨change held.user, change held.eager, change held.maxSend⟩

theorem get_set (held : PerClass α) (sizeClass other : SizeClass) (value : α) :
    (held.set sizeClass value).get other = if other = sizeClass then value else held.get other := by
  cases sizeClass <;> cases other <;> rfl

@[simp] theorem get_const (value : α) (sizeClass : SizeClass) :
    (const value).get sizeClass = value := by
  cases sizeClass <;> rfl

@[simp] theorem get_map (change : α → β) (held : PerClass α) (sizeClass : SizeClass) :
    (held.map change).get sizeClass = change (held.get sizeClass) := by
  cases sizeClass <;> rfl

end PerClass

/-! ## Slots -/

def headerSize : Nat := 64

/-- Headers lie at multiples of this. -/
def headerAlignment : Nat := 64

/-- The greatest payload capacity: a capacity and a whole slot's length fit 32 bits. -/
def maxCapacity : Nat := 2 ^ 32 - 1 - headerSize

/-- The next multiple of `alignment`. -/
def alignUp (alignment number : Nat) : Nat := (number + (alignment - 1)) / alignment * alignment

/-- The bytes of the arena that a fragment of a given capacity takes, if the capacity is allowed. -/
def slotSize (capacity : Nat) : Option Nat :=
  if maxCapacity < capacity then none else some (alignUp headerAlignment (headerSize + capacity))

/-! ## Capacities -/

/-- The payload capacity of each class, in bytes. -/
abbrev Capacities := PerClass UInt64

namespace Capacities

def capacity (capacities : Capacities) (sizeClass : SizeClass) : Nat :=
  (capacities.get sizeClass).toNat

/-- The class that has a given capacity; of several the first. -/
def ofCapacity? (capacities : Capacities) (capacity : Nat) : Option SizeClass :=
  SizeClass.all.find? fun sizeClass => capacities.capacity sizeClass == capacity

/-- The class of least capacity in a list; of several the first. -/
def narrowest (capacities : Capacities) : List SizeClass → Option SizeClass
  | [] => none
  | sizeClass :: rest =>
      match narrowest capacities rest with
      | none => some sizeClass
      | some other =>
          some (if capacities.capacity other < capacities.capacity sizeClass then other
            else sizeClass)

/-- The class of least capacity that holds `length` bytes. -/
def forPayload (capacities : Capacities) (length : Nat) : Option SizeClass :=
  capacities.narrowest
    (SizeClass.all.filter fun sizeClass => length ≤ capacities.capacity sizeClass)

theorem narrowest_eq_none_iff {capacities : Capacities} {classes : List SizeClass} :
    capacities.narrowest classes = none ↔ classes = [] := by
  cases classes with
  | nil => simp [narrowest]
  | cons sizeClass rest =>
      simp only [narrowest]
      split <;> simp

theorem narrowest_eq_some {capacities : Capacities} {classes : List SizeClass}
    {chosen : SizeClass} (found : capacities.narrowest classes = some chosen) :
    chosen ∈ classes ∧
      ∀ other ∈ classes, capacities.capacity chosen ≤ capacities.capacity other := by
  induction classes generalizing chosen with
  | nil => simp [narrowest] at found
  | cons sizeClass rest ih =>
      simp only [narrowest] at found
      split at found
      · rename_i none_left
        obtain rfl := Option.some.inj found
        have nothing := narrowest_eq_none_iff.mp none_left
        subst nothing
        simp
      · rename_i other some_left
        obtain ⟨member, least⟩ := ih some_left
        split at found
        · rename_i smaller
          obtain rfl := Option.some.inj found
          refine ⟨List.mem_cons_of_mem _ member, ?_⟩
          intro candidate inside
          rcases List.mem_cons.mp inside with rfl | inside
          · omega
          · exact least candidate inside
        · rename_i not_smaller
          obtain rfl := Option.some.inj found
          refine ⟨List.mem_cons_self, ?_⟩
          intro candidate inside
          rcases List.mem_cons.mp inside with rfl | inside
          · exact Nat.le_refl _
          · have := least candidate inside
            omega

/-- The chosen class holds the payload, and no class that does is smaller. -/
theorem forPayload_eq_some {capacities : Capacities} {length : Nat} {chosen : SizeClass}
    (found : capacities.forPayload length = some chosen) :
    length ≤ capacities.capacity chosen ∧
      ∀ other, length ≤ capacities.capacity other →
        capacities.capacity chosen ≤ capacities.capacity other := by
  obtain ⟨member, least⟩ := narrowest_eq_some found
  refine ⟨by simpa using (List.mem_filter.mp member).2, ?_⟩
  intro other holds
  exact least other (List.mem_filter.mpr ⟨SizeClass.mem_all other, by simpa using holds⟩)

theorem forPayload_eq_none_iff {capacities : Capacities} {length : Nat} :
    capacities.forPayload length = none ↔
      ∀ sizeClass, capacities.capacity sizeClass < length := by
  rw [forPayload, narrowest_eq_none_iff, List.filter_eq_nil_iff]
  constructor
  · intro none_holds sizeClass
    simpa using none_holds sizeClass (SizeClass.mem_all sizeClass)
  · intro short sizeClass _
    simpa using short sizeClass

end Capacities

end RankMail
