import RankMail.Proofs.Ends
import RankMail.Proofs.Memory.Frame
import RankMail.Scene

set_option autoImplicit false

/-! # How far an action sees

What an action reads shows in what it does: from two states that differ only where it does not look,
it comes to the same end. What it writes shows in the state it leaves. A `Scope` says which states
an action may not tell apart and what it has to leave alone, and `Scope.Bounds` says that an action
keeps to it, aborts and hangs included: it does not even abort for a reason that it cannot see.

    action        may tell apart            has to leave alone
    in memory     the bytes it is allowed   all other bytes
    in a scene    those, the actor, and     all other bytes
                  the notices
-/

namespace RankMail

variable {State Part Value Result : Type}

/-- Two outcomes are the same, and the states they go on with cannot be told apart. -/
def Outcome.Matches (same : State → State → Prop) :
    Outcome State Value → Outcome State Value → Prop
  | done value state, done other twin => value = other ∧ same state twin
  | failed fault state, failed other twin => fault = other ∧ same state twin
  | aborted cause, aborted other => cause = other
  | hung, hung => True
  | _, _ => False

/-- What an action may tell of a state, and what it has to leave alone. -/
structure Scope (State : Type) where
  /-- The action may not tell these two states apart. -/
  Same : State → State → Prop
  /-- What the action has to leave alone is as before. -/
  Kept : State → State → Prop
  refl (state : State) : Kept state state
  trans {before between after : State} :
    Kept before between → Kept between after → Kept before after

namespace Scope

variable {scope : Scope State} {state : State}

/-- An action keeps to a scope, from a certain state on. -/
structure Bounds (scope : Scope State) (action : Action State Value) (state : State) : Prop where
  tells : ∀ {twin}, scope.Same state twin → (action state).Matches scope.Same (action twin)
  leaves : (action state).Meets True fun _ after => scope.Kept state after

/-! ## Actions of any kind -/

theorem bounds_pure (value : Value) : scope.Bounds (pure value) state :=
  ⟨fun same => ⟨rfl, same⟩, scope.refl state⟩

theorem bounds_fail (fault : Fault) : scope.Bounds (.fail fault : Action State Value) state :=
  ⟨fun same => ⟨rfl, same⟩, scope.refl state⟩

theorem bounds_abort (cause : Abort) : scope.Bounds (.abort cause : Action State Value) state :=
  ⟨fun _ => rfl, trivial⟩

theorem bounds_hang : scope.Bounds (.hang : Action State Value) state := ⟨fun _ => trivial, trivial⟩

theorem bounds_look {view : State → Value}
    (seen : ∀ {twin}, scope.Same state twin → view state = view twin) :
    scope.Bounds (.look view) state :=
  ⟨fun same => ⟨seen same, same⟩, scope.refl state⟩

theorem bounds_modify {change : State → State}
    (same : ∀ {twin}, scope.Same state twin → scope.Same (change state) (change twin))
    (kept : scope.Kept state (change state)) : scope.Bounds (.modify change) state :=
  ⟨fun twin => ⟨rfl, same twin⟩, kept⟩

theorem bounds_bind {action : Action State Value} {next : Value → Action State Result}
    (one : scope.Bounds action state)
    (two : ∀ {value between}, action state = .done value between →
      scope.Bounds (next value) between) :
    scope.Bounds (action >>= next) state where
  tells {twin} same := by
    have matched := one.tells same
    rw [Action.bind_apply, Action.bind_apply]
    cases here : action state with
    | done value between =>
        rw [here] at matched
        cases there : action twin with
        | done other middle =>
            rw [there] at matched
            obtain ⟨rfl, alike⟩ := matched
            exact (two here).tells alike
        | failed | aborted | hung =>
            rw [there] at matched
            exact matched.elim
    | failed fault between =>
        rw [here] at matched
        cases there : action twin with
        | failed other middle =>
            rw [there] at matched
            exact matched
        | done | aborted | hung =>
            rw [there] at matched
            exact matched.elim
    | aborted cause =>
        rw [here] at matched
        cases there : action twin with
        | aborted other =>
            rw [there] at matched
            exact matched
        | done | failed | hung =>
            rw [there] at matched
            exact matched.elim
    | hung =>
        rw [here] at matched
        cases there : action twin with
        | hung => trivial
        | done | failed | aborted =>
            rw [there] at matched
            exact matched.elim
  leaves := by
    refine Action.meets_bind ?_
    have kept := one.leaves
    cases here : action state with
    | done value between =>
        rw [here] at kept
        exact (two here).leaves.mono fun _ _ later => scope.trans kept later
    | failed fault between =>
        rw [here] at kept
        exact kept
    | aborted cause => trivial
    | hung => trivial

theorem bounds_ofAbort (value : Except Abort Value) :
    scope.Bounds (.ofAbort value : Action State Value) state := by
  cases value with
  | ok value => exact bounds_pure value
  | error cause => exact bounds_abort cause

theorem bounds_attempt {action : Action State Value} (bounds : scope.Bounds action state) :
    scope.Bounds (.attempt action) state where
  tells {twin} same := by
    have matched := bounds.tells same
    rw [Action.attempt, Action.attempt]
    cases here : action state <;> cases there : action twin <;> rw [here, there] at matched
    case done.done => exact ⟨congrArg Except.ok matched.1, matched.2⟩
    case failed.failed => exact ⟨congrArg Except.error matched.1, matched.2⟩
    case aborted.aborted => exact matched
    case hung.hung => trivial
    all_goals exact matched.elim
  leaves := Action.meets_attempt bounds.leaves

/-- An action on a part of a state keeps to a scope of the whole that covers one of the part. -/
theorem bounds_within {inner : Scope Part} {part : State → Part} {replace : Part → State → State}
    {action : Action Part Value} (bounds : inner.Bounds action (part state))
    (sees : ∀ {twin}, scope.Same state twin → inner.Same (part state) (part twin) ∧
      ∀ {changed other}, inner.Same changed other →
        scope.Same (replace changed state) (replace other twin))
    (keeps : ∀ {changed}, inner.Kept (part state) changed →
      scope.Kept state (replace changed state)) :
    scope.Bounds (.within part replace action) state where
  tells {twin} same := by
    obtain ⟨alike, puts⟩ := sees same
    have matched := bounds.tells alike
    rw [Action.within_apply, Action.within_apply]
    cases here : action (part state) <;> cases there : action (part twin) <;>
      rw [here, there] at matched
    case done.done => exact ⟨matched.1, puts matched.2⟩
    case failed.failed => exact ⟨matched.1, puts matched.2⟩
    all_goals exact matched
  leaves := Action.meets_within.mpr (bounds.leaves.mono fun _ _ kept => keeps kept)

/-! ## A part that stays -/

/-- Nothing has to be hidden, and a part of the state stays. -/
def keeping (view : State → Part) : Scope State where
  Same := Eq
  Kept before after := view after = view before
  refl _ := rfl
  trans one two := two.trans one

theorem bounds_keeping {view : State → Part} {action : Action State Value}
    (leaves : (action state).Meets True fun _ after => view after = view state) :
    (keeping view).Bounds action state where
  tells := by
    rintro _ rfl
    cases action state with
    | done | failed => exact ⟨rfl, rfl⟩
    | aborted => rfl
    | hung => trivial
  leaves := leaves

/-! ## Memory -/

section

variable {allowed : Place → Prop} {memory : Memory}

/-- Memory of which some bytes may be read and written, and no others. -/
def ofMemory (allowed : Place → Prop) : Scope Memory where
  Same one two := ∀ place, allowed place → one.byte place = two.byte place
  Kept before after := ∀ place, ¬allowed place → after.byte place = before.byte place
  refl _ _ _ := rfl
  trans one two place outside := (two place outside).trans (one place outside)

/-- All bytes of a range are allowed. -/
def Covers (allowed : Place → Prop) (place : Place) (count : Nat) : Prop :=
  ∀ distance < count, allowed (place.shift distance)

theorem Covers.part {place : Place} {distance count total : Nat}
    (covers : Covers allowed place total) (inside : distance + count ≤ total) :
    Covers allowed (place.shift distance) count := by
  intro further small
  have covered := covers (distance + further) (by omega)
  rwa [Place.shift, ← Nat.add_assoc] at covered

theorem read_same {twin : Memory} {place : Place} {count : Nat}
    (covers : Covers allowed place count) (same : (Scope.ofMemory allowed).Same memory twin) :
    memory.read place count = twin.read place count := by
  rw [Memory.read_eq_map, Memory.read_eq_map]
  exact List.map_congr_left fun distance inside =>
    same _ (covers distance (List.mem_range.mp inside))

theorem load_same {twin : Memory} {field : Field} {block : Place}
    (covers : Covers allowed (block.shift field.distance) field.width)
    (same : (Scope.ofMemory allowed).Same memory twin) :
    memory.load field block = twin.load field block :=
  congrArg LittleEndian.value (read_same covers same)

theorem write_same {twin : Memory} (place : Place) (data : List UInt8)
    (same : (Scope.ofMemory allowed).Same memory twin) :
    (Scope.ofMemory allowed).Same (memory.write place data) (twin.write place data) := by
  intro other inside
  rw [Memory.byte_write, Memory.byte_write, same other inside]

theorem write_kept {place : Place} {data : List UInt8} (covers : Covers allowed place data.length) :
    (Scope.ofMemory allowed).Kept memory (memory.write place data) := by
  intro other outside
  rw [Memory.byte_write, if_neg]
  rintro ⟨region, above, below⟩
  refine outside ?_
  have covered := covers (other.address - place.address) (by omega)
  rwa [Place.shift, ← region, Nat.add_sub_cancel' above] at covered

theorem bounds_write {place : Place} {data : List UInt8}
    (covers : Covers allowed place data.length) :
    (Scope.ofMemory allowed).Bounds (.modify fun memory => memory.write place data) memory :=
  bounds_modify (write_same place data) (write_kept covers)

theorem store_kept {field : Field} {block : Place} (number : Nat)
    (covers : Covers allowed (block.shift field.distance) field.width) :
    (Scope.ofMemory allowed).Kept memory (memory.store field block number) := by
  refine write_kept ?_
  rwa [LittleEndian.length_bytes]

theorem bounds_store {field : Field} {block : Place} {number : Nat}
    (covers : Covers allowed (block.shift field.distance) field.width) :
    (Scope.ofMemory allowed).Bounds (.modify fun memory => memory.store field block number)
      memory :=
  bounds_modify (write_same _ _) (store_kept number covers)

end

/-! ## Scenes -/

section

variable {Actor : Type} {allowed : Place → Prop} {scene : Scene Actor}

/-- A scene of which the actor, the notices and some bytes may be told. -/
def ofScene (allowed : Place → Prop) : Scope (Scene Actor) where
  Same one two := one.actor = two.actor ∧ one.notices = two.notices ∧
    (Scope.ofMemory allowed).Same one.memory two.memory
  Kept before after := (Scope.ofMemory allowed).Kept before.memory after.memory
  refl scene := (Scope.ofMemory allowed).refl scene.memory
  trans := (Scope.ofMemory allowed).trans

theorem bounds_self : (Scope.ofScene allowed).Bounds Scene.self scene := bounds_look And.left

theorem bounds_become (actor : Actor) : (Scope.ofScene allowed).Bounds (Scene.become actor) scene :=
  bounds_modify (fun same => ⟨rfl, same.2⟩) fun _ _ => rfl

theorem bounds_notify (notice : Notice) :
    (Scope.ofScene allowed).Bounds (Scene.notify notice) scene :=
  bounds_modify (fun same => ⟨same.1, by rw [same.2.1], same.2.2⟩) fun _ _ => rfl

theorem bounds_inMemory {action : Action Memory Value}
    (bounds : (Scope.ofMemory allowed).Bounds action scene.memory) :
    (Scope.ofScene allowed).Bounds (Scene.inMemory action) scene :=
  bounds_within bounds (fun same => ⟨same.2.2, fun alike => ⟨same.1, same.2.1, alike⟩⟩) id

theorem bounds_inPart {part : Actor → Part} {replace : Part → Actor → Actor}
    {action : Action (Scene Part) Value}
    (bounds : (Scope.ofScene allowed).Bounds action
      ⟨part scene.actor, scene.memory, scene.notices⟩) :
    (Scope.ofScene allowed).Bounds (Scene.inPart part replace action) scene :=
  bounds_within bounds
    (fun same => ⟨⟨congrArg part same.1, same.2⟩, fun alike =>
      ⟨by rw [alike.1, same.1], alike.2⟩⟩) id

end

end Scope

end RankMail
