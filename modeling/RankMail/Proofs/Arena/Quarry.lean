import Mathlib.Data.List.Basic
import Mathlib.Data.List.Pairwise
import Mathlib.Logic.Function.Basic
import RankMail.Proofs.Pool.Slots
import RankMail.Proofs.Segment.Lifecycle

set_option autoImplicit false

/-! # Many arenas in one segment

Any number of arenas may carve slots from one segment, in whatever processes, with whatever
capacities, and others may claim ranges of it besides. All that they share is the cursor. A `Quarry`
is the memory of the segment with everybody who carves from it; carving takes two steps, and
whatever the others do comes in between:

             claim                     settle
    idle ------------> range claimed -----------> slot with a header
             the cursor moves

The steps of one arena without another party between are its operation (`Arena.carve_eq`).
-/

namespace RankMail

namespace Arena

/-- Claims a range for a slot of a class, if there is room for one. -/
def claim (sizeClass : SizeClass) : Action (Scene Arena) (Option Nat) := do
  let arena ← Scene.self
  match slotSize (arena.capacities.capacity sizeClass) with
  | none => .fail (.config .capacityTooLarge)
  | some size => Scene.inMemory (arena.segment.reserve size)

/-- Carves a slot in the range that has been claimed for it, or gives up if there is none. -/
def settle (sizeClass : SizeClass) : Option Nat → Action (Scene Arena) Fragment
  | some position => carveAt sizeClass position
  | none => do
      let arena ← Scene.self
      let left ← .look fun scene => arena.segment.remaining scene.memory
      Scene.notify (.exhausted arena.segment.rank sizeClass left)
      .fail (.exhausted sizeClass)

theorem carve_eq (sizeClass : SizeClass) :
    carve sizeClass = claim sizeClass >>= settle sizeClass := by
  funext scene
  rw [carve, claim, Action.bind_done (Scene.self_apply _), bind_assoc,
    Action.bind_done (Scene.self_apply _)]
  cases slotSize (scene.actor.capacities.capacity sizeClass) with
  | none => rfl
  | some size =>
      -- Claiming leaves the arena itself as it is, so settling finds the same one.
      by_cases fits : scene.actor.segment.cursor scene.memory + size < 2 ^ 64 ∧
          scene.actor.segment.cursor scene.memory + size ≤ scene.actor.segment.size
      · have reserved := Segment.reserve_fits fits
        simp only [Action.bind_apply, Scene.inMemory_apply, reserved, Outcome.mapState_done, settle]
      · have refused := Segment.reserve_refused fits
        simp only [Action.bind_apply, Scene.inMemory_apply, refused, Outcome.mapState_done, settle]
        rfl

end Arena

/-! ## Ranges -/

/-- A range of an arena that has been granted. -/
structure Grant where
  start : Nat
  length : Nat
deriving Repr, DecidableEq

namespace Grant

def stop (grant : Grant) : Nat := grant.start + grant.length

def Apart (grant other : Grant) : Prop := grant.stop ≤ other.start ∨ other.stop ≤ grant.start

theorem Apart.symm {grant other : Grant} (apart : grant.Apart other) : other.Apart grant :=
  Or.symm apart

instance : Std.Symm Apart := ⟨fun _ _ => Apart.symm⟩

/-- Where the last of the granted ranges ends; the last one is in front. -/
def reached : List Grant → Nat
  | [] => arenaStart
  | grant :: _ => grant.stop

def totalLength : List Grant → Nat
  | [] => 0
  | grant :: rest => grant.length + totalLength rest

/-- The granted ranges lie end to end, from the beginning of the arena on. -/
def EndToEnd : List Grant → Prop
  | [] => True
  | grant :: rest => grant.start = reached rest ∧ EndToEnd rest

variable {granted : List Grant} {grant last : Grant}

theorem reached_cons (last : Grant) (granted : List Grant) :
    reached (last :: granted) = last.start + last.length := rfl

theorem EndToEnd.above (laid : EndToEnd granted) : arenaStart ≤ reached granted := by
  induction granted with
  | nil => exact Nat.le_refl _
  | cons grant rest ih =>
      have below := ih laid.2
      have start := laid.1
      rw [reached_cons]
      omega

theorem EndToEnd.between (laid : EndToEnd granted) (inside : grant ∈ granted) :
    arenaStart ≤ grant.start ∧ grant.stop ≤ reached granted := by
  induction granted with
  | nil => exact absurd inside List.not_mem_nil
  | cons last rest ih =>
      rcases List.mem_cons.mp inside with rfl | inside
      · exact ⟨laid.1 ▸ laid.2.above, Nat.le_refl _⟩
      · obtain ⟨above, below⟩ := ih laid.2 inside
        have start := laid.1
        rw [reached_cons]
        omega

theorem EndToEnd.pairwise (laid : EndToEnd granted) : granted.Pairwise Apart := by
  induction granted with
  | nil => exact .nil
  | cons last rest ih =>
      refine .cons (fun grant inside => .inr ?_) (ih laid.2)
      rw [laid.1]
      exact (laid.2.between inside).2

theorem EndToEnd.reached_eq (laid : EndToEnd granted) :
    reached granted = arenaStart + totalLength granted := by
  induction granted with
  | nil => rfl
  | cons last rest ih =>
      have start := laid.1
      rw [ih laid.2] at start
      rw [reached_cons, totalLength]
      omega

theorem EndToEnd.aligned (laid : EndToEnd granted)
    (multiple : ∀ grant ∈ granted, grant.length % headerAlignment = 0) :
    reached granted % headerAlignment = 0 ∧
      ∀ grant ∈ granted, grant.start % headerAlignment = 0 := by
  induction granted with
  | nil => exact ⟨by decide, fun _ inside => absurd inside List.not_mem_nil⟩
  | cons last rest ih =>
      obtain ⟨top, starts⟩ := ih laid.2 fun grant inside =>
        multiple grant (List.mem_cons_of_mem _ inside)
      have whole := multiple last List.mem_cons_self
      rw [← laid.1] at top
      refine ⟨?_, List.forall_mem_cons.mpr ⟨top, starts⟩⟩
      rw [reached_cons]
      simp only [headerAlignment] at top whole ⊢
      omega

end Grant

/-- The range of a slot: its header and its payload, filled up to a whole alignment. -/
def Grant.slot (position capacity : Nat) : Grant := ⟨position, (slotSize capacity).getD 0⟩

def Fragment.range (fragment : Fragment) : Grant := .slot fragment.position fragment.capacity

/-! ## Carvers -/

/-- Who carves slots, and the class for which a range has been asked: where it begins, if there was
room. -/
structure Carver where
  arena : Arena
  claimed : Option (SizeClass × Option Nat)
deriving Repr, DecidableEq

/-- How many slots a carver has carved, or has a range for. -/
def Carver.slots (carver : Carver) : Nat :=
  match carver.claimed with
  | some (_, some _) => carver.arena.descriptors.size + 1
  | _ => carver.arena.descriptors.size

/-- The memory of a segment and all who carve from it, with what they have got. -/
structure Quarry where
  memory : Memory
  notices : List Notice
  carvers : Nat → Option Carver
  /-- The slots that have been carved, the last one in front. -/
  fragments : List Fragment
  /-- The ranges that have been granted, the last one in front. -/
  granted : List Grant

namespace Quarry

variable {Value : Type}

def start (memory : Memory) : Quarry := ⟨memory, [], fun _ => none, [], []⟩

def keep (quarry : Quarry) (name : Nat) (carver : Carver) : Quarry :=
  { quarry with carvers := Function.update quarry.carvers name (some carver) }

def scene (quarry : Quarry) (arena : Arena) : Scene Arena :=
  ⟨arena, quarry.memory, quarry.notices⟩

/-- The quarry after a scene of an arena, which then has nothing claimed. -/
def left (quarry : Quarry) (name : Nat) (scene : Scene Arena) : Quarry :=
  { quarry with memory := scene.memory, notices := scene.notices }.keep name ⟨scene.actor, none⟩

def asArena (name : Nat) (arena : Arena) (action : Action (Scene Arena) Value) :
    Action Quarry Value :=
  .within (fun quarry => quarry.scene arena) (fun scene quarry => quarry.left name scene) action

def inMemory (action : Action Memory Value) : Action Quarry Value :=
  .within memory (fun memory quarry => { quarry with memory }) action

def grant (quarry : Quarry) (length : Nat) : Option Nat → Quarry
  | some start => { quarry with granted := ⟨start, length⟩ :: quarry.granted }
  | none => quarry

def join (name : Nat) (segment : Segment) (capacities : Capacities) (rank : UInt32) :
    Action Quarry Unit := do
  let arena ← .ofFault (Arena.ofSegment segment capacities rank)
  .modify fun quarry => quarry.keep name ⟨arena, none⟩

def reserve (segment : Segment) (length : Nat) : Action Quarry (Option Nat) := do
  let start ← inMemory (segment.reserve length)
  .modify fun quarry => quarry.grant length start
  pure start

/-- A carver with nothing claimed claims a range for a slot of a class. -/
def claim (name : Nat) (sizeClass : SizeClass) : Action Quarry (Option Nat) := do
  match (← .get).carvers name with
  | some ⟨arena, none⟩ => do
      let start ← asArena name arena (Arena.claim sizeClass)
      .modify fun quarry => (quarry.keep name ⟨arena, some (sizeClass, start)⟩).grant
        (Grant.slot 0 (arena.capacities.capacity sizeClass)).length start
      pure start
  | _ => pure none

/-- A carver with something claimed carves the slot, or gives up. -/
def settle (name : Nat) : Action Quarry Unit := do
  match (← .get).carvers name with
  | some ⟨arena, some (sizeClass, start)⟩ => do
      let fragment ← asArena name arena (Arena.settle sizeClass start)
      .modify fun quarry => { quarry with fragments := fragment :: quarry.fragments }
  | _ => pure ()

/-- Somebody works on a fragment that has been carved. -/
def fill (fragment : Fragment) (action : Action Memory Unit) : Action Quarry Unit := do
  if fragment ∈ (← .get).fragments then inMemory action else pure ()

end Quarry

/-- What whoever carves, or holds what has been carved, may do. -/
inductive Move where
  | join (name : Nat) (segment : Segment) (capacities : Capacities) (rank : UInt32)
  | reserve (segment : Segment) (length : Nat)
  | claim (name : Nat) (sizeClass : SizeClass)
  | settle (name : Nat)
  | write (fragment : Fragment) (data : List UInt8)
  | edit (fragment : Fragment) (start : Nat) (data : List UInt8)
  | setLength (fragment : Fragment) (length : Nat)
deriving Repr, DecidableEq

def Move.perform : Move → Action Quarry Unit
  | join name segment capacities rank => Quarry.join name segment capacities rank
  | reserve segment length => do
      let _ ← Quarry.reserve segment length
  | claim name sizeClass => do
      let _ ← Quarry.claim name sizeClass
  | settle name => Quarry.settle name
  | write fragment data => Quarry.fill fragment (fragment.write data)
  | edit fragment start data => Quarry.fill fragment (fragment.edit start data)
  | setLength fragment length => Quarry.fill fragment (fragment.setLength length)

/-- A move has to do with a segment, and plain ranges are claimed in whole alignments. -/
def Move.Concerns (segment : Segment) : Move → Prop
  | join _ mapping _ _ => mapping.SameFile segment
  | reserve mapping length => mapping.SameFile segment ∧ length % headerAlignment = 0
  | _ => True

namespace Quarry

/-- What comes of a segment that has been made, whoever carves from it and in whatever order the
moves come. -/
inductive Reached (segment : Segment) : Quarry → Prop
  | start {directory : String} {rank : UInt32} {size : Nat} {removesFile : Bool}
      {world after : World}
      (created : Segment.create directory rank size removesFile world = .done segment after) :
      Reached segment (.start after.memory)
  | perform {quarry after : Quarry} (move : Move) (reached : Reached segment quarry)
      (concerns : move.Concerns segment) (ends : (move.perform quarry).state? = some after) :
      Reached segment after

/-- The arena of a carver, with the table of its slots. -/
def table (quarry : Quarry) (name : Nat) : Option Arena :=
  (quarry.carvers name).map Carver.arena

/-- No byte, no table of slots and no grant has changed. -/
structure Unchanged (quarry after : Quarry) : Prop where
  memory : after.memory = quarry.memory
  granted : after.granted = quarry.granted
  table : ∀ name, after.table name = quarry.table name

theorem Unchanged.refl (quarry : Quarry) : quarry.Unchanged quarry := ⟨rfl, rfl, fun _ => rfl⟩

/-- A range has been claimed for a slot that has not been carved yet. -/
def Claimed (quarry : Quarry) (name : Nat) (grant : Grant) : Prop :=
  ∃ arena sizeClass position, quarry.carvers name = some ⟨arena, some (sizeClass, some position)⟩ ∧
    grant = .slot position (arena.capacities.capacity sizeClass)

/-- A carver carves from a segment that has been granted up to some position, and all slots in its
table are among some fragments. -/
structure Suits (carver : Carver) (segment : Segment) (reached : Nat) (fragments : List Fragment) :
    Prop where
  mapping : carver.arena.segment.SameFile segment
  allowed : ∀ sizeClass, carver.arena.capacities.capacity sizeClass ≤ maxCapacity
  /-- Each slot takes at least the room of its header. -/
  room : arenaStart + headerAlignment * carver.slots ≤ reached
  handles : ∀ {index descriptor}, carver.arena.Has index descriptor →
    carver.arena.handle index descriptor ∈ fragments

theorem Suits.mono {carver : Carver} {segment : Segment} {reached further : Nat}
    {fragments more : List Fragment} (suits : Suits carver segment reached fragments)
    (forward : reached ≤ further) (subset : fragments ⊆ more) :
    Suits carver segment further more where
  mapping := suits.mapping
  allowed := suits.allowed
  room := Nat.le_trans suits.room forward
  handles has := subset (suits.handles has)

/-- What holds of a quarry between two moves. -/
structure Sound (segment : Segment) (quarry : Quarry) : Prop where
  small : segment.size ≤ maxSegmentSize
  laid : Grant.EndToEnd quarry.granted
  whole : ∀ grant ∈ quarry.granted, grant.length % headerAlignment = 0
  cursor : segment.cursor quarry.memory = Grant.reached quarry.granted
  below : Grant.reached quarry.granted ≤ segment.size
  suits : ∀ {name carver}, quarry.carvers name = some carver →
    Suits carver segment (Grant.reached quarry.granted) quarry.fragments
  claimed : ∀ {name grant}, quarry.Claimed name grant → grant ∈ quarry.granted
  claims : ∀ {name other grant next}, quarry.Claimed name grant → quarry.Claimed other next →
    name ≠ other → grant.Apart next
  carved : ∀ {fragment}, fragment ∈ quarry.fragments → fragment.segment.SameFile segment ∧
    fragment.capacity ≤ maxCapacity ∧ fragment.range ∈ quarry.granted
  slots : quarry.fragments.Pairwise fun fragment other => fragment.range.Apart other.range
  between : ∀ {fragment name grant}, fragment ∈ quarry.fragments → quarry.Claimed name grant →
    fragment.range.Apart grant

/-! ## What one move does -/

variable {segment mapping : Segment} {quarry : Quarry} {name other : Nat} {carver : Carver}
  {memory : Memory} {grant : Grant} {fragment : Fragment} {length : Nat}

theorem carvers_keep (quarry : Quarry) (name other : Nat) (carver : Carver) :
    (quarry.keep name carver).carvers other =
      if other = name then some carver else quarry.carvers other :=
  Function.update_apply ..

theorem keep_left (quarry : Quarry) (name : Nat) (scene : Scene Arena) (carver : Carver) :
    (quarry.left name scene).keep name carver =
      { quarry with memory := scene.memory, notices := scene.notices }.keep name carver := by
  simp only [left, keep, Function.update_idem]

theorem table_keep (found : quarry.table name = some carver.arena) (other : Nat) :
    (quarry.keep name carver).table other = quarry.table other := by
  rw [table, carvers_keep]
  split
  · next same =>
    rw [same, found]
    rfl
  · rfl

theorem claimed_keep (claimed : (quarry.keep name carver).Claimed other grant) :
    (other = name ∧ ∃ sizeClass position, carver.claimed = some (sizeClass, some position) ∧
      grant = .slot position (carver.arena.capacities.capacity sizeClass)) ∨
    (other ≠ name ∧ quarry.Claimed other grant) := by
  obtain ⟨arena, sizeClass, position, found, rfl⟩ := claimed
  rw [carvers_keep] at found
  split at found
  · next same =>
    obtain rfl := Option.some.inj found
    exact .inl ⟨same, sizeClass, position, rfl, rfl⟩
  · next differs => exact .inr ⟨differs, arena, sizeClass, position, found, rfl⟩

namespace Sound

/-- Whatever is written, a quarry stays sound if the cursor stays. -/
theorem remember (sound : Sound segment quarry) (notices : List Notice)
    (cursor : segment.cursor memory = segment.cursor quarry.memory) :
    Sound segment { quarry with memory, notices } :=
  { sound with cursor := cursor.trans sound.cursor }

/-- A carver becomes another one. A range that it has claimed has been granted to nobody else. -/
theorem keep (sound : Sound segment quarry)
    (suits : Suits carver segment (Grant.reached quarry.granted) quarry.fragments)
    (new : ∀ sizeClass position, carver.claimed = some (sizeClass, some position) →
      let grant := Grant.slot position (carver.arena.capacities.capacity sizeClass)
      grant ∈ quarry.granted ∧
        (∀ other next, other ≠ name → quarry.Claimed other next → grant.Apart next) ∧
        ∀ fragment ∈ quarry.fragments, fragment.range.Apart grant) :
    Sound segment (quarry.keep name carver) :=
  { sound with
    suits := fun found => by
      rw [carvers_keep] at found
      split at found
      · exact Option.some.inj found ▸ suits
      · exact sound.suits found
    claimed := fun claimed => by
      rcases claimed_keep claimed with ⟨_, _, _, pending, rfl⟩ | ⟨_, claimed⟩
      · exact (new _ _ pending).1
      · exact sound.claimed claimed
    claims := fun one two differ => by
      rcases claimed_keep one with ⟨rfl, _, _, pending, rfl⟩ | ⟨away, old⟩ <;>
        rcases claimed_keep two with ⟨rfl, _, _, pendingToo, rfl⟩ | ⟨awayToo, oldToo⟩
      · exact absurd rfl differ
      · exact (new _ _ pending).2.1 _ _ awayToo oldToo
      · exact ((new _ _ pendingToo).2.1 _ _ away old).symm
      · exact sound.claims old oldToo differ
    between := fun inside claimed => by
      rcases claimed_keep claimed with ⟨_, _, _, pending, rfl⟩ | ⟨_, claimed⟩
      · exact (new _ _ pending).2.2 _ inside
      · exact sound.between inside claimed }

/-- A range that fits is granted behind the last one; else nothing happens. -/
theorem reserve_meets (sound : Sound segment quarry) (same : mapping.SameFile segment)
    (multiple : length % headerAlignment = 0) :
    (mapping.reserve length quarry.memory).Meets False fun result memory =>
      match result with
      | .ok (some position) => position = Grant.reached quarry.granted ∧
          Sound segment ({ quarry with memory }.grant length (some position))
      | .ok none => memory = quarry.memory
      | .error _ => False := by
  have cursor := (same.cursor quarry.memory).trans sound.cursor
  by_cases fits : mapping.cursor quarry.memory + length < 2 ^ 64 ∧
      mapping.cursor quarry.memory + length ≤ mapping.size
  · rw [Segment.reserve_fits fits, cursor]
    obtain ⟨small, inside⟩ := cursor ▸ fits
    have forward : Grant.reached quarry.granted ≤ Grant.reached quarry.granted + length :=
      Nat.le_add_right ..
    refine ⟨rfl, { sound with
      laid := ⟨rfl, sound.laid⟩
      whole := List.forall_mem_cons.mpr ⟨multiple, sound.whole⟩
      cursor := ?_
      below := ?_
      suits := fun found => (sound.suits found).mono forward (List.Subset.refl _)
      claimed := fun claimed => List.mem_cons_of_mem _ (sound.claimed claimed)
      carved := fun inside => (sound.carved inside).imp_right
        (And.imp_right (List.mem_cons_of_mem _)) }⟩
    · rw [← same.cursor]
      exact mapping.cursor_store quarry.memory small
    · exact Nat.le_trans inside (Nat.le_of_eq same.size)
  · rw [Segment.reserve_refused fits]
    exact rfl

theorem join_meets (sound : Sound segment quarry) (same : mapping.SameFile segment) (name : Nat)
    (capacities : Capacities) (rank : UInt32) :
    (join name mapping capacities rank quarry).Meets False fun _ after =>
      Sound segment after := by
  rw [join]
  cases made : Arena.ofSegment mapping capacities rank with
  | error fault => exact sound
  | ok arena =>
      obtain ⟨valid, rfl⟩ := Arena.ofSegment_ok made
      refine sound.keep ?_ fun _ _ claimed => by cases claimed
      exact
        { mapping := same
          allowed := Capacities.le_maxCapacity valid
          room := sound.laid.above
          handles := fun has => by simp [Arena.Has] at has }

/-- A carver has claimed the range that was granted last, so it lies behind all others. -/
theorem claim_last (sound : Sound segment quarry) {arena : Arena} {sizeClass : SizeClass}
    {size : Nat} (found : quarry.carvers name = some ⟨arena, none⟩)
    (sized : slotSize (arena.capacities.capacity sizeClass) = some size)
    (granted : Sound segment ({ quarry with memory }.grant size
      (some (Grant.reached quarry.granted)))) :
    Sound segment (({ quarry with memory }.grant size (some (Grant.reached quarry.granted))).keep
      name ⟨arena, some (sizeClass, some (Grant.reached quarry.granted))⟩) := by
  have suits := sound.suits found
  obtain ⟨room, sizedAgain, _, enough⟩ := Arena.slotSize_eq (suits.allowed sizeClass)
  obtain rfl := Option.some.inj (sized.symm.trans sizedAgain)
  have last : Grant.slot (Grant.reached quarry.granted) (arena.capacities.capacity sizeClass) =
      ⟨Grant.reached quarry.granted, size⟩ := congrArg (Grant.mk _) (by rw [sized]; rfl)
  have behind : ∀ grant ∈ quarry.granted, grant.Apart (Grant.slot (Grant.reached quarry.granted)
      (arena.capacities.capacity sizeClass)) :=
    fun grant inside => .inl (sound.laid.between inside).2
  refine granted.keep ?_ fun other position same => ?_
  · have before : arenaStart + headerAlignment * arena.descriptors.size ≤
        Grant.reached quarry.granted := suits.room
    refine { suits.mono (Nat.le_add_right _ size) (List.Subset.refl _) with room := ?_ }
    show arenaStart + headerAlignment * (arena.descriptors.size + 1) ≤
      Grant.reached quarry.granted + size
    simp only [headerAlignment, headerSize] at before enough ⊢
    omega
  · obtain ⟨rfl, here⟩ := Prod.mk.inj (Option.some.inj same)
    obtain rfl := Option.some.inj here
    refine ⟨?_, fun other next _ claimed => (behind next (sound.claimed claimed)).symm,
      fun fragment inside => behind _ (sound.carved inside).2.2⟩
    dsimp only
    rw [last]
    exact List.mem_cons_self

/-- A carver claims a range behind all that have been granted; if there is no room, nothing has
changed. -/
theorem claim_meets (sound : Sound segment quarry) (name : Nat) (sizeClass : SizeClass) :
    (claim name sizeClass quarry).Meets False fun result after =>
      Sound segment after ∧ ∃ start, result = .ok start ∧
        (start = none → quarry.Unchanged after) := by
  have nothing : Sound segment quarry ∧ ∃ start : Option Nat,
      (.ok none : Except Fault (Option Nat)) = .ok start ∧
        (start = none → quarry.Unchanged quarry) :=
    ⟨sound, none, rfl, fun _ => .refl quarry⟩
  rw [claim, Action.bind_done (Action.get_apply _)]
  cases found : quarry.carvers name with
  | none => exact nothing
  | some carver =>
      obtain ⟨arena, _ | busy⟩ := carver
      case some => exact nothing
      case none =>
        have suits := sound.suits found
        obtain ⟨size, sized, multiple, _⟩ := Arena.slotSize_eq (suits.allowed sizeClass)
        have claims : Arena.claim sizeClass (quarry.scene arena) =
            Scene.inMemory (arena.segment.reserve size) (quarry.scene arena) := by
          rw [Arena.claim, Action.bind_done (Scene.self_apply _)]
          simp only [scene, sized]
        have length : (Grant.slot 0 (arena.capacities.capacity sizeClass)).length = size := by
          rw [Grant.slot, sized]
          rfl
        refine Action.meets_bind (Action.meets_within.mpr ?_)
        rw [claims]
        refine Action.meets_within.mpr ((sound.reserve_meets suits.mapping multiple).mono ?_)
        rintro (fault | _ | position) memory ends
        · exact ends.elim
        · obtain rfl := ends
          refine Action.meets_bind (Outcome.meets_done.mpr (Outcome.meets_done.mpr ?_))
          dsimp only
          rw [keep_left]
          refine ⟨?_, none, rfl, fun _ => ⟨rfl, rfl, table_keep (by rw [table, found]; rfl)⟩⟩
          exact sound.keep { suits with room := suits.room } fun _ _ claimed => by cases claimed
        · obtain ⟨rfl, granted⟩ := ends
          refine Action.meets_bind (Outcome.meets_done.mpr (Outcome.meets_done.mpr ?_))
          dsimp only
          rw [keep_left, length]
          exact ⟨sound.claim_last found sized granted, _, rfl, fun same => by cases same⟩

/-- A slot has been carved in a range that nobody else has. -/
theorem hold (sound : Sound segment quarry) (same : fragment.segment.SameFile segment)
    (allowed : fragment.capacity ≤ maxCapacity) (granted : fragment.range ∈ quarry.granted)
    (others : ∀ other ∈ quarry.fragments, other.range.Apart fragment.range)
    (claims : ∀ {name grant}, quarry.Claimed name grant → fragment.range.Apart grant) :
    Sound segment { quarry with fragments := fragment :: quarry.fragments } :=
  { sound with
    suits := fun found => (sound.suits found).mono (Nat.le_refl _) (List.subset_cons_self ..)
    carved := fun inside => by
      rcases List.mem_cons.mp inside with rfl | inside
      · exact ⟨same, allowed, granted⟩
      · exact sound.carved inside
    slots := .cons (fun other inside => (others other inside).symm) sound.slots
    between := fun inside claimed => by
      rcases List.mem_cons.mp inside with rfl | inside
      · exact claims claimed
      · exact sound.between inside claimed }

/-- No table of slots is full. -/
theorem few (sound : Sound segment quarry) (found : quarry.carvers name = some carver) :
    carver.slots < 2 ^ 32 := by
  have room := (sound.suits found).room
  have below := sound.below
  have small := sound.small
  simp only [headerAlignment, maxSegmentSize] at room small
  omega

theorem settle_granted (sound : Sound segment quarry) {arena : Arena} {sizeClass : SizeClass}
    {position : Nat} (found : quarry.carvers name = some ⟨arena, some (sizeClass, some position)⟩)
    (notices : List Notice) :
    Sound segment { quarry.left name ⟨arena.extended sizeClass position,
        quarry.memory.writeHeader (arena.segment.placeAt position) (arena.nextHeader sizeClass),
        notices⟩ with
      fragments := arena.handle arena.descriptors.size
        (arena.nextDescriptor sizeClass position) :: quarry.fragments } := by
  have suits := sound.suits found
  have claimed : quarry.Claimed name (.slot position (arena.capacities.capacity sizeClass)) :=
    ⟨arena, sizeClass, position, found, rfl⟩
  have granted := sound.claimed claimed
  have range : (arena.handle arena.descriptors.size
      (arena.nextDescriptor sizeClass position)).range =
        .slot position (arena.capacities.capacity sizeClass) :=
    congrArg (Grant.slot position) (Arena.capacity_next (suits.allowed sizeClass) position)
  -- First the range is claimed no longer; then the slot is there; then it is in the table.
  have unclaimed : Sound segment (quarry.keep name ⟨arena, none⟩) := by
    refine sound.keep { suits with room := Nat.le_trans ?_ suits.room }
      fun _ _ same => by cases same
    simp only [Carver.slots, headerAlignment]
    omega
  have away : ∀ {other grant}, (quarry.keep name ⟨arena, none⟩).Claimed other grant →
      other ≠ name ∧ quarry.Claimed other grant := by
    intro other grant pending
    rcases claimed_keep pending with ⟨_, _, _, same, _⟩ | pending
    · cases same
    · exact pending
  have held : Sound segment { quarry.keep name ⟨arena, none⟩ with
      fragments := arena.handle arena.descriptors.size
        (arena.nextDescriptor sizeClass position) :: quarry.fragments } := by
    refine unclaimed.hold suits.mapping ?_ (range ▸ granted) (fun other inside => ?_)
      fun pending => ?_
    · rw [Arena.handle, Arena.capacity_next (suits.allowed sizeClass)]
      exact suits.allowed sizeClass
    · rw [range]
      exact sound.between inside claimed
    · rw [range]
      exact (sound.claims (away pending).2 claimed (away pending).1).symm
  have cursor : segment.cursor (quarry.memory.writeHeader (arena.segment.placeAt position)
      (arena.nextHeader sizeClass)) = segment.cursor quarry.memory := by
    rw [← suits.mapping.cursor, ← suits.mapping.cursor]
    exact arena.segment.cursor_write _ (sound.laid.between granted).1 _
  have extended : Suits ⟨arena.extended sizeClass position, none⟩ segment
      (Grant.reached quarry.granted) (arena.handle arena.descriptors.size
        (arena.nextDescriptor sizeClass position) :: quarry.fragments) :=
    { mapping := suits.mapping
      allowed := suits.allowed
      room := by
        show arenaStart + headerAlignment * (arena.descriptors.push _).size ≤ _
        rw [Array.size_push]
        exact suits.room
      handles := fun has => by
        rcases Arena.has_extended has with ⟨has, _⟩ | ⟨rfl, rfl⟩
        · exact List.mem_cons_of_mem _ (suits.handles has)
        · exact List.mem_cons_self }
  have carved : Sound segment (Quarry.keep _ name ⟨arena.extended sizeClass position, none⟩) :=
    (held.remember notices cursor).keep extended fun _ _ same => by cases same
  simpa only [Quarry.keep, Quarry.left, Function.update_idem] using carved

/-- A carver carves the slot for which it has claimed a range. If there was no room for one, it
gives up, and nothing has changed. -/
theorem settle_meets (sound : Sound segment quarry) (name : Nat) :
    (settle name quarry).Meets False fun result after =>
      Sound segment after ∧ ∀ fault, result = .error fault →
        (∃ sizeClass, fault = .exhausted sizeClass) ∧ quarry.Unchanged after := by
  have nothing : Sound segment quarry ∧ ∀ fault, (.ok () : Except Fault Unit) = .error fault →
      (∃ sizeClass, fault = .exhausted sizeClass) ∧ quarry.Unchanged quarry :=
    ⟨sound, fun _ same => by cases same⟩
  rw [settle, Action.bind_done (Action.get_apply _)]
  cases found : quarry.carvers name with
  | none => exact nothing
  | some carver =>
      obtain ⟨arena, _ | ⟨sizeClass, _ | position⟩⟩ := carver
      · exact nothing
      · have suits := sound.suits found
        have unclaimed : Sound segment (quarry.keep name ⟨arena, none⟩) :=
          sound.keep { suits with room := suits.room } fun _ _ same => by cases same
        refine Action.meets_bind (Action.meets_within.mpr ?_)
        refine ⟨unclaimed.remember _ rfl, fun fault same => ⟨⟨sizeClass, ?_⟩, rfl, rfl,
          table_keep (by rw [table, found]; rfl)⟩⟩
        exact (Except.error.inj same).symm
      · have few : arena.descriptors.size < 2 ^ 32 :=
          Nat.lt_of_succ_lt (sound.few found)
        refine Action.meets_bind (Action.meets_within.mpr ?_)
        rw [Arena.settle, scene, Arena.carveAt_eq ((sound.suits found).allowed sizeClass) few]
        exact ⟨sound.settle_granted found quarry.notices, fun _ same => by cases same⟩

/-- Whoever works on a fragment writes into its own slot only. -/
theorem fill_meets (sound : Sound segment quarry) {action : Action Memory Unit}
    (fills : ∀ memory, (action memory).Meets False fun _ after =>
      memory.Keeps [(fragment.payloadPlace, fragment.capacity), (fragment.lengthPlace, 4)]
        after) :
    (fill fragment action quarry).Meets False fun _ after => Sound segment after := by
  rw [fill, Action.bind_done (Action.get_apply _)]
  by_cases inside : fragment ∈ quarry.fragments
  · rw [if_pos inside]
    refine Action.meets_within.mpr ((fills quarry.memory).mono fun _ after keeps => ?_)
    obtain ⟨same, _, granted⟩ := sound.carved inside
    have above : arenaStart ≤ fragment.position := (sound.laid.between granted).1
    refine sound.remember quarry.notices ?_
    rw [← same.cursor, ← same.cursor]
    refine keeps.load ?_
    simp only [Memory.apartFrom_cons, Memory.apartFrom_nil, and_true, Memory.Apart,
      Fragment.payloadPlace, Fragment.lengthPlace, Fragment.place, Segment.placeAt, Segment.place,
      Place.shift, SegmentField.cursor]
    simp only [arenaStart] at above
    omega
  · rw [if_neg inside]
    exact sound

theorem reserving_meets (sound : Sound segment quarry) (same : mapping.SameFile segment)
    (multiple : length % headerAlignment = 0) :
    (reserve mapping length quarry).Meets False fun result after =>
      Sound segment after ∧ ∃ start, result = .ok start ∧
        (start = none → quarry.Unchanged after) := by
  refine Action.meets_bind (Action.meets_within.mpr
    ((sound.reserve_meets same multiple).mono ?_))
  rintro (fault | _ | position) memory ends
  · exact ends.elim
  · exact ends ▸ ⟨sound, none, rfl, fun _ => .refl quarry⟩
  · exact ⟨ends.2, _, rfl, fun same => by cases same⟩

end Sound

theorem sound_start {directory : String} {rank : UInt32} {size : Nat} {removesFile : Bool}
    {world after : World}
    (created : Segment.create directory rank size removesFile world = .done segment after) :
    Sound segment (.start after.memory) := by
  have ends := Segment.create_ends directory rank size removesFile world
  rw [created] at ends
  obtain ⟨_, above, below, _, _, _, _, _, _, _, _, rfl, rfl⟩ := ends _ rfl
  exact
    { small := below
      laid := trivial
      whole := fun _ inside => absurd inside List.not_mem_nil
      cursor := (Segment.fresh_writeControls _ _ _ (Nat.lt_of_le_of_lt below (by decide)) _).cursor
      below := Nat.le_of_lt above
      suits := fun found => by cases found
      claimed := fun ⟨_, _, _, found, _⟩ => by cases found
      claims := fun ⟨_, _, _, found, _⟩ => by cases found
      carved := fun inside => absurd inside List.not_mem_nil
      slots := .nil
      between := fun inside => absurd inside List.not_mem_nil }

theorem Sound.perform_meets (sound : Sound segment quarry) (move : Move)
    (concerns : move.Concerns segment) :
    (move.perform quarry).Meets False fun _ after => Sound segment after := by
  cases move with
  | join name mapping capacities rank => exact sound.join_meets concerns name capacities rank
  | reserve mapping length =>
      refine Action.meets_bind ((sound.reserving_meets concerns.1 concerns.2).mono ?_)
      rintro (fault | start) after ends <;> exact ends.1
  | claim name sizeClass =>
      refine Action.meets_bind ((sound.claim_meets name sizeClass).mono ?_)
      rintro (fault | start) after ends <;> exact ends.1
  | settle name => exact (sound.settle_meets name).mono fun _ _ ends => ends.1
  | write fragment data => exact sound.fill_meets (fragment.write_meets data)
  | edit fragment start data =>
      exact sound.fill_meets fun memory => (fragment.edit_meets start data memory).mono
        fun _ _ edited => edited.2.mono (by simp)
  | setLength fragment length =>
      exact sound.fill_meets fun memory => (fragment.setLength_meets length memory).mono
        fun _ _ keeps => keeps.mono (by simp)

theorem Reached.sound (reached : Reached segment quarry) : Sound segment quarry := by
  induction reached with
  | start created => exact sound_start created
  | perform move reached concerns ends ih =>
      exact (ih.perform_meets move concerns).post_of_state ends

/-! ## What is left alone -/

/-- The control words and all granted ranges but a fragment's own are as they were. -/
structure Spares (segment : Segment) (quarry : Quarry) (fragment : Fragment) (after : Memory) :
    Prop where
  controls : after.read segment.place arenaStart = quarry.memory.read segment.place arenaStart
  others : ∀ grant ∈ quarry.granted, grant ≠ fragment.range →
    after.read (segment.placeAt grant.start) grant.length =
      quarry.memory.read (segment.placeAt grant.start) grant.length

theorem Sound.range_stop (sound : Sound segment quarry) (inside : fragment ∈ quarry.fragments) :
    slotSize fragment.capacity = some fragment.range.length ∧
      fragment.position + headerSize + fragment.capacity ≤ fragment.range.stop := by
  obtain ⟨size, sized, _, enough⟩ := Arena.slotSize_eq (sound.carved inside).2.1
  have range : fragment.range = ⟨fragment.position, size⟩ := by
    rw [Fragment.range, Grant.slot, sized]
    rfl
  rw [range]
  refine ⟨sized, ?_⟩
  simp only [Grant.stop]
  omega

/-- Whoever writes into the payload of a fragment, and sets its length, spares all others. -/
theorem Sound.spares {after : Memory} (sound : Sound segment quarry)
    (inside : fragment ∈ quarry.fragments)
    (keeps : quarry.memory.Keeps [(fragment.payloadPlace, fragment.capacity),
      (fragment.lengthPlace, 4)] after) : quarry.Spares segment fragment after := by
  obtain ⟨same, _, granted⟩ := sound.carved inside
  have above : arenaStart ≤ fragment.position := (sound.laid.between granted).1
  have room := (sound.range_stop inside).2
  have apart : ∀ {start length}, start + length ≤ fragment.position ∨ fragment.range.stop ≤ start →
      after.read (segment.placeAt start) length =
        quarry.memory.read (segment.placeAt start) length := by
    intro start length away
    refine keeps.read ?_
    simp only [Memory.apartFrom_cons, Memory.apartFrom_nil, and_true, Memory.Apart,
      Fragment.payloadPlace, Fragment.lengthPlace, Fragment.place, Segment.placeAt, Place.shift,
      HeaderField.length]
    simp only [headerSize] at room ⊢
    omega
  constructor
  · exact apart (.inl (by omega))
  · intro grant member differs
    exact apart (sound.laid.pairwise.forall member granted differs)

theorem Sound.write_spares (sound : Sound segment quarry) (inside : fragment ∈ quarry.fragments)
    (data : List UInt8) :
    (fragment.write data quarry.memory).Meets False fun _ after =>
      quarry.Spares segment fragment after ∧
        after.read fragment.place HeaderField.length.distance =
          quarry.memory.read fragment.place HeaderField.length.distance ∧
        after.read (fragment.lengthPlace.shift 4) (headerSize - HeaderField.length.distance - 4) =
          quarry.memory.read (fragment.lengthPlace.shift 4)
            (headerSize - HeaderField.length.distance - 4) := by
  refine (fragment.write_meets data quarry.memory).mono fun _ after keeps =>
    ⟨sound.spares inside keeps, keeps.read ?_, keeps.read ?_⟩ <;>
  · simp only [Memory.apartFrom_cons, Memory.apartFrom_nil, and_true, Memory.Apart,
      Fragment.payloadPlace, Fragment.lengthPlace, Place.shift, HeaderField.length, headerSize]
    omega

theorem Sound.edit_spares (sound : Sound segment quarry) (inside : fragment ∈ quarry.fragments)
    (start : Nat) (data : List UInt8) :
    (fragment.edit start data quarry.memory).Meets False fun _ after =>
      quarry.Spares segment fragment after ∧
        after.read fragment.place headerSize = quarry.memory.read fragment.place headerSize := by
  refine (fragment.edit_meets start data quarry.memory).mono fun _ after edited =>
    ⟨sound.spares inside (edited.2.mono (by simp)), edited.2.read ?_⟩
  simp only [Memory.apartFrom_cons, Memory.apartFrom_nil, and_true, Memory.Apart,
    Fragment.payloadPlace, Place.shift]
  omega

theorem Sound.write_fills (sound : Sound segment quarry) (inside : fragment ∈ quarry.fragments)
    {data : List UInt8} (fits : data.length ≤ fragment.capacity) :
    ∃ after, fragment.write data quarry.memory = .done () after ∧
      after.load HeaderField.length fragment.place = data.length ∧
      fragment.payload after = data := by
  have small : fragment.capacity < 2 ^ 32 :=
    Nat.lt_of_le_of_lt (sound.carved inside).2.1 (by decide)
  exact ⟨_, Fragment.write_eq fits _, Fragment.load_length_write fits small _,
    Fragment.payload_write fits small _⟩

/-- **Whoever carves from a segment gets bytes that nobody else has.** Wherever the carvers have got
to, the ranges that have been granted lie apart, behind the control words and within the segment,
and begin at whole alignments that a word of 32 bits holds; the cursor has moved by their lengths.
The slots are among them. A range is refused or a slot exhausted without any change, and nothing
else goes wrong. Whoever fills a slot changes no other one, no range but its own and no control
word; of its own header only the length is set, to that of what has been filled in, and not even
that by overwriting the payload. -/
theorem Reached.carves_apart (reached : Reached segment quarry) :
    (quarry.granted.Pairwise Grant.Apart ∧ ∀ grant ∈ quarry.granted,
      arenaStart ≤ grant.start ∧ grant.stop ≤ segment.size ∧
        grant.start % headerAlignment = 0 ∧ grant.start < 2 ^ 32) ∧
    segment.cursor quarry.memory = arenaStart + Grant.totalLength quarry.granted ∧
    (quarry.fragments.Pairwise fun fragment other => fragment.range.Apart other.range) ∧
    (∀ fragment ∈ quarry.fragments, fragment.range ∈ quarry.granted ∧
      slotSize fragment.capacity = some fragment.range.length) ∧
    (∀ mapping length, mapping.SameFile segment → length % headerAlignment = 0 →
      (reserve mapping length quarry).Meets False fun result after =>
        ∃ start, result = .ok start ∧ (start = none → quarry.Unchanged after)) ∧
    (∀ name sizeClass, (claim name sizeClass quarry).Meets False fun result after =>
      ∃ start, result = .ok start ∧ (start = none → quarry.Unchanged after)) ∧
    (∀ name, (settle name quarry).Meets False fun result after => ∀ fault, result = .error fault →
      (∃ sizeClass, fault = .exhausted sizeClass) ∧ quarry.Unchanged after) ∧
    ∀ fragment ∈ quarry.fragments,
      (∀ data, ((fragment.write data quarry.memory).Meets False fun _ after =>
        quarry.Spares segment fragment after ∧
          after.read fragment.place HeaderField.length.distance =
            quarry.memory.read fragment.place HeaderField.length.distance ∧
          after.read (fragment.lengthPlace.shift 4)
              (headerSize - HeaderField.length.distance - 4) =
            quarry.memory.read (fragment.lengthPlace.shift 4)
              (headerSize - HeaderField.length.distance - 4)) ∧
        (data.length ≤ fragment.capacity →
          ∃ after, fragment.write data quarry.memory = .done () after ∧
            after.load HeaderField.length fragment.place = data.length ∧
            fragment.payload after = data)) ∧
      ∀ start data, (fragment.edit start data quarry.memory).Meets False fun _ after =>
        quarry.Spares segment fragment after ∧
          after.read fragment.place headerSize = quarry.memory.read fragment.place headerSize := by
  have sound := reached.sound
  refine ⟨⟨sound.laid.pairwise, fun grant inside => ?_⟩,
    sound.cursor.trans sound.laid.reached_eq, sound.slots,
    fun fragment inside => ⟨(sound.carved inside).2.2, (sound.range_stop inside).1⟩,
    fun mapping length same multiple => (sound.reserving_meets same multiple).mono
      fun _ _ ends => ends.2,
    fun name sizeClass => (sound.claim_meets name sizeClass).mono fun _ _ ends => ends.2,
    fun name => (sound.settle_meets name).mono fun _ _ ends => ends.2,
    fun fragment inside => ⟨fun data => ⟨sound.write_spares inside data, sound.write_fills inside⟩,
      sound.edit_spares inside⟩⟩
  obtain ⟨above, stop⟩ := sound.laid.between inside
  have below := sound.below
  have small := sound.small
  refine ⟨above, Nat.le_trans stop below, (sound.laid.aligned sound.whole).2 grant inside, ?_⟩
  simp only [Grant.stop, maxSegmentSize] at stop small
  omega

/-! ## Two carvers -/

def run (quarry : Quarry) (moves : List Move) : Option Quarry :=
  moves.foldlM (fun quarry move => (move.perform quarry).state?) quarry

theorem Reached.run {moves : List Move} {after : Quarry} (reached : Reached segment quarry)
    (concern : ∀ move ∈ moves, move.Concerns segment) (ends : quarry.run moves = some after) :
    Reached segment after := by
  induction moves generalizing quarry with
  | nil => exact Option.some.inj ends ▸ reached
  | cons move rest ih =>
      obtain ⟨concerns, rest⟩ := List.forall_mem_cons.mp concern
      obtain ⟨between, performed, ends⟩ := Option.bind_eq_some_iff.mp ends
      exact ih (reached.perform move concerns performed) rest ends

/-- Two carvers in a new segment. Each has carved a slot, the second one before the first although
it has claimed its range later, and a plain range lies before both. -/
def dug : Option (Segment × Quarry) :=
  match Segment.create "/" 0 2048 false (.start 7 []) with
  | .done segment world => (start world.memory).run [.join 0 segment ⟨64, 128, 256⟩ 0,
      .join 1 segment ⟨100, 200, 300⟩ 9, .reserve segment 64, .claim 0 .user, .claim 1 .eager,
      .settle 1, .settle 0] |>.map fun quarry => (segment, quarry)
  | _ => none

theorem reached_dug (found : dug = some (segment, quarry)) : Reached segment quarry := by
  rw [dug] at found
  split at found
  · next created =>
    obtain ⟨_, ends, same⟩ := Option.map_eq_some_iff.mp found
    obtain ⟨rfl, rfl⟩ := Prod.mk.inj same
    refine (Reached.start created).run ?_ ends
    simp [Move.Concerns, Segment.SameFile.refl, headerAlignment]
  · cases found

/-- The two slots lie apart behind the plain range, and whoever fills the first sets its length and
leaves the control words alone. -/
theorem carves_apart_dug : ∃ segment quarry fragment other after,
    dug = some (segment, quarry) ∧ quarry.fragments = [fragment, other] ∧
      fragment.range.Apart other.range ∧
      segment.cursor quarry.memory = arenaStart + Grant.totalLength quarry.granted ∧
      fragment.write [97, 98, 99] quarry.memory = .done () after ∧
      after.load HeaderField.length fragment.place = 3 ∧
      quarry.Spares segment fragment after := by
  have carved : ∃ made ∈ dug, made.2.fragments.length = 2 ∧
      ∀ fragment ∈ made.2.fragments, ([97, 98, 99] : List UInt8).length ≤ fragment.capacity := by
    decide +kernel
  obtain ⟨⟨segment, quarry⟩, made, two, long⟩ := carved
  obtain ⟨_, cursor, apart, _, _, _, _, fills⟩ := (reached_dug made).carves_apart
  obtain ⟨fragment, other, fragments⟩ := List.length_eq_two.mp two
  have inside : fragment ∈ quarry.fragments := fragments ▸ List.mem_cons_self
  obtain ⟨spares, filled⟩ := (fills fragment inside).1 [97, 98, 99]
  obtain ⟨after, written, length, _⟩ := filled (long fragment inside)
  rw [written] at spares
  rw [fragments] at apart
  exact ⟨segment, quarry, fragment, other, after, made, fragments,
    (List.pairwise_cons.mp apart).1 other List.mem_cons_self, cursor, written, length, spares.1⟩

/-- The header of a fragment is not spared when it is filled: the length of the payload is set. -/
theorem fill_changes_header : ∃ segment quarry fragment after,
    Reached segment quarry ∧ fragment ∈ quarry.fragments ∧
      fragment.write [97, 98, 99] quarry.memory = .done () after ∧
      after.read fragment.place headerSize ≠ quarry.memory.read fragment.place headerSize := by
  have filled : ∃ made ∈ dug, ∃ fragment ∈ made.2.fragments,
      ∃ after ∈ (fragment.write [97, 98, 99] made.2.memory).state?,
        ([97, 98, 99] : List UInt8).length ≤ fragment.capacity ∧
          after.read fragment.place headerSize ≠
            made.2.memory.read fragment.place headerSize := by
    decide +kernel
  obtain ⟨⟨segment, quarry⟩, made, fragment, inside, after, ends, long, differs⟩ := filled
  have written := Fragment.write_eq long quarry.memory
  rw [written] at ends
  obtain rfl := Option.some.inj ends
  exact ⟨segment, quarry, fragment, _, reached_dug made, inside, written, differs⟩

end Quarry

end RankMail
