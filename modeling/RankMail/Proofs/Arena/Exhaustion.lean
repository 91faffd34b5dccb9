import RankMail.Proofs.Arena.Forecast
import RankMail.Proofs.Arena.Quarry

set_option autoImplicit false

/-! # Where a segment is exhausted

The forecast of `Arena.available` is a division, and carving is a loop that asks for one slot after
another until one is refused. The two agree wherever the cursor has got to, whoever has moved it
(`Reached.exhausts_as_forecast`). A slot that has been refused has taken nothing, so a class with
smaller slots may still find room. What is left of a segment and what has been granted of it are
always the whole of its arena (`Sound.remaining_eq`).
-/

namespace RankMail

/-! ## One arena -/

namespace Arena

variable {arena : Arena} {memory : Memory} {scene full last : Scene Arena}
  {sizeClass other : SizeClass} {count : Nat}

/-- Carves slots of some classes, one after another. -/
def carveAll : List SizeClass → Action (Scene Arena) (List Fragment)
  | [] => pure []
  | sizeClass :: rest => do
      let fragment ← carve sizeClass
      let fragments ← carveAll rest
      pure (fragment :: fragments)

theorem carveAll_cons {fragment : Fragment} (carved : carve sizeClass scene = .done fragment last)
    (rest : List SizeClass) :
    carveAll (sizeClass :: rest) scene =
      (carveAll rest >>= fun fragments => pure (fragment :: fragments)) last := by
  rw [carveAll, Action.bind_done carved]

/-- As many slots are carved as are forecast. -/
theorem Apt.carveAll_of_room (apt : scene.actor.Apt scene.memory)
    (room : count ≤ scene.actor.available scene.memory sizeClass) :
    ∃ full, carveAll (List.replicate count sizeClass) scene =
        .done (scene.actor.stock sizeClass (scene.actor.segment.cursor scene.memory) count) full ∧
      Carves scene sizeClass count full := by
  induction count generalizing scene with
  | zero =>
      have nothing := Carves.none apt sizeClass []
      rw [List.append_nil] at nothing
      exact ⟨scene, rfl, nothing⟩
  | succ count ih =>
      have first : 0 < scene.actor.available scene.memory sizeClass := by omega
      have fewer := apt.available_further first
      obtain ⟨full, carved, carves⟩ := ih (apt.stays first) (by omega)
      refine ⟨full, ?_, carves.more apt first⟩
      have cursor : (further sizeClass scene).actor.segment.cursor
          (further sizeClass scene).memory =
            scene.actor.segment.cursor scene.memory + scene.actor.slotLength sizeClass :=
        apt.cursor_further first
      rw [List.replicate_succ, carveAll_cons (apt.carve_of_room first), Action.bind_done carved,
        cursor, stock_succ]
      rfl

/-- No more slots are carved than are forecast. -/
theorem Apt.carveAll_of_none (apt : scene.actor.Apt scene.memory)
    (short : scene.actor.available scene.memory sizeClass < count) :
    ∃ last, carveAll (List.replicate count sizeClass) scene =
      .failed (.exhausted sizeClass) last := by
  induction count generalizing scene with
  | zero => omega
  | succ count ih =>
      rw [List.replicate_succ]
      rcases Nat.eq_zero_or_pos (scene.actor.available scene.memory sizeClass) with none | first
      · rw [carveAll, Action.bind_apply, apt.carve_of_none none]
        exact ⟨_, rfl⟩
      · have fewer := apt.available_further first
        obtain ⟨last, refused⟩ := ih (apt.stays first) (by omega)
        rw [carveAll_cons (apt.carve_of_room first), Action.bind_apply, refused]
        exact ⟨last, rfl⟩

/-- The slots that are forecast are those that are carved before the first one is refused. -/
theorem Apt.available_eq_iff (apt : scene.actor.Apt scene.memory) :
    scene.actor.available scene.memory sizeClass = count ↔
      ∃ fragments full last,
        carveAll (List.replicate count sizeClass) scene = .done fragments full ∧
          carve sizeClass full = .failed (.exhausted sizeClass) last := by
  constructor
  · intro forecast
    obtain ⟨full, carved, carves⟩ := apt.carveAll_of_room (Nat.le_of_eq forecast.symm)
    have left := carves.left
    exact ⟨_, full, _, carved, carves.apt.carve_of_none (by omega)⟩
  · rintro ⟨fragments, full, last, carved, refused⟩
    have enough : count ≤ scene.actor.available scene.memory sizeClass := by
      refine Nat.not_lt.mp fun short => ?_
      obtain ⟨_, failed⟩ := apt.carveAll_of_none short
      rw [failed] at carved
      cases carved
    obtain ⟨_, again, carves⟩ := apt.carveAll_of_room enough
    obtain ⟨rfl, rfl⟩ := Outcome.done.inj (carved.symm.trans again)
    have left := carves.left
    rcases Nat.eq_zero_or_pos (full.actor.available full.memory sizeClass) with none | one
    · omega
    · rw [carves.apt.carve_of_room one] at refused
      cases refused

theorem Apt.carve_iff (apt : scene.actor.Apt scene.memory) (sizeClass : SizeClass) :
    ((∃ fragment after, carve sizeClass scene = .done fragment after) ↔
      scene.actor.slotLength sizeClass ≤ scene.actor.segment.remaining scene.memory) ∧
    (scene.actor.segment.remaining scene.memory < scene.actor.slotLength sizeClass →
      ∃ after, carve sizeClass scene = .failed (.exhausted sizeClass) after) := by
  have below := apt.below
  have positive := apt.slotLength_pos sizeClass
  have sized := (apt.sized sizeClass).1
  rw [Segment.remaining]
  constructor
  · rw [apt.carve_done_iff sized]
    omega
  · intro short
    exact ⟨_, carve_of_full sized (by omega)⟩

/-- Once a class is exhausted, a slot of another class is carved exactly if its length is left. -/
theorem Apt.carve_after (apt : scene.actor.Apt scene.memory) {fragments : List Fragment}
    (carved : carveAll (List.replicate count sizeClass) scene = .done fragments full)
    (refused : carve sizeClass full = .failed (.exhausted sizeClass) last) (other : SizeClass) :
    ∃ size, slotSize (scene.actor.capacities.capacity other) = some size ∧
      ((∃ fragment after, carve other last = .done fragment after) ↔
        size ≤ scene.actor.segment.remaining last.memory) ∧
      (scene.actor.segment.remaining last.memory < size →
        ∃ after, carve other last = .failed (.exhausted other) after) := by
  have forecast := apt.available_eq_iff.mpr ⟨fragments, full, last, carved, refused⟩
  obtain ⟨_, again, carves⟩ := apt.carveAll_of_room (Nat.le_of_eq forecast.symm)
  obtain ⟨_, rfl⟩ := Outcome.done.inj (carved.symm.trans again)
  -- What is refused leaves the arena and memory as they were.
  have left := carves.left
  rw [carves.apt.carve_of_none (by omega)] at refused
  obtain ⟨_, same⟩ := Outcome.failed.inj refused
  have actor : last.actor = full.actor := by rw [← same]
  have memory : last.memory = full.memory := by rw [← same]
  have stocked := actor.trans carves.actor
  have length : last.actor.slotLength other = scene.actor.slotLength other := by
    rw [stocked]
    rfl
  have segment : last.actor.segment = scene.actor.segment := by
    rw [stocked]
    rfl
  have ends := @Apt.carve_iff last (actor ▸ memory ▸ carves.apt) other
  rw [length, segment] at ends
  exact ⟨_, (apt.sized other).1, ends⟩

end Arena

/-! ## Many arenas -/

namespace Grant

theorem totalLength_append (new granted : List Grant) :
    totalLength (new ++ granted) = totalLength new + totalLength granted := by
  induction new with
  | nil => exact (Nat.zero_add _).symm
  | cons grant new ih =>
      rw [List.cons_append, totalLength, ih, totalLength]
      omega

end Grant

namespace Quarry

variable {segment : Segment} {quarry between after : Quarry} {name : Nat} {carver : Carver}
  {arena : Arena} {sizeClass : SizeClass} {fragment : Fragment} {fragments : List Fragment}
  {scene : Scene Arena}

/-- What is left of a segment and what has been granted of it are all of its arena. -/
theorem Sound.remaining_eq (sound : Sound segment quarry) :
    segment.remaining quarry.memory + Grant.totalLength quarry.granted =
      segment.size - arenaStart := by
  have cursor := sound.cursor
  have reached := sound.laid.reached_eq
  have below := sound.below
  rw [Segment.remaining, cursor]
  omega

/-- Every carver can carve on from where the cursor is, whoever has moved it there. -/
theorem Sound.apt (sound : Sound segment quarry) (found : quarry.carvers name = some carver) :
    carver.arena.Apt quarry.memory := by
  have suits := sound.suits found
  have cursor : carver.arena.segment.cursor quarry.memory = Grant.reached quarry.granted :=
    (suits.mapping.cursor quarry.memory).trans sound.cursor
  have size : carver.arena.segment.size = segment.size := suits.mapping.size
  refine ⟨?_, suits.allowed, ?_, ?_⟩
  · rw [size]
    exact sound.small
  · have room := suits.room
    have slots : carver.arena.descriptors.size ≤ carver.slots := by
      unfold Carver.slots
      split <;> omega
    rw [cursor]
    simp only [headerAlignment] at room ⊢
    omega
  · rw [cursor, size]
    exact sound.below

/-- The quarry once a carver has carved a slot. -/
def carvedBy (quarry : Quarry) (name : Nat) (fragment : Fragment) (scene : Scene Arena) : Quarry :=
  { quarry.left name scene with
    fragments := fragment :: quarry.fragments
    granted := fragment.range :: quarry.granted }

/-- Carvers carve slots one after another, and none of them is refused. -/
inductive Digs : Quarry → List Fragment → Quarry → Prop
  | none (quarry : Quarry) : Digs quarry [] quarry
  | one {quarry after : Quarry} {name : Nat} {arena : Arena} {sizeClass : SizeClass}
      {fragment : Fragment} {fragments : List Fragment} {scene : Scene Arena}
      (found : quarry.carvers name = some ⟨arena, none⟩)
      (carved : Arena.carve sizeClass (quarry.scene arena) = .done fragment scene)
      (more : Digs (quarry.carvedBy name fragment scene) fragments after) :
      Digs quarry (fragment :: fragments) after

/-- The quarry once a carver has claimed the range of a slot at the cursor. -/
def claimedBy (quarry : Quarry) (name : Nat) (arena : Arena) (sizeClass : SizeClass) : Quarry :=
  let position := arena.segment.cursor quarry.memory
  let memory := quarry.memory.store SegmentField.cursor arena.segment.place
    (position + arena.slotLength sizeClass)
  ({ quarry with memory }.keep name ⟨arena, some (sizeClass, some position)⟩).grant
    (arena.slotLength sizeClass) (some position)

theorem Sound.claim_eq (sound : Sound segment quarry)
    (found : quarry.carvers name = some ⟨arena, none⟩)
    (fits : arena.segment.cursor quarry.memory + arena.slotLength sizeClass ≤ arena.segment.size) :
    claim name sizeClass quarry =
      .done (some (arena.segment.cursor quarry.memory))
        (quarry.claimedBy name arena sizeClass) := by
  have apt : arena.Apt quarry.memory := sound.apt found
  have small := apt.small
  simp only [maxSegmentSize] at small
  have claims : Arena.claim sizeClass (quarry.scene arena) =
      .done (some (arena.segment.cursor quarry.memory))
        ⟨arena, quarry.memory.store SegmentField.cursor arena.segment.place
          (arena.segment.cursor quarry.memory + arena.slotLength sizeClass), quarry.notices⟩ := by
    rw [Arena.claim, Action.bind_done (Scene.self_apply _)]
    simp only [scene, (apt.sized sizeClass).1]
    rw [Scene.inMemory_apply, Segment.reserve_fits ⟨by omega, fits⟩]
    rfl
  have acted : asArena name arena (Arena.claim sizeClass) quarry = _ :=
    (Action.within_apply ..).trans (congrArg (Outcome.mapState _) claims)
  rw [claim, Action.bind_done (Action.get_apply _)]
  simp only [found]
  rw [Action.bind_done acted, claimedBy]
  simp only [Action.bind_apply, Action.modify_apply, Action.pure_apply, keep_left]
  rfl

theorem Sound.settle_eq (sound : Sound segment quarry) {position : Nat}
    (pending : quarry.carvers name = some ⟨arena, some (sizeClass, some position)⟩) :
    settle name quarry = .done ()
      { quarry.left name ⟨arena.extended sizeClass position,
          quarry.memory.writeHeader (arena.segment.placeAt position) (arena.nextHeader sizeClass),
          quarry.notices⟩ with
        fragments := arena.handle arena.descriptors.size
          (arena.nextDescriptor sizeClass position) :: quarry.fragments } := by
  have few : arena.descriptors.size < 2 ^ 32 := Nat.lt_of_succ_lt (sound.few pending)
  have carved := Arena.carveAt_eq ((sound.suits pending).allowed sizeClass) few position
    quarry.memory quarry.notices
  have acted : asArena name arena (Arena.settle sizeClass (some position)) quarry = _ :=
    (Action.within_apply ..).trans (congrArg (Outcome.mapState _) carved)
  rw [settle, Action.bind_done (Action.get_apply _)]
  simp only [pending]
  rw [Action.bind_done acted]
  rfl

/-- A carver that carves a slot has claimed its range and then carved it there. -/
theorem Reached.run_carve (reached : Reached segment quarry)
    (found : quarry.carvers name = some ⟨arena, none⟩)
    (carved : Arena.carve sizeClass (quarry.scene arena) = .done fragment scene) :
    quarry.run [.claim name sizeClass, .settle name] =
      some (quarry.carvedBy name fragment scene) := by
  have apt : arena.Apt quarry.memory := reached.sound.apt found
  have sized := (apt.sized sizeClass).1
  have fits := (@Arena.Apt.carve_done_iff (quarry.scene arena) apt sizeClass _ sized).mp
    ⟨_, _, carved⟩
  have claimed : (Move.claim name sizeClass).perform quarry =
      .done () (quarry.claimedBy name arena sizeClass) := by
    rw [Move.perform, Action.bind_done (reached.sound.claim_eq found fits)]
    rfl
  have between : Reached segment (quarry.claimedBy name arena sizeClass) :=
    reached.perform (.claim name sizeClass) trivial (by rw [claimed]; rfl)
  have pending : (quarry.claimedBy name arena sizeClass).carvers name =
      some ⟨arena, some (sizeClass, some (arena.segment.cursor quarry.memory))⟩ :=
    (carvers_keep ..).trans (if_pos rfl)
  have settled := between.sound.settle_eq pending
  have range : (arena.nextFragment sizeClass quarry.memory).range =
      ⟨arena.segment.cursor quarry.memory, arena.slotLength sizeClass⟩ := by
    rw [Fragment.range, Arena.nextFragment, Arena.handle,
      Arena.capacity_next (apt.allowed sizeClass)]
    rfl
  rw [@Arena.Apt.carve_of_room (quarry.scene arena) sizeClass apt
    (apt.available_pos_iff.mpr fits)] at carved
  obtain ⟨rfl, rfl⟩ := Outcome.done.inj carved
  show (((Move.claim name sizeClass).perform quarry).state?.bind fun quarry =>
    ((Move.settle name).perform quarry).state?.bind some) = _
  rw [claimed]
  show ((settle name (quarry.claimedBy name arena sizeClass)).state?.bind some) = _
  rw [settled]
  show some _ = some _
  simp only [carvedBy, scene, range]
  simp only [claimedBy, grant, left, keep, Function.update_idem, Arena.further]
  rfl

theorem Reached.carvedBy (reached : Reached segment quarry)
    (found : quarry.carvers name = some ⟨arena, none⟩)
    (carved : Arena.carve sizeClass (quarry.scene arena) = .done fragment scene) :
    Reached segment (quarry.carvedBy name fragment scene) := by
  refine reached.run (fun move inside => ?_) (reached.run_carve found carved)
  simp only [List.mem_cons, List.not_mem_nil, or_false] at inside
  rcases inside with rfl | rfl <;> trivial

/-- Slots take their lengths from what is left of the segment, whichever carvers carve them. -/
theorem Reached.remaining_digs (reached : Reached segment quarry)
    (digs : Digs quarry fragments after) :
    Reached segment after ∧
      segment.remaining after.memory + Grant.totalLength (fragments.map Fragment.range) =
        segment.remaining quarry.memory ∧
      ∀ fragment ∈ fragments, slotSize fragment.capacity = some fragment.range.length := by
  induction digs with
  | none quarry => exact ⟨reached, rfl, fun _ inside => absurd inside List.not_mem_nil⟩
  | @one quarry after name arena _ fragment fragments scene found carved more ih =>
      have between := reached.carvedBy found carved
      obtain ⟨last, taken, sized⟩ := ih between
      have before := reached.sound.remaining_eq
      have behind := between.sound.remaining_eq
      have first : slotSize fragment.capacity = some fragment.range.length :=
        (between.sound.range_stop List.mem_cons_self).1
      refine ⟨last, ?_, List.forall_mem_cons.mpr ⟨first, sized⟩⟩
      have granted : Grant.totalLength (quarry.carvedBy name fragment scene).granted =
          fragment.range.length + Grant.totalLength quarry.granted := rfl
      rw [List.map_cons, Grant.totalLength]
      omega

/-! ## What has been granted stays granted -/

theorem granted_grant (quarry : Quarry) (length : Nat) (start : Option Nat) :
    quarry.granted <:+ (quarry.grant length start).granted := by
  cases start with
  | none => exact List.suffix_rfl
  | some start => exact List.suffix_cons ..

theorem granted_fill (fragment : Fragment) (action : Action Memory Unit) (quarry : Quarry) :
    (fill fragment action quarry).Meets True fun _ after => quarry.granted <:+ after.granted := by
  rw [fill, Action.bind_done (Action.get_apply _)]
  split
  · exact Action.meets_within.mpr (Outcome.meets_any fun _ _ => List.suffix_rfl)
  · exact List.suffix_rfl

theorem granted_claim (name : Nat) (sizeClass : SizeClass) (quarry : Quarry) :
    (claim name sizeClass quarry).Meets True fun _ after => quarry.granted <:+ after.granted := by
  rw [claim, Action.bind_done (Action.get_apply _)]
  cases quarry.carvers name with
  | none => exact List.suffix_rfl
  | some carver =>
      obtain ⟨arena, _ | busy⟩ := carver
      · refine Action.meets_bind (Action.meets_within.mpr (Outcome.meets_any ?_))
        rintro (fault | start) scene
        · exact List.suffix_rfl
        · exact granted_grant ((quarry.left name scene).keep name
            ⟨arena, some (sizeClass, start)⟩) _ start
      · exact List.suffix_rfl

theorem granted_settle (name : Nat) (quarry : Quarry) :
    (settle name quarry).Meets True fun _ after => quarry.granted <:+ after.granted := by
  rw [settle, Action.bind_done (Action.get_apply _)]
  cases quarry.carvers name with
  | none => exact List.suffix_rfl
  | some carver =>
      obtain ⟨arena, _ | ⟨sizeClass, start⟩⟩ := carver
      · exact List.suffix_rfl
      · refine Action.meets_bind (Action.meets_within.mpr (Outcome.meets_any ?_))
        rintro (fault | fragment) scene <;> exact List.suffix_rfl

theorem granted_perform (move : Move) (quarry : Quarry) :
    (move.perform quarry).Meets True fun _ after => quarry.granted <:+ after.granted := by
  cases move with
  | join name segment capacities rank =>
      show (join name segment capacities rank quarry).Meets _ _
      rw [join]
      cases Arena.ofSegment segment capacities rank with
      | error fault => exact List.suffix_rfl
      | ok arena => exact List.suffix_rfl
  | reserve segment length =>
      refine Action.meets_bind (Action.meets_bind (Action.meets_within.mpr
        (Outcome.meets_any ?_)))
      rintro (fault | start) memory
      · exact List.suffix_rfl
      · exact granted_grant { quarry with memory } length start
  | claim name sizeClass =>
      refine Action.meets_bind ((granted_claim name sizeClass quarry).mono ?_)
      rintro (fault | start) after kept <;> exact kept
  | settle name => exact granted_settle name quarry
  | write fragment data => exact granted_fill fragment _ quarry
  | edit fragment start data => exact granted_fill fragment _ quarry
  | setLength fragment length => exact granted_fill fragment _ quarry

theorem granted_run {moves : List Move} (ends : quarry.run moves = some after) :
    quarry.granted <:+ after.granted := by
  induction moves generalizing quarry with
  | nil => exact Option.some.inj ends ▸ List.suffix_rfl
  | cons move rest ih =>
      obtain ⟨between, performed, ends⟩ := Option.bind_eq_some_iff.mp ends
      exact ((granted_perform move quarry).post_of_state performed).trans (ih ends)

/-- **An arena is exhausted where it is forecast to be.** Wherever the carvers of a segment have got
to, an arena carves as many slots of a class, one after another, as are forecast, and the next one
is refused because the class is exhausted. A slot of any class is then carved exactly if its length
is left.

Slots that are carved, by whichever carvers, take their lengths from what is left of the segment and
nothing else does: whatever moves are made, what is left becomes less by just what is granted. -/
theorem Reached.exhausts_as_forecast (reached : Reached segment quarry) :
    (∀ name arena, quarry.carvers name = some ⟨arena, none⟩ → ∀ sizeClass count,
      (arena.available quarry.memory sizeClass = count ↔
        ∃ fragments full last,
          Arena.carveAll (List.replicate count sizeClass) (quarry.scene arena) =
            .done fragments full ∧
          Arena.carve sizeClass full = .failed (.exhausted sizeClass) last) ∧
      ∀ fragments full last,
        Arena.carveAll (List.replicate count sizeClass) (quarry.scene arena) =
          .done fragments full →
        Arena.carve sizeClass full = .failed (.exhausted sizeClass) last →
        ∀ other, ∃ size, slotSize (arena.capacities.capacity other) = some size ∧
          ((∃ fragment after, Arena.carve other last = .done fragment after) ↔
            size ≤ arena.segment.remaining last.memory) ∧
          (arena.segment.remaining last.memory < size →
            ∃ after, Arena.carve other last = .failed (.exhausted other) after)) ∧
    (∀ fragments after, Digs quarry fragments after →
      segment.remaining after.memory + Grant.totalLength (fragments.map Fragment.range) =
        segment.remaining quarry.memory ∧
      ∀ fragment ∈ fragments, slotSize fragment.capacity = some fragment.range.length) ∧
    ∀ moves after, (∀ move ∈ moves, move.Concerns segment) → quarry.run moves = some after →
      ∃ granted, after.granted = granted ++ quarry.granted ∧
        segment.remaining after.memory + Grant.totalLength granted =
          segment.remaining quarry.memory := by
  refine ⟨fun name arena found sizeClass count => ?_, fun fragments after digs => ?_,
    fun moves after concern ends => ?_⟩
  · have apt : arena.Apt quarry.memory := reached.sound.apt found
    refine ⟨@Arena.Apt.available_eq_iff (quarry.scene arena) sizeClass count apt, ?_⟩
    intro fragments full last carved refused other
    exact @Arena.Apt.carve_after (quarry.scene arena) full last sizeClass count apt fragments carved
      refused other
  · exact (reached.remaining_digs digs).2
  · obtain ⟨granted, kept⟩ := granted_run ends
    have before := reached.sound.remaining_eq
    have behind := (reached.run concern ends).sound.remaining_eq
    refine ⟨granted, kept.symm, ?_⟩
    rw [← kept, Grant.totalLength_append] at behind
    omega

/-- Nine more slots of 128 bytes fit into what is left of the dug segment, and no tenth. -/
theorem exhausts_as_forecast_dug : ∃ segment quarry arena fragments full last,
    dug = some (segment, quarry) ∧ quarry.carvers 0 = some ⟨arena, none⟩ ∧
      arena.available quarry.memory .user = 9 ∧
      Arena.carveAll (List.replicate 9 .user) (quarry.scene arena) = .done fragments full ∧
      Arena.carve .user full = .failed (.exhausted .user) last := by
  have idle : ∃ made ∈ dug, ∃ carver ∈ made.2.carvers 0,
      carver.claimed = none ∧ carver.arena.available made.2.memory .user = 9 := by
    decide +kernel
  obtain ⟨⟨segment, quarry⟩, made, ⟨arena, _⟩, found, rfl, forecast⟩ := idle
  have exhausts := ((reached_dug made).exhausts_as_forecast.1 0 arena found .user 9).1
  obtain ⟨fragments, full, last, carved, refused⟩ := exhausts.mp forecast
  exact ⟨segment, quarry, arena, fragments, full, last, made, found, forecast, carved, refused⟩

end Quarry

end RankMail
