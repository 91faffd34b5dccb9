import RankMail.Proofs.Arena.Forecast
import RankMail.Proofs.Arena.Quarry
import RankMail.Proofs.Pool.Recycling

set_option autoImplicit false

/-! # Carving in batches

When a pool has no unused slot of a class, it carves a batch of them, as long as there is room:

    carved     slot 0 | slot 1 | slot 2 | . . . | slot n - 1
    handed out slot 0
    unused              n - 1, . . . , 2, 1, the last one on top

If there is not even room for the first, nothing has changed, so a pool that goes through several
classes finds every one of them as it was (`IsApt.getFirst_eq`).
-/

namespace RankMail

theorem PerClass.set_get {α : Type} (held : PerClass α) (sizeClass : SizeClass) :
    held.set sizeClass (held.get sizeClass) = held := by
  cases sizeClass <;> rfl

theorem PerClass.set_set {α : Type} (held : PerClass α) (sizeClass : SizeClass) (one two : α) :
    (held.set sizeClass one).set sizeClass two = held.set sizeClass two := by
  cases sizeClass <;> rfl

namespace Pool

variable {scene after : Scene Pool} {sizeClass : SizeClass} {count : Nat} {fragment : Fragment}

def carving (scene : Scene Pool) : Scene Arena :=
  ⟨scene.actor.arena, scene.memory, scene.notices⟩

theorem inArena_apply {Value : Type} (action : Action (Scene Arena) Value) (scene : Scene Pool) :
    inArena action scene = (action (carving scene)).mapState fun inner =>
      ⟨{ scene.actor with arena := inner.actor }, inner.memory, inner.notices⟩ := rfl

/-- How many slots of a class a pool can still carve. -/
def available (scene : Scene Pool) (sizeClass : SizeClass) : Nat :=
  scene.actor.arena.available scene.memory sizeClass

/-- The slots that a pool carves next, the first one in front. -/
def stock (scene : Scene Pool) (sizeClass : SizeClass) (count : Nat) : List Fragment :=
  scene.actor.arena.stock sizeClass (scene.actor.arena.segment.cursor scene.memory) count

def IsApt (scene : Scene Pool) : Prop := (carving scene).actor.Apt (carving scene).memory

def popped (scene : Scene Pool) (sizeClass : SizeClass) (rest : List Fragment) : Scene Pool :=
  { scene with actor := { scene.actor with free := scene.actor.free.set sizeClass rest } }

/-- A pool has carved some slots and put one after the other among the unused ones. -/
structure Stocks (before : Scene Pool) (sizeClass : SizeClass) (count : Nat)
    (after : Scene Pool) : Prop where
  carves : Arena.Carves (carving before) sizeClass count (carving after)
  actor : after.actor = { before.actor with
    arena := after.actor.arena
    free := before.actor.free.set sizeClass
      ((stock before sizeClass count).reverse ++ before.actor.free.get sizeClass) }

/-- A pool has carved some slots, has handed out the first of them, and has put one after the other
of the rest among the unused ones, of which there were none. -/
structure Restocks (before : Scene Pool) (sizeClass : SizeClass) (count : Nat)
    (fragment : Fragment) (after : Scene Pool) : Prop where
  carves : Arena.Carves (carving before) sizeClass count (carving after)
  first : (stock before sizeClass count).head? = some fragment
  actor : after.actor = { before.actor with
    arena := after.actor.arena
    free := before.actor.free.set sizeClass (stock before sizeClass count).tail.reverse }

def further (sizeClass : SizeClass) (scene : Scene Pool) : Scene Pool :=
  let last := Arena.further sizeClass (carving scene)
  ⟨{ scene.actor with arena := last.actor }, last.memory, last.notices⟩

theorem IsApt.carve_of_room (apt : IsApt scene) (room : 0 < available scene sizeClass) :
    inArena (Arena.carve sizeClass) scene =
      .done (scene.actor.arena.nextFragment sizeClass scene.memory) (further sizeClass scene) := by
  rw [inArena_apply, Arena.Apt.carve_of_room apt room]
  rfl

theorem IsApt.carve_of_none (apt : IsApt scene) (none : available scene sizeClass = 0) :
    ∃ notice, inArena (Arena.carve sizeClass) scene =
      .failed (.exhausted sizeClass) { scene with notices := scene.notices ++ [notice] } := by
  rw [inArena_apply, Arena.Apt.carve_of_none apt none]
  exact ⟨_, rfl⟩

theorem IsApt.stays (apt : IsApt scene) (room : 0 < available scene sizeClass) :
    IsApt (further sizeClass scene) :=
  Arena.Apt.stays apt room

theorem IsApt.stock_succ (apt : IsApt scene) (room : 0 < available scene sizeClass)
    (count : Nat) :
    stock scene sizeClass (count + 1) = scene.actor.arena.nextFragment sizeClass scene.memory ::
      stock (further sizeClass scene) sizeClass count := by
  have cursor : (further sizeClass scene).actor.arena.segment.cursor
      (further sizeClass scene).memory = scene.actor.arena.segment.cursor scene.memory +
        scene.actor.arena.slotLength sizeClass :=
    Arena.Apt.cursor_further apt room
  rw [stock, Arena.stock_succ, stock, cursor]
  rfl

/-! ## A batch -/

/-- A pool that grows carves as many slots as there is room for, but no more than it is to. -/
theorem IsApt.grow_eq (apt : IsApt scene) (sizeClass : SizeClass) (count : Nat) :
    ∃ after, grow sizeClass count scene = .done () after ∧
      Stocks scene sizeClass (min count (available scene sizeClass)) after := by
  induction count generalizing scene with
  | zero =>
      have nothing := Arena.Carves.none apt sizeClass []
      refine ⟨scene, rfl, ?_, ?_⟩
      · rw [Nat.zero_min]
        rw [List.append_nil] at nothing
        exact nothing
      · rw [Nat.zero_min, stock, Arena.stock_zero, List.reverse_nil, List.nil_append,
          PerClass.set_get]
  | succ count ih =>
      rcases Nat.eq_zero_or_pos (available scene sizeClass) with none | room
      · obtain ⟨notice, refused⟩ := apt.carve_of_none none
        refine ⟨{ scene with notices := scene.notices ++ [notice] }, ?_, ?_, ?_⟩
        · rw [grow, Action.bind_done (Action.attempt_failed refused)]
          rfl
        · rw [none, Nat.min_zero]
          exact Arena.Carves.none apt sizeClass [notice]
        · rw [none, Nat.min_zero, stock, Arena.stock_zero, List.reverse_nil, List.nil_append,
            PerClass.set_get]
      · -- The first slot is carved and put on top, and the rest is carved behind it.
        have carved := apt.carve_of_room room
        have fewer : available (further sizeClass scene) sizeClass + 1 =
            available scene sizeClass :=
          Arena.Apt.available_further apt room
        have many : min (count + 1) (available scene sizeClass) =
            min count (available (further sizeClass scene) sizeClass) + 1 := by omega
        obtain ⟨after, grown, carves, actor⟩ := @ih { further sizeClass scene with
          actor := (further sizeClass scene).actor.pushed sizeClass
            (scene.actor.arena.nextFragment sizeClass scene.memory) } (apt.stays room)
        refine ⟨after, ?_, ?_, ?_⟩
        · rw [grow, Action.bind_done (Action.attempt_done carved)]
          show (push sizeClass _ >>= fun _ => grow sizeClass count) _ = _
          rw [Action.bind_done (push_eq ..)]
          exact grown
        · rw [many]
          exact Arena.Carves.more apt room carves
        · rw [many, apt.stock_succ room, List.reverse_cons, List.append_assoc, actor]
          simp only [pushed, PerClass.set_set, PerClass.get_set, if_true]
          rfl

/-! ## Taking a slot -/

theorem get_of_unused {rest : List Fragment}
    (unused : scene.actor.free.get sizeClass = fragment :: rest) :
    get sizeClass scene = .done fragment (popped scene sizeClass rest) := by
  rw [get, Action.bind_done (Scene.self_apply _)]
  simp only [unused]
  rfl

/-- A slot that comes back at once is where it was. -/
theorem popped_pushed {rest : List Fragment}
    (unused : scene.actor.free.get sizeClass = fragment :: rest) :
    (popped scene sizeClass rest).actor.pushed sizeClass fragment = scene.actor := by
  have free : scene.actor.free.set sizeClass (fragment :: rest) = scene.actor.free := by
    rw [← unused, PerClass.set_get]
  simp only [popped, pushed, PerClass.set_set, PerClass.get_set, if_true, free]

theorem IsApt.get_of_none (apt : IsApt scene) (unused : scene.actor.free.get sizeClass = [])
    (none : available scene sizeClass = 0) :
    ∃ notice, get sizeClass scene =
      .failed (.exhausted sizeClass) { scene with notices := scene.notices ++ [notice] } := by
  obtain ⟨notice, refused⟩ := apt.carve_of_none none
  refine ⟨notice, ?_⟩
  rw [get, Action.bind_done (Scene.self_apply _)]
  simp only [unused]
  rw [Action.bind_apply, refused]

/-- If there is no unused slot but room, a batch is carved. -/
theorem IsApt.get_of_room (apt : IsApt scene) (unused : scene.actor.free.get sizeClass = [])
    (room : 0 < available scene sizeClass) :
    ∃ fragment after, get sizeClass scene = .done fragment after ∧
      Restocks scene sizeClass (min (max scene.actor.growBatch 1) (available scene sizeClass))
        fragment after := by
  have carved := apt.carve_of_room room
  have fewer : available (further sizeClass scene) sizeClass + 1 =
      available scene sizeClass :=
    Arena.Apt.available_further apt room
  have many : min (max scene.actor.growBatch 1) (available scene sizeClass) =
      min (scene.actor.growBatch - 1) (available (further sizeClass scene) sizeClass) + 1 := by
    omega
  obtain ⟨after, grown, carves, actor⟩ :=
    (apt.stays room).grow_eq sizeClass (scene.actor.growBatch - 1)
  refine ⟨scene.actor.arena.nextFragment sizeClass scene.memory, after, ?_, ?_, ?_, ?_⟩
  · rw [get, Action.bind_done (Scene.self_apply _)]
    simp only [unused]
    rw [Action.bind_done carved, Action.bind_done grown]
    rfl
  · rw [many]
    exact Arena.Carves.more apt room carves
  · rw [many, apt.stock_succ room, List.head?_cons]
  · rw [many, apt.stock_succ room, List.tail_cons, actor]
    have none : (further sizeClass scene).actor.free.get sizeClass = [] := unused
    rw [none, List.append_nil]
    rfl

/-- What a pool hands out, if it hands anything out. -/
theorem IsApt.get_meets (apt : IsApt scene) (sizeClass : SizeClass) :
    (get sizeClass scene).Meets False fun result after =>
      match result with
      | .ok fragment =>
          (∃ rest, scene.actor.free.get sizeClass = fragment :: rest ∧
            after = popped scene sizeClass rest) ∨
          (scene.actor.free.get sizeClass = [] ∧ Restocks scene sizeClass
            (min (max scene.actor.growBatch 1) (available scene sizeClass)) fragment after)
      | .error fault => fault = .exhausted sizeClass ∧
          ∃ notices, after = { scene with notices } := by
  cases unused : scene.actor.free.get sizeClass with
  | cons fragment rest =>
      rw [get_of_unused unused]
      exact .inl ⟨rest, rfl, rfl⟩
  | nil =>
      rcases Nat.eq_zero_or_pos (available scene sizeClass) with none | room
      · obtain ⟨notice, refused⟩ := apt.get_of_none unused none
        rw [refused]
        exact ⟨rfl, _, rfl⟩
      · obtain ⟨fragment, after, taken, restocks⟩ := apt.get_of_room unused room
        rw [taken]
        exact .inr ⟨rfl, restocks⟩

/-! ## Going through several classes -/

/-- A pool has a slot of a class, or room for one. -/
def serves (scene : Scene Pool) (sizeClass : SizeClass) : Bool :=
  !(scene.actor.free.get sizeClass).isEmpty || 0 < available scene sizeClass

theorem serves_iff : serves scene sizeClass = true ↔
    scene.actor.free.get sizeClass ≠ [] ∨ 0 < available scene sizeClass := by
  simp [serves]

theorem IsApt.get_done_iff (apt : IsApt scene) :
    (∃ fragment after, get sizeClass scene = .done fragment after) ↔
      serves scene sizeClass = true := by
  rw [serves_iff]
  cases unused : scene.actor.free.get sizeClass with
  | cons fragment rest =>
      exact iff_of_true ⟨_, _, get_of_unused unused⟩ (.inl (List.cons_ne_nil fragment rest))
  | nil =>
      rcases Nat.eq_zero_or_pos (available scene sizeClass) with none | room
      · obtain ⟨notice, refused⟩ := apt.get_of_none unused none
        refine iff_of_false ?_ (by simp [none])
        rintro ⟨fragment, after, taken⟩
        rw [refused] at taken
        cases taken
      · obtain ⟨fragment, after, taken, _⟩ := apt.get_of_room unused room
        exact iff_of_true ⟨_, _, taken⟩ (.inr room)

/-- The classes before the first one that serves change nothing. -/
theorem IsApt.getFirst_eq (apt : IsApt scene) (last : Fault) (classes : List SizeClass) :
    ∃ notices, getFirst last classes scene =
      match classes.find? (serves scene) with
      | some sizeClass => get sizeClass { scene with notices }
      | none => .failed ((classes.getLast?.map Fault.exhausted).getD last)
          { scene with notices } := by
  induction classes generalizing last scene with
  | nil => exact ⟨scene.notices, rfl⟩
  | cons sizeClass rest ih =>
      cases served : serves scene sizeClass with
      | true =>
          obtain ⟨fragment, after, taken⟩ := apt.get_done_iff.mpr served
          refine ⟨scene.notices, ?_⟩
          rw [List.find?_cons_of_pos served, getFirst, Action.bind_done
            (Action.attempt_done taken)]
          exact taken.symm
      | false =>
          have neither := mt serves_iff.mpr (by rw [served]; exact Bool.false_ne_true)
          have unused : scene.actor.free.get sizeClass = [] :=
            not_not.mp fun some => neither (.inl some)
          have none : available scene sizeClass = 0 :=
            Nat.eq_zero_of_not_pos fun room => neither (.inr room)
          obtain ⟨notice, refused⟩ := apt.get_of_none unused none
          obtain ⟨notices, found⟩ := @ih { scene with notices := scene.notices ++ [notice] } apt
            (.exhausted sizeClass)
          refine ⟨notices, ?_⟩
          rw [getFirst, Action.bind_done (Action.attempt_failed refused),
            List.find?_cons_of_neg (by rw [served]; exact Bool.false_ne_true)]
          refine found.trans ?_
          cases rest with
          | nil => rfl
          | cons other rest => rfl

theorem IsApt.getFallback_done_iff (apt : IsApt scene) {classes : List SizeClass} :
    (∃ fragment after, getFallback classes scene = .done fragment after) ↔
      ∃ sizeClass ∈ classes,
        scene.actor.free.get sizeClass ≠ [] ∨ 0 < available scene sizeClass := by
  obtain ⟨notices, found⟩ := apt.getFirst_eq (.refused .noClass) classes
  rw [getFallback, found]
  cases first : classes.find? (serves scene) with
  | none =>
      refine iff_of_false ?_ ?_
      · rintro ⟨fragment, after, same⟩
        cases same
      · rintro ⟨sizeClass, inside, served⟩
        exact List.find?_eq_none.mp first sizeClass inside (serves_iff.mpr served)
  | some sizeClass =>
      have served := List.find?_some first
      refine iff_of_true ?_ ⟨sizeClass, List.mem_of_find?_eq_some first, serves_iff.mp served⟩
      exact (@IsApt.get_done_iff { scene with notices } sizeClass apt).mpr served

/-! ## Unused slots stay blank -/

/-- The pools that come about on a mapping of a segment that has been made. Others who have mapped
the segment may claim a part of it. They, and whoever has been handed a slot, may write whatever and
wherever they like, as long as the cursor and the headers of the unused slots stay. -/
inductive Kept (growBatch : Nat) : Scene Pool → Prop
  | create {directory : String} {rank source : UInt32} {size : Nat} {removesFile : Bool}
      {world after : World} {made segment : Segment} {capacities : Capacities} {arena : Arena}
      {notices : List Notice}
      (created : Segment.create directory rank size removesFile world = .done made after)
      (same : segment.SameFile made)
      (founded : Arena.ofSegment segment capacities source = .ok arena) :
      Kept growBatch ⟨.ofArena arena growBatch, after.memory, notices⟩
  | get {scene after : Scene Pool} {sizeClass : SizeClass} (kept : Kept growBatch scene)
      (ends : (Pool.get sizeClass scene).state? = some after) : Kept growBatch after
  | getFallback {scene after : Scene Pool} {classes : List SizeClass} (kept : Kept growBatch scene)
      (ends : (Pool.getFallback classes scene).state? = some after) : Kept growBatch after
  | put {scene after : Scene Pool} {fragment : Fragment} (kept : Kept growBatch scene)
      (ends : (Pool.put fragment scene).state? = some after) : Kept growBatch after
  | recycle {scene after : Scene Pool} {address : Nat} (kept : Kept growBatch scene)
      (ends : (Pool.recycle address scene).state? = some after) : Kept growBatch after
  | claim {scene : Scene Pool} {length : Nat} {memory : Memory} (kept : Kept growBatch scene)
      (aligned : length % headerAlignment = 0)
      (ends : (scene.actor.arena.segment.reserve length scene.memory).state? = some memory) :
      Kept growBatch { scene with memory }
  | overwrite {scene : Scene Pool} {memory : Memory} (kept : Kept growBatch scene)
      (cursor : scene.actor.arena.segment.cursor memory =
        scene.actor.arena.segment.cursor scene.memory)
      (headers : ∀ sizeClass, ∀ fragment ∈ scene.actor.free.get sizeClass,
        memory.read fragment.place headerSize = scene.memory.read fragment.place headerSize) :
      Kept growBatch { scene with memory }

/-- A handle of a slot in the table of a pool, with the header with which it was carved. -/
def IsFresh (scene : Scene Pool) (sizeClass : SizeClass) (fragment : Fragment) : Prop :=
  ∃ index descriptor, scene.actor.arena.Has index descriptor ∧
    fragment = scene.actor.arena.handle index descriptor ∧ descriptor.sizeClass = sizeClass ∧
    fragment.IsBlank scene.actor.arena.rank scene.memory

/-- A pool has a table of slots that lie behind one another, and its unused slots are fresh. -/
structure Tended (growBatch : Nat) (scene : Scene Pool) : Prop where
  stacked : IsStacked scene
  batch : scene.actor.growBatch = max growBatch 1
  fresh : ∀ {sizeClass fragment}, fragment ∈ scene.actor.free.get sizeClass →
    IsFresh scene sizeClass fragment

variable {growBatch : Nat}

theorem IsStacked.isApt (stacked : IsStacked scene) : IsApt scene := Arena.Stacked.apt stacked

theorem IsFresh.congr (fresh : IsFresh scene sizeClass fragment)
    (grows : scene.actor.arena.Grows after.actor.arena)
    (same : after.memory.read fragment.place headerSize =
      scene.memory.read fragment.place headerSize) : IsFresh after sizeClass fragment := by
  obtain ⟨index, descriptor, has, rfl, classed, blank⟩ := fresh
  refine ⟨index, descriptor, grows.has has, ?_, classed, ?_⟩
  · rw [Arena.handle, Arena.handle, grows.segment]
  · rw [grows.rank]
    exact blank.congr same

theorem IsFresh.looks (fresh : IsFresh scene sizeClass fragment) (stacked : IsStacked scene) :
    fragment.sizeClass = sizeClass ∧
      fragment.capacity = scene.actor.arena.capacities.capacity sizeClass ∧
      fragment.length scene.memory = 0 ∧ (fragment.header scene.memory).next = .free ∧
      (fragment.header scene.memory).flags = 0 := by
  obtain ⟨index, descriptor, has, rfl, rfl, blank⟩ := fresh
  refine ⟨rfl, stacked.capacity has, blank.length_eq, ?_, ?_⟩
  · rw [blank.header_eq]
    rfl
  · rw [blank.header_eq]
    rfl

theorem Restocks.fresh (restocks : Restocks scene sizeClass count fragment after) {other : Fragment}
    (inside : other ∈ stock scene sizeClass count) : IsFresh after sizeClass other := by
  have blank := restocks.carves.blank other inside
  have arena : after.actor.arena = _ := restocks.carves.actor
  obtain ⟨index, below, rfl⟩ := Arena.mem_stock inside
  have has := Arena.has_stocked scene.actor.arena sizeClass
    (scene.actor.arena.segment.cursor scene.memory) below
  refine ⟨_, _, arena ▸ has, ?_, rfl, ?_⟩
  · rw [arena]
    rfl
  · rw [arena]
    exact blank

theorem Restocks.old (restocks : Restocks scene sizeClass count fragment after)
    (stacked : IsStacked scene) {other : Fragment} {otherClass : SizeClass}
    (fresh : IsFresh scene otherClass other) : IsFresh after otherClass other := by
  have arena : after.actor.arena = _ := restocks.carves.actor
  refine fresh.congr ?_ ?_
  · rw [arena]
    exact ⟨rfl, rfl, rfl, fun has => has.stocked _ _ _⟩
  · obtain ⟨index, descriptor, has, rfl, _⟩ := fresh
    exact restocks.carves.read_old stacked has

/-- A pool stays tended when a slot is taken, and the slot is fresh. -/
theorem Tended.get_meets (tended : Tended growBatch scene) (sizeClass : SizeClass) :
    (get sizeClass scene).Meets False fun result after => Tended growBatch after ∧
      ∀ fragment, result = .ok fragment → IsFresh after sizeClass fragment := by
  have stacked := tended.stacked
  refine ((stacked.isApt.get_meets sizeClass).both (stacked.get sizeClass)).mono ?_
  rintro (fault | fragment) after ⟨taken, stacked'⟩
  · obtain ⟨_, notices, rfl⟩ := taken
    exact ⟨⟨stacked', tended.batch, tended.fresh⟩, fun _ same => by cases same⟩
  · rcases taken with ⟨rest, unused, rfl⟩ | ⟨none, restocks⟩
    · have top : fragment ∈ scene.actor.free.get sizeClass := unused ▸ List.mem_cons_self
      refine ⟨⟨stacked', tended.batch, fun {other fragment} inside => ?_⟩, ?_⟩
      · simp only [popped, PerClass.get_set] at inside
        split at inside
        · next same =>
          subst same
          exact tended.fresh (unused ▸ List.mem_cons_of_mem _ inside)
        · exact tended.fresh inside
      · rintro _ ⟨⟩
        exact tended.fresh top
    · refine ⟨⟨stacked', ?_, fun {other fragment} inside => ?_⟩, ?_⟩
      · rw [restocks.actor]
        exact tended.batch
      · rw [restocks.actor] at inside
        simp only [PerClass.get_set] at inside
        split at inside
        · next same =>
          subst same
          exact restocks.fresh (List.mem_of_mem_tail (List.mem_reverse.mp inside))
        · exact restocks.old stacked (tended.fresh inside)
      · rintro _ ⟨⟩
        exact restocks.fresh (List.mem_of_mem_head? restocks.first)

theorem Tended.getFallback_meets (tended : Tended growBatch scene) (classes : List SizeClass) :
    (getFallback classes scene).Meets False fun _ after => Tended growBatch after := by
  obtain ⟨notices, found⟩ := tended.stacked.isApt.getFirst_eq (.refused .noClass) classes
  have noticed : Tended growBatch { scene with notices } :=
    ⟨tended.stacked, tended.batch, tended.fresh⟩
  rw [getFallback, found]
  cases classes.find? (serves scene) with
  | none => exact noticed
  | some sizeClass => exact (noticed.get_meets sizeClass).mono fun _ _ ends => ends.1

theorem Tended.regain (tended : Tended growBatch scene) (regained : MayRegain scene after) :
    Tended growBatch after := by
  have stacked := tended.stacked.regain regained
  rcases regained with rfl | ⟨index, descriptor, notices, has, rfl⟩
  · exact tended
  · refine ⟨stacked, tended.batch, fun {sizeClass fragment} inside => ?_⟩
    have written : (scene.memory.writeHeader
        (scene.actor.arena.segment.placeAt descriptor.position)
        (.fresh scene.actor.arena.rank (UInt32.ofNat index) descriptor.sizeClass
          descriptor.capacity)).read (scene.actor.arena.handle index descriptor).place headerSize =
        ((scene.actor.arena.handle index descriptor).blank scene.actor.arena.rank).bytes := by
      rw [Fragment.blank, Arena.handle, UInt32.ofNat_toNat, ← Header.length_bytes]
      exact Memory.read_write_same ..
    simp only [pushed, PerClass.get_set] at inside
    by_cases back : fragment = scene.actor.arena.handle index descriptor
    · have classed : descriptor.sizeClass = sizeClass := by
        split at inside
        · next same => exact same.symm
        · obtain ⟨other, _, _, rfl, classed, _⟩ := tended.fresh inside
          rw [← classed]
          exact (congrArg Fragment.sizeClass back).symm
      exact ⟨index, descriptor, has, back, classed, back ▸ written⟩
    · have old : IsFresh scene sizeClass fragment := by
        split at inside
        · next same =>
          subst same
          exact tended.fresh ((List.mem_cons.mp inside).resolve_left back)
        · exact tended.fresh inside
      refine old.congr (.refl _) ?_
      obtain ⟨other, next, found, rfl, _⟩ := old
      have differ : other ≠ index := by
        rintro rfl
        exact back (Option.some.inj (found.symm.trans has) ▸ rfl)
      refine (scene.memory.keeps_writeHeader _ _).read ?_
      simp only [Memory.apartFrom_cons, Memory.apartFrom_nil, and_true, Memory.Apart,
        Fragment.place, Arena.handle, Segment.placeAt]
      have before := @Arena.Stacked.apart _ _ tended.stacked _ _ _ _ found has
      have behind := @Arena.Stacked.apart _ _ tended.stacked _ _ _ _ has found
      simp only [Descriptor.stop] at before behind
      omega

theorem keeps_reserve {segment : Segment} {memory after : Memory} {length : Nat}
    (ends : (segment.reserve length memory).state? = some after) :
    memory.Keeps [(segment.place.shift 32, 8)] after := by
  by_cases fits : segment.cursor memory + length < 2 ^ 64 ∧
      segment.cursor memory + length ≤ segment.size
  · rw [Segment.reserve_fits fits] at ends
    obtain rfl := Option.some.inj ends
    exact memory.keeps_store SegmentField.cursor segment.place _
  · rw [Segment.reserve_refused fits] at ends
    obtain rfl := Option.some.inj ends
    exact .refl ..

theorem Tended.claim (tended : Tended growBatch scene) {length : Nat} {memory : Memory}
    (aligned : length % headerAlignment = 0)
    (ends : (scene.actor.arena.segment.reserve length scene.memory).state? = some memory) :
    Tended growBatch { scene with memory } := by
  refine ⟨tended.stacked.claim aligned ends, tended.batch, fun {sizeClass fragment} inside => ?_⟩
  have old := tended.fresh inside
  refine old.congr (.refl _) ?_
  obtain ⟨index, descriptor, has, rfl, _⟩ := old
  have above := @Arena.Stacked.above _ _ tended.stacked _ _ has
  simp only [arenaStart] at above
  refine (keeps_reserve ends).read ?_
  simp only [Memory.apartFrom_cons, Memory.apartFrom_nil, and_true, Memory.Apart, Fragment.place,
    Arena.handle, Segment.placeAt, Segment.place, Place.shift]
  omega

theorem tended_create {directory : String} {rank source : UInt32} {size : Nat}
    {removesFile : Bool} {world after : World} {made segment : Segment} {capacities : Capacities}
    (created : Segment.create directory rank size removesFile world = .done made after)
    (same : segment.SameFile made) (valid : capacities.validate = .ok ())
    (notices : List Notice) :
    Tended growBatch ⟨.ofArena ⟨segment, capacities, source, #[]⟩ growBatch, after.memory,
      notices⟩ := by
  have sound := Quarry.sound_start created
  have cursor : segment.cursor after.memory = arenaStart :=
    (same.cursor after.memory).trans sound.cursor
  have length : segment.size = made.size := same.size
  have none : ∀ {index descriptor},
      ¬(⟨segment, capacities, source, #[]⟩ : Arena).Has index descriptor :=
    fun has => by simp [Arena.Has] at has
  refine ⟨?_, rfl, fun {sizeClass fragment} inside => ?_⟩
  · exact
      { small := by
          show segment.size ≤ maxSegmentSize
          rw [length]
          exact sound.small
        allowed := Capacities.le_maxCapacity valid
        cursorAligned := by
          show segment.cursor after.memory % headerAlignment = 0
          rw [cursor]
          rfl
        cursorAbove := Nat.le_of_eq cursor.symm
        cursorBelow := by
          show segment.cursor after.memory ≤ segment.size
          rw [cursor, length]
          exact sound.below
        aligned := fun has => absurd has none
        above := fun has => absurd has none
        below := fun has => absurd has none
        apart := fun has => absurd has none
        capacity := fun has => absurd has none }
  · rw [ofArena, PerClass.get_const] at inside
    exact absurd inside List.not_mem_nil

/-- Every pool that comes about is tended. -/
theorem Kept.tended (kept : Kept growBatch scene) : Tended growBatch scene := by
  induction kept with
  | create created same founded =>
      obtain ⟨valid, rfl⟩ := Arena.ofSegment_ok founded
      exact tended_create created same valid _
  | get _ ends ih => exact ((ih.get_meets _).mono fun _ _ both => both.1).post_of_state ends
  | getFallback _ ends ih => exact (ih.getFallback_meets _).post_of_state ends
  | put _ ends ih => exact ih.regain ((put_meets ..).post_of_state ends)
  | recycle _ ends ih => exact ih.regain ((recycle_meets ..).post_of_state ends)
  | claim _ aligned ends ih => exact ih.claim aligned ends
  | overwrite _ cursor headers ih =>
      exact ⟨Arena.Stacked.congr ih.stacked cursor, ih.batch,
        fun inside => (ih.fresh inside).congr (.refl _) (headers _ _ inside)⟩

/-- **Growing in batches.** Take any pool that has come about on a segment, however many slots it is
to carve at once.

* If it has unused slots of a class, the one that came last is handed out, and nothing else changes.
* If it has none, but there is room for some, it carves as many as it is to, or as there is room
  for, one index behind the other. The first one is handed out, and the others are unused, the last
  one on top.
* If there is no room either, nothing changes, and the class is exhausted. Nothing else goes wrong.

What is handed out has the class that was asked for, the capacity of that class, no payload, no
successor and no flag. If any of several classes will do, it comes from the first of them that has a
slot or room for one, and those before it are left alone. If there is none, nothing changes, and the
last one is said to be exhausted. -/
theorem Kept.grows_in_batches (kept : Kept growBatch scene) :
    (∀ sizeClass,
      (∀ fragment rest, scene.actor.free.get sizeClass = fragment :: rest →
        Pool.get sizeClass scene = .done fragment (popped scene sizeClass rest)) ∧
      (scene.actor.free.get sizeClass = [] → 0 < available scene sizeClass →
        ∃ fragment after, Pool.get sizeClass scene = .done fragment after ∧
          Restocks scene sizeClass (min (max growBatch 1) (available scene sizeClass)) fragment
            after) ∧
      (scene.actor.free.get sizeClass = [] → available scene sizeClass = 0 →
        ∃ notice, Pool.get sizeClass scene =
          .failed (.exhausted sizeClass) { scene with notices := scene.notices ++ [notice] }) ∧
      (Pool.get sizeClass scene).Meets False fun result after =>
        match result with
        | .ok fragment => fragment.sizeClass = sizeClass ∧
            fragment.capacity = scene.actor.arena.capacities.capacity sizeClass ∧
            fragment.length after.memory = 0 ∧ (fragment.header after.memory).next = .free ∧
            (fragment.header after.memory).flags = 0
        | .error fault => fault = .exhausted sizeClass) ∧
    ∀ classes,
      (∃ notices, Pool.getFallback classes scene =
        match classes.find? (serves scene) with
        | some sizeClass => Pool.get sizeClass { scene with notices }
        | none => .failed ((classes.getLast?.map Fault.exhausted).getD (.refused .noClass))
            { scene with notices }) ∧
      ((∃ fragment after, Pool.getFallback classes scene = .done fragment after) ↔
        ∃ sizeClass ∈ classes,
          scene.actor.free.get sizeClass ≠ [] ∨ 0 < available scene sizeClass) := by
  have tended := kept.tended
  have apt := tended.stacked.isApt
  refine ⟨fun sizeClass => ⟨fun fragment rest unused => get_of_unused unused,
    fun unused room => ?_, fun unused none => apt.get_of_none unused none, ?_⟩,
    fun classes => ⟨apt.getFirst_eq _ classes, apt.getFallback_done_iff⟩⟩
  · obtain ⟨fragment, after, taken, restocks⟩ := apt.get_of_room unused room
    rw [tended.batch, Nat.max_eq_left (Nat.le_max_right ..)] at restocks
    exact ⟨fragment, after, taken, restocks⟩
  · refine ((tended.get_meets sizeClass).both (apt.get_meets sizeClass)).mono ?_
    rintro (fault | fragment) after ⟨⟨still, fresh⟩, taken⟩
    · exact taken.1
    · have capacities : after.actor.arena.capacities = scene.actor.arena.capacities := by
        rcases taken with ⟨rest, _, rfl⟩ | ⟨_, restocks⟩
        · rfl
        · have arena : after.actor.arena = _ := restocks.carves.actor
          rw [arena]
          rfl
      have looks := (fresh fragment rfl).looks still.stacked
      rw [capacities] at looks
      exact looks

theorem small_kept (found : small = some scene) : Kept 2 scene := by
  rw [small] at found
  split at found
  · next created =>
    split at found
    · next founded => exact .get (.create created (.refl _) founded) found
    · cases found
  · cases found

/-- There is room for seven more slots of a class, and two of them are carved. -/
theorem grows_in_batches_small : ∃ scene fragment after, small = some scene ∧
    Kept 2 scene ∧ available scene .eager = 7 ∧
    Pool.get .eager scene = .done fragment after ∧ Restocks scene .eager 2 fragment after := by
  have empty : small.map (fun scene => (scene.actor.free.get .eager, available scene .eager)) =
      some ([], 7) := by decide +kernel
  obtain ⟨scene, found, same⟩ := Option.map_eq_some_iff.mp empty
  obtain ⟨unused, seven⟩ := Prod.mk.inj same
  have kept := small_kept found
  obtain ⟨fragment, after, taken, restocks⟩ :=
    (kept.grows_in_batches.1 .eager).2.1 unused (by omega)
  rw [seven] at restocks
  exact ⟨scene, fragment, after, found, kept, seven, taken, restocks⟩

end Pool

end RankMail
