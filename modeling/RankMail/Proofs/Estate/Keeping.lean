import RankMail.Holdings
import RankMail.Proofs.Estate.Founding

set_option autoImplicit false

/-! # What is held fits the ground

`Ground.Houses` says that the ground describes the world, and that whatever is held fits the ground:
what an arena, a pool, a node, a fragment or a message needs is mapped and has been carved. The
lemmas lead from what a thing does by itself to what it does as one of many that are held.
-/

namespace RankMail

open Segment

/-! ## Names -/

namespace Named

variable {α : Type} {held : Named α} {name : String} {value thing : α}

theorem mem_of_find? (found : held.find? name = some thing) : thing ∈ held.values := by
  obtain ⟨before, after, rfl, _⟩ := List.lookup_eq_some_iff.mp found
  simp [values]

theorem values_without (held : Named α) (name : String) :
    (held.without name).values ⊆ held.values :=
  List.map_subset _ (List.filter_subset_self _)

theorem forall_put {Good : α → Prop} (all : ∀ thing ∈ held.values, Good thing) (good : Good value) :
    ∀ thing ∈ (held.put name value).values, Good thing :=
  List.forall_mem_cons.mpr ⟨good, fun thing inside => all thing (held.values_without name inside)⟩

end Named

theorem Holdings.mem_heldSegments {holdings : Holdings} {segment : Segment} :
    segment ∈ holdings.heldSegments ↔ segment ∈ holdings.segments.values ∨
      (∃ arena ∈ holdings.arenas.values, arena.segment = segment) ∨
      (∃ pool ∈ holdings.pools.values, segment ∈ pool.segments) ∨
      (∃ node ∈ holdings.nodes.values, segment ∈ node.segments) ∨
      (∃ fragment ∈ holdings.fragments.values, fragment.segment = segment) ∨
      (∃ message ∈ holdings.messages.values, message.segment = segment) := by
  simp only [heldSegments, List.mem_append, List.mem_map, List.mem_flatMap, or_assoc]

namespace Ground

variable {Actor Value Result : Type} {directory : String} {ground more : Ground} {world : World}
  {holdings : Holdings} {memory : Memory} {Gives : Ground → Value → Prop}
  {Fits : Ground → Actor → Prop}

/-- Regions that are in memory now will be in memory. -/
def leveled (ground : Ground) (memory : Memory) : Ground := { ground with floor := memory.fresh }

theorem Sound.extends_leveled (sound : ground.Sound memory) :
    ground.Extends (ground.leveled memory) := ⟨rfl, fun _ => id, sound.floor⟩

theorem Sound.level (sound : ground.Sound memory) : (ground.leveled memory).Sound memory :=
  { sound with
    floor := Nat.le_refl _
    queued := fun queued => (sound.queued (queued.mono fun here => here)).mono (fun _ => id)
      (fun _ => id) id }

/-- After what an actor has done, the world is described as it was. -/
theorem Describes.worked (describes : ground.Describes directory world)
    (ext : (ground.leveled world.memory).Extends more) (sound : more.Sound memory)
    (notices : List Notice) : more.Describes directory { world with memory, notices } where
  sound := sound
  filed :=
    { proper := describes.filed.proper.mono (Nat.le_trans ext.floor sound.floor)
      filed := by
        rw [ext.current]
        exact describes.filed.filed
      drafts := by
        rw [ext.made]
        exact describes.filed.drafts }
  mapped := ext.mapped.trans describes.mapped
  laid := describes.laid
  paths := describes.paths

/-! ## Everything that is held -/

/-- What is held fits the ground. -/
structure Suits (directory : String) (ground : Ground) (holdings : Holdings) : Prop where
  segments : ∀ segment ∈ holdings.segments.values, segment ∈ ground.mapped
  arenas : ∀ arena ∈ holdings.arenas.values, ground.FitsArena arena
  pools : ∀ pool ∈ holdings.pools.values, ground.FitsPool pool
  nodes : ∀ node ∈ holdings.nodes.values, ground.FitsNode directory node
  fragments : ∀ fragment ∈ holdings.fragments.values, ground.Holds fragment
  messages : ∀ message ∈ holdings.messages.values, ground.Brings message

/-- While nothing that is held loses its segment, it fits. -/
theorem Suits.retain (suits : ground.Suits directory holdings)
    (retains : Retains holdings.heldSegments ground more) : more.Suits directory holdings := by
  have keep : ∀ {segments : List Segment}, (∀ segment ∈ segments, segment ∈ holdings.heldSegments) →
      Retains segments ground more := fun subset => retains.subset fun _ => subset _
  simp only [Holdings.mem_heldSegments] at keep
  have single : ∀ {one segment : Segment}, segment ∈ [one] → one = segment :=
    fun inside => (List.mem_singleton.mp inside).symm
  exact
    { segments := fun segment inside => (keep fun _ here => .inl here).mapped segment inside
        (suits.segments segment inside)
      arenas := fun arena inside => (suits.arenas arena inside).retain <| keep fun _ here =>
        .inr (.inl ⟨arena, inside, single here⟩)
      pools := fun pool inside => (suits.pools pool inside).retain <| keep fun _ here =>
        .inr (.inr (.inl ⟨pool, inside, here⟩))
      nodes := fun node inside => (suits.nodes node inside).retain <| keep fun _ here =>
        .inr (.inr (.inr (.inl ⟨node, inside, here⟩)))
      fragments := fun fragment inside => (suits.fragments fragment inside).retain <|
        keep fun _ here => .inr (.inr (.inr (.inr (.inl ⟨fragment, inside, single here⟩))))
      messages := fun message inside => (suits.messages message inside).retain <|
        keep fun _ here => .inr (.inr (.inr (.inr (.inr ⟨message, inside, single here⟩)))) }

/-- The ground describes the world, and what is held fits it. -/
structure Houses (directory : String) (ground : Ground) (holdings : Holdings) : Prop where
  describes : ground.Describes directory holdings.world
  suits : ground.Suits directory holdings

/-- After what an actor has done, everything that is held fits as it did. -/
theorem Houses.worked (houses : ground.Houses directory holdings)
    (ext : (ground.leveled holdings.world.memory).Extends more) (sound : more.Sound memory)
    (notices : List Notice) : more.Houses directory
      { holdings with world := { holdings.world with memory, notices } } where
  describes := houses.describes.worked ext sound notices
  suits :=
    { houses.suits.retain
        (Extends.retains (houses.describes.sound.extends_leveled.trans ext) _) with }

/-! ## What is done -/

theorem Houses.inMemory_comes (houses : ground.Houses directory holdings)
    {action : Action Memory Value}
    (meets : (action holdings.world.memory).Meets True fun result after =>
      (ground.leveled holdings.world.memory).Sound after ∧
        ∀ value, result = .ok value → Gives (ground.leveled holdings.world.memory) value) :
    ground.Comes (Houses directory) Gives (Holdings.inMemory action holdings) := by
  refine Outcome.meets_mapState.mpr (Outcome.meets_mapState.mpr (meets.mono ?_))
  rintro result after ⟨sound, gives⟩
  exact ⟨_, houses.describes.sound.extends_leveled, houses.worked (.refl _) sound _, gives⟩

theorem Houses.work_comes (houses : ground.Houses directory holdings)
    {action : Action Memory Value}
    (meets : (action holdings.world.memory).Meets True fun _ after =>
      (ground.leveled holdings.world.memory).Sound after) :
    ground.Comes (Houses directory) Anything (Holdings.inMemory action holdings) :=
  houses.inMemory_comes (meets.mono fun _ _ sound => ⟨sound, fun _ _ => trivial⟩)

theorem Houses.act_comes (houses : ground.Houses directory holdings) {actor : Actor}
    {keep : Actor → Holdings → Holdings} {action : Action (Scene Actor) Value}
    (fits : ∀ {more : Ground}, ground.Extends more → Fits more actor)
    (leads : ∀ {more : Ground} {scene : Scene Actor}, ground.Extends more → more.Bears Fits scene →
      more.Leads Fits Gives (action scene))
    (keeps : ∀ {more : Ground} {held : Holdings} {changed : Actor}, more.Houses directory held →
      Fits more changed → more.Houses directory (keep changed held)) :
    ground.Comes (Houses directory) Gives (Holdings.act actor keep action holdings) := by
  have level := houses.describes.sound.extends_leveled
  refine Outcome.meets_mapState.mpr (Outcome.Meets.mono (leads level
    ⟨houses.describes.sound.level, fits level⟩) ?_)
  rintro result scene ⟨more, ext, bears, gives⟩
  exact ⟨more, level.trans ext, keeps (houses.worked ext bears.sound scene.notices) bears.fits,
    gives⟩

theorem Houses.asArena_comes (houses : ground.Houses directory holdings) (name : String)
    {arena : Arena} (fits : ground.FitsArena arena) {action : Action (Scene Arena) Value}
    (leads : ∀ {more : Ground} {scene : Scene Arena}, ground.Extends more →
      more.Bears FitsArena scene → more.Leads FitsArena Gives (action scene)) :
    ground.Comes (Houses directory) Gives (Holdings.asArena name arena action holdings) :=
  houses.act_comes (fun ext => fits.retain (ext.retains _)) leads fun houses fits =>
    ⟨houses.describes, { houses.suits with arenas := Named.forall_put houses.suits.arenas fits }⟩

theorem Houses.asPool_comes (houses : ground.Houses directory holdings) (name : String)
    {pool : Pool} (fits : ground.FitsPool pool) {action : Action (Scene Pool) Value}
    (leads : ∀ {more : Ground} {scene : Scene Pool}, ground.Extends more →
      more.Bears FitsPool scene → more.Leads FitsPool Gives (action scene)) :
    ground.Comes (Houses directory) Gives (Holdings.asPool name pool action holdings) :=
  houses.act_comes (fun ext => fits.retain (ext.retains _)) leads fun houses fits =>
    ⟨houses.describes, { houses.suits with pools := Named.forall_put houses.suits.pools fits }⟩

theorem Houses.asNode_comes (houses : ground.Houses directory holdings) (name : String)
    {node : Node} (fits : ground.FitsNode directory node) {action : Action (Scene Node) Value}
    (leads : ∀ {more : Ground} {scene : Scene Node}, ground.Extends more →
      more.Bears (FitsNode directory) scene →
      more.Leads (FitsNode directory) Gives (action scene)) :
    ground.Comes (Houses directory) Gives (Holdings.asNode name node action holdings) :=
  houses.act_comes (fun ext => fits.retain (ext.retains _)) leads fun houses fits =>
    ⟨houses.describes, { houses.suits with nodes := Named.forall_put houses.suits.nodes fits }⟩

/-! ## What is kept and what is given away -/

theorem keepFragment_comes {action : Action Holdings Fragment} (name : Option String)
    (comes : ground.Comes (Houses directory) Holds (action holdings)) :
    ground.Comes (Houses directory) Anything (Holdings.keepFragment name action holdings) := by
  refine comes_bind comes fun ext houses holds => ?_
  cases name with
  | none => exact comes_done houses trivial
  | some name =>
      refine comes_done ⟨houses.describes, ?_⟩ trivial
      exact { houses.suits with fragments := Named.forall_put houses.suits.fragments holds }

theorem keepMessage_comes {action : Action Holdings (Option Message)} (name : Option String)
    (comes : ground.Comes (Houses directory)
      (fun more found => ∀ message, found = some message → more.Brings message)
      (action holdings)) :
    ground.Comes (Houses directory) Anything (Holdings.keepMessage name action holdings) := by
  refine comes_bind comes fun {more found after} ext houses brings => ?_
  match name, found with
  | none, _ => exact comes_done houses trivial
  | some name, none => exact comes_done houses trivial
  | some name, some message =>
      refine comes_done ⟨houses.describes, ?_⟩ trivial
      exact { houses.suits with
        messages := Named.forall_put houses.suits.messages (brings message rfl) }

theorem Comes.letGo {action : Action Holdings Value} {change : Holdings → Holdings}
    (comes : ground.Comes (Houses directory) Gives (action holdings))
    (keeps : ∀ {more : Ground} {held : Holdings}, more.Houses directory held →
      more.Houses directory (change held)) :
    ground.Comes (Houses directory) Gives ((action holdings).mapState change) :=
  Outcome.meets_mapState.mpr (Outcome.Meets.mono comes
    fun _ _ ⟨more, ext, houses, gives⟩ => ⟨more, ext, keeps houses, gives⟩)

theorem spendFragment_comes {action : Action Holdings Unit} (name : String)
    (comes : ground.Comes (Houses directory) Anything (action holdings)) :
    ground.Comes (Houses directory) Anything (Holdings.spendFragment name action holdings) :=
  comes.letGo fun houses => ⟨houses.describes, { houses.suits with
    fragments := fun fragment inside =>
      houses.suits.fragments fragment (Named.values_without _ name inside) }⟩

theorem spendMessage_comes {action : Action Holdings Unit} (name : String)
    (comes : ground.Comes (Houses directory) Anything (action holdings)) :
    ground.Comes (Houses directory) Anything (Holdings.spendMessage name action holdings) :=
  comes.letGo fun houses => ⟨houses.describes, { houses.suits with
    messages := fun message inside =>
      houses.suits.messages message (Named.values_without _ name inside) }⟩

/-- An arena that somebody makes has carved nothing yet. -/
theorem Houses.keepArena_comes (houses : ground.Houses directory holdings) (name : String)
    {segment : Segment} (mapped : segment ∈ ground.mapped) (capacities : Capacities)
    (rank : UInt32) :
    ground.Comes (Houses directory) Anything
      (Holdings.keepArena name (Arena.ofSegment segment capacities rank) holdings) := by
  rw [Arena.ofSegment]
  cases capacities.validate with
  | error fault => exact comes_failed houses fault
  | ok value =>
      refine comes_done ⟨houses.describes, ?_⟩ trivial
      exact { houses.suits with
        arenas := Named.forall_put houses.suits.arenas (fitsArena_new mapped capacities rank) }

theorem Houses.turnIntoPool_comes (houses : ground.Houses directory holdings) (name target : String)
    {arena : Arena} (fits : ground.FitsArena arena) (growBatch : Nat) :
    ground.Comes (Houses directory) Anything
      (Holdings.turnIntoPool name arena target growBatch holdings) := by
  refine comes_done ⟨houses.describes, ?_⟩ trivial
  exact { houses.suits with
    arenas := fun arena inside =>
      houses.suits.arenas arena (Named.values_without _ name inside)
    pools := Named.forall_put houses.suits.pools (fits.toPool growBatch) }

theorem Houses.drop_comes (houses : ground.Houses directory holdings) (name : String) :
    ground.Comes (Houses directory) Anything (Holdings.drop name holdings) := by
  refine comes_done ⟨houses.describes, ?_⟩ trivial
  have suits := houses.suits
  exact
    { segments := fun thing inside => suits.segments thing (Named.values_without _ name inside)
      arenas := fun thing inside => suits.arenas thing (Named.values_without _ name inside)
      pools := fun thing inside => suits.pools thing (Named.values_without _ name inside)
      nodes := fun thing inside => suits.nodes thing (Named.values_without _ name inside)
      fragments := fun thing inside => suits.fragments thing (Named.values_without _ name inside)
      messages := fun thing inside => suits.messages thing (Named.values_without _ name inside) }

/-! ## Making, attaching and closing -/

theorem Suits.remap (suits : ground.Suits directory holdings) {mapped : List Segment}
    (stay : ∀ segment ∈ holdings.heldSegments, segment ∈ ground.mapped → segment ∈ mapped) :
    Suits directory { ground with mapped } holdings :=
  suits.retain ⟨stay, fun _ => id⟩

/-- What is held fits when one more segment has been made. -/
theorem Suits.founded (suits : ground.Suits directory holdings) (plot : Plot) (segment : Segment) :
    (ground.founded plot segment).Suits directory holdings :=
  suits.retain ⟨fun _ _ => List.mem_cons_of_mem _, fun _ => id⟩

/-- Where a segment is made there is one more afterwards; if it cannot be made, there is not. -/
def Founds (directory : String) (ground : Ground) (rank : UInt32) (size : Nat) (world : World)
    (result : Except Fault Unit) (after : Holdings) : Prop :=
  match result with
  | .ok _ => ∃ segment : Segment, segment.rank = rank ∧ segment.size = size ∧
      after.world.segments = segment :: world.segments ∧ after.world.process = world.process ∧
      (ground.founded (segment.plot world.process) segment).Houses directory after
  | .error _ => ground.Houses directory after

theorem Houses.keepSegment_founds (houses : ground.Houses directory holdings) {rank : UInt32}
    (vacant : ground.Vacant holdings.world.memory rank) (name : String) (size : Nat)
    (removesFile : Bool) :
    (Holdings.keepSegment name (Segment.create directory rank size removesFile) holdings).Meets
      False (ground.Founds directory rank size holdings.world) := by
  refine Action.meets_bind (Action.meets_within.mpr (((houses.describes.create_founds vacant size
    removesFile).both (houses.describes.create_fails rank size removesFile)).mono ?_))
  rintro (fault | segment) after ⟨founds, fails⟩
  · exact ⟨fails fault rfl, { houses.suits with }⟩
  · obtain ⟨founded, rfl, rfl, _, segments, process⟩ := founds segment rfl
    refine ⟨segment, rfl, rfl, segments, process, founded, ?_⟩
    have suits := houses.suits.founded (segment.plot holdings.world.process) segment
    exact { suits with segments := Named.forall_put suits.segments List.mem_cons_self }

/-- Making a node of a segment that has just been made, which nothing needs that is held. -/
theorem Suits.keepNode_meets (suits : ground.Suits directory holdings) {segment : Segment}
    {plot : Plot} (founded : (ground.founded plot segment).Describes directory holdings.world)
    (new : segment ∉ ground.mapped) (name : String) (config : Config) :
    (Holdings.keepNode name (Node.ofSegment directory segment.rank config segment) holdings).Meets
      True fun _ after =>
        Houses directory { ground.founded plot segment with mapped := after.world.segments }
          after := by
  refine Action.meets_bind (Action.meets_within.mpr
    ((founded.ofSegment_meets List.mem_cons_self config).mono ?_))
  rintro (fault | node) after ends
  · obtain ⟨segments, closed⟩ := ends
    have stay : ∀ other ∈ ground.mapped, other ∈ after.segments := by
      intro other inside
      rw [segments, ← founded.mapped]
      refine List.mem_filter.mpr ⟨List.mem_cons_of_mem _ inside, ?_⟩
      rw [bne_iff_ne]
      rintro rfl
      exact new inside
    have retained : Suits directory { ground.founded plot segment with mapped := after.segments }
        holdings := suits.retain ⟨fun other _ inside => stay other inside, fun _ => id⟩
    exact ⟨closed, { retained with }⟩
  · obtain ⟨rfl, fits⟩ := ends
    show Houses directory { ground.founded plot segment with mapped := holdings.world.segments } _
    rw [← founded.mapped]
    have suits := suits.founded plot segment
    exact ⟨founded, { suits with nodes := Named.forall_put suits.nodes fits }⟩

theorem Houses.keepSegment_attaches (houses : ground.Houses directory holdings) (name : String)
    (rank : UInt32) :
    (Holdings.keepSegment name (Segment.attach directory rank) holdings).Meets False
      fun _ after => Houses directory { ground with mapped := after.world.segments } after := by
  refine Action.meets_bind (Action.meets_within.mpr
    ((houses.describes.attach_meets rank).mono ?_))
  rintro (fault | segment) after attached
  · subst attached
    rw [houses.describes.same]
    exact houses
  · obtain ⟨-, segments, described⟩ := attached
    have mapped : after.segments = segment :: ground.mapped :=
      segments.trans (congrArg _ houses.describes.mapped.symm)
    show Houses directory { ground with mapped := after.segments } _
    rw [mapped]
    have suits := houses.suits.remap fun _ _ => List.mem_cons_of_mem segment
    exact ⟨described, { suits with
      segments := Named.forall_put suits.segments List.mem_cons_self }⟩

theorem Houses.attachPeer_meets (houses : ground.Houses directory holdings) (name : String)
    {node : Node} (fits : ground.FitsNode directory node) (rank : UInt32) :
    (Holdings.asNodeInWorld name node (Node.attachPeer rank) holdings).Meets True
      fun _ after => Houses directory { ground with mapped := after.world.segments } after := by
  refine Action.meets_within.mpr ((houses.describes.attachPeer_meets fits rank).mono ?_)
  rintro result after ⟨more, described, fits⟩
  have suits := houses.suits.remap fun segment _ inside => more (houses.describes.mapped ▸ inside)
  exact ⟨described, { suits with nodes := Named.forall_put suits.nodes fits }⟩

theorem Houses.closeUnheld_meets (houses : ground.Houses directory holdings) :
    (Holdings.closeUnheld holdings).Meets False fun _ after =>
      Houses directory { ground with mapped := after.world.segments } after := by
  refine Action.meets_bind (Outcome.meets_done.mpr (Action.meets_within.mpr
    ((houses.describes.closeUnheld_meets _).mono ?_)))
  rintro result after ⟨rfl, described, -, stay⟩
  have suits := houses.suits.remap fun segment held inside =>
    stay segment (houses.describes.mapped ▸ inside) (List.mem_map_of_mem held)
  exact ⟨described, { suits with }⟩

theorem Houses.settled (houses : ground.Houses directory holdings) :
    Houses directory { ground with mapped := holdings.settled.world.segments }
      holdings.settled := by
  obtain ⟨after, ends⟩ := houses.closeUnheld_meets.state id
  rw [Holdings.settled, ends]
  exact houses.closeUnheld_meets.post_of_state ends

end Ground

end RankMail
