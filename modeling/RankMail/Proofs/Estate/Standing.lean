import RankMail.Proofs.Estate.Calls
import RankMail.Proofs.Estate.Keeping

set_option autoImplicit false

/-! # Every run keeps the ground

An estate is sound if some ground carries it. Most calls only carve: they lead from a ground to one
that extends it (`Carries.does_comes`). Those that make a segment, map one or end mappings change
the ground itself, and have a lemma each. `Sound.perform_meets` puts them together, call by call,
and `Reached.sound` is the induction over a run.
-/

namespace RankMail

open Segment

namespace World

variable {world : World} {directory : String} {rank : UInt32} {region : Nat} {segment : Segment}

theorem uses_of_mapped (inside : segment ∈ world.segments) : world.uses segment.rank = true := by
  simp only [uses, Bool.or_eq_true, List.any_eq_true]
  exact .inl ⟨segment, inside, beq_self_eq_true _⟩

theorem uses_of_found {above : List String}
    (found : world.disk.find? (above ++ [fileName rank]) = some (.file region)) :
    world.uses rank = true := by
  rw [Disk.find?, if_neg (by simp)] at found
  obtain ⟨before, after, same, _⟩ := List.lookup_eq_some_iff.mp found
  simp only [uses, same, Bool.or_eq_true, List.any_eq_true]
  exact .inr ⟨_, List.mem_append_right _ List.mem_cons_self, by simp⟩

end World

namespace Estate

variable {Value Thing : Type} {stuck : Prop} {estate : Estate}

theorem does_meets {action : Action Holdings Value} {post : Estate → Prop}
    (meets : (action estate.holdings).Meets stuck fun _ holdings => post { estate with holdings }) :
    (does action estate).Meets stuck fun _ => post := by
  refine Action.meets_bind (Action.meets_within.mpr (meets.mono ?_))
  rintro (fault | value) holdings holds
  · exact holds
  · exact holds

theorem given_meets {table : Holdings → Named Thing} {name : String}
    {action : Thing → Action Estate Unit} {post : Except Fault Unit → Estate → Prop}
    (nothing : post (.ok ()) estate)
    (meets : ∀ thing ∈ (table estate.holdings).values, (action thing estate).Meets stuck post) :
    (given table name action estate).Meets stuck post := by
  rw [given]
  split
  · next thing found => exact meets thing (Named.mem_of_find? found)
  · exact nothing

end Estate

/-- Calls that make a segment, map one or put another process to work. -/
def Call.movesGround : Call → Bool
  | .proceed .. | .create .. | .node .. | .attach .. | .attachPeer .. => true
  | _ => false

namespace Ground

variable {Value Thing : Type} {directory : String} {ground more : Ground} {estate : Estate}
  {holdings : Holdings} {offset : Offset} {rank : UInt32} {Gives : Ground → Value → Prop}

theorem Admits.extend (admits : ground.Admits offset) (ext : ground.Extends more) :
    more.Admits offset :=
  admits.mono (ext.made ▸ List.Subset.refl _) ext.parcels fun here => ext.current ▸ here

/-- The ground houses what is held, and agrees with the account of what has been made. -/
structure Carries (directory : String) (ground : Ground) (estate : Estate) : Prop where
  houses : ground.Houses directory estate.holdings
  made : ground.made = estate.made
  latest : ∀ {rank plot}, ground.current rank = some plot → estate.latest? rank = some plot
  taken : ∀ offset ∈ estate.taken, ground.Admits offset

/-- What a caller has in hand may be put into a queue. -/
theorem Carries.admits (carries : ground.Carries directory estate) (inHand : estate.InHand offset) :
    ground.Admits offset := by
  have sound := carries.houses.describes.sound
  cases inHand with
  | taken inside => exact carries.taken offset inside
  | @fragment entry inside =>
      have holds := carries.houses.suits.fragments entry.2 (List.mem_map_of_mem inside)
      refine sound.admits_slot holds.mapped rfl ⟨entry.2.capacity, ?_⟩
      rw [sound.position_toNat holds.mapped holds.carved]
      exact holds.carved
  | @message entry inside =>
      have brings := carries.houses.suits.messages entry.2 (List.mem_map_of_mem inside)
      exact sound.admits_slot brings.mapped brings.rank brings.carved

/-! ## Calls that only carve -/

/-- What is held has changed, and more has been carved. -/
theorem Carries.hold (carries : ground.Carries directory estate) (ext : ground.Extends more)
    (houses : more.Houses directory holdings) :
    more.Carries directory { estate with holdings } where
  houses := houses
  made := ext.made.trans carries.made
  latest := by
    rw [ext.current]
    exact carries.latest
  taken offset inside := (carries.taken offset inside).extend ext

theorem Carries.inHoldings_comes (carries : ground.Carries directory estate)
    {action : Action Holdings Value}
    (comes : ground.Comes (Houses directory) Gives (action estate.holdings)) :
    ground.Comes (Carries directory) Gives (Estate.inHoldings action estate) :=
  Outcome.meets_mapState.mpr (Outcome.Meets.mono comes
    fun _ _ ⟨more, ext, houses, gives⟩ => ⟨more, ext, carries.hold ext houses, gives⟩)

theorem Carries.does_comes (carries : ground.Carries directory estate)
    {action : Action Holdings Value}
    (comes : ground.Comes (Houses directory) Gives (action estate.holdings)) :
    ground.Comes (Carries directory) Anything (Estate.does action estate) :=
  comes_bind (carries.inHoldings_comes comes) fun _ carries _ => comes_done carries trivial

theorem Carries.given_comes (carries : ground.Carries directory estate)
    {table : Holdings → Named Thing} {name : String} {action : Thing → Action Estate Unit}
    (comes : ∀ thing ∈ (table estate.holdings).values,
      ground.Comes (Carries directory) Anything (action thing estate)) :
    ground.Comes (Carries directory) Anything (Estate.given table name action estate) :=
  Estate.given_meets ⟨ground, .refl ground, carries, fun _ _ => trivial⟩ comes

/-- Appending what one has in hand to a queue that a node knows. -/
theorem Carries.enqueue_comes (carries : ground.Carries directory estate) {node : Node}
    (fits : ground.FitsNode directory node) {target : Segment} (mapped : target ∈ ground.mapped)
    (inHand : estate.InHand offset) :
    ground.Comes (Houses directory) Anything
      (Holdings.inMemory ((target.queue node.addresses).enqueue offset) estate.holdings) := by
  have sound := carries.houses.describes.sound
  have fits := fits.retain (sound.extends_leveled.retains _)
  obtain ⟨plot, serves⟩ := sound.level.serves fits.knows mapped
  exact carries.houses.work_comes (sound.level.enqueue_meets serves
    ((carries.admits inHand).extend sound.extends_leveled))

/-- Taking from a queue that a node knows. -/
theorem Houses.dequeue_comes (houses : ground.Houses directory holdings) {node : Node}
    (fits : ground.FitsNode directory node) {target : Segment} (mapped : target ∈ ground.mapped) :
    ground.Comes (Houses directory) (fun more found => ∀ offset, found = some offset →
        more.Admits offset)
      (Holdings.inMemory (target.queue node.addresses).dequeue holdings) := by
  have sound := houses.describes.sound
  have fits := fits.retain (sound.extends_leveled.retains _)
  obtain ⟨plot, serves⟩ := sound.level.serves fits.knows mapped
  refine houses.inMemory_comes ((sound.level.dequeue_meets serves).mono ?_)
  rintro result after ⟨sound, slots⟩
  exact ⟨sound, fun value same offset found => slots offset (found ▸ same)⟩

/-- What has been taken from a queue is the offset of a slot. -/
theorem Carries.remember (carries : ground.Carries directory estate) {found : Option Offset}
    (slots : ∀ offset, found = some offset → ground.Admits offset) :
    ground.Carries directory (Estate.remember found estate) where
  houses := carries.houses
  made := carries.made
  latest := carries.latest
  taken offset inside := by
    rcases List.mem_append.mp inside with inside | inside
    · exact slots offset (Option.mem_toList.mp inside)
    · exact carries.taken offset inside

/-! ## Calls that only carve, one by one -/

theorem Carries.given_does (carries : ground.Carries directory estate)
    {table : Holdings → Named Thing} {name : String} {action : Thing → Action Holdings Value}
    (comes : ∀ thing ∈ (table estate.holdings).values,
      ground.Comes (Houses directory) Gives (action thing estate.holdings)) :
    ground.Comes (Carries directory) Anything
      (Estate.given table name (fun thing => Estate.does (action thing)) estate) :=
  carries.given_comes fun thing inside => carries.does_comes (comes thing inside)

theorem Carries.fragment_comes (carries : ground.Carries directory estate) {name : String}
    {action : Fragment → Action Memory Value}
    (meets : ∀ {fragment}, (ground.leveled estate.holdings.world.memory).Holds fragment →
      (action fragment estate.holdings.world.memory).Meets True fun _ after =>
        (ground.leveled estate.holdings.world.memory).Sound after) :
    ground.Comes (Carries directory) Anything
      (Estate.given Holdings.fragments name
        (fun fragment => Estate.does (Holdings.inMemory (action fragment))) estate) :=
  carries.given_does fun fragment inside => carries.houses.work_comes <| meets <|
    (carries.houses.suits.fragments fragment inside).retain
      (carries.houses.describes.sound.extends_leveled.retains _)

/-- A call that does not move the ground at most carves. -/
theorem Carries.perform_comes (carries : ground.Carries directory estate) {call : Call}
    (allowed : call.Allowed estate) (stays : call.movesGround = false) :
    ground.Comes (Carries directory) Anything (call.perform directory estate) := by
  have houses := carries.houses
  have suits := houses.suits
  have level := houses.describes.sound.level
  cases call with
  | proceed | create | node | attach | attachPeer => cases stays
  | reserve place length =>
      refine carries.given_does fun segment inside => houses.work_comes ?_
      exact (level.reserve_meets (suits.segments segment inside) length).always
        fun _ _ done => done.1
  | ring place =>
      exact carries.given_does fun segment _ => houses.work_comes (level.ring_meets segment)
  | arena name place capacities rank =>
      exact carries.given_does fun segment inside =>
        houses.keepArena_comes name (suits.segments segment inside) capacities rank
  | carve actor sizeClass name =>
      exact carries.given_does fun arena inside => keepFragment_comes name
        (houses.asArena_comes actor (suits.arenas arena inside)
          fun _ bears => carve_leads bears sizeClass)
  | pool actor name growBatch =>
      exact carries.given_does fun arena inside =>
        houses.turnIntoPool_comes actor name (suits.arenas arena inside) growBatch
  | get actor sizeClass name =>
      exact carries.given_does fun pool inside => keepFragment_comes name
        (houses.asPool_comes actor (suits.pools pool inside)
          fun _ bears => get_leads bears sizeClass)
  | getFallback actor classes name =>
      exact carries.given_does fun pool inside => keepFragment_comes name
        (houses.asPool_comes actor (suits.pools pool inside)
          fun _ bears => getFirst_leads bears _ classes)
  | put actor thing =>
      exact carries.given_comes fun pool inside => carries.given_does fun fragment _ =>
        spendFragment_comes thing (houses.asPool_comes actor (suits.pools pool inside)
          fun _ bears => put_leads bears fragment)
  | write thing data => exact carries.fragment_comes fun holds => level.write_meets holds data
  | edit thing start data =>
      exact carries.fragment_comes fun holds => level.edit_meets holds start data
  | setLength thing length =>
      exact carries.fragment_comes fun holds => level.setLength_meets holds length
  | detachPeer actor rank =>
      exact carries.given_does fun node inside =>
        houses.asNode_comes actor (suits.nodes node inside)
          fun _ bears => detachPeer_leads bears rank
  | alloc actor sizeClass name =>
      exact carries.given_does fun node inside => keepFragment_comes name
        (houses.asNode_comes actor (suits.nodes node inside)
          fun _ bears => inPool_leads bears fun bears => get_leads bears sizeClass)
  | free actor thing =>
      exact carries.given_comes fun node inside => carries.given_does fun fragment _ =>
        spendFragment_comes thing (houses.asNode_comes actor (suits.nodes node inside)
          fun _ bears => inPool_leads bears fun bears => put_leads bears fragment)
  | send actor peer data =>
      exact carries.given_does fun node inside =>
        houses.asNode_comes actor (suits.nodes node inside)
          fun _ bears => send_leads bears peer data
  | writeToPeer actor peer thing =>
      exact carries.given_comes fun node inside => carries.given_does fun fragment there =>
        spendFragment_comes thing (houses.asNode_comes actor (suits.nodes node inside)
          fun ext bears => writeToPeer_leads bears peer
            ((suits.fragments fragment there).retain (ext.retains _)))
  | read actor name =>
      exact carries.given_does fun node inside => keepMessage_comes name
        (houses.asNode_comes actor (suits.nodes node inside)
          fun _ bears => readQueue_leads bears)
  | release actor thing =>
      exact carries.given_comes fun node inside => carries.given_does fun message there =>
        spendMessage_comes thing (houses.asNode_comes actor (suits.nodes node inside)
          fun ext bears => release_leads bears
            ((suits.messages message there).retain (ext.retains _)))
  | enqueue actor rank offset =>
      refine carries.given_comes fun node inside => ?_
      have fits := suits.nodes node inside
      cases found : node.segmentOf? rank with
      | none => exact comes_done carries trivial
      | some target =>
          exact carries.does_comes
            (carries.enqueue_comes fits (fits.segmentOf? found).1 allowed)
  | dequeue actor rank =>
      refine carries.given_comes fun node inside => ?_
      have fits := suits.nodes node inside
      cases found : node.segmentOf? rank with
      | none => exact comes_done carries trivial
      | some target =>
          exact comes_bind (carries.inHoldings_comes
            (houses.dequeue_comes fits (fits.segmentOf? found).1))
            fun _ carries slots => comes_done (carries.remember slots) trivial
  | drop name => exact carries.does_comes (houses.drop_comes name)

/-! ## Calls that make, map or close -/

theorem Carries.remap (carries : ground.Carries directory estate) {mapped : List Segment}
    (houses : Houses directory { ground with mapped } holdings) :
    Carries directory { ground with mapped } { estate with holdings } where
  houses := houses
  made := carries.made
  latest := carries.latest
  taken offset inside := { carries.taken offset inside with }

/-- A rank that is not in use need not have a segment. -/
def seen (ground : Ground) (world : World) : Ground :=
  { ground with
    current := fun rank => if world.uses rank = true then ground.current rank else none }

theorem seen_current {world : World} {plot : Plot}
    (here : (ground.seen world).current rank = some plot) :
    world.uses rank = true ∧ ground.current rank = some plot := by
  simp only [seen] at here
  split at here
  · next used => exact ⟨used, here⟩
  · cases here

theorem Carries.see (carries : ground.Carries directory estate) :
    (ground.seen estate.holdings.world).Carries directory estate := by
  have describes := carries.houses.describes
  have mapped : ∀ segment ∈ ground.mapped, estate.holdings.world.uses segment.rank = true :=
    fun _ inside => World.uses_of_mapped (describes.mapped ▸ inside)
  exact
    { houses :=
        { describes := { describes with
            sound := describes.sound.shrink (fun here => (seen_current here).2)
              fun segment inside => ⟨inside, if_pos (mapped segment inside)⟩
            filed := { describes.filed with
              filed := fun found => by
                obtain ⟨plot, here, same⟩ := describes.filed.filed found
                exact ⟨plot, (if_pos (World.uses_of_found found)).trans here, same⟩ } }
          suits := carries.houses.suits.retain ⟨fun _ _ => id, fun _ => id⟩ }
      made := carries.made
      latest := fun here => carries.latest (seen_current here).2
      taken := fun offset inside => (carries.taken offset inside).mono (fun _ => id) (fun _ => id)
        fun here => (seen_current here).2 }

/-- If a rank is vacant as far as can be seen, it is vacant. -/
theorem Carries.vacant (carries : ground.Carries directory estate) (vacant : estate.IsVacant rank) :
    (ground.seen estate.holdings.world).Vacant estate.memory rank := by
  rcases vacant with unmade | vacant
  · exact carries.see.houses.describes.sound.vacant (carries.made ▸ unmade)
  · refine ⟨fun segment inside => ?_, fun queued => vacant.unqueued (queued.mono fun here => ?_)⟩
    · have inside : segment ∈ ground.mapped := inside
      rw [carries.houses.describes.mapped] at inside
      exact vacant.unmapped segment inside
    · obtain ⟨used, here⟩ := seen_current here
      exact (if_pos used).trans (carries.latest here)

theorem Carries.record (carries : ground.Carries directory estate) {segment : Segment}
    (rest : List Segment) {process : UInt32}
    (segments : holdings.world.segments = segment :: rest)
    (named : holdings.world.process = process)
    (founded : (ground.founded (segment.plot process) segment).Houses directory holdings) :
    (ground.founded (segment.plot process) segment).Carries directory
      (Estate.record segment.rank segment.size { estate with holdings }) := by
  subst named
  have others : ∀ {rank}, rank ≠ segment.rank →
      (ground.founded (segment.plot holdings.world.process) segment).current rank =
        ground.current rank := fun differs => Function.update_of_ne differs ..
  rw [Estate.record]
  simp only [segments]
  exact
    { houses := founded
      made := congrArg _ carries.made
      latest := fun {rank plot} here => by
        rw [Estate.latest?, List.find?_cons]
        by_cases same : rank = segment.rank
        · subst same
          have new : (ground.founded (segment.plot holdings.world.process) segment).current
              segment.rank = _ := Function.update_self ..
          rw [new] at here
          simpa [Segment.plot] using here
        · rw [others same] at here
          rw [beq_eq_false_iff_ne.mpr (Ne.symm same)]
          exact carries.latest here
      taken := fun offset inside => by
        obtain ⟨inside, differs⟩ := List.mem_filter.mp inside
        refine (carries.taken offset inside).mono (List.subset_cons_self ..) (fun _ => id) ?_
        rw [others (by simpa using differs)]
        exact id }

end Ground

namespace Estate

open Ground

variable {directory : String} {ground : Ground} {estate after : Estate}

/-- The estate stands on some ground. -/
def Sound (directory : String) (estate : Estate) : Prop :=
  ∃ ground : Ground, ground.Carries directory estate

/-- The ground on which nothing has been made. -/
def bare : Ground := ⟨[], fun _ => none, [], [], 0⟩

theorem bare_sound (memory : Memory) : bare.Sound memory where
  usable := by simp [bare]
  current here := nomatch here
  charted := by simp [bare]
  clear := by simp [bare]
  homes := by simp [bare]
  apart := by simp [bare]
  stands := by simp [bare]
  length := by simp [bare]
  known := by simp [bare]
  floor := Nat.zero_le _
  cursor := by simp [bare]
  below := by simp [bare]
  queued queued := by
    cases queued with
    | head here => cases here
    | tail here => cases here
    | link _ here => cases here

theorem Begins.sound (begins : estate.Begins directory) : estate.Sound directory := by
  obtain @⟨_, _, memory, disk, proper, free⟩ := begins
  have filed : bare.Filed directory disk memory.fresh :=
    { proper
      filed := fun found => absurd found (free _ _)
      drafts := fun _ _ inside => nomatch inside }
  have laid : Laid [] (16 * pageSize) :=
    { spread := fun inside => nomatch inside
      clear := fun inside => nomatch inside
      next := by decide }
  exact ⟨bare,
    { houses :=
        { describes := ⟨bare_sound _, filed, rfl, laid, fun _ inside => nomatch inside⟩
          suits := by constructor <;> exact fun _ inside => nomatch inside }
      made := rfl
      latest := fun here => nomatch here
      taken := fun _ inside => nomatch inside }⟩

/-- An estate is sound, and its account has everything in it that was in an earlier one. -/
structure Follows (directory : String) (estate after : Estate) : Prop where
  sound : after.Sound directory
  made : estate.made ⊆ after.made

theorem follows_of_carries (carries : ground.Carries directory estate) {other : Ground}
    (carriesToo : other.Carries directory after) (made : ground.made ⊆ other.made) :
    estate.Follows directory after :=
  ⟨⟨other, carriesToo⟩, carries.made ▸ carriesToo.made ▸ made⟩

theorem follows_of_comes (carries : ground.Carries directory estate)
    {outcome : Outcome Estate Unit} (comes : ground.Comes (Carries directory) Anything outcome) :
    outcome.Meets True fun _ => estate.Follows directory :=
  Outcome.Meets.mono comes fun _ _ ⟨_, ext, carriesToo, _⟩ =>
    follows_of_carries carries carriesToo (ext.made ▸ List.Subset.refl _)

theorem Sound.settled (sound : estate.Sound directory) : estate.settled.Sound directory := by
  obtain ⟨ground, carries⟩ := sound
  exact ⟨_, carries.remap carries.houses.settled⟩

theorem founds_follows (carries : ground.Carries directory estate) {rank : UInt32} {size : Nat}
    {stuck : Prop} {action : Action Holdings Unit}
    (meets : (action estate.holdings).Meets stuck
      (ground.Founds directory rank size estate.holdings.world)) :
    ((do inHoldings action; .modify (record rank size) : Action Estate Unit) estate).Meets stuck
      fun _ => estate.Follows directory := by
  refine Action.meets_bind (Action.meets_within.mpr (meets.mono ?_))
  rintro (fault | value) holdings founds
  · exact follows_of_carries carries (carries.hold (.refl ground) founds) (List.Subset.refl _)
  · obtain ⟨segment, rfl, rfl, segments, process, founded⟩ := founds
    exact follows_of_carries carries (carries.record _ segments process founded)
      (List.subset_cons_self ..)

/-- Whatever is called, the estate is sound afterwards, and what has been made stays on the
account. -/
theorem Sound.perform_meets (sound : estate.Sound directory) {call : Call}
    (allowed : call.Allowed estate) :
    (call.perform directory estate).Meets True fun _ => estate.Follows directory := by
  obtain ⟨ground, carries⟩ := sound
  have houses := carries.houses
  cases moves : call.movesGround with
  | false => exact follows_of_comes carries (carries.perform_comes allowed moves)
  | true =>
      cases call with
      | proceed process addresses =>
          refine follows_of_carries carries
            (carries.hold (.refl ground) ⟨?_, { houses.suits with }⟩) (List.Subset.refl _)
          exact houses.describes.congr rfl rfl rfl houses.describes.laid
      | create name rank size removesFile =>
          have seen := carries.see
          exact (founds_follows seen (seen.houses.keepSegment_founds (carries.vacant allowed) name
            size removesFile)).excuse False.elim
      | node name rank config =>
          have seen := carries.see
          have suits := seen.houses.suits
          refine Action.meets_bind (Action.meets_within.mpr (Action.meets_within.mpr
            ((seen.houses.describes.makeSegment_meets (carries.vacant allowed) config).always ?_)))
          rintro (fault | segment) made founds
          · exact follows_of_carries seen (seen.hold (.refl _) ⟨founds, { suits with }⟩)
              (List.Subset.refl _)
          · obtain ⟨founded, rfl, size, new, segments, process⟩ := founds
            have suits : Suits directory _ { estate.holdings with world := made } := { suits with }
            have recorded := seen.record _ segments process ⟨founded, suits.founded _ segment⟩
            rw [size] at recorded
            refine Action.meets_bind (Outcome.meets_done.mpr (Action.meets_within.mpr ?_))
            rw [holdings_record]
            refine (suits.keepNode_meets founded ?_ name config).mono fun _ after houses => ?_
            · rwa [seen.houses.describes.mapped]
            · exact follows_of_carries seen (recorded.remap houses) (List.subset_cons_self ..)
      | attach name rank =>
          exact (does_meets ((houses.keepSegment_attaches name rank).mono fun _ _ attached =>
            follows_of_carries carries (carries.remap attached) (List.Subset.refl _))).excuse
              False.elim
      | attachPeer actor rank =>
          refine given_meets (follows_of_carries carries carries (List.Subset.refl _))
            fun node inside => does_meets ?_
          exact (houses.attachPeer_meets actor (houses.suits.nodes node inside) rank).mono
            fun _ _ attached =>
              follows_of_carries carries (carries.remap attached) (List.Subset.refl _)
      | _ => cases moves

/-- Whatever the calls, an estate stays sound, and what has been made stays on the account. -/
theorem Runs.follows (runs : estate.Runs directory after) (sound : estate.Sound directory) :
    estate.Follows directory after := by
  induction runs with
  | refl => exact ⟨sound, List.Subset.refl _⟩
  | call runs allowed ends ih =>
      have next := (ih.sound.perform_meets allowed).post_of_state ends
      exact ⟨next.sound.settled, List.Subset.trans ih.made next.made⟩

theorem Reached.sound (reached : Reached directory estate) : estate.Sound directory := by
  obtain ⟨first, begins, runs⟩ := reached
  exact (runs.follows begins.sound).sound

end Estate

end RankMail
