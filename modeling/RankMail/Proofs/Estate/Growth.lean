import Mathlib.Logic.Function.Basic
import RankMail.Proofs.Estate.Ground

set_option autoImplicit false

/-! # How the ground changes hands

Segments are made and mapped, slots are carved from them, and what nobody uses any more is
forgotten:

    made and mapped (found, map) --> a range claimed (reserve) --> a slot carved (grow)
        --> mapped no longer, the file gone (shrink) --> perhaps made again (found)

Each of these keeps the ground sound. That a rank gets another segment asks for most: nothing of the
earlier one may be mapped, and no offset of the rank may be queued anywhere, because whoever came to
it would take it for one in the new segment.
-/

namespace RankMail

namespace Ground

variable {ground other : Ground} {before after memory : Memory} {rank : UInt32} {plot : Plot}
  {offset : Offset} {parcel : Parcel} {segment : Segment}

/-- What is queued stays queued when ranks have segments that had none. -/
theorem Queued.mono (queued : ground.Queued memory offset)
    (covers : ∀ {rank plot}, ground.current rank = some plot → other.current rank = some plot) :
    other.Queued memory offset :=
  queued.within (fun here => ⟨.head (covers here), .tail (covers here)⟩)
    fun within here => within.link (covers here)

/-! ## Carving -/

/-- More slots have been carved, and nothing else has changed; memory may have grown. -/
structure Extends (ground more : Ground) : Prop where
  same : more = { ground with parcels := more.parcels, floor := more.floor }
  parcels : ground.parcels ⊆ more.parcels
  floor : ground.floor ≤ more.floor

theorem Extends.refl (ground : Ground) : ground.Extends ground := ⟨rfl, fun _ => id, Nat.le_refl _⟩

theorem Extends.trans {more most : Ground} (one : ground.Extends more) (two : more.Extends most) :
    ground.Extends most where
  same := by
    rw [two.same, one.same]
  parcels := fun _ inside => two.parcels (one.parcels inside)
  floor := Nat.le_trans one.floor two.floor

theorem Extends.mapped {more : Ground} (ext : ground.Extends more) :
    more.mapped = ground.mapped := by
  rw [ext.same]

theorem Extends.current {more : Ground} (ext : ground.Extends more) :
    more.current = ground.current := by
  rw [ext.same]

theorem Extends.made {more : Ground} (ext : ground.Extends more) : more.made = ground.made := by
  rw [ext.same]

/-- Of some segments, those that were mapped are still mapped; and what was carved is carved. -/
structure Retains (segments : List Segment) (ground other : Ground) : Prop where
  mapped : ∀ segment ∈ segments, segment ∈ ground.mapped → segment ∈ other.mapped
  parcels : ground.parcels ⊆ other.parcels

theorem Extends.retains {more : Ground} (ext : ground.Extends more) (segments : List Segment) :
    Retains segments ground more :=
  ⟨fun _ _ inside => ext.mapped ▸ inside, ext.parcels⟩

theorem Retains.subset {segments fewer : List Segment} (retains : Retains segments ground other)
    (subset : fewer ⊆ segments) : Retains fewer ground other :=
  ⟨fun segment inside => retains.mapped segment (subset inside), retains.parcels⟩

/-- The ground with one more slot. -/
def grown (ground : Ground) (parcel : Parcel) : Ground :=
  { ground with parcels := parcel :: ground.parcels }

theorem extends_grown (ground : Ground) (parcel : Parcel) : ground.Extends (ground.grown parcel) :=
  ⟨rfl, List.subset_cons_self .., Nat.le_refl _⟩

/-- What may be carved: a range behind the control words that has been claimed and in which nothing
has been carved. -/
structure IsClaimed (ground : Ground) (memory : Memory) (segment : Segment) (start length : Nat) :
    Prop where
  above : arenaStart ≤ start
  below : start + length ≤ segment.cursor memory
  free : ∀ parcel ∈ ground.parcels, parcel.region = segment.file.region → parcel.stop ≤ start

theorem Proper.plot_of_mapped (proper : ground.Proper) (mapped : segment ∈ ground.mapped) :
    ∃ plot ∈ ground.made, ground.current segment.rank = some plot ∧ plot.rank = segment.rank ∧
      segment.place = plot.place ∧ segment.size = plot.size := by
  obtain ⟨plot, here, region, size⟩ := proper.charted segment mapped
  obtain ⟨made, rank⟩ := proper.current here
  refine ⟨plot, made, here, rank, ?_, size⟩
  rw [Segment.place, region]
  rfl

/-- While the knots are as they were, nothing else is queued. -/
theorem Sound.queued_before (sound : ground.Sound before)
    (knots : ∀ {place}, ground.IsKnot place → after.offsetAt place = before.offsetAt place)
    (queued : ground.Queued after offset) : ground.Queued before offset := by
  refine queued.within (fun here => ?_) fun {offset plot} within here => ?_
  · rw [knots (.head here), knots (.tail here)]
    exact ⟨.head here, .tail here⟩
  · obtain ⟨capacity, carved⟩ := (sound.queued within).slot _ here
    have same : after.offsetAt ⟨plot.region, offset.position.toNat⟩ = _ := knots (.link carved)
    rw [same]
    exact .link within here

/-- All cursors are as they were but that of the file, which has moved on. -/
theorem cursor_advance (segment : Segment) (memory : Memory) {stop : Nat} (small : stop < 2 ^ 64)
    (number : Nat) :
    (memory.store SegmentField.cursor segment.place stop).load SegmentField.cursor ⟨number, 0⟩ =
      if number = segment.file.region then stop
      else memory.load SegmentField.cursor ⟨number, 0⟩ := by
  split
  · next same => exact same ▸ segment.cursor_store memory small
  · next differs =>
      have apart : Memory.Apart (Place.shift ⟨number, 0⟩ SegmentField.cursor.distance)
          SegmentField.cursor.width (segment.place.shift SegmentField.cursor.distance)
          SegmentField.cursor.width := fun same => absurd same differs
      exact Memory.load_store_apart apart memory _

theorem Sound.advance (sound : ground.Sound memory) (mapped : segment ∈ ground.mapped)
    {stop : Nat} (small : stop < 2 ^ 64) (forward : segment.cursor memory ≤ stop)
    (fits : stop ≤ segment.size) :
    ground.Sound (memory.store SegmentField.cursor segment.place stop) := by
  obtain ⟨plot, made, _, _, place, size⟩ := sound.plot_of_mapped mapped
  have region : segment.file.region = plot.region := congrArg Place.region place
  have keeps := memory.keeps_store SegmentField.cursor segment.place stop
  have apart : ∀ {field : Field} {number : Nat}, field.Apart SegmentField.cursor →
      (memory.store SegmentField.cursor segment.place stop).load field ⟨number, 0⟩ =
        memory.load field ⟨number, 0⟩ := by
    intro field number split
    refine Memory.load_store_apart (fun _ => ?_) memory _
    simp only [Field.Apart] at split
    simp only [Place.shift, Segment.place]
    omega
  have knots : ∀ {place}, ground.IsKnot place →
      (memory.store SegmentField.cursor segment.place stop).offsetAt place =
        memory.offsetAt place := by
    intro place knot
    refine keeps.offsetAt ?_
    simp only [Memory.apartFrom_cons, Memory.apartFrom_nil, and_true]
    intro _
    refine .inr (Nat.le_trans (by decide : 0 + 32 + 8 ≤ Memory.wordsEnd) ?_)
    exact sound.knot_behind knot
  exact
    { toProper := sound.toProper
      stands := fun plot inside => (sound.stands plot inside).congr fun field member =>
        apart (by revert member; decide +revert)
      length := fun plot inside => (keeps.size _).trans (sound.length plot inside)
      known := fun plot inside => Nat.lt_of_lt_of_le (sound.known plot inside) keeps.fresh
      floor := Nat.le_trans sound.floor keeps.fresh
      cursor := by
        intro other inside
        rw [Plot.place, cursor_advance _ _ small]
        split
        · next same =>
            -- Whatever else has been made in the same file has its length.
            have sizes : other.size = segment.size := by
              rw [← sound.length other inside, same, region, sound.length plot made, size]
            have above := (sound.cursor plot made).1
            rw [← place] at above
            exact ⟨Nat.le_trans above forward, sizes ▸ fits⟩
        · exact sound.cursor other inside
      below := by
        intro parcel carved
        have was := sound.below parcel carved
        rw [cursor_advance _ _ small]
        split
        · next same =>
            rw [same] at was
            exact Nat.le_trans was forward
        · exact was
      queued := fun queued => sound.queued (sound.queued_before knots queued) }

theorem Sound.reserve_meets (sound : ground.Sound memory) (mapped : segment ∈ ground.mapped)
    (length : Nat) :
    (segment.reserve length memory).Meets False fun result after => ground.Sound after ∧
      ∀ start, result = .ok (some start) → ground.IsClaimed after segment start length := by
  by_cases fits : segment.cursor memory + length < 2 ^ 64 ∧
      segment.cursor memory + length ≤ segment.size
  · rw [Segment.reserve_fits fits]
    refine ⟨sound.advance mapped fits.1 (Nat.le_add_right ..) fits.2, fun start same => ?_⟩
    obtain rfl : segment.cursor memory = start := Option.some.inj (Except.ok.inj same)
    obtain ⟨plot, made, _, _, place, _⟩ := sound.plot_of_mapped mapped
    refine ⟨?_, Nat.le_of_eq (segment.cursor_store memory fits.1).symm,
      fun parcel carved same => ?_⟩
    · rw [Segment.cursor, place]
      exact (sound.cursor plot made).1
    · have below := sound.below parcel carved
      rwa [same] at below
  · rw [Segment.reserve_refused fits]
    exact ⟨sound, fun start same => by cases same⟩

theorem Sound.grow (sound : ground.Sound memory) (mapped : segment ∈ ground.mapped)
    {start length capacity : Nat} (claimed : ground.IsClaimed memory segment start length)
    (fits : headerSize + capacity ≤ length) :
    (ground.grown ⟨segment.file.region, start, capacity⟩).Sound memory := by
  obtain ⟨plot, made, _, _, place, _⟩ := sound.plot_of_mapped mapped
  have behind : ∀ parcel ∈ ground.parcels,
      parcel.Apart ⟨segment.file.region, start, capacity⟩ :=
    fun parcel carved same => .inl (claimed.free parcel carved same)
  have below := claimed.below
  exact
    { sound with
      homes := List.forall_mem_cons.mpr
        ⟨⟨claimed.above, plot, made, (congrArg Place.region place).symm⟩, sound.homes⟩
      apart := List.forall_mem_cons.mpr
        ⟨List.forall_mem_cons.mpr ⟨.inl rfl, fun parcel carved => .inr (behind parcel carved).symm⟩,
          fun parcel carved => List.forall_mem_cons.mpr
            ⟨.inr (behind parcel carved), sound.apart parcel carved⟩⟩
      below := List.forall_mem_cons.mpr ⟨by
        have here : memory.load SegmentField.cursor ⟨segment.file.region, 0⟩ =
          segment.cursor memory := rfl
        simp only [Parcel.stop, here]
        omega, sound.below⟩
      queued := fun queued => (sound.queued (queued.mono fun here => here)).mono (fun _ => id)
        (List.subset_cons_self ..) fun here => here }

/-! ## Mapping and making -/

/-- Some mappings have ended, and some ranks have no segment any more. -/
theorem Sound.shrink (sound : ground.Sound memory) {current : UInt32 → Option Plot}
    {mapped : List Segment} (fewer : ∀ {rank plot}, current rank = some plot →
      ground.current rank = some plot)
    (still : ∀ segment ∈ mapped, segment ∈ ground.mapped ∧
      current segment.rank = ground.current segment.rank) :
    Sound { ground with current, mapped } memory :=
  { sound with
    current := fun here => sound.current (fewer here)
    charted := fun segment inside => by
      obtain ⟨before, same⟩ := still segment inside
      show ∃ plot, current segment.rank = some plot ∧ _
      rw [same]
      exact sound.charted segment before
    clear := fun one first two second =>
      sound.clear one (still one first).1 two (still two second).1
    queued := fun queued => (sound.queued (queued.mono fewer)).mono (fun _ => id) (fun _ => id)
      fewer }

theorem Sound.map (sound : ground.Sound memory) (here : ground.current segment.rank = some plot)
    (region : segment.file.region = plot.region) (size : segment.size = plot.size)
    (clear : ∀ other ∈ ground.mapped, other.Clear segment) :
    Sound { ground with mapped := segment :: ground.mapped } memory :=
  { sound with
    charted := List.forall_mem_cons.mpr ⟨⟨plot, here, region, size⟩, sound.charted⟩
    clear := List.forall_mem_cons.mpr
      ⟨List.forall_mem_cons.mpr ⟨.inl rfl, fun other inside => .inr (clear other inside).symm⟩,
        fun other inside => List.forall_mem_cons.mpr
          ⟨.inr (clear other inside), sound.clear other inside⟩⟩
    queued := fun queued => (sound.queued (queued.mono fun here => here)).mono (fun _ => id)
      (fun _ => id) fun here => here }

/-- While a file is written in which nothing has been made, the knots are as they were. -/
theorem Sound.knots_aside (sound : ground.Sound before) {region : Nat}
    (only : before.Only region after) (unmade : ∀ plot ∈ ground.made, plot.region ≠ region)
    {place : Place} (knot : ground.IsKnot place) :
    after.offsetAt place = before.offsetAt place := by
  obtain ⟨plot, made, same⟩ := sound.knot_made knot
  exact congrArg (Offset.ofWord ∘ LittleEndian.value)
    (only.read (fun other => unmade plot made (same.trans other)) 8)

theorem Sound.aside (sound : ground.Sound before) {region : Nat} (only : before.Only region after)
    (unmade : ∀ plot ∈ ground.made, plot.region ≠ region) : ground.Sound after := by
  have same : ∀ plot ∈ ground.made, after.region plot.region = before.region plot.region :=
    fun plot made => only.region (unmade plot made)
  have load : ∀ plot ∈ ground.made, ∀ field distance,
      after.load field ⟨plot.region, distance⟩ = before.load field ⟨plot.region, distance⟩ :=
    fun plot made field distance =>
      congrArg LittleEndian.value (only.read (unmade plot made) field.width)
  exact
    { toProper := sound.toProper
      stands := fun plot made => (sound.stands plot made).congr
        fun field _ => load plot made field 0
      length := fun plot made => (congrArg Region.size (same plot made)).trans
        (sound.length plot made)
      known := fun plot made => Nat.lt_of_lt_of_le (sound.known plot made) only.fresh
      floor := Nat.le_trans sound.floor only.fresh
      cursor := fun plot made => by
        rw [Plot.place, load plot made]
        exact sound.cursor plot made
      below := fun parcel carved => by
        obtain ⟨plot, made, region⟩ := (sound.homes parcel carved).2
        rw [← region, load plot made, region]
        exact sound.below parcel carved
      queued := fun queued =>
        sound.queued (sound.queued_before (sound.knots_aside only unmade) queued) }

/-- A rank without a segment, of which nothing is queued, gets one in which nothing is queued: then
nothing is queued afterwards that has not been queued before. -/
theorem Sound.queued_found (sound : ground.Sound memory) {current : UInt32 → Option Plot}
    (present : ∀ {rank other}, current rank = some other →
      (rank = plot.rank ∧ other = plot) ∨ ground.current rank = some other)
    (unqueued : ∀ {offset}, ground.Queued memory offset → offset.rank = plot.rank → offset = .free)
    (usable : plot.rank.toNat ≤ maxRank)
    (fresh : Segment.Fresh memory plot.place plot.rank plot.size plot.process)
    (queued : Queued { ground with made := plot :: ground.made, current } memory offset) :
    (ground.Queued memory offset ∨ offset = .free) ∧ offset.rank ≠ plot.rank := by
  let Within : Offset → Prop := fun offset => ground.Queued memory offset ∨ offset = .free
  have elsewhere : ∀ {offset}, Within offset → offset.rank ≠ plot.rank := by
    intro offset within same
    obtain rfl : offset = .free := within.elim (unqueued · same) id
    exact absurd (same ▸ usable) (by decide)
  have before : Within offset := by
    refine queued.within (fun found => ?_) fun {offset other} within found => ?_
    · rcases present found with ⟨_, rfl⟩ | found
      · refine ⟨.inr ?_, .inr ?_⟩
        · exact (congrArg Offset.ofWord fresh.head).trans (Offset.ofWord_word _)
        · exact (congrArg Offset.ofWord fresh.tail).trans (Offset.ofWord_word _)
      · exact ⟨.inl (.head found), .inl (.tail found)⟩
    · rcases present found with ⟨same, _⟩ | found
      · exact absurd same (elsewhere within)
      · rcases within with queued | rfl
        · exact .inl (.link queued found)
        · rw [sound.current_free] at found
          cases found
  exact ⟨before, elsewhere before⟩

/-- A rank without a segment of which nothing is queued gets one. -/
theorem Sound.found (sound : ground.Sound memory) (current : UInt32 → Option Plot)
    (here : current plot.rank = some plot)
    (others : ∀ {rank}, rank ≠ plot.rank → current rank = ground.current rank)
    (vacant : ground.current plot.rank = none)
    (unqueued : ∀ {offset}, ground.Queued memory offset → offset.rank = plot.rank → offset = .free)
    (unmade : ∀ other ∈ ground.made, other.region ≠ plot.region)
    (usable : plot.rank.toNat ≤ maxRank ∧ arenaStart < plot.size ∧ plot.size ≤ maxSegmentSize)
    (fresh : Segment.Fresh memory plot.place plot.rank plot.size plot.process)
    (length : (memory.region plot.region).size = plot.size) (known : plot.region < memory.fresh) :
    Sound { ground with made := plot :: ground.made, current } memory := by
  have present : ∀ {rank other}, current rank = some other →
      (rank = plot.rank ∧ other = plot) ∨ ground.current rank = some other := by
    intro rank other found
    by_cases same : rank = plot.rank
    · subst same
      exact .inl ⟨rfl, Option.some.inj (found.symm.trans here)⟩
    · exact .inr (others same ▸ found)
  have still : ∀ {rank other}, ground.current rank = some other → current rank = some other := by
    intro rank other found
    rw [others fun same => by rw [same, vacant] at found; cases found]
    exact found
  exact
    { usable := List.forall_mem_cons.mpr ⟨usable, sound.usable⟩
      current := fun found => by
        rcases present found with ⟨rfl, rfl⟩ | found
        · exact ⟨List.mem_cons_self, rfl⟩
        · exact ⟨List.mem_cons_of_mem _ (sound.current found).1, (sound.current found).2⟩
      charted := fun segment inside => by
        obtain ⟨other, found, same⟩ := sound.charted segment inside
        exact ⟨other, still found, same⟩
      clear := sound.clear
      homes := fun parcel carved => by
        obtain ⟨above, other, made, same⟩ := sound.homes parcel carved
        exact ⟨above, other, List.mem_cons_of_mem _ made, same⟩
      apart := sound.apart
      stands := List.forall_mem_cons.mpr ⟨fresh.toIdentity, sound.stands⟩
      length := List.forall_mem_cons.mpr ⟨length, sound.length⟩
      known := List.forall_mem_cons.mpr ⟨known, sound.known⟩
      floor := sound.floor
      cursor := List.forall_mem_cons.mpr ⟨by
        rw [fresh.cursor]
        exact ⟨Nat.le_refl _, Nat.le_of_lt usable.2.1⟩, sound.cursor⟩
      below := sound.below
      queued := fun {offset} queued => by
        obtain ⟨within, elsewhere⟩ :=
          sound.queued_found present unqueued usable.1 fresh queued
        have admits : ground.Admits offset := by
          rcases within with queued | rfl
          · exact sound.queued queued
          · exact sound.admits_free
        exact admits.mono (List.subset_cons_self ..) (fun _ => id) fun found =>
          (present found).resolve_left fun same => elsewhere same.1 }

/-- Nothing of a rank is mapped, and nothing of it is queued anywhere. -/
structure Vacant (ground : Ground) (memory : Memory) (rank : UInt32) : Prop where
  unmapped : ∀ segment ∈ ground.mapped, segment.rank ≠ rank
  unqueued : ∀ {offset}, ground.Queued memory offset → offset.rank = rank → offset = .free

theorem Sound.vacant (sound : ground.Sound memory)
    (unmade : ∀ plot ∈ ground.made, plot.rank ≠ rank) : ground.Vacant memory rank where
  unmapped segment inside same := by
    obtain ⟨plot, made, _, named, _⟩ := sound.plot_of_mapped inside
    exact unmade plot made (named.trans same)
  unqueued queued same := (sound.queued queued).known.resolve_right fun ⟨plot, made, named⟩ =>
    unmade plot made (named.trans same)

/-- The ground with one more segment, which is the present one of its rank. -/
def founded (ground : Ground) (plot : Plot) (segment : Segment) : Ground :=
  { ground with
    made := plot :: ground.made
    current := Function.update ground.current plot.rank (some plot)
    mapped := segment :: ground.mapped }

/-- A rank of which nothing is in use gets a segment, whatever it has had before. -/
theorem Sound.establish (sound : ground.Sound memory) (vacant : ground.Vacant memory plot.rank)
    (unmade : ∀ other ∈ ground.made, other.region ≠ plot.region)
    (usable : plot.rank.toNat ≤ maxRank ∧ arenaStart < plot.size ∧ plot.size ≤ maxSegmentSize)
    (fresh : Segment.Fresh memory plot.place plot.rank plot.size plot.process)
    (length : (memory.region plot.region).size = plot.size) (known : plot.region < memory.fresh)
    (rank : segment.rank = plot.rank) (region : segment.file.region = plot.region)
    (size : segment.size = plot.size) (clear : ∀ other ∈ ground.mapped, other.Clear segment) :
    (ground.founded plot segment).Sound memory := by
  -- The rank gives up the segment it has had.
  have fewer : ∀ {rank other}, Function.update ground.current plot.rank none rank = some other →
      ground.current rank = some other := by
    intro rank other found
    by_cases same : rank = plot.rank
    · subst same
      rw [Function.update_self] at found
      cases found
    · rwa [Function.update_of_ne same] at found
  have given : Sound { ground with
      current := Function.update ground.current plot.rank none
      mapped := ground.mapped } memory :=
    sound.shrink fewer fun other inside =>
      ⟨inside, Function.update_of_ne (vacant.unmapped other inside) ..⟩
  have here := Function.update_self plot.rank (some plot) ground.current
  have found := given.found (Function.update ground.current plot.rank (some plot)) here
    (fun differs =>
      (Function.update_of_ne differs ..).trans (Function.update_of_ne differs ..).symm)
    (Function.update_self ..) (fun queued => vacant.unqueued (queued.mono fewer)) unmade usable
    fresh length known
  exact found.map (rank ▸ here) region size clear

end Ground

end RankMail
