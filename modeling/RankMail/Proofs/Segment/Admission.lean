import RankMail.Proofs.Segment.Publication

set_option autoImplicit false

/-! # Who can be attached

Whatever lies under the name of a rank, whoever attaches it opens it, maps it and looks at it:

    open --> map --> look --> attached
      |       |      |  ^ |
      |       |      |  +-+ not ready yet
      +-------+------+--> refused

He is refused at the latest when he looks, unless the file says that it is not ready. So attaching
ends after three steps, or, when a file that nobody writes any more says so, never. Nobody is let in
by less than the right words in the header (`attach_returns`).
-/

namespace RankMail

open Segment

def World.HasRoom (world : World) (size : Nat) : Prop :=
  (world.addresses.take? world.nextBase (alignUp pageSize size)).isSome

instance (world : World) (size : Nat) : Decidable (world.HasRoom size) :=
  inferInstanceAs (Decidable (_ = true))

theorem alignUp_pos (size : Nat) : 0 < alignUp pageSize (size + 1) :=
  Nat.lt_of_lt_of_le (Nat.succ_pos size) (le_alignUp (Nat.succ_pos 4095) (size + 1)).1

namespace Segment

variable {directory : String} {rank : UInt32} {region size : Nat} {world : World}
  {memory : Memory} {block : Place}

/-- The header says that here is the segment of a rank, that it is ready, and how long it is. -/
def Declares (memory : Memory) (block : Place) (rank : UInt32) (size : Nat) : Prop :=
  ∃ process, Identity memory block rank size process

theorem declares_iff : Declares memory block rank size ↔
    memory.load SegmentField.state block = stateReady ∧
      checkHeader memory block rank size = .ok () := by
  constructor
  · rintro ⟨process, identity⟩
    refine ⟨identity.state, ?_⟩
    simp only [checkHeader, identity.magic, identity.version, identity.rank, identity.size,
      identity.dataStart, ne_eq, not_true_eq_false, if_false]
  · rintro ⟨state, checked⟩
    simp only [checkHeader, ne_eq, ite_not] at checked
    split at checked
    · next magic =>
      split at checked
      · next version =>
        split at checked
        · next rank =>
          split at checked
          · next size =>
            split at checked
            · next dataStart =>
              -- Whoever the owner is, his number fits into its word.
              have owner : (UInt32.ofNat (memory.load SegmentField.owner block)).toNat =
                  memory.load SegmentField.owner block :=
                Nat.mod_eq_of_lt (memory.load_lt SegmentField.owner block)
              exact ⟨_, magic, version, state, rank, size, dataStart, owner.symm⟩
            · cases checked
          · cases checked
        · cases checked
      · cases checked
    · cases checked

/-- Whoever looks at a segment that is ready goes on exactly if it declares itself. -/
theorem awaitReady_meets {segment : Segment}
    (ready : memory.load SegmentField.state segment.place = stateReady) :
    (segment.awaitReady memory).Meets False fun result after => after = memory ∧
      (result = .ok () ↔ Declares memory segment.place segment.rank segment.size) := by
  rw [awaitReady, if_neg (not_not_intro ready), declares_iff]
  cases checkHeader memory segment.place segment.rank segment.size with
  | error fault =>
      refine ⟨rfl, fun same => ?_, fun both => ?_⟩
      · cases same
      · cases both.2
  | ok value => exact ⟨rfl, fun _ => ⟨ready, rfl⟩, fun _ => rfl⟩

/-- Under the name of a rank there is a file that can be mapped and that is longer than the control
words. -/
structure Opens (directory : String) (rank : UInt32) (world : World) (region : Nat) : Prop where
  opened : world.disk.openFile (path directory rank) = .ok region
  room : world.HasRoom (world.memory.region region).size
  above : arenaStart < (world.memory.region region).size

/-- Under the name of a rank there is a segment that is not ready. -/
def Stalls (directory : String) (rank : UInt32) (world : World) : Prop :=
  ∃ region, Opens directory rank world region ∧
    world.memory.load SegmentField.state ⟨region, 0⟩ ≠ stateReady

/-- Under the name of a rank there is its segment. -/
def Admits (directory : String) (rank : UInt32) (world : World) (region : Nat) : Prop :=
  Opens directory rank world region ∧
    Declares world.memory ⟨region, 0⟩ rank (world.memory.region region).size

theorem Opens.unique {other : Nat} (opens : Opens directory rank world region)
    (opensToo : Opens directory rank world other) : region = other :=
  Except.ok.inj (opens.opened.symm.trans opensToo.opened)

theorem Admits.not_stalls (admits : Admits directory rank world region) :
    ¬Stalls directory rank world := by
  rintro ⟨other, opens, waits⟩
  obtain rfl := admits.1.unique opens
  exact waits (declares_iff.mp admits.2).1

end Segment

namespace Attaching

variable {directory : String} {rank : UInt32} {world : World} {file : MappedFile} {region : Nat}

/-- Some steps of whoever attaches a segment, with nobody else between. After the end there are no
more steps. -/
def run (directory : String) (rank : UInt32) :
    Nat → Attaching → Action World (Attaching ⊕ Segment)
  | 0, attaching => pure (.inl attaching)
  | steps + 1, attaching => do
      match ← attaching.advance directory rank with
      | .inl next => run directory rank steps next
      | .inr segment => pure (.inr segment)

theorem run_add (one two : Nat) (attaching : Attaching) :
    run directory rank (one + two) attaching = (do
      match ← run directory rank one attaching with
      | .inl next => run directory rank two next
      | .inr segment => pure (.inr segment)) := by
  induction one generalizing attaching with
  | zero =>
      rw [Nat.zero_add, run, pure_bind]
  | succ one ih =>
      rw [Nat.succ_add, run, run, bind_assoc]
      refine bind_congr fun result => ?_
      cases result with
      | inl next => exact ih next
      | inr segment => rw [pure_bind]

theorem run_rest (steps : Nat) (attaching : Attaching) :
    attaching.rest directory rank = (do
      match ← run directory rank steps attaching with
      | .inl next => next.rest directory rank
      | .inr segment => pure segment) := by
  induction steps generalizing attaching with
  | zero => rw [run, pure_bind]
  | succ steps ih =>
      rw [advance_rest, run, bind_assoc]
      refine bind_congr fun result => ?_
      cases result with
      | inl next => exact ih next
      | inr segment => rw [pure_bind]

theorem run_two (opens : Opens directory rank world region) : ∃ addresses,
    run directory rank 2 .opening world =
      .done (.inl (.awaiting ⟨path directory rank, region, world.nextBase,
        (world.memory.region region).size⟩))
        { world with
          addresses
          nextBase := world.nextBase +
            alignUp pageSize ((world.memory.region region).size + 1) } := by
  obtain ⟨addresses, taken⟩ := Option.isSome_iff_exists.mp opens.room
  have found : World.openFile (path directory rank) world = .done region world := by
    rw [World.openFile, opens.opened]
  have some : (world.memory.region region).size ≠ 0 := Nat.ne_of_gt (Nat.zero_lt_of_lt opens.above)
  have mapped : mapOpened directory rank region world =
      .done ⟨path directory rank, region, world.nextBase, (world.memory.region region).size⟩
        { world with
          addresses
          nextBase := world.nextBase +
            alignUp pageSize ((world.memory.region region).size + 1) } := by
    rw [mapOpened, Action.bind_done (Action.look_apply _ _), if_neg some, MappedFile.map, taken]
  refine ⟨addresses, ?_⟩
  simp only [run, advance, bind_assoc, pure_bind]
  rw [Action.bind_done found, Action.bind_done mapped]
  rfl

/-- While a file says that it is not ready, looking at it changes nothing. -/
theorem advance_awaiting (above : arenaStart < file.size)
    (waits : world.memory.load SegmentField.state ⟨file.region, 0⟩ ≠ stateReady) :
    advance directory rank (.awaiting file) world = .done (.inl (.awaiting file)) world := by
  simp only [advance, MappedFile.unlessFailed, if_neg (Nat.not_le.mpr above), Action.bind_apply,
    Action.look_apply, place, if_pos waits, Action.pure_apply]

theorem run_awaiting (above : arenaStart < file.size)
    (waits : world.memory.load SegmentField.state ⟨file.region, 0⟩ ≠ stateReady) (steps : Nat) :
    run directory rank steps (.awaiting file) world = .done (.inl (.awaiting file)) world := by
  induction steps with
  | zero => rfl
  | succ steps ih =>
      rw [run, Action.bind_done (advance_awaiting above waits)]
      exact ih

theorem finish_awaiting (above : arenaStart < file.size)
    (waits : world.memory.load SegmentField.state ⟨file.region, 0⟩ ≠ stateReady) :
    finish rank file world = .hung := by
  have hangs : World.inMemory (awaitReady ⟨file, rank, false⟩) world = .hung := by
    rw [World.inMemory, Action.within_apply, awaitReady]
    exact congrArg (Outcome.mapState _) (if_pos waits)
  simp only [finish, MappedFile.unlessFailed, if_neg (Nat.not_le.mpr above), Action.bind_apply,
    hangs]

theorem left_of_run_add {one two : Nat} {attaching : Attaching}
    (still : (run directory rank (one + two) attaching world).left?.isSome) :
    (run directory rank one attaching world).left?.isSome := by
  rw [run_add, Action.bind_apply] at still
  cases ends : run directory rank one attaching world with
  | done result after =>
      cases result with
      | inl next => rfl
      | inr segment =>
          rw [ends] at still
          cases still
  | failed fault after =>
      rw [ends] at still
      cases still
  | aborted cause =>
      rw [ends] at still
      cases still
  | hung =>
      rw [ends] at still
      cases still

/-- Whoever has found a segment that is not ready never comes to an end. -/
theorem run_stalls (stalls : Stalls directory rank world) (steps : Nat) :
    (run directory rank steps .opening world).left?.isSome := by
  obtain ⟨region, opens, waits⟩ := stalls
  obtain ⟨addresses, mapped⟩ := run_two opens
  refine @left_of_run_add _ _ _ steps 2 _ ?_
  rw [Nat.add_comm, run_add, Action.bind_done mapped]
  dsimp only
  rw [run_awaiting opens.above waits]
  rfl

end Attaching

/-! ## Every end -/

namespace Segment

variable {directory : String} {rank : UInt32} {world after : World}

/-- What there is once a segment has been attached. -/
structure Joins (directory : String) (rank : UInt32) (world : World) (segment : Segment)
    (after : World) : Prop where
  admits : Admits directory rank world segment.file.region
  maps : segment = ⟨⟨path directory rank, segment.file.region, world.nextBase,
    (world.memory.region segment.file.region).size⟩, rank, false⟩
  segments : after.segments = segment :: world.segments
  nextBase : world.nextBase < after.nextBase

/-- There is no file, or one that is refused. -/
structure Refuses (directory : String) (rank : UInt32) (world after : World) : Prop where
  waitless : ¬Stalls directory rank world
  strange : ∀ region, ¬Admits directory rank world region
  segments : after.segments = world.segments
  nextBase : world.nextBase ≤ after.nextBase

theorem Refuses.of_not_opens (strange : ∀ region, ¬Opens directory rank world region)
    (segments : after.segments = world.segments) (nextBase : world.nextBase ≤ after.nextBase) :
    Refuses directory rank world after where
  waitless := fun ⟨region, opens, _⟩ => strange region opens
  strange region admits := strange region admits.1
  segments := segments
  nextBase := nextBase

end Segment

namespace Attaching

variable {directory : String} {rank : UInt32} {world between : World} {attaching : Attaching}

/-- The steps that have been taken, those not counted in which one has only waited. -/
def taken : Attaching → Nat
  | opening => 0
  | mapping _ => 1
  | awaiting _ => 2

/-- What holds between two steps of whoever attaches a segment. -/
def Holds (directory : String) (rank : UInt32) (world : World) : Attaching → World → Prop
  | opening, between => between = world
  | mapping region, between => between = world ∧
      world.disk.openFile (path directory rank) = .ok region
  | awaiting file, between => ∃ region addresses nextBase,
      world.disk.openFile (path directory rank) = .ok region ∧
      world.HasRoom (world.memory.region region).size ∧
      file = ⟨path directory rank, region, world.nextBase, (world.memory.region region).size⟩ ∧
      between = { world with addresses, nextBase } ∧ world.nextBase < nextBase

theorem Holds.same (holds : attaching.Holds directory rank world between) :
    between.memory = world.memory ∧ between.disk = world.disk := by
  cases attaching with
  | opening =>
      obtain rfl := holds
      exact ⟨rfl, rfl⟩
  | mapping region =>
      obtain ⟨rfl, _⟩ := holds
      exact ⟨rfl, rfl⟩
  | awaiting file =>
      obtain ⟨_, _, _, _, _, _, rfl, _⟩ := holds
      exact ⟨rfl, rfl⟩

/-- What some steps lead to. -/
def Comes (directory : String) (rank : UInt32) (world : World) (least : Nat)
    (result : Except Fault (Attaching ⊕ Segment)) (after : World) : Prop :=
  after.memory = world.memory ∧ after.disk = world.disk ∧
    match result with
    | .ok (.inl next) => next.Holds directory rank world after ∧
        (next.taken = least ∨ Stalls directory rank world)
    | .ok (.inr segment) => Joins directory rank world segment after
    | .error _ => Refuses directory rank world after

theorem Comes.stalls {next : Attaching}
    (comes : Comes directory rank world 3 (.ok (.inl next)) between) :
    Stalls directory rank world := by
  obtain ⟨_, _, _, taken | stalls⟩ := comes
  · cases next <;> cases taken
  · exact stalls

theorem opening_comes : (opening.advance directory rank world).Meets False
    (Comes directory rank world 1) := by
  refine Action.meets_bind ?_
  rw [World.openFile]
  split
  · next region opened => exact ⟨rfl, rfl, ⟨rfl, opened⟩, .inl rfl⟩
  · next fault missing =>
    refine ⟨rfl, rfl, .of_not_opens (fun region opens => ?_) rfl (Nat.le_refl _)⟩
    rw [opens.opened] at missing
    cases missing

theorem mapping_comes {region : Nat}
    (opened : world.disk.openFile (path directory rank) = .ok region) :
    ((mapping region).advance directory rank world).Meets False
      (Comes directory rank world 2) := by
  have found : ∀ {other}, Opens directory rank world other → other = region :=
    fun opens => Except.ok.inj (opens.opened.symm.trans opened)
  refine Action.meets_bind (Action.meets_bind (Outcome.meets_done.mpr ?_))
  dsimp only
  split
  · next empty =>
    refine ⟨rfl, rfl, .of_not_opens (fun other opens => ?_) rfl (Nat.le_refl _)⟩
    obtain rfl := found opens
    have above := opens.above
    omega
  · rw [MappedFile.map]
    split
    · next full =>
      refine ⟨rfl, rfl, .of_not_opens (fun other opens => ?_) rfl (Nat.le_refl _)⟩
      obtain rfl := found opens
      exact absurd opens.room (by simp [World.HasRoom, full])
    · next addresses room =>
      exact ⟨rfl, rfl, ⟨region, addresses, _, opened, Option.isSome_of_eq_some room, rfl, rfl,
        Nat.lt_add_of_pos_right (alignUp_pos _)⟩, .inl rfl⟩

/-- The last step looks at the header, and waits as long as that is not ready. -/
theorem awaiting_comes {region nextBase : Nat} {addresses : AddressSpace}
    (opened : world.disk.openFile (path directory rank) = .ok region)
    (room : world.HasRoom (world.memory.region region).size) (next : world.nextBase < nextBase) :
    ((awaiting ⟨path directory rank, region, world.nextBase,
        (world.memory.region region).size⟩).advance directory rank
      { world with addresses, nextBase }).Meets False (Comes directory rank world 3) := by
  refine MappedFile.meets_unlessFailed ?_
  split
  · next small =>
    refine ⟨rfl, rfl, .of_not_opens (fun other opens => ?_) rfl (Nat.le_of_lt next)⟩
    obtain rfl := Except.ok.inj (opens.opened.symm.trans opened)
    exact absurd opens.above (Nat.not_lt.mpr small)
  · next large =>
    have opens : Opens directory rank world region := ⟨opened, room, Nat.lt_of_not_le large⟩
    refine Action.meets_bind (Outcome.meets_done.mpr ?_)
    dsimp only
    split
    · next waits =>
      exact ⟨rfl, rfl, ⟨region, addresses, nextBase, opened, room, rfl, rfl, next⟩,
        .inr ⟨region, opens, waits⟩⟩
    · next ready =>
      refine Action.meets_bind (Action.meets_within.mpr
        ((awaitReady_meets (not_not.mp ready)).mono ?_))
      rintro (fault | value) memory ⟨rfl, declared⟩
      · refine ⟨rfl, rfl, ?_, fun other admits => ?_, rfl, Nat.le_of_lt next⟩
        · rintro ⟨other, opensToo, waits⟩
          obtain rfl := opens.unique opensToo
          exact ready waits
        · obtain rfl := opens.unique admits.1
          cases declared.mpr admits.2
      · exact ⟨rfl, rfl, ⟨opens, declared.mp rfl⟩, rfl, rfl, next⟩

theorem advance_comes (holds : attaching.Holds directory rank world between) :
    (attaching.advance directory rank between).Meets False
      (Comes directory rank world (attaching.taken + 1)) := by
  cases attaching with
  | opening =>
      obtain rfl := holds
      exact opening_comes
  | mapping region =>
      obtain ⟨rfl, opened⟩ := holds
      exact mapping_comes opened
  | awaiting file =>
      obtain ⟨region, addresses, nextBase, opened, room, rfl, rfl, next⟩ := holds
      exact awaiting_comes opened room next

theorem run_comes (steps : Nat) (holds : attaching.Holds directory rank world between) :
    (run directory rank steps attaching between).Meets False
      (Comes directory rank world (attaching.taken + steps)) := by
  induction steps generalizing attaching between with
  | zero => exact ⟨holds.same.1, holds.same.2, holds, .inl rfl⟩
  | succ steps ih =>
      rw [run]
      refine Action.meets_bind ((advance_comes holds).mono ?_)
      rintro (fault | next | segment) after ⟨memory, disk, comes⟩
      · exact ⟨memory, disk, comes⟩
      · obtain ⟨holds, taken⟩ := comes
        refine (ih holds).mono ?_
        rintro (fault | last | segment) final ⟨memory, disk, comes⟩
        · exact ⟨memory, disk, comes⟩
        · refine ⟨memory, disk, comes.1, ?_⟩
          rcases taken with taken | stalls
          · rw [taken, Nat.add_right_comm] at comes
            exact comes.2
          · exact .inr stalls
        · exact ⟨memory, disk, comes⟩
      · exact ⟨memory, disk, comes⟩

end Attaching

namespace Segment

variable (directory : String) (rank : UInt32) (world : World)

/-- Attaching never aborts. It waits for ever for a segment that is not ready, and otherwise comes
to an end, at which memory and disk are as they were. -/
theorem attach_cases :
    (Stalls directory rank world ∧ attach directory rank world = .hung) ∨
      ¬Stalls directory rank world ∧
      (attach directory rank world).Meets False fun result after =>
        after.memory = world.memory ∧ after.disk = world.disk ∧
          match result with
          | .ok segment => Joins directory rank world segment after
          | .error _ => Refuses directory rank world after := by
  by_cases stalls : Stalls directory rank world
  · obtain ⟨region, opens, waits⟩ := id stalls
    refine .inl ⟨stalls, ?_⟩
    obtain ⟨addresses, mapped⟩ := Attaching.run_two opens
    show Attaching.rest directory rank .opening world = .hung
    rw [Attaching.run_rest 2, Action.bind_done mapped]
    exact Attaching.finish_awaiting opens.above waits
  · refine .inr ⟨stalls, ?_⟩
    show (Attaching.rest directory rank .opening world).Meets False _
    rw [Attaching.run_rest 3]
    have opening : Attaching.opening.Holds directory rank world world := rfl
    refine Action.meets_bind ((Attaching.run_comes 3 opening).mono ?_)
    rintro (fault | next | segment) after comes
    · exact comes
    · exact absurd comes.stalls stalls
    · exact comes

/-- Three steps are enough, unless the segment is not ready. -/
theorem run_three_iff : (Attaching.run directory rank 3 .opening world).left? = none ↔
    ¬Stalls directory rank world := by
  constructor
  · intro ended stalls
    have still := Attaching.run_stalls stalls 3
    rw [ended] at still
    cases still
  · intro calm
    have opening : Attaching.opening.Holds directory rank world world := rfl
    have comes := Attaching.run_comes 3 opening
    cases ends : Attaching.run directory rank 3 .opening world with
    | done result after =>
        rw [ends] at comes
        cases result with
        | inl next => exact absurd comes.stalls calm
        | inr segment => rfl
    | failed fault after => rfl
    | aborted cause => rfl
    | hung => rfl

/-- If three steps are not enough, no number of steps is. -/
theorem run_left_iff : (∀ steps, (Attaching.run directory rank steps .opening world).left?.isSome) ↔
    Stalls directory rank world := by
  constructor
  · intro still
    by_contra calm
    have ended := still 3
    rw [(run_three_iff directory rank world).mpr calm] at ended
    cases ended
  · exact Attaching.run_stalls

/-- **Attaching comes to an end unless it waits.** Whatever lies under the name of a rank, and
however long it is, whoever attaches it has come to an end after three steps, or the file can be
mapped, is longer than the control words, and says that it is not ready: then he never comes to an
end while nobody writes the file. He gets the segment exactly if the file can be mapped, is longer
than the control words and declares itself the segment of that rank, ready, in that layout and of
that length; in all other cases he is told a fault. -/
theorem attach_returns :
    ((Attaching.run directory rank 3 .opening world).left? = none ↔
      ¬Stalls directory rank world) ∧
    ((∀ steps, (Attaching.run directory rank steps .opening world).left?.isSome) ↔
      Stalls directory rank world) ∧
    (attach directory rank world = .hung ↔ Stalls directory rank world) ∧
    ((∃ segment after, attach directory rank world = .done segment after) ↔
      ∃ region, Admits directory rank world region) ∧
    ((∃ fault after, attach directory rank world = .failed fault after) ↔
      ¬Stalls directory rank world ∧ ∀ region, ¬Admits directory rank world region) := by
  refine ⟨run_three_iff directory rank world, run_left_iff directory rank world, ?_⟩
  rcases attach_cases directory rank world with ⟨stalls, hangs⟩ | ⟨calm, meets⟩
  · have strange : ¬∃ region, Admits directory rank world region :=
      fun ⟨_, admits⟩ => admits.not_stalls stalls
    rw [hangs]
    refine ⟨iff_of_true rfl stalls, iff_of_false ?_ strange, iff_of_false ?_ fun both =>
      both.1 stalls⟩
    · rintro ⟨segment, after, same⟩
      cases same
    · rintro ⟨fault, after, same⟩
      cases same
  · cases ends : attach directory rank world with
    | done segment after =>
        rw [ends] at meets
        obtain ⟨_, _, joins⟩ := meets
        refine ⟨iff_of_false (by simp) calm, iff_of_true ⟨segment, after, rfl⟩ ⟨_, joins.admits⟩,
          iff_of_false ?_ fun both => both.2 _ joins.admits⟩
        rintro ⟨fault, after, same⟩
        cases same
    | failed fault after =>
        rw [ends] at meets
        obtain ⟨_, _, refuses⟩ := meets
        refine ⟨iff_of_false (by simp) calm, iff_of_false ?_ ?_,
          iff_of_true ⟨fault, after, rfl⟩ ⟨calm, refuses.strange⟩⟩
        · rintro ⟨segment, after, same⟩
          cases same
        · rintro ⟨region, admits⟩
          exact refuses.strange region admits
    | aborted cause =>
        rw [ends] at meets
        exact meets.elim
    | hung =>
        rw [ends] at meets
        exact meets.elim

end Segment

/-! ## Files that are not attached -/

/-- Under the name of a rank there are only zeros, one more than there are control words. -/
def zeros : World :=
  ((World.writeFile (path "/" 5) (List.replicate 385 0) (.start 7 [])).state?).get
    (by decide +kernel)

/-- The file of a segment that is given a greater length than there are addresses, which it also
declares. -/
def immense : World :=
  ((do
    let _ ← create "/" 5 1000 false
    World.resizeFile (path "/" 5) (2 ^ 48)
    World.patchFile (path "/" 5) 16 [0, 0, 0, 0, 0, 0, 1, 0] : Action World Unit)
      (.start 7 [])).state?.get (by decide +kernel)

/-- Whoever attaches the zeros waits for ever for the segment to be ready. Whoever attaches the
immense file is told that there are no addresses for it, although the header says nothing wrong. -/
theorem zeros_hang_and_immense_fails :
    (∃ region, zeros.disk.openFile (path "/" 5) = .ok region ∧
      (zeros.memory.region region).size = 385 ∧ attach "/" 5 zeros = .hung ∧
      ∀ steps, (Attaching.run "/" 5 steps .opening zeros).left?.isSome) ∧
    ∃ region, immense.disk.openFile (path "/" 5) = .ok region ∧
      Declares immense.memory ⟨region, 0⟩ 5 (immense.memory.region region).size ∧
      (attach "/" 5 immense).fault? = some (.file .noAddresses) := by
  constructor
  · have opens : Opens "/" 5 zeros 0 := ⟨rfl, by decide +kernel, by decide +kernel⟩
    have stalls : Stalls "/" 5 zeros := ⟨0, opens, by decide +kernel⟩
    rcases attach_cases "/" 5 zeros with ⟨_, hangs⟩ | ⟨calm, _⟩
    · exact ⟨0, opens.opened, by decide +kernel, hangs, Attaching.run_stalls stalls⟩
    · exact absurd stalls calm
  · have identity : Identity immense.memory ⟨0, 0⟩ 5 (immense.memory.region 0).size 7 := by
      constructor <;> decide +kernel
    exact ⟨0, rfl, ⟨7, identity⟩, by decide +kernel⟩

end RankMail
