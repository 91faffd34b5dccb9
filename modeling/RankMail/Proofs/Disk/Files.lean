import RankMail.Proofs.Disk.Names
import RankMail.Proofs.Ends

set_option autoImplicit false

/-! # Which file has which name

Every file on disk has a region of its own (`Disk.IsProper`). Directories that are made take nothing
away (`Disk.Grown`). A file that is written under the name of a draft and then takes the name of its
rank leaves the files of all other ranks where they are (`Disk.publishes`).
-/

namespace RankMail

namespace Path

/-- Where a step leads from a place, if it leads anywhere. -/
def next (above : List String) (step : String) : List String :=
  if step = "." then above else if step = ".." then above.dropLast else above ++ [step]

/-- Where a path leads, if it leads anywhere. -/
def place (path : String) : List String := (steps path).foldl next []

end Path

namespace Disk

/-- The file of a name in a directory. -/
def Files (disk : Disk) (directory name : String) (region : Nat) : Prop :=
  ∃ above, (Path.steps directory).foldlM disk.enter [] = .ok above ∧
    disk.find? (above ++ [name]) = some (.file region)

/-- The files on disk have regions of their own, below a number. -/
structure IsProper (disk : Disk) (fresh : Nat) : Prop where
  known : ∀ {place region}, disk.find? place = some (.file region) → region < fresh
  apart : ∀ {place other region}, disk.find? place = some (.file region) →
    disk.find? other = some (.file region) → place = other

/-- Directories have been made where there was nothing, and files are where they were. -/
structure Grown (before after : Disk) : Prop where
  directories : ∀ {place}, before.find? place = some .directory →
    after.find? place = some .directory
  files : ∀ {place region}, after.find? place = some (.file region) ↔
    before.find? place = some (.file region)

variable {disk after last : Disk} {place other above : List String} {entry : Entry}
  {directory name target : String} {region fresh : Nat}

theorem find?_empty : Disk.empty.find? place ≠ some (.file region) := by
  rcases place with _ | ⟨first, rest⟩ <;> exact fun found => by cases found

theorem isProper_empty (fresh : Nat) : Disk.empty.IsProper fresh :=
  ⟨fun found => absurd found find?_empty, fun found => absurd found find?_empty⟩

theorem IsProper.mono {more : Nat} (proper : disk.IsProper fresh) (further : fresh ≤ more) :
    disk.IsProper more :=
  ⟨fun found => Nat.lt_of_lt_of_le (proper.known found) further, proper.apart⟩

/-! ## What is at a place -/

theorem find?_erase (disk : Disk) (place other : List String) :
    (disk.erase place).find? other =
      if other = place ∧ other ≠ [] then none else disk.find? other := by
  cases other with
  | nil => simp [find?]
  | cons first rest =>
      simp only [find?, List.isEmpty_cons, Bool.false_eq_true, if_false, ne_eq, reduceCtorEq,
        not_false_eq_true, and_true, erase]
      induction disk.entries with
      | nil => simp
      | cons entry entries ih =>
          obtain ⟨key, value⟩ := entry
          by_cases dropped : key = place
          · subst dropped
            rw [List.filter_cons_of_neg (by simp), ih, List.lookup_cons]
            by_cases wanted : first :: rest = key
            · simp [wanted]
            · rw [if_neg wanted, if_neg wanted, beq_eq_false_iff_ne.mpr wanted]
          · rw [List.filter_cons_of_pos (by simpa using dropped), List.lookup_cons, ih,
              List.lookup_cons]
            by_cases wanted : first :: rest = key
            · rw [if_neg (fun same => dropped (wanted.symm.trans same)), wanted]
              simp [dropped]
            · rw [beq_eq_false_iff_ne.mpr wanted]

theorem find?_insert (disk : Disk) (place other : List String) (entry : Entry) :
    (disk.insert place entry).find? other =
      if other = place ∧ other ≠ [] then some entry else disk.find? other := by
  have erased := disk.find?_erase place other
  cases other with
  | nil => simp [find?]
  | cons first rest =>
      simp only [find?, List.isEmpty_cons, Bool.false_eq_true, if_false, ne_eq, reduceCtorEq,
        not_false_eq_true, and_true, insert] at erased ⊢
      rw [List.lookup_cons]
      by_cases wanted : first :: rest = place
      · simp [wanted]
      · rw [beq_eq_false_iff_ne.mpr wanted, if_neg wanted]
        rw [if_neg wanted] at erased
        exact erased

theorem place_ne (differs : name ≠ target) (above other : List String) :
    above ++ [name] ≠ other ++ [target] :=
  fun same => differs (List.singleton_inj.mp (List.append_inj' same rfl).2)

theorem find?_erase_self (disk : Disk) (above : List String) (name : String) :
    (disk.erase (above ++ [name])).find? (above ++ [name]) = none := by
  rw [find?_erase, if_pos ⟨rfl, by simp⟩]

theorem find?_erase_of_ne (differs : other ≠ place) :
    (disk.erase place).find? other = disk.find? other := by
  rw [find?_erase, if_neg fun both => differs both.1]

theorem find?_insert_self (disk : Disk) (above : List String) (name : String) (entry : Entry) :
    (disk.insert (above ++ [name]) entry).find? (above ++ [name]) = some entry := by
  rw [find?_insert, if_pos ⟨rfl, by simp⟩]

theorem find?_insert_of_ne (differs : other ≠ place) :
    (disk.insert place entry).find? other = disk.find? other := by
  rw [find?_insert, if_neg fun both => differs both.1]

theorem lookUp_eq {found : Option Entry} (looked : disk.lookUp above name = .ok found) :
    disk.find? (above ++ [name]) = found := by
  rw [lookUp] at looked
  split at looked
  · cases looked
  · exact Except.ok.inj looked

/-! ## Following a path -/

/-- What there is on a disk decides whether a step leads anywhere, but not where. -/
theorem enter_eq {step : String} {next : List String} (entered : disk.enter above step = .ok next) :
    next = Path.next above step := by
  rw [enter] at entered
  rw [Path.next]
  split
  · next dot =>
      rw [if_pos dot] at entered
      exact (Except.ok.inj entered).symm
  · next notDot =>
      rw [if_neg notDot] at entered
      split
      · next dots =>
          rw [if_pos dots] at entered
          exact (Except.ok.inj entered).symm
      · next notDots =>
          rw [if_neg notDots] at entered
          cases looked : disk.lookUp above step with
          | error fault => simp [looked, bind, Except.bind] at entered
          | ok found =>
              rcases found with _ | _ | region
              · simp [looked, bind, Except.bind] at entered
              · rw [looked] at entered
                exact (Except.ok.inj entered).symm
              · simp [looked, bind, Except.bind] at entered

/-- A path leads to the same place on every disk on which it leads anywhere. -/
theorem follow_eq {steps : List String} {last : List String}
    (followed : steps.foldlM disk.enter above = .ok last) :
    last = steps.foldl Path.next above := by
  induction steps generalizing above with
  | nil => exact (Except.ok.inj followed).symm
  | cons step steps ih =>
      rw [List.foldlM_cons] at followed
      cases entered : disk.enter above step with
      | error fault => simp [entered, bind, Except.bind] at followed
      | ok middle =>
          rw [entered] at followed
          rw [List.foldl_cons, ← enter_eq entered]
          exact ih followed

/-- One step leads to where it led if the directories are still there. -/
theorem enter_of_directories {step : String} {next : List String}
    (directories : ∀ {place}, disk.find? place = some .directory →
      after.find? place = some .directory)
    (entered : disk.enter above step = .ok next) : after.enter above step = .ok next := by
  rw [enter] at entered ⊢
  split
  · next dot => rwa [if_pos dot] at entered
  · next notDot =>
      rw [if_neg notDot] at entered
      split
      · next dots => rwa [if_pos dots] at entered
      · next notDots =>
          rw [if_neg notDots, lookUp] at entered
          rw [lookUp]
          split
          · next long => rw [if_pos long] at entered; exact entered
          · next short =>
              rw [if_neg short] at entered
              cases found : disk.find? (above ++ [step]) with
              | none => simp [found, bind, Except.bind] at entered
              | some entry =>
                  cases entry with
                  | file region => simp [found, bind, Except.bind] at entered
                  | directory =>
                      rw [directories found]
                      rwa [found] at entered

theorem follow_of_directories {steps : List String} {next : List String}
    (directories : ∀ {place}, disk.find? place = some .directory →
      after.find? place = some .directory)
    (followed : steps.foldlM disk.enter above = .ok next) :
    steps.foldlM after.enter above = .ok next := by
  induction steps generalizing above with
  | nil => exact followed
  | cons step steps ih =>
      rw [List.foldlM_cons] at followed ⊢
      cases entered : disk.enter above step with
      | error fault => simp [entered, bind, Except.bind] at followed
      | ok middle =>
          rw [entered] at followed
          rw [enter_of_directories directories entered]
          exact ih followed

theorem spot_of_directories {path : String} {spot : Spot}
    (directories : ∀ {place}, disk.find? place = some .directory →
      after.find? place = some .directory)
    (leads : disk.spot path = .ok spot) : after.spot path = .ok spot := by
  rw [Disk.spot] at leads ⊢
  split at leads
  · cases leads
  · cases followed : (Path.steps path).dropLast.foldlM disk.enter [] with
    | error fault => simp [followed, bind, Except.bind] at leads
    | ok above =>
        dsimp only at leads ⊢
        rw [follow_of_directories directories followed]
        rwa [followed] at leads

theorem Files.found (files : disk.Files directory name region) :
    disk.find? (Path.place directory ++ [name]) = some (.file region) := by
  obtain ⟨above, followed, found⟩ := files
  obtain rfl := follow_eq followed
  exact found

theorem Files.unique {second : Nat} (files : disk.Files directory name region)
    (again : disk.Files directory name second) : region = second := by
  obtain ⟨above, followed, found⟩ := files
  obtain ⟨other, followedToo, foundToo⟩ := again
  obtain rfl := Except.ok.inj (followed.symm.trans followedToo)
  exact Entry.file.inj (Option.some.inj (found.symm.trans foundToo))

theorem openFile_join (isName : Path.IsName name)
    (opened : disk.openFile (Path.join directory name) = .ok region) :
    disk.Files directory name region := by
  rw [openFile, Disk.entry] at opened
  cases leads : disk.spot (Path.join directory name) with
  | error fault => simp [leads, bind, Except.bind] at opened
  | ok spot =>
      obtain ⟨above, followed, rfl⟩ := spot_join isName leads
      cases looked : disk.lookUp above name with
      | error fault => simp [leads, looked, bind, Except.bind] at opened
      | ok found =>
          refine ⟨above, followed, ?_⟩
          rw [lookUp_eq looked]
          cases found with
          | none => simp [leads, looked, bind, Except.bind] at opened
          | some entry =>
              cases entry with
              | directory => simp [leads, looked, bind, Except.bind] at opened
              | file number =>
                  simp only [leads, looked, bind, Except.bind, Bool.false_eq_true, if_false,
                    Except.ok.injEq] at opened
                  rw [opened]

/-- A file can be opened exactly if its path leads to a name that is not too long and the file is
there. -/
theorem openFile_iff {path : String} : disk.openFile path = .ok region ↔ ∃ above name,
    disk.spot path = .ok (.name above name false) ∧ ¬Path.nameLimit < name.utf8ByteSize ∧
      disk.find? (above ++ [name]) = some (.file region) := by
  constructor
  · intro opened
    rw [openFile, Disk.entry] at opened
    cases leads : disk.spot path with
    | error fault => simp [leads, bind, Except.bind] at opened
    | ok spot =>
        match spot with
        | .directory place => simp [leads, bind, Except.bind] at opened
        | .name above name slashed =>
            by_cases long : Path.nameLimit < name.utf8ByteSize
            · simp [leads, lookUp, long, bind, Except.bind] at opened
            · rcases found : disk.find? (above ++ [name]) with _ | _ | number
              · simp [leads, lookUp, long, found, bind, Except.bind] at opened
              · simp [leads, lookUp, long, found, bind, Except.bind] at opened
              · cases slashed with
                | true => simp [leads, lookUp, long, found, bind, Except.bind] at opened
                | false =>
                    refine ⟨above, name, rfl, long, ?_⟩
                    simpa [leads, lookUp, long, found, bind, Except.bind] using opened
  · rintro ⟨above, name, leads, short, found⟩
    simp [openFile, Disk.entry, leads, lookUp, short, found, bind, Except.bind]

theorem removeFile_of_openFile {path : String} (opened : disk.openFile path = .ok region) :
    ∃ after, disk.removeFile path = .ok after := by
  obtain ⟨above, name, leads, short, found⟩ := openFile_iff.mp opened
  refine ⟨disk.erase (above ++ [name]), ?_⟩
  simp [removeFile, leads, lookUp, short, found, bind, Except.bind]

/-! ## Making directories -/

theorem Grown.refl (disk : Disk) : disk.Grown disk := ⟨id, Iff.rfl⟩

theorem Grown.trans (one : disk.Grown after) (two : after.Grown last) : disk.Grown last where
  directories found := two.directories (one.directories found)
  files := two.files.trans one.files

theorem Grown.isProper (grown : disk.Grown after) (proper : disk.IsProper fresh) :
    after.IsProper fresh where
  known found := proper.known (grown.files.mp found)
  apart found foundToo := proper.apart (grown.files.mp found) (grown.files.mp foundToo)

theorem Grown.files_join (grown : disk.Grown after) (files : disk.Files directory name region) :
    after.Files directory name region := by
  obtain ⟨above, followed, found⟩ := files
  exact ⟨above, follow_of_directories grown.directories followed, grown.files.mpr found⟩

theorem grown_insert (nothing : disk.find? place = none) :
    disk.Grown (disk.insert place .directory) where
  directories {other} found := by
    have differs : other ≠ place := by
      rintro rfl
      simp [nothing] at found
    rw [find?_insert_of_ne differs]
    exact found
  files {other region} := by
    by_cases same : other = place
    · subst same
      rw [nothing, find?_insert]
      split
      · simp
      · simp [nothing]
    · rw [find?_insert_of_ne same]

theorem makeDirectory_grown {path : String} (made : disk.makeDirectory path = .ok after) :
    disk.Grown after := by
  rw [makeDirectory] at made
  cases leads : disk.spot path with
  | error fault => simp [leads, bind, Except.bind] at made
  | ok spot =>
      cases spot with
      | directory place => simp [leads, bind, Except.bind] at made
      | name above name slashed =>
          cases looked : disk.lookUp above name with
          | error fault => simp [leads, looked, bind, Except.bind] at made
          | ok found =>
              cases found with
              | some entry => simp [leads, looked, bind, Except.bind] at made
              | none =>
                  simp only [leads, looked, bind, Except.bind, Except.ok.injEq] at made
                  exact made ▸ grown_insert (lookUp_eq looked)

theorem ensureDirectory_meets (path : String) (disk : Disk) :
    (ensureDirectory path disk).Meets False fun _ after => disk.Grown after := by
  rw [ensureDirectory]
  split
  · next made same => exact makeDirectory_grown same
  · split
    · exact .refl disk
    · exact .refl disk

theorem ensureDirectories_meets (names : List String) :
    ∀ (path : String) (disk : Disk),
      (ensureDirectories path names disk).Meets False fun _ after => disk.Grown after := by
  induction names with
  | nil => exact ensureDirectory_meets
  | cons last above ih =>
      intro path disk
      have first := ensureDirectory_meets path disk
      rw [ensureDirectories]
      dsimp only
      split
      · next after failed =>
          rw [failed] at first
          refine Action.meets_bind ((ih _ after).mono ?_)
          rintro (fault | value) second grown
          · exact first.trans grown
          · exact (ensureDirectory_meets path second).mono fun _ _ more =>
              (first.trans grown).trans more
      · exact first

theorem makeDirectories_meets (path : String) (disk : Disk) :
    (makeDirectories path disk).Meets False fun _ after => disk.Grown after := by
  rw [makeDirectories]
  split
  · exact .refl disk
  · exact ensureDirectories_meets _ path disk

/-! ## Writing a file and giving it its name -/

theorem createFile_join {fresh : Nat} (isName : Path.IsName name)
    (created : disk.createFile (Path.join directory name) fresh = .ok (after, region)) :
    ∃ above, (Path.steps directory).foldlM disk.enter [] = .ok above ∧
      ((disk.find? (above ++ [name]) = some (.file region) ∧ after = disk) ∨
        (disk.find? (above ++ [name]) = none ∧ region = fresh ∧
          after = disk.insert (above ++ [name]) (.file fresh))) := by
  rw [createFile] at created
  cases leads : disk.spot (Path.join directory name) with
  | error fault => simp [leads, bind, Except.bind] at created
  | ok spot =>
      obtain ⟨above, followed, rfl⟩ := spot_join isName leads
      refine ⟨above, followed, ?_⟩
      cases looked : disk.lookUp above name with
      | error fault => simp [leads, looked, bind, Except.bind] at created
      | ok found =>
          rw [lookUp_eq looked]
          cases found with
          | none =>
              simp only [leads, looked, bind, Except.bind, Except.ok.injEq,
                Prod.mk.injEq] at created
              exact .inr ⟨rfl, created.2.symm, created.1.symm⟩
          | some entry =>
              cases entry with
              | directory => simp [leads, looked, bind, Except.bind] at created
              | file number =>
                  simp only [leads, looked, bind, Except.bind, Except.ok.injEq,
                    Prod.mk.injEq] at created
                  exact .inl ⟨by rw [created.2], created.1.symm⟩

theorem rename_join (isName : Path.IsName name) (isTarget : Path.IsName target)
    (renamed : disk.rename (Path.join directory name) (Path.join directory target) = .ok after) :
    ∃ above region, (Path.steps directory).foldlM disk.enter [] = .ok above ∧
      disk.find? (above ++ [name]) = some (.file region) ∧
      disk.find? (above ++ [target]) ≠ some .directory ∧
      after = (disk.erase (above ++ [name])).insert (above ++ [target]) (.file region) := by
  rw [rename] at renamed
  cases leads : disk.spot (Path.join directory name) with
  | error fault => simp [leads, bind, Except.bind] at renamed
  | ok spot =>
      obtain ⟨above, followed, rfl⟩ := spot_join isName leads
      cases leadsToo : disk.spot (Path.join directory target) with
      | error fault => simp [leads, leadsToo, bind, Except.bind] at renamed
      | ok spot =>
          obtain ⟨again, followedToo, rfl⟩ := spot_join isTarget leadsToo
          obtain rfl := Except.ok.inj (followed.symm.trans followedToo)
          cases looked : disk.lookUp above name with
          | error fault => simp [leads, leadsToo, looked, bind, Except.bind] at renamed
          | ok found =>
              cases found with
              | none => simp [leads, leadsToo, looked, bind, Except.bind] at renamed
              | some entry =>
                  cases entry with
                  | directory => simp [leads, leadsToo, looked, bind, Except.bind] at renamed
                  | file region =>
                      refine ⟨above, region, followed, lookUp_eq looked, ?_⟩
                      cases there : disk.lookUp above target with
                      | error fault =>
                          simp [leads, leadsToo, looked, there, bind, Except.bind] at renamed
                      | ok found =>
                          simp only [leads, leadsToo, looked, there, bind, Except.bind,
                            Bool.or_self, Bool.false_eq_true, if_false] at renamed
                          split at renamed
                          · cases renamed
                          · split at renamed
                            · cases renamed
                            · next isFile =>
                                rw [lookUp_eq there]
                                exact ⟨isFile, (Except.ok.inj renamed).symm⟩

theorem removeFile_join (isName : Path.IsName name)
    (removed : disk.removeFile (Path.join directory name) = .ok after) :
    ∃ above region, (Path.steps directory).foldlM disk.enter [] = .ok above ∧
      disk.find? (above ++ [name]) = some (.file region) ∧
      after = disk.erase (above ++ [name]) := by
  rw [removeFile] at removed
  cases leads : disk.spot (Path.join directory name) with
  | error fault => simp [leads, bind, Except.bind] at removed
  | ok spot =>
      obtain ⟨above, followed, rfl⟩ := spot_join isName leads
      cases looked : disk.lookUp above name with
      | error fault => simp [leads, looked, bind, Except.bind] at removed
      | ok found =>
          cases found with
          | none => simp [leads, looked, bind, Except.bind] at removed
          | some entry =>
              cases entry with
              | directory => simp [leads, looked, bind, Except.bind] at removed
              | file region =>
                  refine ⟨above, region, followed, lookUp_eq looked, ?_⟩
                  simp only [leads, looked, bind, Except.bind, Bool.false_eq_true,
                    if_false] at removed
                  exact (Except.ok.inj removed).symm

theorem IsProper.create (proper : disk.IsProper fresh) (nothing : disk.find? place = none) :
    (disk.insert place (.file fresh)).IsProper (fresh + 1) := by
  have found_or : ∀ {other region}, (disk.insert place (.file fresh)).find? other =
      some (.file region) → (other = place ∧ region = fresh) ∨
        disk.find? other = some (.file region) := by
    intro other region found
    rw [find?_insert] at found
    split at found
    · next here => exact .inl ⟨here.1, (Entry.file.inj (Option.some.inj found)).symm⟩
    · exact .inr found
  constructor
  · intro other region found
    rcases found_or found with ⟨_, rfl⟩ | old
    · exact Nat.lt_succ_self _
    · exact Nat.lt_succ_of_lt (proper.known old)
  · intro one two region found foundToo
    rcases found_or found with ⟨rfl, rfl⟩ | old
    · rcases found_or foundToo with ⟨rfl, _⟩ | oldToo
      · rfl
      · exact absurd (proper.known oldToo) (Nat.lt_irrefl _)
    · rcases found_or foundToo with ⟨_, rfl⟩ | oldToo
      · exact absurd (proper.known old) (Nat.lt_irrefl _)
      · exact proper.apart old oldToo

theorem IsProper.rename (proper : disk.IsProper fresh)
    (found : disk.find? (above ++ [name]) = some (.file region)) :
    ((disk.erase (above ++ [name])).insert (above ++ [target]) (.file region)).IsProper fresh := by
  have found_or : ∀ {other second},
      ((disk.erase (above ++ [name])).insert (above ++ [target]) (.file region)).find? other =
        some (.file second) → (other = above ++ [target] ∧ second = region) ∨
          (other ≠ above ++ [name] ∧ disk.find? other = some (.file second)) := by
    intro other second there
    rw [find?_insert] at there
    split at there
    · next here => exact .inl ⟨here.1, (Entry.file.inj (Option.some.inj there)).symm⟩
    · by_cases same : other = above ++ [name]
      · subst same
        rw [find?_erase_self] at there
        cases there
      · rw [find?_erase_of_ne same] at there
        exact .inr ⟨same, there⟩
  constructor
  · intro other second there
    rcases found_or there with ⟨_, rfl⟩ | ⟨_, old⟩
    · exact proper.known found
    · exact proper.known old
  · intro one two second there thereToo
    rcases found_or there with ⟨rfl, rfl⟩ | ⟨differs, old⟩
    · rcases found_or thereToo with ⟨rfl, _⟩ | ⟨differs, oldToo⟩
      · rfl
      · exact absurd (proper.apart oldToo found) differs
    · rcases found_or thereToo with ⟨rfl, rfl⟩ | ⟨_, oldToo⟩
      · exact absurd (proper.apart old found) differs
      · exact proper.apart old oldToo

theorem IsProper.erase (proper : disk.IsProper fresh) (place : List String) :
    (disk.erase place).IsProper fresh := by
  have still : ∀ {other region}, (disk.erase place).find? other = some (.file region) →
      disk.find? other = some (.file region) := by
    intro other region found
    rw [find?_erase] at found
    split at found
    · cases found
    · exact found
  exact ⟨fun found => proper.known (still found),
    fun found foundToo => proper.apart (still found) (still foundToo)⟩

/-- A file of a name has been written in a directory, over an older one or where there was
nothing. -/
structure Writes (before after : Disk) (place : List String) (fresh region : Nat) : Prop where
  file : after.find? place = some (.file region)
  others : ∀ {other}, other ≠ place → after.find? other = before.find? other
  undirected : before.find? place ≠ some .directory
  proper : before.IsProper fresh → after.IsProper (max fresh (region + 1))

theorem createFile_writes (isName : Path.IsName name)
    (created : disk.createFile (Path.join directory name) fresh = .ok (after, region)) :
    ∃ above, (Path.steps directory).foldlM disk.enter [] = .ok above ∧
      Writes disk after (above ++ [name]) fresh region := by
  obtain ⟨above, followed, ⟨there, rfl⟩ | ⟨nothing, rfl, rfl⟩⟩ := createFile_join isName created
  · refine ⟨above, followed, there, fun _ => rfl, by simp [there], fun proper => ?_⟩
    rwa [Nat.max_eq_left (proper.known there)]
  · refine ⟨above, followed, find?_insert_self .., find?_insert_of_ne, by simp [nothing],
      fun proper => ?_⟩
    rw [Nat.max_eq_right (Nat.le_succ _)]
    exact proper.create nothing

theorem Writes.directories (writes : Writes disk after place fresh region)
    (there : disk.find? other = some .directory) : after.find? other = some .directory := by
  rwa [writes.others (by rintro rfl; exact writes.undirected there)]

theorem openFile_of_createFile {path : String}
    (created : disk.createFile path fresh = .ok (after, region)) :
    after.openFile path = .ok region := by
  rw [createFile] at created
  cases leads : disk.spot path with
  | error fault => simp [leads, bind, Except.bind] at created
  | ok spot =>
      match spot with
      | .directory place => simp [leads, bind, Except.bind] at created
      | .name above name true => simp [leads, bind, Except.bind] at created
      | .name above name false =>
          by_cases long : Path.nameLimit < name.utf8ByteSize
          · simp [leads, lookUp, long, bind, Except.bind] at created
          · rcases found : disk.find? (above ++ [name]) with _ | _ | number
            · simp only [leads, lookUp, long, found, bind, Except.bind, if_false,
                Except.ok.injEq, Prod.mk.injEq] at created
              obtain ⟨rfl, rfl⟩ := created
              have directories : ∀ {place}, disk.find? place = some .directory →
                  (disk.insert (above ++ [name]) (.file fresh)).find? place =
                    some .directory := fun directory => by
                rwa [find?_insert_of_ne (by rintro rfl; simp [found] at directory)]
              exact openFile_iff.mpr ⟨above, name, spot_of_directories directories leads, long,
                find?_insert_self ..⟩
            · simp [leads, lookUp, long, found, bind, Except.bind] at created
            · simp only [leads, lookUp, long, found, bind, Except.bind, if_false,
                Except.ok.injEq, Prod.mk.injEq] at created
              obtain ⟨rfl, rfl⟩ := created
              exact openFile_iff.mpr ⟨above, name, leads, long, found⟩

/-- A file has taken another name in its directory. -/
structure Renames (before after : Disk) (source target : List String) (region : Nat) : Prop where
  found : before.find? source = some (.file region)
  file : after.find? target = some (.file region)
  others : ∀ {other}, other ≠ source → other ≠ target → after.find? other = before.find? other
  undirected : before.find? target ≠ some .directory
  proper : ∀ {fresh}, before.IsProper fresh → after.IsProper fresh

theorem rename_renames (isName : Path.IsName name) (isTarget : Path.IsName target)
    (renamed : disk.rename (Path.join directory name) (Path.join directory target) = .ok after) :
    ∃ above region, (Path.steps directory).foldlM disk.enter [] = .ok above ∧
      Renames disk after (above ++ [name]) (above ++ [target]) region := by
  obtain ⟨above, region, followed, found, isFile, rfl⟩ := rename_join isName isTarget renamed
  refine ⟨above, region, followed, found, find?_insert_self .., fun notName notTarget => ?_, isFile,
    fun proper => proper.rename found⟩
  rw [find?_insert_of_ne notTarget, find?_erase_of_ne notName]

theorem Renames.directories {source target : List String}
    (renames : Renames disk after source target region)
    (there : disk.find? other = some .directory) : after.find? other = some .directory := by
  rwa [renames.others (by rintro rfl; simp [renames.found] at there)
    (by rintro rfl; exact renames.undirected there)]

theorem rename_gone (isName : Path.IsName name) (isTarget : Path.IsName target)
    (differ : name ≠ target)
    (renamed : disk.rename (Path.join directory name) (Path.join directory target) = .ok after)
    (followed : (Path.steps directory).foldlM disk.enter [] = .ok above) :
    after.find? (above ++ [name]) = none := by
  obtain ⟨again, region, followedToo, _, _, rfl⟩ := rename_join isName isTarget renamed
  obtain rfl := Except.ok.inj (followed.symm.trans followedToo)
  rw [find?_insert_of_ne (place_ne differ above above), find?_erase_self]

theorem openFile_of_rename {path aim : String} (opened : disk.openFile path = .ok region)
    (renamed : disk.rename path aim = .ok after) : after.openFile aim = .ok region := by
  obtain ⟨above, name, leads, short, found⟩ := openFile_iff.mp opened
  rw [rename] at renamed
  cases leadsToo : disk.spot aim with
  | error fault => simp [leads, leadsToo, bind, Except.bind] at renamed
  | ok spot =>
      match spot with
      | .directory place => simp [leads, leadsToo, bind, Except.bind] at renamed
      | .name aboveAim nameAim true =>
          by_cases long : Path.nameLimit < nameAim.utf8ByteSize
          · simp [leads, leadsToo, lookUp, short, found, long, bind, Except.bind] at renamed
          · simp [leads, leadsToo, lookUp, short, found, long, bind, Except.bind] at renamed
      | .name aboveAim nameAim false =>
          by_cases long : Path.nameLimit < nameAim.utf8ByteSize
          · simp [leads, leadsToo, lookUp, short, found, long, bind, Except.bind] at renamed
          · simp only [leads, leadsToo, lookUp, short, found, long, bind, Except.bind,
              Bool.or_self, Bool.false_eq_true, if_false] at renamed
            split at renamed
            · cases renamed
            · split at renamed
              · cases renamed
              · next isFile =>
                obtain rfl := Except.ok.inj renamed
                -- Neither name is that of a directory, so the path leads where it led.
                have directories : ∀ {place}, disk.find? place = some .directory →
                    ((disk.erase (above ++ [name])).insert (aboveAim ++ [nameAim])
                      (.file region)).find? place = some .directory := by
                  intro place there
                  rw [find?_insert_of_ne (by rintro rfl; exact isFile there),
                    find?_erase_of_ne (by rintro rfl; simp [found] at there)]
                  exact there
                exact openFile_iff.mpr ⟨aboveAim, nameAim,
                  spot_of_directories directories leadsToo, long, find?_insert_self ..⟩

/-- What has come of the disk when the file of a rank has been written under the name of a draft and
has taken its own name. -/
structure Publishes (before after : Disk) (directory : String) (rank : UInt32)
    (fresh region : Nat) : Prop where
  proper : after.IsProper (max fresh (region + 1))
  files : after.Files directory (Segment.fileName rank) region
  others : ∀ {other second}, other ≠ rank → before.Files directory (Segment.fileName other) second →
    after.Files directory (Segment.fileName other) second ∧ second ≠ region

theorem publishes {made written : Disk} {rank : UInt32} (proper : disk.IsProper fresh)
    (grown : disk.Grown made)
    (created : made.createFile (Segment.draftPath directory rank) fresh = .ok (written, region))
    (renamed : written.rename (Segment.draftPath directory rank) (Segment.path directory rank) =
      .ok after) : Publishes disk after directory rank fresh region := by
  rw [Segment.draftPath_eq] at created renamed
  obtain ⟨above, followed, writes⟩ := createFile_writes Segment.isName_draftName created
  obtain ⟨again, number, followedToo, renames⟩ :=
    rename_renames Segment.isName_draftName Segment.isName_fileName renamed
  -- It is one file in one directory, which is there all the time.
  obtain rfl := Except.ok.inj
    ((follow_of_directories writes.directories followed).symm.trans followedToo)
  have followedAfter := follow_of_directories renames.directories followedToo
  obtain rfl := Entry.file.inj (Option.some.inj (renames.found.symm.trans writes.file))
  have properWritten := writes.proper (grown.isProper proper)
  refine ⟨renames.proper properWritten, ⟨above, followedAfter, renames.file⟩, ?_⟩
  intro other second differs files
  obtain ⟨place, followedOther, there⟩ := grown.files_join files
  obtain rfl := Except.ok.inj (followed.symm.trans followedOther)
  have notDraft : above ++ [Segment.fileName other] ≠ above ++ [Segment.draftName rank] :=
    place_ne Segment.draftName_ne.symm above above
  have notFinal : above ++ [Segment.fileName other] ≠ above ++ [Segment.fileName rank] :=
    place_ne (fun same => differs (Segment.fileName_inj same)) above above
  rw [← writes.others notDraft] at there
  constructor
  · exact ⟨above, followedAfter, (renames.others notDraft notFinal).trans there⟩
  · rintro rfl
    exact notDraft (properWritten.apart there renames.found)

end Disk

end RankMail
