import RankMail.Segment.Lifecycle

set_option autoImplicit false

/-! # Names of segment files

The file of a rank has a name in which the rank is written out, so different ranks have different
files (`Segment.fileName_inj`), and the name under which a file is written is the name of no rank
(`Segment.draftName_ne`). None of these names has a slash in it or stands for a directory, so a path
that is joined from a directory and such a name leads to that name in that directory
(`Disk.spot_join`).
-/

namespace RankMail

namespace Path

variable {directory name : String}

/-- A name that is one step of a path and leads to something of that name. -/
structure IsName (name : String) : Prop where
  unslashed : '/' ∉ name.toList
  filled : name ≠ ""
  notDot : name ≠ "."
  notDots : name ≠ ".."

def pieces (path : List Char) : List (List Char) :=
  (path.splitOn '/').filter fun step => !step.isEmpty

theorem steps_eq (path : String) : steps path = (pieces path.toList).map String.ofList := rfl

theorem pieces_append (front back : List Char) :
    pieces (front ++ '/' :: back) = pieces front ++ pieces back := by
  rw [pieces, List.splitOn_append_cons_self, List.filter_append]
  rfl

theorem IsName.pieces (isName : IsName name) : Path.pieces name.toList = [name.toList] := by
  have filled : name.toList ≠ [] := fun empty => isName.filled (String.toList_eq_nil_iff.mp empty)
  rw [Path.pieces, List.splitOn_eq_singleton isName.unslashed]
  simp [filled]

theorem toList_join (directory name : String) :
    (directory = "" ∧ (join directory name).toList = name.toList) ∨
      ∃ front, pieces front = pieces directory.toList ∧
        (join directory name).toList = front ++ '/' :: name.toList := by
  by_cases empty : directory = ""
  · subst empty
    exact .inl ⟨rfl, by simp [join]⟩
  · refine .inr ?_
    by_cases slashed : isSlashed directory = true
    · obtain ⟨front, split⟩ := List.getLast?_eq_some_iff.mp (beq_iff_eq.mp slashed)
      refine ⟨front, ?_, ?_⟩
      · rw [split, pieces_append]
        exact (List.append_nil _).symm
      · rw [join, if_pos (.inr slashed), String.toList_append, split, List.append_assoc]
        rfl
    · refine ⟨directory.toList, rfl, ?_⟩
      rw [join, if_neg (not_or.mpr ⟨empty, slashed⟩), String.toList_append, String.toList_append,
        List.append_assoc]
      rfl

theorem steps_join (isName : IsName name) :
    steps (join directory name) = steps directory ++ [name] := by
  have last : (pieces name.toList).map String.ofList = [name] := by
    rw [isName.pieces]
    exact congrArg (fun text => [text]) String.ofList_toList
  rw [steps_eq, steps_eq]
  rcases toList_join directory name with ⟨rfl, joined⟩ | ⟨front, same, joined⟩
  · rw [joined, last]
    rfl
  · rw [joined, pieces_append, List.map_append, same, last]

theorem isSlashed_join (isName : IsName name) : isSlashed (join directory name) = false := by
  have filled : name.toList ≠ [] := fun empty => isName.filled (String.toList_eq_nil_iff.mp empty)
  have last : (join directory name).toList.getLast? = some (name.toList.getLast filled) := by
    rcases toList_join directory name with ⟨_, joined⟩ | ⟨front, _, joined⟩
    · rw [joined, List.getLast?_eq_some_getLast filled]
    · rw [joined, List.getLast?_append, List.getLast?_cons,
        List.getLast?_eq_some_getLast filled]
      rfl
  rw [isSlashed, last]
  apply beq_eq_false_iff_ne.mpr
  intro slash
  exact isName.unslashed (Option.some.inj slash ▸ List.getLast_mem filled)

end Path

/-- The last step of a path that is joined leads to the name in the directory. -/
theorem Disk.spot_join {disk : Disk} {directory name : String} {spot : Disk.Spot}
    (isName : Path.IsName name) (leads : disk.spot (Path.join directory name) = .ok spot) :
    ∃ above, (Path.steps directory).foldlM disk.enter [] = .ok above ∧
      spot = .name above name false := by
  rw [Disk.spot] at leads
  split at leads
  · cases leads
  · dsimp only at leads
    rw [Path.steps_join isName, List.dropLast_concat, List.getLast?_concat] at leads
    cases followed : (Path.steps directory).foldlM disk.enter [] with
    | error fault =>
        rw [followed] at leads
        cases leads
    | ok above =>
        rw [followed, Path.isSlashed_join isName] at leads
        refine ⟨above, rfl, ?_⟩
        simp only [bind, Except.bind] at leads
        split at leads
        · next none => cases none
        · next dot => exact absurd (Option.some.inj dot) isName.notDot
        · next dots => exact absurd (Option.some.inj dots) isName.notDots
        · next other => rw [← Except.ok.inj leads, Option.some.inj other]

namespace Segment

variable {rank other : UInt32}

def draftName (rank : UInt32) : String := fileName rank ++ ".tmp"

theorem toList_padded (width number : Nat) : ∃ zeros,
    (Text.padded width number).toList = List.replicate zeros '0' ++ Nat.toDigits 10 number := by
  refine ⟨width - (toString number).length, ?_⟩
  rw [Text.padded, String.toList_append, String.toList_ofList]
  exact congrArg _ Nat.toList_repr

/-- A numeral says its number, however many zeros stand in front. -/
theorem ofDigitChars_padded (width number : Nat) :
    Nat.ofDigitChars 10 (Text.padded width number).toList 0 = number := by
  obtain ⟨zeros, padded⟩ := toList_padded width number
  rw [padded, Nat.ofDigitChars_append, Nat.ofDigitChars_replicate_zero, Nat.mul_zero,
    Nat.ofDigitChars_ten_toDigits]

theorem fileName_inj (same : fileName rank = fileName other) : rank = other := by
  have numerals : Text.padded 6 rank.toNat = Text.padded 6 other.toNat :=
    String.append_left_inj _ |>.mp same
  have numbers := congrArg (fun text : String => Nat.ofDigitChars 10 text.toList 0) numerals
  simp only [ofDigitChars_padded] at numbers
  exact UInt32.toNat_inj.mp numbers

theorem draftName_ne : draftName rank ≠ fileName other := by
  intro same
  have last := congrArg (fun text : String => text.toList.getLast?) same
  simp [draftName, fileName] at last

theorem draftName_inj (same : draftName rank = draftName other) : rank = other :=
  fileName_inj (String.append_left_inj _ |>.mp same)

/-- The names of different ranks are different, whether their files are being written or not. -/
theorem not_mem_names (differs : other ≠ rank) :
    draftName other ∉ [draftName rank, fileName rank] ∧
      fileName other ∉ [draftName rank, fileName rank] := by
  simp only [List.mem_cons, List.not_mem_nil, or_false, not_or]
  exact ⟨⟨fun same => differs (draftName_inj same), draftName_ne⟩,
    draftName_ne.symm, fun same => differs (fileName_inj same)⟩

theorem isDigit_padded {width number : Nat} {char : Char}
    (inside : char ∈ (Text.padded width number).toList) : char.isDigit = true := by
  obtain ⟨zeros, padded⟩ := toList_padded width number
  rw [padded] at inside
  rcases List.mem_append.mp inside with zero | digit
  · rw [List.eq_of_mem_replicate zero]
    rfl
  · exact Nat.isDigit_of_mem_toDigits (by decide) (by decide) digit

/-- What begins with a numeral of a rank and ends otherwise is a name. -/
theorem isName_padded {ending : String} (unslashed : '/' ∉ ending.toList)
    (long : 2 < ending.toList.length) : Path.IsName (Text.padded 6 rank.toNat ++ ending) := by
  have length : 2 < (Text.padded 6 rank.toNat ++ ending).toList.length := by
    rw [String.toList_append, List.length_append]
    omega
  refine ⟨fun inside => ?_, fun same => ?_, fun same => ?_, fun same => ?_⟩
  · rw [String.toList_append] at inside
    rcases List.mem_append.mp inside with digit | inside
    · exact absurd (isDigit_padded digit) (by decide)
    · exact unslashed inside
  all_goals
    rw [same] at length
    exact absurd length (by decide)

theorem isName_fileName : Path.IsName (fileName rank) := isName_padded (by decide) (by decide)

theorem isName_draftName : Path.IsName (draftName rank) := by
  rw [draftName, fileName, String.append_assoc]
  exact isName_padded (by decide) (by decide)

theorem draftPath_eq (directory : String) (rank : UInt32) :
    draftPath directory rank = Path.join directory (draftName rank) := by
  rw [draftPath, path, Path.join, Path.join]
  split
  · rw [draftName, String.append_assoc]
  · rw [draftName, String.append_assoc]

end Segment

end RankMail
