import RankMail.Proofs.Config.Wordings

set_option autoImplicit false

/-! # Configurations read back

What has been written of a configuration is read as that configuration, whatever the order of the
members, the blanks between the tokens and the members left out as standard.

The members of capacities and of a configuration go through drafts. A draft is told by the members
that have been read (`Capacities.draftOf`, `Config.draftOf`), and so does not depend on their order.
The kind of a wait strategy may be read before the other member or after it, which is kept until
then.
-/

namespace RankMail

open Json Json.Reader

/-! ## Numbers -/

theorem Json.Reader.size_reads (value : UInt64) : Reads size [.number value.toNat] value := by
  intro cursor rest ends spaced
  have fits : value.toNat ≤ 2 ^ 64 - 1 := Nat.le_sub_one_of_lt value.toNat_lt
  obtain ⟨after, reads, gone⟩ := unsigned_reads "usize" fits (by decide) _ _ ends spaced
  refine ⟨after, ?_, gone⟩
  rw [size, bind_eq reads, UInt64.ofNat_toNat]
  rfl

theorem Json.Reader.Reads.map {α β : Type} {reader : Reader α} {tokens : List Token} {value : α}
    (reads : Reads reader tokens value) (put : α → β) :
    Reads (do pure (put (← reader))) tokens (put value) := by
  intro cursor rest ends spaced
  obtain ⟨after, done, gone⟩ := reads _ _ ends spaced
  exact ⟨after, (bind_eq done _).trans rfl, gone⟩

/-! ## Capacities -/

namespace Capacities

variable (capacities : Capacities)

/-- The draft of capacities of which some have been read. -/
def draftOf (done : List SizeClass) : CapacitiesDraft where
  user := if .user ∈ done then some capacities.user else none
  eager := if .eager ∈ done then some capacities.eager else none
  maxSend := if .maxSend ∈ done then some capacities.maxSend else none

theorem member_reads {done : List SizeClass} {sizeClass : SizeClass} (away : sizeClass ∉ done) :
    ∃ slot, slots.find? (fun slot => slot.name == (capacities.member sizeClass).name) = some slot ∧
      slot.taken (capacities.draftOf done) = false ∧
      Reads (slot.read (capacities.draftOf done)) (capacities.member sizeClass).value
        (capacities.draftOf (done ++ [sizeClass])) := by
  cases sizeClass with
  | user =>
      refine ⟨_, rfl, by simp [draftOf, away], ?_⟩
      have longer : capacities.draftOf (done ++ [.user]) =
          { capacities.draftOf done with user := some capacities.user } := by simp [draftOf]
      rw [longer]
      exact (size_reads capacities.user).map fun read =>
        { capacities.draftOf done with user := some read }
  | eager =>
      refine ⟨_, rfl, by simp [draftOf, away], ?_⟩
      have longer : capacities.draftOf (done ++ [.eager]) =
          { capacities.draftOf done with eager := some capacities.eager } := by simp [draftOf]
      rw [longer]
      exact (size_reads capacities.eager).map fun read =>
        { capacities.draftOf done with eager := some read }
  | maxSend =>
      refine ⟨_, rfl, by simp [draftOf, away], ?_⟩
      have longer : capacities.draftOf (done ++ [.maxSend]) =
          { capacities.draftOf done with maxSend := some capacities.maxSend } := by simp [draftOf]
      rw [longer]
      exact (size_reads capacities.maxSend).map fun read =>
        { capacities.draftOf done with maxSend := some read }

theorem member_plain (sizeClass : SizeClass) :
    isPlainText (capacities.member sizeClass).name = true := by
  cases sizeClass <;> simp only [Capacities.member] <;> decide

/-- Capacities are read from their members in any order. -/
theorem read_reads {order : List SizeClass} (all : order.Perm SizeClass.all) (depth : Nat) :
    Reads (read (depth + 2)) (objectTokens (order.map capacities.member)) capacities := by
  have once : order.Nodup := all.nodup_iff.mpr (by decide)
  have whole : ∀ sizeClass, sizeClass ∈ order := fun sizeClass =>
    all.mem_iff.mpr (SizeClass.mem_all sizeClass)
  have fills := fills_of_fields capacities.member capacities.draftOf capacities.member_plain
    capacities.member_reads [] order once
  refine record_reads fun cursor rest spaced => ?_
  obtain ⟨after, reads, gone⟩ := members_reads fills _ _ spaced
  refine ⟨after, (bind_eq reads _).trans ?_, gone⟩
  simp only [draftOf, List.nil_append, whole, if_true]
  rfl

end Capacities

/-! ## Wait strategies -/

namespace WaitStrategy

variable {cursor : Cursor} {isFirst : Bool} {member : Member} {members : List Member}
  {rest : List Token} {draft : Draft}

def kindOf : WaitStrategy → Kind
  | hybrid _ => .hybrid
  | busyPoll _ => .busyPoll

def amount : WaitStrategy → Value
  | hybrid spin => .number (.unsigned spin.toNat)
  | busyPoll interval => .number (.unsigned interval.toNat)

theorem member_plain (wait : WaitStrategy) (field : Field) :
    isPlainText (wait.member field).name = true := by
  cases wait <;> cases field <;> simp only [WaitStrategy.member] <;> decide

theorem plainHybrid : isPlainText "Hybrid" = true := by decide

theorem plainBusyPoll : isPlainText "BusyPoll" = true := by decide

theorem readKind_reads (wait : WaitStrategy) :
    Reads readKind (wait.member .kind).value wait.kindOf := by
  intro cursor rest _ spaced
  cases wait with
  | hybrid spin =>
      obtain ⟨shown, tail, peeks, left, spacedRest⟩ := peekToken_eq spaced
      obtain ⟨after, reads, gone⟩ := text_of_token plainHybrid left spacedRest
      refine ⟨after, (bind_eq peeks _).trans (placed_eq ?_), gone⟩
      exact (bind_eq (skip_eq shown) _).trans ((bind_eq reads _).trans rfl)
  | busyPoll interval =>
      obtain ⟨shown, tail, peeks, left, spacedRest⟩ := peekToken_eq spaced
      obtain ⟨after, reads, gone⟩ := text_of_token plainBusyPoll left spacedRest
      refine ⟨after, (bind_eq peeks _).trans (placed_eq ?_), gone⟩
      exact (bind_eq (skip_eq shown) _).trans ((bind_eq reads _).trans rfl)

theorem membersLoop_kind (wait : WaitStrategy) (depth steps : Nat) (unknown : draft.kind = none)
    (spaced : Spaced (memberTokens isFirst (wait.member .kind :: members) ++ .closing :: rest)
      cursor.rest) :
    ∃ after, membersLoop depth (steps + 1) isFirst draft cursor =
        membersLoop depth steps false { draft with kind := some wait.kindOf } after ∧
      Spaced (memberTokens false members ++ .closing :: rest) after.rest := by
  obtain ⟨named, readsName, spacedName⟩ := nextName_eq (wait.member_plain .kind) spaced
  obtain ⟨parted, readsColon, spacedColon⟩ := colon_eq spacedName
  obtain ⟨after, reads, gone⟩ := wait.readKind_reads _ _ (ends_members members rest) spacedColon
  have isType : (wait.member .kind).name = "type" := by cases wait <;> rfl
  refine ⟨after, ?_, gone⟩
  rw [membersLoop, bind_eq readsName, isType]
  simp only [unknown, Option.isSome_none, Bool.false_eq_true, if_false]
  rw [bind_eq readsColon, bind_eq reads]

theorem membersLoop_amount (wait : WaitStrategy) (depth steps : Nat)
    (spaced : Spaced (memberTokens isFirst (wait.member .amount :: members) ++ .closing :: rest)
      cursor.rest) :
    ∃ after, membersLoop (depth + 1) (steps + 1) isFirst draft cursor =
        membersLoop (depth + 1) steps false
          { draft with others := draft.others ++ [((wait.member .amount).name, wait.amount)] }
          after ∧
      Spaced (memberTokens false members ++ .closing :: rest) after.rest := by
  obtain ⟨named, readsName, spacedName⟩ := nextName_eq (wait.member_plain .amount) spaced
  obtain ⟨parted, readsColon, spacedColon⟩ := colon_eq spacedName
  have kept : Reads (value (depth + 1)) (wait.member .amount).value wait.amount := by
    cases wait with
    | hybrid spin => exact value_number_reads (Nat.lt_trans spin.toNat_lt (by decide)) depth
    | busyPoll interval => exact value_number_reads interval.toNat_lt depth
  obtain ⟨after, reads, gone⟩ := kept _ _ (ends_members members rest) spacedColon
  have other : (wait.member .amount).name ≠ "type" := by cases wait <;> simp [WaitStrategy.member]
  refine ⟨after, ?_, gone⟩
  have goesOn : (do
      colon
      let other ← value (depth + 1)
      membersLoop (depth + 1) steps false
        { draft with others := draft.others ++ [((wait.member .amount).name, other)] } :
          Reader Draft) named =
      membersLoop (depth + 1) steps false
        { draft with others := draft.others ++ [((wait.member .amount).name, wait.amount)] }
        after := by
    rw [bind_eq readsColon, bind_eq reads]
  rw [membersLoop, bind_eq readsName]
  refine Eq.trans (congrFun ?_ named) goesOn
  split
  · next none => cases none
  · next isType => exact absurd (Option.some.inj isType) other
  · next name _ same =>
      obtain rfl := Option.some.inj same
      rfl

theorem membersLoop_end (depth steps : Nat)
    (spaced : Spaced (.closing :: rest) cursor.rest) :
    ∃ after, membersLoop depth (steps + 1) isFirst draft cursor = .ok draft after ∧
      Spaced (.closing :: rest) after.rest := by
  obtain ⟨after, reads, gone⟩ := nextName_end spaced
  exact ⟨after, (bind_eq reads _).trans rfl, gone⟩

theorem eq_of_perm_pair {order : List Field} (both : order.Perm [.kind, .amount]) :
    order = [.kind, .amount] ∨ order = [.amount, .kind] := by
  have length := both.length_eq
  have once : order.Nodup := both.nodup_iff.mpr (by decide)
  match order, length with
  | [one, other], _ => revert once; cases one <;> cases other <;> decide

/-- The kind and the other member are found in either order. -/
theorem readObject_reads (wait : WaitStrategy) {order : List Field}
    (both : order.Perm [.kind, .amount]) (depth : Nat) :
    ReadsInside (readObject (depth + 1)) (order.map wait.member)
      (wait.kindOf, .object [((wait.member .amount).name, wait.amount)]) := by
  intro cursor rest spaced
  have counted : left cursor = .ok cursor.rest.length cursor := rfl
  -- There are characters enough for the two members and the end of the object.
  obtain ⟨steps, enough⟩ : ∃ steps, cursor.rest.length + 1 = steps + 1 + 1 + 1 := by
    have tokens := length_le_memberTokens true (order.map wait.member)
    have chars := spaced.length_le
    have two := both.length_eq
    simp only [List.length_append, List.length_map, List.length_cons, List.length_nil] at *
    exact ⟨cursor.rest.length - 2, by omega⟩
  have draft : ∃ after, membersLoop (depth + 1) (steps + 1 + 1 + 1) true ⟨none, []⟩ cursor =
      .ok ⟨some wait.kindOf, [((wait.member .amount).name, wait.amount)]⟩ after ∧
      Spaced (.closing :: rest) after.rest := by
    rcases eq_of_perm_pair both with rfl | rfl
    · obtain ⟨one, reads, gone⟩ := membersLoop_kind wait (depth + 1) (steps + 1 + 1)
        (show Draft.kind ⟨none, []⟩ = none from rfl) spaced
      obtain ⟨two, readsToo, goneToo⟩ := membersLoop_amount wait depth (steps + 1) gone
      obtain ⟨after, ends, done⟩ := membersLoop_end (depth + 1) steps goneToo
      exact ⟨after, reads.trans (readsToo.trans ends), done⟩
    · obtain ⟨one, reads, gone⟩ := membersLoop_amount wait depth (steps + 1 + 1) spaced
      obtain ⟨two, readsToo, goneToo⟩ := membersLoop_kind wait (depth + 1) (steps + 1)
        (show Draft.kind ⟨none, [(_, _)]⟩ = none from rfl) gone
      obtain ⟨after, ends, done⟩ := membersLoop_end (depth + 1) steps goneToo
      exact ⟨after, reads.trans (readsToo.trans ends), done⟩
  obtain ⟨after, reads, gone⟩ := draft
  refine ⟨after, (bind_eq counted _).trans ?_, gone⟩
  rw [enough, bind_eq reads]
  rfl

theorem ofKept_eq (wait : WaitStrategy) (cursor : Cursor) :
    wait.kindOf.ofKept (.object [((wait.member .amount).name, wait.amount)]) cursor =
      .ok wait cursor := by
  cases wait with
  | hybrid spin =>
      have fits : spin.toNat ≤ 2 ^ 32 - 1 := Nat.le_sub_one_of_lt spin.toNat_lt
      have found : Kind.hybrid.ofValue (.number (.unsigned spin.toNat)) cursor =
          .ok (.hybrid spin) cursor := by
        have value : unsignedValue (2 ^ 32 - 1) "u32" (.number (.unsigned spin.toNat)) cursor =
            .ok spin.toNat cursor := by
          rw [unsignedValue, unsignedOf, if_pos fits]
          rfl
        rw [Kind.ofValue, bind_eq value, UInt32.ofNat_toNat]
        rfl
      exact (bind_eq found _).trans rfl
  | busyPoll interval =>
      have fits : interval.toNat ≤ 2 ^ 64 - 1 := Nat.le_sub_one_of_lt interval.toNat_lt
      have found : Kind.busyPoll.ofValue (.number (.unsigned interval.toNat)) cursor =
          .ok (.busyPoll interval) cursor := by
        have value : unsignedValue (2 ^ 64 - 1) "u64" (.number (.unsigned interval.toNat)) cursor =
            .ok interval.toNat cursor := by
          rw [unsignedValue, unsignedOf, if_pos fits]
          rfl
        rw [Kind.ofValue, bind_eq value, UInt64.ofNat_toNat]
        rfl
      exact (bind_eq found _).trans rfl

/-- A wait strategy is read from its two members in either order. -/
theorem read_reads (wait : WaitStrategy) {order : List Field}
    (both : order.Perm [.kind, .amount]) (depth : Nat) :
    Reads (read (depth + 2)) (objectTokens (order.map wait.member)) wait := by
  intro cursor rest ends spaced
  obtain ⟨after, reads, gone⟩ := record_reads (readObject_reads wait both depth) _ _ ends spaced
  exact ⟨after, (bind_eq reads _).trans (wait.ofKept_eq after), gone⟩

end WaitStrategy

/-! ## Configurations -/

namespace Config

variable (config : Config)

def draftOf (done : List Field) : ConfigDraft where
  segmentSize := if .segmentSize ∈ done then some config.segmentSize else none
  capacities := if .capacities ∈ done then some config.capacities else none
  growBatch := if .growBatch ∈ done then some config.growBatch else none
  wait := if .wait ∈ done then some config.wait else none
  removeOnClose := if .removeOnClose ∈ done then some config.removeOnClose else none
  lockMemory := if .lockMemory ∈ done then some config.lockMemory else none

variable {config} {wording : Wording}

theorem member_reads (words : config.Words wording) (depth : Nat) {done : List Field}
    {field : Field} (away : field ∉ done) :
    ∃ slot,
      (slots (depth + 2)).find? (fun slot => slot.name == (config.member wording field).name) =
        some slot ∧
      slot.taken (config.draftOf done) = false ∧
      Reads (slot.read (config.draftOf done)) (config.member wording field).value
        (config.draftOf (done ++ [field])) := by
  cases field with
  | segmentSize =>
      refine ⟨_, rfl, by simp [draftOf, away], ?_⟩
      have longer : config.draftOf (done ++ [.segmentSize]) =
          { config.draftOf done with segmentSize := some config.segmentSize } := by simp [draftOf]
      rw [longer]
      exact (size_reads config.segmentSize).map fun read =>
        { config.draftOf done with segmentSize := some read }
  | capacities =>
      refine ⟨_, rfl, by simp [draftOf, away], ?_⟩
      have longer : config.draftOf (done ++ [.capacities]) =
          { config.draftOf done with capacities := some config.capacities } := by simp [draftOf]
      rw [longer]
      exact (config.capacities.read_reads words.capacities depth).map fun read =>
        { config.draftOf done with capacities := some read }
  | growBatch =>
      refine ⟨_, rfl, by simp [draftOf, away], ?_⟩
      have longer : config.draftOf (done ++ [.growBatch]) =
          { config.draftOf done with growBatch := some config.growBatch } := by simp [draftOf]
      rw [longer]
      exact (size_reads config.growBatch).map fun read =>
        { config.draftOf done with growBatch := some read }
  | wait =>
      refine ⟨_, rfl, by simp [draftOf, away], ?_⟩
      have longer : config.draftOf (done ++ [.wait]) =
          { config.draftOf done with wait := some config.wait } := by simp [draftOf]
      rw [longer]
      exact (config.wait.read_reads words.wait depth).map fun read =>
        { config.draftOf done with wait := some read }
  | removeOnClose =>
      refine ⟨_, rfl, by simp [draftOf, away], ?_⟩
      have longer : config.draftOf (done ++ [.removeOnClose]) =
          { config.draftOf done with removeOnClose := some config.removeOnClose } := by
        simp [draftOf]
      rw [longer]
      exact (boolean_reads config.removeOnClose).map fun read =>
        { config.draftOf done with removeOnClose := some read }
  | lockMemory =>
      refine ⟨_, rfl, by simp [draftOf, away], ?_⟩
      have longer : config.draftOf (done ++ [.lockMemory]) =
          { config.draftOf done with lockMemory := some config.lockMemory } := by simp [draftOf]
      rw [longer]
      exact (boolean_reads config.lockMemory).map fun read =>
        { config.draftOf done with lockMemory := some read }

theorem member_plain (config : Config) (wording : Wording) (field : Field) :
    isPlainText (config.member wording field).name = true := by
  cases field <;> simp only [Config.member] <;> decide

/-- A member that may be left out only if it is standard is known in either case. -/
theorem getD_given {Value : Type} {fields : List Field} {field : Field} {value standard : Value}
    (omitted : field ∉ fields → value = standard) :
    (if field ∈ fields then some value else none).getD standard = value := by
  split
  case isTrue => rfl
  case isFalse missing => exact (omitted missing).symm

/-- What is left out is standard, so the draft says as much as the configuration. -/
theorem ofDraft_eq (words : config.Words wording) :
    ofDraft config.segmentSize (config.draftOf wording.fields) = config := by
  have omitted := words.omitted
  cases config
  simp only [ofDraft, draftOf, Config.mk.injEq, true_and]
  exact ⟨getD_given (omitted .capacities), getD_given (omitted .growBatch),
    getD_given (omitted .wait), getD_given (omitted .removeOnClose),
    getD_given (omitted .lockMemory)⟩

/-- A configuration is read from any wording of it. -/
theorem read_reads (words : config.Words wording) (depth : Nat) :
    Reads (read (depth + 3)) (config.tokens wording) config := by
  have fills := fills_of_fields (config.member wording) config.draftOf
    (config.member_plain wording) (fun away => member_reads words depth away) []
    wording.fields words.once
  have given : Field.segmentSize ∈ wording.fields :=
    Decidable.byContradiction fun missing => words.omitted _ missing
  refine record_reads fun cursor rest spaced => ?_
  obtain ⟨after, reads, gone⟩ := members_reads fills _ _ spaced
  refine ⟨after, (bind_eq reads _).trans ?_, gone⟩
  rw [List.nil_append]
  have size : (config.draftOf wording.fields).segmentSize = some config.segmentSize := if_pos given
  rw [size, bind_eq (required_eq ..), ofDraft_eq words]
  rfl

theorem words_declared (config : Config) : config.Words .declared where
  capacities := .refl _
  wait := .refl _
  once := by decide
  omitted field missing := by
    cases field <;> exact absurd (by decide) missing

/-- **What is written is read back.** The text of a valid configuration is read as that
configuration, and so is every text that differs from it in the order of members at any level, in
blanks between the tokens, and in members that are left out because they say what is standard. -/
theorem ofJson_toJson (valid : config.validate = .ok ()) :
    ofJson config.toJson = .ok config ∧
    config.toJson.toList = (config.tokens .declared).flatMap Token.chars ∧
    ∀ (wording : Wording) (text : String), config.Words wording →
      Spaced (config.tokens wording) text.toList → ofJson text = .ok config := by
  have reads : ∀ (wording : Wording) (text : String), config.Words wording →
      Spaced (config.tokens wording) text.toList → ofJson text = .ok config := by
    intro wording text words spaced
    have whole : Reader.run (read depthLimit) text = .ok config :=
      run_eq (read_reads words 125) spaced
    rw [ofJson, whole]
    simp only [valid]
    rfl
  have written : Spaced (config.tokens .declared) config.toJson.toList := by
    rw [config.toList_toJson]
    exact .of_flatMap (List.forall_mem_nil _) _
  exact ⟨reads _ _ config.words_declared written, config.toList_toJson, reads⟩

/-- The greatest numbers that there are, and a strategy that is not standard. -/
def extreme : Config :=
  { Config.standard with growBatch := 0xFFFFFFFFFFFFFFFF, wait := .busyPoll 0xFFFFFFFFFFFFFFFF }

/-- Some of its members, the kind of the strategy behind the interval. -/
def extremeWording : Wording where
  fields := [.wait, .growBatch, .segmentSize]
  capacities := [.maxSend, .user, .eager]
  wait := [.amount, .kind]

/-- A text of these members, with a blank before each token. -/
def extremeText : String :=
  " \x7b \"wait_strategy\" : \x7b \"interval_us\" : 18446744073709551615 , " ++
    "\"type\" : \"BusyPoll\" \x7d , \"grow_batch\" : 18446744073709551615 , " ++
    "\"segment_size\" : 4194304 \x7d"

theorem ofJson_toJson_extreme :
    extreme.validate = .ok () ∧ ofJson extreme.toJson = .ok extreme ∧
      ofJson extremeText = .ok extreme := by
  have valid : extreme.validate = .ok () := by
    have accepted : extreme.validate.toOption = some () := by decide +kernel
    cases ends : extreme.validate with
    | ok => rfl
    | error fault =>
        rw [ends] at accepted
        cases accepted
  obtain ⟨same, _, reads⟩ := ofJson_toJson valid
  have words : extreme.Words extremeWording :=
    { capacities := by decide
      wait := by decide
      once := by decide
      omitted := by
        intro field missing
        cases field <;> first | rfl | exact absurd (by decide) missing }
  have blank : ∀ char ∈ [' '], isBlank char = true := List.forall_mem_singleton.mpr rfl
  have text : extremeText.toList =
      (extreme.tokens extremeWording).flatMap fun token => [' '] ++ token.chars := by
    decide +kernel
  exact ⟨valid, same, reads _ _ words (text ▸ .of_flatMap blank _)⟩

end Config

end RankMail
