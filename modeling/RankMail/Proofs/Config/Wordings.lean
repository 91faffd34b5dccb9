import RankMail.Config.Json
import RankMail.Proofs.Json.Members

set_option autoImplicit false

/-! # Wordings of a configuration

One configuration has many texts. The members of each of its objects may come in any order, blanks
may stand between the tokens, and all members but the segment size may be left out if they say what
is standard. A `Wording` says which of these it is, and `Config.toJson` is one of them, written
without blanks. Each is read as the configuration it is a wording of.
-/

namespace RankMail

open Json Json.Reader

/-! ## Members -/

inductive WaitStrategy.Field where
  | kind
  | amount
deriving Repr, DecidableEq

inductive Config.Field where
  | segmentSize
  | capacities
  | growBatch
  | wait
  | removeOnClose
  | lockMemory
deriving Repr, DecidableEq

/-- In which order the members are written, and which ones of the configuration itself. -/
structure Wording where
  fields : List Config.Field
  capacities : List SizeClass
  wait : List WaitStrategy.Field

/-- All members, in the order in which they are declared. -/
def Wording.declared : Wording where
  fields := [.segmentSize, .capacities, .growBatch, .wait, .removeOnClose, .lockMemory]
  capacities := SizeClass.all
  wait := [.kind, .amount]

def Capacities.member (capacities : Capacities) : SizeClass → Member
  | .user => ⟨"user", [.number capacities.user.toNat]⟩
  | .eager => ⟨"eager", [.number capacities.eager.toNat]⟩
  | .maxSend => ⟨"max_send", [.number capacities.maxSend.toNat]⟩

def WaitStrategy.member : WaitStrategy → WaitStrategy.Field → Member
  | hybrid _, .kind => ⟨"type", [.text "Hybrid"]⟩
  | hybrid spin, .amount => ⟨"spin_us", [.number spin.toNat]⟩
  | busyPoll _, .kind => ⟨"type", [.text "BusyPoll"]⟩
  | busyPoll interval, .amount => ⟨"interval_us", [.number interval.toNat]⟩

namespace Config

def member (config : Config) (wording : Wording) : Field → Member
  | .segmentSize => ⟨"segment_size", [.number config.segmentSize.toNat]⟩
  | .capacities =>
      ⟨"size_classes", objectTokens (wording.capacities.map config.capacities.member)⟩
  | .growBatch => ⟨"grow_batch", [.number config.growBatch.toNat]⟩
  | .wait => ⟨"wait_strategy", objectTokens (wording.wait.map config.wait.member)⟩
  | .removeOnClose => ⟨"unlink_on_drop", [.truth config.removeOnClose]⟩
  | .lockMemory => ⟨"lock_memory", [.truth config.lockMemory]⟩

def tokens (config : Config) (wording : Wording) : List Token :=
  objectTokens (wording.fields.map (config.member wording))

/-- A member that says what is standard. -/
def IsStandard (config : Config) : Field → Prop
  | .segmentSize => False
  | .capacities => config.capacities = .standard
  | .growBatch => config.growBatch = standardGrowBatch
  | .wait => config.wait = standardWait
  | .removeOnClose => config.removeOnClose = true
  | .lockMemory => config.lockMemory = false

/-- A wording of a configuration: each member is there once, or is left out as standard. -/
structure Words (config : Config) (wording : Wording) : Prop where
  capacities : wording.capacities.Perm SizeClass.all
  wait : wording.wait.Perm [.kind, .amount]
  once : wording.fields.Nodup
  omitted : ∀ field, field ∉ wording.fields → config.IsStandard field

end Config

/-! ## Writing -/

def Json.Member.chars (member : Member) : List Char :=
  (Token.text member.name).chars ++ ':' :: member.value.flatMap Token.chars

/-- Without blanks, members are written with a comma between any two. -/
theorem flatMap_memberTokens (members : List Member) :
    (memberTokens true members).flatMap Token.chars =
      [','].intercalate (members.map Member.chars) := by
  have chars : ∀ member : Member, ∀ rest : List Token,
      (Token.text member.name :: .colon :: (member.value ++ rest)).flatMap Token.chars =
        member.chars ++ rest.flatMap Token.chars := by
    intro member rest
    simp [Member.chars, Token.chars]
  cases members with
  | nil => rfl
  | cons first rest =>
      rw [memberTokens, chars]
      induction rest generalizing first with
      | nil => simp [memberTokens]
      | cons next rest ih =>
          rw [List.map_cons, List.map_cons, List.intercalate_cons_cons, ← List.map_cons, ← ih,
            memberTokens, List.flatMap_cons, chars]
          simp [Token.chars]

theorem toList_object {texts : List String} {members : List Member}
    (same : texts.map String.toList = members.map Member.chars) :
    (object texts).toList = (objectTokens members).flatMap Token.chars := by
  rw [object, String.toList_append, String.toList_append, String.toList_intercalate, same,
    objectTokens, List.flatMap_cons, List.flatMap_append, flatMap_memberTokens]
  simp [Token.chars]

theorem toList_member (name value : String) (tokens : List Token)
    (same : value.toList = tokens.flatMap Token.chars) :
    (RankMail.member name value).toList = Member.chars ⟨name, tokens⟩ := by
  simp [RankMail.member, Member.chars, Token.chars, same]

theorem toList_number (value : Nat) :
    (toString value).toList = [Token.number value].flatMap Token.chars := by
  simp [Token.chars]

theorem toList_uInt64 (value : UInt64) :
    (toString value).toList = [Token.number value.toNat].flatMap Token.chars :=
  toList_number value.toNat

theorem toList_uInt32 (value : UInt32) :
    (toString value).toList = [Token.number value.toNat].flatMap Token.chars :=
  toList_number value.toNat

theorem toList_truth (value : Bool) :
    (truth value).toList = [Token.truth value].flatMap Token.chars := by
  cases value <;> rfl

theorem Capacities.toList_toJson (capacities : Capacities) :
    capacities.toJson.toList =
      (objectTokens (SizeClass.all.map capacities.member)).flatMap Token.chars := by
  refine toList_object ?_
  simp only [List.map_cons, List.map_nil, SizeClass.all, Capacities.member]
  rw [toList_member _ _ _ (toList_uInt64 capacities.user),
    toList_member _ _ _ (toList_uInt64 capacities.eager),
    toList_member _ _ _ (toList_uInt64 capacities.maxSend)]

theorem WaitStrategy.toList_toJson (wait : WaitStrategy) :
    wait.toJson.toList =
      (objectTokens ([Field.kind, .amount].map wait.member)).flatMap Token.chars := by
  cases wait with
  | hybrid spin =>
      refine toList_object ?_
      simp only [List.map_cons, List.map_nil, WaitStrategy.member]
      rw [toList_member _ _ [.text "Hybrid"] rfl,
        toList_member _ _ _ (toList_uInt32 spin)]
  | busyPoll interval =>
      refine toList_object ?_
      simp only [List.map_cons, List.map_nil, WaitStrategy.member]
      rw [toList_member _ _ [.text "BusyPoll"] rfl,
        toList_member _ _ _ (toList_uInt64 interval)]

/-- A configuration is written with all members as they are declared, without blanks. -/
theorem Config.toList_toJson (config : Config) :
    config.toJson.toList = (config.tokens .declared).flatMap Token.chars := by
  refine toList_object ?_
  simp only [List.map_cons, List.map_nil, Wording.declared, Config.member]
  rw [toList_member _ _ _ (toList_uInt64 config.segmentSize),
    toList_member _ _ _ config.capacities.toList_toJson,
    toList_member _ _ _ (toList_uInt64 config.growBatch),
    toList_member _ _ _ config.wait.toList_toJson,
    toList_member _ _ _ (toList_truth config.removeOnClose),
    toList_member _ _ _ (toList_truth config.lockMemory)]
  rfl

end RankMail
