import RankMail.Power
import RankMail.Text.Numeral

set_option autoImplicit false

/-! # Offsets

Each process maps a segment at an address of its own, so what is stored in shared memory is never
an address but an `Offset`: the rank of a segment and a byte position in it. It is stored as one
64-bit word, the rank in the upper half. Read as a signed number, the word of a rank that may be
used is never negative, and the one negative word `free` marks an empty end of a queue or an
unlinked fragment.

Every word is the word of exactly one offset: `ofWord_word` and `word_ofWord`.
-/

namespace RankMail

/-- A byte position in the segment of a rank. -/
structure Offset where
  rank : UInt32
  position : UInt32
deriving Repr, DecidableEq

/-- The greatest rank whose offsets are not negative as signed words. -/
def maxRank : Nat := 2 ^ 31 - 1

namespace Offset

/-- The mark of an empty queue end or of an unlinked fragment; as a signed word it is -2. -/
def free : Offset := ⟨0xFFFFFFFF, 0xFFFFFFFE⟩

instance : Inhabited Offset := ⟨free⟩

def isFree (offset : Offset) : Bool := offset == free

def word (offset : Offset) : Nat := offset.rank.toNat * 2 ^ 32 + offset.position.toNat

def ofWord (word : Nat) : Offset := ⟨UInt32.ofNat (word / 2 ^ 32), UInt32.ofNat word⟩

/-- The stored word as a signed number. -/
def raw (offset : Offset) : Int :=
  if offset.word < 2 ^ 63 then offset.word else (offset.word : Int) - 2 ^ 64

/-- The offset whose signed word is a given number, modulo 2 ^ 64. -/
def ofRaw (raw : Int) : Offset := ofWord (raw % 2 ^ 64).toNat

/-- The offset of a rank that may be used. -/
def ofRank? (rank position : UInt32) : Option Offset :=
  if rank.toNat ≤ maxRank then some ⟨rank, position⟩ else none

def describe (offset : Offset) : String :=
  if offset.isFree then "RelativeOffset(FREE)"
  else "RelativeOffset(" ++ toString offset.rank.toNat ++ ":" ++ Text.hex offset.position.toNat
    ++ ")"

@[simp] theorem isFree_free : free.isFree = true := rfl

theorem isFree_iff {offset : Offset} : offset.isFree = true ↔ offset = free := by
  simp [isFree]

theorem word_lt (offset : Offset) : offset.word < 2 ^ 64 := by
  have rank := offset.rank.toNat_lt
  have position := offset.position.toNat_lt
  unfold word
  omega

@[simp] theorem ofWord_word (offset : Offset) : ofWord offset.word = offset := by
  have rank := offset.rank.toNat_lt
  have position := offset.position.toNat_lt
  have high : offset.word / 2 ^ 32 = offset.rank.toNat := by unfold word; omega
  have low : UInt32.ofNat offset.word = offset.position := by
    apply UInt32.toNat_inj.mp
    rw [UInt32.toNat_ofNat']
    unfold word
    omega
  rw [ofWord, high, low]
  simp

theorem word_ofWord {word : Nat} (small : word < 2 ^ 64) : (ofWord word).word = word := by
  simp only [ofWord, Offset.word, UInt32.toNat_ofNat']
  omega

@[simp] theorem ofRaw_raw (offset : Offset) : ofRaw offset.raw = offset := by
  have small := offset.word_lt
  have back : (offset.raw % 2 ^ 64).toNat = offset.word := by
    unfold raw
    split <;> omega
  rw [ofRaw, back, ofWord_word]

end Offset

end RankMail
