import RankMail.Power

set_option autoImplicit false

/-! # Little-endian numbers

Numbers are stored with their least significant byte first. `LittleEndian.bytes` writes a number
in a given count of bytes, dropping what does not fit, and `LittleEndian.value` reads one back:
`value_bytes` says that the two agree up to the bytes that were kept.
-/

namespace RankMail.LittleEndian

/-- The lowest `width` bytes of a number, the lowest first. -/
def bytes : Nat → Nat → List UInt8
  | 0, _ => []
  | width + 1, number => UInt8.ofNat (number % 256) :: bytes width (number / 256)

/-- The number that a list of bytes stands for, the lowest byte first. -/
def value : List UInt8 → Nat
  | [] => 0
  | byte :: rest => byte.toNat + 256 * value rest

@[simp] theorem length_bytes (width number : Nat) : (bytes width number).length = width := by
  induction width generalizing number with
  | zero => rfl
  | succ width ih => simp [bytes, ih]

theorem value_bytes (width number : Nat) : value (bytes width number) = number % 256 ^ width := by
  induction width generalizing number with
  | zero => simp [bytes, value, Nat.mod_one]
  | succ width ih =>
      have low : (UInt8.ofNat (number % 256)).toNat = number % 256 := by
        simp
      rw [bytes, value, low, ih, Nat.pow_succ, Nat.mul_comm (256 ^ width) 256, Nat.mod_mul]

@[simp] theorem value_replicate_zero (count : Nat) : value (List.replicate count 0) = 0 := by
  induction count with
  | zero => rfl
  | succ count ih => simp [List.replicate_succ, value, ih]

theorem value_lt (data : List UInt8) : value data < 256 ^ data.length := by
  induction data with
  | nil => simp [value]
  | cons byte rest ih =>
      have small : byte.toNat < 256 := byte.toNat_lt
      have grow : 256 ^ (byte :: rest).length = 256 * 256 ^ rest.length := by
        simp [Nat.pow_succ, Nat.mul_comm]
      rw [grow, value]
      omega

end RankMail.LittleEndian
