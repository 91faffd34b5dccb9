import RankMail.Power

set_option autoImplicit false

/-! # Sparse byte strings

A segment may be four gigabytes long and hold a few hundred bytes that differ from zero. Its
contents are therefore kept in a binary tree over the addresses: a tree of depth `d` covers the
addresses below `2 ^ d`, and a `uniform` leaf stands for a whole block of equal bytes.
`Sparse` is such a tree together with its size; it answers zero beyond the addresses it covers
and grows when something is written there, so every address can be read and written.

The view of the structure is the function `Sparse.get`. What each operation does to it is said by
`get_empty`, `get_write` and `get_truncate`; `read_eq_map` says that a range is read byte by byte.
-/

namespace RankMail

/-- A block of bytes: all equal, or the lower half followed by the upper half. -/
inductive ByteTree where
  | uniform (byte : UInt8)
  | node (lower upper : ByteTree)
deriving Repr, DecidableEq

namespace ByteTree

def first : ByteTree → UInt8
  | uniform byte => byte
  | node lower _ => lower.first

def lower : ByteTree → ByteTree
  | uniform byte => uniform byte
  | node low _ => low

def upper : ByteTree → ByteTree
  | uniform byte => uniform byte
  | node _ high => high

/-! A block of depth `d` has `2 ^ d` bytes. The functions below are given that width as well, and
halve it on their way down. -/

/-- The byte at an address of a block. -/
def get : Nat → Nat → ByteTree → Nat → UInt8
  | 0, _, tree, _ => tree.first
  | _ + 1, _, uniform byte, _ => byte
  | depth + 1, width, node low high, address =>
      let half := width / 2
      if address < half then low.get depth half address
      else high.get depth half (address - half)

/-- The bytes at the addresses from `start` up to `stop`, followed by `rest`; the block itself
begins at `origin`. -/
def collect (start stop : Nat) : Nat → Nat → Nat → ByteTree → List UInt8 → List UInt8
  | 0, _, origin, tree, rest =>
      if start ≤ origin ∧ origin < stop then tree.first :: rest else rest
  | depth + 1, width, origin, tree, rest =>
      if stop ≤ origin ∨ origin + width ≤ start then rest
      else
        let half := width / 2
        collect start stop depth half origin tree.lower
          (collect start stop depth half (origin + half) tree.upper rest)

/-- Replaces the bytes at the addresses from `start` up to `stop` by those of `source`; the block
itself begins at `origin`. -/
def overwrite (source : Nat → UInt8) (start stop : Nat) : Nat → Nat → Nat → ByteTree → ByteTree
  | 0, _, origin, tree =>
      if start ≤ origin ∧ origin < stop then uniform (source origin) else tree
  | depth + 1, width, origin, tree =>
      if stop ≤ origin ∨ origin + width ≤ start then tree
      else
        let half := width / 2
        node (overwrite source start stop depth half origin tree.lower)
          (overwrite source start stop depth half (origin + half) tree.upper)

/-- Replaces the bytes at the addresses from `start` up to `stop` by one byte; a block that lies
within the range becomes a single leaf. -/
def fill (byte : UInt8) (start stop : Nat) : Nat → Nat → Nat → ByteTree → ByteTree
  | 0, _, origin, tree => if start ≤ origin ∧ origin < stop then uniform byte else tree
  | depth + 1, width, origin, tree =>
      if stop ≤ origin ∨ origin + width ≤ start then tree
      else if start ≤ origin ∧ origin + width ≤ stop then uniform byte
      else
        let half := width / 2
        node (fill byte start stop depth half origin tree.lower)
          (fill byte start stop depth half (origin + half) tree.upper)

theorem get_uniform (depth width : Nat) (byte : UInt8) (address : Nat) :
    (uniform byte).get depth width address = byte := by
  cases depth <;> rfl

theorem half_pow (depth : Nat) : 2 ^ (depth + 1) / 2 = 2 ^ depth := by omega

theorem get_succ (depth : Nat) (tree : ByteTree) (address : Nat) :
    tree.get (depth + 1) (2 ^ (depth + 1)) address =
      if address < 2 ^ depth then tree.lower.get depth (2 ^ depth) address
      else tree.upper.get depth (2 ^ depth) (address - 2 ^ depth) := by
  cases tree with
  | uniform byte => simp [get, lower, upper, get_uniform]
  | node low high => simp only [get, lower, upper, half_pow]

theorem get_overwrite (source : Nat → UInt8) (start stop depth : Nat) :
    ∀ (origin : Nat) (tree : ByteTree) (address : Nat), address < 2 ^ depth →
      (overwrite source start stop depth (2 ^ depth) origin tree).get depth (2 ^ depth) address =
        if start ≤ origin + address ∧ origin + address < stop then source (origin + address)
        else tree.get depth (2 ^ depth) address := by
  induction depth with
  | zero =>
      intro origin tree address inside
      obtain rfl : address = 0 := by simpa using inside
      simp only [overwrite, Nat.add_zero]
      split <;> rfl
  | succ depth ih =>
      intro origin tree address inside
      have double : 2 ^ (depth + 1) = 2 ^ depth + 2 ^ depth := by omega
      simp only [overwrite, half_pow]
      split
      · rename_i apart
        rw [if_neg (by omega)]
      · rw [get_succ, get_succ]
        simp only [lower, upper]
        split
        · rename_i low
          rw [ih _ _ _ low]
        · rename_i high
          rw [ih _ _ _ (by omega)]
          have shift : origin + 2 ^ depth + (address - 2 ^ depth) = origin + address := by omega
          rw [shift]

theorem get_fill (byte : UInt8) (start stop depth : Nat) :
    ∀ (origin : Nat) (tree : ByteTree) (address : Nat), address < 2 ^ depth →
      (fill byte start stop depth (2 ^ depth) origin tree).get depth (2 ^ depth) address =
        if start ≤ origin + address ∧ origin + address < stop then byte
        else tree.get depth (2 ^ depth) address := by
  induction depth with
  | zero =>
      intro origin tree address inside
      obtain rfl : address = 0 := by simpa using inside
      simp only [fill, Nat.add_zero]
      split <;> rfl
  | succ depth ih =>
      intro origin tree address inside
      have double : 2 ^ (depth + 1) = 2 ^ depth + 2 ^ depth := by omega
      simp only [fill, half_pow]
      split
      · rename_i apart
        rw [if_neg (by omega)]
      · split
        · rename_i within
          rw [get_uniform, if_pos (by omega)]
        · rw [get_succ, get_succ]
          simp only [lower, upper]
          split
          · rename_i low
            rw [ih _ _ _ low]
          · rename_i high
            rw [ih _ _ _ (by omega)]
            have shift : origin + 2 ^ depth + (address - 2 ^ depth) = origin + address := by omega
            rw [shift]

/-- What is collected are the bytes at those addresses of the range that the block covers. -/
theorem collect_eq (start stop depth : Nat) :
    ∀ (origin : Nat) (tree : ByteTree) (rest : List UInt8),
      collect start stop depth (2 ^ depth) origin tree rest =
        (List.range' (max start origin) (min stop (origin + 2 ^ depth) - max start origin)).map
          (fun address => tree.get depth (2 ^ depth) (address - origin)) ++ rest := by
  induction depth with
  | zero =>
      intro origin tree rest
      simp only [collect]
      split
      · rename_i inside
        have lone : min stop (origin + 2 ^ 0) - max start origin = 1 := by omega
        rw [lone]
        rfl
      · rename_i outside
        have none : min stop (origin + 2 ^ 0) - max start origin = 0 := by omega
        rw [none]
        rfl
  | succ depth ih =>
      intro origin tree rest
      have double : 2 ^ (depth + 1) = 2 ^ depth + 2 ^ depth := by omega
      simp only [collect, half_pow]
      split
      · rename_i apart
        have none : min stop (origin + 2 ^ (depth + 1)) - max start origin = 0 := by omega
        rw [none]
        rfl
      · rw [ih, ih, ← List.append_assoc]
        congr 1
        have halves : min stop (origin + 2 ^ (depth + 1)) - max start origin =
            (min stop (origin + 2 ^ depth) - max start origin) +
              (min stop (origin + 2 ^ depth + 2 ^ depth) - max start (origin + 2 ^ depth)) := by
          omega
        rw [halves, ← List.range'_append_1, List.map_append]
        congr 1
        · apply List.map_congr_left
          intro address inside
          have bounds := List.mem_range'_1.mp inside
          rw [get_succ, if_pos (by omega)]
        · by_cases empty : min stop (origin + 2 ^ depth + 2 ^ depth) -
              max start (origin + 2 ^ depth) = 0
          · rw [empty]
            rfl
          · have begins : max start origin + (min stop (origin + 2 ^ depth) - max start origin) =
                max start (origin + 2 ^ depth) := by omega
            rw [begins]
            apply List.map_congr_left
            intro address inside
            have bounds := List.mem_range'_1.mp inside
            rw [get_succ, if_neg (by omega)]
            congr 1
            omega

end ByteTree

/-- Bytes at all addresses, zero from some address on. -/
structure Sparse where
  depth : Nat
  /-- How many addresses the tree covers. -/
  width : Nat
  tree : ByteTree
  width_eq : width = 2 ^ depth
deriving Repr, DecidableEq

namespace Sparse

def empty : Sparse := ⟨0, 1, .uniform 0, rfl⟩

instance : Inhabited Sparse := ⟨empty⟩

def get (bytes : Sparse) (address : Nat) : UInt8 :=
  if address < bytes.width then bytes.tree.get bytes.depth bytes.width address else 0

def withTree (bytes : Sparse) (tree : ByteTree) : Sparse := { bytes with tree }

/-- Doubles the covered range. -/
def double (bytes : Sparse) : Sparse :=
  ⟨bytes.depth + 1, 2 * bytes.width, .node bytes.tree (.uniform 0), by
    rw [bytes.width_eq, Nat.pow_succ, Nat.mul_comm]⟩

/-- Doubles the covered range, `count` times. -/
def widen (bytes : Sparse) : Nat → Sparse
  | 0 => bytes
  | count + 1 => (bytes.widen count).double

/-- The same bytes, with the addresses below `stop` covered. -/
def cover (bytes : Sparse) (stop : Nat) : Sparse :=
  if stop ≤ bytes.width then bytes else bytes.widen (stop.log2 + 1 - bytes.depth)

/-- Writes `source address` at every address from `start` up to `stop`. -/
def overwrite (bytes : Sparse) (start stop : Nat) (source : Nat → UInt8) : Sparse :=
  let wide := bytes.cover stop
  wide.withTree (wide.tree.overwrite source start stop wide.depth wide.width 0)

def write (bytes : Sparse) (start : Nat) (data : List UInt8) : Sparse :=
  let source := data.toArray
  bytes.overwrite start (start + source.size) fun address => source.getD (address - start) 0

def read (bytes : Sparse) (start count : Nat) : List UInt8 :=
  let wide := bytes.cover (start + count)
  wide.tree.collect start (start + count) wide.depth wide.width 0 []

/-- Forgets the bytes at `size` and beyond. -/
def truncate (bytes : Sparse) (size : Nat) : Sparse :=
  if bytes.width ≤ size then bytes
  else bytes.withTree (bytes.tree.fill 0 size bytes.width bytes.depth bytes.width 0)

/-! ## What the operations do to the view -/

@[simp] theorem get_empty (address : Nat) : empty.get address = 0 := by
  simp [get, empty, ByteTree.get_uniform]

theorem get_withTree (bytes : Sparse) (tree : ByteTree) (address : Nat) :
    (bytes.withTree tree).get address =
      if address < bytes.width then tree.get bytes.depth bytes.width address else 0 := rfl

theorem depth_widen (bytes : Sparse) (count : Nat) :
    (bytes.widen count).depth = bytes.depth + count := by
  induction count with
  | zero => rfl
  | succ count ih => simp only [widen, double, ih]; omega

theorem get_double (bytes : Sparse) (address : Nat) :
    bytes.double.get address = bytes.get address := by
  obtain ⟨depth, width, tree, rfl⟩ := bytes
  have twice : 2 * 2 ^ depth = 2 ^ (depth + 1) := by omega
  simp only [get, double, twice]
  by_cases inside : address < 2 ^ depth
  · rw [if_pos (by omega), if_pos inside, ByteTree.get_succ, if_pos inside]
    rfl
  · rw [if_neg inside, ByteTree.get_succ, if_neg inside]
    simp [ByteTree.upper, ByteTree.get_uniform]

@[simp] theorem get_widen (bytes : Sparse) (count address : Nat) :
    (bytes.widen count).get address = bytes.get address := by
  induction count with
  | zero => rfl
  | succ count ih => rw [widen, get_double, ih]

@[simp] theorem get_cover (bytes : Sparse) (stop address : Nat) :
    (bytes.cover stop).get address = bytes.get address := by
  unfold cover
  split <;> simp

theorem le_cover (bytes : Sparse) (stop : Nat) : stop ≤ (bytes.cover stop).width := by
  unfold cover
  split
  · assumption
  · rw [(bytes.widen _).width_eq, depth_widen]
    have small : stop < 2 ^ (stop.log2 + 1) := Nat.lt_log2_self
    have deep : 2 ^ (stop.log2 + 1) ≤ 2 ^ (bytes.depth + (stop.log2 + 1 - bytes.depth)) :=
      Nat.pow_le_pow_right (by omega) (by omega)
    omega

theorem get_overwrite (bytes : Sparse) (start stop : Nat) (source : Nat → UInt8) (address : Nat) :
    (bytes.overwrite start stop source).get address =
      if start ≤ address ∧ address < stop then source address else bytes.get address := by
  have covered := le_cover bytes stop
  rw [← get_cover bytes stop, overwrite, get_withTree]
  generalize bytes.cover stop = wide at covered
  obtain ⟨depth, width, tree, rfl⟩ := wide
  simp only [get] at covered ⊢
  by_cases inside : address < 2 ^ depth
  · rw [if_pos inside, if_pos inside, ByteTree.get_overwrite _ _ _ _ _ _ _ inside]
    simp
  · rw [if_neg inside, if_neg inside, if_neg (by omega)]

theorem get_write (bytes : Sparse) (start : Nat) (data : List UInt8) (address : Nat) :
    (bytes.write start data).get address =
      if start ≤ address ∧ address < start + data.length then data.getD (address - start) 0
      else bytes.get address := by
  simp only [write, get_overwrite, List.size_toArray]
  congr 1
  simp [Array.getD_eq_getD_getElem?]

theorem get_truncate (bytes : Sparse) (size address : Nat) :
    (bytes.truncate size).get address = if address < size then bytes.get address else 0 := by
  obtain ⟨depth, width, tree, rfl⟩ := bytes
  unfold truncate
  split
  · rename_i covered
    split
    · rfl
    · simp only [get] at covered ⊢
      rw [if_neg (by omega)]
  · rename_i short
    rw [get_withTree]
    simp only [get] at short ⊢
    by_cases inside : address < 2 ^ depth
    · rw [if_pos inside, if_pos inside, ByteTree.get_fill _ _ _ _ _ _ _ inside]
      by_cases low : address < size
      · rw [if_pos low, if_neg (by omega)]
      · rw [if_neg low, if_pos (by omega)]
    · rw [if_neg inside, if_neg inside]
      simp

theorem read_eq_map (bytes : Sparse) (start count : Nat) :
    bytes.read start count = (List.range' start count).map bytes.get := by
  have covered := le_cover bytes (start + count)
  have same := get_cover bytes (start + count)
  rw [read]
  generalize bytes.cover (start + count) = wide at covered same
  obtain ⟨depth, width, tree, rfl⟩ := wide
  simp only [get] at covered same
  rw [ByteTree.collect_eq]
  have first : max start 0 = start := by omega
  have extent : min (start + count) (0 + 2 ^ depth) - start = count := by omega
  rw [first, extent, List.append_nil]
  apply List.map_congr_left
  intro address inside
  have bounds := List.mem_range'_1.mp inside
  have here := same address
  rw [if_pos (by omega)] at here
  exact here

@[simp] theorem length_read (bytes : Sparse) (start count : Nat) :
    (bytes.read start count).length = count := by
  simp [read_eq_map]

theorem read_write (bytes : Sparse) (start : Nat) (data : List UInt8) :
    (bytes.write start data).read start data.length = data := by
  apply List.ext_getElem
  · simp
  · intro index inside _
    have small : index < data.length := by simpa using inside
    simp only [read_eq_map, List.getElem_map, List.getElem_range', get_write]
    rw [if_pos (by omega)]
    have back : start + 1 * index - start = index := by omega
    rw [back, List.getD_eq_getElem?_getD, List.getElem?_eq_getElem small]
    rfl

end Sparse

end RankMail
