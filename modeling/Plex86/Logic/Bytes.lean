import Mathlib.Algebra.GroupWithZero.Nat
import Mathlib.Tactic.Common

namespace Plex86.Logic

/-- A stretch of memory, one byte at each offset. -/
abbrev Bytes := Nat → BitVec 8

/-- The number held by `size` bytes from `offset` on, least significant byte first. -/
def load (bytes : Bytes) (offset : Nat) : Nat → Nat
  | 0 => 0
  | size + 1 => (bytes offset).toNat + 256 * load bytes (offset + 1) size

/-- Put a number into `size` bytes from `offset` on. -/
def store (bytes : Bytes) (offset size value : Nat) : Bytes := fun place =>
  if offset ≤ place ∧ place < offset + size then
    BitVec.ofNat 8 (value / 256 ^ (place - offset))
  else bytes place

theorem load_congr {bytes other : Bytes} {offset size : Nat}
    (same : ∀ place, offset ≤ place → place < offset + size → bytes place = other place) :
    load bytes offset size = load other offset size := by
  induction size generalizing offset with
  | zero => rfl
  | succ size inductionHypothesis =>
      have tail : load bytes (offset + 1) size = load other (offset + 1) size :=
        inductionHypothesis fun place low high => same place (by omega) (by omega)
      rw [load, load, same offset (by omega) (by omega), tail]

theorem store_outside {bytes : Bytes} {offset size value place : Nat}
    (outside : place < offset ∨ offset + size ≤ place) :
    store bytes offset size value place = bytes place := by
  unfold store
  rw [if_neg (by omega)]

/-- A store leaves every number alone that shares no byte with it. -/
theorem load_store_disjoint {bytes : Bytes} {offset size value place width : Nat}
    (apart : place + width ≤ offset ∨ offset + size ≤ place) :
    load (store bytes offset size value) place width = load bytes place width :=
  load_congr fun byte low high => store_outside (by omega)

/-- Past its first byte, a store is the store of the value's higher bytes. -/
theorem store_succ {bytes : Bytes} {offset size value place : Nat}
    (low : offset + 1 ≤ place) :
    store bytes offset (size + 1) value place =
      store bytes (offset + 1) size (value / 256) place := by
  have power : 256 ^ (place - offset) = 256 * 256 ^ (place - (offset + 1)) := by
    rw [show place - offset = place - (offset + 1) + 1 by omega, Nat.pow_succ, Nat.mul_comm]
  simp only [store]
  by_cases high : place < offset + 1 + size
  · rw [if_pos ⟨by omega, by omega⟩, if_pos ⟨low, high⟩, power, ← Nat.div_div_eq_div_mul]
  · rw [if_neg (by omega), if_neg (by omega)]

/-- What was stored is loaded back, cut to the bytes there are. -/
theorem load_store_self (bytes : Bytes) (offset size value : Nat) :
    load (store bytes offset size value) offset size = value % 256 ^ size := by
  induction size generalizing bytes offset value with
  | zero => simp [load, Nat.mod_one]
  | succ size inductionHypothesis =>
      have first : (store bytes offset (size + 1) value offset).toNat = value % 256 := by
        simp [store]
      have rest : load (store bytes offset (size + 1) value) (offset + 1) size =
          value / 256 % 256 ^ size := by
        rw [load_congr fun place low high => store_succ low]
        exact inductionHypothesis bytes (offset + 1) (value / 256)
      rw [load, first, rest, Nat.pow_succ, Nat.mul_comm (256 ^ size) 256, Nat.mod_mul]

theorem load_lt (bytes : Bytes) (offset size : Nat) : load bytes offset size < 256 ^ size := by
  induction size generalizing offset with
  | zero => simp [load]
  | succ size inductionHypothesis =>
      have low := (bytes offset).isLt
      have high := inductionHypothesis (offset + 1)
      rw [load, Nat.pow_succ]
      omega

/-- The word of `width` bits, a whole number of bytes, at an offset. -/
def loadWord (width : Nat) (bytes : Bytes) (offset : Nat) : BitVec width :=
  BitVec.ofNat width (load bytes offset (width / 8))

def storeWord {width : Nat} (bytes : Bytes) (offset : Nat) (word : BitVec width) : Bytes :=
  store bytes offset (width / 8) word.toNat

theorem loadWord_storeWord_self {width : Nat} (whole : width % 8 = 0) (bytes : Bytes)
    (offset : Nat) (word : BitVec width) :
    loadWord width (storeWord bytes offset word) offset = word := by
  have size : 256 ^ (width / 8) = 2 ^ width := by
    rw [show 256 = 2 ^ 8 by rfl, ← Nat.pow_mul]
    congr 1
    omega
  rw [loadWord, storeWord, load_store_self, size, Nat.mod_eq_of_lt word.isLt, BitVec.ofNat_toNat]
  simp

theorem loadWord_storeWord_disjoint {width other : Nat} {bytes : Bytes} {offset place : Nat}
    {word : BitVec width}
    (apart : place + other / 8 ≤ offset ∨ offset + width / 8 ≤ place) :
    loadWord other (storeWord bytes offset word) place = loadWord other bytes place := by
  rw [loadWord, storeWord, load_store_disjoint apart, loadWord]

/-- The lower bytes of a word are the word at the same place. -/
theorem load_mod (bytes : Bytes) (offset : Nat) {size width : Nat} (narrow : size ≤ width) :
    load bytes offset size = load bytes offset width % 256 ^ size := by
  induction size generalizing offset width with
  | zero => simp [load, Nat.mod_one]
  | succ size inductionHypothesis =>
      obtain ⟨width, rfl⟩ : ∃ rest, width = rest + 1 := ⟨width - 1, by omega⟩
      have rest := inductionHypothesis (offset + 1) (Nat.le_of_succ_le_succ narrow)
      have low := (bytes offset).isLt
      rw [load, load, rest, Nat.pow_succ, Nat.mul_comm (256 ^ size) 256, Nat.mod_mul,
        Nat.add_mul_mod_self_left, Nat.add_mul_div_left _ _ (by decide), Nat.mod_eq_of_lt low,
        Nat.div_eq_of_lt low, Nat.zero_add]

theorem loadWord_narrow {width other : Nat} (whole : other % 8 = 0) (narrow : other ≤ width)
    (bytes : Bytes) (offset : Nat) :
    loadWord other bytes offset = (loadWord width bytes offset).setWidth other := by
  have size : 256 ^ (other / 8) = 2 ^ other := by
    rw [show 256 = 2 ^ 8 by rfl, ← Nat.pow_mul]
    congr 1
    omega
  have divides : 2 ^ other ∣ 2 ^ width := Nat.pow_dvd_pow 2 narrow
  apply BitVec.eq_of_toNat_eq
  rw [loadWord, loadWord, load_mod bytes offset (Nat.div_le_div_right narrow), size,
    BitVec.toNat_ofNat, BitVec.toNat_setWidth, BitVec.toNat_ofNat, Nat.mod_mod,
    Nat.mod_mod_of_dvd _ divides]

theorem loadWord_congr {width : Nat} {bytes other : Bytes} {offset : Nat}
    (same : ∀ place, offset ≤ place → place < offset + width / 8 → bytes place = other place) :
    loadWord width bytes offset = loadWord width other offset := by
  rw [loadWord, load_congr same, loadWord]

end Plex86.Logic
