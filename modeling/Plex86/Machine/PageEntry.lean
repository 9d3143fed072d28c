import Mathlib.Algebra.GroupWithZero.Nat
import Mathlib.Tactic.Common

namespace Plex86

abbrev Bit8u := BitVec 8
abbrev Bit16u := BitVec 16
abbrev Bit32u := BitVec 32

/-- A host page number, as the base field of a page table entry holds it. -/
abbrev Frame := BitVec 20

/-- The value of a C expression that is 0 or 1. -/
def bit (value : Bool) : Bit32u := if value then 1 else 0

/-- The bit of a single line, flag or request. -/
theorem lineBit_getLsbD {line : Nat} (low : line < 32) (index : Nat) :
    (1#32 <<< line).getLsbD index = decide (index = line) := by
  rw [BitVec.getLsbD_shiftLeft]
  by_cases same : index = line
  · subst same
    simp [low]
  · by_cases below : index < line
    · simp [below, same]
    · have off : index - line ≠ 0 := by omega
      simp [BitVec.getLsbD_one, off, same]

theorem and_lineBit_eq_zero {line : Nat} (low : line < 32) (raw : Bit32u) :
    raw &&& (1#32 <<< line) = 0 ↔ raw.getLsbD line = false := by
  constructor
  · intro clear
    have here := congrArg (fun word : Bit32u => word.getLsbD line) clear
    simpa [lineBit_getLsbD low] using here
  · intro clear
    apply BitVec.eq_of_getLsbD_eq
    intro index small
    rw [BitVec.getLsbD_and, lineBit_getLsbD low]
    by_cases same : index = line
    · subst same
      simp [clear]
    · simp [same]

/-- A number below `2 ^ width` has no bit from `width` on. -/
theorem getLsbD_of_lt {size index : Nat} {word : BitVec size} (width : Nat)
    (small : word.toNat < 2 ^ width) (high : width ≤ index) :
    word.getLsbD index = false :=
  Nat.testBit_lt_two_pow (Nat.lt_of_lt_of_le small (Nat.pow_le_pow_right (by decide) high))

/-- A page number shifted by 12 lies in the base field of an entry. -/
theorem shifted_getLsbD {frame : Frame} {index : Nat} (small : index < 20) :
    ((frame.setWidth 32) <<< 12).getLsbD (12 + index) = frame.getLsbD index := by
  have inside : 12 + index < 32 := by omega
  have above : ¬ 12 + index < 12 := by omega
  simp [inside, above]

/-- `pageEntry_t`: the format of both page directory and page table entries. -/
structure PageEntry where
  raw : Bit32u
deriving DecidableEq

namespace PageEntry

def p (entry : PageEntry) : Bool := entry.raw.getLsbD 0
def rw (entry : PageEntry) : Bool := entry.raw.getLsbD 1
def us (entry : PageEntry) : Bool := entry.raw.getLsbD 2
def a (entry : PageEntry) : Bool := entry.raw.getLsbD 5
def d (entry : PageEntry) : Bool := entry.raw.getLsbD 6
def base (entry : PageEntry) : Frame := entry.raw.extractLsb' 12 20

/-- Set the A bit and keep the others. -/
def setA (entry : PageEntry) : PageEntry := ⟨entry.raw ||| 0x20#32⟩

def setD (entry : PageEntry) : PageEntry := ⟨entry.raw ||| 0x40#32⟩

/-- Change the base field and keep the others. -/
def setBase (entry : PageEntry) (base : Frame) : PageEntry :=
  ⟨(entry.raw &&& 0xfff#32) ||| (base.setWidth 32 <<< 12)⟩

/-- The entry with this base and these flags in the low twelve bits. -/
def make (base : Frame) (flags : Bit32u) : PageEntry :=
  ⟨(base.setWidth 32 <<< 12) ||| flags⟩

@[simp] theorem raw_zero_p : (⟨0#32⟩ : PageEntry).p = false := by decide

@[simp] theorem setA_a (entry : PageEntry) : entry.setA.a = true := by
  simp [setA, a]
@[simp] theorem setA_d (entry : PageEntry) : entry.setA.d = entry.d := by
  simp [setA, d]
@[simp] theorem setA_p (entry : PageEntry) : entry.setA.p = entry.p := by
  simp [setA, p]
@[simp] theorem setA_rw (entry : PageEntry) : entry.setA.rw = entry.rw := by
  simp [setA, rw]
@[simp] theorem setA_us (entry : PageEntry) : entry.setA.us = entry.us := by
  simp [setA, us]
@[simp] theorem setA_base (entry : PageEntry) : entry.setA.base = entry.base := by
  simp [setA, base, BitVec.extractLsb'_or]

@[simp] theorem setD_a (entry : PageEntry) : entry.setD.a = entry.a := by
  simp [setD, a]
@[simp] theorem setD_d (entry : PageEntry) : entry.setD.d = true := by
  simp [setD, d]

@[simp] theorem setBase_base (entry : PageEntry) (frame : Frame) :
    (entry.setBase frame).base = frame := by
  ext index small
  have cut : (0xfff#32).getLsbD (12 + index) = false :=
    getLsbD_of_lt 12 (by decide) (by omega)
  rw [setBase, base, BitVec.getElem_extractLsb', BitVec.getLsbD_or, BitVec.getLsbD_and, cut,
    shifted_getLsbD small, Bool.and_false, Bool.false_or, BitVec.getLsbD_eq_getElem small]
@[simp] theorem setBase_us (entry : PageEntry) (frame : Frame) :
    (entry.setBase frame).us = entry.us := by
  simp [setBase, us]

private theorem make_getLsbD (frame : Frame) (flags : Bit32u) {index : Nat} (low : index < 12) :
    (make frame flags).raw.getLsbD index = flags.getLsbD index := by
  simp [make, low]

@[simp] theorem make_p (frame : Frame) (flags : Bit32u) :
    (make frame flags).p = flags.getLsbD 0 := make_getLsbD frame flags (by decide)
@[simp] theorem make_rw (frame : Frame) (flags : Bit32u) :
    (make frame flags).rw = flags.getLsbD 1 := make_getLsbD frame flags (by decide)
@[simp] theorem make_us (frame : Frame) (flags : Bit32u) :
    (make frame flags).us = flags.getLsbD 2 := make_getLsbD frame flags (by decide)

/-- Flags that lie in the low twelve bits do so together. -/
theorem low_or {first second : Bit32u} (firstLow : first &&& 0xfff#32 = first)
    (secondLow : second &&& 0xfff#32 = second) :
    (first ||| second) &&& 0xfff#32 = first ||| second := by
  have distrib : (first ||| second) &&& 0xfff#32 =
      (first &&& 0xfff#32) ||| (second &&& 0xfff#32) := by
    ext index small
    simp [Bool.and_or_distrib_right]
  rw [distrib, firstLow, secondLow]

theorem bit_low (value : Bool) (shift : Fin 12) :
    (bit value <<< shift.val) &&& 0xfff#32 = bit value <<< shift.val := by
  revert shift
  cases value <;> decide

/-- The A and D bits of an entry lie in its low twelve bits. -/
theorem marks_low (entry : PageEntry) : (entry.raw &&& 0x60#32) &&& 0xfff#32 =
    entry.raw &&& 0x60#32 := by
  rw [BitVec.and_assoc]
  rfl

theorem make_base (frame : Frame) (flags : Bit32u) (low : flags &&& 0xfff#32 = flags) :
    (make frame flags).base = frame := by
  ext index small
  have cut : (0xfff#32).getLsbD (12 + index) = false :=
    getLsbD_of_lt 12 (by decide) (by omega)
  have flag : flags.getLsbD (12 + index) = false := by
    rw [← low, BitVec.getLsbD_and, cut, Bool.and_false]
  rw [make, base, BitVec.getElem_extractLsb', BitVec.getLsbD_or, flag, shifted_getLsbD small,
    Bool.or_false, BitVec.getLsbD_eq_getElem small]

end PageEntry
end Plex86
