import Plex86.Emulate.Memory
import Plex86.Paging.Settled

namespace Plex86

open Logic Vm

theorem pageOffset_eq (addr : Bit32u) : pageOffset addr = addr.toNat % 4096 := by
  have mask := Nat.and_two_pow_sub_one_eq_mod addr.toNat 12
  simpa [pageOffset] using mask

theorem pageOffset_lt (addr : Bit32u) : pageOffset addr < 4096 := by
  rw [pageOffset_eq]
  exact Nat.mod_lt _ (by decide)

/-- An address whose lowest bits are clear keeps that distance from the end of its page. -/
theorem pageOffset_aligned {addr : Bit32u} (bits : Nat) (small : bits ≤ 12)
    (clear : ∀ index < bits, addr.getLsbD index = false) :
    pageOffset addr + 2 ^ bits ≤ 4096 := by
  have multiple : addr.toNat % 2 ^ bits = 0 := by
    apply Nat.eq_of_testBit_eq
    intro index
    by_cases low : index < bits
    · simpa [Nat.testBit_mod_two_pow, low, BitVec.getLsbD] using clear index low
    · simp [Nat.testBit_mod_two_pow, low]
  have whole : 4096 = 2 ^ bits * 2 ^ (12 - bits) := by
    rw [← Nat.pow_add, show bits + (12 - bits) = 12 by omega]
  have divides : 2 ^ bits ∣ pageOffset addr := by
    rw [pageOffset_eq, Nat.dvd_iff_mod_eq_zero, whole, Nat.mod_mul_right_mod, multiple]
  obtain ⟨entries, here⟩ := divides
  have below := pageOffset_lt addr
  rw [here, whole] at below ⊢
  have fewer := Nat.lt_of_mul_lt_mul_left below
  calc 2 ^ bits * entries + 2 ^ bits = 2 ^ bits * (entries + 1) := by rw [Nat.mul_succ]
    _ ≤ 2 ^ bits * 2 ^ (12 - bits) := Nat.mul_le_mul_left _ fewer

private theorem pdeAddrOf_inside (cr3 lAddr : Bit32u) :
    pageOffset (pdeAddrOf cr3 lAddr) + 32 / 8 ≤ 4096 := by
  refine pageOffset_aligned 2 (by decide) fun index low => ?_
  have : index = 0 ∨ index = 1 := by omega
  rcases this with rfl | rfl <;> simp [pdeAddrOf]

private theorem pteAddrOf_inside (pde lAddr : Bit32u) :
    pageOffset (pteAddrOf pde lAddr) + 32 / 8 ≤ 4096 := by
  refine pageOffset_aligned 2 (by decide) fun index low => ?_
  have : index = 0 ∨ index = 1 := by omega
  rcases this with rfl | rfl <;> simp [pteAddrOf]

theorem translateLinToPhy_accessor (start : Vm) (lAddr : Bit32u) :
    Accessor start (translateLinToPhy lAddr) := by
  unfold translateLinToPhy
  refine .get_bind fun vm _ => .ite (fun _ => .pure) fun _ => .ite (fun _ => .pure) fun _ =>
    .ite (fun _ => .pure) fun _ => Accessor.open_bind ?_
  refine WindowUser.read_bind (pdeAddrOf_inside _ _) fun pde => WindowUser.done ?_
  refine .ite (fun _ => .pure) fun _ => .ite (fun _ => .pure) fun _ => Accessor.open_bind ?_
  refine WindowUser.read_bind (pteAddrOf_inside _ _) fun pte => WindowUser.done ?_
  exact .ite (fun _ => .pure) fun _ => .pure

private theorem readBytes_window (start : Vm) (page : OpenPage) (offset count : Nat)
    (inside : offset + count ≤ 4096) : WindowUser start page (readBytes page offset count) := by
  induction count generalizing offset with
  | zero => exact WindowUser.done .pure
  | succ count inductionHypothesis =>
      refine WindowUser.read_bind (by omega) fun byte => ?_
      exact Ensures.bind (inductionHypothesis (offset + 1) (by omega)) fun rest => .pure
        fun _ reached => reached

private theorem readBytes_bind {α : Type} {start : Vm} {page : OpenPage} {offset count : Nat}
    {rest : List Bit8u → Mon α} (inside : offset + count ≤ 4096)
    (second : ∀ bytes, Accessor start (rest bytes)) :
    WindowUser start page (readBytes page offset count >>= rest) :=
  Ensures.bind (readBytes_window start page offset count inside) second

theorem and_fff_toNat (addr : Bit32u) : (addr &&& 0xfff#32).toNat = pageOffset addr := rfl

theorem getObjectLAddr_accessor (start : Vm) (lAddr0 len : Bit32u) (small : len ≤ 0x1000#32) :
    Accessor start (getObjectLAddr lAddr0 len) := by
  unfold getObjectLAddr
  refine .get_bind fun vm _ => .bind (translateLinToPhy_accessor start _) fun pAddr0 =>
    Accessor.panic_bind rfl fun _ => .ite (fun within => ?_) fun crossing => ?_
  · refine Accessor.panic_bind rfl fun _ => Accessor.open_bind ?_
    have size := BitVec.le_def.mp small
    have fits := BitVec.le_def.mp within
    rw [BitVec.toNat_sub_of_le small, and_fff_toNat] at fits
    refine Ensures.ite (fun dword => ?_) fun _ => ?_
    · refine WindowUser.read_bind ?_ fun val => WindowUser.done .pure
      rw [and_fff_toNat]
      simp [dword] at fits
      omega
    · refine readBytes_window start _ _ _ ?_
      rw [and_fff_toNat]
      simp at size fits
      omega
  · -- the object starts before the end of one page and ends in the next
    have size := BitVec.le_def.mp small
    have low := pageOffset_lt pAddr0
    have first : (0x1000#32 - (pAddr0 &&& 0xfff#32)).toNat = 4096 - pageOffset pAddr0 := by
      rw [BitVec.toNat_sub_of_le (by rw [BitVec.le_def, and_fff_toNat]; simp; omega),
        and_fff_toNat]
      simp
    have crosses : 4096 - pageOffset pAddr0 < len.toNat := by
      have exceeds := BitVec.lt_def.mp (BitVec.not_le.mp crossing)
      rw [BitVec.toNat_sub_of_le small, and_fff_toNat] at exceeds
      simp at exceeds size
      omega
    have second : (len - (0x1000#32 - (pAddr0 &&& 0xfff#32))).toNat ≤ 4096 := by
      rw [BitVec.toNat_sub_of_le (by rw [BitVec.le_def, first]; omega), first]
      simp at size
      omega
    refine .bind (translateLinToPhy_accessor start _) fun pAddr1 => Accessor.panic_bind rfl fun _ =>
      Accessor.panic_bind rfl fun _ => Accessor.panic_bind rfl fun _ => Accessor.open_bind ?_
    have head : pageOffset pAddr0 + (0x1000#32 - (pAddr0 &&& 0xfff#32)).toNat ≤ 4096 := by
      rw [first]
      omega
    revert head second
    generalize 0x1000#32 - (pAddr0 &&& 0xfff#32) = page0Len
    intro second head
    refine readBytes_bind head fun _ => Accessor.open_bind (readBytes_bind ?_ fun _ => .pure)
    exact (Nat.zero_add _).le.trans second

theorem getGuestDWord_accessor (start : Vm) (lAddr : Bit32u) :
    Accessor start (getGuestDWord lAddr) := by
  unfold getGuestDWord
  refine .get_bind fun vm _ => .ite (fun within => ?_) fun _ => ?_
  · refine .bind (translateLinToPhy_accessor start _) fun pAddr => Accessor.panic_bind rfl fun _ =>
      Accessor.panic_bind rfl fun _ => Accessor.open_bind (WindowUser.read ?_)
    have fits := BitVec.le_def.mp within
    rw [and_fff_toNat] at fits
    simp at fits
    omega
  · exact .bind (getObjectLAddr_accessor start _ _ (by decide)) fun bytes => .pure

theorem getGuestWord_accessor (start : Vm) (lAddr : Bit32u) :
    Accessor start (getGuestWord lAddr) := by
  unfold getGuestWord
  refine .get_bind fun vm _ => .ite (fun within => ?_) fun _ => ?_
  · refine .bind (translateLinToPhy_accessor start _) fun pAddr => Accessor.panic_bind rfl fun _ =>
      Accessor.panic_bind rfl fun _ => Accessor.open_bind (WindowUser.read ?_)
    have fits := BitVec.le_def.mp within
    rw [and_fff_toNat] at fits
    simp at fits
    omega
  · exact .bind (getObjectLAddr_accessor start _ _ (by decide)) fun bytes => .pure

theorem writeGuestDWord_accessor (start : Vm) (lAddr val : Bit32u) :
    Accessor start (writeGuestDWord lAddr val) := by
  unfold writeGuestDWord
  refine .get_bind fun vm _ => .bind (translateLinToPhy_accessor start _) fun pAddr =>
    Accessor.panic_bind rfl fun _ => Accessor.panic_bind rfl fun _ => Accessor.panic_bind rfl fun within =>
      Accessor.open_bind (WindowUser.write ?_)
  have fits := BitVec.lt_def.mp (BitVec.not_le.mp within)
  rw [and_fff_toNat] at fits
  simp at fits
  omega

/-- An address that is a multiple of eight leaves room for a descriptor in its page. -/
private theorem descriptor_inside {addr : Bit32u} (aligned : ¬ (addr &&& 7#32 ≠ 0)) :
    pageOffset addr + 8 ≤ 4096 := by
  refine pageOffset_aligned 3 (by decide) fun index low => ?_
  have clear : (addr &&& 7#32).getLsbD index = false := by
    rw [not_not.mp aligned]
    simp
  have : index = 0 ∨ index = 1 ∨ index = 2 := by omega
  rcases this with rfl | rfl | rfl <;> simpa using clear

theorem fetchGuestDescByLAddr_accessor (start : Vm) (laddr : Bit32u) :
    Accessor start (fetchGuestDescByLAddr laddr) := by
  unfold fetchGuestDescByLAddr
  refine .get_bind fun vm _ => .bind (translateLinToPhy_accessor start _) fun pAddr =>
    Accessor.panic_bind rfl fun _ => Accessor.panic_bind rfl fun aligned => Accessor.panic_bind rfl fun _ =>
      Accessor.open_bind (WindowUser.read_bind ?_ fun raw => WindowUser.done .pure)
  exact descriptor_inside aligned

theorem fetchGuestDescBySel_accessor (start : Vm) (sel : Selector) (updateBusyBit : Bool) :
    Accessor start (fetchGuestDescBySel sel updateBusyBit) := by
  unfold fetchGuestDescBySel
  refine .get_bind fun vm _ => Accessor.panic_bind rfl fun _ => Accessor.panic_bind rfl fun _ =>
    Accessor.panic_bind rfl fun _ => .bind (translateLinToPhy_accessor start _) fun pAddr =>
      Accessor.panic_bind rfl fun _ => Accessor.panic_bind rfl fun aligned => Accessor.panic_bind rfl fun _ =>
        Accessor.open_bind ?_
  have inside := descriptor_inside aligned
  refine WindowUser.read_bind inside fun raw => WindowUser.panic_bind rfl fun _ => ?_
  refine Ensures.ite (fun _ => ?_) fun _ => WindowUser.done .pure
  exact Ensures.bind (writeWord_accessor (by omega)) fun _ => WindowUser.done .pure

end Plex86
