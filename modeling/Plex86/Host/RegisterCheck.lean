import Mathlib.Order.CompletePartialOrder
import Mathlib.Order.Interval.Set.Disjoint
import Plex86.Machine.Cpu

namespace Plex86

/-- `Plex86Errno...` -/
inductive Errno
  | ebusy | enomem | efault | einval
deriving DecidableEq

/-- `plex86IoctlRegisterMem_t` -/
structure RegisterMem where
  nMegs : Bit32u
  guestPhyMemVector : Bit32u
  logBufferWindow : Bit32u
  guestCPUWindow : Bit32u
deriving DecidableEq

-- The bits of `vm->vmState`
def vmStateFDOpened : Bit32u := 0x001#32
def vmStateMemAllocated : Bit32u := 0x002#32
def vmStateGuestCPUID : Bit32u := 0x004#32
def vmStateRegisteredPhyMem : Bit32u := 0x008#32
def vmStateRegisteredPrintBuffer : Bit32u := 0x010#32
def vmStateRegisteredGuestCPU : Bit32u := 0x020#32
def vmStateInitMonitor : Bit32u := 0x040#32
def vmStateMapMonitor : Bit32u := 0x080#32

def logBuffSize : Bit32u := 4096

/-- An area of the user process, by its first and its last address. -/
structure UserRegion where
  min : Bit32u
  max : Bit32u

namespace UserRegion

/-- The address is contained in the region. -/
def contains (region : UserRegion) (addr : Bit32u) : Bool :=
  decide (region.min ≤ addr) && decide (addr ≤ region.max)

/-- `min(j)` or `max(j)` is contained in `region(i)`. -/
def touches (region other : UserRegion) : Bool :=
  region.contains other.min || region.contains other.max

end UserRegion

namespace RegisterMem

/-- The region of `size` bytes that starts at an address. -/
def regionAt (min size : Bit32u) : UserRegion := ⟨min, min + size - 1⟩

/-- `userRegion[i]`: the guest's memory, the log buffer and the guest CPU area. -/
def userRegion (msg : RegisterMem) : Fin 3 → UserRegion
  | 0 => regionAt msg.guestPhyMemVector (msg.nMegs <<< 20)
  | 1 => regionAt msg.logBufferWindow logBuffSize
  | 2 => regionAt msg.guestCPUWindow 4096

/-- The indices that both loops `for (i=1; i<NumUserRegions; i++)` run through. -/
def compared : List (Fin 3) := [1, 2]

/-- The double loop that looks for overlapping user areas. -/
def regionsOverlap (msg : RegisterMem) : Bool :=
  compared.any fun i => compared.any fun j =>
    j != i && (msg.userRegion i).touches (msg.userRegion j)

/-- The checks of `hostIoctlRegisterMem`: the error with which it is turned down, if any. -/
def check (vmState guestNMegs : Bit32u) (msg : RegisterMem) : Option Errno :=
  if vmState &&& ~~~vmStateGuestCPUID ≠ vmStateFDOpened then some .ebusy
  else if guestNMegs ≠ 0 then some .ebusy
  else if msg.nMegs &&& 3 ≠ 0 then some .einval
  else if msg.guestPhyMemVector &&& 0xfff ≠ 0 then some .einval
  else if msg.logBufferWindow &&& 0xfff ≠ 0 then some .einval
  else if msg.guestCPUWindow &&& 0xfff ≠ 0 then some .einval
  else if msg.regionsOverlap then some .einval
  else none

/-- Where a user area starts. -/
def start (msg : RegisterMem) : Fin 3 → Nat
  | 0 => msg.guestPhyMemVector.toNat
  | 1 => msg.logBufferWindow.toNat
  | 2 => msg.guestCPUWindow.toNat

/-- How many bytes a user area has. -/
def bytes (msg : RegisterMem) : Fin 3 → Nat
  | 0 => msg.nMegs.toNat * 2 ^ 20
  | 1 => 4096
  | 2 => 4096

/-- The addresses of a user area, without any wrapping around. -/
def addresses (msg : RegisterMem) (area : Fin 3) : Set Nat :=
  Set.Ico (msg.start area) (msg.start area + msg.bytes area)

/-- The three user areas are disjoint and none wraps past the end of the address space. -/
structure AreasApart (msg : RegisterMem) : Prop where
  disjoint : ∀ first second, first ≠ second → Disjoint (msg.addresses first) (msg.addresses second)
  noWrap : ∀ area, msg.start area + msg.bytes area ≤ 2 ^ 32

/-- The guest's memory is empty, or else it is below 4 gigabytes, its last address
follows its first, and the comparisons that the loops leave out find nothing. -/
def GuestMemoryCompared (msg : RegisterMem) : Prop :=
  msg.nMegs = 0 ∨
    msg.nMegs < 4096 ∧ (msg.userRegion 0).min ≤ (msg.userRegion 0).max ∧
      ∀ other ∈ compared, (msg.userRegion 0).touches (msg.userRegion other) = false ∧
        (msg.userRegion other).touches (msg.userRegion 0) = false

instance (msg : RegisterMem) : Decidable msg.GuestMemoryCompared := by
  unfold GuestMemoryCompared
  infer_instance

/-- Two regions that run forward do not touch each other when one ends before the other. -/
theorem apart_iff {first second : UserRegion} (forward : first.min ≤ first.max)
    (forward' : second.min ≤ second.max) :
    (first.touches second = false ∧ second.touches first = false) ↔
      first.max < second.min ∨ second.max < first.min := by
  simp only [UserRegion.touches, UserRegion.contains, Bool.or_eq_false_iff,
    Bool.and_eq_false_iff, decide_eq_false_iff_not, BitVec.le_def, BitVec.lt_def] at *
  omega

/-- Where a region does not wrap around, its last address is one before its end. -/
theorem regionAt_max {min size : Bit32u} (some : size ≠ 0)
    (noWrap : min.toNat + size.toNat ≤ 2 ^ 32) :
    (regionAt min size).max.toNat + 1 = min.toNat + size.toNat := by
  have positive : size.toNat ≠ 0 := fun zero => some (BitVec.eq_of_toNat_eq zero)
  have one : (1 : Bit32u).toNat = 1 := rfl
  simp only [regionAt, BitVec.toNat_sub, BitVec.toNat_add, one]
  omega

/-- A region runs forward exactly when it does not wrap around. -/
theorem regionAt_forward {min size : Bit32u} (some : size ≠ 0) :
    (regionAt min size).min ≤ (regionAt min size).max ↔ min.toNat + size.toNat ≤ 2 ^ 32 := by
  have positive : size.toNat ≠ 0 := fun zero => some (BitVec.eq_of_toNat_eq zero)
  have smallMin := min.isLt
  have smallSize := size.isLt
  have one : (1 : Bit32u).toNat = 1 := rfl
  simp only [regionAt, BitVec.le_def, BitVec.toNat_sub, BitVec.toNat_add, one]
  omega

private theorem pageAligned {addr : Bit32u} (aligned : addr &&& 0xfff = 0) :
    addr.toNat % 4096 = 0 := by
  have mask := Nat.and_two_pow_sub_one_eq_mod addr.toNat 12
  have zero : addr.toNat &&& 2 ^ 12 - 1 = 0 := congrArg BitVec.toNat aligned
  exact mask.symm.trans zero

/-- A page never wraps around. -/
theorem page_noWrap {addr : Bit32u} (aligned : addr &&& 0xfff = 0) :
    addr.toNat + (4096 : Bit32u).toNat ≤ 2 ^ 32 := by
  have whole := pageAligned aligned
  have small := addr.isLt
  have page : (4096 : Bit32u).toNat = 4096 := rfl
  omega

/-- Areas with something in them are disjoint when one ends before the other starts. -/
theorem disjoint_iff {msg : RegisterMem} {first second : Fin 3} (some : 0 < msg.bytes first)
    (some' : 0 < msg.bytes second) :
    Disjoint (msg.addresses first) (msg.addresses second) ↔
      msg.start first + msg.bytes first ≤ msg.start second ∨
        msg.start second + msg.bytes second ≤ msg.start first := by
  rw [addresses, addresses, Set.Ico_disjoint_Ico]
  omega

/-- A request that passes the checks has its two pages aligned and apart. -/
theorem check_passed {vmState guestNMegs : Bit32u} {msg : RegisterMem}
    (passed : msg.check vmState guestNMegs = none) :
    msg.logBufferWindow &&& 0xfff = 0 ∧ msg.guestCPUWindow &&& 0xfff = 0 ∧
      (msg.userRegion 1).touches (msg.userRegion 2) = false ∧
        (msg.userRegion 2).touches (msg.userRegion 1) = false := by
  unfold check at passed
  split_ifs at passed with _ _ _ _ logAligned cpuAligned overlap
  simp only [regionsOverlap, compared, List.any_cons, List.any_nil, Bool.or_false, bne_self_eq_false,
    Bool.false_and, Bool.false_or, Bool.not_eq_true, Bool.or_eq_false_iff] at overlap
  simp only [show ((2 : Fin 3) != 1) = true from rfl, show ((1 : Fin 3) != 2) = true from rfl,
    Bool.true_and] at overlap
  exact ⟨not_not.mp logAligned, not_not.mp cpuAligned, overlap⟩

/-- Comparing a region with a page finds out whether the page lies outside. -/
theorem page_apart {addr size page : Bit32u} (some : size ≠ 0)
    (noWrap : addr.toNat + size.toNat ≤ 2 ^ 32) (aligned : page &&& 0xfff = 0) :
    ((regionAt addr size).touches (regionAt page 4096) = false ∧
        (regionAt page 4096).touches (regionAt addr size) = false) ↔
      addr.toNat + size.toNat ≤ page.toNat ∨ page.toNat + 4096 ≤ addr.toNat := by
  have pageNoWrap := page_noWrap aligned
  have pageLast : (regionAt page 4096).max.toNat + 1 = page.toNat + 4096 :=
    regionAt_max (by decide) pageNoWrap
  rw [apart_iff ((regionAt_forward some).mpr noWrap) ((regionAt_forward (by decide)).mpr pageNoWrap),
    BitVec.lt_def, BitVec.lt_def, ← regionAt_max some noWrap, ← pageLast]
  exact Iff.rfl

/-- The guest's memory, as the code computes it, where it is not empty and below 4 gigabytes. -/
theorem guestMemory_size {msg : RegisterMem} (some : msg.nMegs ≠ 0) (small : msg.nMegs < 4096) :
    (msg.nMegs <<< 20).toNat = msg.bytes 0 ∧ 0 < msg.bytes 0 ∧ msg.nMegs <<< 20 ≠ 0 := by
  have positive : msg.nMegs.toNat ≠ 0 := fun zero => some (BitVec.eq_of_toNat_eq zero)
  have bound : msg.nMegs.toNat < 4096 := small
  have shifted : (msg.nMegs <<< 20).toNat = msg.bytes 0 := by
    rw [BitVec.toNat_shiftLeft, Nat.shiftLeft_eq]
    exact Nat.mod_eq_of_lt (by omega)
  have size : msg.bytes 0 = msg.nMegs.toNat * 2 ^ 20 := rfl
  refine ⟨shifted, by omega, fun zero => ?_⟩
  rw [zero] at shifted
  have empty : (0 : Bit32u).toNat = 0 := rfl
  omega

/-- Whether the areas are apart only depends on what surrounds the guest's memory. -/
theorem areasApart_iff {vmState guestNMegs : Bit32u} {msg : RegisterMem}
    (passed : msg.check vmState guestNMegs = none) :
    msg.AreasApart ↔ msg.start 0 + msg.bytes 0 ≤ 2 ^ 32 ∧
      ∀ other ∈ compared, Disjoint (msg.addresses 0) (msg.addresses other) := by
  obtain ⟨logAligned, cpuAligned, untouched⟩ := check_passed passed
  have logNoWrap : msg.start 1 + msg.bytes 1 ≤ 2 ^ 32 := page_noWrap logAligned
  have cpuNoWrap : msg.start 2 + msg.bytes 2 ≤ 2 ^ 32 := page_noWrap cpuAligned
  have pages : Disjoint (msg.addresses 1) (msg.addresses 2) :=
    (disjoint_iff (by simp [bytes]) (by simp [bytes])).mpr
      ((page_apart (by decide) (page_noWrap logAligned) cpuAligned).mp untouched)
  constructor
  · intro apart
    refine ⟨apart.noWrap 0, fun other member => apart.disjoint 0 other ?_⟩
    rintro rfl
    simp [compared] at member
  · rintro ⟨fits, clear⟩
    have log := clear 1 (by simp [compared])
    have cpu := clear 2 (by simp [compared])
    refine ⟨fun first second different => ?_, fun area => ?_⟩
    · match first, second with
      | 0, 1 => exact log
      | 0, 2 => exact cpu
      | 1, 0 => exact log.symm
      | 1, 2 => exact pages
      | 2, 0 => exact cpu.symm
      | 2, 1 => exact pages.symm
      | 0, 0 | 1, 1 | 2, 2 => exact (different rfl).elim
    · match area with
      | 0 => exact fits
      | 1 => exact logNoWrap
      | 2 => exact cpuNoWrap

/-- The user areas are apart exactly when the guest's memory would also have
passed the comparison that it is left out of. -/
theorem registered_areas_apart {vmState guestNMegs : Bit32u} {msg : RegisterMem}
    (passed : msg.check vmState guestNMegs = none) :
    msg.AreasApart ↔ msg.GuestMemoryCompared := by
  obtain ⟨logAligned, cpuAligned, -⟩ := check_passed passed
  have aligned : ∀ other ∈ compared, ∃ page, msg.userRegion other = regionAt page 4096 ∧
      msg.start other = page.toNat ∧ msg.bytes other = 4096 ∧ page &&& 0xfff = 0 := by
    simp only [compared, List.forall_mem_cons]
    exact ⟨⟨_, rfl, rfl, rfl, logAligned⟩, ⟨_, rfl, rfl, rfl, cpuAligned⟩, by simp⟩
  rw [areasApart_iff passed, GuestMemoryCompared]
  by_cases empty : msg.nMegs = 0
  · have nothing : msg.bytes 0 = 0 := by simp [bytes, empty]
    have fits : msg.start 0 ≤ 2 ^ 32 := msg.guestPhyMemVector.isLt.le
    have absent : msg.addresses 0 = ∅ := by simp [addresses, nothing]
    refine iff_of_true ⟨?_, fun other _ => ?_⟩ (.inl empty)
    · rw [nothing]
      exact fits
    · rw [absent]
      exact disjoint_bot_left
  by_cases small : msg.nMegs < 4096
  · obtain ⟨shifted, positive, some⟩ := guestMemory_size empty small
    have forward : (msg.userRegion 0).min ≤ (msg.userRegion 0).max ↔
        msg.start 0 + msg.bytes 0 ≤ 2 ^ 32 := by
      rw [← shifted]
      exact regionAt_forward some
    simp only [empty, false_or, small, true_and, forward]
    refine and_congr_right fun fits => forall₂_congr fun other member => ?_
    obtain ⟨page, region, start, bytes, pageOK⟩ := aligned other member
    have noWrap : msg.guestPhyMemVector.toNat + (msg.nMegs <<< 20).toNat ≤ 2 ^ 32 := by
      rw [shifted]
      exact fits
    rw [disjoint_iff positive (by omega), region, start, bytes, ← shifted]
    exact (page_apart some noWrap pageOK).symm
  · have large : 2 ^ 32 ≤ msg.bytes 0 := by
      have bound : ¬ msg.nMegs.toNat < 4096 := small
      simp only [bytes]
      omega
    have log := msg.logBufferWindow.isLt
    have starts : msg.start 1 = msg.logBufferWindow.toNat := rfl
    have page : msg.bytes 1 = 4096 := rfl
    simp only [empty, small, false_and, or_false, iff_false, not_and]
    intro fits apart
    have clear := (disjoint_iff (by omega) (by omega)).mp (apart 1 (by simp [compared]))
    omega

theorem registered_areas_apart_sample :
    let msg : RegisterMem := ⟨32, 0x40000000, 0x42000000, 0x42001000⟩
    msg.check vmStateFDOpened 0 = none ∧ (msg.AreasApart ↔ msg.GuestMemoryCompared) :=
  have passed : RegisterMem.check vmStateFDOpened 0 ⟨32, 0x40000000, 0x42000000, 0x42001000⟩ = none :=
    by decide
  ⟨passed, registered_areas_apart passed⟩

/-- The log buffer and the guest CPU area may lie in the guest's own memory. -/
theorem registered_areas_overlap : ∃ vmState guestNMegs msg,
    RegisterMem.check vmState guestNMegs msg = none ∧ ¬ msg.AreasApart := by
  refine ⟨vmStateFDOpened, 0, ⟨32, 0x40000000, 0x40000000, 0x40001000⟩, by decide, fun apart => ?_⟩
  have clash := Set.disjoint_left.mp (apart.disjoint 0 1 (by decide))
  exact @clash 0x40000000 (by simp [addresses, start, bytes]) (by simp [addresses, start, bytes])

end RegisterMem
end Plex86
