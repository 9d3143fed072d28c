import Plex86.Emulate.GuestSpec

/-! Guest memory byte by byte: the bytes that the guest's tables put at its linear
addresses, which of them there are, and what they have to do with the objects and
words that the accessors fetch and store. -/

namespace Plex86

open Logic

/-- The pages of the guest make up its memory, and there is one at least. -/
structure Setup.Paged (setup : Setup) : Prop where
  bytes : setup.guestNBytes.toNat = setup.guestNPages.toNat * 4096
  pages : 0 < setup.guestNPages.toNat

/-- An address apart: the number of its page, and the offset in it. -/
def atPage (ppi : Bit32u) (offset : Bit32u) : Bit32u := (ppi <<< 12) ||| (offset &&& 0xfff#32)

/-- Masks with nothing in the offset see the page only. -/
theorem and_page {mask first second : Bit32u} (high : mask &&& 0xfff#32 = 0#32)
    (same : first >>> 12 = second >>> 12) : first &&& mask = second &&& mask := by
  apply BitVec.eq_of_getLsbD_eq
  intro index small
  rw [BitVec.getLsbD_and, BitVec.getLsbD_and]
  by_cases low : index < 12
  · have clear := congrArg (fun word : Bit32u => word.getLsbD index) high
    have within : (0xfff#32).getLsbD index = true := by
      have mask : ∀ index < 12, (0xfff#32).getLsbD index = true := by decide
      exact mask index low
    simp only [BitVec.getLsbD_and, within, Bool.and_true, BitVec.getLsbD_zero] at clear
    rw [clear, Bool.and_false, Bool.and_false]
  · have bit := congrArg (fun word : Bit32u => word.getLsbD (index - 12)) same
    simp only [BitVec.getLsbD_ushiftRight, show 12 + (index - 12) = index by omega] at bit
    rw [bit]

theorem frame_eq (entry : Bit32u) : entry &&& 0xfffff000#32 = (entry >>> 12) <<< 12 := by
  apply BitVec.eq_of_getLsbD_eq
  intro index small
  rw [BitVec.getLsbD_and, BitVec.getLsbD_shiftLeft, BitVec.getLsbD_ushiftRight]
  have mask : ∀ index < 32, (0xfffff000#32).getLsbD index = decide (12 ≤ index) := by decide
  rw [mask index small]
  by_cases low : index < 12
  · simp [low, Nat.not_le.mpr low]
  · simp [low, small, Nat.le_of_not_lt low, show 12 + (index - 12) = index by omega]

theorem atPage_toNat {ppi : Bit32u} (offset : Bit32u) (small : ppi.toNat < 2 ^ 20) :
    (atPage ppi offset).toNat = ppi.toNat * 4096 + pageOffset offset := by
  have shifted : (ppi <<< 12).toNat = ppi.toNat * 4096 := by
    rw [BitVec.toNat_shiftLeft, Nat.shiftLeft_eq, Nat.mod_eq_of_lt (by omega)]
  have low := pageOffset_lt offset
  rw [atPage, BitVec.toNat_or, shifted, and_fff_toNat, Nat.mul_comm,
    ← Nat.two_pow_add_eq_or_of_lt (i := 12) low]

theorem atPage_page {ppi : Bit32u} (offset : Bit32u) (small : ppi.toNat < 2 ^ 20) :
    atPage ppi offset >>> 12 = ppi := by
  have low := pageOffset_lt offset
  apply BitVec.eq_of_toNat_eq
  rw [BitVec.toNat_ushiftRight, atPage_toNat offset small, Nat.shiftRight_eq_div_pow]
  omega

theorem atPage_offset {ppi : Bit32u} (offset : Bit32u) (small : ppi.toNat < 2 ^ 20) :
    pageOffset (atPage ppi offset) = pageOffset offset := by
  have low := pageOffset_lt offset
  rw [pageOffset_eq (atPage ppi offset), atPage_toNat offset small]
  omega

theorem page_small (addr : Bit32u) : (addr >>> 12).toNat < 2 ^ 20 := by
  rw [BitVec.toNat_ushiftRight, Nat.shiftRight_eq_div_pow]
  omega

theorem page_offset_toNat (addr : Bit32u) :
    addr.toNat = (addr >>> 12).toNat * 4096 + pageOffset addr := by
  rw [BitVec.toNat_ushiftRight, Nat.shiftRight_eq_div_pow, pageOffset_eq]
  omega

theorem atPage_self (addr : Bit32u) : atPage (addr >>> 12) addr = addr :=
  BitVec.eq_of_toNat_eq ((atPage_toNat addr (page_small addr)).trans (page_offset_toNat addr).symm)

section Steps

variable {lAddr : Bit32u} {count : Nat}

/-- Going on within the page of an address. -/
theorem offset_toNat (within : pageOffset lAddr + count < 4096) :
    (lAddr + BitVec.ofNat 32 count).toNat = lAddr.toNat + count := by
  have whole := page_offset_toNat lAddr
  have small := page_small lAddr
  rw [BitVec.toNat_add, BitVec.toNat_ofNat, Nat.mod_eq_of_lt (b := 2 ^ 32) (by omega : count < _),
    Nat.mod_eq_of_lt (by omega)]

theorem offset_page (within : pageOffset lAddr + count < 4096) :
    (lAddr + BitVec.ofNat 32 count) >>> 12 = lAddr >>> 12 := by
  rw [pageOffset_eq] at within
  apply BitVec.eq_of_toNat_eq
  rw [BitVec.toNat_ushiftRight, BitVec.toNat_ushiftRight, offset_toNat (by rwa [pageOffset_eq]),
    Nat.shiftRight_eq_div_pow, Nat.shiftRight_eq_div_pow]
  omega

private theorem offset_offset (within : pageOffset lAddr + count < 4096) :
    pageOffset (lAddr + BitVec.ofNat 32 count) = pageOffset lAddr + count := by
  rw [pageOffset_eq (lAddr + _), offset_toNat within]
  rw [pageOffset_eq] at within ⊢
  omega

/-- The next page begins where the page of an address ends. -/
theorem next_offset (lAddr : Bit32u) :
    pageOffset (lAddr + BitVec.ofNat 32 (4096 - pageOffset lAddr)) = 0 := by
  have low := pageOffset_lt lAddr
  rw [pageOffset_eq] at low
  rw [pageOffset_eq, BitVec.toNat_add, BitVec.toNat_ofNat, pageOffset_eq,
    Nat.mod_mod_of_dvd _ (by decide : 4096 ∣ 2 ^ 32)]
  omega

end Steps

namespace Vm

/-- The guest page in which the guest's tables put a linear address, if in any. -/
def pageOf (vm : Vm) (lAddr : Bit32u) : Option Bit32u :=
  if ¬ vm.guestCpu.pg then some (lAddr >>> 12)
  else if vm.guestCpu.cr4 &&& 0x30#32 ≠ 0 then none
  else
    let pdeAddr := pdeAddrOf vm.guestCpu.cr3 lAddr
    if vm.setup.guestNBytes ≤ pdeAddr ∨ ¬ (vm.physWord 32 pdeAddr).getLsbD 0 then none
    else
      let pteAddr := pteAddrOf (vm.physWord 32 pdeAddr) lAddr
      if vm.setup.guestNBytes ≤ pteAddr ∨ ¬ (vm.physWord 32 pteAddr).getLsbD 0 then none
      else some (vm.physWord 32 pteAddr >>> 12)

/-- The address found is the offset in that page. -/
theorem translated_eq (vm : Vm) (lAddr : Bit32u) : vm.translated lAddr =
    match vm.pageOf lAddr with
    | none => linAddrNotAvailable
    | some ppi => atPage ppi lAddr := by
  unfold translated pageOf
  by_cases paging : vm.guestCpu.pg = true
  · simp only [paging, not_true, if_false]
    by_cases wide : vm.guestCpu.cr4 &&& 0x30#32 ≠ 0
    · simp only [if_pos wide]
    · simp only [if_neg wide]
      by_cases pdeOut : vm.setup.guestNBytes ≤ pdeAddrOf vm.guestCpu.cr3 lAddr
      · simp only [pdeOut, true_or, if_true]
      · simp only [pdeOut, false_or, if_false]
        generalize vm.physWord 32 (pdeAddrOf vm.guestCpu.cr3 lAddr) = pde
        by_cases present : pde.getLsbD 0 = true
        · simp only [present, not_true, if_false]
          by_cases pteOut : vm.setup.guestNBytes ≤ pteAddrOf pde lAddr
          · simp only [pteOut, true_or, if_true]
          · simp only [pteOut, false_or, if_false]
            generalize vm.physWord 32 (pteAddrOf pde lAddr) = pte
            by_cases mapped : pte.getLsbD 0 = true
            · simp only [mapped, not_true, if_false, atPage, frame_eq]
            · simp only [if_pos mapped]
        · simp only [if_pos present]
  · simp only [if_pos paging]
    exact (atPage_self lAddr).symm

theorem pageOf_small {vm : Vm} {lAddr ppi : Bit32u} (found : vm.pageOf lAddr = some ppi) :
    ppi.toNat < 2 ^ 20 := by
  unfold pageOf at found
  split at found
  · cases found
    exact page_small lAddr
  split at found
  · cases found
  dsimp only at found
  split at found
  · cases found
  split at found
  · cases found
  cases found
  exact page_small _

/-- The tables say the same of every address in a page. -/
theorem pageOf_congr (vm : Vm) {first second : Bit32u} (same : first >>> 12 = second >>> 12) :
    vm.pageOf first = vm.pageOf second := by
  have directory : ∀ cr3, pdeAddrOf cr3 first = pdeAddrOf cr3 second := fun cr3 => by
    rw [pdeAddrOf, and_page (by decide) same, pdeAddrOf]
  have table : ∀ pde, pteAddrOf pde first = pteAddrOf pde second := fun pde => by
    rw [pteAddrOf, and_page (by decide) same, pteAddrOf]
  simp only [pageOf, directory, table, same]

/-- The guest has a byte at the address: it is mapped, to a place in memory. -/
def Available (vm : Vm) (lAddr : Bit32u) : Prop :=
  vm.translated lAddr ≠ linAddrNotAvailable ∧ vm.translated lAddr < vm.setup.guestNBytes

instance (vm : Vm) (lAddr : Bit32u) : Decidable (vm.Available lAddr) :=
  inferInstanceAs (Decidable (_ ∧ _))

/-- Where in memory the byte of an address is: the page, and the offset in it. -/
def place (vm : Vm) (lAddr : Bit32u) : Bit32u × Nat :=
  (vm.translated lAddr >>> 12, pageOffset (vm.translated lAddr))

def byteAt (vm : Vm) (lAddr : Bit32u) : Bit8u := vm.mem (vm.place lAddr).1 (vm.place lAddr).2

/-- The bytes at an address and the next ones; after the last address comes the first. -/
def bytesAt (vm : Vm) (lAddr : Bit32u) (count : Nat) : List Bit8u :=
  (List.range count).map fun index => vm.byteAt (lAddr + BitVec.ofNat 32 index)

theorem translated_none {vm : Vm} {lAddr : Bit32u} (missing : vm.pageOf lAddr = none) :
    vm.translated lAddr = linAddrNotAvailable := by
  rw [translated_eq, missing]

section Found

variable {vm : Vm} {lAddr ppi : Bit32u} {count : Nat}

theorem translated_some (found : vm.pageOf lAddr = some ppi) :
    vm.translated lAddr = atPage ppi lAddr := by
  rw [translated_eq, found]

/-- Going on within the page, in linear and in physical memory. -/
theorem pageOf_offset (found : vm.pageOf lAddr = some ppi)
    (within : pageOffset lAddr + count < 4096) :
    vm.pageOf (lAddr + BitVec.ofNat 32 count) = some ppi := by
  rw [vm.pageOf_congr (offset_page within), found]

private theorem translated_within (found : vm.pageOf lAddr = some ppi)
    (within : pageOffset lAddr + count < 4096) :
    (vm.translated (lAddr + BitVec.ofNat 32 count)).toNat =
      ppi.toNat * 4096 + (pageOffset lAddr + count) := by
  rw [translated_some (pageOf_offset found within), atPage_toNat _ (pageOf_small found),
    offset_offset within]

theorem place_offset (found : vm.pageOf lAddr = some ppi)
    (within : pageOffset lAddr + count < 4096) :
    vm.place (lAddr + BitVec.ofNat 32 count) = (ppi, pageOffset lAddr + count) := by
  rw [place, translated_some (pageOf_offset found within), atPage_page _ (pageOf_small found),
    atPage_offset _ (pageOf_small found), offset_offset within]

private theorem available_offset (found : vm.pageOf lAddr = some ppi)
    (within : pageOffset lAddr + count < 4096) :
    vm.Available (lAddr + BitVec.ofNat 32 count) ↔
      ppi.toNat * 4096 + (pageOffset lAddr + count) < vm.setup.guestNBytes.toNat := by
  have here := translated_within found within
  unfold Available
  constructor
  · intro available
    rw [← here]
    exact BitVec.lt_def.mp available.2
  · intro inside
    have below : vm.translated (lAddr + BitVec.ofNat 32 count) < vm.setup.guestNBytes := by
      rw [BitVec.lt_def, here]
      exact inside
    refine ⟨fun last => ?_, below⟩
    have most := vm.setup.guestNBytes.isLt
    rw [last] at below
    exact absurd (BitVec.lt_def.mp below) (by simp [linAddrNotAvailable]; omega)

end Found

/-- Nothing is there where the tables give no page. -/
theorem not_available {vm : Vm} {lAddr : Bit32u} (missing : vm.pageOf lAddr = none) :
    ¬ vm.Available lAddr :=
  fun available => available.1 (translated_none missing)

theorem add_zero_offset (lAddr : Bit32u) : lAddr + BitVec.ofNat 32 0 = lAddr := BitVec.add_zero lAddr

/-- The bounds test of the accessors: every byte of the part in the page is there. -/
theorem mapped_iff {vm : Vm} {lAddr room : Bit32u} (large : 4096 ≤ vm.setup.guestNBytes.toNat)
    (nonempty : 0 < room.toNat) (within : pageOffset lAddr + room.toNat ≤ 4096) :
    vm.Mapped lAddr room ↔ ∀ index < room.toNat, vm.Available (lAddr + BitVec.ofNat 32 index) := by
  cases found : vm.pageOf lAddr with
  | none =>
      constructor
      · exact fun mapped => absurd (translated_none found) mapped.1
      · intro available
        have first := available 0 nonempty
        rw [add_zero_offset] at first
        exact absurd first (not_available found)
  | some ppi =>
      have low := pageOffset_lt lAddr
      have start : (vm.translated (lAddr + BitVec.ofNat 32 0)).toNat =
          ppi.toNat * 4096 + (pageOffset lAddr + 0) := translated_within found (by omega)
      rw [add_zero_offset] at start
      have bound : (vm.setup.guestNBytes - room).toNat =
          vm.setup.guestNBytes.toNat - room.toNat := by
        rw [BitVec.toNat_sub_of_le]
        rw [BitVec.le_def]
        omega
      constructor
      · intro mapped index below
        have fits := mapped.2
        rw [BitVec.lt_def, bound, start] at fits
        rw [available_offset found (by omega)]
        omega
      · intro available
        have last := available (room.toNat - 1) (by omega)
        rw [available_offset found (by omega)] at last
        have first := available 0 nonempty
        rw [add_zero_offset] at first
        refine ⟨first.1, ?_⟩
        rw [BitVec.lt_def, bound, start]
        omega

/-- How far the page of an address goes. -/
theorem headLen_toNat {vm : Vm} {lAddr ppi : Bit32u} (found : vm.pageOf lAddr = some ppi) :
    (vm.headLen lAddr).toNat = 4096 - pageOffset lAddr := by
  have same : pageOffset (vm.translated lAddr) = pageOffset lAddr := by
    rw [translated_some found, atPage_offset _ (pageOf_small found)]
  have low := pageOffset_lt lAddr
  rw [headLen, BitVec.toNat_sub_of_le, and_fff_toNat, same]
  · rfl
  · rw [BitVec.le_def, and_fff_toNat, same]
    change _ ≤ 4096
    omega

/-- The second part of an object begins where the next page does. -/
theorem second_offset {vm : Vm} {lAddr ppi : Bit32u} (found : vm.pageOf lAddr = some ppi) :
    pageOffset (lAddr + vm.headLen lAddr) = 0 := by
  have here : vm.headLen lAddr = BitVec.ofNat 32 (4096 - pageOffset lAddr) := by
    rw [← headLen_toNat found, BitVec.ofNat_toNat, BitVec.setWidth_eq]
  rw [here]
  exact next_offset lAddr

private theorem headLen_rest {vm : Vm} {lAddr len ppi : Bit32u} (found : vm.pageOf lAddr = some ppi)
    (crosses : ¬ pageOffset lAddr + len.toNat ≤ 4096) :
    (len - vm.headLen lAddr).toNat = len.toNat - (vm.headLen lAddr).toNat := by
  have head := headLen_toNat found
  apply BitVec.toNat_sub_of_le
  rw [BitVec.le_def]
  omega

/-- The test whether an object lies in one page. -/
theorem inPage_iff {addr len : Bit32u} (small : len.toNat ≤ 4096) :
    addr &&& 0xfff#32 ≤ 0x1000#32 - len ↔ pageOffset addr + len.toNat ≤ 4096 := by
  have room : (0x1000#32 - len).toNat = 4096 - len.toNat := BitVec.toNat_sub_of_le small
  rw [BitVec.le_def, and_fff_toNat, room]
  omega

/-- The bytes of a longer stretch are those of two shorter ones. -/
theorem forall_split (holds : Nat → Prop) {head whole : Nat} (inside : head ≤ whole) :
    (∀ index < whole, holds index) ↔
      (∀ index < head, holds index) ∧ ∀ index < whole - head, holds (head + index) := by
  constructor
  · exact fun all => ⟨fun index below => all index (by omega),
      fun index below => all (head + index) (by omega)⟩
  · rintro ⟨first, second⟩ index below
    by_cases low : index < head
    · exact first index low
    · have rest := second (index - head) (by omega)
      rwa [show head + (index - head) = index by omega] at rest

/-- An object can be fetched exactly where all its bytes are. -/
theorem objectMapped_iff {vm : Vm} {lAddr len : Bit32u} (large : 4096 ≤ vm.setup.guestNBytes.toNat)
    (nonempty : 0 < len.toNat) (small : len.toNat ≤ 4096) :
    vm.ObjectMapped lAddr len ↔
      ∀ index < len.toNat, vm.Available (lAddr + BitVec.ofNat 32 index) := by
  cases found : vm.pageOf lAddr with
  | none =>
      have missing : ∀ room, ¬ vm.Mapped lAddr room :=
        fun room mapped => mapped.1 (translated_none found)
      constructor
      · intro mapped
        unfold ObjectMapped at mapped
        split at mapped
        · exact absurd mapped (missing _)
        · exact absurd mapped.1 (missing _)
      · intro available
        have first := available 0 nonempty
        rw [add_zero_offset] at first
        exact absurd first (not_available found)
  | some ppi =>
      have low := pageOffset_lt lAddr
      have head := headLen_toNat found
      have same : pageOffset (vm.translated lAddr) = pageOffset lAddr := by
        rw [translated_some found, atPage_offset _ (pageOf_small found)]
      have test : vm.translated lAddr &&& 0xfff#32 ≤ 0x1000#32 - len ↔
          pageOffset lAddr + len.toNat ≤ 4096 := by
        rw [inPage_iff small, same]
      by_cases within : pageOffset lAddr + len.toNat ≤ 4096
      · rw [ObjectMapped, if_pos (test.mpr within)]
        exact mapped_iff large nonempty within
      · rw [ObjectMapped, if_neg (mt test.mp within)]
        have rest := headLen_rest found within
        have start := second_offset found
        rw [mapped_iff large (by omega) (by omega),
          mapped_iff large (by omega) (by omega), rest,
          forall_split _ (show (vm.headLen lAddr).toNat ≤ len.toNat by omega)]
        simp only [BitVec.ofNat_add, BitVec.ofNat_toNat, BitVec.setWidth_eq, BitVec.add_assoc]

private theorem bytesFrom_eq (bytes : Bytes) (offset count : Nat) :
    bytesFrom bytes offset count = (List.range count).map fun index => bytes (offset + index) := by
  induction count generalizing offset with
  | zero => rfl
  | succ count inductionHypothesis =>
      have first : loadWord 8 bytes offset = bytes offset := by
        simp [loadWord, load]
      rw [bytesFrom, first, inductionHypothesis, List.range_succ_eq_map, List.map_cons, List.map_map]
      simp only [Function.comp_def, Nat.succ_eq_add_one, Nat.add_assoc, Nat.add_comm 1, Nat.add_zero]

/-- The bytes of memory in the page of an address are those of the next addresses. -/
theorem bytesFrom_page {vm : Vm} {lAddr ppi : Bit32u} {count : Nat}
    (found : vm.pageOf lAddr = some ppi) (within : pageOffset lAddr + count ≤ 4096) :
    bytesFrom (vm.mem ppi) (pageOffset lAddr) count = vm.bytesAt lAddr count := by
  rw [bytesFrom_eq, bytesAt]
  apply List.map_congr_left
  intro index below
  have inside := List.mem_range.mp below
  rw [byteAt, place_offset found (by omega)]

private theorem bytesAt_split (vm : Vm) (lAddr : Bit32u) (head rest : Nat) :
    vm.bytesAt lAddr (head + rest) =
      vm.bytesAt lAddr head ++ vm.bytesAt (lAddr + BitVec.ofNat 32 head) rest := by
  rw [bytesAt, List.range_add, List.map_append, List.map_map, bytesAt, bytesAt]
  congr 1
  apply List.map_congr_left
  intro index _
  rw [Function.comp_apply, BitVec.ofNat_add, BitVec.add_assoc]

/-- The fast path for dwords fetches the same four bytes. -/
theorem dwordBytes_eq (bytes : Bytes) (offset : Nat) :
    dwordBytes (loadWord 32 bytes offset) = bytesFrom bytes offset 4 := by
  have byte : ∀ index < 4, (loadWord 32 bytes offset).extractLsb' (8 * index) 8 =
      bytes (offset + index) := by
    intro index below
    have bound : ∀ place, (bytes place).toNat < 256 := fun place => (bytes place).isLt
    have all := And.intro (bound offset) (And.intro (bound (offset + 1))
      (And.intro (bound (offset + 2)) (bound (offset + 3))))
    apply BitVec.eq_of_toNat_eq
    have whole : (loadWord 32 bytes offset).toNat = load bytes offset 4 := by
      rw [loadWord, BitVec.toNat_ofNat]
      exact Nat.mod_eq_of_lt (load_lt bytes offset 4)
    rw [BitVec.extractLsb'_toNat, whole, Nat.shiftRight_eq_div_pow]
    simp only [load, Nat.mul_zero, Nat.add_zero, Nat.add_assoc, Nat.reduceAdd]
    have cases : index = 0 ∨ index = 1 ∨ index = 2 ∨ index = 3 := by omega
    rcases cases with rfl | rfl | rfl | rfl <;>
      simp only [Nat.reduceMul, Nat.reducePow, Nat.add_zero] <;> omega
  rw [bytesFrom_eq, dwordBytes, byte 0 (by decide), byte 1 (by decide), byte 2 (by decide),
    byte 3 (by decide)]
  rfl

/-- An object that can be fetched is the bytes at its address. -/
theorem objectAt_eq {vm : Vm} {lAddr len : Bit32u} (small : len.toNat ≤ 4096)
    (mapped : vm.ObjectMapped lAddr len) : vm.objectAt lAddr len = vm.bytesAt lAddr len.toNat := by
  cases found : vm.pageOf lAddr with
  | none =>
      unfold ObjectMapped at mapped
      split at mapped
      · exact absurd (translated_none found) mapped.1
      · exact absurd (translated_none found) mapped.1.1
  | some ppi =>
      have low := pageOffset_lt lAddr
      have page : vm.translated lAddr >>> 12 = ppi := by
        rw [translated_some found, atPage_page _ (pageOf_small found)]
      have same : (vm.translated lAddr &&& 0xfff#32).toNat = pageOffset lAddr := by
        rw [and_fff_toNat, translated_some found, atPage_offset _ (pageOf_small found)]
      have test : vm.translated lAddr &&& 0xfff#32 ≤ 0x1000#32 - len ↔
          pageOffset lAddr + len.toNat ≤ 4096 := by
        rw [inPage_iff small, ← and_fff_toNat, same]
      unfold objectAt
      dsimp only
      rw [page, same]
      by_cases within : pageOffset lAddr + len.toNat ≤ 4096
      · rw [if_pos (test.mpr within)]
        split
        · next dword =>
            rw [dwordBytes_eq, dword]
            exact bytesFrom_page found (by rw [dword] at within; exact within)
        · exact bytesFrom_page found within
      · have crosses := mt test.mp within
        have head := headLen_toNat found
        rw [ObjectMapped, if_neg crosses] at mapped
        rw [if_neg crosses]
        have rest := headLen_rest found within
        have start := second_offset found
        cases next : vm.pageOf (lAddr + vm.headLen lAddr) with
        | none => exact absurd (translated_none next) mapped.2.1
        | some ppi' =>
            have page' : vm.translated (lAddr + vm.headLen lAddr) >>> 12 = ppi' := by
              rw [translated_some next, atPage_page _ (pageOf_small next)]
            have first : bytesFrom (vm.mem ppi) (pageOffset lAddr) (vm.headLen lAddr).toNat = _ :=
              bytesFrom_page found (by omega)
            have second : bytesFrom (vm.mem ppi') (pageOffset (lAddr + vm.headLen lAddr))
                (len - vm.headLen lAddr).toNat = _ := bytesFrom_page next (by omega)
            rw [start] at second
            rw [page', first, second, rest]
            have whole : len.toNat =
                (vm.headLen lAddr).toNat + (len.toNat - (vm.headLen lAddr).toNat) := by omega
            conv_rhs => rw [whole, bytesAt_split]
            rw [BitVec.ofNat_toNat, BitVec.setWidth_eq]

private theorem numberOf_bytesFrom (bytes : Bytes) (offset count : Nat) :
    numberOf (bytesFrom bytes offset count) = load bytes offset count := by
  induction count generalizing offset with
  | zero => rfl
  | succ count inductionHypothesis =>
      have first : loadWord 8 bytes offset = bytes offset := by
        simp [loadWord, load]
      rw [bytesFrom, load, ← inductionHypothesis, first]
      rfl

/-- A word that can be fetched is the number its bytes stand for. -/
theorem wordAt_eq {width : Nat} {vm : Vm} {lAddr len : Bit32u} (small : len.toNat ≤ 4096)
    (bytes : len.toNat = width / 8) (mapped : vm.WordMapped lAddr len) :
    vm.wordAt width lAddr len = BitVec.ofNat width (numberOf (vm.bytesAt lAddr len.toNat)) := by
  rw [WordMapped] at mapped
  rw [wordAt]
  split at mapped
  · next inside =>
      rw [if_pos inside]
      cases found : vm.pageOf lAddr with
      | none => exact absurd (translated_none found) mapped.1
      | some ppi =>
          have page : vm.translated lAddr >>> 12 = ppi := by
            rw [translated_some found, atPage_page _ (pageOf_small found)]
          rw [page, ← bytesFrom_page found ((inPage_iff small).mp inside), numberOf_bytesFrom,
            bytes, loadWord]
  · next crosses => rw [if_neg crosses, objectAt_eq small mapped]

theorem wordMapped_iff {vm : Vm} {lAddr len : Bit32u} (large : 4096 ≤ vm.setup.guestNBytes.toNat)
    (nonempty : 0 < len.toNat) (small : len.toNat ≤ 4096) :
    vm.WordMapped lAddr len ↔
      ∀ index < len.toNat, vm.Available (lAddr + BitVec.ofNat 32 index) := by
  rw [WordMapped]
  split
  · next inside => exact mapped_iff large nonempty ((inPage_iff small).mp inside)
  · exact objectMapped_iff large nonempty small

/-- A dword can be stored where all its bytes are, in one page. -/
theorem storable_iff {vm : Vm} {lAddr : Bit32u} (large : 4096 ≤ vm.setup.guestNBytes.toNat) :
    vm.Storable lAddr ↔ pageOffset lAddr + 4 ≤ 4096 ∧
      ∀ index < 4, vm.Available (lAddr + BitVec.ofNat 32 index) := by
  cases found : vm.pageOf lAddr with
  | none =>
      constructor
      · exact fun storable => absurd (translated_none found) storable.1
      · rintro ⟨-, available⟩
        have first := available 0 (by decide)
        rw [add_zero_offset] at first
        exact absurd first (not_available found)
  | some ppi =>
      have small := pageOf_small found
      have start : (vm.translated lAddr).toNat = ppi.toNat * 4096 + pageOffset lAddr := by
        rw [translated_some found, atPage_toNat _ small]
      have same : (vm.translated lAddr &&& 0xfff#32).toNat = pageOffset lAddr := by
        rw [and_fff_toNat, translated_some found, atPage_offset _ small]
      have bound : (vm.setup.guestNBytes - 3).toNat = vm.setup.guestNBytes.toNat - 3 := by
        apply BitVec.toNat_sub_of_le
        rw [BitVec.le_def]
        exact Nat.le_trans (by decide) large
      rw [Storable, BitVec.le_def, bound, start, BitVec.le_def, same]
      change _ ∧ _ ∧ ¬ 4093 ≤ _ ↔ _
      constructor
      · rintro ⟨-, fits, within⟩
        refine ⟨by omega, fun index below => ?_⟩
        rw [available_offset found (by omega)]
        omega
      · rintro ⟨within, available⟩
        have last := available 3 (by decide)
        rw [available_offset found (by omega)] at last
        have first := available 0 (by decide)
        rw [add_zero_offset] at first
        exact ⟨first.1, by omega, by omega⟩

end Vm
end Plex86
