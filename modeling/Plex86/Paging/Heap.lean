import Plex86.Logic.Run
import Plex86.Paging.PageTables
import Plex86.Paging.WindowSpec

/-! The heap of monitor page tables stays consistent: the directory, the index
map and the allocation counter tell of the same tables. -/

namespace Plex86

open Logic

/-- The directory, the index map and the allocation counter agree, for every
directory index but the monitor's own. -/
structure HeapOk (setup : Setup) (shadow : Shadow) : Prop where
  counter : shadow.ptblLaddrMapI ≤ monPageTables
  present_iff : ∀ pdi, pdi ≠ setup.monPdi →
    ((shadow.pageDir pdi).p = true ↔ shadow.pageTblLaddrMap pdi ≠ noPageTable)
  bound : ∀ pdi, pdi ≠ setup.monPdi → shadow.pageTblLaddrMap pdi ≠ noPageTable →
    shadow.pageTblLaddrMap pdi < shadow.ptblLaddrMapI
  base : ∀ pdi, pdi ≠ setup.monPdi → shadow.pageTblLaddrMap pdi ≠ noPageTable →
    (shadow.pageDir pdi).base = setup.pageTbl (shadow.pageTblLaddrMap pdi)
  distinct : ∀ first second, first ≠ setup.monPdi → second ≠ setup.monPdi →
    shadow.pageTblLaddrMap first ≠ noPageTable →
      shadow.pageTblLaddrMap first = shadow.pageTblLaddrMap second → first = second

/-- A free table put under a directory entry: the map, the counter, the cleared
table and the entry itself. -/
def Shadow.allocate (shadow : Shadow) (pdi : BitVec 10) (entry : PageEntry) : Shadow :=
  { pageDir := Function.update shadow.pageDir pdi entry
    pageTbl := Function.update shadow.pageTbl shadow.ptblLaddrMapI fun _ => ⟨0⟩
    pageTblLaddrMap := Function.update shadow.pageTblLaddrMap pdi shadow.ptblLaddrMapI
    ptblLaddrMapI := shadow.ptblLaddrMapI + 1 }

def Shadow.setPTE (shadow : Shadow) (ptIndex : Bit32u) (pti : BitVec 10) (entry : PageEntry) :
    Shadow :=
  { shadow with
    pageTbl := Function.update shadow.pageTbl ptIndex
      (Function.update (shadow.pageTbl ptIndex) pti entry) }

namespace HeapOk

variable {setup : Setup} {shadow : Shadow}

/-- The reset leaves a consistent heap whatever was there before. -/
theorem init (setup : Setup) (shadow : Shadow) : HeapOk setup (shadow.init setup.monPdi) where
  counter := by simp [Shadow.init, monPageTables]
  present_iff := by
    intro pdi other
    simp [Shadow.init, other]
  bound := fun pdi _ mapped => (mapped rfl).elim
  base := fun pdi _ mapped => (mapped rfl).elim
  distinct := fun first _ _ _ mapped => (mapped rfl).elim

theorem index_lt (heap : HeapOk setup shadow) {pdi : BitVec 10} (other : pdi ≠ setup.monPdi)
    (mapped : shadow.pageTblLaddrMap pdi ≠ noPageTable) :
    shadow.pageTblLaddrMap pdi < monPageTables := by
  have below := heap.bound pdi other mapped
  have small := heap.counter
  bv_omega

theorem allocate (heap : HeapOk setup shadow) {pdi : BitVec 10} {entry : PageEntry}
    (room : shadow.ptblLaddrMapI < monPageTables) (present : entry.p = true)
    (base : entry.base = setup.pageTbl shadow.ptblLaddrMapI) :
    HeapOk setup (shadow.allocate pdi entry) := by
  have small : shadow.ptblLaddrMapI.toNat < 80 := by
    simpa [monPageTables] using BitVec.lt_def.mp room
  have known : shadow.ptblLaddrMapI ≠ noPageTable := by
    intro same
    simp [same, noPageTable] at small
  have next : (shadow.ptblLaddrMapI + 1).toNat = shadow.ptblLaddrMapI.toNat + 1 := by
    rw [BitVec.toNat_add]; simp; omega
  constructor
  case counter =>
    rw [BitVec.le_def]
    simp only [Shadow.allocate, next, monPageTables, BitVec.toNat_ofNat]
    omega
  case present_iff =>
    intro other notMon
    simp only [Shadow.allocate, Function.update_apply]
    split
    · simp [present, known]
    · exact heap.present_iff other notMon
  case bound =>
    intro other notMon
    simp only [Shadow.allocate, Function.update_apply]
    split
    · intro _
      rw [BitVec.lt_def, next]
      omega
    · intro mapped
      have below := BitVec.lt_def.mp (heap.bound other notMon mapped)
      rw [BitVec.lt_def, next]
      omega
  case base =>
    intro other notMon
    simp only [Shadow.allocate, Function.update_apply]
    split
    · intro _
      exact base
    · exact heap.base other notMon
  case distinct =>
    -- the new index is the counter, above every index in use
    have fresh : ∀ other, other ≠ setup.monPdi →
        shadow.pageTblLaddrMap other ≠ shadow.ptblLaddrMapI := by
      intro other notMon same
      have below := heap.bound other notMon (same ▸ known)
      rw [same] at below
      exact BitVec.lt_irrefl _ below
    intro first second firstOther secondOther
    simp only [Shadow.allocate, Function.update_apply]
    split <;> split
    · simp_all
    · exact fun _ same => (fresh second secondOther same.symm).elim
    · exact fun _ same => (fresh first firstOther same).elim
    · exact heap.distinct first second firstOther secondOther

theorem setPTE (heap : HeapOk setup shadow) (ptIndex : Bit32u) (pti : BitVec 10)
    (entry : PageEntry) : HeapOk setup (shadow.setPTE ptIndex pti entry) :=
  ⟨heap.counter, heap.present_iff, heap.bound, heap.base, heap.distinct⟩

end HeapOk

private theorem getMonPTi_apply (pdi : BitVec 10) (source : Bit32u) (vm : Vm) :
    getMonPTi pdi source vm =
      if vm.shadow.pageTblLaddrMap pdi = noPageTable then
        .error (.monpanic "getMonPTi: check failed, pdi=0x%x, map_i=0x%x, source=%u\n"
          [pdi.setWidth 32, vm.shadow.pageTblLaddrMap pdi, source]) vm
      else if monPageTables ≤ vm.shadow.pageTblLaddrMap pdi then
        .error (.monpanic "getMonPTi: map_i OOB\n" []) vm
      else .ok (vm.shadow.pageTblLaddrMap pdi) vm := by
  simp only [getMonPTi, get_bind_apply, panicWhen_bind_apply, pure_apply]

/-- In a consistent heap the table of a present directory entry is found. -/
theorem getMonPTi_present {pdi : BitVec 10} {source : Bit32u} {vm : Vm}
    (heap : HeapOk vm.setup vm.shadow) (other : pdi ≠ vm.setup.monPdi)
    (present : (vm.shadow.pageDir pdi).p = true) :
    getMonPTi pdi source vm = .ok (vm.shadow.pageTblLaddrMap pdi) vm := by
  have mapped := (heap.present_iff pdi other).mp present
  have below := heap.index_lt other mapped
  rw [getMonPTi_apply, if_neg mapped, if_neg (BitVec.not_le.mpr below)]

/-- In a consistent heap a table is found for an absent entry, as long as there is one. -/
theorem getFreePageTable_absent {pdi : BitVec 10} {vm : Vm} (heap : HeapOk vm.setup vm.shadow)
    (other : pdi ≠ vm.setup.monPdi) (absent : (vm.shadow.pageDir pdi).p = false) :
    getFreePageTable pdi vm =
      if monPageTables ≤ vm.shadow.ptblLaddrMapI then
        .error (.monpanic "getFreePageTable: out of page tables\n" []) vm
      else .ok vm.shadow.ptblLaddrMapI
        { vm with shadow := { vm.shadow.allocate pdi (vm.shadow.pageDir pdi) with
            pageDir := vm.shadow.pageDir } } := by
  have unmapped : vm.shadow.pageTblLaddrMap pdi = noPageTable := by
    by_contra mapped
    simp [(heap.present_iff pdi other).mpr mapped] at absent
  simp only [getFreePageTable, get_bind_apply, panicWhen_bind_apply, modify_bind_apply,
    pure_apply, unmapped, ne_eq, not_true_eq_false, if_false, Shadow.allocate]

/-- The monitor's own directory entry is there, and its address range is known. -/
structure MonitorMapped (setup : Setup) (shadow : Shadow) : Prop where
  present : (shadow.pageDir setup.monPdi).p = true
  mask : setup.monPdeMask = setup.monPdi.setWidth 32 <<< 22

/-- The high bits of an address are its directory index. -/
theorem and_high_eq_iff (laddr : Bit32u) (pdi : BitVec 10) :
    laddr &&& 0xffc00000#32 = pdi.setWidth 32 <<< 22 ↔ pdiOf laddr = pdi := by
  have mask : ∀ index : Fin 32, (0xffc00000#32).getLsbD index = decide (22 ≤ index.val) := by
    decide
  constructor
  · intro same
    ext index small
    have bit := congrArg (·.getLsbD (22 + index)) same
    have high := mask ⟨22 + index, by omega⟩
    simp only at high
    simp only [BitVec.getLsbD_and, high, BitVec.getLsbD_shiftLeft, BitVec.getLsbD_setWidth] at bit
    simpa [pdiOf, show 22 + index < 32 by omega, show index < 32 by omega,
      show ¬ 22 + index < 22 by omega, BitVec.getLsbD_eq_getElem small] using bit
  · rintro rfl
    ext index small
    have low := mask ⟨index, small⟩
    simp only at low
    by_cases high : 22 ≤ index
    · simp [pdiOf, ← BitVec.getLsbD_eq_getElem, low, high, show ¬ index < 22 by omega,
        show index - 22 < 10 by omega, show 22 + (index - 22) = index by omega, small,
        show index - 22 < 32 by omega]
    · simp [← BitVec.getLsbD_eq_getElem, low, high, show index < 22 by omega]

theorem MonitorMapped.inMonitor_iff {setup : Setup} {shadow : Shadow}
    (monitor : MonitorMapped setup shadow) (laddr : Bit32u) :
    setup.inMonitor laddr ↔ pdiOf laddr = setup.monPdi := by
  rw [Setup.inMonitor, monitor.mask, and_high_eq_iff]

@[simp] theorem newMonPDE_p (vm : Vm) (ptIndex : Bit32u) (guestPDE : Option PageEntry) :
    (newMonPDE vm ptIndex guestPDE).p = true := by
  cases guestPDE <;> simp [newMonPDE]

theorem newMonPDE_base (vm : Vm) (ptIndex : Bit32u) (guestPDE : Option PageEntry) :
    (newMonPDE vm ptIndex guestPDE).base = vm.setup.pageTbl ptIndex := by
  cases guestPDE with
  | none => exact PageEntry.make_base _ _ (by decide)
  | some entry =>
      apply PageEntry.make_base
      exact PageEntry.low_or (PageEntry.low_or
        (PageEntry.low_or entry.marks_low (PageEntry.bit_low _ 2)) (PageEntry.bit_low _ 1)) rfl

end Plex86
