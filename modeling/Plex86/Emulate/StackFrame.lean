import Plex86.Emulate.Guest
import Plex86.Emulate.MemorySpec

namespace Plex86

open Logic

namespace Vm

/-- The walk of the guest's tables for some address reads this page. -/
def TablePage (vm : Vm) (ppi : Bit32u) : Prop :=
  vm.guestCpu.pg = true ∧ ∃ lAddr,
    ppi = pdeAddrOf vm.guestCpu.cr3 lAddr >>> 12 ∨
      ((vm.physWord 32 (pdeAddrOf vm.guestCpu.cr3 lAddr)).getLsbD 0 = true ∧
        ppi = pteAddrOf (vm.physWord 32 (pdeAddrOf vm.guestCpu.cr3 lAddr)) lAddr >>> 12)

/-- Page tables and the registers that govern paging are the same. -/
structure SamePaging (vm other : Vm) : Prop where
  setup : other.setup = vm.setup
  pg : other.guestCpu.pg = vm.guestCpu.pg
  cr3 : other.guestCpu.cr3 = vm.guestCpu.cr3
  cr4 : other.guestCpu.cr4 = vm.guestCpu.cr4
  tables : ∀ ppi, vm.TablePage ppi → other.mem ppi = vm.mem ppi

namespace SamePaging

variable {vm middle other : Vm}

theorem refl (vm : Vm) : vm.SamePaging vm := ⟨rfl, rfl, rfl, rfl, fun _ _ => rfl⟩

theorem directory (same : vm.SamePaging other) (paged : vm.guestCpu.pg = true) (lAddr : Bit32u) :
    other.physWord 32 (pdeAddrOf vm.guestCpu.cr3 lAddr) =
      vm.physWord 32 (pdeAddrOf vm.guestCpu.cr3 lAddr) := by
  rw [physWord, physWord, same.tables _ ⟨paged, lAddr, .inl rfl⟩]

theorem table (same : vm.SamePaging other) (paged : vm.guestCpu.pg = true) (lAddr : Bit32u)
    (present : (vm.physWord 32 (pdeAddrOf vm.guestCpu.cr3 lAddr)).getLsbD 0 = true) :
    other.physWord 32 (pteAddrOf (vm.physWord 32 (pdeAddrOf vm.guestCpu.cr3 lAddr)) lAddr) =
      vm.physWord 32 (pteAddrOf (vm.physWord 32 (pdeAddrOf vm.guestCpu.cr3 lAddr)) lAddr) := by
  conv_lhs => rw [physWord, same.tables _ ⟨paged, lAddr, .inr ⟨present, rfl⟩⟩]
  rfl

private theorem tablePage (same : vm.SamePaging other) {ppi : Bit32u} :
    other.TablePage ppi ↔ vm.TablePage ppi := by
  rw [TablePage, TablePage, same.pg, same.cr3]
  refine and_congr_right fun paged => exists_congr fun lAddr => ?_
  rw [same.directory paged]

theorem trans (first : vm.SamePaging middle) (second : middle.SamePaging other) :
    vm.SamePaging other where
  setup := second.setup.trans first.setup
  pg := second.pg.trans first.pg
  cr3 := second.cr3.trans first.cr3
  cr4 := second.cr4.trans first.cr4
  tables := fun ppi page =>
    (second.tables ppi (first.tablePage.mpr page)).trans (first.tables ppi page)

/-- Every address is translated the same way. -/
theorem translated (same : vm.SamePaging other) (lAddr : Bit32u) :
    other.translated lAddr = vm.translated lAddr := by
  simp only [Vm.translated, same.pg, same.setup, same.cr3, same.cr4]
  by_cases paged : vm.guestCpu.pg = true
  · simp only [same.directory paged]
    by_cases present : (vm.physWord 32 (pdeAddrOf vm.guestCpu.cr3 lAddr)).getLsbD 0 = true
    · simp only [same.table paged lAddr present]
    · simp only [present, Bool.false_eq_true, not_false_eq_true, if_true]
  · simp only [paged, Bool.false_eq_true, not_false_eq_true, if_true]

end SamePaging

/-- The byte belongs to the dword at the linear address. -/
def InDword (vm : Vm) (lAddr ppi : Bit32u) (place : Nat) : Prop :=
  ppi = vm.translated lAddr >>> 12 ∧ pageOffset lAddr ≤ place ∧ place < pageOffset lAddr + 4

/-- The dword at a linear address that lies in one page. -/
def dwordAt (vm : Vm) (lAddr : Bit32u) : Bit32u :=
  loadWord 32 (vm.mem (vm.translated lAddr >>> 12)) (pageOffset lAddr)

private theorem SamePaging.inDword {vm other : Vm} (same : vm.SamePaging other) {lAddr ppi : Bit32u}
    {place : Nat} : other.InDword lAddr ppi place ↔ vm.InDword lAddr ppi place := by
  rw [InDword, InDword, same.translated]

end Vm

private theorem pageOffset_of_and {addr other : Bit32u}
    (low : addr &&& 0xfff#32 = other &&& 0xfff#32) :
    pageOffset addr = pageOffset other :=
  congrArg BitVec.toNat low

/-- An address and its translation lie at the same place of their pages. -/
theorem Vm.translated_offset {vm : Vm} {lAddr : Bit32u}
    (available : vm.translated lAddr ≠ linAddrNotAvailable) :
    pageOffset (vm.translated lAddr) = pageOffset lAddr := by
  have low (pte : Bit32u) : ((pte &&& 0xfffff000#32) ||| (lAddr &&& 0xfff#32)) &&& 0xfff#32 =
      lAddr &&& 0xfff#32 := by
    have apart : 0xfffff000#32 &&& 0xfff#32 = 0#32 := by decide
    rw [BitVec.and_or_distrib_right, BitVec.and_assoc, apart, BitVec.and_zero, BitVec.zero_or,
      BitVec.and_assoc, BitVec.and_self]
  have found : vm.translated lAddr = linAddrNotAvailable ∨
      vm.translated lAddr &&& 0xfff#32 = lAddr &&& 0xfff#32 := by
    unfold translated
    split
    · exact .inr rfl
    split
    · exact .inl rfl
    dsimp only
    split
    · exact .inl rfl
    split
    · exact .inl rfl
    split
    · exact .inl rfl
    split
    · exact .inl rfl
    · exact .inr (low _)
  exact pageOffset_of_and (found.resolve_left available)

/-- A dword is stored in one page. -/
theorem Vm.storable_inPage {vm : Vm} {lAddr : Bit32u} (able : vm.Storable lAddr) :
    InPage lAddr 4 := by
  have low : vm.translated lAddr &&& 0xfff#32 = lAddr &&& 0xfff#32 :=
    BitVec.eq_of_toNat_eq (translated_offset able.1)
  have fits := able.2.2
  rw [low, BitVec.le_def] at fits
  apply BitVec.le_def.mpr
  exact Nat.le_of_lt_succ (Nat.not_le.mp fits)

namespace Vm

/-- The two dwords share no byte, wherever their pages lie. -/
def Apart (lAddr other : Bit32u) : Prop :=
  pageOffset lAddr + 4 ≤ pageOffset other ∨ pageOffset other + 4 ≤ pageOffset lAddr

section Stored

variable {vm : Vm} {lAddr other val : Bit32u}

private theorem stored_page (able : vm.Storable lAddr) :
    (vm.stored lAddr val).mem = Function.update vm.mem (vm.translated lAddr >>> 12)
      (storeWord (vm.mem (vm.translated lAddr >>> 12)) (pageOffset lAddr) val) := by
  rw [stored, translated_offset able.1]

private theorem stored_self (able : vm.Storable lAddr) :
    loadWord 32 ((vm.stored lAddr val).mem (vm.translated lAddr >>> 12)) (pageOffset lAddr) = val := by
  rw [stored_page able, Function.update_self, loadWord_storeWord_self (by decide)]

private theorem stored_apart (able : vm.Storable lAddr) (apart : Apart lAddr other) (ppi : Bit32u) :
    loadWord 32 ((vm.stored lAddr val).mem ppi) (pageOffset other) =
      loadWord 32 (vm.mem ppi) (pageOffset other) := by
  rw [stored_page able]
  by_cases same : ppi = vm.translated lAddr >>> 12
  · rw [same, Function.update_self, loadWord_storeWord_disjoint apart.symm]
  · rw [Function.update_of_ne same]

private theorem stored_outside (able : vm.Storable lAddr) {ppi : Bit32u} {place : Nat}
    (outside : ¬ vm.InDword lAddr ppi place) :
    (vm.stored lAddr val).mem ppi place = vm.mem ppi place := by
  rw [stored_page able]
  by_cases same : ppi = vm.translated lAddr >>> 12
  · rw [same, Function.update_self]
    have beside : place < pageOffset lAddr ∨ pageOffset lAddr + 4 ≤ place := by
      by_contra inside
      exact outside ⟨same, by omega, by omega⟩
    exact store_outside beside
  · rw [Function.update_of_ne same]

/-- A dword outside the page tables changes no translation. -/
theorem stored_samePaging (outside : ¬ vm.TablePage (vm.translated lAddr >>> 12)) :
    vm.SamePaging (vm.stored lAddr val) := by
  refine ⟨rfl, rfl, rfl, rfl, fun ppi page => ?_⟩
  refine Function.update_of_ne ?_ _ _
  rintro rfl
  exact outside page

end Stored

/-- The machine `now` is `vm` with these dwords, each at its linear address, in memory. -/
structure Pushed (vm now : Vm) (words : List (Bit32u × Bit32u)) : Prop where
  paging : vm.SamePaging now
  holds : ∀ word ∈ words, now.dwordAt word.1 = word.2
  within : ∀ word ∈ words, InPage word.1 4
  others : ∀ ppi place, (∀ word ∈ words, ¬ vm.InDword word.1 ppi place) →
    now.mem ppi place = vm.mem ppi place

namespace Pushed

variable {vm now other : Vm} {words : List (Bit32u × Bit32u)} {lAddr val : Bit32u}

theorem nil (vm : Vm) : vm.Pushed vm [] := ⟨.refl vm, by simp, by simp, fun _ _ _ => rfl⟩

/-- Other parts of the machine may change. -/
theorem keep (pushed : vm.Pushed now words) (setup : other.setup = now.setup)
    (guestCpu : other.guestCpu = now.guestCpu) (mem : other.mem = now.mem) :
    vm.Pushed other words := by
  have same : now.SamePaging other :=
    ⟨setup, by rw [guestCpu], by rw [guestCpu], by rw [guestCpu], fun _ _ => by rw [mem]⟩
  refine ⟨pushed.paging.trans same, fun word member => ?_, pushed.within, fun ppi place outside => ?_⟩
  · rw [dwordAt, same.translated, mem]
    exact pushed.holds word member
  · rw [mem]
    exact pushed.others ppi place outside

/-- One more dword, apart from the others. -/
theorem stored (pushed : vm.Pushed now words) (able : now.Storable lAddr)
    (outside : ¬ vm.TablePage (vm.translated lAddr >>> 12))
    (apart : ∀ word ∈ words, Apart lAddr word.1) :
    vm.Pushed (now.stored lAddr val) ((lAddr, val) :: words) := by
  have place : now.translated lAddr = vm.translated lAddr := pushed.paging.translated lAddr
  have same : now.SamePaging (now.stored lAddr val) := by
    refine stored_samePaging fun page => outside ?_
    rw [← place]
    exact pushed.paging.tablePage.mp page
  refine ⟨pushed.paging.trans same, fun word member => ?_, fun word member => ?_,
    fun ppi place others => ?_⟩
  · rw [dwordAt, same.translated]
    rcases List.mem_cons.mp member with rfl | older
    · exact stored_self able
    · exact (stored_apart able (apart word older) _).trans (pushed.holds word older)
  · rcases List.mem_cons.mp member with rfl | older
    · exact storable_inPage able
    · exact pushed.within word older
  · have here : ¬ now.InDword lAddr ppi place := by
      rw [pushed.paging.inDword]
      exact others (lAddr, val) List.mem_cons_self
    exact (stored_outside able here).trans
      (pushed.others ppi place fun word member => others word (List.mem_cons_of_mem _ member))

end Pushed
end Vm
end Plex86
