import Plex86.Paging.HeapRun
import Plex86.Paging.WalkSpec

namespace Plex86

open Logic Vm

/-- The directory entry and the table entry of a linear page are both present. -/
structure Shadow.Live (shadow : Shadow) (setup : Setup) (pdi pti : BitVec 10)
    (pde pte : PageEntry) : Prop where
  other : pdi ≠ setup.monPdi
  directory : shadow.pageDir pdi = pde
  present : pde.p = true
  table : shadow.pageTbl (shadow.pageTblLaddrMap pdi) pti = pte
  mapped : pte.p = true

namespace Shadow.Live

variable {setup : Setup} {shadow : Shadow} {pdi pti : BitVec 10} {pde pte : PageEntry}

/-- A reset leaves no entry. -/
theorem init_false (live : (shadow.init setup.monPdi).Live setup pdi pti pde pte) : False := by
  have absent : pde.p = false := by
    rw [← live.directory]
    simp [Shadow.init, live.other]
  exact Bool.false_ne_true (absent.symm.trans live.present)

/-- Nor does anything that only fills tables after the reset. -/
theorem init_setPTE_false {index : Bit32u} {place : BitVec 10} {entry : PageEntry}
    (live : ((shadow.init setup.monPdi).setPTE index place entry).Live setup pdi pti pde pte) :
    False := by
  have absent : pde.p = false := by
    rw [← live.directory]
    simp [Shadow.init, Shadow.setPTE, live.other]
  exact Bool.false_ne_true (absent.symm.trans live.present)

/-- A table just allocated has no entries, and the others are as they were. -/
theorem of_allocate {slot : BitVec 10} {entry : PageEntry} (heap : HeapOk setup shadow)
    (live : (shadow.allocate slot entry).Live setup pdi pti pde pte) :
    pdi ≠ slot ∧ shadow.Live setup pdi pti pde pte := by
  obtain ⟨other, directory, present, table, mapped⟩ := live
  by_cases same : pdi = slot
  · rw [← table] at mapped
    simp [Shadow.allocate, same] at mapped
  · simp only [Shadow.allocate, Function.update_of_ne same] at directory table
    have inUse := (heap.present_iff pdi other).mp (by rw [directory]; exact present)
    have below := heap.bound pdi other inUse
    rw [Function.update_of_ne (BitVec.ne_of_lt below)] at table
    exact ⟨same, other, directory, present, table, mapped⟩

/-- A table entry set is the entry of one page, and the others are as they were. -/
theorem of_setPTE {slot place : BitVec 10} {entry : PageEntry} (heap : HeapOk setup shadow)
    (slotOther : slot ≠ setup.monPdi) (here : (shadow.pageDir slot).p = true)
    (live : (shadow.setPTE (shadow.pageTblLaddrMap slot) place entry).Live setup pdi pti pde pte) :
    (pdi = slot ∧ pti = place ∧ pte = entry) ∨ shadow.Live setup pdi pti pde pte := by
  obtain ⟨other, directory, present, table, mapped⟩ := live
  simp only [Shadow.setPTE] at directory table
  by_cases same : pdi = slot
  · subst same
    by_cases at' : pti = place
    · subst at'
      refine .inl ⟨rfl, rfl, ?_⟩
      rw [← table]
      simp
    · refine .inr ⟨other, directory, present, ?_, mapped⟩
      rw [← table]
      simp [at']
  · have inUse := (heap.present_iff pdi other).mp (by rw [directory]; exact present)
    have apart : shadow.pageTblLaddrMap pdi ≠ shadow.pageTblLaddrMap slot := fun equal =>
      same (heap.distinct pdi slot other slotOther inUse equal)
    rw [Function.update_of_ne apart] at table
    exact .inr ⟨other, directory, present, table, mapped⟩

end Shadow.Live

namespace Vm

def Live (vm : Vm) (pdi pti : BitVec 10) (pde pte : PageEntry) : Prop :=
  vm.shadow.Live vm.setup pdi pti pde pte

/-- Pinning pages either leaves every entry alone or removes them all. -/
theorem PagesSettled.live {before after : Vm} (settled : PagesSettled before after)
    {pdi pti : BitVec 10} {pde pte : PageEntry} (live : after.Live pdi pti pde pte) :
    before.Live pdi pti pde pte ∧ NoEviction before after := by
  rw [Live, settled.setup] at live
  rcases settled.shadow with quiet | flushed
  · rw [quiet.shadow] at live
    exact ⟨live, quiet⟩
  · rw [flushed.shadow] at live
    exact live.init_false.elim

end Vm

/-- What holds of a machine between any two things the monitor does. -/
structure Vm.Sound (vm : Vm) : Prop where
  heap : HeapOk vm.setup vm.shadow
  monitor : MonitorMapped vm.setup vm.shadow
  holds : ∃ records, vm.pins.Holds records

theorem Vm.Sound.settled {before after : Vm} (sound : before.Sound)
    (settled : PagesSettled before after) : after.Sound where
  heap := by
    rw [settled.setup]
    rcases settled.shadow with quiet | flushed
    · rw [quiet.shadow]; exact sound.heap
    · rw [flushed.shadow]; exact .init _ _
  monitor := by
    rw [settled.setup]
    rcases settled.shadow with quiet | flushed
    · rw [quiet.shadow]; exact sound.monitor
    · rw [flushed.shadow]
      exact ⟨by simp [Shadow.init, sound.monitor.present], sound.monitor.mask⟩
  holds := by
    obtain ⟨records, holds⟩ := sound.holds
    exact settled.holds records holds

end Plex86
