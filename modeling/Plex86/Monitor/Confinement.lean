import Mathlib.Data.List.GetD
import Plex86.Monitor.Origin
import Plex86.Monitor.Replay

namespace Plex86

open Logic Vm

/-- The page table that the processor finds in a frame, of those the monitor made. -/
def Vm.tableIn (vm : Vm) (frame : Frame) : Option (BitVec 10 → PageEntry) :=
  if frame = vm.setup.nexusPageTbl then some fun pti => vm.nexusPageTbl pti.toNat
  else
    ((List.range monPageTables.toNat).find? fun index =>
      vm.setup.pageTbl (BitVec.ofNat 32 index) = frame).map fun index =>
        vm.shadow.pageTbl (BitVec.ofNat 32 index)

/-- Ring 3 gets past both entries of an address, the second one being `pte`. -/
structure Vm.UserReaches (vm : Vm) (laddr : Bit32u) (pte : PageEntry) : Prop where
  present : (vm.shadow.pageDir (pdiOf laddr)).p = true
  user : (vm.shadow.pageDir (pdiOf laddr)).us = true
  table : ∃ table, vm.tableIn (vm.shadow.pageDir (pdiOf laddr)).base = some table ∧
    table (ptiOf laddr) = pte
  mapped : pte.p = true
  pageUser : pte.us = true

/-- An entry at which user code arrives with an address: it leads to the guest
page that the guest's own tables gave when the entry was made, the page has been
neither unpinned nor invalidated since, and the guest may reach it directly. -/
structure Confined (past : List (Moment Vm Trap)) (vm : Vm) (laddr : Bit32u) (pte : PageEntry) :
    Prop where
  own : (vm.shadow.pageDir (pdiOf laddr)).base ≠ vm.setup.nexusPageTbl
  origin : ∃ newer maker older entry cr2 middle, past = newer ++ maker :: older ∧
    entry = ⟨pdiOf laddr, ptiOf laddr, vm.shadow.pageDir (pdiOf laddr), pte⟩ ∧
    maker.event.Makes entry cr2 middle ∧ Quiet middle maker.after ∧
    (∀ moment ∈ newer, KeptAt moment entry) ∧
    vm.LeadsTo entry (maker.event.faulted.guestPage laddr)

private theorem pdiOf_toNat (laddr : Bit32u) :
    (pdiOf laddr).toNat = laddr.toNat / 2 ^ 22 % 2 ^ 10 := by
  rw [pdiOf, BitVec.extractLsb'_toNat, Nat.shiftRight_eq_div_pow]

private theorem ptiOf_toNat (laddr : Bit32u) :
    (ptiOf laddr).toNat = laddr.toNat / 2 ^ 12 % 2 ^ 10 := by
  rw [ptiOf, BitVec.extractLsb'_toNat, Nat.shiftRight_eq_div_pow]

/-- Two addresses with the same indices lie in one page. -/
theorem samePage_of_indices {first second : Bit32u} (directory : pdiOf first = pdiOf second)
    (table : ptiOf first = ptiOf second) : first >>> 12 = second >>> 12 := by
  have upper := congrArg BitVec.toNat directory
  have lower := congrArg BitVec.toNat table
  rw [pdiOf_toNat, pdiOf_toNat] at upper
  rw [ptiOf_toNat, ptiOf_toNat] at lower
  apply BitVec.eq_of_toNat_eq
  rw [BitVec.toNat_ushiftRight, BitVec.toNat_ushiftRight, Nat.shiftRight_eq_div_pow,
    Nat.shiftRight_eq_div_pow]
  omega

/-- The guest's tables give one page for all addresses in it. -/
theorem guestPage_samePage (vm : Vm) {first second : Bit32u}
    (directory : pdiOf first = pdiOf second) (table : ptiOf first = ptiOf second) :
    vm.guestPage first = vm.guestPage second := by
  rw [guestPage, guestPage, directory, table, samePage_of_indices directory table]

theorem GuestRun.valid {reg : Registration} {past : List (Moment Vm Trap)} {vm : Vm}
    (run : GuestRun reg past vm) : reg.Valid := by
  induction run with
  | start started =>
      obtain ⟨boot, entry, -⟩ := started.entered
      exact entry.registered.valid
  | next earlier step inductionHypothesis => exact inductionHypothesis

namespace Registration.Valid

variable {reg : Registration}

/-- The frame of a page table. -/
theorem pageTbl_mem (valid : reg.Valid) {index : Bit32u} (small : index < monPageTables) :
    reg.setup.pageTbl index ∈ reg.pages.pageTbl := by
  have below : index.toNat < reg.pages.pageTbl.length := by
    rw [valid.tables]
    simpa [monPageTables] using BitVec.lt_def.mp small
  change reg.pages.pageTbl.getD index.toNat 0 ∈ _
  rw [List.getD_eq_getElem _ _ below]
  exact List.getElem_mem below

private theorem pageTbl_ne_nexus (valid : reg.Valid) {index : Bit32u}
    (small : index < monPageTables) :
    reg.setup.pageTbl index ≠ reg.setup.nexusPageTbl := by
  intro same
  have member := valid.pageTbl_mem small
  rw [same] at member
  exact (List.nodup_cons.mp valid.distinct).1 member

/-- No two page tables share a frame. -/
theorem pageTbl_injective (valid : reg.Valid) {first second : Bit32u}
    (firstSmall : first < monPageTables) (secondSmall : second < monPageTables)
    (same : reg.setup.pageTbl first = reg.setup.pageTbl second) : first = second := by
  have below : ∀ index : Bit32u, index < monPageTables →
      index.toNat < reg.pages.pageTbl.length := fun index small => by
    rw [valid.tables]
    simpa [monPageTables] using BitVec.lt_def.mp small
  change reg.pages.pageTbl.getD first.toNat 0 = reg.pages.pageTbl.getD second.toNat 0 at same
  rw [List.getD_eq_getElem _ _ (below first firstSmall),
    List.getD_eq_getElem _ _ (below second secondSmall)] at same
  exact BitVec.eq_of_toNat_eq
    ((List.Nodup.getElem_inj_iff (List.nodup_cons.mp valid.distinct).2).mp same)

/-- In the frame of a page table the processor finds that table. -/
theorem tableIn_pageTbl (valid : reg.Valid) {vm : Vm} (setup : vm.setup = reg.setup)
    {index : Bit32u} (small : index < monPageTables) :
    vm.tableIn (vm.setup.pageTbl index) = some (vm.shadow.pageTbl index) := by
  have other : vm.setup.pageTbl index ≠ vm.setup.nexusPageTbl := by
    rw [setup]
    exact valid.pageTbl_ne_nexus small
  have listed : index.toNat ∈ List.range monPageTables.toNat :=
    List.mem_range.mpr (BitVec.lt_def.mp small)
  rw [tableIn, if_neg other]
  cases search : (List.range monPageTables.toNat).find? fun place =>
      vm.setup.pageTbl (BitVec.ofNat 32 place) = vm.setup.pageTbl index with
  | none =>
      have missed := List.find?_eq_none.mp search _ listed
      simp at missed
  | some place =>
      have found := List.find?_some search
      have within : place < monPageTables.toNat :=
        List.mem_range.mp (List.mem_of_find?_eq_some search)
      have placeSmall : BitVec.ofNat 32 place < monPageTables := by
        rw [BitVec.lt_def, BitVec.toNat_ofNat]
        have limit : monPageTables.toNat = 80 := rfl
        omega
      rw [decide_eq_true_eq, setup] at found
      rw [Option.map_some, valid.pageTbl_injective placeSmall small found]

end Registration.Valid

/-- A directory entry that is present leads to the nexus page table, if it is the
monitor's own, and otherwise to the page table allocated for it. -/
theorem Guarded.tableIn_directory {reg : Registration} {vm : Vm} (guarded : Guarded reg vm)
    (valid : reg.Valid) {pdi : BitVec 10} (present : (vm.shadow.pageDir pdi).p = true) :
    (pdi = vm.setup.monPdi ∧
      vm.tableIn (vm.shadow.pageDir pdi).base = some fun pti => vm.nexusPageTbl pti.toNat) ∨
    (pdi ≠ vm.setup.monPdi ∧ (vm.shadow.pageDir pdi).base ≠ vm.setup.nexusPageTbl ∧
      vm.tableIn (vm.shadow.pageDir pdi).base =
        some (vm.shadow.pageTbl (vm.shadow.pageTblLaddrMap pdi))) := by
  by_cases monitor : pdi = vm.setup.monPdi
  · refine .inl ⟨monitor, ?_⟩
    rw [monitor, guarded.own, tableIn, if_pos rfl]
  · have inUse := (guarded.sound.heap.present_iff _ monitor).mp present
    have small := guarded.sound.heap.index_lt monitor inUse
    have base := guarded.sound.heap.base _ monitor inUse
    refine .inr ⟨monitor, ?_, ?_⟩
    · rw [base, guarded.setup]
      exact valid.pageTbl_ne_nexus small
    · rw [base]
      exact valid.tableIn_pageTbl guarded.setup small

/-- Ring 3 arrives at exactly the live entries that let it through. -/
theorem Guarded.userReaches_iff {reg : Registration} {vm : Vm} (guarded : Guarded reg vm)
    (valid : reg.Valid) {laddr : Bit32u} {pte : PageEntry} :
    vm.UserReaches laddr pte ↔
      vm.Live (pdiOf laddr) (ptiOf laddr) (vm.shadow.pageDir (pdiOf laddr)) pte ∧
        (vm.shadow.pageDir (pdiOf laddr)).us = true ∧ pte.us = true := by
  constructor
  · rintro ⟨present, user, ⟨table, found, entry⟩, mapped, pageUser⟩
    rcases guarded.tableIn_directory valid present with ⟨-, nexus⟩ | ⟨other, apart, own⟩
    · -- the nexus page table lets no user code through
      obtain rfl : _ = table := Option.some.inj (nexus.symm.trans found)
      rw [← entry, guarded.hidden] at pageUser
      exact Bool.noConfusion pageUser
    · obtain rfl : _ = table := Option.some.inj (own.symm.trans found)
      exact ⟨⟨other, rfl, present, entry, mapped⟩, user, pageUser⟩
  · rintro ⟨live, user, pageUser⟩
    rcases guarded.tableIn_directory valid live.present with ⟨monitor, -⟩ | ⟨-, -, own⟩
    · exact (live.other monitor).elim
    · exact ⟨live.present, user, ⟨_, own, live.table⟩, live.mapped, pageUser⟩

/-- A page that ring 3 can reach is confined to the guest's own memory. -/
theorem GuestRun.confined {reg : Registration} {past : List (Moment Vm Trap)} {vm : Vm}
    (run : GuestRun reg past vm) {laddr : Bit32u} {pte : PageEntry}
    (reaches : vm.UserReaches laddr pte) : Confined past vm laddr pte := by
  obtain ⟨live, -, -⟩ := (run.guarded.userReaches_iff run.valid).mp reaches
  have shows : vm.Shows ⟨pdiOf laddr, ptiOf laddr, vm.shadow.pageDir (pdiOf laddr), pte⟩ := live
  obtain ⟨newer, maker, older, split, ⟨cr2, middle, makes, quiet⟩, leads, kept⟩ :=
    run.origin shows
  constructor
  case own =>
    rcases run.guarded.tableIn_directory run.valid live.present with ⟨monitor, -⟩ | ⟨-, apart, -⟩
    · exact (live.other monitor).elim
    · exact apart
  case origin =>
    refine ⟨newer, maker, older, _, cr2, middle, split, rfl, makes, quiet, kept, ?_⟩
    rw [guestPage_samePage _ makes.address.1 makes.address.2]
    exact leads.page cr2 makes.cause

/-- Whatever ring 3 can reach is confined to the guest's own memory, in every
state the guest is resumed in. -/
theorem guest_confined {reg : Registration} {past : List (Moment Vm Trap)} {vm : Vm}
    (run : GuestRun reg past vm) (laddr : Bit32u) :
    ((vm.shadow.pageDir (pdiOf laddr)).p = true →
      (vm.tableIn (vm.shadow.pageDir (pdiOf laddr)).base).isSome = true) ∧
    ∀ pte, vm.UserReaches laddr pte → Confined past vm laddr pte := by
  constructor
  · intro present
    rcases run.guarded.tableIn_directory run.valid present with ⟨-, found⟩ | ⟨-, -, found⟩ <;>
      simp [found]
  · intro pte reaches
    exact run.confined reaches

/-- User code reaches the page it has faulted on, and it is the guest's own. -/
theorem guest_confined_sample : ∃ past vm pte, GuestRun Sample.reg past vm ∧
    vm.UserReaches 0x8000 pte ∧ Confined past vm 0x8000 pte := by
  let check (played : List (Moment Vm Trap) × Vm) : Bool :=
    let entry := played.2.entryOf 0x8000
    decide (played.2.Shows entry) && entry.pde.us && entry.pte.us
  have checked : (play (Sample.boot true) [Sample.fault 0x8000 4]).any check = true := by
    decide +kernel
  obtain ⟨past, vm, run, found⟩ := play_reaches (Sample.boot_registered true) checked
  simp only [check, Bool.and_eq_true, decide_eq_true_eq] at found
  have reaches : vm.UserReaches 0x8000 _ :=
    (run.guarded.userReaches_iff run.valid).mpr ⟨found.1.1, found.1.2, found.2⟩
  exact ⟨past, vm, _, run, reaches, (guest_confined run 0x8000).2 _ reaches⟩

end Plex86
