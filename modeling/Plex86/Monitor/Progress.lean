import Plex86.Monitor.Confinement

namespace Plex86

open Logic Vm

/-- The processor, which runs the guest at ring 3 with CR0.WP=1, lets an access
through the tables to a pinned guest page. -/
structure Vm.Permits (vm : Vm) (laddr : Bit32u) (write : Bool) (page : Bit32u) (pte : PageEntry) :
    Prop where
  reaches : vm.UserReaches laddr pte
  writable : write = true → (vm.shadow.pageDir (pdiOf laddr)).rw = true ∧ pte.rw = true
  base : pte.base = vm.pins.hostPPI page
  pinned : vm.pins.pinned page = true

/-- Nothing stands in the way of the access: pinning its page unpins no other
one, and a directory entry that stays is writable if the access writes. -/
def Vm.NothingInTheWay (vm : Vm) (laddr : Bit32u) (write : Bool) : Prop :=
  vm.targetEvicts laddr = false ∧
    (write = true → vm.directoryStands laddr = true →
      (vm.shadow.pageDir (pdiOf laddr)).rw = true)

instance (vm : Vm) (laddr : Bit32u) (write : Bool) : Decidable (vm.NothingInTheWay laddr write) :=
  inferInstanceAs (Decidable (_ ∧ (_ → _ → _)))

/-- Where the guest's tables allow a write, the rights they grant include it. -/
theorem granted_rw {vm : Vm} {laddr : Bit32u}
    (allowed : vm.tablesFault laddr (decide (vm.guestCPL = 3)) true = none) :
    (vm.grantedRights (vm.tables (pdiOf laddr) (ptiOf laddr)).1).2 = true ∧
      (vm.grantedRights (vm.tables (pdiOf laddr) (ptiOf laddr)).2).2 = true := by
  by_cases paged : vm.guestCpu.pg = true
  · rw [grantedRights, grantedRights, if_pos paged, if_pos paged]
    rw [tablesFault, if_pos paged, guestFault_eq_none] at allowed
    have directory := (PageEntry.denies_eq_false.mp allowed.2.1).2 rfl
    have table := (PageEntry.denies_eq_false.mp allowed.2.2).2 rfl
    by_cases user : vm.guestCPL = 3
    · rw [user, shadowRights_user, shadowRights_user]
      exact ⟨directory (.inr (by simpa using user)), table (.inr (by simpa using user))⟩
    · rw [shadowRights_kernel user, shadowRights_kernel user]
      cases protect : vm.guestCpu.wp
      · simp
      · simp [directory (.inl protect), table (.inl protect)]
  · rw [grantedRights, grantedRights, if_neg paged, if_neg paged]
    exact ⟨rfl, rfl⟩

/-- What `guestPageFault` does where the mapping succeeds. -/
theorem guestPageFault_mapped {vm next mapped : Vm} {cr2 page : Bit32u}
    (run : guestPageFault cr2 vm = .ok () next)
    (mapping : mapGuestLinAddr cr2 vm.faultAccess.1 vm.faultAccess.2 vm = .ok (.ok page) mapped) :
    next = mapped := by
  cases guestPageFault_ok run with
  | mapped again =>
      rw [mapping] at again
      cases again
      rfl
  | reflected again fault =>
      rw [mapping] at again
      cases again

/-- A page mapped for a fault can be reached as the fault asked exactly where
nothing stands in the way. -/
theorem Guarded.permits_iff {reg : Registration} {vm next : Vm} {cr2 page : Bit32u}
    (guarded : Guarded reg vm) (valid : reg.Valid)
    (mapping : mapGuestLinAddr cr2 vm.faultAccess.1 vm.faultAccess.2 vm = .ok (.ok page) next) :
    (∃ pte, next.Permits cr2 vm.faultAccess.2 page pte) ↔
      vm.NothingInTheWay cr2 vm.faultAccess.2 := by
  have spec := (mapGuestLinAddr_ok guarded.sound mapping).mapped guarded.sound
  have after := guarded.mapped spec
  obtain rfl := spec.page
  constructor
  · rintro ⟨pte, reaches, writable, -, -⟩
    have stays : vm.targetEvicts cr2 = false := by
      cases evicts : vm.targetEvicts cr2
      · rfl
      · exact (Bool.false_ne_true ((spec.lost evicts).symm.trans reaches.present)).elim
    refine ⟨stays, fun write stands => ?_⟩
    obtain ⟨pde, _, live, given⟩ := spec.entered stays
    have rights := congrArg Prod.snd given.directory
    rw [directoryRights, if_pos stands, ← live.directory] at rights
    exact rights.symm.trans (writable write).1
  · rintro ⟨stays, unhindered⟩
    obtain ⟨pde, pte, live, given⟩ := spec.entered stays
    have directory := live.directory
    have rights := given.directory
    have user : pde.us = true := by
      have held := after.user _ live.other (by rw [directory]; exact live.present)
      rwa [directory] at held
    refine ⟨pte, ?_, fun write => ⟨?_, ?_⟩, given.base, given.pinned⟩
    · refine (after.userReaches_iff valid).mpr ⟨?_, ?_, given.us⟩
      · rw [directory]
        exact live
      · rw [directory]
        exact user
    · rw [directory]
      have writes := congrArg Prod.snd rights
      rw [directoryRights] at writes
      split at writes
      · next stands => exact writes.trans (unhindered write stands)
      · have allowed := spec.allowed
        rw [write] at allowed
        exact writes.trans (granted_rw allowed).1
    · have allowed := spec.allowed
      rw [write] at allowed
      have readWrite : (vm.pins.guestPageInfo (vm.guestPage cr2)).attr.ro =
          false := by
        cases readOnly : (vm.pins.guestPageInfo (vm.guestPage cr2)).attr.ro
        · rfl
        · exact (Bool.false_ne_true ((given.writable readOnly).symm.trans write)).elim
      rw [given.rw, pageWritable, (granted_rw allowed).2, readWrite]
      rfl

/-- A page fault that is not given to the guest leaves tables that let the access
through exactly where nothing stands in its way. -/
theorem fault_progress {reg : Registration} {past : List (Moment Vm Trap)} {vm next mapped : Vm}
    {trap : Trap} {cr2 page : Bit32u} (run : GuestRun reg past vm) (native : Native vm trap.now)
    (served : guestPageFault cr2 trap.faulted = .ok () next)
    (mapping : mapGuestLinAddr cr2 trap.faulted.faultAccess.1 trap.faulted.faultAccess.2
      trap.faulted = .ok (.ok page) mapped) :
    (∃ pte, next.Permits cr2 trap.faulted.faultAccess.2 page pte) ↔
      trap.faulted.NothingInTheWay cr2 trap.faulted.faultAccess.2 := by
  obtain rfl := guestPageFault_mapped served mapping
  exact ((run.guarded.native native).entered trap.cycles).permits_iff run.valid mapping

/-- A write of user code to its own page goes through. -/
theorem fault_progress_sample : ∃ (trap : Trap) (next : Vm) (page : Bit32u) (pte : PageEntry),
    guestPageFault 0x8000 trap.faulted = .ok () next ∧ next.Permits 0x8000 true page pte := by
  let check (played : List (Moment Vm Trap) × Vm) : Bool :=
    let now := ((Sample.fault 0x8000 6).trap played.2).faulted
    now.faultAccess.2 = true && (mapsPage now 0x8000).isSome &&
      (leaves (guestPageFault 0x8000) now).isSome && decide (now.NothingInTheWay 0x8000 true)
  have checked : (play (Sample.boot true) []).any check = true := by decide +kernel
  obtain ⟨past, vm, run, found⟩ := play_reaches (Sample.boot_registered true) checked
  simp only [check, Bool.and_eq_true, decide_eq_true_eq] at found
  obtain ⟨⟨⟨write, maps⟩, returns⟩, unhindered⟩ := found
  obtain ⟨page, mapped, mapping⟩ := mapsPage_mapping maps
  obtain ⟨next, left⟩ := Option.isSome_iff_exists.mp returns
  have served := leaves_eq_some.mp left
  have progress := fault_progress run ((Sample.fault 0x8000 6).native vm) served mapping
  rw [write] at progress
  obtain ⟨pte, permits⟩ := progress.mpr unhindered
  exact ⟨_, next, page, pte, served, permits⟩

/-- The guest makes four megabytes writable that it could only read before. A
write to a page in them is mapped, and cannot go through. -/
theorem fault_stuck : ∃ past vm next page, ∃ trap : Trap,
    GuestRun Sample.reg past vm ∧ Native vm trap.now ∧
      guestPageFault 0xb000 trap.faulted = .ok () next ∧
      mapGuestLinAddr 0xb000 trap.faulted.faultAccess.1 trap.faulted.faultAccess.2 trap.faulted =
        .ok (.ok page) next ∧
      ¬ ∃ pte, next.Permits 0xb000 trap.faulted.faultAccess.2 page pte := by
  let readOnly : Episode :=
    { Sample.fault 0x8000 4 with store := fun mem => putEntry mem 1 0 ⟨0x2005⟩ }
  let write : Episode :=
    { Sample.fault 0xb000 6 with store := fun mem => putEntry mem 1 0 ⟨0x2007⟩ }
  let check (played : List (Moment Vm Trap) × Vm) : Bool :=
    let now := (write.trap played.2).faulted
    (mapsPage now 0xb000).isSome && (leaves (guestPageFault 0xb000) now).isSome &&
      !decide (now.NothingInTheWay 0xb000 now.faultAccess.2)
  have checked : (play (Sample.boot true) [readOnly]).any check = true := by decide +kernel
  obtain ⟨past, vm, run, found⟩ := play_reaches (Sample.boot_registered true) checked
  simp only [check, Bool.and_eq_true, Bool.not_eq_true', decide_eq_false_iff_not] at found
  obtain ⟨⟨maps, returns⟩, hindered⟩ := found
  obtain ⟨page, mapped, mapping⟩ := mapsPage_mapping maps
  obtain ⟨next, left⟩ := Option.isSome_iff_exists.mp returns
  have served := leaves_eq_some.mp left
  obtain rfl := guestPageFault_mapped served mapping
  have guarded : Guarded Sample.reg (write.trap vm).faulted :=
    (run.guarded.native (write.native vm)).entered _
  exact ⟨past, vm, next, page, write.trap vm, run, write.native vm, served, mapping,
    fun permits => hindered ((guarded.permits_iff run.valid mapping).mp permits)⟩

end Plex86
