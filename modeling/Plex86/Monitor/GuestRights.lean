import Plex86.Host.Startup
import Plex86.Monitor.Origin
import Plex86.Monitor.Replay

namespace Plex86

open Logic Vm

/-- The guest's own tables allow an access by user code. -/
def Vm.UserAllowed (vm : Vm) (pdi pti : BitVec 10) (write : Bool) : Prop :=
  guestFault vm.guestCpu.wp (vm.tables pdi pti) true write = none

instance (vm : Vm) (pdi pti : BitVec 10) (write : Bool) : Decidable (vm.UserAllowed pdi pti write) :=
  inferInstanceAs (Decidable (_ = _))

/-- Who may write may read. -/
theorem Vm.UserAllowed.read {vm : Vm} {pdi pti : BitVec 10} {write : Bool}
    (allowed : vm.UserAllowed pdi pti write) : vm.UserAllowed pdi pti false := by
  rw [UserAllowed, guestFault_eq_none, PageEntry.denies_eq_false, PageEntry.denies_eq_false]
    at allowed ⊢
  exact ⟨allowed.1, ⟨allowed.2.1.1, by simp⟩, ⟨allowed.2.2.1, by simp⟩⟩

/-- The entry made for a page fault gives user code no more than the guest's own
tables allow it. Entries made for the guest's kernel may give it more. -/
def Vm.GrantsUser (vm : Vm) (laddr : Bit32u) : Prop :=
  vm.UserAllowed (pdiOf laddr) (ptiOf laddr) ((vm.directoryRights laddr).2 && vm.pageWritable laddr)

instance (vm : Vm) (laddr : Bit32u) : Decidable (vm.GrantsUser laddr) :=
  inferInstanceAs (Decidable (vm.UserAllowed _ _ _))

/-- At this moment the entries of a page are taken back: the page is invalidated,
a control register is loaded, or some page is unpinned. -/
def TakenBackAt (moment : Moment Vm Trap) (laddr : Bit32u) : Prop :=
  (∃ other, moment.event.cause = .fault (.invalidate other) ∧ pdiOf other = pdiOf laddr ∧
    ptiOf other = ptiOf laddr) ∨
  (∃ crx val32, moment.event.cause = .fault (.setCRx crx val32)) ∨
  ¬ Quiet moment.before moment.after

/-- The guest's own tables allow the access that faulted, so that an entry is made
for it and the guest is not told of the fault. -/
def Vm.MakesEntry (vm : Vm) (laddr : Bit32u) : Prop :=
  vm.tablesFault laddr vm.faultAccess.1 vm.faultAccess.2 = none

instance (vm : Vm) (laddr : Bit32u) : Decidable (vm.MakesEntry laddr) :=
  inferInstanceAs (Decidable (_ = _))

/-- Every page fault whose entry gives user code more than the guest's tables
allow it has been taken back since. -/
def ExcessTakenBack (past : List (Moment Vm Trap)) : Prop :=
  ∀ newer maker older cr2, past = newer ++ maker :: older →
    maker.event.cause = .fault (.pageFault cr2) → maker.event.faulted.MakesEntry cr2 →
      ¬ maker.event.faulted.GrantsUser cr2 → ∃ moment ∈ newer, TakenBackAt moment cr2

private theorem KeptAt.not_takenBack {moment : Moment Vm Trap} {entry : TableEntry} {laddr : Bit32u}
    (kept : KeptAt moment entry) (address : entry.Of laddr) : ¬ TakenBackAt moment laddr := by
  rintro (⟨other, cause, pdi, pti⟩ | ⟨crx, val32, cause⟩ | evicted)
  · exact kept.valid other cause ⟨address.1.trans pdi.symm, address.2.trans pti.symm⟩
  · exact kept.noLoad crx val32 cause
  · exact evicted kept.quiet

/-- Where all excess has been taken back, user code can do through a shadow entry
only what the guest's tables allowed it when the entry was made; the entry has
not been invalidated since. -/
theorem user_protected {reg : Registration} {past : List (Moment Vm Trap)} {vm : Vm}
    (run : GuestRun reg past vm) (paged : vm.guestCpu.pg = true)
    (takenBack : ExcessTakenBack past) {entry : TableEntry} (shows : vm.Shows entry) (write : Bool)
    (lets : write = true → entry.pde.rw = true ∧ entry.pte.rw = true) :
    ∃ newer maker older, past = newer ++ maker :: older ∧
      maker.event.faulted.guestCpu.pg = true ∧
      maker.event.faulted.UserAllowed entry.pdi entry.pti write ∧
      ∀ moment ∈ newer, KeptAt moment entry := by
  obtain ⟨newer, maker, older, split, ⟨cr2, middle, makes, -⟩, leads, kept⟩ := run.origin shows
  have grants : maker.event.faulted.GrantsUser cr2 := by
    by_contra excess
    have mapped := run.maker_mapped (by simp [split]) makes
    obtain ⟨moment, member, taken⟩ :=
      takenBack newer maker older cr2 split makes.cause mapped.allowed excess
    exact (kept moment member).not_takenBack makes.address taken
  refine ⟨newer, maker, older, split, leads.pg.symm.trans paged, ?_, kept⟩
  rw [makes.address.1, makes.address.2]
  cases write with
  | false => exact grants.read
  | true =>
      obtain ⟨directory, page⟩ := lets rfl
      have rights := congrArg Prod.snd makes.given.directory
      rw [GrantsUser, ← rights, directory, ← makes.given.rw, page] at grants
      exact grants

/-- No page fault's entry has given user code more than the guest's tables allow it. -/
def moderate (past : List (Moment Vm Trap)) : Bool :=
  past.all fun moment => moment.event.faultAddress.all fun cr2 =>
    decide (moment.event.faulted.MakesEntry cr2 → moment.event.faulted.GrantsUser cr2)

private theorem ExcessTakenBack.of_moderate {past : List (Moment Vm Trap)}
    (modest : moderate past = true) : ExcessTakenBack past := by
  intro newer maker older cr2 split cause entered excess
  have member : maker ∈ past := by simp [split]
  have grants := List.all_eq_true.mp modest maker member
  have address : maker.event.faultAddress = some cr2 := by simp [Trap.faultAddress, cause]
  rw [address] at grants
  exact (excess (of_decide_eq_true grants entered)).elim

/-- User code reads a page of its own and then one of the kernel's. The guest is
told of that fault and returns from it, and the entry for its own page is still there. -/
theorem user_protected_sample : ∃ (past : List (Moment Vm Trap)) (vm : Vm),
    past.length = 3 ∧ vm.guestCPL = 3 ∧ vm.Shows (vm.entryOf 0x8000) ∧ ∃ maker ∈ past,
      maker.event.faulted.UserAllowed (pdiOf 0x8000) (ptiOf 0x8000) false := by
  -- the handler leaves a frame for its return where the fault's frame ended
  let leave : Episode :=
    { cause := .fault (.iret Sample.visit)
      store := fun mem ppi =>
        if ppi = 6 then pageOf fun index => Sample.stack (index - 58) else mem ppi }
  let check (played : List (Moment Vm Trap) × Vm) : Bool :=
    decide (played.1.length = 3) && decide (played.2.guestCPL = 3) &&
      decide (played.2.Shows (played.2.entryOf 0x8000)) && played.2.guestCpu.pg && moderate played.1
  have checked : (play (Sample.boot true)
      [Sample.fault 0x8000 4, Sample.fault 0x9000 4, leave]).any check = true := by
    decide +kernel
  obtain ⟨past, vm, run, found⟩ := play_reaches (Sample.boot_registered true) checked
  simp only [check, Bool.and_eq_true, decide_eq_true_eq] at found
  obtain ⟨⟨⟨⟨three, user⟩, shows⟩, paged⟩, modest⟩ := found
  obtain ⟨newer, maker, older, split, -, allowed, -⟩ :=
    user_protected run paged (.of_moderate modest) shows false (by simp)
  exact ⟨past, vm, three, user, shows, maker, by simp [split], allowed⟩

/-- The guest's kernel reads a page of its own and returns to user code, which
can then read the page too, though the guest's tables have never allowed that. -/
theorem user_unprotected : ∃ past vm, GuestRun Sample.reg past vm ∧ vm.guestCPL = 3 ∧
    vm.guestCpu.pg = true ∧ vm.Shows (vm.entryOf 0x9000) ∧
    (vm.entryOf 0x9000).pde.us = true ∧ (vm.entryOf 0x9000).pte.us = true ∧
    (∀ moment ∈ past, ¬ moment.before.UserAllowed (pdiOf 0x9000) (ptiOf 0x9000) false ∧
      ¬ moment.event.now.UserAllowed (pdiOf 0x9000) (ptiOf 0x9000) false) ∧
    ¬ vm.UserAllowed (pdiOf 0x9000) (ptiOf 0x9000) false := by
  let allowed (vm : Vm) : Bool := decide (vm.UserAllowed (pdiOf 0x9000) (ptiOf 0x9000) false)
  let check (played : List (Moment Vm Trap) × Vm) : Bool :=
    decide (played.2.guestCPL = 3) && played.2.guestCpu.pg &&
      decide (played.2.Shows (played.2.entryOf 0x9000)) && (played.2.entryOf 0x9000).pde.us &&
      (played.2.entryOf 0x9000).pte.us &&
      (played.1.all fun moment => !allowed moment.before && !allowed moment.event.now) &&
      !allowed played.2
  have checked : (play (Sample.boot false)
      [Sample.fault 0x9000 0, { cause := .fault (.iret Sample.visit) }]).any check = true := by
    decide +kernel
  obtain ⟨past, vm, run, found⟩ := play_reaches (Sample.boot_registered false) checked
  simp only [check, allowed, Bool.and_eq_true, Bool.not_eq_true', decide_eq_true_eq,
    decide_eq_false_iff_not, List.all_eq_true] at found
  obtain ⟨⟨⟨⟨⟨⟨user, paged⟩, shows⟩, directory⟩, table⟩, never⟩, still⟩ := found
  exact ⟨past, vm, run, user, paged, shows, directory, table, never, still⟩

/-- The fault leaves the guest's page table entry dirty, or makes no writable
page of it, and stores through no window that has lost its page. -/
def Vm.MarksEnough (vm : Vm) (laddr : Bit32u) : Prop :=
  vm.guestCpu.pg = true → vm.tablesFault laddr vm.faultAccess.1 vm.faultAccess.2 = none →
    (vm.faultAccess.2 = true ∨ (vm.tables (pdiOf laddr) (ptiOf laddr)).2.d = true ∨
      ((vm.directoryRights laddr).2 && vm.pageWritable laddr) = false) ∧
    ¬ vm.StaleStore laddr vm.faultAccess.1 vm.faultAccess.2

/-- Every page fault of the run does so. -/
def FaultsMark (past : List (Moment Vm Trap)) : Prop :=
  ∀ moment ∈ past, ∀ cr2, moment.event.cause = .fault (.pageFault cr2) →
    moment.event.faulted.MarksEnough cr2

/-- The guest's entries for an address, as the making of a shadow entry left them. -/
structure MarkedFor (maker : Moment Vm Trap) (entry : TableEntry) (middle : Vm) : Prop where
  directory : (middle.tables entry.pdi entry.pti).1.a = true
  table : (middle.tables entry.pdi entry.pti).2.a = true
  dirty : entry.pde.rw = true → entry.pte.rw = true →
    (middle.tables entry.pdi entry.pti).2.d = true

/-- Where every fault marks enough, no native write reaches a page whose entry in
the guest's tables was not dirty when its shadow entry was made. -/
theorem entries_marked {reg : Registration} {past : List (Moment Vm Trap)} {vm : Vm}
    (run : GuestRun reg past vm) (paged : vm.guestCpu.pg = true) (faultsMark : FaultsMark past)
    {entry : TableEntry} (shows : vm.Shows entry) :
    ∃ maker ∈ past, ∃ cr2 middle, maker.event.Makes entry cr2 middle ∧
      MarkedFor maker entry middle := by
  obtain ⟨newer, maker, older, split, ⟨cr2, middle, makes, -⟩, leads, -⟩ := run.origin shows
  have member : maker ∈ past := by simp [split]
  have mapped := run.maker_mapped member makes
  have on : maker.event.faulted.guestCpu.pg = true := leads.pg.symm.trans paged
  obtain ⟨enough, fresh⟩ := faultsMark maker member cr2 makes.cause on mapped.allowed
  have apart : maker.event.faulted.setup.WindowsApart := by
    rw [(run.faulted_guarded member).setup]
    exact reg.windowsApart
  have marked := mapped.marked apart fresh on
  have tables : guestTables middle.mem maker.event.faulted.guestCpu.cr3 (pdiOf cr2) (ptiOf cr2) =
      middle.tables entry.pdi entry.pti := by
    rw [Vm.tables, mapped.cpu.guestCpu, makes.address.1, makes.address.2]
  refine ⟨maker, member, cr2, middle, makes, ?_, ?_, fun directory page => ?_⟩
  · rw [← tables]
    exact marked.directoryA
  · rw [← tables]
    exact marked.tableA
  · rw [← tables]
    refine marked.tableD ?_
    rcases enough with write | dirty | readOnly
    · exact .inl write
    · exact .inr dirty
    · have rights := congrArg Prod.snd makes.given.directory
      rw [← rights, directory, ← makes.given.rw, page] at readOnly
      exact Bool.noConfusion readOnly

/-- User code writes to a page of its own. -/
theorem entries_marked_sample : ∃ (past : List (Moment Vm Trap)) (vm : Vm),
    vm.Shows (vm.entryOf 0x8000) ∧ ∃ maker ∈ past, ∃ cr2 middle,
      maker.event.Makes (vm.entryOf 0x8000) cr2 middle ∧
        MarkedFor maker (vm.entryOf 0x8000) middle := by
  let enough (now : Vm) (cr2 : Bit32u) : Bool :=
    now.faultAccess.2 && !decide (now.StaleStore cr2 now.faultAccess.1 now.faultAccess.2)
  let check (played : List (Moment Vm Trap) × Vm) : Bool :=
    decide (played.2.Shows (played.2.entryOf 0x8000)) && played.2.guestCpu.pg &&
      played.1.all fun moment => moment.event.faultAddress.all (enough moment.event.faulted)
  have checked : (play (Sample.boot true) [Sample.fault 0x8000 6]).any check = true := by
    decide +kernel
  obtain ⟨past, vm, run, found⟩ := play_reaches (Sample.boot_registered true) checked
  simp only [check, Bool.and_eq_true, decide_eq_true_eq, List.all_eq_true] at found
  obtain ⟨⟨shows, paged⟩, all⟩ := found
  have faultsMark : FaultsMark past := by
    intro moment member cr2 cause _ _
    have writes := all moment member
    have address : moment.event.faultAddress = some cr2 := by simp [Trap.faultAddress, cause]
    simp only [address, Option.all_some, enough, Bool.and_eq_true, Bool.not_eq_true',
      decide_eq_false_iff_not] at writes
    exact ⟨.inl writes.1, writes.2⟩
  exact ⟨past, vm, shows, entries_marked run paged faultsMark shows⟩

/-- User code reads a page of its own, and can then write to it without a fault,
though its entry in the guest's tables has never been dirty. -/
theorem entry_unmarked : ∃ past vm, GuestRun Sample.reg past vm ∧ vm.guestCpu.pg = true ∧
    vm.Shows (vm.entryOf 0x8000) ∧ (vm.entryOf 0x8000).pde.rw = true ∧
    (vm.entryOf 0x8000).pte.rw = true ∧ ∀ maker ∈ past, ∀ cr2 middle,
      maker.event.Makes (vm.entryOf 0x8000) cr2 middle →
        ¬ MarkedFor maker (vm.entryOf 0x8000) middle := by
  let clean (now : Vm) (cr2 : Bit32u) : Bool :=
    (mapsPage now cr2).all fun mapped => !(mapped.2.tables (pdiOf 0x8000) (ptiOf 0x8000)).2.d
  let check (played : List (Moment Vm Trap) × Vm) : Bool :=
    played.2.guestCpu.pg && decide (played.2.Shows (played.2.entryOf 0x8000)) &&
      (played.2.entryOf 0x8000).pde.rw && (played.2.entryOf 0x8000).pte.rw &&
      played.1.all fun moment => moment.event.faultAddress.all (clean moment.event.faulted)
  have checked : (play (Sample.boot true) [Sample.fault 0x8000 4]).any check = true := by
    decide +kernel
  obtain ⟨past, vm, run, found⟩ := play_reaches (Sample.boot_registered true) checked
  simp only [check, Bool.and_eq_true, decide_eq_true_eq, List.all_eq_true] at found
  obtain ⟨⟨⟨⟨paged, shows⟩, directory⟩, page⟩, all⟩ := found
  refine ⟨past, vm, run, paged, shows, directory, page, fun maker member cr2 middle makes marked => ?_⟩
  have never := all maker member
  have address : maker.event.faultAddress = some cr2 := by simp [Trap.faultAddress, makes.cause]
  simp only [address, Option.all_some, clean, mapsPage_eq makes.run, Bool.not_eq_true'] at never
  exact Bool.false_ne_true (never.symm.trans (marked.dirty directory page))

end Plex86
