import Plex86.Monitor.TrapSpec

namespace Plex86

open Logic Vm

/-- An entry of the shadow tables, with the directory entry above it. -/
structure TableEntry where
  pdi : BitVec 10
  pti : BitVec 10
  pde : PageEntry
  pte : PageEntry

def Vm.Shows (vm : Vm) (entry : TableEntry) : Prop :=
  vm.Live entry.pdi entry.pti entry.pde entry.pte

/-- The entry belongs to the page of a linear address. -/
def TableEntry.Of (entry : TableEntry) (laddr : Bit32u) : Prop :=
  entry.pdi = pdiOf laddr ∧ entry.pti = ptiOf laddr

/-- What the tables hold for an address. -/
def Vm.entryOf (vm : Vm) (laddr : Bit32u) : TableEntry where
  pdi := pdiOf laddr
  pti := ptiOf laddr
  pde := vm.shadow.pageDir (pdiOf laddr)
  pte := vm.shadow.pageTbl (vm.shadow.pageTblLaddrMap (pdiOf laddr)) (ptiOf laddr)

private theorem Vm.shows_entryOf {vm : Vm} {laddr : Bit32u} :
    vm.Shows (vm.entryOf laddr) ↔ pdiOf laddr ≠ vm.setup.monPdi ∧
      (vm.entryOf laddr).pde.p = true ∧ (vm.entryOf laddr).pte.p = true :=
  ⟨fun shows => ⟨shows.other, shows.present, shows.mapped⟩, fun held =>
    ⟨held.1, rfl, held.2.1, rfl, held.2.2⟩⟩

instance (vm : Vm) (laddr : Bit32u) : Decidable (vm.Shows (vm.entryOf laddr)) :=
  decidable_of_iff _ Vm.shows_entryOf.symm

/-- The entry leads to a pinned page of the guest's memory, and to none that the
guest may not reach directly. -/
structure Vm.LeadsTo (vm : Vm) (entry : TableEntry) (page : Bit32u) : Prop where
  pinned : vm.pins.pinned page = true
  base : entry.pte.base = vm.pins.hostPPI page
  memory : (vm.pins.guestPageInfo page).attr.memMapIo = false
  writable : (vm.pins.guestPageInfo page).attr.ro = true → entry.pte.rw = false

namespace Trap

/-- The address of a page fault. -/
def faultAddress (trap : Trap) : Option Bit32u :=
  match trap.cause with
  | .fault (.pageFault cr2) => some cr2
  | _ => none

/-- The machine as the handling of a fault finds it. -/
def faulted (trap : Trap) : Vm := trap.now.entered trap.cycles

/-- The trap is a page fault that made the entry. -/
structure Makes (trap : Trap) (entry : TableEntry) (cr2 : Bit32u) (middle : Vm) : Prop where
  cause : trap.cause = .fault (.pageFault cr2)
  address : entry.Of cr2
  run : mapGuestLinAddr cr2 trap.faulted.faultAccess.1 trap.faulted.faultAccess.2 trap.faulted =
    .ok (.ok (trap.faulted.guestPage cr2)) middle
  shows : middle.Shows entry
  given : EntryGiven trap.faulted cr2 trap.faulted.faultAccess.2 middle entry.pde entry.pte

end Trap

/-- What an entry and the tables it was made from depend on has not changed. -/
structure Undisturbed (before after : Vm) : Prop where
  quiet : Quiet before after
  readOnly : ∀ page, (after.pins.guestPageInfo page).attr.ro =
    (before.pins.guestPageInfo page).attr.ro
  memMapIo : ∀ page, (after.pins.guestPageInfo page).attr.memMapIo =
    (before.pins.guestPageInfo page).attr.memMapIo
  pg : after.guestCpu.pg = before.guestCpu.pg
  cr3 : after.guestCpu.cr3 = before.guestCpu.cr3

/-- The page fault of this moment made the entry, and unpinned nothing after that. -/
def MadeAt (moment : Moment Vm Trap) (entry : TableEntry) : Prop :=
  ∃ cr2 middle, moment.event.Makes entry cr2 middle ∧ Quiet middle moment.after

/-- Nothing at this moment takes the entry back: no page is unpinned, the page
is not invalidated, and no control register is loaded. -/
structure KeptAt (moment : Moment Vm Trap) (entry : TableEntry) : Prop where
  quiet : Quiet moment.before moment.after
  valid : ∀ laddr, moment.event.cause = .fault (.invalidate laddr) → ¬ entry.Of laddr
  noLoad : ∀ crx val32, moment.event.cause ≠ .fault (.setCRx crx val32)

/-- The entry leads to the page it was made for, and the guest pages as it did then. -/
structure StillLeads (maker : Moment Vm Trap) (vm : Vm) (entry : TableEntry) : Prop where
  page : ∀ cr2, maker.event.cause = .fault (.pageFault cr2) →
    vm.LeadsTo entry (maker.event.faulted.guestPage cr2)
  pg : vm.guestCpu.pg = maker.event.faulted.guestCpu.pg
  cr3 : vm.guestCpu.cr3 = maker.event.faulted.guestCpu.cr3

namespace Undisturbed

variable {before middle after : Vm}

theorem trans (first : Undisturbed before middle) (second : Undisturbed middle after) :
    Undisturbed before after where
  quiet := first.quiet.trans second.quiet
  readOnly := fun page => (second.readOnly page).trans (first.readOnly page)
  memMapIo := fun page => (second.memMapIo page).trans (first.memMapIo page)
  pg := second.pg.trans first.pg
  cr3 := second.cr3.trans first.cr3

theorem ofNative (native : Native before after) : Undisturbed before after where
  quiet := ⟨by rw [unpins, unpins, native.calls], fun page pinned => by
    rw [native.pins]
    exact ⟨pinned, rfl⟩⟩
  readOnly := fun page => by rw [native.pins]
  memMapIo := fun page => by rw [native.pins]
  pg := native.pg
  cr3 := native.cr3

theorem ofPages (pages : PagesSettled before after) (still : NoEviction before after) :
    Undisturbed before after where
  quiet := still.quiet
  readOnly := pages.readOnly
  memMapIo := pages.memMapIo
  pg := by rw [GuestCpu.pg, GuestCpu.pg, pages.cr0]
  cr3 := pages.cr3

theorem ofMapped {laddr ppi : Bit32u} {reqUs reqRw : Bool}
    (mapped : Mapped before laddr reqUs reqRw ppi after) (quiet : Quiet before after) :
    Undisturbed before after where
  quiet := quiet
  readOnly := mapped.readOnly
  memMapIo := mapped.memMapIo
  pg := by rw [mapped.cpu.guestCpu]
  cr3 := by rw [mapped.cpu.guestCpu]

theorem ofDropped {laddr : Bit32u} (dropped : Dropped laddr before after) :
    Undisturbed before after where
  quiet := ⟨by rw [unpins, unpins, dropped.calls], fun page pinned => by
    rw [dropped.pins]
    exact ⟨pinned, rfl⟩⟩
  readOnly := fun page => by rw [dropped.pins]
  memMapIo := fun page => by rw [dropped.pins]
  pg := by rw [dropped.cpu.guestCpu]
  cr3 := by rw [dropped.cpu.guestCpu]

theorem ofEntered (vm : Vm) (cycles : BitVec 64) : Undisturbed vm (vm.entered cycles) :=
  ⟨⟨rfl, fun _ pinned => ⟨pinned, rfl⟩⟩, fun _ => rfl, fun _ => rfl, rfl, rfl⟩

theorem leadsTo (undisturbed : Undisturbed before after) {entry : TableEntry} {page : Bit32u}
    (old : before.LeadsTo entry page) : after.LeadsTo entry page := by
  obtain ⟨pinned, same⟩ := undisturbed.quiet.kept _ old.pinned
  exact ⟨pinned, old.base.trans same.symm, (undisturbed.memMapIo _).trans old.memory,
    fun readOnly => old.writable ((undisturbed.readOnly _).symm.trans readOnly)⟩

/-- An entry that nothing disturbs goes on leading to its page. -/
theorem leads (undisturbed : Undisturbed before after) {maker : Moment Vm Trap}
    {entry : TableEntry} (leads : StillLeads maker before entry) :
    StillLeads maker after entry where
  page := fun cr2 cause => undisturbed.leadsTo (leads.page cr2 cause)
  pg := undisturbed.pg.trans leads.pg
  cr3 := undisturbed.cr3.trans leads.cr3

end Undisturbed

theorem Mapped.leadsTo {vm next : Vm} {laddr ppi : Bit32u} {reqUs reqRw : Bool} {entry : TableEntry}
    (mapped : Mapped vm laddr reqUs reqRw ppi next)
    (given : EntryGiven vm laddr reqRw next entry.pde entry.pte)
    (apart : ∀ page, (vm.pins.guestPageInfo page).attr.ro = true →
      (vm.pins.guestPageInfo page).attr.memMapIo = false) :
    next.LeadsTo entry (vm.guestPage laddr) := by
  refine ⟨given.pinned, given.base, ?_, ?_⟩
  · rw [mapped.memMapIo]
    exact given.memory.elim (apart _) id
  · intro readOnly
    rw [given.rw, pageWritable, ← mapped.readOnly, readOnly]
    simp

/-- A page fault's new entry leads to the page the guest's tables give. -/
theorem Trap.Makes.leads {before after middle : Vm} {trap : Trap} {entry : TableEntry}
    {cr2 : Bit32u} (makes : trap.Makes entry cr2 middle)
    (mapped : Mapped trap.faulted cr2 trap.faulted.faultAccess.1 trap.faulted.faultAccess.2
      (trap.faulted.guestPage cr2) middle)
    (apart : ∀ page, (trap.faulted.pins.guestPageInfo page).attr.ro = true →
      (trap.faulted.pins.guestPageInfo page).attr.memMapIo = false) :
    StillLeads ⟨before, trap, after⟩ middle entry where
  page := by
    intro address cause
    cases makes.cause.symm.trans cause
    exact mapped.leadsTo makes.given apart
  pg := by rw [mapped.cpu.guestCpu]
  cr3 := by rw [mapped.cpu.guestCpu]

/-- An entry there after a step was made in it, or was there before and kept. -/
theorem Guarded.traced {reg : Registration} {before after : Vm} {trap : Trap}
    {entry : TableEntry} (guarded : Guarded reg before) (step : Step before trap after)
    (shows : after.Shows entry) :
    (MadeAt ⟨before, trap, after⟩ entry ∧ StillLeads ⟨before, trap, after⟩ after entry) ∨
      (before.Shows entry ∧ KeptAt ⟨before, trap, after⟩ entry ∧
        ∀ maker, StillLeads maker before entry → StillLeads maker after entry) := by
  obtain ⟨native, served⟩ := step
  have entered := (guarded.native native).entered trap.cycles
  have begun : Undisturbed before trap.faulted :=
    (Undisturbed.ofNative native).trans (.ofEntered _ _)
  have same : trap.faulted.Shows entry → before.Shows entry := fun there => by
    rw [Vm.Shows, Live, ← native.setup, ← native.shadow]
    exact there
  have stays (undisturbed : Undisturbed before after) (there : trap.faulted.Shows entry)
      (valid : ∀ laddr, trap.cause = .fault (.invalidate laddr) → ¬ entry.Of laddr)
      (noLoad : ∀ crx val32, trap.cause ≠ .fault (.setCRx crx val32)) :
      before.Shows entry ∧ KeptAt ⟨before, trap, after⟩ entry ∧
        ∀ maker, StillLeads maker before entry → StillLeads maker after entry :=
    ⟨same there, ⟨undisturbed.quiet, valid, noLoad⟩, fun maker leads => undisturbed.leads leads⟩
  cases Trap.serve_handled (guarded.native native).sound served with
  | settled pages valid noLoad =>
      obtain ⟨there, still⟩ := pages.live shows
      refine .inr (stays ?_ there (fun laddr cause => (valid laddr cause).elim) noLoad)
      exact (Undisturbed.ofNative native).trans (.ofPages pages still)
  | @mapped cr2 ppi middle cause run rest =>
      have mapped := (mapGuestLinAddr_ok entered.sound run).mapped entered.sound
      obtain ⟨there, still⟩ := rest.live shows
      have later := Undisturbed.ofPages rest still
      rcases mapped.traced _ _ _ _ there with ⟨old, quiet⟩ | ⟨pdi, pti, given⟩
      · refine .inr (stays ((begun.trans (.ofMapped mapped quiet)).trans later) old ?_ ?_)
        · intro laddr invalidates
          cases cause.symm.trans invalidates
        · intro crx val32 loads
          cases cause.symm.trans loads
      · obtain rfl := mapped.page
        have makes : trap.Makes entry cr2 middle := ⟨cause, ⟨pdi, pti⟩, run, there, given⟩
        exact .inl ⟨⟨cr2, middle, makes, later.quiet⟩,
          later.leads (makes.leads mapped entered.apart)⟩
  | dropped cause dropped rest =>
      obtain ⟨there, still⟩ := rest.live shows
      obtain ⟨old, other⟩ := dropped.fewer _ _ _ _ there
      refine .inr (stays ((begun.trans (.ofDropped dropped)).trans (.ofPages rest still)) old ?_ ?_)
      · intro laddr invalidates
        cases cause.symm.trans invalidates
        exact other
      · intro crx val32 loads
        cases cause.symm.trans loads
  | emptied cause emptied rest => exact (emptied.live_false (rest.live shows).1).elim

/-- Every entry there in a run was made by a page fault of the run, for a page it
still leads to, and nothing in the run has taken it back since. -/
theorem GuestRun.origin {reg : Registration} {past : List (Moment Vm Trap)} {vm : Vm}
    (run : GuestRun reg past vm) {entry : TableEntry} (shows : vm.Shows entry) :
    ∃ newer maker older, past = newer ++ maker :: older ∧ MadeAt maker entry ∧
      StillLeads maker vm entry ∧ ∀ moment ∈ newer, KeptAt moment entry := by
  have initially (state : Vm) (started : Started reg state) :
      Guarded reg state ∧ ∀ item : TableEntry, ¬ state.Shows item :=
    ⟨started.guarded.1, fun item => started.guarded.2 _ _ _ _⟩
  exact Run.origin initially (fun _ _ _ guarded step => guarded.step step)
    (fun _ _ _ _ guarded step shows => guarded.traced step shows) run shows

/-- Whatever a moment of a run maps, it maps from a machine in order. -/
theorem GuestRun.faulted_guarded {reg : Registration} {past : List (Moment Vm Trap)} {vm : Vm}
    (run : GuestRun reg past vm) {moment : Moment Vm Trap} (member : moment ∈ past) :
    Guarded reg moment.event.faulted := by
  obtain ⟨⟨older, before⟩, native, -⟩ := run.moment_reached member
  exact ((GuestRun.guarded before).native native).entered _

theorem GuestRun.maker_mapped {reg : Registration} {past : List (Moment Vm Trap)} {vm middle : Vm}
    {moment : Moment Vm Trap} {entry : TableEntry} {cr2 : Bit32u} (run : GuestRun reg past vm)
    (member : moment ∈ past) (makes : moment.event.Makes entry cr2 middle) :
    Mapped moment.event.faulted cr2 moment.event.faulted.faultAccess.1
      moment.event.faulted.faultAccess.2 (moment.event.faulted.guestPage cr2) middle :=
  have guarded := run.faulted_guarded member
  (mapGuestLinAddr_ok guarded.sound makes.run).mapped guarded.sound

end Plex86
