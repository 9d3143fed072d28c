import Plex86.Monitor.Confinement
import Plex86.Monitor.RomWrites

namespace Plex86

open Logic Vm

/-- The page is one that `hostInitGuestPhyMem` marks as read-only. -/
def Registration.Rom (reg : Registration) (ppi : Bit32u) : Prop :=
  (initialAttr reg.linuxVMMode reg.guestNPages ppi).ro = true

instance (reg : Registration) (ppi : Bit32u) : Decidable (reg.Rom ppi) :=
  inferInstanceAs (Decidable (_ = _))

/-- The pages still have the marks they were given. -/
def Registration.Marked (reg : Registration) (vm : Vm) : Prop :=
  ∀ ppi, (vm.pins.guestPageInfo ppi).attr.ro =
    (initialAttr reg.linuxVMMode reg.guestNPages ppi).ro

/-- The host has the guest's page in a frame, and no other pinned page there. -/
structure Vm.Backs (vm : Vm) (frame : Frame) (ppi : Bit32u) : Prop where
  pinned : vm.pins.pinned ppi = true
  here : vm.pins.hostPPI ppi = frame
  only : ∀ other, vm.pins.pinned other = true → vm.pins.hostPPI other = frame → other = ppi

/-- User code changes memory only where the processor lets it through for writing. -/
def NativeStores (vm now : Vm) : Prop :=
  ∀ ppi, now.mem ppi ≠ vm.mem ppi → ∃ laddr pte, vm.UserReaches laddr pte ∧
    (vm.shadow.pageDir (pdiOf laddr)).rw = true ∧ pte.rw = true ∧ vm.Backs pte.base ppi

namespace Registration.Marked

variable {reg : Registration} {vm next : Vm}

theorem same (marked : reg.Marked vm) (kept : ∀ ppi, (next.pins.guestPageInfo ppi).attr.ro =
    (vm.pins.guestPageInfo ppi).attr.ro) : reg.Marked next :=
  fun ppi => (kept ppi).trans (marked ppi)

/-- No trap changes a mark. -/
theorem handled {trap : Trap} (guarded : Guarded reg trap.now) (marked : reg.Marked trap.now)
    (handled : Handled trap next) : reg.Marked next := by
  have entered := guarded.entered trap.cycles
  cases handled with
  | settled pages valid noLoad => exact marked.same pages.readOnly
  | @mapped cr2 ppi middle cause run rest =>
      have spec := (mapGuestLinAddr_ok entered.sound run).mapped entered.sound
      have mapped : reg.Marked middle := marked.same spec.readOnly
      exact mapped.same rest.readOnly
  | @dropped laddr middle cause dropped rest =>
      have same : reg.Marked middle := by
        apply marked.same
        intro ppi
        rw [dropped.pins]
        rfl
      exact same.same rest.readOnly
  | @emptied crx val32 middle cause emptied rest =>
      have same : reg.Marked middle := by
        apply marked.same
        intro ppi
        rw [emptied.pins]
        rfl
      exact same.same rest.readOnly

/-- The marks are there when the guest first runs. -/
theorem started (started : Started reg vm) : reg.Marked vm := by
  obtain ⟨boot, entry, resumed⟩ := started.entered
  have rest := handler_pages (fun _ => preGuest_handler) resumed
  intro ppi
  rw [rest.readOnly ppi]
  change (boot.pins.guestPageInfo ppi).attr.ro = _
  rw [entry.registered.same.2.1]
  rfl

end Registration.Marked

theorem GuestRun.marked {reg : Registration} {past : List (Moment Vm Trap)} {vm : Vm}
    (run : GuestRun reg past vm) : reg.Marked vm := by
  have begins (state : Vm) (started : Started reg state) : Guarded reg state ∧ reg.Marked state :=
    ⟨started.guarded.1, Registration.Marked.started started⟩
  have steps (before : Vm) (trap : Trap) (after : Vm) (holds : Guarded reg before ∧ reg.Marked before)
      (step : Step before trap after) : Guarded reg after ∧ reg.Marked after := by
    have native := holds.1.native step.1
    have same : reg.Marked trap.now := by
      apply holds.2.same
      intro ppi
      rw [step.1.pins]
    exact ⟨holds.1.step step, same.handled native (Trap.serve_handled native.sound step.2)⟩
  exact (run.invariant begins steps).2

/-- User code has no way to write to a page that is marked read-only. -/
theorem GuestRun.native_spared {reg : Registration} {past : List (Moment Vm Trap)} {vm now : Vm}
    (run : GuestRun reg past vm) (stores : NativeStores vm now) : vm.Spared reg.Rom now := by
  intro ppi readOnly
  by_contra differs
  obtain ⟨laddr, pte, reaches, -, writes, backs⟩ := stores ppi differs
  obtain ⟨newer, maker, older, entry, cr2, middle, -, rfl, -, -, -, leads⟩ :=
    (GuestRun.confined run reaches).origin
  have page := backs.only _ leads.pinned leads.base.symm
  have marked : (vm.pins.guestPageInfo (maker.event.faulted.guestPage laddr)).attr.ro = true := by
    rw [run.marked, page]
    exact readOnly
  exact Bool.noConfusion ((leads.writable marked).symm.trans writes)

/-- Where every store that the monitor makes on the guest's behalf lands outside of
the read-only pages, they hold in every state of a run what they held when the
guest first ran. -/
theorem rom_kept {reg : Registration} {past : List (Moment Vm Trap)} {vm : Vm}
    (run : GuestRun reg past vm)
    (native : ∀ moment ∈ past, NativeStores moment.before moment.event.now)
    (spares : ∀ moment ∈ past, moment.event.Spares reg.Rom) :
    (Run.first past vm).Spared reg.Rom vm := by
  have steps (older : List (Moment Vm Trap)) (before : Vm) (trap : Trap) (after : Vm)
      (earlier : GuestRun reg older before) (step : Step before trap after)
      (allowed : NativeStores before trap.now ∧ trap.Spares reg.Rom) :
      before.Spared reg.Rom after := by
    have now := earlier.guarded.native step.1
    obtain ⟨records, holds⟩ := now.sound.holds
    have apart : trap.now.setup.WindowsApart := by
      rw [now.setup]
      exact reg.windowsApart
    exact (earlier.native_spared allowed.1).trans (Trap.serve_spared holds apart allowed.2 step.2)
  exact run.kept
    (fun moment => NativeStores moment.before moment.event.now ∧ moment.event.Spares reg.Rom)
    (fun _ => .of_mem rfl) (fun _ _ _ first second => first.trans second) steps
    fun moment member => ⟨native moment member, spares moment member⟩

/-- A walk is known to spare pages that it cannot touch. -/
theorem Vm.WalkSpares.of_apart {rom : Bit32u → Prop} {vm : Vm} {pdi pti : BitVec 10}
    {reqUs reqRw : Bool} (directory : ¬ rom vm.pageDirectory)
    (table : ¬ rom (vm.tables pdi pti).1.table) (fresh : ¬ vm.LateStale pdi pti reqUs reqRw) :
    vm.WalkSpares rom pdi pti reqUs reqRw :=
  ⟨fun _ _ _ => directory, fun _ _ => table, fresh⟩

/-- User code writes to a page of its own. -/
theorem rom_kept_sample : ∃ past vm moment, GuestRun Sample.reg past vm ∧ past = [moment] ∧
    moment.before.mem ≠ vm.mem ∧ (Run.first past vm).Spared Sample.reg.Rom vm := by
  let write : Episode := Sample.fault 0x8000 6
  let ticks (trap : Trap) : Mon Unit :=
    trap.handle >>= fun _ => preGuestClock >>= fun _ => preGuestHal
  let check (played : List (Moment Vm Trap) × Vm) : Bool :=
    let trap := write.trap played.2
    let now := trap.faulted
    played.1.isEmpty && decide (¬ Sample.reg.Rom now.pageDirectory) &&
      decide (¬ Sample.reg.Rom (now.tables (pdiOf 0x8000) (ptiOf 0x8000)).1.table) &&
      decide (¬ now.LateStale (pdiOf 0x8000) (ptiOf 0x8000) now.faultAccess.1 now.faultAccess.2) &&
      decide (now.tablesFault 0x8000 now.faultAccess.1 now.faultAccess.2 = none) &&
      (leaves (ticks trap) trap.now).all (fun ticked => ticked.intr == 0) &&
      (leaves trap.serve trap.now).any fun next =>
        entryAt next.mem 2 8 != entryAt played.2.mem 2 8
  have checked : (play (Sample.boot true) []).any check = true := by decide +kernel
  obtain ⟨past, vm, run, found⟩ := play_reaches (Sample.boot_registered true) checked
  simp only [check, Bool.and_eq_true, List.isEmpty_iff, decide_eq_true_eq] at found
  obtain ⟨⟨⟨⟨⟨⟨rfl, directory⟩, table⟩, fresh⟩, mapped⟩, quiet⟩, stored⟩ := found
  obtain ⟨next, served, changed⟩ := Option.any_eq_true .. |>.mp stored
  have step : Step vm (write.trap vm) next := ⟨write.native vm, leaves_eq_some.mp served⟩
  let moment : Moment Vm Trap := ⟨vm, write.trap vm, next⟩
  have spares : moment.event.Spares Sample.reg.Rom := by
    constructor
    case handled =>
      exact ⟨fun _ => .of_apart directory table fresh, fun refused => absurd mapped refused⟩
    case resumed =>
      intro middle handled ticked ticking linux due
      have left : leaves (ticks (write.trap vm)) (write.trap vm).now = some ticked :=
        leaves_eq_some.mpr (bind_ok.mpr ⟨_, middle, handled, ticking⟩)
      rw [left] at quiet
      exact absurd (by simpa using quiet) due
  refine ⟨[moment], next, moment, .next run step, rfl, ?_, ?_⟩
  · intro same
    rw [← same] at changed
    simp [moment] at changed
  · refine rom_kept (.next run step) (fun other member => ?_) fun other member => ?_
    · obtain rfl := List.mem_singleton.mp member
      exact fun ppi differs => absurd rfl differs
    · obtain rfl := List.mem_singleton.mp member
      exact spares

/-- The guest's kernel has its stack in the area of the BIOS. -/
def Sample.romStack (ppi : Bit32u) : Bytes :=
  if ppi = 5 then pageOf fun | 1 => 0xf0f00 | 2 => 0x18 | _ => 0 else memory ppi

/-- A page fault of user code is given to the guest, and its frame is pushed into
the read-only pages. -/
theorem rom_pushed : ∃ (past : List (Moment Vm Trap)) (vm : Vm), GuestRun Sample.reg past vm ∧
    (∀ moment ∈ past, NativeStores moment.before moment.event.now) ∧
      ¬ (Run.first past vm).Spared Sample.reg.Rom vm := by
  let boot : Vm := { Sample.boot true with mem := Sample.romStack }
  have registered : Sample.reg.Registered boot :=
    ⟨Sample.reg_valid, Sample.cpu true, Sample.romStack, 0, 0, rfl⟩
  let check (played : List (Moment Vm Trap) × Vm) : Bool :=
    played.1.isEmpty &&
      (leaves ((Sample.fault 0x400000 4).trap played.2).serve
        ((Sample.fault 0x400000 4).trap played.2).now).any fun next =>
          loadWord 32 (next.mem 0xf0) 0xef8 != loadWord 32 (played.2.mem 0xf0) 0xef8
  have checked : (play boot []).any check = true := by decide +kernel
  obtain ⟨past, vm, run, found⟩ := play_reaches registered checked
  simp only [check, Bool.and_eq_true, List.isEmpty_iff] at found
  obtain ⟨rfl, stored⟩ := found
  obtain ⟨next, served, changed⟩ := Option.any_eq_true .. |>.mp stored
  let trap : Trap := (Sample.fault 0x400000 4).trap vm
  have step : Step vm trap next := ⟨(Sample.fault 0x400000 4).native vm, leaves_eq_some.mp served⟩
  refine ⟨[⟨vm, trap, next⟩], next, .next run step, fun moment member => ?_, fun spared => ?_⟩
  · obtain rfl := List.mem_singleton.mp member
    exact fun ppi differs => absurd rfl differs
  · have kept : next.mem 0xf0 = vm.mem 0xf0 := spared 0xf0 (by decide)
    rw [kept] at changed
    simp at changed

end Plex86
