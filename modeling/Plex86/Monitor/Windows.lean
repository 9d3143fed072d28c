import Plex86.Monitor.Origin
import Plex86.Monitor.Replay

namespace Plex86

open Logic Vm

/-- Whether it returns or stops, the program has made valid accesses only. -/
abbrev Watched {α : Type} (start : Vm) (program : Mon α) : Prop :=
  Keeps (Careful start) (fun _ => Careful start) program

private theorem Watched.of_handler {α : Type} {start : Vm} {program : Mon α}
    (handler : ∀ start, Handler start program) : Watched start program := by
  intro vm careful
  have result := handler vm vm ⟨.refl vm, .refl vm⟩
  cases run : program vm with
  | ok value next =>
      rw [run] at result
      exact careful.trans result.2
  | error stop last =>
      rw [run] at result
      exact careful.trans result.2

private theorem Watched.of_log {α : Type} {start : Vm} {program : Mon α}
    (kept : ∀ log, KeepsLog log program) : Watched start program := by
  intro vm careful
  have result := kept vm.accesses vm rfl
  cases run : program vm with
  | ok value next =>
      rw [run] at result
      exact careful.trans ⟨[], result, by simp⟩
  | error stop last =>
      rw [run] at result
      exact careful.trans ⟨[], result, by simp⟩

section Log

variable (log : List WindowAccess)

private theorem getMonPTi_log (pdi : BitVec 10) (source : Bit32u) :
    KeepsLog log (getMonPTi pdi source) :=
  .get_bind fun _ _ => .bind (panicWhen_keeps fun _ same => same) fun _ =>
    .bind (panicWhen_keeps fun _ same => same) fun _ => .pure

/-- The tables of the guest are not consulted to take an entry out. -/
theorem invalidateGuestLinAddr_log (laddr : Bit32u) :
    KeepsLog log (invalidateGuestLinAddr laddr) := by
  refine .get_bind fun vm _ => .bind (panicWhen_keeps fun _ same => same) fun _ =>
    .ite (fun _ => .pure) fun _ => ?_
  refine .bind (panicWhen_keeps fun _ same => same) fun _ => .bind (getMonPTi_log log _ _) fun _ => ?_
  exact .ite (fun _ => .pure) fun _ => .modify fun _ same => same

private theorem setCRx_log (crx val32 : Bit32u) : KeepsLog log (setCRx crx val32) := by
  refine .bind (.modify fun _ same => same) fun _ => .ite (fun _ => ?_) fun _ =>
    .ite (fun _ => ?_) fun _ => .ite (fun _ => ?_) fun _ => .throw fun _ same => same
  · exact .bind (.modify fun _ same => same) fun _ =>
      .bind (panicWhen_keeps fun _ same => same) fun _ => .modify fun _ same => same
  · exact .bind (.modify fun _ same => same) fun _ => .modify fun _ same => same
  · exact .bind (panicWhen_keeps fun _ same => same) fun _ => .modify fun _ same => same

private theorem failWhen_log (cond : Prop) [Decidable cond] (retval : Nat) :
    KeepsLog log (failWhen cond retval) :=
  .ite (fun _ => .throw fun _ same => same) fun _ => .pure

private theorem checkSegRegs_log (vm : Vm) (segs : List SReg) :
    KeepsLog log (checkSegRegs vm segs) := by
  induction segs with
  | nil => exact .pure
  | cons segno rest inductionHypothesis =>
      exact .bind (failWhen_log log _ _) fun _ => inductionHypothesis

private theorem enterGuest_log : KeepsLog log enterGuest :=
  .bind (.modify fun _ same => same) fun _ => .get_bind fun _ _ =>
    .bind (failWhen_log log _ _) fun _ => .bind (failWhen_log log _ _) fun _ =>
      .bind (checkSegRegs_log log _ _) fun _ => .bind (failWhen_log log _ _) fun _ =>
        .bind (.modify fun _ same => same) fun _ => .modify fun _ same => same

private theorem hostIoctlExecute_log (native : Bool) : KeepsLog log (hostIoctlExecute native) := by
  have refuse : KeepsLog log (ioctlPanic noExecuteVMState : Mon Unit) :=
    .bind (.modify fun _ same => same) fun _ => .throw fun _ same => same
  refine .get_bind fun _ _ => .ite (fun _ => refuse) fun _ => .bind (.modify fun _ same => same)
    fun _ => .ite (fun _ => .modify fun _ same => same) fun _ => ?_
  exact .ite (fun _ => .modify fun _ same => same) fun _ => .ite (fun _ => refuse) fun _ =>
    .bind (failWhen_log log _ _) fun _ => enterGuest_log log

end Log

/-- The trap is no page fault that makes the walk of the guest's tables store
through a window whose page has been unpinned. -/
def Trap.Fresh (trap : Trap) : Prop :=
  ∀ cr2, trap.cause = .fault (.pageFault cr2) →
    ¬ trap.faulted.StaleStore cr2 trap.faulted.faultAccess.1 trap.faulted.faultAccess.2

/-- A page fault is mapped, or given to the guest, by valid accesses only. -/
theorem guestPageFault_watched {vm : Vm} {cr2 : Bit32u} (sound : vm.Sound)
    (apart : vm.setup.WindowsApart)
    (fresh : ¬ vm.StaleStore cr2 vm.faultAccess.1 vm.faultAccess.2) :
    Ensures (· = vm) (guestPageFault cr2) (fun _ => Careful vm) (fun _ => Careful vm) := by
  have mapping : Ensures (· = vm) (mapGuestLinAddr cr2 vm.faultAccess.1 vm.faultAccess.2)
      (fun _ => Careful vm) (fun _ => Careful vm) := by
    rintro now rfl
    cases run : mapGuestLinAddr cr2 now.faultAccess.1 now.faultAccess.2 now with
    | ok result next => exact (mapGuestLinAddr_ok sound run).careful sound apart fresh
    | error stop last => exact mapGuestLinAddr_stops sound apart fresh run
  have rest (error : Bit32u) (result : MapLin) : Watched vm (afterMapping cr2 error result) := by
    cases result with
    | ok ppi => exact .pure
    | exception code =>
        exact .bind (.modify fun _ careful => careful.trans ⟨[], rfl, by simp⟩) fun _ =>
          Watched.of_handler fun _ => doGuestFaultPF_handler _
    | _ => exact .throw fun _ careful => careful
  refine .get_bind ?_
  rintro now rfl
  refine panicWhen_bind (by rintro _ rfl; exact .refl _) fun _ =>
    panicWhen_bind (by rintro _ rfl; exact .refl _) fun _ => ?_
  exact Ensures.bind mapping fun result => rest _ result

/-- Whatever the monitor does about a fault, it does by valid accesses only. -/
theorem MonOp.run_watched {op : MonOp} {vm : Vm} (sound : vm.Sound)
    (apart : vm.setup.WindowsApart) (fresh : ∀ cr2, op = .pageFault cr2 →
      ¬ vm.StaleStore cr2 vm.faultAccess.1 vm.faultAccess.2) :
    Ensures (· = vm) op.run (fun _ => Careful vm) (fun _ => Careful vm) := by
  have plainly {program : Mon Unit} (watched : Watched vm program) :
      Ensures (· = vm) program (fun _ => Careful vm) (fun _ => Careful vm) :=
    Ensures.weaken watched (by rintro _ rfl; exact .refl _) (fun _ _ after => after)
      fun _ _ stopped => stopped
  cases op with
  | pageFault cr2 => exact guestPageFault_watched sound apart (fresh cr2 rfl)
  | invalidate laddr => exact plainly (.of_log fun log => invalidateGuestLinAddr_log log laddr)
  | setCRx crx val32 => exact plainly (.of_log fun log => setCRx_log log crx val32)
  | _ => exact plainly (.of_handler fun _ => MonOp.run_handler rfl)

private theorem enterGuestFault_watched (trap : Trap) :
    Ensures (· = trap.now) (enterGuestFault trap.cycles) (fun _ vm => vm = trap.faulted)
      (fun _ => Careful trap.now) := by
  refine .exactly ?_
  cases run : enterGuestFault trap.cycles trap.now with
  | ok value next => exact (enterGuestFault_ok run).2.2
  | error stop last =>
      exact ((enterGuestFault_handler trap.cycles).stops ⟨.refl _, .refl _⟩ run).2

/-- Whatever the trap, the monitor makes valid accesses only until it resumes the
guest or stops. -/
theorem Trap.serve_careful {trap : Trap} (sound : trap.now.Sound)
    (apart : trap.now.setup.WindowsApart) (fresh : trap.Fresh) :
    Careful trap.now (ends trap.serve trap.now) := by
  have entered := trap.now.entered_handles trap.cycles
  have handled : Ensures (· = trap.now) trap.handle (fun _ => Careful trap.now)
      (fun _ => Careful trap.now) := by
    unfold Trap.handle
    cases cause : trap.cause with
    | fault op =>
        refine Ensures.bind (enterGuestFault_watched trap) fun _ => ?_
        have operated := MonOp.run_watched (sound.settled entered.1)
          (by rw [entered.1.setup]; exact apart) fun cr2 (same : op = _) =>
            fresh cr2 (by rw [cause, same])
        exact Ensures.weaken operated (fun _ same => same) (fun _ _ after => entered.2.trans after)
          fun _ _ stopped => entered.2.trans stopped
    | int visit =>
        refine Ensures.weaken (Watched.of_handler fun _ => handleInt_handler trap.cycles visit)
          ?_ (fun _ _ after => after) fun _ _ stopped => stopped
        rintro _ rfl
        exact .refl _
  exact Ensures.ends (Ensures.bind handled fun _ => Watched.of_handler fun _ => preGuest_handler) rfl

/-- Where a stretch of the monitor's own work ends: user space has entered the
guest for the first time, or the guest has been trapped in a run. -/
inductive Worked (reg : Registration) : Vm → Prop
  | entry {boot : Vm} {native : Bool} (registered : reg.Registered boot) :
      Worked reg (ends (hostIoctlExecute native >>= fun _ => preGuest) boot)
  | trap {past : List (Moment Vm Trap)} {vm : Vm} {trap : Trap} (run : GuestRun reg past vm)
      (older : ∀ moment ∈ past, moment.event.Fresh) (native : Native vm trap.now)
      (fresh : trap.Fresh) : Worked reg (ends trap.serve trap.now)

/-- All accesses made so far were valid. -/
def AllValid (vm : Vm) : Prop := ∀ access ∈ vm.accesses, access.Valid

theorem AllValid.careful {before after : Vm} (valid : AllValid before)
    (careful : Careful before after) : AllValid after := by
  obtain ⟨made, log, good⟩ := careful
  intro access member
  rw [log] at member
  rcases List.mem_append.mp member with new | old
  · exact good access new
  · exact valid access old

/-- Nothing is accessed before the guest is entered. -/
theorem Registration.Registered.entry_valid {reg : Registration} {boot : Vm}
    (registered : reg.Registered boot) (native : Bool) :
    AllValid (ends (hostIoctlExecute native >>= fun _ => preGuest) boot) := by
  have none : boot.accesses = [] := by
    obtain ⟨guestCpu, mem, guestCPL, intr, same⟩ := registered.machine
    rw [same]
    rfl
  have valid : AllValid boot := by simp [AllValid, none]
  have watched : Watched boot (hostIoctlExecute native >>= fun _ => preGuest) :=
    .bind (Watched.of_log fun log => hostIoctlExecute_log log native) fun _ =>
      Watched.of_handler fun _ => preGuest_handler
  exact valid.careful (watched.ends (.refl boot))

private theorem Trap.serve_valid {reg : Registration} {vm : Vm} {trap : Trap}
    (guarded : Guarded reg vm)
    (valid : AllValid vm) (native : Native vm trap.now) (fresh : trap.Fresh) :
    AllValid (ends trap.serve trap.now) := by
  have now := guarded.native native
  have apart : trap.now.setup.WindowsApart := by
    rw [now.setup]
    exact reg.windowsApart
  have begun : AllValid trap.now := by
    rw [AllValid, native.accesses]
    exact valid
  exact begun.careful (Trap.serve_careful now.sound apart fresh)

theorem Started.valid {reg : Registration} {vm : Vm} (started : Started reg vm) : AllValid vm := by
  obtain ⟨boot, native, registered, entered⟩ := started
  rw [← ends_of_ok entered]
  exact registered.entry_valid native

private theorem GuestRun.allValid {reg : Registration} {past : List (Moment Vm Trap)} {vm : Vm}
    (run : GuestRun reg past vm) (fresh : ∀ moment ∈ past, moment.event.Fresh) : AllValid vm := by
  have begins (state : Vm) (started : Started reg state) : Guarded reg state ∧ AllValid state :=
    ⟨started.guarded.1, started.valid⟩
  have steps (before : Vm) (trap : Trap) (after : Vm) (holds : Guarded reg before ∧ AllValid before)
      (step : Step before trap after) (fresh : trap.Fresh) : Guarded reg after ∧ AllValid after := by
    refine ⟨holds.1.step step, ?_⟩
    rw [← ends_of_ok step.2]
    exact Trap.serve_valid holds.1 holds.2 step.1 fresh
  exact (Run.guarded (fun moment => moment.event.Fresh) begins steps run fresh).2

/-- Where no page fault makes the walk store through a window that has lost its
page, every access the monitor makes goes to a pinned page through a window that
shows it. -/
theorem windows_valid {reg : Registration} {vm : Vm} (worked : Worked reg vm) : AllValid vm := by
  cases worked with
  | entry registered => exact registered.entry_valid _
  | trap run older native fresh =>
      exact Trap.serve_valid (GuestRun.guarded run) (GuestRun.allValid run older) native fresh

/-- User code writes to a page of its own. -/
theorem windows_valid_sample : ∃ trap : Trap,
    (ends trap.serve trap.now).accesses ≠ [] ∧ AllValid (ends trap.serve trap.now) := by
  let check (played : List (Moment Vm Trap) × Vm) : Bool :=
    let trap := (Sample.fault 0x8000 6).trap played.2
    played.1.isEmpty && !(ends trap.serve trap.now).accesses.isEmpty && !decide
      (trap.faulted.StaleStore 0x8000 trap.faulted.faultAccess.1 trap.faulted.faultAccess.2)
  have checked : (play (Sample.boot true) []).any check = true := by decide +kernel
  obtain ⟨past, vm, run, found⟩ := play_reaches (Sample.boot_registered true) checked
  simp only [check, Bool.and_eq_true, Bool.not_eq_true', decide_eq_false_iff_not,
    List.isEmpty_eq_false_iff, List.isEmpty_iff] at found
  obtain ⟨⟨first, accessed⟩, proper⟩ := found
  have fresh : ((Sample.fault 0x8000 6).trap vm).Fresh := by
    intro cr2 cause
    cases cause
    exact proper
  refine ⟨_, accessed, windows_valid (.trap run ?_ ((Sample.fault 0x8000 6).native vm) fresh)⟩
  simp [first]

namespace Sample

/-- The directory and the table of a guest that has filled the pin queue. -/
def crowdedMemory (ppi : Bit32u) : Bytes :=
  if ppi = 1 then pageOf fun index => if index = 0 then 0x401007 else 0
  else if ppi = 1025 then pageOf table
  else fun _ => 0

/-- The queue is full: pages 1 to 1024 have been pinned one after another. -/
def crowdedPins : Pins where
  guestPageInfo := fun ppi =>
    { attr := { allocated := true, pinned := decide (1 ≤ ppi ∧ ppi ≤ 1024) }
      hostPPI := (setup.userAddr ppi).extractLsb' 12 20 }
  guestPageInfoHostAdjunct := setup.userAddr
  queue := { nEntries := 1024, tail := 0, ppi := fun slot => BitVec.ofNat 32 (slot + 1) }

/-- User code of an eight megabyte guest, whose page directory is the page pinned
the longest time ago. -/
def crowded : Vm :=
  let machine := { reg with nMegs := 8 }.machine
  { machine with guestCpu := cpu true, mem := crowdedMemory, pins := crowdedPins }.atEntry

def crowdedRecords : List PinRecord :=
  (List.range 1024).map fun slot =>
    ⟨BitVec.ofNat 32 (slot + 1), ⟨setup.userAddr (BitVec.ofNat 32 (slot + 1)),
      (setup.userAddr (BitVec.ofNat 32 (slot + 1))).extractLsb' 12 20⟩⟩

private theorem crowdedPins_live : crowdedPins.live =
    (List.range 1024).map fun slot => BitVec.ofNat 32 (slot + 1) := by
  have full : ¬ (1024 : Nat) < maxPhyPagesPinned := by decide
  simp only [Pins.live, ringList, crowdedPins, full, if_false]
  refine List.map_congr_left fun slot member => ?_
  rw [Nat.zero_add, Nat.mod_eq_of_lt (List.mem_range.mp member)]

private theorem mem_crowdedPins_live (ppi : Bit32u) :
    ppi ∈ crowdedPins.live ↔ 1 ≤ ppi ∧ ppi ≤ 1024 := by
  rw [crowdedPins_live, List.mem_map]
  constructor
  · rintro ⟨slot, member, rfl⟩
    have below := List.mem_range.mp member
    bv_omega
  · rintro ⟨low, high⟩
    refine ⟨ppi.toNat - 1, List.mem_range.mpr (by bv_omega), by bv_omega⟩

private theorem crowdedPins_holds : crowdedPins.Holds crowdedRecords := by
  constructor
  case ring => exact ⟨by decide, fun less => absurd less (by decide), by decide⟩
  case queued =>
    rw [crowdedPins_live, crowdedRecords, List.map_map]
    rfl
  case distinct =>
    rw [crowdedPins_live]
    refine List.Nodup.map_on ?_ List.nodup_range
    intro first low second high same
    have := List.mem_range.mp low
    have := List.mem_range.mp high
    bv_omega
  case pinned_iff =>
    intro ppi
    rw [mem_crowdedPins_live]
    exact decide_eq_true_iff
  case handle =>
    intro record member
    obtain ⟨slot, -, rfl⟩ := List.mem_map.mp member
    rfl
  case frame =>
    intro record member
    obtain ⟨slot, -, rfl⟩ := List.mem_map.mp member
    rfl

end Sample

/-- With a full queue whose oldest page is the page directory, the walk marks the
directory through its window after the page table has been opened, when the host
has unpinned the directory's page. -/
theorem window_stale : (∃ records, Sample.crowded.pins.Holds records) ∧
    Sample.crowded.accesses = [] ∧ ∃ next, guestPageFault 0x8000 Sample.crowded = .ok () next ∧
      ∃ access ∈ next.accesses, ¬ access.Valid := by
  have checked : (leaves (guestPageFault 0x8000) Sample.crowded).any
      (fun next => next.accesses.any fun access => !access.pinned) = true := by decide +kernel
  cases left : leaves (guestPageFault 0x8000) Sample.crowded with
  | none =>
      rw [left] at checked
      exact Bool.noConfusion checked
  | some next =>
      rw [left, Option.any_some, List.any_eq_true] at checked
      obtain ⟨access, member, unpinned⟩ := checked
      refine ⟨⟨_, Sample.crowdedPins_holds⟩, rfl, next, leaves_eq_some.mp left, access, member, ?_⟩
      exact fun valid => by simp [valid.pinned] at unpinned

end Plex86
