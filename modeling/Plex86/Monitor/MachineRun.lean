import Plex86.Monitor.Confinement
import Plex86.Monitor.FlagsRun
import Plex86.Monitor.HandlerSteps
import Plex86.Monitor.SegmentsRun

/-! The machine as it runs: the guest faults with a vector, and the monitor fetches,
decodes and emulates what is there. What holds over the runs of the monitor's
operations holds over these. -/

namespace Plex86

open Logic Vm

/-- What ended a stretch of native execution: a fault, whose vector is in the context, or
an interrupt for the host. -/
inductive Departure
  | fault (surroundings : Surroundings) (cr2 : Bit32u)
  | int (visit : Option UserVisit)

/-- A stretch of native execution: the machine that the guest has left, and why. -/
structure Exit where
  now : Vm
  cycles : BitVec 64
  departure : Departure

namespace Exit

/-- The handling, up to the resumption of the guest. -/
def handle (exit : Exit) : Emu Unit :=
  match exit.departure with
  | .fault surroundings cr2 => handleGuestFault surroundings exit.cycles cr2
  | .int visit => onVm (handleInt exit.cycles visit)

def serve (exit : Exit) : Emu Unit := do
  exit.handle
  onVm preGuest

end Exit

/-- From one resumption of the guest to the next. -/
def MachineStep (machine : Machine) (exit : Exit) (next : Machine) : Prop :=
  Native machine.vm exit.now ∧ exit.serve { machine with vm := exit.now } = .ok () next

/-- The runs of the machine; the states reached are those the guest is resumed in. -/
abbrev MachineRun (reg : Registration) (past : List (Moment Machine Exit)) (machine : Machine) :
    Prop :=
  Run (fun machine => Started reg machine.vm) MachineStep past machine

theorem onVm_returns {Value : Type} {program : Mon Value} {machine next : Machine} {value : Value}
    (run : onVm program machine = .ok value next) : program machine.vm = .ok value next.vm := by
  rw [onVm] at run
  cases result : program machine.vm with
  | ok given vm =>
      rw [result] at run
      cases run
      rfl
  | error stop last =>
      rw [result] at run
      cases run

private theorem handleGuestFault_steps {surroundings : Surroundings} {cycles : BitVec 64}
    {cr2 : Bit32u}
    {machine next : Machine} (run : handleGuestFault surroundings cycles cr2 machine = .ok () next) :
    enterGuestFault cycles machine.vm = .ok () (machine.vm.entered cycles) ∧
      Deeds (machine.vm.entered cycles) next.vm := by
  obtain ⟨_, begun, enter, dispatched⟩ := bind_ok.mp run
  have entered := onVm_returns enter
  obtain ⟨-, -, same⟩ := enterGuestFault_ok entered
  rw [same] at entered
  rw [get_bind_apply] at dispatched
  refine ⟨entered, ?_⟩
  rw [← same]
  exact (Acts.dispatchFault surroundings cr2 begun.vm.context.vector).returns .refl dispatched

section Invariants

variable {reg : Registration} {vm next : Vm}

/-- Every entry of the shadow tables leads to a pinned page of the guest's memory. -/
def Vm.Rooted (vm : Vm) : Prop := ∀ entry, vm.Shows entry → ∃ page, vm.LeadsTo entry page

/-- The monitor's structures are in order, and lead the guest nowhere else. -/
structure Sheltered (reg : Registration) (vm : Vm) : Prop where
  guarded : Guarded reg vm
  rooted : vm.Rooted

namespace Sheltered

theorem undisturbed (sheltered : Sheltered reg vm) (guarded : Guarded reg next)
    (kept : ∀ entry, next.Shows entry → vm.Shows entry ∧ Undisturbed vm next) :
    Sheltered reg next where
  guarded := guarded
  rooted entry shows := by
    obtain ⟨old, undisturbed⟩ := kept entry shows
    exact (sheltered.rooted entry old).imp fun _ leads => undisturbed.leadsTo leads

theorem native (sheltered : Sheltered reg vm) (native : Native vm next) : Sheltered reg next := by
  refine sheltered.undisturbed (sheltered.guarded.native native) fun entry shows =>
    ⟨?_, .ofNative native⟩
  rw [Shows, Live, ← native.setup, ← native.shadow]
  exact shows

theorem entered (sheltered : Sheltered reg vm) (cycles : BitVec 64) :
    Sheltered reg (vm.entered cycles) :=
  sheltered.undisturbed (sheltered.guarded.entered cycles) fun _ shows =>
    ⟨shows, .ofEntered vm cycles⟩

theorem settled (sheltered : Sheltered reg vm) (settled : PagesSettled vm next) :
    Sheltered reg next :=
  sheltered.undisturbed (sheltered.guarded.settled settled) fun _ shows =>
    have kept := settled.live shows
    ⟨kept.1, .ofPages settled kept.2⟩

/-- A page fault that is served adds at most the entry it was about. -/
theorem mapped {laddr ppi : Bit32u} {reqRw : Bool} (sheltered : Sheltered reg vm)
    (mapped : Mapped vm laddr (decide (vm.guestCPL = 3)) reqRw ppi next) : Sheltered reg next where
  guarded := sheltered.guarded.mapped mapped
  rooted entry shows := by
    rcases mapped.traced _ _ _ _ shows with ⟨old, quiet⟩ | ⟨-, -, given⟩
    · have leads := sheltered.rooted entry old
      exact leads.imp fun _ leads => (Undisturbed.ofMapped mapped quiet).leadsTo leads
    · exact ⟨_, mapped.leadsTo given sheltered.guarded.apart⟩

theorem operated {op : MonOp} (sheltered : Sheltered reg vm) (run : op.run vm = .ok () next) :
    Sheltered reg next := by
  by_cases plain : op.plain = true
  · exact sheltered.settled (handler_pages (fun _ => MonOp.run_handler plain) run)
  have sound := sheltered.guarded.sound
  cases op with
  | pageFault cr2 =>
      rcases guestPageFault_ok run with mapping | ⟨walk, fault⟩
      · exact sheltered.mapped ((mapGuestLinAddr_ok sound mapping).mapped sound)
      · exact sheltered.settled (PageFaultSpec.handles sound walk fault).1
  | invalidate laddr =>
      have dropped := invalidateGuestLinAddr_ok sound run
      exact sheltered.undisturbed (sheltered.guarded.dropped dropped) fun _ shows =>
        ⟨(dropped.fewer _ _ _ _ shows).1, .ofDropped dropped⟩
  | setCRx crx val32 =>
      have emptied := setCRx_ok run
      exact ⟨sheltered.guarded.emptied emptied, fun _ shows => (emptied.live_false shows).elim⟩
  | _ => exact (plain rfl).elim

end Sheltered

/-- What holds of a Linux guest whatever the monitor is in the middle of. -/
structure Contained (reg : Registration) (vm : Vm) : Prop where
  sheltered : Sheltered reg vm
  coherent : vm.running.Coherent
  spared : ∀ slot, ¬ GuestSlot slot → vm.gdt slot = reg.monitorGdt slot

namespace Contained

theorem linux (contained : Contained reg vm) (mode : reg.linuxVMMode = true) :
    vm.setup.linuxVMMode = true := by
  rw [contained.sheltered.guarded.setup]
  exact mode

theorem native (contained : Contained reg vm) (native : Native vm next) : Contained reg next where
  sheltered := contained.sheltered.native native
  coherent := native.coherent contained.coherent
  spared slot own := (congrFun native.gdt slot).trans (contained.spared slot own)

theorem moved (contained : Contained reg vm) (mode : reg.linuxVMMode = true)
    (sheltered : Sheltered reg next) (moves : Moves vm next) : Contained reg next where
  sheltered := sheltered
  coherent := (moves.coherent (contained.linux mode) contained.coherent).2
  spared slot own := (moves.segmentStep.spared slot own).trans (contained.spared slot own)

theorem entered (contained : Contained reg vm) (mode : reg.linuxVMMode = true)
    (cycles : BitVec 64) : Contained reg (vm.entered cycles) :=
  contained.moved mode (contained.sheltered.entered cycles) (.single (.pending false rfl))

private theorem deed (contained : Contained reg vm) (mode : reg.linuxVMMode = true)
    (deed : Deed vm next) :
    Contained reg next := by
  cases deed with
  | op op run =>
      exact contained.moved mode (contained.sheltered.operated run)
        (MonOp.run_moves contained.sheltered.guarded.sound run)
  | registers native => exact contained.native native

theorem deeds (contained : Contained reg vm) (mode : reg.linuxVMMode = true)
    (deeds : Deeds vm next) : Contained reg next := by
  induction deeds with
  | refl => exact contained
  | tail _ deed inductionHypothesis => exact inductionHypothesis.deed mode deed

/-- The handling of an interrupt for the host. -/
theorem interrupted (contained : Contained reg vm) (mode : reg.linuxVMMode = true)
    {cycles : BitVec 64} {visit : Option UserVisit}
    (run : handleInt cycles visit vm = .ok () next) : Contained reg next := by
  have sound := contained.sheltered.guarded.sound
  have pages := handler_pages (fun _ => handleInt_handler cycles visit) run
  exact contained.moved mode (contained.sheltered.settled pages)
    (@Trap.handle_moves ⟨vm, cycles, .int visit⟩ next sound run)

end Contained

/-- What holds of a Linux guest when it is resumed. -/
structure Resumable (reg : Registration) (vm : Vm) : Prop where
  sheltered : Sheltered reg vm
  flags : FlagsCoherent vm
  spared : ∀ slot, ¬ GuestSlot slot → vm.gdt slot = reg.monitorGdt slot

private theorem Resumable.contained (resumable : Resumable reg vm) : Contained reg vm :=
  ⟨resumable.sheltered, resumable.flags.running, resumable.spared⟩

theorem Contained.resumed (contained : Contained reg vm) (mode : reg.linuxVMMode = true)
    (run : preGuest vm = .ok () next) : Resumable reg next := by
  obtain ⟨middle, resumes⟩ := preGuest_resumes run
  refine ⟨contained.sheltered.settled (handler_pages (fun _ => preGuest_handler) run), ?_, ?_⟩
  · exact resumes.coherent (contained.linux mode) contained.coherent
  · exact fun slot own =>
      (resumes.segmentStep.spared slot own).trans (contained.spared slot own)

private theorem Started.resumable (started : Started reg vm) (mode : reg.linuxVMMode = true) :
    Resumable reg vm := by
  have sheltered : Sheltered reg vm :=
    ⟨started.guarded.1, fun entry shows => (started.guarded.2 _ _ _ _ shows).elim⟩
  obtain ⟨boot, entry, resumed⟩ := started.entered
  obtain ⟨middle, resumes⟩ := preGuest_resumes resumed
  have linux : boot.setup.linuxVMMode = true := by
    rw [entry.registered.same.1]
    exact mode
  refine ⟨sheltered, resumes.coherent linux (entry.coherent linux), fun slot own => ?_⟩
  have segs : GoodSegs boot.setup.linuxVMMode boot.guestCpu := entry.segs
  calc vm.gdt slot
      = installDescriptors boot.guestCpu (boot.guestCpu.sreg .cs).des.dpl boot.gdt slot :=
        resumes.segmentStep.spared slot own
    _ = boot.gdt slot := segs.spares _ _ own
    _ = reg.monitorGdt slot := congrFun entry.registered.gdt slot

private theorem MachineStep.resumable {machine later : Machine} {exit : Exit}
    (resumable : Resumable reg machine.vm) (mode : reg.linuxVMMode = true)
    (step : MachineStep machine exit later) : Resumable reg later.vm := by
  obtain ⟨native, served⟩ := step
  obtain ⟨_, handled, handle, resumed⟩ := bind_ok.mp served
  have left : Contained reg exit.now := resumable.contained.native native
  refine Contained.resumed ?_ mode (onVm_returns resumed)
  cases departure : exit.departure with
  | fault surroundings cr2 =>
      rw [Exit.handle, departure] at handle
      exact (left.entered mode exit.cycles).deeds mode (handleGuestFault_steps handle).2
  | int visit =>
      rw [Exit.handle, departure] at handle
      exact left.interrupted mode (onVm_returns handle)

variable {past : List (Moment Machine Exit)} {machine : Machine}

private theorem MachineRun.resumable (run : MachineRun reg past machine)
    (mode : reg.linuxVMMode = true) :
    Resumable reg machine.vm := by
  induction run with
  | start started => exact Started.resumable started mode
  | next _ step inductionHypothesis => exact step.resumable inductionHypothesis mode

theorem MachineRun.valid (run : MachineRun reg past machine) : reg.Valid := by
  induction run with
  | start started =>
      obtain ⟨boot, entry, -⟩ := started.entered
      exact entry.registered.valid
  | next _ _ inductionHypothesis => exact inductionHypothesis

/-- What the guest can get at when it is resumed. -/
structure WithinBounds (reg : Registration) (vm : Vm) : Prop where
  flags : FlagsCoherent vm
  spared : ∀ slot, ¬ GuestSlot slot → vm.gdt slot = reg.monitorGdt slot
  reached : ∀ laddr pte, vm.UserReaches laddr pte → ∃ page,
    vm.LeadsTo ⟨pdiOf laddr, ptiOf laddr, vm.shadow.pageDir (pdiOf laddr), pte⟩ page

/-- In every run of the machine, whatever the guest faults with and whatever is emulated
for it, a Linux guest is resumed with its flags and its privilege level going together, the
monitor's descriptors untouched, and no way in ring 3 to anything but its own pinned pages. -/
theorem machine_contained (run : MachineRun reg past machine) (mode : reg.linuxVMMode = true) :
    WithinBounds reg machine.vm := by
  obtain ⟨⟨guarded, rooted⟩, flags, spared⟩ := MachineRun.resumable run mode
  refine ⟨flags, spared, fun laddr pte reaches => ?_⟩
  obtain ⟨live, -, -⟩ := (guarded.userReaches_iff (MachineRun.valid run)).mp reaches
  exact rooted _ live

end Invariants

namespace Sample

/-- IRET in the kernel, and INT 0x80 in the user code that it returns to. -/
def code (ppi : Bit32u) : Bytes :=
  if ppi = 7 then fun offset => if offset = 0 then 0xcf else 0
  else if ppi = 8 then fun offset => if offset = 0 then 0xcd else if offset = 1 then 0x80 else 0
  else if ppi = 3 then pageOf fun index => if index % 2 = 0 then 0x00107000 else 0x0000ee00
  else memory ppi

def coded : Vm := { boot false with mem := code }

private theorem coded_registered : reg.Registered coded :=
  ⟨reg_valid, cpu false, code, 0, 0, rfl⟩

def outside : Surroundings := ⟨{ visit with mem := code }, 0⟩

/-- The guest faults with a vector where it is. -/
def trapped (machine : Machine) (vector : Bit32u) : Exit where
  now := { machine.vm with context := { machine.vm.context with vector } }
  cycles := 0
  departure := .fault outside 0

def serve (vector : Bit32u) (machine : Machine) : Option Machine :=
  leaves (trapped machine vector).serve { machine with vm := (trapped machine vector).now }

private theorem serve_step {machine next : Machine} {vector : Bit32u}
    (served : serve vector machine = some next) :
    MachineStep machine (trapped machine vector) next :=
  ⟨.of_context rfl, leaves_eq_some.mp served⟩

def entered : Option Machine :=
  (leaves (hostIoctlExecute true >>= fun _ => preGuest) coded).map fun vm => { vm }

private theorem entered_run {machine : Machine} (left : entered = some machine) :
    MachineRun reg [] machine := by
  obtain ⟨vm, run, rfl⟩ := Option.map_eq_some_iff.mp left
  exact .start ⟨coded, true, coded_registered, leaves_eq_some.mp run⟩

end Sample

open Sample in
/-- The kernel returns to user code, which calls the kernel with INT. -/
theorem machine_contained_sample : ∃ past machine, MachineRun Sample.reg past machine ∧
    past.length = 2 ∧ machine.vm.guestCPL = 0 ∧ WithinBounds Sample.reg machine.vm := by
  have checked : ((entered.bind (serve exceptionGP)).bind (serve exceptionGP)).any
      (fun machine => decide (machine.vm.guestCPL = 0)) = true := by decide +kernel
  obtain ⟨machine, reached, kernel⟩ := (Option.any_eq_true _ _).mp checked
  obtain ⟨user, first, second⟩ := Option.bind_eq_some_iff.mp reached
  obtain ⟨begun, left, returned⟩ := Option.bind_eq_some_iff.mp first
  have run : MachineRun reg _ machine :=
    .next (.next (entered_run left) (serve_step returned)) (serve_step second)
  exact ⟨_, machine, run, rfl, of_decide_eq_true kernel, machine_contained run rfl⟩

end Plex86
