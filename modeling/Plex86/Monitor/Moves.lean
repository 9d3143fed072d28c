import Mathlib.Logic.Relation
import Plex86.Emulate.ReturnSpec
import Plex86.Monitor.DeviceFrame
import Plex86.Monitor.TrapSpec

/-! How the guest runs, its ring, flags and segments, and the few ways in which
the monitor changes that between two resumptions. -/

namespace Plex86

open Logic Vm

/-- What decides how the guest runs. -/
structure Running where
  setup : Setup
  guestCPL : BitVec 2
  monCr4 : Bit32u
  eflags : Bit32u
  seg : SReg → Bit32u
  gdt : BitVec 13 → Descriptor

def Vm.running (vm : Vm) : Running where
  setup := vm.setup
  guestCPL := vm.guestCPL
  monCr4 := vm.monCr4
  eflags := vm.context.eflags
  seg := vm.context.seg
  gdt := vm.gdt

def Running.withFlag (running : Running) (mask : Bit32u) (value : Bool) : Running :=
  { running with eflags := EFlags.assign mask value running.eflags }

/-- In Linux mode VIP tells the guest of the INTR line. -/
def Running.withPending (running : Running) (intr : Bit32u) : Running :=
  if running.setup.linuxVMMode then running.withFlag EFlags.maskVIP (intr.getLsbD 0) else running

namespace Running

variable (running : Running)

theorem withPending_linux (linux : running.setup.linuxVMMode = true) (intr : Bit32u) :
    running.withPending intr = running.withFlag EFlags.maskVIP (intr.getLsbD 0) :=
  if_pos linux

private theorem withPending_normal (normal : ¬ running.setup.linuxVMMode = true) (intr : Bit32u) :
    running.withPending intr = running :=
  if_neg normal

end Running

theorem Vm.running_of_core {next after : Vm} (seen : next.core = after) :
    next.running = after.running := by
  rw [← seen]
  rfl

@[simp] theorem Vm.stored_running (vm : Vm) (lAddr val : Bit32u) :
    (vm.stored lAddr val).running = vm.running := rfl

/-- The stack pointer does not count. -/
@[simp] theorem Vm.esp_running (vm : Vm) (esp : Bit32u) :
    Vm.running { vm with context := { vm.context with esp } } = vm.running := rfl

@[simp] theorem Vm.framePushed_running (vm : Vm) (fromCPL : BitVec 2)
    (eflags intFlags errorCode : Bit32u) :
    (vm.framePushed fromCPL eflags intFlags errorCode).running = vm.running := by
  unfold framePushed
  split <;> simp only [stored_running, errorRoom, esp_running, eipPushed, csPushed, flagsPushed]

theorem Vm.SameCpu.running {before after : Vm} (same : SameCpu before after) :
    after.running = before.running := by
  simp only [Vm.running, same.setup, same.guestCPL, same.monCr4, same.context, same.gdt]

/-- One thing that the monitor does to the way the guest runs. -/
inductive Move (vm next : Vm) : Prop
  | steady (same : next.running = vm.running)
  | pending (value : Bool) (reached : next.running = vm.running.withFlag EFlags.maskVIP value)
  | interrupt {vector intFlags errorCode : Bit32u}
      (able : vm.core.InterruptOK vector intFlags errorCode)
      (reached : next.running = (vm.core.interrupted vector intFlags errorCode).running)
  | sti {begun : Vm} {vector : Bit32u} (raised : begun.running = vm.running.withFlag EFlags.maskVIF true)
      (able : begun.core.InterruptOK vector 0 0)
      (reached : next.running = (begun.core.interrupted vector 0 0).running)
  | iret (able : vm.core.IretOK) (reached : next.running = vm.core.iretDone.running)
  | load {sreg : SReg} {selector : Selector} (able : vm.core.LoadOK sreg selector)
      (reached : next.running = (vm.core.segmentLoaded sreg selector).running)

abbrev Moves : Vm → Vm → Prop := Relation.ReflTransGen Move

/-- The program leaves alone how the guest runs. -/
abbrev Steady {α : Type} (now : Running) (program : Mon α) : Prop :=
  Keeps (fun vm => vm.running = now) (fun _ _ => True) program

section Steady

variable {now : Running}

private theorem panicWhen_steady {cond : Prop} [Decidable cond] {format : String}
    {args : List Bit32u} :
    Steady now (panicWhen cond format args) :=
  panicWhen_keeps fun _ _ => trivial

private theorem accessor_steady {α : Type} {program : Mon α}
    (accessor : ∀ start, Accessor start program) :
    Steady now program := by
  intro vm here
  cases run : program vm with
  | ok value next =>
      have same := (accessor_ok accessor run).1.cpu
      exact same.running.trans here
  | error stop last => trivial

private theorem picIAC_steady : Steady now picIAC :=
  DevicesOnly.keeps (fun _ => picIAC_devices) (fun _ => rfl) now

private theorem preGuestClock_steady : Steady now preGuestClock :=
  DevicesOnly.keeps (fun _ => preGuestClock_devices) (fun _ => rfl) now

private theorem preGuestHal_steady : Steady now preGuestHal :=
  DevicesOnly.keeps (fun _ => preGuestHal_devices) (fun _ => rfl) now

private theorem Access.run_steady (request : Access) : Steady now request.run := by
  cases request with
  | translate lAddr =>
      exact .bind (accessor_steady fun start => translateLinToPhy_accessor start _) fun _ => .pure
  | object lAddr len small =>
      exact .bind (accessor_steady fun start => getObjectLAddr_accessor start _ _ small)
        fun _ => .pure
  | dword lAddr =>
      exact .bind (accessor_steady fun start => getGuestDWord_accessor start _) fun _ => .pure
  | word lAddr =>
      exact .bind (accessor_steady fun start => getGuestWord_accessor start _) fun _ => .pure
  | writeDWord lAddr val =>
      exact accessor_steady fun start => writeGuestDWord_accessor start _ _
  | descByLAddr laddr =>
      exact .bind (accessor_steady fun start => fetchGuestDescByLAddr_accessor start _)
        fun _ => .pure
  | descBySel sel updateBusyBit =>
      exact .bind (accessor_steady fun start => fetchGuestDescBySel_accessor start _ _)
        fun _ => .pure

private theorem setCRx_steady (crx val32 : Bit32u) : Steady now (setCRx crx val32) :=
  .bind (.modify fun _ here => here) fun _ => .ite
    (fun _ => .bind (.modify fun _ here => here) fun _ => .bind panicWhen_steady fun _ =>
      .modify fun _ here => here) fun _ => .ite
    (fun _ => .bind (.modify fun _ here => here) fun _ => .modify fun _ here => here) fun _ => .ite
    (fun _ => .bind panicWhen_steady fun _ => .modify fun _ here => here)
    fun _ => .throw fun _ _ => trivial

end Steady

theorem Moves.steady {vm next : Vm} (same : next.running = vm.running) : Moves vm next :=
  .single (.steady same)

private theorem Moves.of_steady {α : Type} {program : Mon α} {vm next : Vm} {value : α}
    (steady : ∀ now, Steady now program) (run : program vm = .ok value next) : Moves vm next :=
  .steady ((steady vm.running).returns rfl run)

private theorem doGuestInterrupt_move {vector intFlags errorCode : Bit32u} {vm next : Vm}
    (run : doGuestInterrupt vector intFlags errorCode vm = .ok () next) : Move vm next := by
  obtain ⟨able, -, seen⟩ := (doGuestInterrupt_does vector intFlags errorCode vm.core).ok run
  exact .interrupt able (running_of_core seen)

private theorem emulateSTI_move {iLen : Bit32u} {vm next : Vm}
    (run : emulateSTI iLen vm = .ok () next) : Move vm next := by
  simp only [emulateSTI, modify_bind_apply, get_bind_apply, panicWhen_bind_apply] at run
  split at run
  · cases run
  obtain ⟨vector, begun, acknowledged, entered⟩ := bind_ok.mp run
  have raised := picIAC_steady.returns rfl acknowledged
  obtain ⟨able, -, seen⟩ := (doGuestInterrupt_does vector 0 0 begun.core).ok entered
  exact .sti raised able (running_of_core seen)

private theorem doIRET_move {vm next : Vm} (run : doIRET vm = .ok () next) : Move vm next := by
  obtain ⟨able, -, seen⟩ := (doIRET_does vm.core).ok run
  exact .iret able (running_of_core seen)

private theorem loadGuestSegment_move {sreg : SReg} {selector : Selector} {vm next : Vm}
    (run : loadGuestSegment sreg selector vm = .ok () next) : Move vm next := by
  obtain ⟨able, -, seen⟩ := (loadGuestSegment_does sreg selector vm.core).ok run
  exact .load able (running_of_core seen)

/-- User space changes nothing of how the guest runs. -/
theorem visitUser_moves {request : MonReq} {visit : UserVisit} {vm next : Vm}
    (way : request = .halCall ∨ request.resumes = true)
    (run : visitUser request visit vm = .ok () next) : Moves vm next := by
  simp only [visitUser, modify_bind_apply] at run
  obtain ⟨context, rfl, same⟩ := hostIoctlExecute_resumes_ok way run
  refine .steady ?_
  rcases same with rfl | rfl <;> rfl

private theorem guestPageFault_moves {cr2 : Bit32u} {vm next : Vm} (sound : vm.Sound)
    (run : guestPageFault cr2 vm = .ok () next) : Moves vm next := by
  cases guestPageFault_ok run with
  | mapped mapping =>
      exact .steady ((mapGuestLinAddr_ok sound mapping).mapped sound).cpu.running
  | @reflected code walked next refused fault =>
      obtain ⟨-, same, -⟩ := mapGuestLinAddr_exception refused
      rw [doGuestFaultPF, get_bind_apply] at fault
      have noted : Vm.running { walked with guestCpu := { walked.guestCpu with cr2 } } =
          vm.running := same.running
      exact .head (.steady noted) (.single (doGuestInterrupt_move fault))

private theorem invalidateGuestLinAddr_moves {laddr : Bit32u} {vm next : Vm} (sound : vm.Sound)
    (run : invalidateGuestLinAddr laddr vm = .ok () next) : Moves vm next := by
  exact .steady (invalidateGuestLinAddr_ok sound run).cpu.running

/-- What the monitor does about a fault. -/
theorem MonOp.run_moves {op : MonOp} {vm next : Vm} (sound : vm.Sound)
    (run : op.run vm = .ok () next) : Moves vm next := by
  cases op with
  | pageFault cr2 => exact guestPageFault_moves sound run
  | invalidate laddr => exact invalidateGuestLinAddr_moves sound run
  | setCRx crx val32 => exact .of_steady (fun _ => setCRx_steady _ _) run
  | interrupt vector intFlags errorCode => exact .single (doGuestInterrupt_move run)
  | iret visit =>
      obtain ⟨_, middle, returned, visited⟩ := bind_ok.mp run
      exact .head (doIRET_move returned) (visitUser_moves (.inr rfl) visited)
  | loadSegment sreg selector => exact .single (loadGuestSegment_move run)
  | sti iLen => exact .single (emulateSTI_move run)
  | halCall visit => exact visitUser_moves (.inl rfl) run
  | access request => exact .of_steady (fun _ => request.run_steady) run
  | pin ppi =>
      exact .of_steady (fun _ => .bind
        (accessor_steady fun start => getHostOSPinnedPage_accessor start ppi) fun _ => .pure) run
  | other =>
      cases run
      exact .refl

/-- The handling of a trap. -/
theorem Trap.handle_moves {trap : Trap} {next : Vm} (sound : trap.now.Sound)
    (run : trap.handle trap.now = .ok () next) : Moves trap.now next := by
  cases cause : trap.cause with
  | fault op =>
      rw [Trap.handle, cause] at run
      obtain ⟨_, entered, enter, operated⟩ := bind_ok.mp run
      obtain ⟨-, -, rfl⟩ := enterGuestFault_ok enter
      have soundEntered := sound.settled (trap.now.entered_handles trap.cycles).1
      exact .head (.pending false rfl) (MonOp.run_moves soundEntered operated)
  | int visit =>
      rw [Trap.handle, cause] at run
      cases visit with
      | none =>
          cases run
          exact .single (.pending false rfl)
      | some visit =>
          obtain ⟨_, noted, note, visited⟩ := bind_ok.mp run
          cases note
          exact .head (.pending false rfl) (visitUser_moves (.inr rfl) visited)

private theorem acceptInterrupt_moves {vm next : Vm} (run : acceptInterrupt vm = .ok () next) :
    Moves vm next := by
  rw [acceptInterrupt, get_bind_apply, Logic.ite_apply] at run
  split at run
  · obtain ⟨vector, acknowledged, iac, entered⟩ := bind_ok.mp run
    exact (Moves.of_steady (fun _ => picIAC_steady) iac).tail (doGuestInterrupt_move entered)
  · cases run
    exact .refl

/-- The guest is resumed the way the moves have led to, with the INTR line in VIP. -/
structure Resumes (vm middle next : Vm) : Prop where
  moves : Moves vm middle
  reached : next.running = middle.running.withPending next.intr

theorem preGuest_resumes {vm next : Vm} (run : preGuest vm = .ok () next) :
    ∃ middle, Resumes vm middle next := by
  obtain ⟨_, clocked, clock, run⟩ := bind_ok.mp run
  obtain ⟨_, called, hal, run⟩ := bind_ok.mp run
  obtain ⟨_, last, delivered, run⟩ := bind_ok.mp run
  have same : last = next := by
    rw [get_bind_apply, Logic.ite_apply] at run
    split at run
    · cases run
    · cases run
      rfl
  subst same
  have begun : Moves vm called := (Moves.of_steady (fun _ => preGuestClock_steady) clock).trans
    (Moves.of_steady (fun _ => preGuestHal_steady) hal)
  rw [preGuestInterrupt, get_bind_apply, Logic.ite_apply] at delivered
  split at delivered
  · next linux =>
      obtain ⟨_, accepted, accept, pending⟩ := bind_ok.mp delivered
      cases pending
      have still : accepted.setup.linuxVMMode = true := by
        rw [(handler_pages (fun _ => acceptInterrupt_handler) accept).setup]
        exact linux
      refine ⟨accepted, begun.trans (acceptInterrupt_moves accept), ?_⟩
      exact (accepted.running.withPending_linux still _).symm
  · next normal =>
      cases delivered
      exact ⟨called, begun, (called.running.withPending_normal normal _).symm⟩

/-- What happens between two resumptions to the way the guest runs. -/
theorem Trap.serve_resumes {trap : Trap} {next : Vm} (sound : trap.now.Sound)
    (run : trap.serve trap.now = .ok () next) : ∃ middle, Resumes trap.now middle next := by
  obtain ⟨_, handled, handle, resumed⟩ := bind_ok.mp run
  obtain ⟨middle, resumes⟩ := preGuest_resumes resumed
  exact ⟨middle, (Trap.handle_moves sound handle).trans resumes.moves, resumes.reached⟩

end Plex86
