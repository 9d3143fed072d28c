import Plex86.Emulate.ControlSpec
import Plex86.Monitor.Fault
import Plex86.Paging.FaultMapping

namespace Plex86

open Logic Vm

section Handlers

variable {start : Vm}

private theorem preGuestClock_handler : Handler start preGuestClock :=
  .bind (modify_handler fun _ => rfl) fun _ => .get_bind fun _ _ => .ite
    (fun _ => .bind (modify_handler fun _ => rfl) fun _ => pitExpireClocks_handler _) fun _ => .pure

private theorem preGuestHal_handler : Handler start preGuestHal :=
  .get_bind fun _ _ => .ite (fun _ => .bind (modify_handler fun _ => rfl) fun _ =>
    .bind (panicWhen_handler rfl) fun _ => picIrq_handler _) fun _ => .pure

theorem acceptInterrupt_handler : Handler start acceptInterrupt :=
  .get_bind fun _ _ => .ite (fun _ => .bind picIAC_handler fun _ =>
    doGuestInterrupt_handler _ _ _) fun _ => .pure

private theorem preGuestInterrupt_handler : Handler start preGuestInterrupt :=
  .get_bind fun _ _ => .ite
    (fun _ => .bind acceptInterrupt_handler fun _ => modify_handler fun _ => rfl)
    fun _ => .pure

/-- Resuming the guest reaches into its memory through fresh windows only. -/
theorem preGuest_handler : Handler start preGuest :=
  .bind preGuestClock_handler fun _ => .bind preGuestHal_handler fun _ =>
    .bind preGuestInterrupt_handler fun _ => .get_bind fun _ _ =>
      .ite (fun _ => .throw fun _ handled => ⟨rfl, handled.2⟩) fun _ => .pure

theorem doGuestFaultPF_handler (errorCode : Bit32u) : Handler start (doGuestFaultPF errorCode) :=
  .get_bind fun _ _ => doGuestInterrupt_handler _ _ _

end Handlers

/-- The machine once the monitor has taken over from the guest. -/
def Vm.entered (vm : Vm) (cycles : BitVec 64) : Vm :=
  { vm with
    cyclesElapsed := vm.cyclesElapsed + cycles
    context := { vm.context with
      eflags := EFlags.assign EFlags.maskVIP false vm.context.eflags } }

theorem enterGuestFault_apply (cycles : BitVec 64) (vm : Vm) :
    enterGuestFault cycles vm =
      if EFlags.if_ vm.context.eflags = false then
        .error (.monpanic "handleGuestFault: guest IF=0.\n" [])
          { vm with cyclesElapsed := vm.cyclesElapsed + cycles }
      else if EFlags.vm vm.context.eflags = true then
        .error (.monpanic "handleGuestFault: eflags.VM=1.\n" [])
          { vm with cyclesElapsed := vm.cyclesElapsed + cycles }
      else .ok () (vm.entered cycles) := by
  simp only [enterGuestFault, modify_bind_apply, get_bind_apply, panicWhen_bind_apply,
    modify_apply, Vm.entered]

theorem enterGuestFault_ok {cycles : BitVec 64} {vm next : Vm} {value : Unit}
    (run : enterGuestFault cycles vm = .ok value next) :
    EFlags.if_ vm.context.eflags = true ∧ EFlags.vm vm.context.eflags = false ∧
      next = vm.entered cycles := by
  rw [enterGuestFault_apply] at run
  split at run
  · cases run
  split at run
  · cases run
  next on plain =>
    cases run
    exact ⟨by simpa using on, by simpa using plain, rfl⟩

theorem Vm.entered_handles (vm : Vm) (cycles : BitVec 64) : Handles vm (vm.entered cycles) :=
  ⟨.same rfl rfl rfl rfl rfl rfl rfl, [], rfl, by simp⟩

/-- The access that a page fault was raised for, as the monitor reads it off
the error code: by user code, for writing. -/
def Vm.faultAccess (vm : Vm) : Bool × Bool :=
  (decide (vm.guestCPL = 3), vm.context.error.getLsbD 1)

/-- What a page fault came to. -/
inductive PageFaultSpec (cr2 : Bit32u) (vm : Vm) : Vm → Prop
  | mapped {ppi : Bit32u} {next : Vm}
      (run : mapGuestLinAddr cr2 vm.faultAccess.1 vm.faultAccess.2 vm = .ok (.ok ppi) next) :
      PageFaultSpec cr2 vm next
  | reflected {code : Bit32u} {walked next : Vm}
      (run : mapGuestLinAddr cr2 vm.faultAccess.1 vm.faultAccess.2 vm =
        .ok (.exception code) walked)
      (fault : doGuestFaultPF vm.context.error
        { walked with guestCpu := { walked.guestCpu with cr2 } } = .ok () next) :
      PageFaultSpec cr2 vm next

theorem guestPageFault_ok {cr2 : Bit32u} {vm next : Vm}
    (run : guestPageFault cr2 vm = .ok () next) : PageFaultSpec cr2 vm next := by
  simp only [guestPageFault, get_bind_apply, panicWhen_bind_apply] at run
  split at run
  · cases run
  split at run
  · cases run
  obtain ⟨result, walked, mapping, rest⟩ := bind_ok.mp run
  cases result with
  | ok ppi =>
      cases rest
      exact .mapped mapping
  | monConflict => cases rest
  | alreadyMapped => cases rest
  | pPageOOB => cases rest
  | emulate => cases rest
  | exception code =>
      rw [afterMapping, modify_bind_apply] at rest
      exact .reflected mapping rest

/-- A fault given to the guest has only reached into its memory. -/
theorem PageFaultSpec.handles {cr2 : Bit32u} {vm walked next : Vm} (sound : vm.Sound)
    {code : Bit32u} (run : mapGuestLinAddr cr2 vm.faultAccess.1 vm.faultAccess.2 vm =
      .ok (.exception code) walked)
    (fault : doGuestFaultPF vm.context.error
      { walked with guestCpu := { walked.guestCpu with cr2 } } = .ok () next) :
    Handles vm next := by
  have spec := mapGuestLinAddr_ok sound run
  cases spec with
  | refused settled careful denied =>
      have begun : Handles vm { walked with guestCpu := { walked.guestCpu with cr2 } } :=
        ⟨settled.pages.trans (.same rfl rfl rfl rfl rfl rfl rfl), careful.trans ⟨[], rfl, by simp⟩⟩
      exact (doGuestFaultPF_handler _).returns begun fault
  | entered walk entering answer => exact (answer code rfl).elim

end Plex86
