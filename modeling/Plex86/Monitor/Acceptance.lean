import Plex86.Emulate.PicRun
import Plex86.Monitor.InterruptReturn

namespace Plex86

open Logic Vm

/-- `preGuest` is called, for the first time or after a trap. -/
inductive EntersPreGuest (reg : Registration) (vm : Vm) : Prop
  | first {boot : Vm} {native : Bool} (registered : reg.Registered boot)
      (entered : hostIoctlExecute native boot = .ok () vm)
  | later {past : List (Moment Vm Trap)} {before : Vm} {trap : Trap}
      (run : GuestRun reg past before) (native : Native before trap.now)
      (handled : trap.handle trap.now = .ok () vm)

/-- There the flags of a Linux guest and its privilege level go together. -/
theorem EntersPreGuest.coherent {reg : Registration} {vm : Vm} (enters : EntersPreGuest reg vm)
    (linux : reg.linuxVMMode = true) : vm.setup = reg.setup ∧ vm.running.Coherent := by
  cases enters with
  | first registered entered =>
      obtain ⟨rfl, entry⟩ := registered.enters entered
      have same := entry.registered.same.1
      have mode := (congrArg Setup.linuxVMMode same).trans linux
      exact ⟨same, entry.coherent mode⟩
  | @later past before trap run native handled =>
      have guarded := (GuestRun.guarded run).native native
      have mode := (congrArg Setup.linuxVMMode guarded.setup).trans linux
      have flags := native.coherent (GuestRun.flags run linux).running
      obtain ⟨same, coherent⟩ := (Trap.handle_moves guarded.sound handled).coherent mode flags
      exact ⟨same.trans guarded.setup, coherent⟩

namespace Vm

/-- The guest's own interrupt flag: VIF in its kernel, where PVI keeps it there,
and IF in user code. -/
def guestIF (vm : Vm) : Bool :=
  if vm.guestCPL = 0 then EFlags.vif vm.context.eflags else EFlags.if_ vm.context.eflags

/-- The vector of the unmasked request with the highest priority. -/
def irqVector (vm : Vm) : Bit32u :=
  vm.picMaster.vectorOffset + BitVec.ofNat 32 (firstIrq vm.picMaster.unmasked)

/-- The machine with that request in service. -/
def acknowledged (vm : Vm) : Vm :=
  { vm with picMaster := vm.picMaster.promote (firstIrq vm.picMaster.unmasked), intr := 0 }

/-- The machine with the INTR line in VIP. -/
def intrShown (vm : Vm) : Vm :=
  { vm with
    context := { vm.context with
      eflags := EFlags.assign EFlags.maskVIP (vm.intr.getLsbD 0) vm.context.eflags } }

end Vm

/-- Nothing is in service, and a line of the master is requested and not masked. -/
def Pic.Waiting (pic : Pic) : Prop :=
  pic.isr = 0 ∧ ∃ line < 8, pic.unmasked.getLsbD line = true

/-- The guest is at its handler for the unmasked request with the highest priority. -/
structure GivenIrq (sampled next : Vm) : Prop where
  irq : ∃ line < 8, sampled.picMaster.unmasked.getLsbD line = true ∧
    (∀ lower < line, sampled.picMaster.unmasked.getLsbD lower = false) ∧
    sampled.irqVector = sampled.picMaster.vectorOffset + BitVec.ofNat 32 line
  handler : sampled.acknowledged.core.AtHandler next.core sampled.irqVector 0 0

/-- The guest's registers are as they were, but for VIP, which has the lowest bit of
INTR; the line is as it was sampled. -/
structure LeftAlone (vm sampled next : Vm) : Prop where
  context : next.context = { vm.context with
    eflags := EFlags.assign EFlags.maskVIP (sampled.intr.getLsbD 0) vm.context.eflags }
  intr : next.intr = sampled.intr

/-- What `preGuest` is to do about the INTR line of the machine `sampled`, which the
clock and the HAL leave: interrupt the guest where that accepts interrupts, and
leave it alone where it does not or the line is low. -/
structure HonoursIntr (vm sampled : Vm) : Prop where
  given : sampled.intr = 1 → vm.guestIF = true →
    ∃ next, preGuest vm = .ok () next ∧ GivenIrq sampled next
  left : vm.guestIF = false ∨ sampled.intr = 0 →
    ∃ next, preGuest vm = .ok () next ∧ LeftAlone vm sampled next

section Resuming

variable {vm sampled next : Vm}

/-- The clock and the HAL have been looked at. -/
def Samples (vm sampled : Vm) : Prop :=
  (preGuestClock >>= fun _ => preGuestHal) vm = .ok () sampled

/-- That changes the devices only. -/
theorem Samples.kept {α : Type} (samples : Samples vm sampled) (view : Vm → α)
    (blind : ∀ vm, view vm.offDevices = view vm) : view sampled = view vm := by
  have keeps : Keeps (fun vm => view vm = view _) (fun _ _ => True) _ :=
    DevicesOnly.keeps (fun _ => preGuestSample_devices) blind (view vm)
  exact keeps.returns rfl samples

/-- The rest of `preGuest`. -/
theorem Samples.resumes (samples : Samples vm sampled) : preGuest vm =
    (preGuestInterrupt >>= fun _ => get >>= fun vm =>
      if EFlags.if_ vm.context.eflags = false then throw .monpanicNomess else pure ()) sampled := by
  obtain ⟨_, middle, clock, hal⟩ := bind_ok.mp samples
  rw [preGuest, bind_apply, clock]
  show (preGuestHal >>= _) middle = _
  rw [bind_apply, hal]

theorem Samples.running (samples : Samples vm sampled) : sampled.running = vm.running :=
  samples.kept Vm.running fun _ => rfl

/-- With the INTR line in VIP, the guest is resumed. -/
theorem resumes_shown {accepted : Vm} (samples : Samples vm sampled)
    (linux : vm.setup.linuxVMMode = true) (coherent : accepted.running.Coherent)
    (accepts : acceptInterrupt sampled = .ok () accepted) :
    preGuest vm = .ok () accepted.intrShown := by
  have mode : sampled.setup.linuxVMMode = true := by
    rw [samples.kept Vm.setup fun _ => rfl]
    exact linux
  have shown : EFlags.if_ accepted.intrShown.context.eflags = true :=
    (coherent.withFlag (accepted.intr.getLsbD 0)).if_
  have interrupted : preGuestInterrupt sampled = .ok () accepted.intrShown := by
    rw [preGuestInterrupt, get_bind_apply, if_pos mode]
    exact bind_ok.mpr ⟨(), accepted, accepts, rfl⟩
  rw [samples.resumes]
  refine bind_ok.mpr ⟨(), accepted.intrShown, interrupted, ?_⟩
  rw [get_bind_apply, if_neg (by simp [shown])]
  rfl

private theorem acceptInterrupt_refuses
    (refuses : ¬ (vm.intr ≠ 0 ∧ EFlags.vif vm.context.eflags = true)) :
    acceptInterrupt vm = .ok () vm := by
  rw [acceptInterrupt, get_bind_apply, if_neg refuses]
  rfl

theorem Pic.Waiting.pending {pic : Pic} (waiting : pic.Waiting) : pic.unmasked ≠ 0 := by
  obtain ⟨-, line, -, here⟩ := waiting
  intro none
  rw [none] at here
  simp at here

private theorem picIAC_acknowledges (up : vm.intr ≠ 0) (waiting : vm.picMaster.Waiting) :
    picIAC vm = .ok vm.irqVector vm.acknowledged := by
  obtain ⟨vector, next, run⟩ := picIAC_returns up waiting.1 waiting.pending
  obtain ⟨-, -, -, rfl, rfl⟩ := picIAC_ok run
  exact run

private theorem acceptInterrupt_gives (up : vm.intr ≠ 0) (on : EFlags.vif vm.context.eflags = true)
    (waiting : vm.picMaster.Waiting)
    (entered : doGuestInterrupt vm.irqVector 0 0 vm.acknowledged = .ok () next) :
    acceptInterrupt vm = .ok () next := by
  rw [acceptInterrupt, get_bind_apply, if_pos ⟨up, on⟩]
  exact bind_ok.mpr ⟨vm.irqVector, vm.acknowledged, picIAC_acknowledges up waiting, entered⟩

/-- An interrupt that is accepted has been acknowledged. -/
theorem Samples.acknowledges (samples : Samples vm sampled)
    (linux : vm.setup.linuxVMMode = true) (up : sampled.intr ≠ 0)
    (on : EFlags.vif sampled.context.eflags = true) (run : preGuest vm = .ok () next) :
    sampled.picMaster.isr = 0 := by
  have mode : sampled.setup.linuxVMMode = true := by
    rw [samples.kept Vm.setup fun _ => rfl]
    exact linux
  rw [samples.resumes] at run
  obtain ⟨_, shown, interrupted, -⟩ := bind_ok.mp run
  rw [preGuestInterrupt, get_bind_apply, if_pos mode] at interrupted
  obtain ⟨_, accepted, accepts, -⟩ := bind_ok.mp interrupted
  rw [acceptInterrupt, get_bind_apply, if_pos ⟨up, on⟩] at accepts
  obtain ⟨vector, acknowledged, iac, -⟩ := bind_ok.mp accepts
  exact (picIAC_ok iac).2.1

end Resuming

section Guest

variable {vm : Vm}

private theorem kernel_guestIF (kernel : vm.guestCPL = 0) :
    vm.guestIF = EFlags.vif vm.context.eflags := if_pos kernel

/-- But VIF does not say so. -/
theorem user_vif (coherent : vm.running.Coherent) (user : ¬ vm.guestCPL = 0) :
    EFlags.vif vm.context.eflags = false := coherent.vif (coherent.level.resolve_left user)

end Guest

/-- The pages of a guest that has any cover its memory. -/
theorem Registration.ready {reg : Registration} {vm : Vm} (setup : vm.setup = reg.setup)
    (memory : 0x1000#32 ≤ reg.setup.guestNBytes)
    (willing : ∀ served userAddr, (reg.os.getAndPinUserPage served userAddr).isSome = true) :
    vm.Ready := by
  refine ⟨fun pAddr inside => ?_, ?_, ?_⟩
  · rw [setup] at inside ⊢
    have inside : pAddr < reg.nMegs * 1024 * 1024 := inside
    change pAddr >>> 12 < reg.nMegs * 256
    rw [BitVec.lt_def, BitVec.toNat_mul, BitVec.toNat_mul] at inside
    rw [BitVec.lt_def, BitVec.toNat_mul, BitVec.toNat_ushiftRight, Nat.shiftRight_eq_div_pow]
    simp at inside ⊢
    omega
  · rw [setup]
    exact memory
  · rw [setup]
    exact willing

/-- Where its tables let the interrupt through, the guest gets to its handler. -/
theorem Vm.Interrupts.delivered {vector intFlags errorCode : Bit32u}
    (tables : vm.Interrupts vector intFlags errorCode) (ready : vm.core.Ready) :
    ∃ next, doGuestInterrupt vector intFlags errorCode vm = .ok () next ∧
      next.core = vm.core.interrupted vector intFlags errorCode ∧
      vm.core.AtHandler next.core vector intFlags errorCode := by
  obtain ⟨-, next, run, seen⟩ :=
    (doGuestInterrupt_does vector intFlags errorCode vm.core).run ready tables.able
  exact ⟨next, run, seen, seen ▸ tables.able.atHandler tables.outside⟩

/-- Where the guest's memory can be pinned and its tables let the interrupt through,
the INTR line is honoured exactly where the guest was in its kernel, with a request
to be acknowledged, or there was nothing to give it. -/
theorem intr_honoured {reg : Registration} {vm sampled : Vm} (linux : reg.linuxVMMode = true)
    (memory : 0x1000#32 ≤ reg.setup.guestNBytes)
    (willing : ∀ served userAddr, (reg.os.getAndPinUserPage served userAddr).isSome = true)
    (enters : EntersPreGuest reg vm) (samples : Samples vm sampled)
    (tables : sampled.acknowledged.Interrupts sampled.irqVector 0 0) :
    HonoursIntr vm sampled ↔
      (sampled.intr = 1 → vm.guestIF = true → vm.guestCPL = 0 ∧ sampled.picMaster.Waiting) := by
  obtain ⟨setup, coherent⟩ := enters.coherent linux
  have mode : vm.setup.linuxVMMode = true := (congrArg Setup.linuxVMMode setup).trans linux
  have flags : sampled.running.Coherent := samples.running ▸ coherent
  have context : sampled.context = vm.context := samples.kept Vm.context fun _ => rfl
  have refused (off : EFlags.vif vm.context.eflags = false ∨ sampled.intr = 0) :
      preGuest vm = .ok () sampled.intrShown := by
    apply resumes_shown samples mode flags
    apply acceptInterrupt_refuses
    rw [context]
    rintro ⟨up, on⟩
    rcases off with off | low
    · rw [off] at on
      exact Bool.noConfusion on
    · exact up low
  constructor
  · intro honours up accepts
    obtain ⟨next, run, given⟩ := honours.given up accepts
    by_cases kernel : vm.guestCPL = 0
    · have on : EFlags.vif sampled.context.eflags = true := by
        rw [context, ← kernel_guestIF kernel]
        exact accepts
      have raised : sampled.intr ≠ 0 := by simp [up]
      obtain ⟨line, low, here, -⟩ := given.irq
      exact ⟨kernel, samples.acknowledges mode raised on run, line, low, here⟩
    · -- VIF is off in user code, which is resumed in its own ring
      rw [refused (.inl (user_vif coherent kernel))] at run
      cases run
      have level : sampled.guestCPL = 0 := given.handler.level
      rw [samples.kept Vm.guestCPL fun _ => rfl] at level
      exact absurd level kernel
  · intro waits
    constructor
    · intro up accepts
      obtain ⟨kernel, waiting⟩ := waits up accepts
      have on : EFlags.vif sampled.context.eflags = true := by
        rw [context, ← kernel_guestIF kernel]
        exact accepts
      have ready : sampled.acknowledged.core.Ready :=
        Registration.ready ((samples.kept Vm.setup fun _ => rfl).trans setup) memory willing
      obtain ⟨entered, run, seen, there⟩ := tables.delivered ready
      have accepted := acceptInterrupt_gives (by simp [up]) on waiting run
      have still : entered.running.Coherent := by
        rw [running_of_core seen]
        exact tables.able.coherent (samples.kept Vm.setup (fun _ => rfl) ▸ mode) flags.iopl
      refine ⟨entered.intrShown, resumes_shown samples mode still accepted, ?_, ?_⟩
      · obtain ⟨low, here, lower⟩ := firstIrq_finds waiting.2
        exact ⟨_, low, here, lower, rfl⟩
      · exact ⟨there.level, there.cs, there.eip, there.ss, there.esp, there.frame.keep rfl rfl rfl⟩
    · intro refuses
      have off : EFlags.vif vm.context.eflags = false ∨ sampled.intr = 0 := by
        apply refuses.imp_left
        intro off
        by_cases kernel : vm.guestCPL = 0
        · exact (kernel_guestIF kernel).symm.trans off
        · exact user_vif coherent kernel
      refine ⟨sampled.intrShown, refused off, ?_, rfl⟩
      rw [intrShown, context]

namespace Sample

/-- The guest has unmasked line 3 while it ran, and user space has put 3 into the mailbox. -/
def packet (vm : Vm) (cause : Cause) : Trap where
  now := { vm with
    picMaster := { vm.picMaster with imr := 0xf7 }
    guestCpu := { vm.guestCpu with halIrq := 3 } }
  cycles := 0
  cause := cause

private theorem packet_native (vm : Vm) (cause : Cause) : Native vm (packet vm cause).now := by
  constructor <;> intros <;> rfl

/-- The guest's tables let the interrupt through, to a stack in this page, as far as can be
computed. -/
def interrupts (vm : Vm) (stackPage vector intFlags : Bit32u) : Bool :=
  (leaves (doGuestInterrupt vector intFlags 0) vm).isSome &&
    ((vm.core.wholeFrame vector intFlags 0).all fun word =>
      vm.core.translated word.1 >>> 12 == stackPage) &&
    !vm.core.tablePages.contains stackPage

theorem interrupts_tables {vm : Vm} {stackPage vector intFlags : Bit32u}
    (checked : interrupts vm stackPage vector intFlags = true) :
    vm.Interrupts vector intFlags 0 := by
  rw [interrupts, Bool.and_eq_true, Bool.and_eq_true] at checked
  obtain ⟨⟨delivers, inside⟩, apart⟩ := checked
  obtain ⟨next, run⟩ := Option.isSome_iff_exists.mp delivers
  refine ⟨((doGuestInterrupt_does vector intFlags 0 vm.core).ok (leaves_eq_some.mp run)).1, ?_⟩
  apply Vm.OutsideTables.of_pages
  apply List.all_eq_true.mpr
  intro word member
  have page := List.all_eq_true.mp inside word member
  rw [beq_iff_eq.mp page]
  exact apart

end Sample

/-- The kernel is interrupted by a packet. -/
theorem intr_honoured_sample : ∃ vm sampled : Vm, EntersPreGuest Sample.reg vm ∧
    Samples vm sampled ∧ sampled.intr = 1 ∧ vm.guestIF = true ∧ HonoursIntr vm sampled := by
  let trap (vm : Vm) : Trap := Sample.packet vm (.fault .other)
  let check (played : List (Moment Vm Trap) × Vm) : Bool :=
    (leaves (trap played.2).handle (trap played.2).now).any fun (vm : Vm) =>
      (leaves (preGuestClock >>= fun _ => preGuestHal) vm).any fun (sampled : Vm) =>
        decide (sampled.intr = 1) && vm.guestIF && decide (vm.guestCPL = 0) &&
          decide (sampled.picMaster.isr = 0) && sampled.picMaster.unmasked.getLsbD 3 &&
          Sample.interrupts sampled.acknowledged 6 sampled.irqVector 0
  have checked : (play (Sample.boot false) []).any check = true := by decide +kernel
  obtain ⟨past, before, run, found⟩ := play_reaches (Sample.boot_registered false) checked
  obtain ⟨vm, handled, found⟩ := Option.any_eq_true .. |>.mp found
  obtain ⟨sampled, samples, found⟩ := Option.any_eq_true .. |>.mp found
  simp only [Bool.and_eq_true, decide_eq_true_eq] at found
  obtain ⟨⟨⟨⟨⟨up, accepts⟩, kernel⟩, free⟩, line⟩, tables⟩ := found
  have enters : EntersPreGuest Sample.reg vm :=
    .later run (Sample.packet_native before _) (leaves_eq_some.mp handled)
  have sampling : Samples vm sampled := leaves_eq_some.mp samples
  refine ⟨vm, sampled, enters, sampling, up, accepts, ?_⟩
  apply (intr_honoured rfl (by decide) (fun _ _ => rfl) enters sampling
    (Sample.interrupts_tables tables)).mpr
  exact fun _ _ => ⟨kernel, free, 3, by decide, line⟩

end Plex86
