import Plex86.Emulate.Return

/-! The ioctl that runs the guest: the checks on the state handed over by user
space, and the first entry into the monitor. -/

namespace Plex86

open Logic

-- Reasons for which the guest is not executed
def noExecuteMethod : Nat := 1
def noExecuteCR0 : Nat := 2
def noExecuteCR4 : Nat := 3
def noExecuteCS : Nat := 4
def noExecuteSelector : Nat := 6
def noExecuteEFlags : Nat := 8
def noExecuteVMState : Nat := 10

def vmStateReady : Bit32u := 0xff#32

/-- The segment registers in the order of the loops `for (s=0; s<6; s++)`. -/
def sregs : List SReg := [.es, .cs, .ss, .ds, .fs, .gs]

/-- The `handleFail` exit: the state handed over cannot be executed. -/
def handleFail {α : Type} (retval : Nat) : Mon α := throw (.ioctlExecute retval)

def failWhen (cond : Prop) [Decidable cond] (retval : Nat) : Mon Unit :=
  if cond then handleFail retval else pure ()

/-- What is wrong with a segment register at this privilege level, if anything. -/
def badSegReg (linuxVMMode : Bool) (guestCPL : BitVec 2) (segno : SReg) (seg : GuestSReg) : Bool :=
  if segno = .cs ∨ seg.sel.isNull = false then
    if seg.sel.ti then true -- We don't support LDT usage.
    else if linuxVMMode then
      seg.sel.rpl ≠ seg.des.dpl || (seg.des.dpl ≠ 0 && seg.des.dpl ≠ 3) ||
        !linuxSlotOK guestCPL segno seg.sel.index
    else
      -- Normal mode.  Only handle user segments.
      seg.sel.rpl ≠ 3 || seg.des.dpl ≠ 3 || !okGuestSlot seg.sel.index
  else false

/-- Check the segment registers one after another; the first bad one decides. -/
def checkSegRegs (vm : Vm) : List SReg → Mon Unit
  | [] => return ()
  | segno :: rest => do
      failWhen (badSegReg vm.setup.linuxVMMode vm.guestCPL segno (vm.guestCpu.sreg segno) = true)
        (if segno = .cs then noExecuteCS else noExecuteSelector)
      checkSegRegs vm rest

/-- `EFLAGS` must be as the guest can be run with; in Linux kernel code IF may be off. -/
def eflagsOK (kernel : Bool) (eflags : Bit32u) : Bool :=
  if kernel then eflags &&& 0x001b7102#32 = 0x00000002#32
  else eflags &&& 0x001b7302#32 = 0x00000202#32

/-- Install the virtualized guest descriptors in the monitor's GDT. -/
def installDescriptors (cpu : GuestCpu) (guestCPL : BitVec 2) (gdt : BitVec 13 → Descriptor) :
    BitVec 13 → Descriptor :=
  sregs.foldl (fun gdt segno =>
    let seg := cpu.sreg segno
    if seg.sel.isNull = false then
      Function.update gdt seg.sel.index (if guestCPL = 0 then seg.des.setDpl 3 else seg.des)
    else gdt) gdt

/-- A selector as the guest is run with it. -/
def contextSelector (guestCPL : BitVec 2) (seg : GuestSReg) : Bit32u :=
  if guestCPL = 0 then seg.sel.pushedDown else seg.sel.raw.setWidth 32

namespace GuestStackContext

/-- Load the general registers, but for ESP. -/
def loadGenRegs (context : GuestStackContext) (genReg : Fin 8 → Bit32u) : GuestStackContext :=
  { context with
    edi := genReg genRegEDI, esi := genReg genRegESI, ebp := genReg genRegEBP, dummyEsp := 0
    ebx := genReg genRegEBX, edx := genReg genRegEDX, ecx := genReg genRegECX
    eax := genReg genRegEAX }

/-- The general registers, as they are reported to user space. -/
def genRegs (context : GuestStackContext) : Fin 8 → Bit32u
  | 0 => context.eax
  | 1 => context.ecx
  | 2 => context.edx
  | 3 => context.ebx
  | 4 => context.esp
  | 5 => context.ebp
  | 6 => context.esi
  | 7 => context.edi

end GuestStackContext

/-- The flags of the first context: IF is on, and in Linux kernel code VIF is
what the guest requested. -/
def entryEFlags (kernel : Bool) (eflags : Bit32u) : Bit32u :=
  let running := eflags ||| EFlags.maskIF
  if kernel = true ∧ EFlags.if_ eflags = true then running ||| EFlags.maskVIF else running

/-- The context that user space has asked for. -/
def entryContext (cpu : GuestCpu) (guestCPL : BitVec 2) (kernel : Bool)
    (context : GuestStackContext) : GuestStackContext :=
  { context.loadGenRegs cpu.genReg with
    gs := contextSelector guestCPL (cpu.sreg .gs), fs := contextSelector guestCPL (cpu.sreg .fs)
    ds := contextSelector guestCPL (cpu.sreg .ds), es := contextSelector guestCPL (cpu.sreg .es)
    cs := contextSelector guestCPL (cpu.sreg .cs), ss := contextSelector guestCPL (cpu.sreg .ss)
    eip := cpu.eip, eflags := entryEFlags kernel cpu.eflags, esp := cpu.genReg genRegESP }

/-- Start executing from the state that user space has set up. -/
def enterGuest : Mon Unit := do
  modify fun vm => { vm with guestCPL := (vm.guestCpu.sreg .cs).des.dpl }
  let vm ← get
  let kernel := vm.setup.linuxVMMode && vm.guestCPL = 0
  failWhen (vm.guestCpu.cr0 &&& 0x60000033#32 ≠ 0x00000033#32) noExecuteCR0
  failWhen (vm.guestCpu.cr4 &&& 0x0000077f#32 ≠ 0) noExecuteCR4
  checkSegRegs vm sregs
  failWhen (eflagsOK kernel vm.guestCpu.eflags = false) noExecuteEFlags
  -- We commit to executing the guest at this point.
  modify fun vm =>
    { vm with
      gdt := installDescriptors vm.guestCpu vm.guestCPL vm.gdt
      context := entryContext vm.guestCpu vm.guestCPL kernel vm.context
      monCr4 := if kernel then 2 else 0 -- TSD=0, PVI
      monCr0 := monCr0For vm.guestCpu.cr0 }
  hostInitShadowPaging

/-- Where the monitor is still executing, it is returned to without any changes. -/
def MonReq.resumes : MonReq → Bool
  | .flushPrintBuf | .bogus | .redirect => true
  | _ => false

/-- The part of `hostIoctlExecute` up to the loop `executeVMLoop`. -/
def hostIoctlExecute (native : Bool) : Mon Unit := do
  let vm ← get
  if vm.vmState ≠ vmStateReady then ioctlPanic noExecuteVMState
  else
    modify fun vm => { vm with intr := vm.guestCpu.intr }
    if vm.monRequest = .halCall then
      modify fun vm =>
        { vm with context := vm.context.loadGenRegs vm.guestCpu.genReg, monRequest := .none }
    else if vm.monRequest.resumes then modify fun vm => { vm with monRequest := .none }
    else if vm.monRequest ≠ .none then ioctlPanic noExecuteVMState
    else
      failWhen (native = false) noExecuteMethod
      enterGuest

private theorem failWhen_apply (cond : Prop) [Decidable cond] (retval : Nat) (vm : Vm) :
    failWhen cond retval vm =
      if cond then .error (.ioctlExecute retval) vm else .ok () vm := by
  unfold failWhen handleFail
  split <;> rfl

private theorem failWhen_ok {cond : Prop} [Decidable cond] {retval : Nat} {vm next : Vm}
    {value : Unit}
    (run : failWhen cond retval vm = .ok value next) : ¬ cond ∧ vm = next := by
  rw [failWhen_apply] at run
  split at run
  · cases run
  · next holds =>
      cases run
      exact ⟨holds, rfl⟩

/-- The segment registers pass the check only together, and it changes nothing. -/
theorem checkSegRegs_ok {vm now next : Vm} {segs : List SReg} {value : Unit}
    (run : checkSegRegs vm segs now = .ok value next) :
    now = next ∧ ∀ segno ∈ segs,
      badSegReg vm.setup.linuxVMMode vm.guestCPL segno (vm.guestCpu.sreg segno) = false := by
  induction segs with
  | nil =>
      cases run
      exact ⟨rfl, by simp⟩
  | cons segno rest inductionHypothesis =>
      obtain ⟨_, middle, checked, others⟩ := bind_ok.mp run
      obtain ⟨good, rfl⟩ := failWhen_ok checked
      obtain ⟨rfl, goodRest⟩ := inductionHypothesis others
      exact ⟨rfl, List.forall_mem_cons.mpr ⟨by simpa using good, goodRest⟩⟩

/-- The machine as it enters the guest with the state that user space has set up. -/
def Vm.atEntry (vm : Vm) : Vm :=
  let guestCPL := (vm.guestCpu.sreg .cs).des.dpl
  let kernel := vm.setup.linuxVMMode && guestCPL = 0
  { vm with
    guestCPL
    gdt := installDescriptors vm.guestCpu guestCPL vm.gdt
    context := entryContext vm.guestCpu guestCPL kernel vm.context
    monCr4 := if kernel then 2 else 0
    monCr0 := monCr0For vm.guestCpu.cr0
    shadow := vm.shadow.init vm.setup.monPdi }

/-- The guest is entered only in a state that passes every check. -/
theorem enterGuest_ok {vm next : Vm} (run : enterGuest vm = .ok () next) :
    next = vm.atEntry ∧
      (∀ segno, badSegReg vm.setup.linuxVMMode vm.atEntry.guestCPL segno
        (vm.guestCpu.sreg segno) = false) ∧
      eflagsOK (vm.setup.linuxVMMode && vm.atEntry.guestCPL = 0) vm.guestCpu.eflags = true := by
  simp only [enterGuest, modify_bind_apply, get_bind_apply, bind_ok] at run
  obtain ⟨_, _, cr0, _, _, cr4, _, _, segs, _, _, flags, entered⟩ := run
  obtain ⟨-, rfl⟩ := failWhen_ok cr0
  obtain ⟨-, rfl⟩ := failWhen_ok cr4
  obtain ⟨rfl, good⟩ := checkSegRegs_ok segs
  obtain ⟨plain, rfl⟩ := failWhen_ok flags
  cases entered
  refine ⟨rfl, fun segno => good segno ?_, Bool.not_eq_false _ ▸ plain⟩
  cases segno <;> simp [sregs]

/-- Where nothing has been requested yet, the ioctl enters the guest anew. -/
theorem hostIoctlExecute_enters {native : Bool} {vm next : Vm} (fresh : vm.monRequest = .none)
    (run : hostIoctlExecute native vm = .ok () next) :
    enterGuest { vm with intr := vm.guestCpu.intr } = .ok () next := by
  simp only [hostIoctlExecute, get_bind_apply, Logic.ite_apply, fresh, MonReq.resumes] at run
  split at run
  · cases run
  simp only [modify_bind_apply, reduceCtorEq, if_false, Bool.false_eq_true, ne_eq,
    not_true_eq_false, bind_ok] at run
  obtain ⟨_, _, method, entered⟩ := run
  obtain ⟨-, rfl⟩ := failWhen_ok method
  exact entered

/-- Back in the monitor nothing has changed but the INTR line, and after a call of
the HAL the general registers. -/
theorem hostIoctlExecute_resumes_ok {native : Bool} {vm next : Vm}
    (way : vm.monRequest = .halCall ∨ vm.monRequest.resumes = true)
    (run : hostIoctlExecute native vm = .ok () next) :
    ∃ context, next = { vm with intr := vm.guestCpu.intr, monRequest := .none, context } ∧
      (context = vm.context ∨ context = vm.context.loadGenRegs vm.guestCpu.genReg) := by
  simp only [hostIoctlExecute, get_bind_apply, Logic.ite_apply, modify_bind_apply,
    modify_apply] at run
  split at run
  · cases run
  split at run
  · cases run
    exact ⟨_, rfl, .inr rfl⟩
  next notHal =>
    split at run
    · cases run
      exact ⟨_, rfl, .inl rfl⟩
    · next notBack => exact (way.elim notHal notBack).elim

/-- A segment register that may be loaded in Linux mode. -/
theorem badSegReg_linux {guestCPL : BitVec 2} {segno : SReg} {seg : GuestSReg}
    (good : badSegReg true guestCPL segno seg = false)
    (loads : segno = .cs ∨ seg.sel.isNull = false) :
    seg.sel.ti = false ∧ seg.sel.rpl = seg.des.dpl ∧ (seg.des.dpl = 0 ∨ seg.des.dpl = 3) ∧
      linuxSlotOK guestCPL segno seg.sel.index = true := by
  rw [badSegReg, if_pos loads] at good
  split at good
  · cases good
  next gdt =>
    simp only [if_true, Bool.or_eq_false_iff, Bool.and_eq_false_iff, decide_eq_false_iff_not,
      ne_eq, not_not, Bool.not_eq_false'] at good
    exact ⟨(Bool.not_eq_true _).mp gdt, good.1.1, good.1.2, good.2⟩

/-- And in normal mode. -/
theorem badSegReg_normal {guestCPL : BitVec 2} {segno : SReg} {seg : GuestSReg}
    (good : badSegReg false guestCPL segno seg = false)
    (loads : segno = .cs ∨ seg.sel.isNull = false) :
    seg.sel.ti = false ∧ seg.sel.rpl = 3 ∧ seg.des.dpl = 3 ∧
      okGuestSlot seg.sel.index = true := by
  rw [badSegReg, if_pos loads] at good
  split at good
  · cases good
  next gdt =>
    simp only [Bool.false_eq_true, if_false, Bool.or_eq_false_iff, decide_eq_false_iff_not, ne_eq,
      not_not, Bool.not_eq_false'] at good
    exact ⟨(Bool.not_eq_true _).mp gdt, good.1.1, good.1.2, good.2⟩

end Plex86
