import Plex86.Monitor.Moves
import Plex86.Monitor.Replay

namespace Plex86

open Logic Vm

/-- The guest's privilege level and flags go together, whatever VIP is. -/
structure Running.Coherent (running : Running) : Prop where
  level : running.guestCPL = 0 ∨ running.guestCPL = 3
  if_ : EFlags.if_ running.eflags = true
  iopl : EFlags.iopl running.eflags = 0
  vm86 : EFlags.vm running.eflags = false
  pvi : running.monCr4.getLsbD 1 = decide (running.guestCPL = 0)
  vif : running.guestCPL = 3 → EFlags.vif running.eflags = false

/-- Raising or lowering a flag leaves the others alone. -/
theorem assign_other {line : Nat} (low : line < 32) (raw : Bit32u) (value : Bool) {index : Nat}
    (other : index ≠ line) :
    (EFlags.assign (1#32 <<< line) value raw).getLsbD index = raw.getLsbD index := by
  rw [EFlags.assign_getLsbD, lineBit_getLsbD low, decide_eq_false other]
  rfl

theorem assign_same {line : Nat} (low : line < 32) (raw : Bit32u) (value : Bool) :
    (EFlags.assign (1#32 <<< line) value raw).getLsbD line = value := by
  rw [EFlags.assign_getLsbD, lineBit_getLsbD low, decide_eq_true rfl]
  simp [low]

theorem pushedEFlags_other (linuxVMMode : Bool) (fromCPL : BitVec 2) (eflags : Bit32u) {index : Nat}
    (other : index ≠ 9) :
    (pushedEFlags linuxVMMode fromCPL eflags).getLsbD index = eflags.getLsbD index := by
  unfold pushedEFlags
  split
  · split
    · exact assign_other (by decide) eflags true other
    · exact assign_other (by decide) eflags false other
  · rfl

/-- The mask of the flags that every gate clears. -/
theorem handlerEFlags_getLsbD (gate : Gate) (pushed : Bit32u) {index : Nat} (other : index ≠ 9) :
    (handlerEFlags gate pushed).getLsbD index = (pushed.getLsbD index &&
      !(EFlags.maskVM ||| EFlags.maskRF ||| EFlags.maskNT ||| EFlags.maskTF).getLsbD index) := by
  rw [handlerEFlags, ← EFlags.and_not_getLsbD]
  split
  · exact assign_other (by decide) _ false other
  · rfl

theorem Vm.resumed_other (vm : Vm) (eflags : Bit32u) {index : Nat} (notIF : index ≠ 9)
    (notVIF : index ≠ 19) :
    (vm.resumed eflags).context.eflags.getLsbD index = eflags.getLsbD index := by
  refine (assign_other (by decide) _ true notIF).trans ?_
  split
  · split
    · exact assign_other (by decide) eflags true notVIF
    · exact assign_other (by decide) eflags false notVIF
  · rfl

private theorem Vm.resumed_if (vm : Vm) (eflags : Bit32u) :
    EFlags.if_ (vm.resumed eflags).context.eflags = true :=
  assign_same (by decide) _ true

theorem Running.Coherent.withFlag {running : Running} (coherent : running.Coherent) (value : Bool) :
    (running.withFlag EFlags.maskVIP value).Coherent where
  level := coherent.level
  if_ := (assign_other (by decide) _ value (by decide)).trans coherent.if_
  iopl := (EFlags.iopl_eq (assign_other (by decide) _ value (by decide))
    (assign_other (by decide) _ value (by decide))).trans coherent.iopl
  vm86 := (assign_other (by decide) _ value (by decide)).trans coherent.vm86
  pvi := coherent.pvi
  vif := fun user => (assign_other (by decide) _ value (by decide)).trans (coherent.vif user)

/-- A handler is entered with its flags in order, whatever VIF was. -/
theorem Vm.InterruptOK.coherent {vm : Vm} {vector intFlags errorCode : Bit32u}
    (able : vm.InterruptOK vector intFlags errorCode) (linux : vm.setup.linuxVMMode = true)
    (iopl : EFlags.iopl vm.context.eflags = 0) :
    (vm.interrupted vector intFlags errorCode).running.Coherent := by
  have kernel : ((vm.handlerEntered vector intFlags errorCode).withSegment .cs
      (vm.handlerOf vector)).guestCPL = 0 := (withSegment_guestCPL _ _ _).trans able.guestCPL
  have runs : ((vm.handlerEntered vector intFlags errorCode).withSegment .cs
      (vm.handlerOf vector)).RunsKernel := by
    refine ⟨?_, kernel⟩
    rw [withSegment_setup]
    simp only [handlerEntered, interruptFramed, framePushed_setup, frameOpened_setup, linux]
  have cleared {index : Nat} (notIF : index ≠ 9) (notVIF : index ≠ 19) :
      (vm.interrupted vector intFlags errorCode).context.eflags.getLsbD index =
        (vm.context.eflags.getLsbD index &&
          !(EFlags.maskVM ||| EFlags.maskRF ||| EFlags.maskNT ||| EFlags.maskTF).getLsbD index) := by
    rw [interrupted, resumed_other _ _ notIF notVIF, flagsOfHandler, handlerEFlags_getLsbD _ _ notIF,
      pushedEFlags_other _ _ _ notIF]
  constructor
  case level => exact .inl kernel
  case if_ => exact resumed_if _ _
  case iopl =>
    refine (EFlags.iopl_eq ?_ ?_).trans iopl
    · exact (cleared (by decide) (by decide)).trans (Bool.and_true _)
    · exact (cleared (by decide) (by decide)).trans (Bool.and_true _)
  case vm86 => exact (cleared (by decide) (by decide)).trans (Bool.and_false _)
  case pvi =>
    have on : (vm.interrupted vector intFlags errorCode).monCr4 = 2 := if_pos runs
    have level : (vm.interrupted vector intFlags errorCode).guestCPL = 0 := kernel
    change (vm.interrupted vector intFlags errorCode).monCr4.getLsbD 1 =
      decide ((vm.interrupted vector intFlags errorCode).guestCPL = 0)
    rw [on, level]
    decide
  case vif =>
    intro user
    cases kernel.symm.trans user

/-- A flag that IRET does not take from the stack. -/
theorem iretDone_kept (vm : Vm) {index : Nat} (kept : iretChangeMask.getLsbD index = false) :
    vm.iretDone.context.eflags.getLsbD index =
      (EFlags.assign EFlags.maskIF true (EFlags.assign EFlags.maskVIP false
        (EFlags.assign EFlags.maskVIF (decide (vm.iretCS.rpl = 0) && EFlags.if_ vm.iretEFlags)
          vm.context.eflags))).getLsbD index := by
  rw [iretDone_eflags, BitVec.getLsbD_or, EFlags.and_not_getLsbD, BitVec.getLsbD_and, kept,
    Bool.not_false, Bool.and_true, Bool.and_false, Bool.or_false]

theorem iretDone_other (vm : Vm) {index : Nat} (notIF : index ≠ 9) (notVIF : index ≠ 19)
    (notVIP : index ≠ 20) (kept : iretChangeMask.getLsbD index = false) :
    vm.iretDone.context.eflags.getLsbD index = vm.context.eflags.getLsbD index :=
  calc vm.iretDone.context.eflags.getLsbD index
    _ = _ := iretDone_kept vm kept
    _ = _ := assign_other (by decide) _ true notIF
    _ = _ := assign_other (by decide) _ false notVIP
    _ = vm.context.eflags.getLsbD index := assign_other (by decide) _ _ notVIF

theorem iretDone_vif (vm : Vm) : EFlags.vif vm.iretDone.context.eflags =
    (decide (vm.iretCS.rpl = 0) && EFlags.if_ vm.iretEFlags) :=
  calc vm.iretDone.context.eflags.getLsbD 19
    _ = _ := iretDone_kept vm (by decide)
    _ = _ := assign_other (by decide) _ true (by decide)
    _ = _ := assign_other (by decide) _ false (by decide)
    _ = _ := assign_same (by decide) _ _

theorem iretDone_if (vm : Vm) : EFlags.if_ vm.iretDone.context.eflags = true :=
  (iretDone_kept vm (by decide)).trans (assign_same (by decide) _ true)

/-- After a return PVI is on exactly in the kernel. -/
theorem Vm.IretOK.pvi {vm : Vm} (able : vm.IretOK) :
    (vm.iretDone.guestCPL = 0 ∧ vm.iretDone.monCr4.getLsbD 1 = true) ∨
      (vm.iretDone.guestCPL = 3 ∧ vm.iretDone.monCr4.getLsbD 1 = false ∧ vm.iretCS.rpl = 3) := by
  have flags := able.flags
  have inward := able.frame.outward
  unfold VirtualOK at flags
  rw [frameClosed_monCr4] at flags
  rw [iretDone_guestCPL, frameClosed_guestCPL, iretDone_monCr4]
  rcases able.frame.ring.1 with kernel | user
  · rw [kernel] at flags inward ⊢
    have same : vm.guestCPL = 0 := BitVec.le_zero_iff.mp (BitVec.not_lt.mp inward)
    rw [if_pos rfl] at flags
    refine .inl ⟨by simp [same], ?_⟩
    simpa using flags.2
  · rw [user] at flags inward ⊢
    rw [if_neg (by decide)] at flags
    refine .inr ?_
    by_cases outward : vm.guestCPL < 3
    · refine ⟨by rw [if_pos outward], ?_, rfl⟩
      rw [if_pos ⟨by decide, outward⟩, EFlags.and_not_getLsbD]
      exact Bool.and_false _
    · rw [if_neg outward] at flags ⊢
      refine ⟨BitVec.le_antisymm (BitVec.not_lt.mp inward) (BitVec.not_lt.mp outward), ?_, rfl⟩
      rw [if_neg fun both => outward both.2]
      exact flags.2

theorem Vm.IretOK.coherent {vm : Vm} (able : vm.IretOK) (iopl : EFlags.iopl vm.context.eflags = 0)
    (vm86 : EFlags.vm vm.context.eflags = false) : vm.iretDone.running.Coherent where
  level := able.pvi.imp And.left And.left
  if_ := iretDone_if vm
  iopl := (EFlags.iopl_eq (iretDone_other vm (by decide) (by decide) (by decide) (by decide))
    (iretDone_other vm (by decide) (by decide) (by decide) (by decide))).trans iopl
  vm86 := (iretDone_other vm (by decide) (by decide) (by decide) (by decide)).trans vm86
  pvi := by
    change vm.iretDone.monCr4.getLsbD 1 = decide (vm.iretDone.guestCPL = 0)
    rcases able.pvi with ⟨kernel, on⟩ | ⟨user, off, -⟩
    · rw [kernel, on]
      decide
    · rw [user, off]
      decide
  vif := by
    intro user
    rcases able.pvi with ⟨kernel, -⟩ | ⟨-, -, ring⟩
    · cases kernel.symm.trans user
    · refine (iretDone_vif vm).trans ?_
      rw [ring]
      rfl

/-- Whatever the monitor does keeps the flags and the privilege level together. -/
theorem Move.coherent {vm next : Vm} (move : Move vm next)
    (linux : vm.setup.linuxVMMode = true) (coherent : vm.running.Coherent) :
    next.setup = vm.setup ∧ next.running.Coherent := by
  have setups {other : Vm} (same : next.running = other.running) : next.setup = other.setup :=
    congrArg Running.setup same
  cases move with
  | steady same => exact ⟨setups same, same ▸ coherent⟩
  | pending value reached =>
      exact ⟨congrArg Running.setup reached, reached ▸ coherent.withFlag value⟩
  | interrupt able reached =>
      refine ⟨(setups reached).trans (interrupted_setup _ _ _ _), ?_⟩
      rw [reached]
      exact able.coherent linux coherent.iopl
  | @sti begun vector raised able reached =>
      have same : begun.setup = vm.setup := congrArg Running.setup raised
      have flags : begun.context.eflags = EFlags.assign EFlags.maskVIF true vm.context.eflags :=
        congrArg Running.eflags raised
      have iopl : EFlags.iopl begun.context.eflags = 0 := by
        rw [flags]
        exact (EFlags.iopl_eq (assign_other (by decide) _ true (by decide))
          (assign_other (by decide) _ true (by decide))).trans coherent.iopl
      refine ⟨((setups reached).trans (interrupted_setup _ _ _ _)).trans same, ?_⟩
      rw [reached]
      refine able.coherent ?_ iopl
      change begun.setup.linuxVMMode = true
      rw [same]
      exact linux
  | iret able reached =>
      refine ⟨(setups reached).trans (iretDone_setup _), ?_⟩
      rw [reached]
      exact able.coherent coherent.iopl coherent.vm86
  | @load sreg selector able reached =>
      refine ⟨(setups reached).trans (withSegment_setup _ _ _), ?_⟩
      have flags : next.running.eflags = vm.context.eflags := by
        rw [reached]
        refine (congrArg GuestStackContext.eflags (withSegment_context _ _ _)).trans ?_
        exact GuestStackContext.setSeg_eflags _ _ _
      have level : next.running.guestCPL = vm.guestCPL := by
        rw [reached]
        exact withSegment_guestCPL _ _ _
      have cr4 : next.running.monCr4 = vm.monCr4 := by
        rw [reached]
        exact withSegment_monCr4 _ _ _
      constructor
      case level => rw [level]; exact coherent.level
      case if_ => rw [flags]; exact coherent.if_
      case iopl => rw [flags]; exact coherent.iopl
      case vm86 => rw [flags]; exact coherent.vm86
      case pvi => rw [level, cr4]; exact coherent.pvi
      case vif => rw [level, flags]; exact coherent.vif

theorem Moves.coherent {vm next : Vm} (moves : Moves vm next)
    (linux : vm.setup.linuxVMMode = true) (coherent : vm.running.Coherent) :
    next.setup = vm.setup ∧ next.running.Coherent := by
  induction moves with
  | refl => exact ⟨rfl, coherent⟩
  | tail earlier move inductionHypothesis =>
      obtain ⟨same, reached⟩ := inductionHypothesis
      obtain ⟨still, later⟩ := move.coherent (same ▸ linux) reached
      exact ⟨still.trans same, later⟩

/-- The flags that a Linux guest is resumed with. VIP has the lowest bit of INTR. -/
structure FlagsCoherent (vm : Vm) : Prop where
  level : vm.guestCPL = 0 ∨ vm.guestCPL = 3
  if_ : EFlags.if_ vm.context.eflags = true
  iopl : EFlags.iopl vm.context.eflags = 0
  vm86 : EFlags.vm vm.context.eflags = false
  pvi : vm.monCr4.getLsbD 1 = decide (vm.guestCPL = 0)
  vif : vm.guestCPL = 3 → EFlags.vif vm.context.eflags = false
  vip : EFlags.vip vm.context.eflags = vm.intr.getLsbD 0

theorem FlagsCoherent.running {vm : Vm} (flags : FlagsCoherent vm) : vm.running.Coherent :=
  ⟨flags.level, flags.if_, flags.iopl, flags.vm86, flags.pvi, flags.vif⟩

theorem Resumes.coherent {vm middle next : Vm} (resumes : Resumes vm middle next)
    (linux : vm.setup.linuxVMMode = true) (coherent : vm.running.Coherent) :
    FlagsCoherent next := by
  obtain ⟨same, reached⟩ := resumes.moves.coherent linux coherent
  have still : middle.running.setup.linuxVMMode = true := by
    change middle.setup.linuxVMMode = true
    rw [same]
    exact linux
  have seen := resumes.reached
  rw [Running.withPending_linux _ still] at seen
  have final : next.running.Coherent := seen ▸ reached.withFlag _
  refine ⟨final.level, final.if_, final.iopl, final.vm86, final.pvi, final.vif, ?_⟩
  change EFlags.vip next.running.eflags = _
  rw [seen]
  exact assign_same (by decide) _ _

private theorem masked_clear {raw mask wanted : Bit32u} (masked : raw &&& mask = wanted)
    {index : Nat}
    (checked : mask.getLsbD index = true) (off : wanted.getLsbD index = false) :
    raw.getLsbD index = false := by
  rw [← masked, BitVec.getLsbD_and, checked, Bool.and_true] at off
  exact off

/-- A flag that must be off in the state handed over. -/
theorem eflagsOK_clear {kernel : Bool} {eflags : Bit32u} (good : eflagsOK kernel eflags = true)
    {index : Nat} (checked : (0x001b7102#32 &&& 0x001b7302#32).getLsbD index = true)
    (off : (0x00000002#32 ||| 0x00000202#32).getLsbD index = false) :
    eflags.getLsbD index = false := by
  rw [BitVec.getLsbD_and, Bool.and_eq_true] at checked
  rw [BitVec.getLsbD_or, Bool.or_eq_false_iff] at off
  cases kernel with
  | true => exact masked_clear (of_decide_eq_true good) checked.1 off.1
  | false => exact masked_clear (of_decide_eq_true good) checked.2 off.2

private theorem entryEFlags_other (kernel : Bool) (eflags : Bit32u) {index : Nat}
    (notIF : index ≠ 9)
    (notVIF : index ≠ 19) : (entryEFlags kernel eflags).getLsbD index = eflags.getLsbD index := by
  have on : (eflags ||| EFlags.maskIF).getLsbD index = eflags.getLsbD index :=
    assign_other (by decide) eflags true notIF
  unfold entryEFlags
  split
  · exact (assign_other (by decide) _ true notVIF).trans on
  · exact on

/-- The guest is entered with its flags in order. -/
theorem Entry.coherent {reg : Registration} {boot : Vm} (entry : Entry reg boot)
    (linux : boot.setup.linuxVMMode = true) :
    ({ boot with intr := boot.guestCpu.intr }.atEntry).running.Coherent := by
  have clear (index : Nat) (checked : (0x001b7102#32 &&& 0x001b7302#32).getLsbD index = true)
      (off : (0x00000002#32 ||| 0x00000202#32).getLsbD index = false) :
      boot.guestCpu.eflags.getLsbD index = false := eflagsOK_clear entry.eflags checked off
  have ring : boot.atEntry.guestCPL = 0 ∨ boot.atEntry.guestCPL = 3 := by
    have checked := entry.segs .cs
    rw [linux] at checked
    exact (badSegReg_linux checked (.inl rfl)).2.2.1
  have mode : (boot.setup.linuxVMMode && decide (boot.atEntry.guestCPL = 0)) =
      decide (boot.atEntry.guestCPL = 0) := by rw [linux, Bool.true_and]
  constructor
  case level => exact ring
  case if_ =>
    change (entryEFlags _ boot.guestCpu.eflags).getLsbD 9 = true
    unfold entryEFlags
    split
    · exact (assign_other (by decide) _ true (by decide)).trans (assign_same (by decide) _ true)
    · exact assign_same (by decide) _ true
  case iopl =>
    have low := (entryEFlags_other (boot.setup.linuxVMMode && decide (boot.atEntry.guestCPL = 0))
      boot.guestCpu.eflags (by decide) (by decide)).trans (clear 12 (by decide) (by decide))
    have high := (entryEFlags_other (boot.setup.linuxVMMode && decide (boot.atEntry.guestCPL = 0))
      boot.guestCpu.eflags (by decide) (by decide)).trans (clear 13 (by decide) (by decide))
    have zero (index : Nat) : (0#32).getLsbD index = false := BitVec.getLsbD_zero
    exact EFlags.iopl_eq (low.trans (zero 12).symm) (high.trans (zero 13).symm)
  case vm86 =>
    exact (entryEFlags_other _ _ (by decide) (by decide)).trans (clear _ (by decide) (by decide))
  case pvi =>
    change (if (boot.setup.linuxVMMode && decide (boot.atEntry.guestCPL = 0)) = true then 2#32
      else 0#32).getLsbD 1 = decide (boot.atEntry.guestCPL = 0)
    rw [mode]
    rcases ring with kernel | user
    · rw [kernel]
      decide
    · rw [user]
      decide
  case vif =>
    intro user
    have notKernel : boot.atEntry.guestCPL = 3 := user
    change (entryEFlags (boot.setup.linuxVMMode && decide (boot.atEntry.guestCPL = 0))
      boot.guestCpu.eflags).getLsbD 19 = false
    rw [mode, notKernel, entryEFlags, if_neg (by simp)]
    exact (assign_other (by decide) _ true (by decide)).trans (clear _ (by decide) (by decide))

theorem Native.coherent {vm now : Vm} (native : Native vm now) (coherent : vm.running.Coherent) :
    now.running.Coherent where
  level := by
    change now.guestCPL = 0 ∨ now.guestCPL = 3
    rw [native.guestCPL]
    exact coherent.level
  if_ := native.if_.trans coherent.if_
  iopl := native.iopl.trans coherent.iopl
  vm86 := native.vm86.trans coherent.vm86
  pvi := by
    change now.monCr4.getLsbD 1 = decide (now.guestCPL = 0)
    rw [native.monCr4, native.guestCPL]
    exact coherent.pvi
  vif := by
    intro user
    have level : vm.guestCPL = 3 := native.guestCPL.symm.trans user
    have off : vm.monCr4.getLsbD 1 = false := by
      have pvi : vm.monCr4.getLsbD 1 = decide (vm.guestCPL = 0) := coherent.pvi
      rw [pvi, level]
      decide
    exact (native.vif off).trans (coherent.vif level)

theorem GuestRun.flags {reg : Registration} {past : List (Moment Vm Trap)} {vm : Vm}
    (run : GuestRun reg past vm) (linux : reg.linuxVMMode = true) : FlagsCoherent vm := by
  induction run with
  | start started =>
      obtain ⟨boot, entry, resumed⟩ := started.entered
      obtain ⟨middle, resumes⟩ := preGuest_resumes resumed
      have mode : boot.setup.linuxVMMode = true := by
        rw [entry.registered.same.1]
        exact linux
      exact resumes.coherent mode (entry.coherent mode)
  | @next older before after trap earlier step inductionHypothesis =>
      have native := (GuestRun.guarded earlier).native step.1
      obtain ⟨middle, resumes⟩ := Trap.serve_resumes native.sound step.2
      have mode : trap.now.setup.linuxVMMode = true := by
        rw [native.setup]
        exact linux
      exact resumes.coherent mode (step.1.coherent inductionHypothesis.running)

/-- VIP tells of the INTR line, which is high wherever INTR is not 0. -/
def Vm.VipTells (vm : Vm) : Prop := EFlags.vip vm.context.eflags = decide (vm.intr ≠ 0)

/-- The lowest bit of INTR tells of the line, as in 0 and 1. -/
def Vm.LineTold (vm : Vm) : Prop := vm.intr = 0 ∨ vm.intr.getLsbD 0 = true

private theorem FlagsCoherent.vipTells_iff {vm : Vm} (flags : FlagsCoherent vm) :
    vm.VipTells ↔ vm.LineTold := by
  rw [VipTells, LineTold, flags.vip]
  by_cases low : vm.intr = 0
  · simp [low]
  · rw [decide_eq_true low]
    exact (or_iff_right low).symm

/-- Where the lowest bit of INTR tells of the line, it does so after the program too. -/
abbrev TellsLine {α : Type} (program : Mon α) : Prop :=
  Keeps Vm.LineTold (fun _ _ => True) program

section TellsLine

private theorem picIrqMaster_tells (irqNum : Bit32u) : TellsLine (picIrqMaster irqNum) := by
  apply Keeps.modify
  intro vm told
  cases signals : (vm.picMaster.request (irqBit irqNum)).2 with
  | false => simpa [LineTold, signals] using told
  | true => simp [LineTold, signals]

private theorem panicWhen_tells {cond : Prop} [Decidable cond] {format : String}
    {args : List Bit32u} : TellsLine (panicWhen cond format args) :=
  panicWhen_keeps fun _ _ => trivial

private theorem picIrq_tells (irqNum : Bit32u) : TellsLine (picIrq irqNum) := by
  apply Keeps.bind panicWhen_tells
  intro _
  apply Keeps.ite (fun master => picIrqMaster_tells irqNum)
  intro slave
  apply Keeps.get_bind
  intro vm told
  apply Keeps.bind
  · exact .modify fun _ told => told
  · intro _
    exact .ite (fun signals => picIrqMaster_tells 2) fun quiet => .pure

private theorem pitExpireTimer_tells (pitClocks : Bit32u) (pitID : Fin 3) :
    TellsLine (pitExpireTimer pitClocks pitID) := by
  apply Keeps.get_bind
  intro vm told
  apply Keeps.bind panicWhen_tells
  intro _
  apply Keeps.bind
  · exact .modify fun _ told => told
  · intro _
    exact .ite (fun expired => picIrq_tells 0) fun counting => .pure

private theorem pitExpireClocks_tells (pitClocks : Bit32u) :
    TellsLine (pitExpireClocks pitClocks) := by
  apply Keeps.bind (pitExpireTimer_tells pitClocks 0)
  intro _
  apply Keeps.bind (pitExpireTimer_tells pitClocks 1)
  intro _
  exact pitExpireTimer_tells pitClocks 2

private theorem preGuestClock_tells : TellsLine preGuestClock := by
  apply Keeps.bind
  · exact .modify fun _ told => told
  · intro _
    apply Keeps.get_bind
    intro vm told
    apply Keeps.ite ?_ fun early => .pure
    intro passed
    exact .bind (.modify fun _ told => told) fun _ => pitExpireClocks_tells _

private theorem preGuestHal_tells : TellsLine preGuestHal := by
  apply Keeps.get_bind
  intro vm told
  apply Keeps.ite ?_ fun empty => .pure
  intro mail
  apply Keeps.bind
  · exact .modify fun _ told => told
  · intro _
    exact .bind panicWhen_tells fun _ => picIrq_tells _

private theorem withSegment_intr (vm : Vm) (segno : SReg) (sel : Selector) :
    (vm.withSegment segno sel).intr = vm.intr := by
  unfold withSegment
  split <;> rfl

/-- An interrupt of the guest leaves the line alone. -/
private theorem interrupted_intr (vm : Vm) (vector intFlags errorCode : Bit32u) :
    (vm.interrupted vector intFlags errorCode).intr = vm.intr := by
  have opened (csSel : Selector) (csDesc : Descriptor) :
      (vm.frameOpened csSel csDesc).intr = vm.intr := by
    unfold frameOpened
    split
    · simp only [stackPushed, stored, switched, withSegment_intr, turned]
    · rfl
  have pushed (opened : Vm) (fromCPL : BitVec 2) (eflags : Bit32u) :
      (opened.framePushed fromCPL eflags intFlags errorCode).intr = opened.intr := by
    unfold framePushed
    split <;> rfl
  simp only [interrupted, resumed, withSegment_intr, handlerEntered, interruptFramed, pushed, opened]

/-- The acknowledgement lowers the line, and the interrupt leaves it so. -/
private theorem acceptInterrupt_told {vm next : Vm} (told : vm.LineTold)
    (run : acceptInterrupt vm = .ok () next) : next.LineTold := by
  rw [acceptInterrupt, get_bind_apply, Logic.ite_apply] at run
  split at run
  · obtain ⟨vector, acknowledged, iac, entered⟩ := bind_ok.mp run
    obtain ⟨-, -, -, -, lowered⟩ := picIAC_ok iac
    obtain ⟨-, -, seen⟩ := (doGuestInterrupt_does vector 0 0 acknowledged.core).ok entered
    have kept : next.intr = acknowledged.intr := by
      change next.core.intr = _
      rw [seen, interrupted_intr]
      rfl
    rw [LineTold, kept, lowered]
    exact .inl rfl
  · cases run
    exact told

private theorem preGuest_told {vm next : Vm} (told : vm.LineTold)
    (run : preGuest vm = .ok () next) : next.LineTold := by
  obtain ⟨_, clocked, clock, run⟩ := bind_ok.mp run
  obtain ⟨_, called, hal, run⟩ := bind_ok.mp run
  obtain ⟨_, last, delivered, run⟩ := bind_ok.mp run
  have sampled := preGuestHal_tells.returns (preGuestClock_tells.returns told clock) hal
  have same : last = next := by
    rw [get_bind_apply, Logic.ite_apply] at run
    split at run
    · cases run
    · cases run
      rfl
  subst same
  rw [preGuestInterrupt, get_bind_apply, Logic.ite_apply] at delivered
  split at delivered
  · obtain ⟨_, accepted, accept, pending⟩ := bind_ok.mp delivered
    have settled : accepted.LineTold := acceptInterrupt_told sampled accept
    cases pending
    exact settled
  · cases delivered
    exact sampled

end TellsLine

/-- In every state that a Linux guest is resumed in its flags and its privilege
level go together. VIP tells of the INTR line exactly where the lowest bit of INTR
does, as it goes on doing where it has done so when `preGuest` was called. -/
theorem flags_coherent {reg : Registration} {past : List (Moment Vm Trap)} {vm : Vm}
    (run : GuestRun reg past vm) (linux : reg.linuxVMMode = true) :
    FlagsCoherent vm ∧ (vm.VipTells ↔ vm.LineTold) ∧
      ∀ called, preGuest called = .ok () vm → called.LineTold → vm.VipTells := by
  have flags := GuestRun.flags run linux
  refine ⟨flags, flags.vipTells_iff, fun called resumed told => ?_⟩
  exact flags.vipTells_iff.mpr (preGuest_told told resumed)

/-- The kernel faults, and then returns to user code. -/
theorem flags_coherent_sample : ∃ (past : List (Moment Vm Trap)) (vm : Vm),
    past.length = 2 ∧ vm.guestCPL = 3 ∧ FlagsCoherent vm ∧ vm.VipTells := by
  let check (played : List (Moment Vm Trap) × Vm) : Bool :=
    decide (played.1.length = 2) && decide (played.2.guestCPL = 3) && decide (played.2.intr = 0)
  have checked : (play (Sample.boot false)
      [Sample.fault 0x9000 0, { cause := .fault (.iret Sample.visit) }]).any check = true := by
    decide +kernel
  obtain ⟨past, vm, run, found⟩ := play_reaches (Sample.boot_registered false) checked
  simp only [check, Bool.and_eq_true, decide_eq_true_eq] at found
  obtain ⟨⟨two, user⟩, low⟩ := found
  obtain ⟨flags, tells, -⟩ := flags_coherent run rfl
  exact ⟨past, vm, two, user, flags, tells.mpr (.inl low)⟩

/-- User space hands over 2 for the INTR line. The line counts as high, and VIP is off. -/
theorem vip_loses_line : ∃ vm, GuestRun Sample.reg [] vm ∧ vm.intr = 2 ∧
    EFlags.vip vm.context.eflags = false ∧ bit (EFlags.vip vm.context.eflags) ≠ vm.intr ∧
    ¬ vm.VipTells := by
  let boot : Vm := { Sample.boot true with guestCpu := { Sample.cpu true with intr := 2 } }
  have registered : Sample.reg.Registered boot :=
    ⟨Sample.reg_valid, { Sample.cpu true with intr := 2 }, Sample.memory, 0, 0, rfl⟩
  let check (played : List (Moment Vm Trap) × Vm) : Bool :=
    played.1.isEmpty && decide (played.2.intr = 2) && !EFlags.vip played.2.context.eflags
  have checked : (play boot []).any check = true := by decide +kernel
  obtain ⟨past, vm, run, found⟩ := play_reaches registered checked
  simp only [check, Bool.and_eq_true, decide_eq_true_eq, Bool.not_eq_true',
    List.isEmpty_iff] at found
  obtain ⟨⟨rfl, line⟩, off⟩ := found
  refine ⟨vm, run, line, off, ?_, ?_⟩
  · rw [off, line]
    decide
  · rw [VipTells, off, line]
    decide

end Plex86
