import Plex86.Monitor.GuestFault
import Plex86.Monitor.InstructionSpec
import Plex86.Monitor.Moves

/-! What the handling of a fault does to the virtual machine, whatever instruction is
emulated for it: operations of the monitor, one after another, and in between only
what native execution may do as well. -/

namespace Plex86

open Logic Vm

/-- One thing that the handling of a fault does. -/
inductive Deed (vm next : Vm) : Prop
  | op (op : MonOp) (run : op.run vm = .ok () next)
  | registers (native : Native vm next)

abbrev Deeds : Vm → Vm → Prop := Relation.ReflTransGen Deed

section Registers

variable {vm next : Vm}

theorem Native.of_context {context : GuestStackContext}
    (flags : context.eflags = vm.context.eflags) : Native vm { vm with context } := by
  constructor
  case if_ | iopl | vm86 | vip => simp only [flags]
  case vif => simp [flags]
  all_goals rfl

private theorem Native.of_cpu {guestCpu : GuestCpu} (pg : guestCpu.pg = vm.guestCpu.pg)
    (wp : guestCpu.wp = vm.guestCpu.wp) (cr3 : guestCpu.cr3 = vm.guestCpu.cr3) :
    Native vm { vm with guestCpu } := by
  constructor
  case pg => exact pg
  case wp => exact wp
  case cr3 => exact cr3
  case vif => exact fun _ => rfl
  all_goals rfl

/-- The devices are none of its business. -/
theorem Native.of_devices (same : next.offDevices = vm.offDevices) : Native vm next := by
  have kept {α : Type} (view : Vm → α) (blind : ∀ vm, view vm.offDevices = view vm) :
      view next = view vm := by
    rw [← blind next, same, blind]
  constructor
  case setup => exact kept Vm.setup fun _ => rfl
  case guestCPL => exact kept Vm.guestCPL fun _ => rfl
  case monCr4 => exact kept Vm.monCr4 fun _ => rfl
  case gdt => exact kept Vm.gdt fun _ => rfl
  case vmState => exact kept Vm.vmState fun _ => rfl
  case shadow => exact kept Vm.shadow fun _ => rfl
  case nexus => exact kept Vm.nexusPageTbl fun _ => rfl
  case pins => exact kept Vm.pins fun _ => rfl
  case calls => exact kept Vm.hostCalls fun _ => rfl
  case accesses => exact kept Vm.accesses fun _ => rfl
  case pg => exact kept (fun vm => vm.guestCpu.pg) fun _ => rfl
  case wp => exact kept (fun vm => vm.guestCpu.wp) fun _ => rfl
  case cr3 => exact kept (fun vm => vm.guestCpu.cr3) fun _ => rfl
  case if_ => exact kept (fun vm => EFlags.if_ vm.context.eflags) fun _ => rfl
  case iopl => exact kept (fun vm => EFlags.iopl vm.context.eflags) fun _ => rfl
  case vm86 => exact kept (fun vm => EFlags.vm vm.context.eflags) fun _ => rfl
  case vip => exact kept (fun vm => EFlags.vip vm.context.eflags) fun _ => rfl
  case vif => exact fun _ => kept (fun vm => EFlags.vif vm.context.eflags) fun _ => rfl

end Registers

/-- The emulation code does only such things. -/
abbrev Acts {Value : Type} (start : Vm) (program : Emu Value) : Prop :=
  Keeps (fun machine => Deeds start machine.vm) (fun _ _ => True) program

namespace Acts

variable {start : Vm} {Value : Type}

theorem onVm {program : Mon Value}
    (deeds : ∀ vm value next, program vm = .ok value next → Deeds vm next) :
    Acts start (onVm program) := by
  intro machine here
  rw [Plex86.onVm]
  cases run : program machine.vm with
  | ok value next => exact here.trans (deeds _ _ _ run)
  | error stop last => trivial

theorem op {program : Mon Value} (op : MonOp)
    (same : ∀ vm value next, program vm = .ok value next → op.run vm = .ok () next) :
    Acts start (Plex86.onVm program) :=
  onVm fun vm value next run => .single (.op op (same vm value next run))

theorem panics {format : String} {args : List Bit32u} :
    Acts start (emuPanic format args : Emu Value) :=
  .throw fun _ _ => trivial

theorem devices {program : Mon Value} (devices : ∀ off, DevicesOnly off program) :
    Acts start (Plex86.onVm program) :=
  onVm fun vm _ _ run =>
    .single (.registers (.of_devices ((devices vm.offDevices).returns rfl run)))

/-- The rest of the machine does not count. -/
theorem elsewhere {change : Machine → Machine} (same : ∀ machine, (change machine).vm = machine.vm) :
    Acts start (modify change) :=
  .modify fun machine here => by rwa [same]

theorem context {change : Machine → Machine} (context : Machine → GuestStackContext)
    (flags : ∀ machine, (context machine).eflags = machine.vm.context.eflags)
    (same : ∀ machine, (change machine).vm = { machine.vm with context := context machine }) :
    Acts start (modify change) := by
  refine .modify fun machine here => ?_
  rw [same]
  exact here.tail (.registers (.of_context (flags machine)))

theorem object (lAddr len : Bit32u) (small : len ≤ 0x1000#32) :
    Acts start (Plex86.onVm (getObjectLAddr lAddr len)) :=
  op (.access (.object lAddr len small)) fun _ _ _ run => bind_ok.mpr ⟨_, _, run, rfl⟩

theorem dword (lAddr : Bit32u) : Acts start (Plex86.onVm (getGuestDWord lAddr)) :=
  op (.access (.dword lAddr)) fun _ _ _ run => bind_ok.mpr ⟨_, _, run, rfl⟩

theorem word (lAddr : Bit32u) : Acts start (Plex86.onVm (getGuestWord lAddr)) :=
  op (.access (.word lAddr)) fun _ _ _ run => bind_ok.mpr ⟨_, _, run, rfl⟩

theorem descBySel (selector : Selector) (updateBusyBit : Bool) :
    Acts start (Plex86.onVm (fetchGuestDescBySel selector updateBusyBit)) :=
  op (.access (.descBySel selector updateBusyBit)) fun _ _ _ run => bind_ok.mpr ⟨_, _, run, rfl⟩

theorem segment (sreg : SReg) (selector : Selector) :
    Acts start (Plex86.onVm (loadGuestSegment sreg selector)) :=
  op (.loadSegment sreg selector) fun _ _ _ run => run

theorem interrupt (vector intFlags errorCode : Bit32u) :
    Acts start (Plex86.onVm (doGuestInterrupt vector intFlags errorCode)) :=
  op (.interrupt vector intFlags errorCode) fun _ _ _ run => run

theorem genReg (regno : BitVec 3) : Acts start (Emu.genReg regno) :=
  .get_bind fun _ _ => .pure

private theorem setGenReg_eflags (context : GuestStackContext) (val : Bit32u) :
    ∀ index, (context.setGenReg val index).eflags = context.eflags
  | 0 => rfl
  | 1 => rfl
  | 2 => rfl
  | 3 => rfl
  | 4 => rfl
  | 5 => rfl
  | 6 => rfl
  | 7 => rfl

theorem setGenReg (regno : BitVec 3) (val : Bit32u) : Acts start (Emu.setGenReg regno val) :=
  context _ (fun machine => setGenReg_eflags machine.vm.context val regno.toFin) fun _ => rfl

theorem commit (iLen : Nat) : Acts start (Emu.commit iLen) :=
  context (fun machine =>
    { machine.vm.context with eip := machine.vm.context.eip + BitVec.ofNat 32 iLen })
    (fun _ => rfl) fun _ => rfl

private theorem advance (iLen : Nat) : Acts start (Emu.advanceInstruction iLen) :=
  .bind (commit iLen) fun _ => .pure

theorem onCpu {change : GuestCpu → GuestCpu} (pg : ∀ cpu, (change cpu).pg = cpu.pg)
    (wp : ∀ cpu, (change cpu).wp = cpu.wp) (cr3 : ∀ cpu, (change cpu).cr3 = cpu.cr3) :
    Acts start (Emu.onCpu change) :=
  .modify fun _ here => here.tail (.registers (.of_cpu (pg _) (wp _) (cr3 _)))

section Instructions

variable {opcode : List Bit8u}

theorem byteAt (place : Nat) : Acts start (Emu.byteAt opcode place) := by
  unfold Emu.byteAt
  split
  · exact .pure
  · exact .throw fun _ _ => trivial

theorem wordAt (place : Nat) : Acts start (Emu.wordAt opcode place) :=
  .bind (byteAt _) fun _ => .bind (byteAt _) fun _ => .pure

theorem dwordAt (place : Nat) : Acts start (Emu.dwordAt opcode place) :=
  .bind (wordAt _) fun _ => .bind (wordAt _) fun _ => .pure

theorem decodeModRM (place : Nat) : Acts start (Emu.decodeModRM opcode place) := by
  refine .bind (byteAt _) fun modrm => .ite (fun _ => .pure) fun _ => .ite (fun _ => ?_) fun _ => ?_
  · refine .ite (fun _ => .ite (fun _ => ?_) fun _ => ?_) fun _ =>
      .ite (fun _ => panics) fun _ => panics
    · exact .bind (dwordAt _) fun _ => .pure
    · exact .bind (genReg _) fun _ => .pure
  · refine .bind (byteAt _) fun sib => .ite (fun _ => .ite (fun _ => panics) fun _ => ?_) fun _ => panics
    exact .bind (genReg _) fun _ => .bind (genReg _) fun _ => .pure

theorem selectorOperand (modRM : ModRM) : Acts start (Emu.selectorOperand modRM) :=
  .ite (fun _ => .bind (genReg _) fun _ => .pure) fun _ => .bind (word _) fun _ => .pure

theorem lldtEw (modRM : ModRM) (iLen : Nat) : Acts start (Emu.lldtEw modRM iLen) :=
  .bind (selectorOperand modRM) fun _ => .ite
    (fun _ => .bind (elsewhere fun _ => rfl) fun _ => advance iLen)
    fun _ => .bind (elsewhere fun _ => rfl) fun _ => advance iLen

theorem ltrEw (modRM : ModRM) (iLen : Nat) : Acts start (Emu.ltrEw modRM iLen) := by
  have task (change : GuestCpu → GuestSReg) :
      Acts start (Emu.onCpu fun cpu => { cpu with tr := change cpu }) :=
    onCpu (fun _ => rfl) (fun _ => rfl) fun _ => rfl
  refine .bind (selectorOperand modRM) fun selector => .ite (fun _ => ?_) fun _ =>
    .ite (fun _ => panics) fun _ => ?_
  · exact .bind (task _) fun _ => advance iLen
  · refine .bind (descBySel _ _) fun desc => .ite (fun _ => panics) fun _ => ?_
    exact .bind (task _) fun _ => advance iLen

theorem tableOperand (modRM : ModRM) : Acts start (Emu.tableOperand modRM) :=
  .bind (word _) fun _ => .bind (dword _) fun _ => .pure

theorem lgdtMs (modRM : ModRM) (iLen : Nat) : Acts start (Emu.lgdtMs modRM iLen) :=
  .ite (fun _ => panics) fun _ => .bind (tableOperand modRM) fun _ =>
    .bind (onCpu (fun _ => rfl) (fun _ => rfl) fun _ => rfl) fun _ => advance iLen

theorem lidtMs (modRM : ModRM) (iLen : Nat) : Acts start (Emu.lidtMs modRM iLen) :=
  .ite (fun _ => panics) fun _ => .bind (tableOperand modRM) fun _ =>
    .bind (onCpu (fun _ => rfl) (fun _ => rfl) fun _ => rfl) fun _ => advance iLen

theorem invlpg (modRM : ModRM) (iLen : Nat) : Acts start (Emu.invlpg modRM iLen) :=
  .ite (fun _ => .pure) fun _ =>
    .bind (op (.invalidate modRM.addr) fun _ _ _ run => run) fun _ => advance iLen

theorem group6 (place : Nat) : Acts start (Emu.group6 opcode place) :=
  .bind (decodeModRM place) fun _ => .ite (fun _ => lldtEw _ _) fun _ =>
    .ite (fun _ => ltrEw _ _) fun _ => panics

theorem group7 (place : Nat) : Acts start (Emu.group7 opcode place) :=
  .bind (decodeModRM place) fun _ => .ite (fun _ => lgdtMs _ _) fun _ =>
    .ite (fun _ => lidtMs _ _) fun _ => .ite (fun _ => invlpg _ _) fun _ => panics

/-- TS is none of the bits that paging goes by. -/
theorem clts (iLen : Nat) : Acts start (Emu.clts iLen) := by
  have other (cr0 : Bit32u) (place : Nat) (apart : (~~~(1#32 <<< 3)).getLsbD place = true) :
      (cr0 &&& ~~~(1#32 <<< 3)).getLsbD place = cr0.getLsbD place := by
    rw [BitVec.getLsbD_and, apart, Bool.and_true]
  exact .bind (onCpu (fun cpu => other cpu.cr0 31 rfl) (fun cpu => other cpu.cr0 16 rfl)
    fun _ => rfl) fun _ => advance iLen

theorem getCRx (nnn : BitVec 3) : Acts start (Emu.getCRx nnn) :=
  .get_bind fun _ _ => .ite (fun _ => .pure) fun _ => .ite (fun _ => .pure) fun _ =>
    .ite (fun _ => .pure) fun _ => .ite (fun _ => .pure) fun _ => panics

theorem movRdCd (place : Nat) : Acts start (Emu.movRdCd opcode place) :=
  .bind (byteAt _) fun _ => .ite (fun _ => panics) fun _ => .bind (getCRx _) fun _ =>
    .bind (setGenReg _ _) fun _ => advance _

theorem movCdRd (place : Nat) : Acts start (Emu.movCdRd opcode place) :=
  .bind (decodeModRM place) fun _ => .ite (fun _ => panics) fun _ => .bind (genReg _) fun _ =>
    .bind (op (.setCRx _ _) fun _ _ _ run => run) fun _ => advance _

theorem movDdRd (place : Nat) : Acts start (Emu.movDdRd opcode place) :=
  .bind (decodeModRM place) fun _ => .ite (fun _ => panics) fun _ => advance _

theorem wrmsr (iLen : Nat) : Acts start (Emu.wrmsr iLen) := by
  have written : Acts start Emu.doWRMSR := by
    refine .bind (genReg _) fun ecx => .bind (genReg _) fun eax => ?_
    exact .ite (fun _ => elsewhere fun _ => rfl) fun _ => .ite (fun _ => elsewhere fun _ => rfl)
      fun _ => .ite (fun _ => elsewhere fun _ => rfl) fun _ => panics
  exact .bind written fun _ => advance iLen

theorem rdtsc (iLen : Nat) : Acts start (Emu.rdtsc iLen) :=
  .get_bind fun _ _ => .bind (setGenReg _ _) fun _ => .bind (setGenReg _ _) fun _ =>
    .bind (elsewhere fun _ => rfl) fun _ => advance iLen

theorem lssGvMp (place : Nat) : Acts start (Emu.lssGvMp opcode place) :=
  .bind (decodeModRM place) fun _ => .ite (fun _ => panics) fun _ => .bind (dword _) fun _ =>
    .bind (word _) fun _ => .bind (segment _ _) fun _ => .bind (setGenReg _ _) fun _ => advance _

theorem escape (place : Nat) : Acts start (Emu.escape opcode place) :=
  .bind (byteAt _) fun _ => .ite (fun _ => group6 _) fun _ => .ite (fun _ => group7 _) fun _ =>
    .ite (fun _ => clts _) fun _ => .ite (fun _ => movRdCd _) fun _ =>
    .ite (fun _ => movCdRd _) fun _ => .ite (fun _ => movDdRd _) fun _ =>
    .ite (fun _ => wrmsr _) fun _ => .ite (fun _ => rdtsc _) fun _ =>
    .ite (fun _ => lssGvMp _) fun _ => panics

theorem popDs (wide : Bool) (iLen : Nat) : Acts start (Emu.popDs wide iLen) :=
  .ite (fun _ => panics) fun _ => .bind (genReg _) fun _ => .bind (word _) fun _ =>
    .bind (segment _ _) fun _ => .bind (genReg _) fun _ => .bind (setGenReg _ _) fun _ => advance _

theorem movSwEw (place : Nat) : Acts start (Emu.movSwEw opcode place) := by
  refine .bind (byteAt _) fun modrm => ?_
  cases Emu.dataSReg (modrm.extractLsb' 3 3) with
  | none => exact panics
  | some sreg =>
      exact .ite (fun _ => .bind (genReg _) fun _ => .bind (segment _ _) fun _ => advance _)
        fun _ => panics

theorem intIb (visit : UserVisit) (place : Nat) : Acts start (Emu.intIb opcode visit place) :=
  .bind (byteAt _) fun _ => .bind (commit _) fun _ => .ite
    (fun _ => .bind (op (.halCall visit) fun _ _ _ run => run) fun _ => .pure)
    fun _ => .bind (interrupt _ _ _) fun _ => .pure

theorem iret (visit : UserVisit) : Acts start (Emu.iret visit) :=
  .bind (op (.iret visit) fun _ _ _ run => run) fun _ => .pure

theorem esc3 (place : Nat) : Acts start (Emu.esc3 opcode place) :=
  .bind (byteAt _) fun _ => .ite (fun _ => advance _) fun _ => .pure

theorem esc7 (place : Nat) : Acts start (Emu.esc7 opcode place) :=
  .bind (byteAt _) fun _ => .ite (fun _ => .bind (setGenReg _ _) fun _ => advance _) fun _ => .pure

theorem cmosInp (port : Bit32u) : Acts start (cmosInp port) := by
  refine .look_bind fun machine here => .ite (fun _ => .ite (fun _ => panics) fun _ => ?_) fun _ => panics
  have stored (next : Machine) (same : next.vm = machine.vm) : Acts start (set next) :=
    .modify fun _ _ => by rwa [same]
  exact Keeps.bind (stored _ rfl) fun _ => Keeps.pure

theorem vgaInp (port : Bit32u) : Acts start (vgaInp port) :=
  .get_bind fun _ _ => .ite (fun _ => .ite (fun _ => .pure) fun _ => .pure) fun _ =>
    .ite (fun _ => .pure) fun _ => panics

theorem inp (iolen port : Bit32u) : Acts start (inp iolen port) :=
  .ite (fun _ => devices fun _ => picInp_devices port) fun _ =>
    .ite (fun _ => devices fun _ => pitInp_devices port) fun _ =>
      .ite (fun _ => cmosInp port) fun _ => .ite (fun _ => vgaInp port) fun _ => panics

theorem vgaOutpByte (port val : Bit32u) : Acts start (vgaOutpByte port val) := by
  refine .ite (fun _ => .bind (elsewhere fun _ => rfl) fun _ => ?_) fun _ =>
    .ite (fun _ => ?_) fun _ => .pure
  · exact .ite (fun _ => panics) fun _ => .pure
  · exact .look_bind fun machine here => .ite (fun _ => panics) fun _ => .modify fun _ _ => here

theorem vgaOutp (iolen port val : Bit32u) : Acts start (vgaOutp iolen port val) :=
  .ite (fun _ => .bind (vgaOutpByte _ _) fun _ => vgaOutpByte _ _) fun _ => vgaOutpByte _ _

theorem outp (iolen port val : Bit32u) : Acts start (outp iolen port val) :=
  .ite (fun _ => devices fun _ => picOutp_devices port val) fun _ =>
    .ite (fun _ => devices fun _ => pitOutp_devices port val) fun _ =>
    .ite (fun _ => devices fun _ => pitOutp_devices port val) fun _ =>
    .ite (fun _ => .ite (fun _ => elsewhere fun _ => rfl) fun _ => panics) fun _ =>
    .ite (fun _ => elsewhere fun _ => rfl) fun _ => .ite (fun _ => vgaOutp _ _ _) fun _ =>
    .ite (fun _ => .pure) fun _ => panics

theorem inByte (port : Bit32u) (iLen : Nat) : Acts start (Emu.inByte port iLen) :=
  .bind (inp _ _) fun _ => .bind (genReg _) fun _ => .bind (setGenReg _ _) fun _ => advance _

theorem outByte (port : Bit32u) (iLen : Nat) : Acts start (Emu.outByte port iLen) :=
  .bind (genReg _) fun _ => .bind (outp _ _ _) fun _ => advance _

theorem portDX : Acts start Emu.portDX :=
  .bind (genReg _) fun _ => .pure

theorem outDXeAX (wide : Bool) (iLen : Nat) : Acts start (Emu.outDXeAX wide iLen) :=
  .bind portDX fun _ => .bind (genReg _) fun _ => .ite
    (fun _ => .bind (outp _ _ _) fun _ => advance _) fun _ => .bind (outp _ _ _) fun _ => advance _

theorem jmpAp (place : Nat) : Acts start (Emu.jmpAp opcode place) :=
  .bind (dwordAt _) fun offset => .bind (wordAt _) fun _ => .bind (segment _ _) fun _ =>
    .bind (context (fun machine => { machine.vm.context with eip := offset }) (fun _ => rfl)
      fun _ => rfl) fun _ => .pure

theorem hlt (patience iLen : Nat) : Acts start (Emu.hlt patience iLen) :=
  .get_bind fun _ _ => .ite (fun _ => panics) fun _ =>
    .bind (devices fun _ => hltLoop_devices patience) fun _ =>
      .ite (fun _ => advance _) fun _ => .throw fun _ _ => trivial

/-- Once the instruction is stepped over, STI is the operation with no length. -/
theorem sti (iLen : Nat) : Acts start (Emu.sti iLen) := by
  refine .bind (commit iLen) fun _ => .bind (op (.sti 0#32) fun vm _ next run => ?_) fun _ => .pure
  simpa only [MonOp.run, emulateSTI, BitVec.add_zero] using run

theorem execute (surroundings : Surroundings) (wide : Bool) (b0 : Bit8u) (place : Nat) :
    Acts start (Emu.execute opcode surroundings wide b0 place) :=
  .ite (fun _ => escape _) fun _ => .ite (fun _ => popDs _ _) fun _ =>
    .ite (fun _ => movSwEw _) fun _ => .ite (fun _ => intIb _ _) fun _ =>
    .ite (fun _ => iret _) fun _ => .ite (fun _ => esc3 _) fun _ => .ite (fun _ => esc7 _) fun _ =>
    .ite (fun _ => .bind (byteAt _) fun _ => inByte _ _) fun _ =>
    .ite (fun _ => .bind (byteAt _) fun _ => outByte _ _) fun _ => .ite (fun _ => jmpAp _) fun _ =>
    .ite (fun _ => .bind portDX fun _ => inByte _ _) fun _ =>
    .ite (fun _ => .bind portDX fun _ => outByte _ _) fun _ => .ite (fun _ => outDXeAX _ _) fun _ =>
    .ite (fun _ => hlt _ _) fun _ => .ite (fun _ => sti _) fun _ => panics

theorem decodeOpcode (surroundings : Surroundings) (iLen : Nat) (wide : Bool) :
    Acts start (Emu.decodeOpcode opcode surroundings iLen wide) := by
  induction iLen, wide using Emu.decodeOpcode.induct with
  | case1 iLen wide inductionHypothesis =>
      rw [Emu.decodeOpcode]
      refine .bind (byteAt _) fun b0 => .ite (fun _ => ?_) fun _ => execute _ _ _ _
      split
      · next first => exact inductionHypothesis b0 first
      · exact .pure

end Instructions

theorem emulateSysInstr (surroundings : Surroundings) : Acts start (emulateSysInstr surroundings) :=
  .get_bind fun _ _ => .bind (object _ _ (by decide)) fun _ => decodeOpcode _ _ _

theorem emulateUserInstr : Acts start emulateUserInstr :=
  .get_bind fun _ _ => .bind (object _ _ (by decide)) fun _ => .bind (byteAt _) fun _ => .ite
    (fun _ => .bind (byteAt _) fun _ => .bind (commit _) fun _ => interrupt _ _ _) fun _ => panics

theorem doGuestFault (surroundings : Surroundings) (fault errorCode : Bit32u) :
    Acts start (doGuestFault surroundings fault errorCode) := by
  have emulated (message : String) : Acts start (emulateOrPanic surroundings message) :=
    .bind (emulateSysInstr _) fun _ => .ite (fun _ => .pure) fun _ => panics
  refine .get_bind fun machine _ => .ite (fun _ => .ite (fun _ => emulated _) fun _ => emulateUserInstr)
    fun _ => .ite (fun _ => .ite (fun _ => emulated _) fun _ => interrupt _ _ _) fun _ =>
      .ite (fun _ => onVm fun vm _ next run => ?_) fun _ => panics
  rw [doGuestFaultPF, get_bind_apply] at run
  exact .single (.op (.interrupt _ _ _) run)

theorem dispatchFault (surroundings : Surroundings) (cr2 vector : Bit32u) :
    Acts start (dispatchFault surroundings cr2 vector) :=
  .ite (fun _ => panics) fun _ => .ite (fun _ => panics) fun _ =>
    .ite (fun _ => doGuestFault _ _ _) fun _ => .ite (fun _ => panics) fun _ =>
    .ite (fun _ => op (.pageFault cr2) fun _ _ _ run => run) fun _ => panics

end Acts
end Plex86
