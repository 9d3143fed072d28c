import Plex86.Emulate.GuestSpec
import Plex86.Monitor.InstructionSpec

namespace Plex86

open Logic Vm

/-- The ModRM byte with its SIB byte and displacement, in 32-bit addressing. -/
def modRMLength (opcode : List Bit8u) (place : Nat) : Nat :=
  let modrm := opcode.getD place 0
  let mod := modrm.extractLsb' 6 2
  let rm := modrm.extractLsb' 0 3
  let base := (opcode.getD (place + 1) 0).extractLsb' 0 3
  let displacement :=
    if mod = 1 then 1
    else if mod = 2 then 4
    else if rm = 5 ∨ (rm = 4 ∧ base = 5) then 4
    else 0
  if mod = 3 then 1 else if rm = 4 then 2 + displacement else 1 + displacement

/-- What follows an opcode. -/
inductive Operands
  | none | modRM | byte | pointer
deriving DecidableEq

def Operands.length (opcode : List Bit8u) (place : Nat) : Operands → Nat
  | none => 0
  | modRM => modRMLength opcode place
  | byte => 1
  | pointer => 6

def operandsOf (b0 : Bit8u) : Operands :=
  if b0 = 0x8e ∨ b0 = 0xdb ∨ b0 = 0xdf then .modRM
  else if b0 = 0xcd ∨ b0 = 0xe4 ∨ b0 = 0xe6 then .byte
  else if b0 = 0xea then .pointer
  else .none

/-- After the escape byte. -/
def escapedOperandsOf (b1 : Bit8u) : Operands :=
  if b1 = 0x00 ∨ b1 = 0x01 ∨ b1 = 0x20 ∨ b1 = 0x22 ∨ b1 = 0x23 ∨ b1 = 0xb2 then .modRM else .none

/-- The length from the opcode on. -/
def opcodeLength (opcode : List Bit8u) (place : Nat) : Nat :=
  if opcode.getD place 0 = 0x0f then
    2 + (escapedOperandsOf (opcode.getD (place + 1) 0)).length opcode (place + 2)
  else 1 + (operandsOf (opcode.getD place 0)).length opcode (place + 1)

/-- The length of the instruction at the front, with one prefix if it has one. -/
def encodedLength (opcode : List Bit8u) : Nat :=
  if Emu.isPrefix (opcode.getD 0 0) then 1 + opcodeLength opcode 1 else opcodeLength opcode 0

/-- The opcode byte, behind the prefix if there is one. -/
def opcodeByte (opcode : List Bit8u) : Bit8u :=
  if Emu.isPrefix (opcode.getD 0 0) then opcode.getD 1 0 else opcode.getD 0 0

/-- INT and STI go on to deliver an interrupt when they have been stepped over. -/
def Delivers (b0 : Bit8u) : Prop := b0 = 0xcd ∨ b0 = 0xfb

/-- IRET and the far JMP load EIP and are not stepped over. -/
def Jumps (b0 : Bit8u) : Prop := b0 = 0xcf ∨ b0 = 0xea

/-- Where an instruction begins, the steps taken before it, its length, and whether
it goes on to deliver an interrupt or loads EIP itself. -/
structure Ledger where
  eip : Bit32u
  log : List (Bit32u × Bit32u)
  len : Nat
  delivers : Prop
  jumps : Prop

namespace Ledger

/-- EIP before and after the instruction is stepped over. -/
def entry (ledger : Ledger) : Bit32u × Bit32u :=
  (ledger.eip, ledger.eip + BitVec.ofNat 32 ledger.len)

/-- The instruction has not been stepped over yet. -/
def Pending (ledger : Ledger) (machine : Machine) : Prop :=
  machine.vm.context.eip = ledger.eip ∧ machine.advanced = ledger.log

/-- It has. -/
def Entered (ledger : Ledger) (machine : Machine) : Prop :=
  machine.advanced = ledger.entry :: ledger.log

/-- EIP is where it was, or the instruction was stepped over by its length; an
instruction that jumps or delivers an interrupt then has EIP elsewhere. -/
def Balanced (ledger : Ledger) (machine : Machine) : Prop :=
  (machine.advanced = ledger.log ∧ (ledger.jumps ∨ machine.vm.context.eip = ledger.eip)) ∨
    (ledger.Entered machine ∧ (ledger.delivers ∨ machine.vm.context.eip = ledger.entry.2))

/-- The emulation stopped, but not because it read too far. -/
def Stopped (ledger : Ledger) (stop : EmuStop) (machine : Machine) : Prop :=
  stop ≠ .overrun ∧ (machine.advanced = ledger.log ∨ ledger.Entered machine)

/-- Code that does not step over the instruction. -/
abbrev Steady {Value : Type} (ledger : Ledger) (program : Emu Value) : Prop :=
  Ensures ledger.Pending program (fun _ => ledger.Pending) ledger.Stopped

/-- Code that steps over the instruction at most once, and by its length. -/
abbrev Exact (ledger : Ledger) (program : Emu Bool) : Prop :=
  Ensures ledger.Pending program (fun _ => ledger.Balanced) ledger.Stopped

variable {ledger : Ledger}

theorem Pending.stopped {machine : Machine} (pending : ledger.Pending machine) {stop : EmuStop}
    (other : stop ≠ .overrun) : ledger.Stopped stop machine :=
  ⟨other, .inl pending.2⟩

private theorem steady_onVm {Value : Type} {program : Mon Value}
    (keeps : KeepsEip ledger.eip program) :
    ledger.Steady (onVm program) := by
  rintro machine ⟨here, log⟩
  have result := keeps machine.vm here
  rw [onVm]
  cases run : program machine.vm with
  | ok value next =>
      rw [run] at result
      exact ⟨result, log⟩
  | error stop last => exact ⟨nofun, .inl log⟩

theorem panics {Value : Type} {after : Value → Machine → Prop} {format : String}
    {args : List Bit32u} :
    Ensures ledger.Pending (emuPanic format args : Emu Value) after ledger.Stopped :=
  .throw fun _ pending => pending.stopped nofun

private theorem steady_genReg (regno : BitVec 3) : ledger.Steady (Emu.genReg regno) :=
  .look_bind fun _ _ => .pure fun _ pending => pending

private theorem setGenReg_eip (context : GuestStackContext) (val : Bit32u) :
    ∀ index, (context.setGenReg val index).eip = context.eip
  | 0 => rfl
  | 1 => rfl
  | 2 => rfl
  | 3 => rfl
  | 4 => rfl
  | 5 => rfl
  | 6 => rfl
  | 7 => rfl

private theorem steady_setGenReg (regno : BitVec 3) (val : Bit32u) :
    ledger.Steady (Emu.setGenReg regno val) := by
  refine .modify fun machine pending => ⟨?_, pending.2⟩
  exact (setGenReg_eip machine.vm.context val regno.toFin).trans pending.1

private theorem steady_onCpu (change : GuestCpu → GuestCpu) : ledger.Steady (Emu.onCpu change) :=
  .modify fun _ pending => pending

private theorem commit_entered {iLen : Nat} (same : iLen = ledger.len) :
    Ensures ledger.Pending (Emu.commit iLen)
      (fun _ machine => ledger.Entered machine ∧ machine.vm.context.eip = ledger.entry.2)
      ledger.Stopped := by
  refine .modify fun machine pending => ⟨?_, ?_⟩
  · change (_, _) :: machine.advanced = _
    rw [pending.1, pending.2, same]
    rfl
  · change machine.vm.context.eip + _ = _
    rw [pending.1, same]
    rfl

/-- What happens after the instruction was stepped over does not step over it again. -/
theorem entered_onVm {Value : Type} (program : Mon Value) :
    Ensures ledger.Entered (onVm program) (fun _ => ledger.Entered) ledger.Stopped := by
  intro machine entered
  rw [onVm]
  cases program machine.vm with
  | ok value next => exact entered
  | error stop last => exact ⟨nofun, .inr entered⟩

private theorem advances {iLen : Nat} (same : iLen = ledger.len) :
    ledger.Exact (Emu.advanceInstruction iLen) :=
  .bind (commit_entered same) fun _ => .pure fun _ entered => .inr ⟨entered.1, .inr entered.2⟩

/-- An interrupt is delivered after the instruction was stepped over. -/
theorem delivered {iLen : Nat} (same : iLen = ledger.len) (delivers : ledger.delivers)
    {rest : Unit → Emu Bool}
    (second : Ensures ledger.Entered (rest ()) (fun _ => ledger.Entered) ledger.Stopped) :
    ledger.Exact (Emu.commit iLen >>= rest) := by
  refine .bind (commit_entered same) fun _ => Ensures.weaken second (fun _ => And.left) ?_ ?_
  · exact fun _ _ entered => .inr ⟨entered, .inl delivers⟩
  · exact fun _ _ stopped => stopped

theorem fails : ledger.Exact (pure false) :=
  .pure fun _ pending => .inl ⟨pending.2, .inr pending.1⟩

section Decoding

variable {opcode : List Bit8u} {place : Nat}

private theorem byteAt_eq (inside : place < opcode.length) :
    Emu.byteAt opcode place = pure (opcode.getD place 0) := by
  rw [Emu.byteAt, List.getElem?_eq_getElem inside, List.getD_eq_getElem?_getD,
    List.getElem?_eq_getElem inside]
  rfl

theorem wordAt_eq (inside : place + 2 ≤ opcode.length) :
    ∃ word, Emu.wordAt opcode place = pure word := by
  rw [Emu.wordAt, byteAt_eq (by omega), pure_bind, byteAt_eq (by omega), pure_bind]
  exact ⟨_, rfl⟩

private theorem dwordAt_eq (inside : place + 4 ≤ opcode.length) :
    ∃ dword, Emu.dwordAt opcode place = pure dword := by
  obtain ⟨low, first⟩ := @wordAt_eq opcode place (by omega)
  obtain ⟨high, second⟩ := @wordAt_eq opcode (place + 2) (by omega)
  rw [Emu.dwordAt, first, pure_bind, second, pure_bind]
  exact ⟨_, rfl⟩

/-- The length found is that of the bytes interpreted. -/
theorem decodeModRM_length (inside : place + 5 ≤ opcode.length) :
    Ensures ledger.Pending (Emu.decodeModRM opcode place)
      (fun found machine => ledger.Pending machine ∧ found.1 = modRMLength opcode place)
      ledger.Stopped := by
  rw [Emu.decodeModRM, byteAt_eq (by omega), pure_bind]
  generalize opening : opcode.getD place 0 = modrm
  refine .ite (fun register => .pure fun _ pending => ⟨pending, ?register⟩) fun memory =>
    .ite (fun plain => .ite (fun direct => .ite (fun absolute => ?absolute) fun based => ?based)
      fun _ => .ite (fun _ => panics) fun _ => panics) fun sib => ?sib
  case register => simp only [modRMLength, opening, register, reduceIte]
  case absolute =>
    obtain ⟨addr, read⟩ := @dwordAt_eq opcode (place + 1) (by omega)
    rw [read, pure_bind]
    refine .pure fun _ pending => ⟨pending, ?_⟩
    simp only [modRMLength, opening, direct, absolute]
    rfl
  case based =>
    refine .bind (steady_genReg _) fun addr => .pure fun _ pending => ⟨pending, ?_⟩
    simp only [modRMLength, opening, direct, plain, based]
    rfl
  case sib =>
    have four : modrm.extractLsb' 0 3 = 4 := not_not.mp sib
    rw [byteAt_eq (by omega), pure_bind]
    refine .ite (fun direct => .ite (fun _ => panics) fun based => ?_) fun _ => panics
    refine .bind (steady_genReg _) fun index => .bind (steady_genReg _) fun base =>
      .pure fun _ pending => ⟨pending, ?_⟩
    simp only [modRMLength, opening, direct, four, based]
    rfl

/-- A form with a ModRM byte, taken up where its length is known. -/
theorem modRM_bind {rest : Nat × ModRM → Emu Bool} (inside : place + 5 ≤ opcode.length)
    (same : place + modRMLength opcode place = ledger.len)
    (second : ∀ found : Nat × ModRM, place + found.1 = ledger.len → ledger.Exact (rest found)) :
    ledger.Exact (Emu.decodeModRM opcode place >>= rest) :=
  .bind (decodeModRM_length inside) fun found => .assuming fun length =>
    second found (by rw [length]; exact same)

end Decoding

section Instructions

variable {iLen : Nat}

private theorem steady_word (lAddr : Bit32u) : ledger.Steady (onVm (getGuestWord lAddr)) :=
  steady_onVm (accessor_eip fun start => getGuestWord_accessor start lAddr)

private theorem steady_dword (lAddr : Bit32u) : ledger.Steady (onVm (getGuestDWord lAddr)) :=
  steady_onVm (accessor_eip fun start => getGuestDWord_accessor start lAddr)

private theorem steady_selector (modRM : ModRM) : ledger.Steady (Emu.selectorOperand modRM) :=
  .ite (fun _ => .bind (steady_genReg _) fun _ => .pure fun _ pending => pending) fun _ =>
    .bind (steady_word _) fun _ => .pure fun _ pending => pending

private theorem lldtEw_exact (same : iLen = ledger.len) (modRM : ModRM) :
    ledger.Exact (Emu.lldtEw modRM iLen) := by
  refine .bind (steady_selector modRM) fun selector => .ite (fun _ => ?_) fun _ => ?_
  · exact .bind (.modify fun _ pending => pending) fun _ => advances same
  · exact .bind (.modify fun _ pending => pending) fun _ => advances same

private theorem ltrEw_exact (same : iLen = ledger.len) (modRM : ModRM) :
    ledger.Exact (Emu.ltrEw modRM iLen) := by
  refine .bind (steady_selector modRM) fun selector => .ite (fun _ => ?_) fun _ =>
    .ite (fun _ => panics) fun _ => ?_
  · exact .bind (steady_onCpu _) fun _ => advances same
  · refine .bind (steady_onVm (accessor_eip fun start => fetchGuestDescBySel_accessor start _ _))
      fun desc => .ite (fun _ => panics) fun _ => ?_
    exact .bind (steady_onCpu _) fun _ => advances same

private theorem loadTable_exact (same : iLen = ledger.len) (message : String) (modRM : ModRM)
    (load : GdtInfo → GuestCpu → GuestCpu) :
    ledger.Exact (Emu.loadTable message modRM load iLen) := by
  have operand : ledger.Steady (Emu.tableOperand modRM) :=
    .bind (steady_word _) fun _ => .bind (steady_dword _) fun _ => .pure fun _ pending => pending
  exact .ite (fun _ => panics) fun _ => .bind operand fun info =>
    .bind (steady_onCpu _) fun _ => advances same

private theorem invlpg_exact (same : iLen = ledger.len) (modRM : ModRM) :
    ledger.Exact (Emu.invlpg modRM iLen) :=
  .ite (fun _ => fails) fun _ => .bind (steady_onVm (invalidateGuestLinAddr_eip _)) fun _ =>
    advances same

private theorem clts_exact (same : iLen = ledger.len) : ledger.Exact (Emu.clts iLen) :=
  .bind (steady_onCpu _) fun _ => advances same

private theorem rdtsc_exact (same : iLen = ledger.len) : ledger.Exact (Emu.rdtsc iLen) := by
  refine .look_bind fun machine _ => .bind (steady_setGenReg _ _) fun _ =>
    .bind (steady_setGenReg _ _) fun _ => ?_
  exact .bind (.modify fun _ pending => pending) fun _ => advances same

private theorem wrmsr_exact (same : iLen = ledger.len) : ledger.Exact (Emu.wrmsr iLen) := by
  have written : ledger.Steady Emu.doWRMSR := by
    refine .bind (steady_genReg _) fun ecx => .bind (steady_genReg _) fun eax =>
      .ite (fun _ => .modify fun _ pending => pending) fun _ =>
        .ite (fun _ => .modify fun _ pending => pending) fun _ =>
          .ite (fun _ => .modify fun _ pending => pending) fun _ => panics
  exact .bind written fun _ => advances same

private theorem popDs_exact (same : iLen = ledger.len) (wide : Bool) :
    ledger.Exact (Emu.popDs wide iLen) := by
  refine .ite (fun _ => panics) fun _ => .bind (steady_genReg _) fun esp =>
    .bind (steady_word esp) fun raw => ?_
  exact .bind (steady_onVm (loadGuestSegment_eip _ _)) fun _ => .bind (steady_genReg _) fun esp =>
    .bind (steady_setGenReg _ _) fun _ => advances same

private theorem cmosInp_steady (port : Bit32u) : ledger.Steady (cmosInp port) := by
  refine .get_bind fun machine pending => .ite (fun _ => .ite (fun _ => ?_) fun _ => ?_) fun _ => ?_
  · exact .throw fun _ same => (same ▸ pending).stopped nofun
  · exact .bind (.modify fun _ _ => pending) fun _ => .pure fun _ pending => pending
  · exact .throw fun _ same => (same ▸ pending).stopped nofun

private theorem vgaInp_steady (port : Bit32u) : ledger.Steady (vgaInp port) :=
  .look_bind fun _ _ => .ite (fun _ => .ite (fun _ => .pure fun _ pending => pending) fun _ =>
    .pure fun _ pending => pending) fun _ =>
      .ite (fun _ => .pure fun _ pending => pending) fun _ => panics

private theorem inp_steady (iolen port : Bit32u) : ledger.Steady (inp iolen port) :=
  .ite (fun _ => steady_onVm (picInp_eip port)) fun _ =>
    .ite (fun _ => steady_onVm (pitInp_eip port)) fun _ =>
      .ite (fun _ => cmosInp_steady port) fun _ =>
        .ite (fun _ => vgaInp_steady port) fun _ => panics

private theorem vgaOutpByte_steady (port val : Bit32u) : ledger.Steady (vgaOutpByte port val) := by
  have addressed : ∀ address, ledger.Steady (modify fun machine : Machine =>
      { machine with vga := { machine.vga with address } }) :=
    fun _ => .modify fun _ pending => pending
  refine .ite (fun _ => .bind (addressed _) fun _ => ?_) fun _ =>
    .ite (fun _ => ?_) fun _ => .pure fun _ pending => pending
  · exact .ite (fun _ => panics) fun _ => .pure fun _ pending => pending
  · refine .get_bind fun machine pending => .ite (fun _ => ?_) fun _ => .modify fun _ _ => pending
    exact .throw fun _ same => (same ▸ pending).stopped nofun

private theorem vgaOutp_steady (iolen port val : Bit32u) : ledger.Steady (vgaOutp iolen port val) :=
  .ite (fun _ => .bind (vgaOutpByte_steady _ _) fun _ => vgaOutpByte_steady _ _) fun _ =>
    vgaOutpByte_steady _ _

private theorem outp_steady (iolen port val : Bit32u) : ledger.Steady (outp iolen port val) :=
  .ite (fun _ => steady_onVm (picOutp_eip port val)) fun _ =>
    .ite (fun _ => steady_onVm (pitOutp_eip port val)) fun _ =>
      .ite (fun _ => steady_onVm (pitOutp_eip port val)) fun _ =>
        .ite (fun _ => .ite (fun _ => .modify fun _ pending => pending) fun _ => panics) fun _ =>
          .ite (fun _ => .modify fun _ pending => pending) fun _ =>
            .ite (fun _ => vgaOutp_steady _ _ _) fun _ =>
              .ite (fun _ => .pure fun _ pending => pending) fun _ => panics

private theorem inByte_exact (same : iLen = ledger.len) (port : Bit32u) :
    ledger.Exact (Emu.inByte port iLen) :=
  .bind (inp_steady _ _) fun _ => .bind (steady_genReg _) fun _ =>
    .bind (steady_setGenReg _ _) fun _ => advances same

private theorem outByte_exact (same : iLen = ledger.len) (port : Bit32u) :
    ledger.Exact (Emu.outByte port iLen) :=
  .bind (steady_genReg _) fun _ => .bind (outp_steady _ _ _) fun _ => advances same

private theorem portDX_steady : ledger.Steady Emu.portDX :=
  .bind (steady_genReg _) fun _ => .pure fun _ pending => pending

private theorem outDXeAX_exact (same : iLen = ledger.len) (wide : Bool) :
    ledger.Exact (Emu.outDXeAX wide iLen) :=
  .bind portDX_steady fun _ => .bind (steady_genReg _) fun _ =>
    .ite (fun _ => .bind (outp_steady _ _ _) fun _ => advances same) fun _ =>
      .bind (outp_steady _ _ _) fun _ => advances same

private theorem hlt_exact (same : iLen = ledger.len) (patience : Nat) :
    ledger.Exact (Emu.hlt patience iLen) :=
  .look_bind fun _ _ => .ite (fun _ => panics) fun _ =>
    .bind (steady_onVm (hltLoop_eip patience)) fun _ => .ite (fun _ => advances same) fun _ =>
      .throw fun _ pending => pending.stopped nofun

private theorem sti_exact (same : iLen = ledger.len) (delivers : ledger.delivers) :
    ledger.Exact (Emu.sti iLen) :=
  delivered same delivers (.bind (entered_onVm _) fun _ => .pure fun _ entered => entered)

/-- IRET, like a far jump, sets EIP and does not step over anything. -/
theorem elsewhere {program : Mon Unit} (jumps : ledger.jumps) :
    ledger.Exact (onVm program >>= fun _ => pure true) := by
  refine .bind (fun machine pending => ?_) fun _ => .pure fun _ balanced => balanced
  rw [onVm]
  cases program machine.vm with
  | ok value next => exact .inl ⟨pending.2, .inl jumps⟩
  | error stop last => exact ⟨nofun, .inl pending.2⟩

section Operands

variable {opcode : List Bit8u} {place : Nat}

private theorem group6_exact (inside : place + 5 ≤ opcode.length)
    (same : place + modRMLength opcode place = ledger.len) : ledger.Exact (Emu.group6 opcode place) :=
  modRM_bind inside same fun found length =>
    .ite (fun _ => lldtEw_exact length found.2) fun _ =>
      .ite (fun _ => ltrEw_exact length found.2) fun _ => panics

private theorem group7_exact (inside : place + 5 ≤ opcode.length)
    (same : place + modRMLength opcode place = ledger.len) : ledger.Exact (Emu.group7 opcode place) :=
  modRM_bind inside same fun found length =>
    .ite (fun _ => loadTable_exact length _ found.2 _) fun _ =>
      .ite (fun _ => loadTable_exact length _ found.2 _) fun _ =>
        .ite (fun _ => invlpg_exact length found.2) fun _ => panics

private theorem movCdRd_exact (inside : place + 5 ≤ opcode.length)
    (same : place + modRMLength opcode place = ledger.len) :
    ledger.Exact (Emu.movCdRd opcode place) :=
  modRM_bind inside same fun _ length => .ite (fun _ => panics) fun _ =>
    .bind (steady_genReg _) fun _ => .bind (steady_onVm (setCRx_eip _ _)) fun _ => advances length

private theorem movDdRd_exact (inside : place + 5 ≤ opcode.length)
    (same : place + modRMLength opcode place = ledger.len) :
    ledger.Exact (Emu.movDdRd opcode place) :=
  modRM_bind inside same fun _ length => .ite (fun _ => panics) fun _ => advances length

private theorem lssGvMp_exact (inside : place + 5 ≤ opcode.length)
    (same : place + modRMLength opcode place = ledger.len) :
    ledger.Exact (Emu.lssGvMp opcode place) :=
  modRM_bind inside same fun _ length => .ite (fun _ => panics) fun _ =>
    .bind (steady_dword _) fun _ => .bind (steady_word _) fun _ =>
      .bind (steady_onVm (loadGuestSegment_eip _ _)) fun _ =>
        .bind (steady_setGenReg _ _) fun _ => advances length

/-- A ModRM byte that names two registers has nothing after it. -/
theorem modRMLength_register (registers : (opcode.getD place 0).extractLsb' 6 2 = 3) :
    modRMLength opcode place = 1 := by
  simp only [modRMLength, registers, reduceIte]

private theorem register_of_mask :
    ∀ modrm : Bit8u, modrm &&& 0xc0 = 0xc0 → modrm.extractLsb' 6 2 = 3 := by
  decide

private theorem getCRx_steady (nnn : BitVec 3) : ledger.Steady (Emu.getCRx nnn) :=
  .look_bind fun _ _ => .ite (fun _ => .pure fun _ pending => pending) fun _ =>
    .ite (fun _ => .pure fun _ pending => pending) fun _ =>
      .ite (fun _ => .pure fun _ pending => pending) fun _ =>
        .ite (fun _ => .pure fun _ pending => pending) fun _ => panics

private theorem movRdCd_exact (inside : place + 5 ≤ opcode.length)
    (same : place + modRMLength opcode place = ledger.len) :
    ledger.Exact (Emu.movRdCd opcode place) := by
  rw [Emu.movRdCd, byteAt_eq (by omega), pure_bind]
  refine .ite (fun _ => panics) fun masked => ?_
  rw [modRMLength_register (register_of_mask _ (not_not.mp masked))] at same
  exact .bind (getCRx_steady _) fun _ => .bind (steady_setGenReg _ _) fun _ => advances same

private theorem movSwEw_exact (inside : place + 5 ≤ opcode.length)
    (same : place + modRMLength opcode place = ledger.len) :
    ledger.Exact (Emu.movSwEw opcode place) := by
  rw [Emu.movSwEw, byteAt_eq (by omega), pure_bind]
  cases Emu.dataSReg ((opcode.getD place 0).extractLsb' 3 3) with
  | none => exact panics
  | some sreg =>
      refine .ite (fun masked => ?_) fun _ => panics
      rw [modRMLength_register (register_of_mask _ masked)] at same
      exact .bind (steady_genReg _) fun _ => .bind (steady_onVm (loadGuestSegment_eip _ _)) fun _ =>
        advances same

private theorem esc3_exact (inside : place + 5 ≤ opcode.length)
    (same : place + modRMLength opcode place = ledger.len) : ledger.Exact (Emu.esc3 opcode place) := by
  rw [Emu.esc3, byteAt_eq (by omega), pure_bind]
  refine .ite (fun known => advances ?_) fun _ => fails
  rw [← same, modRMLength_register]
  rcases known with fninit | fsetpm
  · rw [fninit]
    decide
  · rw [fsetpm]
    decide

private theorem esc7_exact (inside : place + 5 ≤ opcode.length)
    (same : place + modRMLength opcode place = ledger.len) : ledger.Exact (Emu.esc7 opcode place) := by
  rw [Emu.esc7, byteAt_eq (by omega), pure_bind]
  refine .ite (fun known => .bind (steady_setGenReg _ _) fun _ => advances ?_) fun _ => fails
  rw [← same, modRMLength_register]
  rw [known]
  decide

private theorem intIb_exact (inside : place < opcode.length) (same : place + 1 = ledger.len)
    (delivers : ledger.delivers) (visit : UserVisit) : ledger.Exact (Emu.intIb opcode visit place) := by
  rw [Emu.intIb, byteAt_eq inside, pure_bind]
  have goesOn : ∀ program : Mon Unit, Ensures ledger.Entered (onVm program >>= fun _ => pure true)
      (fun _ => ledger.Entered) ledger.Stopped := fun program =>
    .bind (entered_onVm program) fun _ => .pure fun _ entered => entered
  exact delivered same delivers (.ite (fun _ => goesOn _) fun _ => goesOn _)

private theorem inALIb_exact (inside : place < opcode.length) (same : place + 1 = ledger.len) :
    ledger.Exact (Emu.inALIb opcode place) := by
  rw [Emu.inALIb, byteAt_eq inside, pure_bind]
  exact inByte_exact same _

private theorem outIbAL_exact (inside : place < opcode.length) (same : place + 1 = ledger.len) :
    ledger.Exact (Emu.outIbAL opcode place) := by
  rw [Emu.outIbAL, byteAt_eq inside, pure_bind]
  exact outByte_exact same _

private theorem jmpAp_exact (inside : place + 6 ≤ opcode.length) (jumps : ledger.jumps) :
    ledger.Exact (Emu.jmpAp opcode place) := by
  obtain ⟨offset, far⟩ := @dwordAt_eq opcode place (by omega)
  obtain ⟨raw, selector⟩ := @wordAt_eq opcode (place + 4) (by omega)
  rw [Emu.jmpAp, far, pure_bind, selector, pure_bind]
  refine .bind (steady_onVm (loadGuestSegment_eip _ _)) fun _ => ?_
  exact .bind (.modify fun _ pending => .inl ⟨pending.2, .inl jumps⟩) fun _ =>
    .pure fun _ balanced => balanced

/-- The opcodes after the escape byte, which is at `start`. -/
theorem escape_exact {start : Nat} (inside : start + 7 ≤ opcode.length)
    (escaped : opcode.getD start 0 = 0x0f) (same : start + opcodeLength opcode start = ledger.len) :
    ledger.Exact (Emu.escape opcode (start + 1)) := by
  rw [opcodeLength, if_pos escaped] at same
  rw [Emu.escape, byteAt_eq (by omega), pure_bind]
  generalize opcode.getD (start + 1) 0 = b1 at same
  have formed : escapedOperandsOf b1 = .modRM →
      start + 2 + modRMLength opcode (start + 2) = ledger.len := by
    intro form
    rw [form] at same
    rw [← same, Operands.length]
    omega
  have alone : escapedOperandsOf b1 = .none → start + 2 = ledger.len := by
    intro form
    rw [form] at same
    rw [← same, Operands.length]
  refine .ite (fun known => group6_exact (by omega) (formed (by rw [known]; rfl))) fun _ => ?_
  refine .ite (fun known => group7_exact (by omega) (formed (by rw [known]; rfl))) fun _ => ?_
  refine .ite (fun known => clts_exact (alone (by rw [known]; rfl))) fun _ => ?_
  refine .ite (fun known => movRdCd_exact (by omega) (formed (by rw [known]; rfl))) fun _ => ?_
  refine .ite (fun known => movCdRd_exact (by omega) (formed (by rw [known]; rfl))) fun _ => ?_
  refine .ite (fun known => movDdRd_exact (by omega) (formed (by rw [known]; rfl))) fun _ => ?_
  refine .ite (fun known => wrmsr_exact (alone (by rw [known]; rfl))) fun _ => ?_
  refine .ite (fun known => rdtsc_exact (alone (by rw [known]; rfl))) fun _ => ?_
  exact .ite (fun known => lssGvMp_exact (by omega) (formed (by rw [known]; rfl))) fun _ => panics

/-- The opcode is at `start`, and is no prefix. -/
theorem execute_exact {start : Nat} (inside : start + 7 ≤ opcode.length)
    (same : start + opcodeLength opcode start = ledger.len)
    (delivers : Delivers (opcode.getD start 0) → ledger.delivers)
    (jumps : Jumps (opcode.getD start 0) → ledger.jumps) (surroundings : Surroundings) (wide : Bool) :
    ledger.Exact (Emu.execute opcode surroundings wide (opcode.getD start 0) (start + 1)) := by
  refine .ite (fun known => escape_exact inside known same) fun plain => ?_
  rw [opcodeLength, if_neg plain] at same
  generalize opcode.getD start 0 = b0 at same plain delivers jumps
  have formed : operandsOf b0 = .modRM →
      start + 1 + modRMLength opcode (start + 1) = ledger.len := by
    intro form
    rw [form] at same
    rw [← same, Operands.length]
    omega
  have immediate : operandsOf b0 = .byte → start + 1 + 1 = ledger.len := by
    intro form
    rw [form] at same
    rw [← same, Operands.length]
  have alone : operandsOf b0 = .none → start + 1 = ledger.len := by
    intro form
    rw [form] at same
    rw [← same, Operands.length]
  refine .ite (fun known => popDs_exact (alone (by rw [known]; rfl)) wide) fun _ => ?_
  refine .ite (fun known => movSwEw_exact (by omega) (formed (by rw [known]; rfl))) fun _ => ?_
  refine .ite (fun known => intIb_exact (by omega) (immediate (by rw [known]; rfl))
    (delivers (.inl known)) _) fun _ => ?_
  refine .ite (fun known => elsewhere (jumps (.inl known))) fun _ => ?_
  refine .ite (fun known => esc3_exact (by omega) (formed (by rw [known]; rfl))) fun _ => ?_
  refine .ite (fun known => esc7_exact (by omega) (formed (by rw [known]; rfl))) fun _ => ?_
  refine .ite (fun known => inALIb_exact (by omega) (immediate (by rw [known]; rfl))) fun _ => ?_
  refine .ite (fun known => outIbAL_exact (by omega) (immediate (by rw [known]; rfl))) fun _ => ?_
  refine .ite (fun known => jmpAp_exact (by omega) (jumps (.inr known))) fun _ => ?_
  refine .ite (fun known => .bind portDX_steady fun _ =>
    inByte_exact (alone (by rw [known]; rfl)) _) fun _ => ?_
  refine .ite (fun known => .bind portDX_steady fun _ =>
    outByte_exact (alone (by rw [known]; rfl)) _) fun _ => ?_
  refine .ite (fun known => outDXeAX_exact (alone (by rw [known]; rfl)) wide) fun _ => ?_
  refine .ite (fun known => hlt_exact (alone (by rw [known]; rfl)) _) fun _ => ?_
  exact .ite (fun known => sti_exact (alone (by rw [known]; rfl)) (delivers (.inr known))) fun _ =>
    panics

/-- Behind a prefix: there, another one is refused. -/
theorem decodeOpcode_second (inside : 8 ≤ opcode.length)
    (same : 1 + opcodeLength opcode 1 = ledger.len)
    (delivers : Delivers (opcode.getD 1 0) → ledger.delivers)
    (jumps : Jumps (opcode.getD 1 0) → ledger.jumps) (surroundings : Surroundings) (wide : Bool) :
    ledger.Exact (Emu.decodeOpcode opcode surroundings 1 wide) := by
  rw [Emu.decodeOpcode, byteAt_eq (by omega), pure_bind]
  apply Ensures.ite
  · intro again
    rw [dif_neg (by omega)]
    exact fails
  · intro last
    exact execute_exact (by omega) same delivers jumps surroundings wide

private theorem decodeOpcode_exact (inside : 8 ≤ opcode.length)
    (same : encodedLength opcode = ledger.len)
    (delivers : Delivers (opcodeByte opcode) → ledger.delivers)
    (jumps : Jumps (opcodeByte opcode) → ledger.jumps) (surroundings : Surroundings) (wide : Bool) :
    ledger.Exact (Emu.decodeOpcode opcode surroundings 0 wide) := by
  rw [Emu.decodeOpcode, byteAt_eq (by omega), pure_bind]
  unfold encodedLength at same
  unfold opcodeByte at delivers jumps
  apply Ensures.ite
  · intro leading
    rw [if_pos leading] at same delivers jumps
    rw [dif_pos rfl]
    exact decodeOpcode_second inside same delivers jumps surroundings _
  · intro plain
    rw [if_neg plain] at same delivers jumps
    have start : 0 + opcodeLength opcode 0 = ledger.len := (Nat.zero_add _).trans same
    exact execute_exact (by omega) start delivers jumps surroundings wide

end Operands
end Instructions

/-- The ledger of the instruction that begins with these bytes. -/
def ofBytes (opcode : List Bit8u) (machine : Machine) : Ledger where
  eip := machine.vm.context.eip
  log := machine.advanced
  len := encodedLength opcode
  delivers := Delivers (opcodeByte opcode)
  jumps := Jumps (opcodeByte opcode)

/-- How the emulation of an instruction ends: in any event it has not read too far. -/
def Settles (ledger : Ledger) : EStateM.Result EmuStop Machine Bool → Prop
  | .ok _ after => ledger.Balanced after
  | .error stop last => ledger.Stopped stop last

end Ledger

section Fetch

/-- A program that, if it returns, returns so many bytes. -/
abbrev Yields (count : Nat) (program : Mon (List Bit8u)) : Prop :=
  Ensures (fun _ => True) program (fun bytes _ => bytes.length = count) fun _ _ => True

theorem Yields.after {Value : Type} {count : Nat} {program : Mon Value}
    {rest : Value → Mon (List Bit8u)} (second : ∀ value, Yields count (rest value)) :
    Yields count (program >>= rest) :=
  .bind .anything second

theorem Yields.counted {count total : Nat} {program : Mon (List Bit8u)}
    {rest : List Bit8u → Mon (List Bit8u)} (first : Yields count program)
    (second : ∀ bytes, bytes.length = count → Yields total (rest bytes)) :
    Yields total (program >>= rest) :=
  .bind first fun bytes state length => second bytes length state trivial

private theorem readBytes_yields (page : OpenPage) (offset count : Nat) :
    Yields count (readBytes page offset count) := by
  induction count generalizing offset with
  | zero => exact .pure fun _ _ => rfl
  | succ count inductionHypothesis =>
      refine Yields.after fun byte => (inductionHypothesis _).counted fun rest length => ?_
      exact .pure fun _ _ => by rw [List.length_cons, length]

/-- Also where the object lies in two pages. -/
theorem getObjectLAddr_yields {lAddr len : Bit32u} (small : len ≤ 0x1000#32) :
    Yields len.toNat (getObjectLAddr lAddr len) := by
  unfold getObjectLAddr
  refine .look_bind fun vm _ => Yields.after fun pAddr => Yields.after fun _ => .ite (fun _ => ?within)
    fun crosses => ?across
  case within =>
    refine Yields.after fun _ => Yields.after fun page => .ite (fun dword => ?_) fun _ => ?_
    · refine Yields.after fun val => .pure fun _ _ => ?_
      rw [dword]
      rfl
    · exact readBytes_yields page _ _
  case across =>
    have parts : (0x1000#32 - (pAddr &&& 0xfff#32)).toNat +
        (len - (0x1000#32 - (pAddr &&& 0xfff#32))).toNat = len.toNat := by
      have low : pAddr &&& 0xfff#32 ≤ 0xfff#32 := by
        rw [BitVec.le_def, BitVec.toNat_and]
        exact Nat.and_le_right
      revert low crosses
      generalize pAddr &&& 0xfff#32 = offset
      intro crosses low
      bv_omega
    generalize 0x1000#32 - (pAddr &&& 0xfff#32) = page0Len at parts
    refine Yields.after fun pAddr1 => Yields.after fun _ => Yields.after fun _ => Yields.after fun _ =>
      Yields.after fun page => (readBytes_yields page _ _).counted fun first length => ?_
    refine Yields.after fun page => (readBytes_yields page _ _).counted fun second length' => ?_
    exact .pure fun _ _ => by rw [List.length_append, length, length', parts]

end Fetch

/-- The bytes fetched at EIP: fifteen, and EIP is still at them. -/
theorem fetched_opcode {machine fetched : Machine} {opcode : List Bit8u}
    (run : onVm (getObjectLAddr machine.vm.context.eip 15) machine = .ok opcode fetched) :
    opcode.length = 15 ∧ fetched.vm.context.eip = machine.vm.context.eip ∧
      fetched.advanced = machine.advanced := by
  have small : (15 : Bit32u) ≤ 0x1000#32 := by decide
  have here : (Ledger.ofBytes opcode machine).Pending machine := ⟨rfl, rfl⟩
  have still := (Ledger.steady_onVm (accessor_eip fun start =>
    getObjectLAddr_accessor start machine.vm.context.eip 15 small)).returns here run
  rw [onVm] at run
  cases fetch : getObjectLAddr machine.vm.context.eip 15 machine.vm with
  | error stop last =>
      rw [fetch] at run
      cases run
  | ok bytes vm =>
      rw [fetch] at run
      cases run
      exact ⟨(getObjectLAddr_yields small).returns trivial fetch, still⟩

/-- The decoding stays within the fifteen bytes that are fetched and steps over exactly
the instruction they begin with. -/
theorem emulateSysInstr_exact (surroundings : Surroundings) :
    (∀ opcode : List Bit8u, opcode.length = 15 → ∀ machine,
      (Ledger.ofBytes opcode machine).Settles
        (Emu.decodeOpcode opcode surroundings 0 true machine)) ∧
    ∀ machine opcode fetched,
      onVm (getObjectLAddr machine.vm.context.eip 15) machine = .ok opcode fetched →
        opcode.length = 15 ∧
        Ledger.ofBytes opcode fetched = Ledger.ofBytes opcode machine ∧
        emulateSysInstr surroundings machine = Emu.decodeOpcode opcode surroundings 0 true fetched := by
  constructor
  · intro opcode fifteen machine
    have exact : (Ledger.ofBytes opcode machine).Exact
        (Emu.decodeOpcode opcode surroundings 0 true) :=
      Ledger.decodeOpcode_exact (by omega) rfl id id surroundings true
    have result := exact machine ⟨rfl, rfl⟩
    cases run : Emu.decodeOpcode opcode surroundings 0 true machine with
    | ok value after =>
        rw [run] at result
        exact result
    | error stop last =>
        rw [run] at result
        exact result
  · intro machine opcode fetched run
    obtain ⟨fifteen, here, log⟩ := fetched_opcode run
    refine ⟨fifteen, ?_, ?_⟩
    · rw [Ledger.ofBytes, Ledger.ofBytes, here, log]
    · rw [emulateSysInstr, get_bind_apply, bind_apply, run]

/-- A guest without paging, at CLTS behind an operand size prefix. -/
def Sample.prefixed : Machine where
  vm := { setup := Sample.setup
          mem := fun _ index => if index = 0 then 0x66 else if index = 1 then 0x0f else 0x06 }

theorem emulateSysInstr_exact_clts :
    let surroundings : Surroundings := ⟨⟨fun _ => 0, 0, 0, fun _ _ => 0, true⟩, 0⟩
    ∃ opcode fetched, onVm (getObjectLAddr 0 15) Sample.prefixed = .ok opcode fetched ∧
      encodedLength opcode = 3 ∧ (Ledger.ofBytes opcode Sample.prefixed).Settles
        (Emu.decodeOpcode opcode surroundings 0 true Sample.prefixed) := by
  intro surroundings
  have checked : (match onVm (getObjectLAddr 0 15) Sample.prefixed with
      | .ok opcode _ => decide (encodedLength opcode = 3)
      | .error _ _ => false) = true := by decide +kernel
  cases run : onVm (getObjectLAddr 0 15) Sample.prefixed with
  | error stop last =>
      rw [run] at checked
      cases checked
  | ok opcode fetched =>
      rw [run] at checked
      have fifteen := ((emulateSysInstr_exact surroundings).2 Sample.prefixed opcode fetched run).1
      exact ⟨opcode, fetched, rfl, of_decide_eq_true checked,
        (emulateSysInstr_exact surroundings).1 opcode fifteen Sample.prefixed⟩

end Plex86
