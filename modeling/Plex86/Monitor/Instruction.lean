import Plex86.Emulate.Devices
import Plex86.Emulate.Ticks
import Plex86.Monitor.System

/-! `emulateSysInstr`: the instructions of the guest kernel that the monitor
emulates. The bytes of an instruction are read with a check, so that a read past
those that were fetched would show. -/

namespace Plex86

open Logic Vm

namespace GuestStackContext

/-- An assignment to `GenReg`. -/
def setGenReg (context : GuestStackContext) (val : Bit32u) : Fin 8 → GuestStackContext
  | 0 => { context with eax := val }
  | 1 => { context with ecx := val }
  | 2 => { context with edx := val }
  | 3 => { context with ebx := val }
  | 4 => { context with esp := val }
  | 5 => { context with ebp := val }
  | 6 => { context with esi := val }
  | 7 => { context with edi := val }

end GuestStackContext

/-- What the emulation takes from outside: how user space behaves when it is given
control, and how many clocks HLT is followed for. -/
structure Surroundings where
  visit : UserVisit
  patience : Nat

/-- `modRM_t`, as far as it is used. -/
structure ModRM where
  mod : BitVec 2
  nnn : BitVec 3
  rm : BitVec 3
  addr : Bit32u := 0

namespace Emu

variable (opcode : List Bit8u)

/-- `opcode[place]` -/
def byteAt (place : Nat) : Emu Bit8u :=
  match opcode[place]? with
  | some byte => pure byte
  | none => throw .overrun

/-- `* (Bit16u*) &opcode[place]` -/
def wordAt (place : Nat) : Emu Bit16u := do
  let low ← byteAt opcode place
  let high ← byteAt opcode (place + 1)
  pure (high ++ low)

/-- `* (Bit32u*) &opcode[place]` -/
def dwordAt (place : Nat) : Emu Bit32u := do
  let low ← wordAt opcode place
  let high ← wordAt opcode (place + 2)
  pure (high ++ low)

def genReg (regno : BitVec 3) : Emu Bit32u := do
  let machine ← get
  pure (machine.vm.context.genRegs regno.toFin)

def setGenReg (regno : BitVec 3) (val : Bit32u) : Emu Unit :=
  modify fun machine =>
    { machine with vm := { machine.vm with
      context := machine.vm.context.setGenReg val regno.toFin } }

def onCpu (change : GuestCpu → GuestCpu) : Emu Unit :=
  modify fun machine =>
    { machine with vm := { machine.vm with guestCpu := change machine.vm.guestCpu } }

/-- The length of what follows the opcode, with what it says. -/
def decodeModRM (place : Nat) : Emu (Nat × ModRM) := do
  let modrm ← byteAt opcode place
  let mod := modrm.extractLsb' 6 2
  let nnn := modrm.extractLsb' 3 3
  let rm := modrm.extractLsb' 0 3
  if mod = 3 then pure (1, { mod, nnn, rm }) -- Done, 1 byte of decode info processed.
  else if rm ≠ 4 then -- No s-i-b byte follows.
    if mod = 0 then
      if rm = 5 then do -- A dword immediate address follows.
        let addr ← dwordAt opcode (place + 1)
        pure (5, { mod, nnn, rm, addr })
      else do
        let addr ← genReg rm
        pure (1, { mod, nnn, rm, addr })
    else if mod = 1 then emuPanic "decodeModRM: no sib, mod=1.\n"
    else emuPanic "decodeModRM: no sib, mod=2.\n"
  else do -- s-i-b byte follows.
    let sib ← byteAt opcode (place + 1)
    let base := sib.extractLsb' 0 3
    let index := sib.extractLsb' 3 3
    let scale := sib.extractLsb' 6 2
    if mod = 0 then
      if base = 5 then
        emuPanic "decodeModRM: sib: mod=%u, base=%u.\n" [mod.setWidth 32, base.setWidth 32]
      else do
        let indexed ← genReg index
        let scaledIndex := if index ≠ 4 then indexed <<< scale.toNat else 0
        let based ← genReg base
        pure (2, { mod, nnn, rm, addr := based + scaledIndex })
    else emuPanic "decodeModRM: sib: mod=%u, base=%u.\n" [mod.setWidth 32, base.setWidth 32]

/-- `EIP += iLen` -/
def commit (iLen : Nat) : Emu Unit :=
  modify fun machine =>
    let eip := machine.vm.context.eip
    { machine with
      vm := { machine.vm with
        context := { machine.vm.context with eip := eip + BitVec.ofNat 32 iLen } }
      advanced := (eip, eip + BitVec.ofNat 32 iLen) :: machine.advanced }

/-- `advanceInstruction`; the result tells whether the emulation is OK. -/
def advanceInstruction (iLen : Nat) : Emu Bool := do
  commit iLen
  pure true

/-- The selector operand of LLDT and LTR. -/
def selectorOperand (modRM : ModRM) : Emu Selector := do
  if modRM.mod = 3 then
    let reg ← genReg modRM.rm
    pure ⟨reg.setWidth 16⟩
  else
    let raw ← onVm (getGuestWord modRM.addr)
    pure ⟨raw⟩

def lldtEw (modRM : ModRM) (iLen : Nat) : Emu Bool := do
  let selector ← selectorOperand modRM
  if selector.isNull = true then do
    modify fun machine => { machine with ldtr := { machine.ldtr with sel := selector, valid := 0 } }
    advanceInstruction iLen
  else do
    modify fun machine => -- Make it null anyways.
      { machine with ldtr := { machine.ldtr with sel := ⟨0⟩, valid := 0 } }
    advanceInstruction iLen

def ltrEw (modRM : ModRM) (iLen : Nat) : Emu Bool := do
  let tssSelector ← selectorOperand modRM
  if tssSelector.isNull = true then do
    onCpu fun cpu => { cpu with tr := { cpu.tr with sel := tssSelector, valid := 0 } }
    advanceInstruction iLen
  else if tssSelector.ti = true then emuPanic "LTR_Ew: selector.ti=1.\n"
  else do
    let tssDesc ← onVm (fetchGuestDescBySel tssSelector true)
    if tssDesc.p = false ∨ tssDesc.type ≠ 9 ∨ tssDesc.limit < 103 then
      emuPanic "LTR_Ew: bad descriptor.\n"
    else do
      onCpu fun cpu => { cpu with tr := ⟨tssSelector, tssDesc.setBusy, 1⟩ }
      advanceInstruction iLen

/-- The operand of LGDT and LIDT. -/
def tableOperand (modRM : ModRM) : Emu GdtInfo := do
  let limit ← onVm (getGuestWord modRM.addr)
  let base ← onVm (getGuestDWord (modRM.addr + 2))
  pure { limit, base }

/-- LGDT and LIDT must have a memory reference. -/
def loadTable (message : String) (modRM : ModRM) (load : GdtInfo → GuestCpu → GuestCpu)
    (iLen : Nat) : Emu Bool := do
  if modRM.mod = 3 then emuPanic message
  else do
    let info ← tableOperand modRM
    onCpu (load info)
    advanceInstruction iLen

def lgdtMs (modRM : ModRM) (iLen : Nat) : Emu Bool :=
  loadTable "LGDT_Ms: mod=3.\n" modRM (fun gdtr cpu => { cpu with gdtr }) iLen

def lidtMs (modRM : ModRM) (iLen : Nat) : Emu Bool :=
  loadTable "LIDT_Ms: mod=3.\n" modRM (fun idtr cpu => { cpu with idtr }) iLen

def invlpg (modRM : ModRM) (iLen : Nat) : Emu Bool := do
  if modRM.mod = 3 then pure false -- Must be a memory reference.
  else do
    onVm (invalidateGuestLinAddr modRM.addr)
    advanceInstruction iLen

def group6 (place : Nat) : Emu Bool := do
  let (length, modRM) ← decodeModRM opcode place
  if modRM.nnn = 2 then lldtEw modRM (place + length)
  else if modRM.nnn = 3 then ltrEw modRM (place + length)
  else emuPanic "emulateSI: Group6: nnn=%u.\n" [modRM.nnn.setWidth 32]

def group7 (place : Nat) : Emu Bool := do
  let (length, modRM) ← decodeModRM opcode place
  if modRM.nnn = 2 then lgdtMs modRM (place + length)
  else if modRM.nnn = 3 then lidtMs modRM (place + length)
  else if modRM.nnn = 7 then invlpg modRM (place + length)
  else emuPanic "emulateSI: Group7, nnn=%u.\n" [modRM.nnn.setWidth 32]

def clts (iLen : Nat) : Emu Bool := do
  onCpu fun cpu => { cpu with cr0 := cpu.cr0 &&& ~~~(1#32 <<< 3) }
  advanceInstruction iLen

/-- The control register that is read. -/
def getCRx (nnn : BitVec 3) : Emu Bit32u := do
  let machine ← get
  if nnn = 0 then pure machine.vm.guestCpu.cr0
  else if nnn = 2 then pure machine.vm.guestCpu.cr2
  else if nnn = 3 then pure machine.vm.guestCpu.cr3
  else if nnn = 4 then pure machine.vm.guestCpu.cr4
  else emuPanic "MOV_RdCd: cr%u?\n" [nnn.setWidth 32]

def movRdCd (place : Nat) : Emu Bool := do
  let modrm ← byteAt opcode place
  if modrm &&& 0xc0 ≠ 0xc0 then emuPanic "MOV_RdCd: mod field not 11b.\n"
  else do
    let val32 ← getCRx (modrm.extractLsb' 3 3)
    setGenReg (modrm.extractLsb' 0 3) val32
    advanceInstruction (place + 1)

def movCdRd (place : Nat) : Emu Bool := do
  let (length, modRM) ← decodeModRM opcode place
  if modRM.mod ≠ 3 then emuPanic "MOV_CdRd: mod field not 11b.\n"
  else do
    let val32 ← genReg modRM.rm
    onVm (setCRx (modRM.nnn.setWidth 32) val32)
    advanceInstruction (place + length)

/-- `setDRx` ignores the value. -/
def movDdRd (place : Nat) : Emu Bool := do
  let (length, modRM) ← decodeModRM opcode place
  if modRM.mod ≠ 3 then emuPanic "MOV_DdRd: mod field not 3.\n"
  else advanceInstruction (place + length)

def doWRMSR : Emu Unit := do
  let ecx ← genReg 1 -- MSR #
  let eax ← genReg 0 -- Low dword
  if ecx = 0x174 then
    modify fun machine => { machine with sysEnter := { machine.sysEnter with cs := eax } }
  else if ecx = 0x175 then
    modify fun machine => { machine with sysEnter := { machine.sysEnter with esp := eax } }
  else if ecx = 0x176 then
    modify fun machine => { machine with sysEnter := { machine.sysEnter with eip := eax } }
  else emuPanic "WRMSR[0x%x]: unimplemented MSR.\n" [ecx]

def wrmsr (iLen : Nat) : Emu Bool := do
  doWRMSR
  advanceInstruction iLen

def rdtsc (iLen : Nat) : Emu Bool := do
  let machine ← get
  setGenReg 0 (machine.tsc.setWidth 32)
  setGenReg 2 ((machine.tsc >>> 32).setWidth 32)
  modify fun machine => { machine with tsc := machine.tsc + 10 }
  advanceInstruction iLen

def lssGvMp (place : Nat) : Emu Bool := do
  let (length, modRM) ← decodeModRM opcode place
  if modRM.mod = 3 then emuPanic "LSS_GvMp: mod=3.\n" -- Must be a memory reference.
  else do
    let reg32 ← onVm (getGuestDWord modRM.addr)
    let raw ← onVm (getGuestWord (modRM.addr + 4))
    onVm (loadGuestSegment .ss ⟨raw⟩)
    setGenReg modRM.nnn reg32
    advanceInstruction (place + length)

/-- The opcodes after the escape byte. -/
def escape (place : Nat) : Emu Bool := do
  let b1 ← byteAt opcode place
  if b1 = 0x00 then group6 opcode (place + 1)
  else if b1 = 0x01 then group7 opcode (place + 1)
  else if b1 = 0x06 then clts (place + 1)
  else if b1 = 0x20 then movRdCd opcode (place + 1)
  else if b1 = 0x22 then movCdRd opcode (place + 1)
  else if b1 = 0x23 then movDdRd opcode (place + 1)
  else if b1 = 0x30 then wrmsr (place + 1)
  else if b1 = 0x31 then rdtsc (place + 1)
  else if b1 = 0xb2 then lssGvMp opcode (place + 1)
  else emuPanic "emulateSysInstr: default b1=0x%x\n" [b1.setWidth 32]

def popDs (wide : Bool) (iLen : Nat) : Emu Bool := do
  if wide = false then emuPanic "emulateSysInstr: POP DS, 16-bit opsize.\n"
  else do
    let esp ← genReg 4
    let raw ← onVm (getGuestWord esp)
    onVm (loadGuestSegment .ds ⟨raw⟩)
    let esp ← genReg 4
    setGenReg 4 (esp + 4)
    advanceInstruction iLen

/-- The segment register with a number, other than CS. -/
def dataSReg (sreg : BitVec 3) : Option SReg :=
  if sreg = 0 then some .es
  else if sreg = 2 then some .ss
  else if sreg = 3 then some .ds
  else if sreg = 4 then some .fs
  else if sreg = 5 then some .gs
  else none

def movSwEw (place : Nat) : Emu Bool := do
  let modrm ← byteAt opcode place
  match dataSReg (modrm.extractLsb' 3 3) with
  | none => emuPanic "emulateSysInstr: MOV_SwEw bad sreg=%u.\n" [(modrm.extractLsb' 3 3).setWidth 32]
  | some sreg =>
      if modrm &&& 0xc0 = 0xc0 then do
        let reg ← genReg (modrm.extractLsb' 0 3)
        onVm (loadGuestSegment sreg ⟨reg.setWidth 16⟩)
        advanceInstruction (place + 1)
      else emuPanic "emulateSysInstr: MOV_SwEw mod!=11b.\n"

def intIb (visit : UserVisit) (place : Nat) : Emu Bool := do
  let ib ← byteAt opcode place
  commit (place + 1) -- Commit instruction length.
  if ib = 0xff then onVm (visitUser .halCall visit)
  else onVm (doGuestInterrupt (ib.setWidth 32) intFlagSoftInt 0)
  pure true

def iret (visit : UserVisit) : Emu Bool := do
  onVm (do
    doIRET
    visitUser .bogus visit)
  pure true

/-- FNINIT and FSETPM are ignored. -/
def esc3 (place : Nat) : Emu Bool := do
  let modrm ← byteAt opcode place
  if modrm = 0xe3 ∨ modrm = 0xe4 then advanceInstruction (place + 1) else pure false

/-- FNSTSW AX is made to think there is no FPU. -/
def esc7 (place : Nat) : Emu Bool := do
  let modrm ← byteAt opcode place
  if modrm = 0xe0 then do
    setGenReg 0 0x0000ffff
    advanceInstruction (place + 1)
  else pure false

/-- A byte is read into AL. -/
def inByte (port : Bit32u) (iLen : Nat) : Emu Bool := do
  let al ← inp 1 port
  let eax ← genReg 0
  setGenReg 0 ((eax &&& ~~~0xff#32) ||| (al &&& 0xff))
  advanceInstruction iLen

def outByte (port : Bit32u) (iLen : Nat) : Emu Bool := do
  let eax ← genReg 0
  outp 1 port (eax &&& 0xff)
  advanceInstruction iLen

def inALIb (place : Nat) : Emu Bool := do
  let port8 ← byteAt opcode place
  inByte (port8.setWidth 32) (place + 1)

def outIbAL (place : Nat) : Emu Bool := do
  let port8 ← byteAt opcode place
  outByte (port8.setWidth 32) (place + 1)

/-- The port in DX. -/
def portDX : Emu Bit32u := do
  let edx ← genReg 2
  pure (edx &&& 0xffff)

def inALDX (iLen : Nat) : Emu Bool := do
  let dx ← portDX
  inByte dx iLen

def outDXAL (iLen : Nat) : Emu Bool := do
  let dx ← portDX
  outByte dx iLen

def outDXeAX (wide : Bool) (iLen : Nat) : Emu Bool := do
  let dx ← portDX
  let eax ← genReg 0
  if wide = false then outp 2 dx (eax &&& 0xffff) else outp 4 dx eax
  advanceInstruction iLen

def jmpAp (place : Nat) : Emu Bool := do
  let offset ← dwordAt opcode place
  let raw ← wordAt opcode (place + 4)
  onVm (loadGuestSegment .cs ⟨raw⟩)
  modify fun machine =>
    { machine with vm := { machine.vm with context := { machine.vm.context with eip := offset } } }
  pure true

def hlt (patience iLen : Nat) : Emu Bool := do
  let machine ← get
  if EFlags.vif machine.vm.context.eflags = false then emuPanic "HLT with VIF==0.\n"
  else do
    let interrupted ← onVm (hltLoop patience)
    if interrupted = true then advanceInstruction iLen else throw .waiting

def sti (iLen : Nat) : Emu Bool := do
  commit iLen -- Commit instruction length.
  onVm (do
    modify fun vm =>
      { vm with context := { vm.context with
        eflags := EFlags.assign EFlags.maskVIF true vm.context.eflags } }
    let vm ← get
    panicWhen (vm.intr = 0) "STI: system.INTR=0?.\n"
    let vector ← picIAC -- Get interrupt vector from PIC.
    doGuestInterrupt vector 0 0)
  pure true

/-- The opcodes that are no prefixes; `place` is that of the byte after the opcode. -/
def execute (surroundings : Surroundings) (wide : Bool) (b0 : Bit8u) (place : Nat) : Emu Bool :=
  if b0 = 0x0f then escape opcode place
  else if b0 = 0x1f then popDs wide place
  else if b0 = 0x8e then movSwEw opcode place
  else if b0 = 0xcd then intIb opcode surroundings.visit place
  else if b0 = 0xcf then iret surroundings.visit
  else if b0 = 0xdb then esc3 opcode place
  else if b0 = 0xdf then esc7 opcode place
  else if b0 = 0xe4 then inALIb opcode place
  else if b0 = 0xe6 then outIbAL opcode place
  else if b0 = 0xea then jmpAp opcode place
  else if b0 = 0xec then inALDX place
  else if b0 = 0xee then outDXAL place
  else if b0 = 0xef then outDXeAX wide place
  else if b0 = 0xf4 then hlt surroundings.patience place
  else if b0 = 0xfb then sti place
  else emuPanic "emulateSysInstr: default b0=0x%x\n" [b0.setWidth 32]

/-- CS:, FWAIT and LOCK are skipped; Opsize: makes the operands 16 bits wide. -/
def isPrefix (b0 : Bit8u) : Prop := b0 = 0x2e ∨ b0 = 0x66 ∨ b0 = 0x9b ∨ b0 = 0xf0

instance (b0 : Bit8u) : Decidable (isPrefix b0) := inferInstanceAs (Decidable (_ ∨ _))

/-- The decoding from a place on, which a prefix goes back to. -/
def decodeOpcode (surroundings : Surroundings) (iLen : Nat) (wide : Bool) : Emu Bool := do
  let b0 ← byteAt opcode iLen
  if isPrefix b0 then
    -- Prevent endless string of prefixes doing overrun.
    if first : iLen + 1 = 1 then
      decodeOpcode surroundings (iLen + 1) (wide && b0 != 0x66)
    else pure false
  else execute opcode surroundings wide b0 (iLen + 1)
termination_by 1 - iLen

end Emu

def emulateSysInstr (surroundings : Surroundings) : Emu Bool := do
  let machine ← get
  let opcode ← onVm (getObjectLAddr machine.vm.context.eip 15)
  Emu.decodeOpcode opcode surroundings 0 true

end Plex86
