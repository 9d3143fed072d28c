import Plex86.Emulate.Io

namespace Plex86

open Logic

/-- `cmos_t` -/
structure Cmos where
  memAddress : Bit32u := 0
  reg : Bit32u → Bit8u := fun _ => 0

/-- `vga_t`: the CRTC registers. -/
structure Vga where
  address : Bit32u := 0
  reg : Bit32u → Bit32u := fun _ => 0

/-- `sysEnter_t` -/
structure SysEnter where
  cs : Bit32u := 0
  eip : Bit32u := 0
  esp : Bit32u := 0

/-- A virtual machine with the rest of `vm_t` that the emulation of instructions is about. -/
structure Machine where
  vm : Vm
  cmos : Cmos := {}
  vga : Vga := {}
  port0x80 : Bit32u := 0
  /-- `guest_cpu->ldtr` -/
  ldtr : GuestSReg := {}
  sysEnter : SysEnter := {}
  tsc : BitVec 64 := 0
  /-- The lengths committed by `EIP += iLen`, as EIP before and after, newest first. -/
  advanced : List (Bit32u × Bit32u) := []

/-- Why the emulation of an instruction is left. -/
inductive EmuStop
  | halt (halt : Halt)
  /-- A read past the bytes of the instruction that were fetched. -/
  | overrun
  /-- HLT, still waiting for an interrupt. -/
  | waiting
deriving DecidableEq

abbrev Emu := EStateM EmuStop Machine

/-- Code that is about the virtual machine alone. -/
def onVm {α : Type} (program : Mon α) : Emu α := fun machine =>
  match program machine.vm with
  | .ok value vm => .ok value { machine with vm }
  | .error halt vm => .error (.halt halt) { machine with vm }

def emuPanic {α : Type} (format : String) (args : List Bit32u := []) : Emu α :=
  throw (.halt (.monpanic format args))

def numCmosRegs : Bit32u := 64
def regStatA : Bit32u := 0x0a
def regStatC : Bit32u := 0x0c

/-- A read of the register that is addressed, with what it does to it: REG_STAT_A toggles its
update-in-progress bit first, and REG_STAT_C is cleared. -/
def Cmos.read (cmos : Cmos) : Bit32u × Cmos :=
  let reg := if cmos.memAddress = regStatA then
    Function.update cmos.reg regStatA (cmos.reg regStatA ^^^ 0x80) else cmos.reg
  let val := (reg cmos.memAddress).setWidth 32
  (val, { cmos with
    reg := if cmos.memAddress = regStatC then Function.update reg regStatC 0 else reg })

def cmosInp (port : Bit32u) : Emu Bit32u := do
  let machine ← get
  if port = 0x71 then
    if machine.cmos.memAddress ≥ numCmosRegs then emuPanic "cmosInp: bailing.\n"
    else do
      let (val, cmos) := machine.cmos.read
      set { machine with cmos }
      pure val
  else emuPanic "cmosInp: bailing.\n"

def cmosOutp (port val : Bit32u) : Emu Unit :=
  if port = 0x70 then
    modify fun machine => { machine with cmos := { machine.cmos with memAddress := val &&& 0x3f } }
  else emuPanic "cmosOutp: bailing.\n"

def vgaInp (port : Bit32u) : Emu Bit32u := do
  let machine ← get
  if port = 0x3d5 then
    if machine.vga.address > 0x18 then pure 0 else pure (machine.vga.reg machine.vga.address)
  else if port = 0x3da then pure 0
  else emuPanic "vgaInp: bailing.\n"

/-- `vgaOutp` for one byte. -/
def vgaOutpByte (port val : Bit32u) : Emu Unit := do
  if port = 0x3d4 then
    modify fun machine => { machine with vga := { machine.vga with address := val &&& 0x7f } }
    if val &&& 0x7f > 0x18 then emuPanic "vgaOutp: bailing.\n" else pure ()
  else if port = 0x3d5 then
    let machine ← get
    if machine.vga.address > 0x18 then emuPanic "vgaOutp: bailing.\n"
    else
      set { machine with vga := { machine.vga with
        reg := Function.update machine.vga.reg machine.vga.address (val &&& 0xff) } }
  else pure ()

def vgaOutp (iolen port val : Bit32u) : Emu Unit :=
  if iolen = 2 then do
    vgaOutpByte port (val &&& 0xff)
    vgaOutpByte (port + 1) ((val >>> 8) &&& 0xff)
  else vgaOutpByte port val

/-- The handlers look at the port only, not at `iolen`. -/
def inp (_iolen port : Bit32u) : Emu Bit32u :=
  if port = 0x21 then onVm (picInp port)
  else if port = 0x40 ∨ port = 0x61 then onVm (pitInp port)
  else if port = 0x71 then cmosInp port
  else if port = 0x3d5 ∨ port = 0x3da then vgaInp port
  else emuPanic "inp: bailing.\n"

/-- `picOutp` does not look at `iolen`; the handlers after it are told that it is 1. -/
def outp (_iolen port val : Bit32u) : Emu Unit :=
  if port = 0x20 ∨ port = 0x21 ∨ port = 0xa0 ∨ port = 0xa1 then onVm (picOutp port val)
  else if port = 0x40 ∨ port = 0x41 ∨ port = 0x42 ∨ port = 0x43 then onVm (pitOutp port val)
  else if port = 0x61 then onVm (pitOutp port val)
  else if port = 0x70 then cmosOutp port val
  else if port = 0x80 then modify fun machine => { machine with port0x80 := val }
  else if port = 0x3c0 ∨ port = 0x3c8 ∨ port = 0x3c9 ∨ port = 0x3d4 ∨ port = 0x3d5 then
    vgaOutp 1 port val
  else if port = 0x3f2 then pure () -- unsupported
  else emuPanic "outp: bailing.\n"

end Plex86
