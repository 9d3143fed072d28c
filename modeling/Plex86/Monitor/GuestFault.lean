import Plex86.Monitor.Instruction

/-! `handleGuestFault`: what the monitor does about a fault of the guest, by its
vector, with the instructions that it emulates for it. -/

namespace Plex86

open Logic Vm

def exceptionDE : Bit32u := 0
def exceptionDB : Bit32u := 1
def exceptionBP : Bit32u := 3
def exceptionOF : Bit32u := 4
def exceptionBR : Bit32u := 5
def exceptionUD : Bit32u := 6
def exceptionNM : Bit32u := 7
def exceptionNP : Bit32u := 11
def exceptionSS : Bit32u := 12
def exceptionGP : Bit32u := 13
def exceptionMF : Bit32u := 16
def exceptionAC : Bit32u := 17

/-- The instructions of user code that are emulated: INT Ib. -/
def emulateUserInstr : Emu Unit := do
  let machine ← get
  let opcode ← onVm (getObjectLAddr machine.vm.context.eip 15)
  let b0 ← Emu.byteAt opcode 0
  if b0 = 0xcd then do
    let ib ← Emu.byteAt opcode 1
    Emu.commit 2 -- Commit instruction length.
    onVm (doGuestInterrupt (ib.setWidth 32) intFlagSoftInt 0)
  else emuPanic "emulateUserInstr: b0=0x%x unhandled.\n" [b0.setWidth 32]

/-- An instruction of the guest kernel has to be one that is emulated. -/
def emulateOrPanic (surroundings : Surroundings) (message : String) : Emu Unit := do
  if ← emulateSysInstr surroundings then pure () else emuPanic message

def doGuestFault (surroundings : Surroundings) (fault errorCode : Bit32u) : Emu Unit := do
  let machine ← get
  if fault = exceptionUD ∨ fault = exceptionGP then
    if machine.vm.guestCPL = 0 then
      emulateOrPanic surroundings "doGuestFault: emulateSI failed.\n"
    else emulateUserInstr
  else if fault = exceptionNM then
    if machine.vm.guestCPL = 0 then
      emulateOrPanic surroundings "ExceptionNM: emulateSysInstr failed.\n"
    else onVm (doGuestInterrupt exceptionNM intFlagAssertRF 0) -- invoke kernel #NM handler
  else if fault = exceptionPF then onVm (doGuestFaultPF errorCode)
  else emuPanic "doGuestFault: unhandled exception %u.\n" [fault]

/-- The vectors that are passed on to `doGuestFault`. -/
def passedOn : List Bit32u :=
  [exceptionDE, exceptionBP, exceptionOF, exceptionNM, exceptionMF, exceptionUD, exceptionGP]

/-- `executeMethod` of `vm_t`, which is never set. -/
def noMethod : Bit32u := 0

/-- The `switch` over the vector. -/
def dispatchFault (surroundings : Surroundings) (cr2 vector : Bit32u) : Emu Unit :=
  if vector = exceptionDB then emuPanic "handleGuestFault: #DB, method=%u not coded\n" [noMethod]
  else if vector = exceptionBR then emuPanic "handleGuestFault: BR unfinished.\n"
  else if vector ∈ passedOn then doGuestFault surroundings vector 0
  else if vector = exceptionNP ∨ vector = exceptionSS ∨ vector = exceptionAC then
    emuPanic "handleGuestFault: NP/SS/AC unfinished.\n"
  else if vector = exceptionPF then onVm (guestPageFault cr2)
  else emuPanic "handleGuestFault: Unhandled Fault: %u\n" [vector]

def handleGuestFault (surroundings : Surroundings) (cycles : BitVec 64) (cr2 : Bit32u) :
    Emu Unit := do
  onVm (enterGuestFault cycles)
  let machine ← get
  dispatchFault surroundings cr2 machine.vm.context.vector

end Plex86
