import Plex86.Emulate.Return

/-! What the monitor does when the guest faults, and just before it resumes the guest. -/

namespace Plex86

open Logic

def exceptionPF : Bit32u := 14

/-- `doGuestFault` for a page fault. -/
def doGuestFaultPF (errorCode : Bit32u) : Mon Unit := do
  let vm ← get
  -- A fault from non-user code needs the privilege bit of its error code fixed up.
  let errorCode := if vm.guestCPL ≠ 3 then errorCode &&& ~~~(1#32 <<< 2) else errorCode
  doGuestInterrupt exceptionPF (intFlagAssertRF ||| intFlagPushError) errorCode

/-- What `guestPageFault` makes of the outcome of `mapGuestLinAddr`. -/
def afterMapping (cr2 error : Bit32u) : MapLin → Mon Unit
  | .ok _ => return ()
  | .monConflict => monpanic "guestPageFault: MapLinMonConflict:\n"
  | .alreadyMapped => monpanic "guestPageFault: MapLinAlreadyMapped (0x%x):\n" [cr2]
  | .pPageOOB => monpanic "guestPageFault: MapLinPPageOOB (0x%x):\n" [cr2]
  | .emulate => monpanic "guestPageFault: MapLinEmulate:\n"
  | .exception _ => do
      modify fun vm => { vm with guestCpu := { vm.guestCpu with cr2 } }
      doGuestFaultPF error

def guestPageFault (cr2 : Bit32u) : Mon Unit := do
  let vm ← get
  -- Make sure this laddr does not conflict with monitor space
  panicWhen (vm.setup.inMonitor cr2) "PageFault: guest access to monitor space\n"
  let error := vm.context.error
  panicWhen (error &&& 0x8#32 ≠ 0) "guestPageFault: RSVD\n"
  let us := decide (vm.guestCPL = 3)
  let rw := error.getLsbD 1
  let mapResult ← mapGuestLinAddr cr2 us rw
  afterMapping cr2 error mapResult

def cyclesOverhead : BitVec 64 := 980

/-- The cycles since the last sample, less the overhead of sampling. -/
def countedCycles (cyclesElapsed : BitVec 64) : BitVec 64 :=
  if cyclesOverhead < cyclesElapsed then cyclesElapsed - cyclesOverhead else 0

/-- The clock part of `preGuest`. -/
def preGuestClock : Mon Unit := do
  modify fun vm => { vm with cyclesElapsed := countedCycles vm.cyclesElapsed }
  let vm ← get
  if vm.setup.cpuToPitRatio.setWidth 64 < vm.cyclesElapsed then
    let pitClocks := vm.cyclesElapsed.setWidth 32 / vm.setup.cpuToPitRatio
    modify fun vm => { vm with cyclesElapsed := 0 } -- Reset (fixme: keep remainder)
    pitExpireClocks pitClocks

/-- The part of `preGuest` that samples and resets `halIrq`. -/
def preGuestHal : Mon Unit := do
  let vm ← get
  let irq := vm.guestCpu.halIrq
  if irq ≠ 0xffffffff#32 then
    modify fun vm => { vm with guestCpu := { vm.guestCpu with halIrq := 0xffffffff#32 } }
    panicWhen (irq ≠ 3) "preGuest: halIrq!=3.\n"
    picIrq irq

/-- If the INTR line is high, and the VIF flag is high, the guest is accepting interrupts. -/
def acceptInterrupt : Mon Unit := do
  let vm ← get
  if vm.intr ≠ 0 ∧ EFlags.vif vm.context.eflags = true then
    let vector ← picIAC
    doGuestInterrupt vector 0 0

/-- The part of `preGuest` that delivers an interrupt. -/
def preGuestInterrupt : Mon Unit := do
  let vm ← get
  if vm.setup.linuxVMMode then
    acceptInterrupt
    -- Set Virtual Interrupt Pending flag to status of INTR line.
    modify fun vm =>
      { vm with
        context := { vm.context with
          eflags := EFlags.assign EFlags.maskVIP (vm.intr.getLsbD 0) vm.context.eflags } }

def preGuest : Mon Unit := do
  preGuestClock
  preGuestHal
  preGuestInterrupt
  let vm ← get
  if EFlags.if_ vm.context.eflags = false then throw .monpanicNomess

/-- What `handleGuestFault` does whatever the fault. -/
def enterGuestFault (cycles : BitVec 64) : Mon Unit := do
  modify fun vm => { vm with cyclesElapsed := vm.cyclesElapsed + cycles }
  let vm ← get
  panicWhen (EFlags.if_ vm.context.eflags = false) "handleGuestFault: guest IF=0.\n"
  panicWhen (EFlags.vm vm.context.eflags = true) "handleGuestFault: eflags.VM=1.\n"
  modify fun vm =>
    { vm with
      context := { vm.context with
        eflags := EFlags.assign EFlags.maskVIP false vm.context.eflags } }

end Plex86
