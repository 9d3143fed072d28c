import Plex86.Paging.PageTables

/-! The interrupt controller and the timer that the monitor emulates. -/

namespace Plex86

open Logic

/-- The bit of an interrupt request line in the registers of its controller. -/
def irqBit (irq : Bit32u) : Bit32u := 1#32 <<< irq.toNat

/-- Request an interrupt of one controller, and tell whether its output goes
high: the request is new, not masked, and nothing is in service. -/
def Pic.request (pic : Pic) (bitMask : Bit32u) : Pic × Bool :=
  if pic.irr &&& bitMask ≠ 0 then (pic, false) -- Int already requested, nothing useful to do.
  else
    let requested := { pic with irr := pic.irr ||| bitMask }
    (requested, decide (pic.imr &&& bitMask = 0 ∧ pic.isr = 0))

/-- `picIrq` for the lines of the master. -/
def picIrqMaster (irqNum : Bit32u) : Mon Unit :=
  modify fun vm =>
    let (picMaster, signals) := vm.picMaster.request (irqBit irqNum)
    { vm with picMaster, intr := if signals then 1 else vm.intr }

/-- Raise an interrupt request line. -/
def picIrq (irqNum : Bit32u) : Mon Unit := do
  panicWhen (15 < irqNum) "picIrq: irq=%u\n" [irqNum]
  if irqNum ≤ 7 then picIrqMaster irqNum
  else
    let vm ← get
    let (picSlave, signals) := vm.picSlave.request (irqBit (irqNum - 8))
    modify fun vm => { vm with picSlave }
    if signals then picIrqMaster 2 -- Slave output is irq#2 input on Master.

/-- The requests that are not masked out. -/
def Pic.unmasked (pic : Pic) : Bit32u := pic.irr &&& ~~~pic.imr

def picServiceMaster : Mon Unit :=
  modify fun vm =>
    if vm.picMaster.isr ≠ 0 then vm -- An interrupt is already in-service.
    else if vm.picMaster.unmasked = 0 then vm -- No unmasked pending interrupts.
    else { vm with intr := 1 }

/-- Where the search `for (bit=0; bit<=7; bit++)` for a set bit ends. -/
def firstIrq (irr : Bit32u) : Nat :=
  ((List.range 8).find? fun bit => irr.getLsbD bit).getD 8

/-- Move a request into service. -/
def Pic.promote (pic : Pic) (bit : Nat) : Pic :=
  { pic with irr := pic.irr &&& ~~~(1#32 <<< bit), isr := pic.isr ||| (1#32 <<< bit) }

/-- The interrupt acknowledge cycle: take the highest priority request into
service and return its vector. -/
def picIAC : Mon Bit32u := do
  let vm ← get
  panicWhen (vm.intr = 0 ∨ vm.picMaster.isr ≠ 0) "picIAC: INTR=%u, isr=0x%x.\n"
    [vm.intr, vm.picMaster.isr]
  let irr := vm.picMaster.unmasked
  panicWhen (irr = 0) "picIAC: no unmasked irqs.\n"
  -- Find the highest priority unmasked irq.
  let bit := firstIrq irr
  modify fun vm => { vm with picMaster := vm.picMaster.promote bit, intr := 0 }
  return vm.picMaster.vectorOffset + BitVec.ofNat 32 bit

/-- Init command 1: the registers are cleared, and command 2 is expected next. -/
def Pic.initCommand1 (pic : Pic) (val : Bit32u) : Pic :=
  { pic with imr := 0, isr := 0, irr := 0, init := ⟨1, val &&& 1, 2⟩ }

/-- Remove an interrupt from the ISR. -/
def Pic.endOfInterrupt (pic : Pic) (bitmask : Bit32u) : Pic :=
  { pic with isr := pic.isr &&& ~~~bitmask }

/-- A write to the command port of the master. -/
def picCommandMaster (val : Bit32u) : Mon Unit := do
  if val &&& 0x10#32 ≠ 0 then
    modify fun vm => { vm with picMaster := vm.picMaster.initCommand1 val, intr := 0 }
    panicWhen (val &&& 0x0a#32 ≠ 0) "picOutp: bailing.\n"
  else if val &&& 0x18#32 = 0x08 then monpanic "picOutp: bailing.\n" -- OCW3
  else if val = 0x60 ∨ val = 0x63 then
    -- Specific EOI 0 and 3
    let bitmask := irqBit (val - 0x60)
    let vm ← get
    panicWhen (vm.picMaster.isr &&& bitmask = 0) "picOutp: bailing.\n"
    modify fun vm => { vm with picMaster := vm.picMaster.endOfInterrupt bitmask, intr := 0 }
    picServiceMaster -- Give PIC a chance to propogate another interrupt.
  else monpanic "picOutp: bailing.\n"

/-- A write to the command port of the slave. -/
def picCommandSlave (val : Bit32u) : Mon Unit := do
  if val &&& 0x10#32 ≠ 0 then
    modify fun vm => { vm with picSlave := vm.picSlave.initCommand1 val }
    panicWhen (val &&& 0x0a#32 ≠ 0) "picOutp: bailing.\n"
  else monpanic "picOutp: bailing.\n" -- OCW2 and OCW3 unfinished

def picOutp (port val : Bit32u) : Mon Unit := do
  if port = 0x20 then picCommandMaster val
  else if port = 0x21 then
    modify fun vm => { vm with picMaster := { vm.picMaster with imr := val } }
    picServiceMaster
  else if port = 0xa0 then picCommandSlave val
  else if port = 0xa1 then
    modify fun vm => { vm with picSlave := { vm.picSlave with imr := val } }
  else monpanic "picOutp: bailing.\n"

def picInp (port : Bit32u) : Mon Bit32u := do
  let vm ← get
  if port = 0x21 then return vm.picMaster.imr
  else monpanic "vgaInp: bailing.\n"

/-- `hostInitLinuxIOEnvironment`: the interrupt controllers and the timer. -/
def hostInitLinuxIOEnvironment (vm : Vm) : Vm :=
  { vm with
    picMaster := { imr := 0xff, vectorOffset := 0x20 }
    picSlave := { imr := 0xfb, vectorOffset := 0x28 }
    pit := { timer := fun _ => { gate := 1, out := 1 }, bogusCounter := vm.pit.bogusCounter } }

/-- What the clocks that have passed make of a timer: the timer, and whether it expired. -/
def PitTimer.expire (timer : PitTimer) (pitClocks : Bit32u) : PitTimer × Bool :=
  if timer.active = 0 then (timer, false)
  else if pitClocks < timer.counter then
    -- Expired ticks are still less than number of counts left.
    ({ timer with counter := timer.counter - pitClocks }, false)
  else if timer.mode = 0 then ({ timer with counter := 0, active := 0 }, true)
  else if timer.mode = 2 then ({ timer with counter := timer.counterMax }, true)
  else (timer, true)

def Pit.setTimer (pit : Pit) (pitID : Fin 3) (timer : PitTimer) : Pit :=
  { pit with timer := Function.update pit.timer pitID timer }

def setTimer (pitID : Fin 3) (timer : PitTimer) : Mon Unit :=
  modify fun vm => { vm with pit := vm.pit.setTimer pitID timer }

/-- One round of the loop over the timers. -/
def pitExpireTimer (pitClocks : Bit32u) (pitID : Fin 3) : Mon Unit := do
  let vm ← get
  let timer := vm.pit.timer pitID
  let (counted, expired) := timer.expire pitClocks
  panicWhen (expired = true ∧ timer.mode ≠ 0 ∧ timer.mode ≠ 2) "pitExpireClocks: mode=%u.\n"
    [timer.mode]
  setTimer pitID counted
  if expired = true ∧ pitID = 0 then picIrq 0

def pitExpireClocks (pitClocks : Bit32u) : Mon Unit := do
  pitExpireTimer pitClocks 0
  pitExpireTimer pitClocks 1
  pitExpireTimer pitClocks 2

/-- `PIT_LATCH_MODE_16BIT` -/
def pitLatchMode16Bit : Bit32u := 12

namespace PitTimer

/-- Half of a count is written, the low byte first: the timer, and whether the
transfer is complete. -/
def latchInput (timer : PitTimer) (val : Bit32u) : PitTimer × Bool :=
  if timer.inputLatchToggle = 0 then
    ({ timer with inputLatchValue := val, inputLatchToggle := 1 }, false)
  else
    ({ timer with
      inputLatchValue := timer.inputLatchValue ||| (val <<< 8)
      inputLatchToggle := 0 }, true)

/-- The count moves on from the latch, which is cleared for further loading.
Reprogramming the counter clears the output latch. -/
def transferred (timer : PitTimer) : PitTimer :=
  { timer with
    counterMax := timer.inputLatchValue
    inputLatchValue := 0
    outputLatchFull := 0
    outputLatchToggle := 0 }

/-- Interrupt on Terminal Count (single timeout). -/
def startTimeout (timer : PitTimer) : PitTimer :=
  { timer with
    counter := timer.counterMax
    active := 1
    out := if timer.gate ≠ 0 then 0 else timer.out }

/-- Rate generator. Writing a new count while counting does not affect the
current counting sequence. -/
def startRate (timer : PitTimer) : PitTimer :=
  if timer.gate ≠ 0 ∧ timer.active = 0 then
    { timer with counter := timer.counterMax, active := 1, out := 1 }
  else timer

/-- The control word is written to the counter. -/
def control (timer : PitTimer) (mode bcd : Bit32u) : PitTimer :=
  { timer with
    mode := mode
    latchMode := pitLatchMode16Bit
    inputLatchValue := 0
    inputLatchToggle := 0
    bcd := bcd
    out := if mode = 0 then 0 else 1 }

/-- Counter Latch Command. -/
def latchOutput (timer : PitTimer) : PitTimer :=
  { timer with outputLatchFull := 1, outputLatchValue := timer.counter, outputLatchToggle := 0 }

end PitTimer

/-- A write to the count register of a timer. -/
def pitOutpCount (pitID : Fin 3) (val : Bit32u) : Mon Unit := do
  let vm ← get
  -- We only need to support 16-bit latch mode for Linux.
  panicWhen ((vm.pit.timer pitID).latchMode ≠ pitLatchMode16Bit) "pitOutp: bailing.\n"
  let (latched, xferComplete) := (vm.pit.timer pitID).latchInput val
  setTimer pitID latched
  if xferComplete then
    let timer := latched.transferred
    setTimer pitID timer
    if timer.mode = 0 then setTimer pitID timer.startTimeout
    else if timer.mode = 2 then
      panicWhen (timer.counterMax = 1) "pitOutp: bailing.\n"
      setTimer pitID timer.startRate
    else monpanic "pitOutp: bailing.\n"

/-- A write to the control register: the command for one counter. -/
def pitOutpCommand (pitID : Fin 3) (rw mode bcd : Bit32u) : Mon Unit := do
  let vm ← get
  panicWhen (5 < mode) "pitOutp: bailing.\n"
  panicWhen (bcd ≠ 0) "pitOutp: bailing.\n" -- Only deal with binary counting.
  if rw = 0 then
    panicWhen ((vm.pit.timer pitID).outputLatchFull ≠ 0) "pitOutp: bailing.\n"
    setTimer pitID (vm.pit.timer pitID).latchOutput
  else
    panicWhen (rw ≠ 3) "pitOutp: bailing.\n" -- Only support 16-bit counters.
    panicWhen (mode ≠ 0 ∧ mode ≠ 2) "pitOutp: bailing.\n"
    setTimer pitID ((vm.pit.timer pitID).control mode bcd)

def pitOutpControl (val : Bit32u) : Mon Unit :=
  let pitID := (val >>> 6) &&& 3
  let rw := (val >>> 4) &&& 3
  let mode := (val >>> 1) &&& 7
  let bcd := val &&& 1
  if known : pitID.toNat < 3 then pitOutpCommand ⟨pitID.toNat, known⟩ rw mode bcd
  else monpanic "pitOutp: bailing.\n" -- Read Back Command not supported.

/-- A write to port 0x61, whose bit 0 is the gate of timer 2. No change of the
gate is supported. -/
def pitOutpGate (val : Bit32u) : Mon Unit := do
  modify fun vm => { vm with pit := { vm.pit with speakerDataOn := (val >>> 1) &&& 1 } }
  let vm ← get
  if val &&& 1 = (vm.pit.timer 2).gate then return ()
  else
    setTimer 2 { vm.pit.timer 2 with gate := val &&& 1 }
    monpanic "pitOutp: bailing.\n"

def pitOutp (port val : Bit32u) : Mon Unit := do
  if port = 0x40 then pitOutpCount 0 val
  else if port = 0x41 then pitOutpCount 1 val
  else if port = 0x42 then pitOutpCount 2 val
  else if port = 0x43 then pitOutpControl val
  else if port = 0x61 then pitOutpGate val
  else monpanic "pitOutp: bailing.\n"

/-- A read of the count that was latched for timer 0, the low byte first. -/
def pitInpCount : Mon Bit32u := do
  let vm ← get
  let timer := vm.pit.timer 0
  panicWhen (timer.outputLatchFull = 0) "pitInp: bailing.\n"
  if timer.outputLatchToggle = 0 then
    setTimer 0 { timer with outputLatchToggle := 1 }
    return timer.outputLatchValue &&& 0xff
  else
    setTimer 0 { timer with outputLatchFull := 0, outputLatchToggle := 0 }
    return (timer.outputLatchValue >>> 8) &&& 0xff

/-- A read of port 0x61. The output of timer 2 changes with every hundredth. -/
def Pit.polled (pit : Pit) : Pit :=
  let counted := { pit with
    refreshClockDiv2 := if pit.refreshClockDiv2 = 0 then 1 else 0
    bogusCounter := pit.bogusCounter + 1 }
  if 100 < counted.bogusCounter then
    { counted.setTimer 2 { counted.timer 2 with
        out := if (counted.timer 2).out = 0 then 1 else 0 } with bogusCounter := 0 }
  else counted

def pitInp (port : Bit32u) : Mon Bit32u := do
  if port = 0x40 then pitInpCount
  else if port = 0x61 then
    modify fun vm => { vm with pit := vm.pit.polled }
    let vm ← get
    return ((vm.pit.timer 2).out <<< 5) ||| (vm.pit.refreshClockDiv2 <<< 4) |||
      (vm.pit.speakerDataOn <<< 1) ||| (if (vm.pit.timer 2).gate ≠ 0 then 1 else 0)
  else monpanic "pitInp: bailing.\n"

end Plex86
