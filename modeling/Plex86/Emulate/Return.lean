import Plex86.Emulate.Control
import Plex86.Emulate.Io

namespace Plex86

open Logic

/-- `EFLAGS` bits which IRET will always modify. -/
def iretChangeMask : Bit32u :=
  EFlags.maskID ||| EFlags.maskAC ||| EFlags.maskRF ||| EFlags.maskNT ||| EFlags.maskOF |||
    EFlags.maskDF ||| EFlags.maskTF ||| EFlags.maskSF ||| EFlags.maskZF ||| EFlags.maskAF |||
    EFlags.maskPF ||| EFlags.maskCF

example : iretChangeMask = 0x254dd5#32 := by decide

/-- A data segment the user may keep is null or the Linux user data segment. -/
def checkUserDataSegment (raw : Bit32u) : Mon Unit :=
  let sel : Selector := ⟨raw.setWidth 16⟩
  panicWhen (sel.isNull = false ∧ sel.index ≠ linuxUserDsSlot)
    "doIRET: gdtSlot != LinuxUserDsSlot.\n"

/-- IRET to outer (user) privilege level: get SS:ESP from the kernel stack too. -/
def leaveInnerStack (toCS : Selector) : Mon Unit := do
  let vm ← get
  let esp := vm.context.esp
  let toESP ← getGuestDWord (esp + 12)
  let raw ← getGuestWord (esp + 16)
  let toSS : Selector := ⟨raw⟩
  panicWhen (toSS.isNull = true) "doIRET: return SS NULL.\n"
  panicWhen (toSS.rpl ≠ toCS.rpl) "doIRET: SS.rpl!=CS.rpl.\n"
  let ssDesc ← fetchGuestDescBySel toSS false
  panicWhen (ssDesc.type ≠ 0x12 ∨ ssDesc.dpl ≠ toCS.rpl ∨ ssDesc.p = false)
    "doIRET: bad SS descriptor, type=0x%x, dpl=%u, p=%u.\n"
    [ssDesc.type.setWidth 32, ssDesc.dpl.setWidth 32, bit ssDesc.p]
  -- Need to set CPL before calling other functions which depend on it.
  modify fun vm =>
    { vm with
      guestCPL := 3
      context := { vm.context with ss := toSS.pushedDown, esp := toESP } }
  guestSelectorUpdated .ss toSS
  checkUserDataSegment vm.context.gs
  checkUserDataSegment vm.context.fs
  checkUserDataSegment vm.context.ds
  checkUserDataSegment vm.context.es

/-- Take the return frame off the stack, and the stack itself where the ring changes. -/
def closeFrame (fromCPL : BitVec 2) (toCS : Selector) : Mon Unit :=
  if fromCPL < toCS.rpl then leaveInnerStack toCS
  else modify fun vm => { vm with context := { vm.context with esp := vm.context.esp + 12 } }

/-- Outside PVI mode neither virtual flag is used. -/
def clearVirtualFlags : Mon Unit :=
  modify fun vm =>
    { vm with
      context := { vm.context with
        eflags := EFlags.assign EFlags.maskVIP false
          (EFlags.assign EFlags.maskVIF false vm.context.eflags) } }

/-- The values of `EFLAGS.{VIP,VIF}` and `CR4.PVI` to continue the guest with. -/
def iretVirtualFlags (fromCPL : BitVec 2) (toCS : Selector) (toEFlags : Bit32u) : Mon Unit := do
  let vm ← get
  let pvi := vm.monCr4.getLsbD 1
  if toCS.rpl = 0 then
    -- IRET ring0 --> ring0.  Continue in PVI mode.
    panicWhen (EFlags.if_ toEFlags ≠ EFlags.vif toEFlags)
      "IRET: stack EFLAGS.vif!=if (0x%x).\n" [toEFlags]
    panicWhen (pvi = false) "IRET: r0 -> r0; mon CR4.PVI=0?\n"
    modify fun vm =>
      { vm with
        context := { vm.context with
          eflags := EFlags.assign EFlags.maskVIP false
            (EFlags.assign EFlags.maskVIF (EFlags.if_ toEFlags) vm.context.eflags) } }
  else if fromCPL < toCS.rpl then
    -- IRET ring0 --> ring3.  Transition out of PVI mode.
    panicWhen (EFlags.if_ toEFlags = false) "IRET: r0 -> r3, stack eflags.if=0 (0x%x).\n"
      [toEFlags]
    clearVirtualFlags
    panicWhen (pvi = false) "IRET: r0 -> r3; mon CR4.PVI=0?\n"
    modify fun vm => { vm with monCr4 := vm.monCr4 &&& ~~~2#32 }
  else
    -- IRET ring3 --> ring3.  Remain in non-PVI mode.
    panicWhen (toEFlags &&& (EFlags.maskVIF ||| EFlags.maskVIP) ≠ 0)
      "IRET: r3 -> r3, stack eflags.\x7bvif|vip\x7d=1 (0x%x).\n" [toEFlags]
    clearVirtualFlags
    panicWhen (pvi = true) "IRET: r3 -> r3; mon CR4.PVI=1?\n"

/-- The checks of the values that an IRET pops for CS and EFLAGS. -/
def checkIretFrame (fromCPL : BitVec 2) (toCS : Selector) (toEFlags : Bit32u) : Mon Unit := do
  panicWhen (EFlags.vm toEFlags = true) "doIRET: return EFLAGS.VM=1.\n"
  panicWhen (EFlags.iopl toEFlags ≠ 0) "doIRET: return EFLAGS.IOPL=%u.\n"
    [(EFlags.iopl toEFlags).setWidth 32]
  panicWhen (toCS.isNull = true) "doIRET: return CS NULL.\n"
  panicWhen ((toCS.rpl ≠ 0 ∧ toCS.rpl ≠ 3) ∨ toCS.ti = true) "doIRET: bad return CS=0x%x.\n"
    [toCS.raw.setWidth 32]
  panicWhen (toCS.rpl < fromCPL) "doIRET: to rpl=%u from CPL=%u.\n"
    [toCS.rpl.setWidth 32, fromCPL.setWidth 32]

def doIRET : Mon Unit := do
  let vm ← get
  let fromCPL := vm.guestCPL
  panicWhen (EFlags.nt vm.context.eflags = true) "doIRET: NT=1.\n"
  let esp := vm.context.esp
  let toEIP ← getGuestDWord (esp + 0)
  let raw ← getGuestWord (esp + 4)
  let toEFlags ← getGuestDWord (esp + 8)
  let toCS : Selector := ⟨raw⟩
  checkIretFrame fromCPL toCS toEFlags
  let csDesc ← fetchGuestDescBySel toCS false
  panicWhen (csDesc.type ≠ 0x1a ∨ csDesc.dpl ≠ toCS.rpl ∨ csDesc.p = false)
    "doIRET: bad CS descriptor, type=0x%x, dpl=%u, p=%u.\n"
    [csDesc.type.setWidth 32, csDesc.dpl.setWidth 32, bit csDesc.p]
  closeFrame fromCPL toCS
  -- All values have been fetched from the stack.
  modify fun vm =>
    { vm with context := { vm.context with cs := toCS.pushedDown, eip := toEIP } }
  guestSelectorUpdated .cs toCS
  iretVirtualFlags fromCPL toCS toEFlags
  -- As a safeguard, always set EFLAGS.IF=1
  modify fun vm =>
    { vm with
      context := { vm.context with
        eflags := (EFlags.assign EFlags.maskIF true vm.context.eflags &&& ~~~iretChangeMask) |||
          (toEFlags &&& iretChangeMask) } }

/-- A load of a segment register, as the guest kernel makes it. -/
def loadGuestSegment (sreg : SReg) (selector : Selector) : Mon Unit := do
  let desc ← fetchGuestDescBySel selector false
  panicWhen (desc.dpl ≠ selector.rpl) "loadGuestSegment: descriptor.dpl != selector.rpl.\n"
  -- Always push down to ring3.
  modify fun vm => { vm with context := vm.context.setSeg selector.pushedDown sreg }
  guestSelectorUpdated sreg selector

/-- STI, which faults under PVI when an interrupt is pending; `iLen` bytes long
with its prefixes. -/
def emulateSTI (iLen : Bit32u) : Mon Unit := do
  modify fun vm =>
    { vm with
      context := { vm.context with
        eip := vm.context.eip + iLen
        eflags := EFlags.assign EFlags.maskVIF true vm.context.eflags } }
  let vm ← get
  panicWhen (vm.intr = 0) "STI: system.INTR=0?.\n"
  let vector ← picIAC -- Get interrupt vector from PIC.
  doGuestInterrupt vector 0 0

/-- The CR0 that the monitor runs the guest with. -/
def monCr0For (cr0 : Bit32u) : Bit32u := 0x8001003b#32 ||| (cr0 &&& 0x00040000#32)

def setCRx (crx val32 : Bit32u) : Mon Unit := do
  monInitShadowPaging
  if crx = 0 then
    modify fun vm => { vm with guestCpu := { vm.guestCpu with cr0 := val32 } }
    panicWhen (val32 &&& 0x60000033#32 ≠ 0x00000033#32) "setCR0: guest CR0=0x%x\n" [val32]
    modify fun vm => { vm with monCr0 := monCr0For val32 }
  else if crx = 3 then
    modify fun vm => { vm with guestCpu := { vm.guestCpu with cr3 := val32 } }
    monInitShadowPaging
  else if crx = 4 then
    -- no bit of CR4 may be set, `allowMask` is 0
    panicWhen (val32 ≠ 0) "SetCR4: write of 0x%08x unsupported (allowMask=0x%x)." [val32, 0]
    modify fun vm => { vm with guestCpu := { vm.guestCpu with cr4 := 0 } }
  else monpanic "setCR%u: val=0x%x.\n" [crx, val32]

end Plex86
