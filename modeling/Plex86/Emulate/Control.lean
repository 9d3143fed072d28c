import Plex86.Emulate.Memory

/-! Transfers of control that the monitor carries out for the guest: interrupts,
returns from them, and loads of the control registers. -/

namespace Plex86

open Logic

-- Flags to pass to `doGuestInterrupt`
def intFlagPushError : Bit32u := 1
def intFlagAssertRF : Bit32u := 2
def intFlagSoftInt : Bit32u := 4

-- Linux 2.4.20
def linuxBootCsSlot : BitVec 13 := 2
def linuxBootDsSlot : BitVec 13 := 3
def linuxKernelCsSlot : BitVec 13 := 2
def linuxKernelDsSlot : BitVec 13 := 3
def linuxUserCsSlot : BitVec 13 := 4
def linuxUserDsSlot : BitVec 13 := 5

def vmMonCsSlot : BitVec 13 := 16
def vmMonDsSlot : BitVec 13 := 17
def vmMonTssSlot : BitVec 13 := 18

/-- `MON_GDT_SIZE/8` -/
def monGdtSlots : BitVec 13 := 512

/-- `OKGuestSlot` -/
def okGuestSlot (gdtSlot : BitVec 13) : Bool :=
  gdtSlot ≠ 0 && (gdtSlot < vmMonCsSlot || (vmMonTssSlot < gdtSlot && gdtSlot < monGdtSlots))

/-- The slots that Linux uses for a segment register at a privilege level. -/
def linuxSlotOK (guestCPL : BitVec 2) (segno : SReg) (gdtSlot : BitVec 13) : Bool :=
  if guestCPL = 0 then
    if segno = .cs then gdtSlot = linuxBootCsSlot || gdtSlot = linuxKernelCsSlot
    else gdtSlot = linuxBootDsSlot || gdtSlot = linuxKernelDsSlot || gdtSlot = linuxUserDsSlot
  else if segno = .cs then gdtSlot = linuxUserCsSlot
  else gdtSlot = linuxUserDsSlot

/-- The panic message for a slot that `linuxSlotOK` refuses. -/
def linuxSlotMessage (guestCPL : BitVec 2) (segno : SReg) : String :=
  if guestCPL = 0 then
    if segno = .cs then "GuestSU: not linux kern CS.\n" else "GuestSU: not linux kern DS.\n"
  else if segno = .cs then "GuestSU: not linux user cs.\n"
  else "GuestSU: not linux user ds.\n"

/-- The checks of a guest descriptor before it goes into the monitor's GDT. -/
def checkGuestDesc (segno : SReg) (sel : Selector) (desc : Descriptor) : Mon Unit := do
  let vm ← get
  if vm.setup.linuxVMMode then
    panicWhen (sel.rpl ≠ desc.dpl) "GuestSU: guest desc.dpl(%u) != sel.rpl(%u)\n"
      [desc.dpl.setWidth 32, sel.rpl.setWidth 32]
    panicWhen (desc.dpl ≠ 0 ∧ desc.dpl ≠ 3) "GuestSU: guest desc.dpl(%u) strange\n"
      [desc.dpl.setWidth 32]
    panicWhen (linuxSlotOK vm.guestCPL segno sel.index = false)
      (linuxSlotMessage vm.guestCPL segno)
  else
    -- Normal mode.  Only handle user segments.
    panicWhen (sel.rpl ≠ 3 ∨ desc.dpl ≠ 3) "GuestSU: rpl!=3/dpl!=3.\n"
    panicWhen (okGuestSlot sel.index = false) "GuestSU: !okslot.\n"

def guestSelectorUpdated (segno : SReg) (sel : Selector) : Mon Unit := do
  if segno = .cs ∨ sel.isNull = false then
    let vm ← get
    -- We don't support LDT usage.
    panicWhen (sel.ti = true ∨ sel.index = 0) "GuestSU: invalid selector 0x%x.\n"
      [sel.raw.setWidth 32]
    panicWhen (vm.guestCpu.gdtr.limit.setWidth 32 < sel.gdtOffset + 7)
      "GuestSU: selector=0x%x OOB.\n" [sel.raw.setWidth 32]
    let desc ← fetchGuestDescByLAddr (vm.guestCpu.gdtr.base + sel.gdtOffset)
    checkGuestDesc segno sel desc
    -- Descriptors are always virtualized down to ring3.
    modify fun vm => { vm with gdt := Function.update vm.gdt sel.index (desc.setDpl 3) }

/-- The gate for a vector, from the guest's IDT. -/
def fetchGate (vector intFlags : Bit32u) : Mon Gate := do
  let vm ← get
  let idtr := vm.guestCpu.idtr
  panicWhen (idtr.limit.setWidth 32 < (vector <<< 3) + 7)
    "doGuestInterrupt: vector(%u) OOB.\n" [vector]
  panicWhen (idtr.base &&& 7#32 ≠ 0) "doGuestInterrupt: idtr.base not 8-byte aligned.\n"
  let desc ← fetchGuestDescByLAddr (idtr.base + (vector <<< 3))
  let gate : Gate := ⟨desc.raw⟩
  panicWhen (gate.p = false) "doGuestInterrupt: p=%u\n" [bit gate.p]
  panicWhen (gate.type ≠ 14 ∧ gate.type ≠ 15) "doGuestInterrupt: desc type(%u)!=14.\n"
    [gate.type.setWidth 32]
  panicWhen (intFlags &&& intFlagSoftInt ≠ 0 ∧ gate.dpl < vm.guestCPL)
    "doGuestInterrupt: intIb, dpl(%u)<CPL(%u).\n"
    [gate.dpl.setWidth 32, vm.guestCPL.setWidth 32]
  return gate

/-- The descriptor of the code segment that a gate leads to. -/
def fetchHandlerCS (csSel : Selector) : Mon Descriptor := do
  panicWhen (csSel.isNull = true) "doGuestInterrupt: gate selector NULL.\n"
  let desc ← fetchGuestDescBySel csSel false
  panicWhen (desc.type ≠ 0x1a ∨ desc.dpl ≠ 0 ∨ desc.p = false)
    "doGuestInterrupt: bad CS descriptor, type=0x%x, dpl=%u, p=%u.\n"
    [desc.type.setWidth 32, desc.dpl.setWidth 32, bit desc.p]
  return desc

namespace Descriptor

/-- The segment limit in bytes. -/
def limit (desc : Descriptor) : Bit32u :=
  let raw := (desc.limitHigh <<< 16) ||| desc.limitLow
  if desc.g then (raw <<< 12) ||| 0xfff#32 else raw

def base (desc : Descriptor) : Bit32u :=
  (desc.baseHigh <<< 24) ||| (desc.baseMed <<< 16) ||| desc.baseLow

end Descriptor

/-- Get inner SS/ESP values from TSS. -/
def fetchInnerStack (csDesc : Descriptor) : Mon (Bit32u × Selector) := do
  let vm ← get
  let tss := vm.guestCpu.tr.des
  panicWhen (tss.type ≠ 11) "doGuestInterrupt: TR.type(%u)!=11.\n" [tss.type.setWidth 32]
  let tssStackInfoOffset : Bit32u := 8 * csDesc.dpl.setWidth 32 + 4
  panicWhen (tss.limit < tssStackInfoOffset + 7) "doGuestInterrupt: bad TR.limit.\n"
  let tssESP ← getGuestDWord (tss.base + tssStackInfoOffset)
  let raw ← getGuestWord (tss.base + tssStackInfoOffset + 4)
  let ssSel : Selector := ⟨raw⟩
  panicWhen (ssSel.isNull = true) "doGuestInterrupt: bad SS value 0x%x.\n" [raw.setWidth 32]
  panicWhen (ssSel.rpl ≠ csDesc.dpl) "doGuestInterrupt: ss.rpl != cs.rpl.\n"
  let ssDesc ← fetchGuestDescBySel ssSel false
  panicWhen (ssDesc.type ≠ 0x12 ∨ ssDesc.dpl ≠ 0 ∨ ssDesc.p = false)
    "doGuestInterrupt: bad SS descriptor, type=0x%x, dpl=%u, p=%u.\n"
    [ssDesc.type.setWidth 32, ssDesc.dpl.setWidth 32, bit ssDesc.p]
  return (tssESP, ssSel)

/-- Interrupt to inner (system) ring: switch to its stack and push SS and ESP on it. -/
def enterInnerStack (csSel : Selector) (csDesc : Descriptor) : Mon Unit := do
  let (tssESP, ssSel) ← fetchInnerStack csDesc
  let vm ← get
  let oldESP := vm.context.esp
  let oldSS := vm.context.ss
  -- Need to set CPL before calling other functions which depend on it.
  modify fun vm =>
    { vm with
      guestCPL := csSel.rpl
      context := { vm.context with ss := ssSel.pushedDown, esp := tssESP } }
  guestSelectorUpdated .ss ssSel
  modify fun vm => { vm with context := { vm.context with esp := vm.context.esp - 20 } }
  let esp := tssESP - 20
  writeGuestDWord (esp + 16) oldSS
  writeGuestDWord (esp + 12) oldESP

/-- The flags that an interrupt pushes. In Linux mode the interrupt flag of
ring 0 is kept in VIF and copied to IF. -/
def pushedEFlags (linuxVMMode : Bool) (fromCPL : BitVec 2) (eflags : Bit32u) : Bit32u :=
  if linuxVMMode = true ∧ fromCPL = 0 then
    if eflags &&& EFlags.maskVIF ≠ 0 then eflags ||| EFlags.maskIF
    else eflags &&& ~~~EFlags.maskIF
  else eflags

/-- The flags that the handler asks for: cleared by the gate. -/
def handlerEFlags (gate : Gate) (pushed : Bit32u) : Bit32u :=
  let cleared := pushed &&&
    ~~~(EFlags.maskVM ||| EFlags.maskRF ||| EFlags.maskNT ||| EFlags.maskTF)
  if gate.type = 14 then cleared &&& ~~~EFlags.maskIF else cleared

/-- Resume the guest with these flags. In Linux kernel code PVI manages IF. -/
def resumeWithEFlags (eflags : Bit32u) : Mon Unit := do
  let vm ← get
  let kernel := vm.setup.linuxVMMode = true ∧ vm.guestCPL = 0
  panicWhen (¬ kernel ∧ eflags &&& EFlags.maskIF = 0) "doGI: IF=0.\n"
  let newCR4 : Bit32u := if kernel then 2 else 0 -- TSD=0, PVI
  let oldEFlags :=
    if kernel then
      if eflags &&& EFlags.maskIF ≠ 0 then eflags ||| EFlags.maskVIF
      else eflags &&& ~~~EFlags.maskVIF
    else eflags
  -- ALWAYS set the actual value of IF to 1
  modify fun vm =>
    { vm with
      context := { vm.context with eflags := oldEFlags ||| EFlags.maskIF }
      monCr4 := newCR4 }

/-- Push the return frame, and an error code where there is one. -/
def pushFrame (fromCPL : BitVec 2) (oldEFlags intFlags errorCode : Bit32u) : Mon Unit := do
  let vm ← get
  let esp := vm.context.esp
  writeGuestDWord (esp + 8) oldEFlags
  writeGuestDWord (esp + 4) ((vm.context.cs &&& ~~~3#32) ||| fromCPL.setWidth 32)
  writeGuestDWord (esp + 0) vm.context.eip
  if intFlags &&& intFlagPushError ≠ 0 then
    modify fun vm => { vm with context := { vm.context with esp := vm.context.esp - 4 } }
    writeGuestDWord (esp - 4) errorCode

/-- Make room for the return frame, on the inner stack where the ring changes. -/
def openFrame (fromCPL : BitVec 2) (csSel : Selector) (csDesc : Descriptor) : Mon Unit :=
  if csDesc.dpl < fromCPL then enterInnerStack csSel csDesc
  else modify fun vm => { vm with context := { vm.context with esp := vm.context.esp - 12 } }

def doGuestInterrupt (vector intFlags errorCode : Bit32u) : Mon Unit := do
  let vm ← get
  let fromCPL := vm.guestCPL
  let gate ← fetchGate vector intFlags
  let csSel := gate.selector
  let csDesc ← fetchHandlerCS csSel
  let oldEFlags := pushedEFlags vm.setup.linuxVMMode fromCPL vm.context.eflags
  openFrame fromCPL csSel csDesc
  pushFrame fromCPL oldEFlags intFlags errorCode
  modify fun vm =>
    { vm with context := { vm.context with cs := csSel.pushedDown, eip := gate.offset } }
  guestSelectorUpdated .cs csSel
  resumeWithEFlags (handlerEFlags gate oldEFlags)

end Plex86
