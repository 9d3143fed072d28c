import Plex86.Emulate.Return

/-! The guest as the guest itself sees it: registers and physical memory, with no
pinned pages, windows or shadow tables in between; and what it makes of an
address, an interrupt and a return from one. -/

namespace Plex86

open Logic

/-- The machine without what it takes to reach guest memory. -/
def Vm.core (vm : Vm) : Vm :=
  { vm with
    monRequest := .none, pinReqPPI := 0, shadow := {}, nexusPageTbl := fun _ => ⟨0⟩, pins := {}
    hostCalls := [], accesses := [] }

/-- The bytes from a place on, as `readBytes` fetches them. -/
def bytesFrom (bytes : Bytes) (offset : Nat) : Nat → List Bit8u
  | 0 => []
  | count + 1 => loadWord 8 bytes offset :: bytesFrom bytes (offset + 1) count

namespace Vm

/-- A word of physical memory. -/
def physWord (width : Nat) (vm : Vm) (pAddr : Bit32u) : BitVec width :=
  loadWord width (vm.mem (pAddr >>> 12)) (pageOffset pAddr)

/-- The physical address that the guest's tables give a linear one. -/
def translated (vm : Vm) (lAddr : Bit32u) : Bit32u :=
  if ¬ vm.guestCpu.pg then lAddr
  else if vm.guestCpu.cr4 &&& 0x30#32 ≠ 0 then linAddrNotAvailable
  else
    let pdeAddr := pdeAddrOf vm.guestCpu.cr3 lAddr
    if vm.setup.guestNBytes ≤ pdeAddr then linAddrNotAvailable
    else
      let pde := vm.physWord 32 pdeAddr
      if ¬ pde.getLsbD 0 then linAddrNotAvailable
      else
        let pteAddr := pteAddrOf pde lAddr
        if vm.setup.guestNBytes ≤ pteAddr then linAddrNotAvailable
        else
          let pte := vm.physWord 32 pteAddr
          if ¬ pte.getLsbD 0 then linAddrNotAvailable
          else (pte &&& 0xfffff000#32) ||| (lAddr &&& 0xfff#32)

/-- The address is mapped, to a place with room before the end of memory. -/
def Mapped (vm : Vm) (lAddr room : Bit32u) : Prop :=
  vm.translated lAddr ≠ linAddrNotAvailable ∧ ¬ vm.setup.guestNBytes - room < vm.translated lAddr

/-- How much of an object lies in the page it starts in. -/
def headLen (vm : Vm) (lAddr : Bit32u) : Bit32u := 0x1000#32 - (vm.translated lAddr &&& 0xfff#32)

def ObjectMapped (vm : Vm) (lAddr len : Bit32u) : Prop :=
  if vm.translated lAddr &&& 0xfff#32 ≤ 0x1000#32 - len then vm.Mapped lAddr len
  else vm.Mapped lAddr (vm.headLen lAddr) ∧
    vm.Mapped (lAddr + vm.headLen lAddr) (len - vm.headLen lAddr)

def objectAt (vm : Vm) (lAddr len : Bit32u) : List Bit8u :=
  let pAddr := vm.translated lAddr
  let bytes := vm.mem (pAddr >>> 12)
  if pAddr &&& 0xfff#32 ≤ 0x1000#32 - len then
    if len = 4 then dwordBytes (loadWord 32 bytes (pAddr &&& 0xfff#32).toNat)
    else bytesFrom bytes (pAddr &&& 0xfff#32).toNat len.toNat
  else
    bytesFrom bytes (pAddr &&& 0xfff#32).toNat (vm.headLen lAddr).toNat ++
      bytesFrom (vm.mem (vm.translated (lAddr + vm.headLen lAddr) >>> 12)) 0
        (len - vm.headLen lAddr).toNat

/-- The number of `width` bits at an address, `len` bytes, lies in one page. -/
def InPage (lAddr len : Bit32u) : Prop := lAddr &&& 0xfff#32 ≤ 0x1000#32 - len

instance (lAddr len : Bit32u) : Decidable (InPage lAddr len) := inferInstanceAs (Decidable (_ ≤ _))

def WordMapped (vm : Vm) (lAddr len : Bit32u) : Prop :=
  if InPage lAddr len then vm.Mapped lAddr len else vm.ObjectMapped lAddr len

/-- The word at a linear address. -/
def wordAt (width : Nat) (vm : Vm) (lAddr len : Bit32u) : BitVec width :=
  if InPage lAddr len then loadWord width (vm.mem (vm.translated lAddr >>> 12)) (pageOffset lAddr)
  else BitVec.ofNat width (numberOf (vm.objectAt lAddr len))

/-- A dword can be stored at the address, in one page. -/
def Storable (vm : Vm) (lAddr : Bit32u) : Prop :=
  vm.translated lAddr ≠ linAddrNotAvailable ∧ ¬ vm.setup.guestNBytes - 3 ≤ vm.translated lAddr ∧
    ¬ 0xffd#32 ≤ vm.translated lAddr &&& 0xfff#32

def stored (vm : Vm) (lAddr val : Bit32u) : Vm :=
  let pAddr := vm.translated lAddr
  { vm with
    mem := Function.update vm.mem (pAddr >>> 12)
      (storeWord (vm.mem (pAddr >>> 12)) (pageOffset pAddr) val) }

@[simp] theorem stored_setup (vm : Vm) (lAddr val : Bit32u) :
    (vm.stored lAddr val).setup = vm.setup := rfl
@[simp] theorem stored_guestCpu (vm : Vm) (lAddr val : Bit32u) :
    (vm.stored lAddr val).guestCpu = vm.guestCpu := rfl
@[simp] theorem stored_context (vm : Vm) (lAddr val : Bit32u) :
    (vm.stored lAddr val).context = vm.context := rfl
@[simp] theorem stored_guestCPL (vm : Vm) (lAddr val : Bit32u) :
    (vm.stored lAddr val).guestCPL = vm.guestCPL := rfl
@[simp] theorem stored_monCr4 (vm : Vm) (lAddr val : Bit32u) :
    (vm.stored lAddr val).monCr4 = vm.monCr4 := rfl
@[simp] theorem stored_gdt (vm : Vm) (lAddr val : Bit32u) :
    (vm.stored lAddr val).gdt = vm.gdt := rfl

/-- A descriptor can be read at the address. -/
def DescMapped (vm : Vm) (laddr : Bit32u) : Prop :=
  vm.translated laddr ≠ linAddrNotAvailable ∧ ¬ vm.translated laddr &&& 7#32 ≠ 0 ∧
    ¬ vm.setup.guestNBytes - 7 ≤ vm.translated laddr

def descAt (vm : Vm) (laddr : Bit32u) : Descriptor := ⟨vm.physWord 64 (vm.translated laddr)⟩

/-- The descriptor that a selector names in the guest's GDT. -/
def descOf (vm : Vm) (sel : Selector) : Descriptor := vm.descAt (vm.guestCpu.gdtr.base + sel.gdtOffset)

/-- The descriptor of the selector can be read, and has its privilege level. -/
structure DescOK (vm : Vm) (sel : Selector) : Prop where
  table : sel.ti = false
  notNull : sel.isNull = false
  inside : ¬ vm.guestCpu.gdtr.limit.setWidth 32 < sel.gdtOffset + 7
  mapped : vm.DescMapped (vm.guestCpu.gdtr.base + sel.gdtOffset)
  level : (vm.descOf sel).dpl = sel.rpl

/-- The monitor accepts a descriptor for a segment register. -/
def SegmentAllowed (vm : Vm) (segno : SReg) (sel : Selector) (desc : Descriptor) : Prop :=
  if vm.setup.linuxVMMode then
    sel.rpl = desc.dpl ∧ (desc.dpl = 0 ∨ desc.dpl = 3) ∧
      linuxSlotOK vm.guestCPL segno sel.index = true
  else sel.rpl = 3 ∧ desc.dpl = 3 ∧ okGuestSlot sel.index = true

/-- A selector that `guestSelectorUpdated` does not pass over. -/
def Loads (segno : SReg) (sel : Selector) : Prop := segno = .cs ∨ sel.isNull = false

instance (segno : SReg) (sel : Selector) : Decidable (Loads segno sel) :=
  inferInstanceAs (Decidable (_ ∨ _))

/-- The monitor can bring its GDT up to date with the selector. -/
structure SegmentOK (vm : Vm) (segno : SReg) (sel : Selector) : Prop where
  valid : sel.ti = false ∧ sel.index ≠ 0
  inside : ¬ vm.guestCpu.gdtr.limit.setWidth 32 < sel.gdtOffset + 7
  mapped : vm.DescMapped (vm.guestCpu.gdtr.base + sel.gdtOffset)
  allowed : vm.SegmentAllowed segno sel (vm.descOf sel)

/-- The guest's descriptor, pushed down to ring 3, in the monitor's GDT. -/
def withSegment (vm : Vm) (segno : SReg) (sel : Selector) : Vm :=
  if Loads segno sel then
    { vm with gdt := Function.update vm.gdt sel.index ((vm.descOf sel).setDpl 3) }
  else vm

@[simp] theorem withSegment_setup (vm : Vm) (segno : SReg) (sel : Selector) :
    (vm.withSegment segno sel).setup = vm.setup := by
  unfold withSegment
  split <;> rfl
@[simp] theorem withSegment_guestCpu (vm : Vm) (segno : SReg) (sel : Selector) :
    (vm.withSegment segno sel).guestCpu = vm.guestCpu := by
  unfold withSegment
  split <;> rfl
@[simp] theorem withSegment_context (vm : Vm) (segno : SReg) (sel : Selector) :
    (vm.withSegment segno sel).context = vm.context := by
  unfold withSegment
  split <;> rfl
@[simp] theorem withSegment_guestCPL (vm : Vm) (segno : SReg) (sel : Selector) :
    (vm.withSegment segno sel).guestCPL = vm.guestCPL := by
  unfold withSegment
  split <;> rfl
@[simp] theorem withSegment_monCr4 (vm : Vm) (segno : SReg) (sel : Selector) :
    (vm.withSegment segno sel).monCr4 = vm.monCr4 := by
  unfold withSegment
  split <;> rfl
@[simp] theorem withSegment_mem (vm : Vm) (segno : SReg) (sel : Selector) :
    (vm.withSegment segno sel).mem = vm.mem := by
  unfold withSegment
  split <;> rfl

/-- The machine whose segment register has been given the selector. -/
def segmentSet (vm : Vm) (sreg : SReg) (selector : Selector) : Vm :=
  { vm with context := vm.context.setSeg selector.pushedDown sreg }

/-- The guest kernel can load the segment register. -/
structure LoadOK (vm : Vm) (sreg : SReg) (selector : Selector) : Prop where
  desc : vm.DescOK selector
  segment : Loads sreg selector → (vm.segmentSet sreg selector).SegmentOK sreg selector

/-- The machine with the segment register loaded. -/
def segmentLoaded (vm : Vm) (sreg : SReg) (selector : Selector) : Vm :=
  (vm.segmentSet sreg selector).withSegment sreg selector

-- The delivery of an interrupt

def gateAt (vm : Vm) (vector : Bit32u) : Gate :=
  ⟨(vm.descAt (vm.guestCpu.idtr.base + (vector <<< 3))).raw⟩

/-- The gate for the vector can be read, and lets the interrupt through. -/
structure GateOK (vm : Vm) (vector intFlags : Bit32u) : Prop where
  inside : ¬ vm.guestCpu.idtr.limit.setWidth 32 < (vector <<< 3) + 7
  aligned : ¬ vm.guestCpu.idtr.base &&& 7#32 ≠ 0
  mapped : vm.DescMapped (vm.guestCpu.idtr.base + (vector <<< 3))
  present : (vm.gateAt vector).p = true
  type : (vm.gateAt vector).type = 14 ∨ (vm.gateAt vector).type = 15
  level : ¬ (intFlags &&& intFlagSoftInt ≠ 0 ∧ (vm.gateAt vector).dpl < vm.guestCPL)

/-- A code segment that handlers may run in. -/
structure HandlerOK (vm : Vm) (csSel : Selector) : Prop where
  desc : vm.DescOK csSel
  type : (vm.descOf csSel).type = 0x1a
  level : (vm.descOf csSel).dpl = 0
  present : (vm.descOf csSel).p = true

/-- Where the task state has the stack for a ring. -/
def innerStackAt (vm : Vm) (csDesc : Descriptor) : Bit32u :=
  vm.guestCpu.tr.des.base + (8 * csDesc.dpl.setWidth 32 + 4)

def innerESP (vm : Vm) (csDesc : Descriptor) : Bit32u := vm.wordAt 32 (vm.innerStackAt csDesc) 4

def innerSS (vm : Vm) (csDesc : Descriptor) : Selector :=
  ⟨vm.wordAt 16 (vm.innerStackAt csDesc + 4) 2⟩

/-- The task state has a stack for the ring of the handler. -/
structure InnerStackOK (vm : Vm) (csDesc : Descriptor) : Prop where
  type : vm.guestCpu.tr.des.type = 11
  limit : ¬ vm.guestCpu.tr.des.limit < 8 * csDesc.dpl.setWidth 32 + 4 + 7
  esp : vm.WordMapped (vm.innerStackAt csDesc) 4
  ss : vm.WordMapped (vm.innerStackAt csDesc + 4) 2
  notNull : (vm.innerSS csDesc).isNull = false
  ring : (vm.innerSS csDesc).rpl = csDesc.dpl
  desc : vm.DescOK (vm.innerSS csDesc)
  segment : (vm.descOf (vm.innerSS csDesc)).type = 0x12 ∧ (vm.descOf (vm.innerSS csDesc)).dpl = 0 ∧
    (vm.descOf (vm.innerSS csDesc)).p = true

/-- The machine as it turns to the stack that the task state has for the handler. -/
def turned (vm : Vm) (csSel : Selector) (csDesc : Descriptor) : Vm :=
  { vm with
    guestCPL := csSel.rpl
    context := { vm.context with
      ss := (vm.innerSS csDesc).pushedDown, esp := vm.innerESP csDesc } }

/-- With room made on that stack for the whole frame. -/
def switched (vm : Vm) (csSel : Selector) (csDesc : Descriptor) : Vm :=
  let turned := (vm.turned csSel csDesc).withSegment .ss (vm.innerSS csDesc)
  { turned with context := { turned.context with esp := turned.context.esp - 20 } }

/-- The outer stack can be left. -/
structure SwitchOK (vm : Vm) (csSel : Selector) (csDesc : Descriptor) : Prop where
  stack : vm.InnerStackOK csDesc
  segment : Loads .ss (vm.innerSS csDesc) →
    (vm.turned csSel csDesc).SegmentOK .ss (vm.innerSS csDesc)
  ss : (vm.switched csSel csDesc).Storable (vm.innerESP csDesc - 20 + 16)
  esp : ((vm.switched csSel csDesc).stored (vm.innerESP csDesc - 20 + 16) vm.context.ss).Storable
    (vm.innerESP csDesc - 20 + 12)

/-- The machine with the outer stack on the inner one. -/
def stackPushed (vm : Vm) (csSel : Selector) (csDesc : Descriptor) : Vm :=
  ((vm.switched csSel csDesc).stored (vm.innerESP csDesc - 20 + 16) vm.context.ss).stored
    (vm.innerESP csDesc - 20 + 12) vm.context.esp

def OpenOK (vm : Vm) (csSel : Selector) (csDesc : Descriptor) : Prop :=
  csDesc.dpl < vm.guestCPL → vm.SwitchOK csSel csDesc

/-- The machine with room for the return frame. -/
def frameOpened (vm : Vm) (csSel : Selector) (csDesc : Descriptor) : Vm :=
  if csDesc.dpl < vm.guestCPL then vm.stackPushed csSel csDesc
  else { vm with context := { vm.context with esp := vm.context.esp - 12 } }

/-- The code segment that is pushed. -/
def pushedCS (vm : Vm) (fromCPL : BitVec 2) : Bit32u :=
  (vm.context.cs &&& ~~~3#32) ||| fromCPL.setWidth 32

def flagsPushed (vm : Vm) (eflags : Bit32u) : Vm := vm.stored (vm.context.esp + 8) eflags

def csPushed (vm : Vm) (fromCPL : BitVec 2) (eflags : Bit32u) : Vm :=
  (vm.flagsPushed eflags).stored (vm.context.esp + 4) (vm.pushedCS fromCPL)

def eipPushed (vm : Vm) (fromCPL : BitVec 2) (eflags : Bit32u) : Vm :=
  (vm.csPushed fromCPL eflags).stored (vm.context.esp + 0) vm.context.eip

def errorRoom (vm : Vm) : Vm :=
  { vm with context := { vm.context with esp := vm.context.esp - 4 } }

structure FrameOK (vm : Vm) (fromCPL : BitVec 2) (eflags intFlags : Bit32u) : Prop where
  flags : vm.Storable (vm.context.esp + 8)
  cs : (vm.flagsPushed eflags).Storable (vm.context.esp + 4)
  eip : (vm.csPushed fromCPL eflags).Storable (vm.context.esp + 0)
  error : intFlags &&& intFlagPushError ≠ 0 →
    (vm.eipPushed fromCPL eflags).errorRoom.Storable (vm.context.esp - 4)

/-- The machine with the return frame on the stack. -/
def framePushed (vm : Vm) (fromCPL : BitVec 2) (eflags intFlags errorCode : Bit32u) : Vm :=
  if intFlags &&& intFlagPushError ≠ 0 then
    (vm.eipPushed fromCPL eflags).errorRoom.stored (vm.context.esp - 4) errorCode
  else vm.eipPushed fromCPL eflags

/-- Linux kernel code, for which PVI manages the interrupt flag. -/
def RunsKernel (vm : Vm) : Prop := vm.setup.linuxVMMode = true ∧ vm.guestCPL = 0

instance (vm : Vm) : Decidable vm.RunsKernel := inferInstanceAs (Decidable (_ ∧ _))

/-- The machine as it goes on with these flags. -/
def resumed (vm : Vm) (eflags : Bit32u) : Vm :=
  { vm with
    context := { vm.context with
      eflags :=
        (if vm.RunsKernel then
          if eflags &&& EFlags.maskIF ≠ 0 then eflags ||| EFlags.maskVIF
          else eflags &&& ~~~EFlags.maskVIF
        else eflags) ||| EFlags.maskIF }
    monCr4 := if vm.RunsKernel then 2 else 0 }

def handlerOf (vm : Vm) (vector : Bit32u) : Selector := (vm.gateAt vector).selector

/-- The machine with the whole frame of an interrupt on the handler's stack. -/
def interruptFramed (vm : Vm) (vector intFlags errorCode : Bit32u) : Vm :=
  let csSel := vm.handlerOf vector
  (vm.frameOpened csSel (vm.descOf csSel)).framePushed vm.guestCPL
    (pushedEFlags vm.setup.linuxVMMode vm.guestCPL vm.context.eflags) intFlags errorCode

/-- The machine that has jumped to the handler. -/
def handlerEntered (vm : Vm) (vector intFlags errorCode : Bit32u) : Vm :=
  let framed := vm.interruptFramed vector intFlags errorCode
  { framed with
    context := { framed.context with
      cs := (vm.handlerOf vector).pushedDown, eip := (vm.gateAt vector).offset } }

/-- The flags the handler asks for. -/
def flagsOfHandler (vm : Vm) (vector : Bit32u) : Bit32u :=
  handlerEFlags (vm.gateAt vector)
    (pushedEFlags vm.setup.linuxVMMode vm.guestCPL vm.context.eflags)

/-- The machine to which the interrupt has been delivered. -/
def interrupted (vm : Vm) (vector intFlags errorCode : Bit32u) : Vm :=
  ((vm.handlerEntered vector intFlags errorCode).withSegment .cs (vm.handlerOf vector)).resumed
    (vm.flagsOfHandler vector)

/-- The interrupt can be delivered. -/
structure InterruptOK (vm : Vm) (vector intFlags errorCode : Bit32u) : Prop where
  gate : vm.GateOK vector intFlags
  handler : vm.HandlerOK (vm.handlerOf vector)
  stack : vm.OpenOK (vm.handlerOf vector) (vm.descOf (vm.handlerOf vector))
  frame : (vm.frameOpened (vm.handlerOf vector) (vm.descOf (vm.handlerOf vector))).FrameOK
    vm.guestCPL (pushedEFlags vm.setup.linuxVMMode vm.guestCPL vm.context.eflags) intFlags
  segment : (vm.handlerEntered vector intFlags errorCode).SegmentOK .cs (vm.handlerOf vector)
  flags : (vm.handlerEntered vector intFlags errorCode).RunsKernel ∨
    vm.flagsOfHandler vector &&& EFlags.maskIF ≠ 0

/-- The machine that is about to push the error code of an interrupt. -/
def errorRoomed (vm : Vm) (vector : Bit32u) : Vm :=
  let csSel := vm.handlerOf vector
  ((vm.frameOpened csSel (vm.descOf csSel)).eipPushed vm.guestCPL
    (pushedEFlags vm.setup.linuxVMMode vm.guestCPL vm.context.eflags)).errorRoom

/-- The physical address that the error code of an interrupt goes to. -/
def errorCodeAddr (vm : Vm) (vector : Bit32u) : Bit32u :=
  (vm.errorRoomed vector).translated (vm.errorRoomed vector).context.esp

@[simp] theorem frameOpened_guestCpu (vm : Vm) (csSel : Selector) (csDesc : Descriptor) :
    (vm.frameOpened csSel csDesc).guestCpu = vm.guestCpu := by
  unfold frameOpened
  split
  · simp only [stackPushed, stored_guestCpu, switched, withSegment_guestCpu, turned]
  · rfl

@[simp] theorem framePushed_guestCpu (vm : Vm) (fromCPL : BitVec 2)
    (eflags intFlags errorCode : Bit32u) :
    (vm.framePushed fromCPL eflags intFlags errorCode).guestCpu = vm.guestCpu := by
  unfold framePushed
  split <;> simp only [stored_guestCpu, errorRoom, eipPushed, csPushed, flagsPushed]

@[simp] theorem frameOpened_setup (vm : Vm) (csSel : Selector) (csDesc : Descriptor) :
    (vm.frameOpened csSel csDesc).setup = vm.setup := by
  unfold frameOpened
  split
  · simp only [stackPushed, stored_setup, switched, withSegment_setup, turned]
  · rfl

@[simp] theorem framePushed_setup (vm : Vm) (fromCPL : BitVec 2)
    (eflags intFlags errorCode : Bit32u) :
    (vm.framePushed fromCPL eflags intFlags errorCode).setup = vm.setup := by
  unfold framePushed
  split <;> simp only [stored_setup, errorRoom, eipPushed, csPushed, flagsPushed]

private theorem frameOpened_guestCPL (vm : Vm) (csSel : Selector) (csDesc : Descriptor) :
    (vm.frameOpened csSel csDesc).guestCPL =
      if csDesc.dpl < vm.guestCPL then csSel.rpl else vm.guestCPL := by
  unfold frameOpened
  split
  · simp only [stackPushed, stored_guestCPL, switched, withSegment_guestCPL, turned]
  · rfl

@[simp] theorem framePushed_guestCPL (vm : Vm) (fromCPL : BitVec 2)
    (eflags intFlags errorCode : Bit32u) :
    (vm.framePushed fromCPL eflags intFlags errorCode).guestCPL = vm.guestCPL := by
  unfold framePushed
  split <;> simp only [stored_guestCPL, errorRoom, eipPushed, csPushed, flagsPushed]

theorem interrupted_setup (vm : Vm) (vector intFlags errorCode : Bit32u) :
    (vm.interrupted vector intFlags errorCode).setup = vm.setup := by
  simp only [interrupted, resumed, withSegment_setup, handlerEntered, interruptFramed,
    framePushed_setup, frameOpened_setup]

private theorem handlerEntered_guestCPL (vm : Vm) (vector intFlags errorCode : Bit32u) :
    (vm.handlerEntered vector intFlags errorCode).guestCPL =
      if (vm.descOf (vm.handlerOf vector)).dpl < vm.guestCPL then (vm.handlerOf vector).rpl
      else vm.guestCPL := by
  simp only [handlerEntered, interruptFramed, framePushed_guestCPL, frameOpened_guestCPL]

/-- Handlers run in the kernel's ring. -/
theorem InterruptOK.guestCPL {vm : Vm} {vector intFlags errorCode : Bit32u}
    (able : vm.InterruptOK vector intFlags errorCode) :
    (vm.handlerEntered vector intFlags errorCode).guestCPL = 0 := by
  have kernel := able.handler.level
  have ring : (vm.handlerOf vector).rpl = 0 := able.handler.desc.level.symm.trans kernel
  rw [handlerEntered_guestCPL, kernel, ring]
  split
  · rfl
  · next lowest => exact BitVec.le_zero_iff.mp (BitVec.not_lt.mp lowest)

theorem interrupted_guestCpu (vm : Vm) (vector intFlags errorCode : Bit32u) :
    (vm.interrupted vector intFlags errorCode).guestCpu = vm.guestCpu := by
  simp only [interrupted, resumed, withSegment_guestCpu, handlerEntered, interruptFramed,
    framePushed_guestCpu, frameOpened_guestCpu]

theorem interrupted_mem (vm : Vm) (vector intFlags errorCode : Bit32u) :
    (vm.interrupted vector intFlags errorCode).mem =
      (vm.interruptFramed vector intFlags errorCode).mem := by
  simp only [interrupted, resumed, withSegment_mem, handlerEntered]

/-- The error code is in memory where it was pushed. -/
theorem interrupted_errorCode {vm : Vm} {vector intFlags errorCode : Bit32u}
    (pushes : intFlags &&& intFlagPushError ≠ 0) :
    (vm.interrupted vector intFlags errorCode).physWord 32 (vm.errorCodeAddr vector) =
      errorCode := by
  have framed : vm.interruptFramed vector intFlags errorCode =
      (vm.errorRoomed vector).stored (vm.errorRoomed vector).context.esp errorCode := by
    simp only [interruptFramed, framePushed, if_pos pushes, errorRoomed, errorRoom, eipPushed,
      csPushed, flagsPushed, stored_context]
  rw [physWord, interrupted_mem, framed]
  simp only [stored, errorCodeAddr, Function.update_self, loadWord_storeWord_self]

-- The return from an interrupt

def iretEIP (vm : Vm) : Bit32u := vm.wordAt 32 (vm.context.esp + 0) 4
def iretCS (vm : Vm) : Selector := ⟨vm.wordAt 16 (vm.context.esp + 4) 2⟩
def iretEFlags (vm : Vm) : Bit32u := vm.wordAt 32 (vm.context.esp + 8) 4
def iretESP (vm : Vm) : Bit32u := vm.wordAt 32 (vm.context.esp + 12) 4
def iretSS (vm : Vm) : Selector := ⟨vm.wordAt 16 (vm.context.esp + 16) 2⟩

/-- The frame can be read, and returns to a ring the guest may return to. -/
structure IretFrameOK (vm : Vm) : Prop where
  notNested : EFlags.nt vm.context.eflags = false
  eip : vm.WordMapped (vm.context.esp + 0) 4
  cs : vm.WordMapped (vm.context.esp + 4) 2
  eflags : vm.WordMapped (vm.context.esp + 8) 4
  notVM : EFlags.vm vm.iretEFlags = false
  iopl : EFlags.iopl vm.iretEFlags = 0
  notNull : vm.iretCS.isNull = false
  ring : (vm.iretCS.rpl = 0 ∨ vm.iretCS.rpl = 3) ∧ vm.iretCS.ti = false
  outward : ¬ vm.iretCS.rpl < vm.guestCPL
  desc : vm.DescOK vm.iretCS
  segment : (vm.descOf vm.iretCS).type = 0x1a ∧ (vm.descOf vm.iretCS).dpl = vm.iretCS.rpl ∧
    (vm.descOf vm.iretCS).p = true

/-- A data segment that user code may keep. -/
def UserDataOK (raw : Bit32u) : Prop :=
  (⟨raw.setWidth 16⟩ : Selector).isNull = true ∨
    (⟨raw.setWidth 16⟩ : Selector).index = linuxUserDsSlot

/-- The machine as it turns to the stack of user code. -/
def turnedBack (vm : Vm) : Vm :=
  { vm with
    guestCPL := 3
    context := { vm.context with ss := vm.iretSS.pushedDown, esp := vm.iretESP } }

/-- The inner stack can be left for that of user code. -/
structure LeaveOK (vm : Vm) : Prop where
  esp : vm.WordMapped (vm.context.esp + 12) 4
  ss : vm.WordMapped (vm.context.esp + 16) 2
  notNull : vm.iretSS.isNull = false
  ring : vm.iretSS.rpl = vm.iretCS.rpl
  desc : vm.DescOK vm.iretSS
  type : (vm.descOf vm.iretSS).type = 0x12 ∧ (vm.descOf vm.iretSS).dpl = vm.iretCS.rpl ∧
    (vm.descOf vm.iretSS).p = true
  segment : Loads .ss vm.iretSS → vm.turnedBack.SegmentOK .ss vm.iretSS
  data : UserDataOK vm.context.gs ∧ UserDataOK vm.context.fs ∧ UserDataOK vm.context.ds ∧
    UserDataOK vm.context.es

/-- The machine with the frame taken off the stack. -/
def frameClosed (vm : Vm) : Vm :=
  if vm.guestCPL < vm.iretCS.rpl then vm.turnedBack.withSegment .ss vm.iretSS
  else { vm with context := { vm.context with esp := vm.context.esp + 12 } }

/-- The machine that has jumped back. -/
def iretEntered (vm : Vm) : Vm :=
  { vm.frameClosed with
    context := { vm.frameClosed.context with cs := vm.iretCS.pushedDown, eip := vm.iretEIP } }

/-- What keeps track of the interrupt flag can be set up for the ring returned to. -/
def VirtualOK (vm : Vm) (fromCPL : BitVec 2) (toCS : Selector) (toEFlags : Bit32u) : Prop :=
  if toCS.rpl = 0 then EFlags.if_ toEFlags = EFlags.vif toEFlags ∧ vm.monCr4.getLsbD 1 = true
  else if fromCPL < toCS.rpl then EFlags.if_ toEFlags = true ∧ vm.monCr4.getLsbD 1 = true
  else toEFlags &&& (EFlags.maskVIF ||| EFlags.maskVIP) = 0 ∧ vm.monCr4.getLsbD 1 = false

/-- The machine with `EFLAGS.{VIP,VIF}` and `CR4.PVI` set for the ring returned to. -/
def virtualSet (vm : Vm) (fromCPL : BitVec 2) (toCS : Selector) (toEFlags : Bit32u) : Vm :=
  { vm with
    context := { vm.context with
      eflags := EFlags.assign EFlags.maskVIP false (EFlags.assign EFlags.maskVIF
        (decide (toCS.rpl = 0) && EFlags.if_ toEFlags) vm.context.eflags) }
    monCr4 := if toCS.rpl ≠ 0 ∧ fromCPL < toCS.rpl then vm.monCr4 &&& ~~~2#32 else vm.monCr4 }

/-- The machine that has returned from an interrupt. -/
def iretDone (vm : Vm) : Vm :=
  let back := (vm.iretEntered.withSegment .cs vm.iretCS).virtualSet vm.guestCPL vm.iretCS
    vm.iretEFlags
  { back with
    context := { back.context with
      eflags := (EFlags.assign EFlags.maskIF true back.context.eflags &&& ~~~iretChangeMask) |||
        (vm.iretEFlags &&& iretChangeMask) } }

@[simp] theorem frameClosed_setup (vm : Vm) : vm.frameClosed.setup = vm.setup := by
  unfold frameClosed
  split
  · simp only [withSegment_setup, turnedBack]
  · rfl

@[simp] theorem frameClosed_monCr4 (vm : Vm) : vm.frameClosed.monCr4 = vm.monCr4 := by
  unfold frameClosed
  split
  · simp only [withSegment_monCr4, turnedBack]
  · rfl

@[simp] theorem frameClosed_eflags (vm : Vm) :
    vm.frameClosed.context.eflags = vm.context.eflags := by
  unfold frameClosed
  split
  · simp only [withSegment_context, turnedBack]
  · rfl

theorem frameClosed_guestCPL (vm : Vm) :
    vm.frameClosed.guestCPL = if vm.guestCPL < vm.iretCS.rpl then 3 else vm.guestCPL := by
  unfold frameClosed
  split
  · simp only [withSegment_guestCPL, turnedBack]
  · rfl

theorem iretDone_setup (vm : Vm) : vm.iretDone.setup = vm.setup := by
  simp only [iretDone, virtualSet, withSegment_setup, iretEntered, frameClosed_setup]

theorem iretDone_guestCPL (vm : Vm) : vm.iretDone.guestCPL = vm.frameClosed.guestCPL := by
  simp only [iretDone, virtualSet, withSegment_guestCPL, iretEntered]

theorem iretDone_monCr4 (vm : Vm) :
    vm.iretDone.monCr4 =
      if vm.iretCS.rpl ≠ 0 ∧ vm.guestCPL < vm.iretCS.rpl then vm.monCr4 &&& ~~~2#32
      else vm.monCr4 := by
  simp only [iretDone, virtualSet, withSegment_monCr4, iretEntered, frameClosed_monCr4]

/-- The flags to go on with, from those of the handler and those on its stack. -/
theorem iretDone_eflags (vm : Vm) :
    vm.iretDone.context.eflags =
      (EFlags.assign EFlags.maskIF true (EFlags.assign EFlags.maskVIP false
        (EFlags.assign EFlags.maskVIF (decide (vm.iretCS.rpl = 0) && EFlags.if_ vm.iretEFlags)
          vm.context.eflags)) &&& ~~~iretChangeMask) ||| (vm.iretEFlags &&& iretChangeMask) := by
  simp only [iretDone, virtualSet, withSegment_context, iretEntered, frameClosed_eflags]

/-- The guest can return from an interrupt. -/
structure IretOK (vm : Vm) : Prop where
  frame : vm.IretFrameOK
  stack : vm.guestCPL < vm.iretCS.rpl → vm.LeaveOK
  segment : vm.iretEntered.SegmentOK .cs vm.iretCS
  flags : vm.frameClosed.VirtualOK vm.guestCPL vm.iretCS vm.iretEFlags

end Vm
end Plex86
