import Plex86.Monitor.InterruptReturn
import Plex86.Monitor.Reflection
import Plex86.Paging.Spared

namespace Plex86

open Logic Vm

namespace Vm

/-- The guest page that a linear address lies in. -/
def storedPage (vm : Vm) (lAddr : Bit32u) : Bit32u := vm.translated lAddr >>> 12

private theorem stored_spared {rom : Bit32u → Prop} {vm : Vm} {lAddr val : Bit32u}
    (other : ¬ rom (vm.storedPage lAddr)) : vm.Spared rom (vm.stored lAddr val) :=
  .update other rfl

/-- None of the dwords of the return frame is pushed into `rom`. -/
structure PushSpares (rom : Bit32u → Prop) (vm : Vm) (fromCPL : BitVec 2) (eflags intFlags : Bit32u) :
    Prop where
  flags : ¬ rom (vm.storedPage (vm.context.esp + 8))
  cs : ¬ rom ((vm.flagsPushed eflags).storedPage (vm.context.esp + 4))
  eip : ¬ rom ((vm.csPushed fromCPL eflags).storedPage (vm.context.esp + 0))
  error : intFlags &&& intFlagPushError ≠ 0 →
    ¬ rom ((vm.eipPushed fromCPL eflags).errorRoom.storedPage (vm.context.esp - 4))

/-- Nor are the outer stack pointers, where the ring changes. -/
structure SwitchSpares (rom : Bit32u → Prop) (vm : Vm) (csSel : Selector) (csDesc : Descriptor) :
    Prop where
  ss : ¬ rom ((vm.switched csSel csDesc).storedPage (vm.innerESP csDesc - 20 + 16))
  esp : ¬ rom (((vm.switched csSel csDesc).stored (vm.innerESP csDesc - 20 + 16) vm.context.ss).storedPage
    (vm.innerESP csDesc - 20 + 12))

/-- The delivery of an interrupt pushes its frame outside of `rom`. -/
structure FrameSpares (rom : Bit32u → Prop) (vm : Vm) (vector intFlags : Bit32u) : Prop where
  switch : (vm.descOf (vm.handlerOf vector)).dpl < vm.guestCPL →
    vm.SwitchSpares rom (vm.handlerOf vector) (vm.descOf (vm.handlerOf vector))
  frame : (vm.frameOpened (vm.handlerOf vector) (vm.descOf (vm.handlerOf vector))).PushSpares rom
    vm.guestCPL (pushedEFlags vm.setup.linuxVMMode vm.guestCPL vm.context.eflags) intFlags

section Frames

variable {rom : Bit32u → Prop} {vm : Vm}

private theorem framePushed_spared {fromCPL : BitVec 2} {eflags intFlags errorCode : Bit32u}
    (spares : vm.PushSpares rom fromCPL eflags intFlags) :
    vm.Spared rom (vm.framePushed fromCPL eflags intFlags errorCode) := by
  have pushed : vm.Spared rom (vm.eipPushed fromCPL eflags) :=
    ((stored_spared spares.flags).trans (stored_spared spares.cs)).trans (stored_spared spares.eip)
  unfold framePushed
  split
  · next pushes => exact pushed.trans (stored_spared (spares.error pushes))
  · exact pushed

private theorem frameOpened_spared {csSel : Selector} {csDesc : Descriptor}
    (spares : csDesc.dpl < vm.guestCPL → vm.SwitchSpares rom csSel csDesc) :
    vm.Spared rom (vm.frameOpened csSel csDesc) := by
  unfold frameOpened
  split
  · next inward =>
      have turned : vm.Spared rom (vm.switched csSel csDesc) := by
        apply Spared.of_mem
        exact withSegment_mem _ _ _
      have both := spares inward
      exact (turned.trans (stored_spared both.ss)).trans (stored_spared both.esp)
  · exact .of_mem rfl

private theorem interrupted_spared {vector intFlags errorCode : Bit32u}
    (spares : vm.FrameSpares rom vector intFlags) :
    vm.Spared rom (vm.interrupted vector intFlags errorCode) := by
  have framed : vm.Spared rom (vm.interruptFramed vector intFlags errorCode) :=
    (frameOpened_spared spares.switch).trans (framePushed_spared spares.frame)
  refine framed.trans (.of_mem ?_)
  exact withSegment_mem _ _ _

end Frames
end Vm

namespace Vm

/-- The machine that gives a page fault to the guest. -/
def reflecting (vm : Vm) (cr2 : Bit32u) : Vm :=
  { vm.faultAt cr2 with mem := vm.refusedMem (pdiOf cr2) (ptiOf cr2) }

/-- A page fault is mapped, or given to the guest, with no store into `rom`. -/
structure FaultSpares (rom : Bit32u → Prop) (vm : Vm) (cr2 : Bit32u) : Prop where
  walk : vm.guestCpu.pg = true →
    vm.WalkSpares rom (pdiOf cr2) (ptiOf cr2) vm.faultAccess.1 vm.faultAccess.2
  frame : vm.tablesFault cr2 vm.faultAccess.1 vm.faultAccess.2 ≠ none →
    (vm.reflecting cr2).core.FrameSpares rom exceptionPF (intFlagAssertRF ||| intFlagPushError)

/-- The frame of the interrupt that the PIC gives next lies outside of `rom`. -/
def TakesSpares (rom : Bit32u → Prop) (vm : Vm) : Prop :=
  ∀ vector acknowledged, picIAC vm = .ok vector acknowledged →
    acknowledged.core.FrameSpares rom vector 0

/-- The machine after an STI, which accepts interrupts. -/
def interruptible (vm : Vm) (iLen : Bit32u) : Vm :=
  { vm with
    context := { vm.context with
      eip := vm.context.eip + iLen
      eflags := EFlags.assign EFlags.maskVIF true vm.context.eflags } }

/-- The interrupt that the guest is resumed with, if any, has its frame outside of `rom`. -/
def ResumeSpares (rom : Bit32u → Prop) (vm : Vm) : Prop :=
  ∀ ticked, (preGuestClock >>= fun _ => preGuestHal) vm = .ok () ticked →
    ticked.setup.linuxVMMode = true → ticked.intr ≠ 0 → EFlags.vif ticked.context.eflags = true →
      ticked.TakesSpares rom

end Vm

/-- User space leaves `rom` as it found it. -/
def UserVisit.Spares (rom : Bit32u → Prop) (vm : Vm) (visit : UserVisit) : Prop :=
  ∀ ppi, rom ppi → visit.mem ppi = vm.mem ppi

/-- The two accesses that store, a dword and the busy bit of a task state's
descriptor, store outside of `rom`. -/
def Access.Spares (rom : Bit32u → Prop) (vm : Vm) : Access → Prop
  | .writeDWord lAddr _ => ¬ rom (vm.storedPage lAddr)
  | .descBySel sel true => ¬ rom (vm.storedPage (vm.guestCpu.gdtr.base + sel.gdtOffset))
  | _ => True

/-- What the monitor does about a fault leaves `rom` alone. -/
def MonOp.Spares (rom : Bit32u → Prop) (vm : Vm) : MonOp → Prop
  | .pageFault cr2 => vm.FaultSpares rom cr2
  | .interrupt vector intFlags _ => vm.core.FrameSpares rom vector intFlags
  | .iret visit | .halCall visit => visit.Spares rom vm
  | .sti iLen => (vm.interruptible iLen).TakesSpares rom
  | .access request => request.Spares rom vm
  | _ => True

section Operations

variable {rom : Bit32u → Prop} {vm next : Vm}

private theorem doGuestInterrupt_spared {vector intFlags errorCode : Bit32u}
    (spares : vm.core.FrameSpares rom vector intFlags)
    (run : doGuestInterrupt vector intFlags errorCode vm = .ok () next) : vm.Spared rom next := by
  obtain ⟨-, -, seen⟩ := (doGuestInterrupt_does _ _ _ _).ok run
  have delivered : vm.core.Spared rom next.core := by
    rw [seen]
    exact interrupted_spared spares
  exact delivered

/-- The program leaves guest memory alone. -/
abbrev LeavesMem {α : Type} (mem : Bit32u → Bytes) (program : Mon α) : Prop :=
  Keeps (fun vm => vm.mem = mem) (fun _ _ => True) program

theorem LeavesMem.spared {α : Type} {program : Mon α} {value : α}
    (leaves : ∀ mem, LeavesMem mem program) (run : program vm = .ok value next) :
    vm.Spared rom next :=
  .of_mem ((leaves vm.mem).returns rfl run)

/-- What is done to the guest says what becomes of its memory. -/
theorem LeavesMem.of_does {α : Type} {mem : Bit32u → Bytes} {program : Mon α}
    {able : Vm → Prop} {value : Vm → α} {after : Vm → Vm}
    (does : ∀ before, Does program before (able before) (value before) (after before))
    (same : ∀ before, (after before).mem = before.mem) : LeavesMem mem program := by
  intro vm here
  cases run : program vm with
  | ok result next =>
      obtain ⟨-, -, seen⟩ := (does vm.core).ok run
      have kept : next.core.mem = vm.core.mem := by rw [seen, same]
      exact kept.trans here
  | error stop last => trivial

section Leaves

variable {mem : Bit32u → Bytes}

private theorem panicWhen_mem {cond : Prop} [Decidable cond] {format : String}
    {args : List Bit32u} :
    LeavesMem mem (panicWhen cond format args) :=
  panicWhen_keeps fun _ _ => trivial

private theorem getHostOSPinnedPage_mem (ppi : Bit32u) :
    LeavesMem mem (getHostOSPinnedPage ppi) := by
  intro vm here
  cases run : getHostOSPinnedPage ppi vm with
  | ok frame next =>
      obtain ⟨pin, -, -⟩ := getHostOSPinnedPage_ok run
      exact pin.mem.trans here
  | error stop last => trivial

private theorem openGuestPhyPage_mem (ppi monOffset : Bit32u) :
    LeavesMem mem (openGuestPhyPage ppi monOffset) :=
  .get_bind fun _ _ => .bind (monAssert_keeps fun _ _ => trivial) fun _ =>
    .bind (getHostOSPinnedPage_mem ppi) fun _ => .bind (.modify fun _ here => here) fun _ => .pure

private theorem readWord_mem {width : Nat} (page : OpenPage) (offset : Nat) :
    LeavesMem mem (readWord width page offset) :=
  .get_bind fun _ _ => .bind (.modify fun _ here => here) fun _ => .pure

private theorem readBytes_mem (page : OpenPage) (offset count : Nat) :
    LeavesMem mem (readBytes page offset count) := by
  induction count generalizing offset with
  | zero => exact .pure
  | succ count inductionHypothesis =>
      exact .bind (readWord_mem page offset) fun _ =>
        .bind (inductionHypothesis (offset + 1)) fun _ => .pure

private theorem translateLinToPhy_mem (lAddr : Bit32u) : LeavesMem mem (translateLinToPhy lAddr) :=
  .of_does (translateLinToPhy_does lAddr) fun _ => rfl

/-- Reading from one page and then from another. -/
theorem readAcross_mem (ppi ppi' monOffset : Bit32u) (offset count offset' count' : Nat) :
    LeavesMem mem (openGuestPhyPage ppi monOffset >>= fun page =>
      readBytes page offset count >>= fun first => openGuestPhyPage ppi' monOffset >>= fun page =>
        readBytes page offset' count' >>= fun second => pure (first ++ second)) :=
  .bind (openGuestPhyPage_mem _ _) fun page => .bind (readBytes_mem page _ _) fun _ =>
    .bind (openGuestPhyPage_mem _ _) fun page => .bind (readBytes_mem page _ _) fun _ => .pure

private theorem getObjectLAddr_mem (lAddr len : Bit32u) :
    LeavesMem mem (getObjectLAddr lAddr len) := by
  refine .get_bind fun _ _ => .bind (translateLinToPhy_mem lAddr) fun _ =>
    .bind panicWhen_mem fun _ => .ite (fun _ => ?within) fun _ => ?across
  case within =>
    refine .bind panicWhen_mem fun _ => .bind (openGuestPhyPage_mem _ _) fun page => ?_
    exact .ite (fun _ => .bind (readWord_mem page _) fun _ => .pure) fun _ => readBytes_mem page _ _
  case across =>
    refine .bind (translateLinToPhy_mem _) fun _ => .bind panicWhen_mem fun _ =>
      .bind panicWhen_mem fun _ => .bind panicWhen_mem fun _ => ?_
    exact readAcross_mem _ _ _ _ _ _ _

private theorem picIAC_mem : LeavesMem mem picIAC :=
  DevicesOnly.keeps (fun _ => picIAC_devices) (fun _ => rfl) mem

private theorem preGuestClock_mem : LeavesMem mem preGuestClock :=
  DevicesOnly.keeps (fun _ => preGuestClock_devices) (fun _ => rfl) mem

private theorem preGuestHal_mem : LeavesMem mem preGuestHal :=
  DevicesOnly.keeps (fun _ => preGuestHal_devices) (fun _ => rfl) mem

private theorem invalidateGuestLinAddr_mem (laddr : Bit32u) :
    LeavesMem mem (invalidateGuestLinAddr laddr) := by
  have found (pdi : BitVec 10) (source : Bit32u) : LeavesMem mem (getMonPTi pdi source) :=
    .get_bind fun _ _ => .bind panicWhen_mem fun _ => .bind panicWhen_mem fun _ => .pure
  exact .get_bind fun _ _ => .bind panicWhen_mem fun _ => .ite (fun _ => .pure) fun _ =>
    .bind panicWhen_mem fun _ => .bind (found _ _) fun _ => .ite (fun _ => .pure) fun _ =>
      .modify fun _ here => here

private theorem setCRx_mem (crx val32 : Bit32u) : LeavesMem mem (setCRx crx val32) :=
  .bind (.modify fun _ here => here) fun _ => .ite
    (fun _ => .bind (.modify fun _ here => here) fun _ => .bind panicWhen_mem fun _ =>
      .modify fun _ here => here) fun _ => .ite
    (fun _ => .bind (.modify fun _ here => here) fun _ => .modify fun _ here => here) fun _ => .ite
    (fun _ => .bind panicWhen_mem fun _ => .modify fun _ here => here)
    fun _ => .throw fun _ _ => trivial

private theorem doIRET_mem : LeavesMem mem doIRET :=
  .of_does doIRET_does iretDone_mem

private theorem loadGuestSegment_mem (sreg : SReg) (selector : Selector) :
    LeavesMem mem (loadGuestSegment sreg selector) :=
  .of_does (loadGuestSegment_does sreg selector) fun _ => withSegment_mem _ _ _

end Leaves

/-- A visit of user space leaves the memory that user space wants. -/
theorem visitUser_mem {request : MonReq} {visit : UserVisit}
    (way : request = .halCall ∨ request.resumes = true)
    (run : visitUser request visit vm = .ok () next) : next.mem = visit.mem := by
  simp only [visitUser, modify_bind_apply] at run
  obtain ⟨context, rfl, -⟩ := hostIoctlExecute_resumes_ok way run
  rfl

private theorem visitUser_spared {request : MonReq} {visit : UserVisit}
    (way : request = .halCall ∨ request.resumes = true) (spares : visit.Spares rom vm)
    (run : visitUser request visit vm = .ok () next) : vm.Spared rom next := by
  intro ppi kept
  rw [visitUser_mem way run]
  exact spares ppi kept

/-- An interrupt that the PIC gives is delivered outside of `rom`. -/
theorem takesInterrupt_spared (spares : vm.TakesSpares rom)
    (run : (picIAC >>= fun vector => doGuestInterrupt vector 0 0) vm = .ok () next) :
    vm.Spared rom next := by
  obtain ⟨vector, acknowledged, iac, entered⟩ := bind_ok.mp run
  have taken : vm.Spared rom acknowledged := LeavesMem.spared (fun _ => picIAC_mem) iac
  exact taken.trans (doGuestInterrupt_spared (spares vector acknowledged iac) entered)

private theorem emulateSTI_spared {iLen : Bit32u} (spares : (vm.interruptible iLen).TakesSpares rom)
    (run : emulateSTI iLen vm = .ok () next) : vm.Spared rom next := by
  simp only [emulateSTI, modify_bind_apply, get_bind_apply, panicWhen_bind_apply] at run
  split at run
  · cases run
  have taken : (vm.interruptible iLen).Spared rom next := takesInterrupt_spared spares run
  exact taken

/-- Memory is as it was, and a window is open on a page of it. -/
def Shown (before : Vm) (page : OpenPage) (vm : Vm) : Prop :=
  vm.mem = before.mem ∧ vm.WindowOpen page

private theorem openGuestPhyPage_shown (ppi monOffset : Bit32u) :
    Ensures (fun now => now.mem = vm.mem) (openGuestPhyPage ppi monOffset)
      (fun page next => page.ppi = ppi ∧ Shown vm page next) fun _ _ => True := by
  intro now here
  cases run : openGuestPhyPage ppi monOffset now with
  | ok page next =>
      obtain ⟨rfl, spec⟩ := openGuestPhyPage_ok run
      exact ⟨rfl, spec.pin.mem.trans here, spec.window⟩
  | error stop last => trivial

private theorem readWord_shown {width : Nat} (page : OpenPage) (offset : Nat) :
    Keeps (Shown vm page) (fun _ _ => True) (readWord width page offset) :=
  .get_bind fun _ _ => .bind (.modify fun _ shown => shown) fun _ => .pure

/-- A word stored through an open window goes into its page. -/
theorem writeWord_shown {width : Nat} {page : OpenPage} {offset : Nat} {word : BitVec width}
    (other : ¬ rom page.ppi) : Ensures (Shown vm page) (writeWord page offset word)
      (fun _ next => vm.Spared rom next) fun _ _ => True := by
  rintro now ⟨here, shows⟩
  have target : now.windowTarget page = some page.ppi := if_pos shows
  rw [writeWord, modify_apply, target]
  have begun : vm.Spared rom now := .of_mem here
  exact begun.trans (.update other rfl)

/-- The walk for an address finds what the guest's tables say. -/
theorem translateLinToPhy_finds (lAddr : Bit32u) :
    Ensures (· = vm) (translateLinToPhy lAddr)
      (fun pAddr next => pAddr = vm.translated lAddr ∧ next.mem = vm.mem) fun _ _ => True := by
  rintro now rfl
  cases run : translateLinToPhy lAddr now with
  | ok pAddr next =>
      obtain ⟨-, found, -⟩ := (translateLinToPhy_does lAddr now.core).ok run
      exact ⟨found, (translateLinToPhy_mem lAddr).returns rfl run⟩
  | error stop last => trivial

/-- The busy bit goes into the page that the descriptor lies in. -/
theorem fetchGuestDescBySel_ensures {sel : Selector}
    (other : ¬ rom (vm.storedPage (vm.guestCpu.gdtr.base + sel.gdtOffset))) :
    Ensures (· = vm) (fetchGuestDescBySel sel true) (fun _ next => vm.Spared rom next)
      fun _ _ => True := by
  refine .get_bind ?_
  rintro now rfl
  refine panicWhen_bind (fun _ _ => trivial) fun _ => panicWhen_bind (fun _ _ => trivial) fun _ =>
    panicWhen_bind (fun _ _ => trivial) fun _ => ?_
  refine Ensures.bind (translateLinToPhy_finds _) fun pAddr => ?_
  refine panicWhen_bind (fun _ _ => trivial) fun _ => panicWhen_bind (fun _ _ => trivial) fun _ =>
    panicWhen_bind (fun _ _ => trivial) fun _ => ?_
  rintro walked ⟨found, here⟩
  refine Ensures.bind (openGuestPhyPage_shown _ _) (fun page => ?_) walked here
  rintro opened ⟨same, shown⟩
  refine Ensures.bind (readWord_shown page _) (fun raw => ?_) opened shown
  refine panicWhen_bind (fun _ _ => trivial) fun _ => ?_
  have outside : ¬ rom page.ppi := by
    rw [same, found]
    exact other
  exact Ensures.bind (writeWord_shown outside) fun _ => .pure fun _ spared => spared

private theorem writeGuestDWord_spared {lAddr val : Bit32u} (other : ¬ rom (vm.storedPage lAddr))
    (run : writeGuestDWord lAddr val vm = .ok () next) : vm.Spared rom next := by
  obtain ⟨-, -, seen⟩ := (writeGuestDWord_does lAddr val vm.core).ok run
  have stored : vm.core.Spared rom next.core := by
    rw [seen]
    exact stored_spared other
  exact stored

private theorem Access.run_spared {request : Access} (spares : request.Spares rom vm)
    (run : request.run vm = .ok () next) : vm.Spared rom next := by
  cases request with
  | translate lAddr =>
      exact LeavesMem.spared (fun _ => .bind (translateLinToPhy_mem lAddr) fun _ => .pure) run
  | object lAddr len small =>
      exact LeavesMem.spared (fun _ => .bind (getObjectLAddr_mem lAddr len) fun _ => .pure) run
  | dword lAddr =>
      refine LeavesMem.spared (fun _ => .bind ?_ fun _ => .pure) run
      exact LeavesMem.of_does (getGuestDWord_does lAddr) fun _ => rfl
  | word lAddr =>
      refine LeavesMem.spared (fun _ => .bind ?_ fun _ => .pure) run
      exact LeavesMem.of_does (getGuestWord_does lAddr) fun _ => rfl
  | writeDWord lAddr val => exact writeGuestDWord_spared spares run
  | descByLAddr laddr =>
      refine LeavesMem.spared (fun _ => .bind ?_ fun _ => .pure) run
      exact LeavesMem.of_does (fetchGuestDescByLAddr_does laddr) fun _ => rfl
  | descBySel sel updateBusyBit =>
      cases updateBusyBit with
      | true =>
          obtain ⟨desc, fetched, read, returned⟩ := bind_ok.mp run
          cases returned
          exact (fetchGuestDescBySel_ensures spares).returns rfl read
      | false =>
          refine LeavesMem.spared (fun _ => .bind ?_ fun _ => .pure) run
          exact LeavesMem.of_does (fetchGuestDescBySel_does sel) fun _ => rfl

/-- A page fault is served outside of `rom`. -/
theorem guestPageFault_spared {cr2 : Bit32u} {records : List PinRecord}
    (holds : vm.pins.Holds records) (apart : vm.setup.WindowsApart)
    (spares : vm.FaultSpares rom cr2) (run : guestPageFault cr2 vm = .ok () next) :
    vm.Spared rom next := by
  cases guestPageFault_ok run with
  | mapped mapping => exact mapGuestLinAddr_spared holds apart spares.walk mapping
  | @reflected code walked next refused fault =>
      have walk := mapGuestLinAddr_spared holds apart spares.walk refused
      obtain ⟨paged, same, low, answer, -⟩ := mapGuestLinAddr_exception refused
      have asked : vm.tablesFault cr2 vm.faultAccess.1 vm.faultAccess.2 ≠ none := by
        rw [tablesFault, if_pos paged, answer]
        exact Option.some_ne_none low
      -- the handler's frame is pushed from the state that the refused walk has left
      have noted : (walked.faultAt cr2).core = (vm.reflecting cr2).core := by
        simp only [Vm.core, faultAt, reflecting, same.setup, same.guestCpu, same.context,
          same.guestCPL, same.monCr0, same.monCr4, same.gdt, same.intr, same.cyclesElapsed,
          same.picMaster, same.picSlave, same.pit, same.vmState, mapGuestLinAddr_refused refused]
      have frame := spares.frame asked
      rw [← noted] at frame
      rw [doGuestFaultPF, get_bind_apply] at fault
      have given : (walked.faultAt cr2).Spared rom next := doGuestInterrupt_spared frame fault
      exact walk.trans given

private theorem MonOp.run_spared {op : MonOp} {records : List PinRecord}
    (holds : vm.pins.Holds records)
    (apart : vm.setup.WindowsApart) (spares : op.Spares rom vm) (run : op.run vm = .ok () next) :
    vm.Spared rom next := by
  cases op with
  | pageFault cr2 => exact guestPageFault_spared holds apart spares run
  | invalidate laddr => exact LeavesMem.spared (fun _ => invalidateGuestLinAddr_mem laddr) run
  | setCRx crx val32 => exact LeavesMem.spared (fun _ => setCRx_mem crx val32) run
  | interrupt vector intFlags errorCode => exact doGuestInterrupt_spared spares run
  | iret visit =>
      obtain ⟨_, middle, returned, visited⟩ := bind_ok.mp run
      have same : middle.mem = vm.mem := doIRET_mem.returns rfl returned
      intro ppi kept
      rw [visitUser_mem (.inr rfl) visited]
      exact spares ppi kept
  | loadSegment sreg selector =>
      exact LeavesMem.spared (fun _ => loadGuestSegment_mem sreg selector) run
  | sti iLen => exact emulateSTI_spared spares run
  | halCall visit => exact visitUser_spared (.inl rfl) spares run
  | access request => exact Access.run_spared spares run
  | pin ppi =>
      exact LeavesMem.spared (fun _ => .bind (getHostOSPinnedPage_mem ppi) fun _ => .pure) run
  | other =>
      cases run
      exact .of_mem rfl

/-- An interrupt that is due is delivered outside of `rom`. -/
theorem acceptInterrupt_spared
    (spares : vm.intr ≠ 0 → EFlags.vif vm.context.eflags = true → vm.TakesSpares rom)
    (run : acceptInterrupt vm = .ok () next) : vm.Spared rom next := by
  rw [acceptInterrupt, get_bind_apply, Logic.ite_apply] at run
  split at run
  · next due => exact takesInterrupt_spared (spares due.1 due.2) run
  · cases run
    exact .of_mem rfl

/-- The guest is resumed, perhaps with an interrupt, and `rom` is left alone. -/
theorem preGuest_spared (spares : vm.ResumeSpares rom) (run : preGuest vm = .ok () next) :
    vm.Spared rom next := by
  obtain ⟨_, clocked, clock, run⟩ := bind_ok.mp run
  obtain ⟨_, ticked, hal, run⟩ := bind_ok.mp run
  obtain ⟨_, last, delivered, run⟩ := bind_ok.mp run
  have ticks : (preGuestClock >>= fun _ => preGuestHal) vm = .ok () ticked :=
    bind_ok.mpr ⟨_, clocked, clock, hal⟩
  have begun : vm.Spared rom ticked := LeavesMem.spared (fun _ => .bind preGuestClock_mem fun _ =>
    preGuestHal_mem) ticks
  have same : last = next := by
    rw [get_bind_apply, Logic.ite_apply] at run
    split at run
    · cases run
    · cases run
      rfl
  subst same
  rw [preGuestInterrupt, get_bind_apply, Logic.ite_apply] at delivered
  split at delivered
  · next linux =>
      obtain ⟨_, accepted, accept, pending⟩ := bind_ok.mp delivered
      cases pending
      have given : ticked.Spared rom accepted :=
        acceptInterrupt_spared (spares ticked ticks linux) accept
      exact begun.trans given
  · cases delivered
    exact begun

end Operations

/-- What ended the native execution is handled with no store into `rom`. -/
def Cause.Spares (rom : Bit32u → Prop) (vm : Vm) : Cause → Prop
  | .fault op => op.Spares rom vm
  | .int (some visit) => visit.Spares rom vm
  | .int none => True

/-- The trap is handled, and the guest resumed, with no store into `rom`. -/
structure Trap.Spares (rom : Bit32u → Prop) (trap : Trap) : Prop where
  handled : trap.cause.Spares rom trap.faulted
  resumed : ∀ middle, trap.handle trap.now = .ok () middle → middle.ResumeSpares rom

theorem Trap.serve_spared {rom : Bit32u → Prop} {trap : Trap} {next : Vm}
    {records : List PinRecord} (holds : trap.now.pins.Holds records)
    (apart : trap.now.setup.WindowsApart) (spares : trap.Spares rom)
    (run : trap.serve trap.now = .ok () next) : trap.now.Spared rom next := by
  obtain ⟨_, middle, handled, resumed⟩ := bind_ok.mp run
  have rest := preGuest_spared (spares.resumed middle handled) resumed
  have first := spares.handled
  cases cause : trap.cause with
  | fault op =>
      rw [cause] at first
      rw [Trap.handle, cause] at handled
      obtain ⟨_, entered, enter, operated⟩ := bind_ok.mp handled
      obtain ⟨-, -, rfl⟩ := enterGuestFault_ok enter
      have served : trap.faulted.Spared rom middle := MonOp.run_spared holds apart first operated
      have begun : trap.now.Spared rom trap.faulted := .of_mem rfl
      exact (begun.trans served).trans rest
  | int visit =>
      rw [cause] at first
      rw [Trap.handle, cause] at handled
      cases visit with
      | none =>
          cases handled
          have begun : trap.now.Spared rom trap.faulted := .of_mem rfl
          exact begun.trans rest
      | some visit =>
          obtain ⟨_, noted, note, visited⟩ := bind_ok.mp handled
          cases note
          have given : middle.mem = visit.mem := visitUser_mem (.inr rfl) visited
          have begun : trap.now.Spared rom middle := by
            intro ppi kept
            rw [given]
            exact first ppi kept
          exact begun.trans rest

end Plex86
