import Plex86.Emulate.MemorySpec
import Plex86.Emulate.Return

namespace Plex86

open Logic Vm

section Handlers

variable {start : Vm}

theorem panicWhen_handler {cond : Prop} [Decidable cond] {format : String} {args : List Bit32u}
    (other : (Halt.monpanic format args).heapCheck = false) :
    Handler start (panicWhen cond format args) :=
  panicWhen_keeps fun _ handled => ⟨other, handled.2⟩

private theorem checkGuestDesc_handler (segno : SReg) (sel : Selector) (desc : Descriptor) :
    Handler start (checkGuestDesc segno sel desc) := by
  refine .get_bind fun vm _ => .ite (fun _ => ?_) fun _ => ?_
  · refine .bind (panicWhen_handler rfl) fun _ => .bind (panicWhen_handler rfl) fun _ =>
      panicWhen_handler ?_
    simp only [linuxSlotMessage]
    split <;> split <;> rfl
  · exact .bind (panicWhen_handler rfl) fun _ => panicWhen_handler rfl

private theorem guestSelectorUpdated_handler (segno : SReg) (sel : Selector) :
    Handler start (guestSelectorUpdated segno sel) := by
  refine .ite (fun _ => ?_) fun _ => .pure
  refine .get_bind fun vm _ => .bind (panicWhen_handler rfl) fun _ =>
    .bind (panicWhen_handler rfl) fun _ => ?_
  exact .bind (accessor_handler fun start => fetchGuestDescByLAddr_accessor start _) fun desc =>
    .bind (checkGuestDesc_handler segno sel desc) fun _ => modify_handler fun _ => rfl

private theorem fetchGate_accessor (start : Vm) (vector intFlags : Bit32u) :
    Accessor start (fetchGate vector intFlags) := by
  refine .get_bind fun vm _ => Accessor.panic_bind rfl fun _ => Accessor.panic_bind rfl fun _ => ?_
  refine .bind (fetchGuestDescByLAddr_accessor start _) fun desc => ?_
  exact Accessor.panic_bind rfl fun _ => Accessor.panic_bind rfl fun _ =>
    Accessor.panic_bind rfl fun _ => .pure

private theorem fetchHandlerCS_accessor (start : Vm) (csSel : Selector) :
    Accessor start (fetchHandlerCS csSel) :=
  Accessor.panic_bind rfl fun _ => .bind (fetchGuestDescBySel_accessor start _ _) fun _ =>
    Accessor.panic_bind rfl fun _ => .pure

private theorem fetchInnerStack_accessor (start : Vm) (csDesc : Descriptor) :
    Accessor start (fetchInnerStack csDesc) := by
  refine .get_bind fun vm _ => Accessor.panic_bind rfl fun _ => Accessor.panic_bind rfl fun _ => ?_
  refine .bind (getGuestDWord_accessor start _) fun tssESP =>
    .bind (getGuestWord_accessor start _) fun raw => ?_
  exact Accessor.panic_bind rfl fun _ => Accessor.panic_bind rfl fun _ =>
    .bind (fetchGuestDescBySel_accessor start _ _) fun _ => Accessor.panic_bind rfl fun _ => .pure

theorem writeGuestDWord_handler (lAddr val : Bit32u) : Handler start (writeGuestDWord lAddr val) :=
  accessor_handler fun start => writeGuestDWord_accessor start lAddr val

private theorem openFrame_handler (fromCPL : BitVec 2) (csSel : Selector) (csDesc : Descriptor) :
    Handler start (openFrame fromCPL csSel csDesc) := by
  refine .ite (fun _ => ?_) fun _ => modify_handler fun _ => rfl
  refine .bind (accessor_handler fun start => fetchInnerStack_accessor start csDesc) fun stack => ?_
  refine .get_bind fun vm _ => .bind (modify_handler fun _ => rfl) fun _ =>
    .bind (guestSelectorUpdated_handler _ _) fun _ =>
      .bind (modify_handler fun _ => rfl) fun _ => ?_
  exact .bind (writeGuestDWord_handler _ _) fun _ => writeGuestDWord_handler _ _

private theorem pushFrame_handler (fromCPL : BitVec 2) (oldEFlags intFlags errorCode : Bit32u) :
    Handler start (pushFrame fromCPL oldEFlags intFlags errorCode) := by
  refine .get_bind fun vm _ => .bind (writeGuestDWord_handler _ _) fun _ =>
    .bind (writeGuestDWord_handler _ _) fun _ => .bind (writeGuestDWord_handler _ _) fun _ => ?_
  exact .ite (fun _ => .bind (modify_handler fun _ => rfl) fun _ => writeGuestDWord_handler _ _)
    fun _ => .pure

private theorem resumeWithEFlags_handler (eflags : Bit32u) :
    Handler start (resumeWithEFlags eflags) :=
  .get_bind fun _ _ => .bind (panicWhen_handler rfl) fun _ => modify_handler fun _ => rfl

theorem doGuestInterrupt_handler (vector intFlags errorCode : Bit32u) :
    Handler start (doGuestInterrupt vector intFlags errorCode) := by
  refine .get_bind fun vm _ =>
    .bind (accessor_handler fun start => fetchGate_accessor start vector intFlags) fun gate =>
    .bind (accessor_handler fun start => fetchHandlerCS_accessor start _) fun csDesc => ?_
  exact .bind (openFrame_handler _ _ _) fun _ => .bind (pushFrame_handler _ _ _ _) fun _ =>
    .bind (modify_handler fun _ => rfl) fun _ => .bind (guestSelectorUpdated_handler _ _) fun _ =>
      resumeWithEFlags_handler _

private theorem checkUserDataSegment_handler (raw : Bit32u) :
    Handler start (checkUserDataSegment raw) :=
  panicWhen_handler rfl

private theorem leaveInnerStack_handler (toCS : Selector) :
    Handler start (leaveInnerStack toCS) := by
  refine .get_bind fun vm _ =>
    .bind (accessor_handler fun start => getGuestDWord_accessor start _) fun toESP =>
    .bind (accessor_handler fun start => getGuestWord_accessor start _) fun raw => ?_
  refine .bind (panicWhen_handler rfl) fun _ => .bind (panicWhen_handler rfl) fun _ =>
    .bind (accessor_handler fun start => fetchGuestDescBySel_accessor start _ _) fun ssDesc => ?_
  refine .bind (panicWhen_handler rfl) fun _ => .bind (modify_handler fun _ => rfl) fun _ =>
    .bind (guestSelectorUpdated_handler _ _) fun _ => ?_
  exact .bind (checkUserDataSegment_handler _) fun _ => .bind (checkUserDataSegment_handler _)
    fun _ => .bind (checkUserDataSegment_handler _) fun _ => checkUserDataSegment_handler _

private theorem iretVirtualFlags_handler (fromCPL : BitVec 2) (toCS : Selector)
    (toEFlags : Bit32u) :
    Handler start (iretVirtualFlags fromCPL toCS toEFlags) := by
  refine .get_bind fun vm _ => .ite (fun _ => ?_) fun _ => .ite (fun _ => ?_) fun _ => ?_
  · exact .bind (panicWhen_handler rfl) fun _ => .bind (panicWhen_handler rfl) fun _ =>
      modify_handler fun _ => rfl
  · exact .bind (panicWhen_handler rfl) fun _ => .bind (modify_handler fun _ => rfl) fun _ =>
      .bind (panicWhen_handler rfl) fun _ => modify_handler fun _ => rfl
  · exact .bind (panicWhen_handler rfl) fun _ => .bind (modify_handler fun _ => rfl) fun _ =>
      panicWhen_handler rfl

private theorem checkIretFrame_handler (fromCPL : BitVec 2) (toCS : Selector) (toEFlags : Bit32u) :
    Handler start (checkIretFrame fromCPL toCS toEFlags) :=
  .bind (panicWhen_handler rfl) fun _ => .bind (panicWhen_handler rfl) fun _ =>
    .bind (panicWhen_handler rfl) fun _ => .bind (panicWhen_handler rfl) fun _ =>
      panicWhen_handler rfl

theorem doIRET_handler : Handler start doIRET := by
  refine .get_bind fun vm _ => .bind (panicWhen_handler rfl) fun _ =>
    .bind (accessor_handler fun start => getGuestDWord_accessor start _) fun toEIP =>
    .bind (accessor_handler fun start => getGuestWord_accessor start _) fun raw =>
    .bind (accessor_handler fun start => getGuestDWord_accessor start _) fun toEFlags => ?_
  refine .bind (checkIretFrame_handler _ _ _) fun _ =>
    .bind (accessor_handler fun start => fetchGuestDescBySel_accessor start _ _) fun csDesc =>
    .bind (panicWhen_handler rfl) fun _ => ?_
  refine .bind (.ite (fun _ => leaveInnerStack_handler _) fun _ => modify_handler fun _ => rfl)
    fun _ => ?_
  exact .bind (modify_handler fun _ => rfl) fun _ =>
    .bind (guestSelectorUpdated_handler _ _) fun _ =>
    .bind (iretVirtualFlags_handler _ _ _) fun _ => modify_handler fun _ => rfl

theorem loadGuestSegment_handler (sreg : SReg) (selector : Selector) :
    Handler start (loadGuestSegment sreg selector) :=
  .bind (accessor_handler fun start => fetchGuestDescBySel_accessor start _ _) fun _ =>
    .bind (panicWhen_handler rfl) fun _ => .bind (modify_handler fun _ => rfl) fun _ =>
    guestSelectorUpdated_handler _ _

theorem picIAC_handler : Handler start picIAC :=
  .get_bind fun _ _ => .bind (panicWhen_handler rfl) fun _ => .bind (panicWhen_handler rfl) fun _ =>
    .bind (modify_handler fun _ => rfl) fun _ => .pure

theorem emulateSTI_handler (iLen : Bit32u) : Handler start (emulateSTI iLen) :=
  .bind (modify_handler fun _ => rfl) fun _ => .get_bind fun _ _ =>
    .bind (panicWhen_handler rfl) fun _ =>
    .bind picIAC_handler fun _ => doGuestInterrupt_handler _ _ _

private theorem picIrqMaster_handler (irqNum : Bit32u) : Handler start (picIrqMaster irqNum) :=
  modify_handler fun _ => rfl

theorem picIrq_handler (irqNum : Bit32u) : Handler start (picIrq irqNum) := by
  refine .bind (panicWhen_handler rfl) fun _ => .ite (fun _ => picIrqMaster_handler _) fun _ => ?_
  exact .get_bind fun _ _ => .bind (modify_handler fun _ => rfl) fun _ =>
    .ite (fun _ => picIrqMaster_handler _) fun _ => .pure

private theorem pitExpireTimer_handler (pitClocks : Bit32u) (pitID : Fin 3) :
    Handler start (pitExpireTimer pitClocks pitID) :=
  .get_bind fun _ _ => .bind (panicWhen_handler rfl) fun _ =>
    .bind (modify_handler fun _ => rfl) fun _ =>
    .ite (fun _ => picIrq_handler _) fun _ => .pure

theorem pitExpireClocks_handler (pitClocks : Bit32u) : Handler start (pitExpireClocks pitClocks) :=
  .bind (pitExpireTimer_handler _ _) fun _ => .bind (pitExpireTimer_handler _ _) fun _ =>
    pitExpireTimer_handler _ _

end Handlers
end Plex86
