import Plex86.Monitor.Moves
import Plex86.Monitor.Replay

namespace Plex86

open Logic Vm

/-- A slot of the monitor's GDT that a guest's descriptor may go into. -/
structure GuestSlot (slot : BitVec 13) : Prop where
  positive : 1 ≤ slot
  inside : slot < monGdtSlots
  code : slot ≠ vmMonCsSlot
  data : slot ≠ vmMonDsSlot
  task : slot ≠ vmMonTssSlot

theorem okGuestSlot_guest {slot : BitVec 13} (good : okGuestSlot slot = true) : GuestSlot slot := by
  simp only [okGuestSlot, Bool.and_eq_true, Bool.or_eq_true, decide_eq_true_eq] at good
  obtain ⟨positive, outside⟩ := good
  have code : vmMonCsSlot = 16#13 := rfl
  have data : vmMonDsSlot = 17#13 := rfl
  have task : vmMonTssSlot = 18#13 := rfl
  have size : monGdtSlots = 512#13 := rfl
  rw [code, task, size] at outside
  constructor
  · bv_omega
  · rw [size]
    bv_omega
  · rw [code]
    bv_omega
  · rw [data]
    bv_omega
  · rw [task]
    bv_omega

theorem linuxSlotOK_guest {guestCPL : BitVec 2} {segno : SReg} {slot : BitVec 13}
    (good : linuxSlotOK guestCPL segno slot = true) : GuestSlot slot := by
  have few : slot = linuxKernelCsSlot ∨ slot = linuxKernelDsSlot ∨ slot = linuxUserCsSlot ∨
      slot = linuxUserDsSlot := by
    unfold linuxSlotOK at good
    split at good
    · split at good
      · simp only [Bool.or_eq_true, decide_eq_true_eq] at good
        exact .inl (good.elim id id)
      · simp only [Bool.or_eq_true, decide_eq_true_eq] at good
        exact good.elim (fun kernel => .inr (.inl (kernel.elim id id))) fun user =>
          .inr (.inr (.inr user))
    · split at good
      · exact .inr (.inr (.inl (of_decide_eq_true good)))
      · exact .inr (.inr (.inr (of_decide_eq_true good)))
  rcases few with rfl | rfl | rfl | rfl <;> constructor <;> decide

theorem Vm.SegmentAllowed.guest {vm : Vm} {segno : SReg} {sel : Selector} {desc : Descriptor}
    (allowed : vm.SegmentAllowed segno sel desc) : GuestSlot sel.index := by
  unfold SegmentAllowed at allowed
  split at allowed
  · exact linuxSlotOK_guest allowed.2.2
  · exact okGuestSlot_guest allowed.2.2

/-- The selector, where it is not null, is of ring 3 and names a descriptor of ring 3. -/
def Ring3 (gdt : BitVec 13 → Descriptor) (raw : Bit32u) : Prop :=
  let sel : Selector := ⟨raw.setWidth 16⟩
  sel.isNull = false → sel.rpl = 3 ∧ sel.ti = false ∧ (gdt sel.index).dpl = 3

instance (gdt : BitVec 13 → Descriptor) (raw : Bit32u) : Decidable (Ring3 gdt raw) :=
  inferInstanceAs (Decidable (_ → _))

/-- What the monitor may do to the guest's segments. -/
structure SegmentStep (before next : Running) : Prop where
  spared : ∀ slot, ¬ GuestSlot slot → next.gdt slot = before.gdt slot
  installed : ∀ slot, next.gdt slot = before.gdt slot ∨ (next.gdt slot).dpl = 3
  loaded : ∀ segno, next.seg segno = before.seg segno ∨ Ring3 next.gdt (next.seg segno)

namespace SegmentStep

variable {before middle next : Running}

private theorem of_eq (gdt : next.gdt = before.gdt) (seg : next.seg = before.seg) :
    SegmentStep before next :=
  ⟨fun slot _ => congrFun gdt slot, fun slot => .inl (congrFun gdt slot),
    fun segno => .inl (congrFun seg segno)⟩

private theorem of_running (same : next = before) : SegmentStep before next := by
  rw [same]
  exact .of_eq rfl rfl

theorem trans (first : SegmentStep before middle) (second : SegmentStep middle next) :
    SegmentStep before next where
  spared := fun slot other => (second.spared slot other).trans (first.spared slot other)
  installed := by
    intro slot
    rcases second.installed slot with same | fresh
    · rw [same]
      exact first.installed slot
    · exact .inr fresh
  loaded := by
    intro segno
    rcases second.loaded segno with same | fresh
    · rw [same]
      refine (first.loaded segno).imp_right fun ring notNull => ?_
      obtain ⟨rpl, table, dpl⟩ := ring notNull
      refine ⟨rpl, table, ?_⟩
      rcases second.installed _ with kept | changed
      · rw [kept]
        exact dpl
      · exact changed
    · exact .inr fresh

end SegmentStep

@[simp] theorem Descriptor.setDpl_dpl (desc : Descriptor) (dpl : BitVec 2) :
    (desc.setDpl dpl).dpl = dpl := by
  refine BitVec.eq_of_getLsbD_eq fun index small => ?_
  have : index = 0 ∨ index = 1 := by omega
  rcases this with rfl | rfl <;> simp [Descriptor.setDpl, Descriptor.dpl]

namespace Selector

private theorem pushedDown_raw (sel : Selector) :
    sel.pushedDown.setWidth 16 = sel.raw ||| 3#16 := by
  rw [pushedDown, BitVec.setWidth_setWidth_of_le _ (by decide), BitVec.setWidth_eq]

theorem pushedDown_isNull (sel : Selector) :
    (⟨sel.pushedDown.setWidth 16⟩ : Selector).isNull = sel.isNull := by
  have low : 3#16 &&& 0xfffc#16 = 0#16 := by decide
  have mask : (sel.raw ||| 3#16) &&& 0xfffc#16 = sel.raw &&& 0xfffc#16 := by
    rw [BitVec.and_or_distrib_right, low, BitVec.or_zero]
  rw [pushedDown_raw, isNull, isNull, mask]

theorem pushedDown_rpl (sel : Selector) : (⟨sel.pushedDown.setWidth 16⟩ : Selector).rpl = 3 := by
  rw [pushedDown_raw]
  refine BitVec.eq_of_getLsbD_eq fun index small => ?_
  have : index = 0 ∨ index = 1 := by omega
  rcases this with rfl | rfl <;> simp [rpl]

theorem pushedDown_ti (sel : Selector) :
    (⟨sel.pushedDown.setWidth 16⟩ : Selector).ti = sel.ti := by
  have low : (3#16).getLsbD 2 = false := by decide
  rw [pushedDown_raw, ti, ti, BitVec.getLsbD_or, low, Bool.or_false]

theorem pushedDown_index (sel : Selector) :
    (⟨sel.pushedDown.setWidth 16⟩ : Selector).index = sel.index := by
  have low : (3#16).extractLsb' 3 13 = 0#13 := by decide
  rw [pushedDown_raw, index, index, BitVec.extractLsb'_or, low, BitVec.or_zero]

end Selector

/-- A selector that is loaded, pushed down, with its descriptor. -/
theorem SegmentStep.load {before : Vm} (vm : Vm) {segno : SReg} {sel : Selector}
    (gdt : vm.gdt = before.gdt)
    (seg : vm.context.seg = Function.update before.context.seg segno sel.pushedDown)
    (able : Loads segno sel → vm.SegmentOK segno sel) :
    SegmentStep before.running (vm.withSegment segno sel).running := by
  have kept : (vm.withSegment segno sel).running.seg = vm.context.seg :=
    congrArg GuestStackContext.seg (withSegment_context vm segno sel)
  have others : ∀ other, other ≠ segno →
      (vm.withSegment segno sel).running.seg other = before.running.seg other := by
    intro other differs
    rw [kept, seg]
    exact Function.update_of_ne differs _ _
  have here : (vm.withSegment segno sel).running.seg segno = sel.pushedDown := by
    rw [kept, seg, Function.update_self]
  by_cases loads : Loads segno sel
  · have allowed := (able loads).allowed.guest
    have updated : (vm.withSegment segno sel).running.gdt =
        Function.update before.gdt sel.index ((vm.descOf sel).setDpl 3) := by
      rw [withSegment, if_pos loads, ← gdt]
      rfl
    constructor
    case spared =>
      intro slot other
      have differs : slot ≠ sel.index := by
        rintro rfl
        exact other allowed
      rw [updated]
      exact Function.update_of_ne differs _ _
    case installed =>
      intro slot
      rw [updated]
      by_cases same : slot = sel.index
      · subst same
        exact .inr (by rw [Function.update_self, Descriptor.setDpl_dpl])
      · exact .inl (Function.update_of_ne same _ _)
    case loaded =>
      intro other
      by_cases same : other = segno
      · subst same
        refine .inr fun notNull => ?_
        rw [here, updated, Selector.pushedDown_index, Selector.pushedDown_rpl, Selector.pushedDown_ti,
          Function.update_self, Descriptor.setDpl_dpl]
        exact ⟨rfl, (able loads).valid.1, rfl⟩
      · exact .inl (others other same)
  · have unchanged : (vm.withSegment segno sel).running.gdt = before.gdt := by
      rw [withSegment, if_neg loads, ← gdt]
      rfl
    have null : sel.isNull = true := (Bool.not_eq_false _).mp fun notNull => loads (.inr notNull)
    constructor
    case spared => exact fun slot _ => congrFun unchanged slot
    case installed => exact fun slot => .inl (congrFun unchanged slot)
    case loaded =>
      intro other
      by_cases same : other = segno
      · subst same
        refine .inr fun notNull => ?_
        rw [here, Selector.pushedDown_isNull, null] at notNull
        cases notNull
      · exact .inl (others other same)

/-- The delivery of an interrupt loads SS, where the ring changes, and then CS. -/
theorem Vm.InterruptOK.segmentStep {vm : Vm} {vector intFlags errorCode : Bit32u}
    (able : vm.InterruptOK vector intFlags errorCode) :
    SegmentStep vm.running (vm.interrupted vector intFlags errorCode).running := by
  have opened : SegmentStep vm.running
      (vm.frameOpened (vm.handlerOf vector) (vm.descOf (vm.handlerOf vector))).running := by
    unfold frameOpened
    split
    · next inward =>
        have switch := able.stack inward
        refine .trans (SegmentStep.load (vm.turned _ _) rfl ?_ switch.segment)
          (.of_running (by simp only [stackPushed, stored_running, switched, esp_running]))
        exact GuestStackContext.setSeg_seg vm.context _ .ss
    · exact .of_running (esp_running _ _)
  have framed : SegmentStep vm.running (vm.interruptFramed vector intFlags errorCode).running :=
    opened.trans (.of_running (framePushed_running _ _ _ _ _))
  refine framed.trans (.trans (SegmentStep.load (vm.handlerEntered vector intFlags errorCode)
    rfl ?_ fun _ => able.segment) (.of_eq rfl rfl))
  exact GuestStackContext.setSeg_seg _ _ .cs

/-- A return loads SS, where the ring changes, and then CS. -/
theorem Vm.IretOK.segmentStep {vm : Vm} (able : vm.IretOK) :
    SegmentStep vm.running vm.iretDone.running := by
  have closed : SegmentStep vm.running vm.frameClosed.running := by
    unfold frameClosed
    split
    · next outward =>
        refine SegmentStep.load vm.turnedBack rfl ?_ (able.stack outward).segment
        exact GuestStackContext.setSeg_seg vm.context _ .ss
    · exact .of_running (esp_running _ _)
  refine closed.trans (.trans (SegmentStep.load vm.iretEntered rfl ?_
    fun _ => able.segment) (.of_eq rfl rfl))
  exact GuestStackContext.setSeg_seg _ _ .cs

theorem Vm.LoadOK.segmentStep {vm : Vm} {sreg : SReg} {selector : Selector}
    (able : vm.LoadOK sreg selector) :
    SegmentStep vm.running (vm.segmentLoaded sreg selector).running :=
  SegmentStep.load (vm.segmentSet sreg selector) rfl
    (GuestStackContext.setSeg_seg vm.context selector.pushedDown sreg) able.segment

theorem Move.segmentStep {vm next : Vm} (move : Move vm next) :
    SegmentStep vm.running next.running := by
  cases move with
  | steady same => exact .of_running same
  | pending value reached =>
      rw [reached]
      exact .of_eq rfl rfl
  | interrupt able reached =>
      rw [reached]
      exact able.segmentStep
  | @sti begun vector raised able reached =>
      have flagged : SegmentStep vm.running begun.core.running := by
        have flag : SegmentStep vm.running begun.running := by
          rw [raised]
          exact .of_eq rfl rfl
        exact flag.trans (.of_eq rfl rfl)
      rw [reached]
      exact flagged.trans able.segmentStep
  | iret able reached =>
      rw [reached]
      exact able.segmentStep
  | load able reached =>
      rw [reached]
      exact able.segmentStep

theorem Moves.segmentStep {vm next : Vm} (moves : Moves vm next) :
    SegmentStep vm.running next.running := by
  induction moves with
  | refl => exact .of_running rfl
  | tail _ move inductionHypothesis => exact inductionHypothesis.trans move.segmentStep

theorem Resumes.segmentStep {vm middle next : Vm} (resumes : Resumes vm middle next) :
    SegmentStep vm.running next.running := by
  refine resumes.moves.segmentStep.trans ?_
  rw [resumes.reached, Running.withPending]
  split
  · exact .of_eq rfl rfl
  · exact .of_running rfl

end Plex86
