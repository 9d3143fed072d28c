import Plex86.Monitor.Segments

namespace Plex86

open Logic Vm

/-- The slots that the guest may not have keep what they hold, also where the
program stops. -/
abbrev Spares {α : Type} (held : BitVec 13 → Descriptor) (program : Mon α) : Prop :=
  Keeps (fun vm => ∀ slot, ¬ GuestSlot slot → vm.gdt slot = held slot)
    (fun _ vm => ∀ slot, ¬ GuestSlot slot → vm.gdt slot = held slot) program

section Spares

variable {held : BitVec 13 → Descriptor}

private theorem panicWhen_spares {cond : Prop} [Decidable cond] {format : String}
    {args : List Bit32u} :
    Spares held (panicWhen cond format args) :=
  panicWhen_keeps fun _ here => here

private theorem monAssert_spares (holds : Bool) (condition : String) :
    Spares held (monAssert holds condition) :=
  .ite (fun _ => .pure) fun _ => .throw fun _ here => here

private theorem Vm.withRoom_gdt (vm : Vm) : vm.withRoom.gdt = vm.gdt := by
  unfold withRoom
  split <;> rfl

private theorem toHostPinUserPage_spares (ppi : Bit32u) : Spares held (toHostPinUserPage ppi) := by
  refine .bind (.modify fun _ here => here) fun _ => .bind ?_ fun served =>
    .ite (fun _ => .pure) fun _ => .bind (.modify fun _ here => here) fun _ =>
      .throw fun _ here => here
  intro vm here
  rw [hostHandlePagePinRequest_apply]
  cases vm.setup.os.getAndPinUserPage vm.withRoom.hostCalls.length (vm.setup.userAddr ppi) with
  | none => exact fun slot own => (congrFun vm.withRoom_gdt slot).trans (here slot own)
  | some page => exact fun slot own => (congrFun vm.withRoom_gdt slot).trans (here slot own)

private theorem openGuestPhyPage_spares (ppi monOffset : Bit32u) :
    Spares held (openGuestPhyPage ppi monOffset) := by
  refine .get_bind fun _ _ => .bind (monAssert_spares _ _) fun _ => .bind ?_ fun _ =>
    .bind (.modify fun _ here => here) fun _ => .pure
  refine .get_bind fun _ _ => .bind (monAssert_spares _ _) fun _ => .ite (fun _ => .pure) fun _ => ?_
  exact .bind (toHostPinUserPage_spares ppi) fun _ => .get_bind fun _ _ =>
    .bind (monAssert_spares _ _) fun _ => .pure

private theorem readWord_spares {width : Nat} (page : OpenPage) (offset : Nat) :
    Spares held (readWord width page offset) :=
  .get_bind fun _ _ => .bind (.modify fun _ here => here) fun _ => .pure

private theorem translateLinToPhy_spares (lAddr : Bit32u) :
    Spares held (translateLinToPhy lAddr) := by
  refine .get_bind fun _ _ => .ite (fun _ => .pure) fun _ => .ite (fun _ => .pure) fun _ =>
    .ite (fun _ => .pure) fun _ => .bind (openGuestPhyPage_spares _ _) fun _ =>
    .bind (readWord_spares _ _) fun _ => .ite (fun _ => .pure) fun _ => ?_
  exact .ite (fun _ => .pure) fun _ => .bind (openGuestPhyPage_spares _ _) fun _ =>
    .bind (readWord_spares _ _) fun _ => .ite (fun _ => .pure) fun _ => .pure

private theorem fetchGuestDescByLAddr_spares (laddr : Bit32u) :
    Spares held (fetchGuestDescByLAddr laddr) :=
  .get_bind fun _ _ => .bind (translateLinToPhy_spares _) fun _ => .bind panicWhen_spares fun _ =>
    .bind panicWhen_spares fun _ => .bind panicWhen_spares fun _ =>
    .bind (openGuestPhyPage_spares _ _) fun _ => .bind (readWord_spares _ _) fun _ => .pure

private theorem checkGuestDesc_spares (segno : SReg) (sel : Selector) (desc : Descriptor) :
    Spares held (checkGuestDesc segno sel desc) :=
  .get_bind fun _ _ => .ite (fun _ => .bind panicWhen_spares fun _ => .bind panicWhen_spares fun _ =>
    panicWhen_spares) fun _ => .bind panicWhen_spares fun _ => panicWhen_spares

/-- A descriptor that passes the check goes into a slot the guest may have. -/
theorem guestSelectorUpdated_spares (segno : SReg) (sel : Selector) :
    Spares held (guestSelectorUpdated segno sel) := by
  refine .ite (fun _ => ?_) fun _ => .pure
  refine .get_bind fun _ _ => .bind panicWhen_spares fun _ => .bind panicWhen_spares fun _ =>
    .bind (fetchGuestDescByLAddr_spares _) fun desc => ?_
  intro vm here
  have checked := checkGuestDesc_spares segno sel desc vm here
  rw [bind_apply]
  cases run : checkGuestDesc segno sel desc vm with
  | ok value next =>
      rw [run] at checked
      obtain ⟨allowed, -, -⟩ := (checkGuestDesc_does segno sel desc vm.core).ok run
      intro slot own
      have differs : slot ≠ sel.index := by
        rintro rfl
        exact own allowed.guest
      exact (Function.update_of_ne differs _ _).trans (checked slot own)
  | error stop last =>
      rw [run] at checked
      exact checked

end Spares

/-- The descriptor that is installed for a segment register. -/
def installedFor (cpu : GuestCpu) (guestCPL : BitVec 2) (segno : SReg) : Descriptor :=
  if guestCPL = 0 then (cpu.sreg segno).des.setDpl 3 else (cpu.sreg segno).des

/-- The loop over the segment registers. -/
def installAll (cpu : GuestCpu) (guestCPL : BitVec 2) (gdt : BitVec 13 → Descriptor)
    (segs : List SReg) : BitVec 13 → Descriptor :=
  segs.foldl (fun gdt segno =>
    if (cpu.sreg segno).sel.isNull = false then
      Function.update gdt (cpu.sreg segno).sel.index (installedFor cpu guestCPL segno)
    else gdt) gdt

private theorem installDescriptors_eq (cpu : GuestCpu) (guestCPL : BitVec 2)
    (gdt : BitVec 13 → Descriptor) :
    installDescriptors cpu guestCPL gdt = installAll cpu guestCPL gdt sregs := rfl

/-- What a slot holds after the loop: the last descriptor that went into it. -/
theorem installAll_slot (cpu : GuestCpu) (guestCPL : BitVec 2) (gdt : BitVec 13 → Descriptor)
    (segs : List SReg) (slot : BitVec 13) :
    (installAll cpu guestCPL gdt segs slot = gdt slot ∧ ∀ segno ∈ segs,
      (cpu.sreg segno).sel.isNull = false → (cpu.sreg segno).sel.index ≠ slot) ∨
    ∃ segno ∈ segs, (cpu.sreg segno).sel.isNull = false ∧ (cpu.sreg segno).sel.index = slot ∧
      installAll cpu guestCPL gdt segs slot = installedFor cpu guestCPL segno := by
  induction segs generalizing gdt with
  | nil => exact .inl ⟨rfl, by simp⟩
  | cons segno rest inductionHypothesis =>
      rw [installAll, List.foldl_cons]
      rcases inductionHypothesis (if (cpu.sreg segno).sel.isNull = false then
          Function.update gdt (cpu.sreg segno).sel.index (installedFor cpu guestCPL segno)
        else gdt) with ⟨same, none⟩ | ⟨later, member, notNull, index, same⟩
      · by_cases here : (cpu.sreg segno).sel.isNull = false ∧ (cpu.sreg segno).sel.index = slot
        · refine .inr ⟨segno, List.mem_cons_self, here.1, here.2, same.trans ?_⟩
          rw [if_pos here.1, here.2, Function.update_self]
        · refine .inl ⟨same.trans ?_, List.forall_mem_cons.mpr ⟨fun notNull index =>
            here ⟨notNull, index⟩, none⟩⟩
          split
          · next notNull => exact Function.update_of_ne (fun index => here ⟨notNull, index.symm⟩) _ _
          · rfl
      · exact .inr ⟨later, List.mem_cons_of_mem _ member, notNull, index, same⟩

private theorem mem_sregs (segno : SReg) : segno ∈ sregs := by
  cases segno <;> simp [sregs]

/-- The guest's segment registers, each of them good. -/
def GoodSegs (linuxVMMode : Bool) (cpu : GuestCpu) : Prop :=
  ∀ segno, badSegReg linuxVMMode (cpu.sreg .cs).des.dpl segno (cpu.sreg segno) = false

theorem GoodSegs.slot {linuxVMMode : Bool} {cpu : GuestCpu} (good : GoodSegs linuxVMMode cpu)
    {segno : SReg} (loads : segno = .cs ∨ (cpu.sreg segno).sel.isNull = false) :
    GuestSlot (cpu.sreg segno).sel.index := by
  have checked := good segno
  cases linuxVMMode with
  | true => exact linuxSlotOK_guest (badSegReg_linux checked loads).2.2.2
  | false => exact okGuestSlot_guest (badSegReg_normal checked loads).2.2.2

theorem GoodSegs.spares {linuxVMMode : Bool} {cpu : GuestCpu} (good : GoodSegs linuxVMMode cpu)
    (guestCPL : BitVec 2) (gdt : BitVec 13 → Descriptor) {slot : BitVec 13}
    (own : ¬ GuestSlot slot) : installDescriptors cpu guestCPL gdt slot = gdt slot := by
  rw [installDescriptors_eq]
  rcases installAll_slot cpu guestCPL gdt sregs slot with ⟨same, -⟩ | ⟨segno, -, notNull, rfl, -⟩
  · exact same
  · exact (own (good.slot (.inr notNull))).elim

private theorem failWhen_spares {held : BitVec 13 → Descriptor} {cond : Prop} [Decidable cond]
    {retval : Nat} : Spares held (failWhen cond retval) :=
  .ite (fun _ => .throw fun _ here => here) fun _ => .pure

private theorem checkSegRegs_spares {held : BitVec 13 → Descriptor} (vm : Vm) (segs : List SReg) :
    Spares held (checkSegRegs vm segs) := by
  induction segs with
  | nil => exact .pure
  | cons segno rest inductionHypothesis => exact .bind failWhen_spares fun _ => inductionHypothesis

/-- Where the guest cannot be entered nothing has been installed. -/
theorem enterGuest_stops {held : BitVec 13 → Descriptor} :
    Ensures (fun vm => ∀ slot, ¬ GuestSlot slot → vm.gdt slot = held slot) enterGuest
      (fun _ _ => True) fun _ vm => ∀ slot, ¬ GuestSlot slot → vm.gdt slot = held slot := by
  refine .bind (.modify fun _ here => here) fun _ => .look_bind fun vm _ =>
    .bind failWhen_spares fun _ => .bind failWhen_spares fun _ =>
    .bind (checkSegRegs_spares vm sregs) fun _ => .bind failWhen_spares fun _ => ?_
  intro last here
  trivial

private theorem enterGuest_spares {held : BitVec 13 → Descriptor} : Spares held enterGuest := by
  intro vm here
  have stopped := enterGuest_stops vm here
  cases run : enterGuest vm with
  | ok value next =>
      obtain ⟨rfl, good, -⟩ := enterGuest_ok run
      have segs : GoodSegs vm.setup.linuxVMMode vm.guestCpu := good
      exact fun slot own => (segs.spares _ _ own).trans (here slot own)
  | error stop last =>
      rw [run] at stopped
      exact stopped

private theorem hostIoctlExecute_spares {held : BitVec 13 → Descriptor} (native : Bool) :
    Spares held (hostIoctlExecute native) := by
  have panics (retval : Nat) : Spares held (ioctlPanic retval : Mon Unit) :=
    .bind (.modify fun _ here => here) fun _ => .throw fun _ here => here
  refine .get_bind fun _ _ => .ite (fun _ => panics _) fun _ => .bind (.modify fun _ here => here)
    fun _ => .ite (fun _ => .modify fun _ here => here) fun _ => ?_
  exact .ite (fun _ => .modify fun _ here => here) fun _ => .ite (fun _ => panics _) fun _ =>
    .bind failWhen_spares fun _ => enterGuest_spares

theorem Registration.Registered.gdt {reg : Registration} {boot : Vm} (registered : reg.Registered boot) :
    boot.gdt = reg.monitorGdt := by
  obtain ⟨guestCpu, mem, guestCPL, intr, same⟩ := registered.machine
  rw [same]
  rfl

/-- The slots that belong to the monitor are never written: neither for the state
that user space hands over, nor for a segment that the guest loads, whether that
succeeds or not; and in no run do they change. -/
theorem monitor_descriptors_stand :
    (∀ (native : Bool) (vm : Vm) (slot : BitVec 13), ¬ GuestSlot slot →
      (ends (hostIoctlExecute native) vm).gdt slot = vm.gdt slot) ∧
    (∀ (segno : SReg) (sel : Selector) (vm : Vm) (slot : BitVec 13), ¬ GuestSlot slot →
      (ends (guestSelectorUpdated segno sel) vm).gdt slot = vm.gdt slot) ∧
    ∀ (reg : Registration) (past : List (Moment Vm Trap)) (vm : Vm), GuestRun reg past vm →
      ∀ slot, ¬ GuestSlot slot → vm.gdt slot = reg.monitorGdt slot := by
  refine ⟨fun native vm slot own => ?_, fun segno sel vm slot own => ?_, ?_⟩
  · exact (hostIoctlExecute_spares native).ends (fun _ _ => rfl) slot own
  · exact (guestSelectorUpdated_spares segno sel).ends (fun _ _ => rfl) slot own
  intro reg past vm run
  induction run with
  | start started =>
      obtain ⟨boot, entry, resumed⟩ := started.entered
      obtain ⟨middle, resumes⟩ := preGuest_resumes resumed
      intro slot own
      have segs : GoodSegs boot.setup.linuxVMMode boot.guestCpu := entry.segs
      calc _ = installDescriptors boot.guestCpu (boot.guestCpu.sreg .cs).des.dpl boot.gdt slot :=
            resumes.segmentStep.spared slot own
        _ = boot.gdt slot := segs.spares _ _ own
        _ = reg.monitorGdt slot := congrFun entry.registered.gdt slot
  | @next older before after trap earlier step inductionHypothesis =>
      have native := (GuestRun.guarded earlier).native step.1
      obtain ⟨middle, resumes⟩ := Trap.serve_resumes native.sound step.2
      intro slot own
      calc after.gdt slot = trap.now.gdt slot := resumes.segmentStep.spared slot own
        _ = before.gdt slot := congrFun step.1.gdt slot
        _ = reg.monitorGdt slot := inductionHypothesis slot own

/-- The kernel faults, which loads its code segment, and then returns to user code. -/
theorem monitor_descriptors_stand_sample : ∃ (past : List (Moment Vm Trap)) (vm : Vm),
    GuestRun Sample.reg past vm ∧ past.length = 2 ∧ vm.guestCPL = 3 ∧
      ∀ slot ∈ [vmMonCsSlot, vmMonDsSlot, vmMonTssSlot], vm.gdt slot = Sample.reg.monitorGdt slot := by
  let check (played : List (Moment Vm Trap) × Vm) : Bool :=
    decide (played.1.length = 2) && decide (played.2.guestCPL = 3)
  have checked : (play (Sample.boot false)
      [Sample.fault 0x9000 0, { cause := .fault (.iret Sample.visit) }]).any check = true := by
    decide +kernel
  obtain ⟨past, vm, run, found⟩ := play_reaches (Sample.boot_registered false) checked
  simp only [check, Bool.and_eq_true, decide_eq_true_eq] at found
  refine ⟨past, vm, run, found.1, found.2, fun slot member => ?_⟩
  refine monitor_descriptors_stand.2.2 _ _ _ run slot fun guest => ?_
  simp only [List.mem_cons, List.not_mem_nil, or_false] at member
  rcases member with rfl | rfl | rfl
  · exact guest.code rfl
  · exact guest.data rfl
  · exact guest.task rfl

-- Rings

/-- User code is handed over with selectors of ring 3 only. -/
def GuestCpu.UserRings (cpu : GuestCpu) : Prop :=
  (cpu.sreg .cs).des.dpl = 3 → ∀ segno, (cpu.sreg segno).sel.isNull = false →
    (cpu.sreg segno).sel.rpl = 3

instance (cpu : GuestCpu) : Decidable cpu.UserRings :=
  have : DecidablePred fun segno => (cpu.sreg segno).sel.isNull = false →
      (cpu.sreg segno).sel.rpl = 3 := fun _ => inferInstance
  decidable_of_iff ((cpu.sreg .cs).des.dpl = 3 → ∀ segno ∈ sregs,
      (cpu.sreg segno).sel.isNull = false → (cpu.sreg segno).sel.rpl = 3)
    ⟨fun all user segno => all user segno (mem_sregs segno), fun all user segno _ => all user segno⟩

/-- All the descriptors installed are of ring 3, and so are all the selectors of
the context, which refer to them. -/
structure EntersRing3 (held : BitVec 13 → Descriptor) (vm : Vm) : Prop where
  installed : ∀ slot, vm.gdt slot = held slot ∨ (vm.gdt slot).dpl = 3
  selectors : ∀ segno, Ring3 vm.gdt (vm.context.seg segno)

/-- What is known of a segment register that may be loaded, in either mode. -/
theorem GoodSegs.ring {linuxVMMode : Bool} {cpu : GuestCpu} (good : GoodSegs linuxVMMode cpu)
    {segno : SReg} (loads : segno = .cs ∨ (cpu.sreg segno).sel.isNull = false) :
    (cpu.sreg segno).sel.rpl = (cpu.sreg segno).des.dpl ∧
      ((cpu.sreg segno).des.dpl = 0 ∨ (cpu.sreg segno).des.dpl = 3) ∧
      (cpu.sreg segno).sel.ti = false := by
  have checked := good segno
  cases linuxVMMode with
  | true =>
      obtain ⟨table, level, ring, -⟩ := badSegReg_linux checked loads
      exact ⟨level, ring, table⟩
  | false =>
      obtain ⟨table, rpl, dpl, -⟩ := badSegReg_normal checked loads
      exact ⟨rpl.trans dpl.symm, .inr dpl, table⟩

theorem GoodSegs.user {linuxVMMode : Bool} {cpu : GuestCpu} (good : GoodSegs linuxVMMode cpu)
    (notKernel : (cpu.sreg .cs).des.dpl ≠ 0) : (cpu.sreg .cs).des.dpl = 3 :=
  (good.ring (.inl rfl)).2.1.resolve_left notKernel

private theorem GoodSegs.installedFor_dpl {linuxVMMode : Bool} {cpu : GuestCpu}
    (good : GoodSegs linuxVMMode cpu) (rings : cpu.UserRings) {segno : SReg}
    (notNull : (cpu.sreg segno).sel.isNull = false) :
    (installedFor cpu (cpu.sreg .cs).des.dpl segno).dpl = 3 := by
  unfold installedFor
  split
  · exact Descriptor.setDpl_dpl _ _
  · next notKernel =>
      rw [← (good.ring (.inr notNull)).1]
      exact rings (good.user notKernel) segno notNull

private theorem GoodSegs.installed_dpl {linuxVMMode : Bool} {cpu : GuestCpu}
    (good : GoodSegs linuxVMMode cpu) (rings : cpu.UserRings) (gdt : BitVec 13 → Descriptor)
    (slot : BitVec 13) :
    (installDescriptors cpu (cpu.sreg .cs).des.dpl gdt slot = gdt slot ∧ ∀ segno,
      (cpu.sreg segno).sel.isNull = false → (cpu.sreg segno).sel.index ≠ slot) ∨
    (installDescriptors cpu (cpu.sreg .cs).des.dpl gdt slot).dpl = 3 := by
  rw [installDescriptors_eq]
  rcases installAll_slot cpu (cpu.sreg .cs).des.dpl gdt sregs slot with
    ⟨same, none⟩ | ⟨segno, -, notNull, -, fresh⟩
  · exact .inl ⟨same, fun segno => none segno (mem_sregs segno)⟩
  · rw [fresh]
    exact .inr (good.installedFor_dpl rings notNull)

private theorem Vm.atEntry_seg (vm : Vm) (segno : SReg) :
    vm.atEntry.context.seg segno =
      contextSelector (vm.guestCpu.sreg .cs).des.dpl (vm.guestCpu.sreg segno) := by
  cases segno <;> rfl

/-- A selector that is not pushed down. -/
theorem Selector.raw_back (sel : Selector) :
    (⟨(sel.raw.setWidth 32).setWidth 16⟩ : Selector) = sel := by
  rw [BitVec.setWidth_setWidth_of_le _ (by decide), BitVec.setWidth_eq]

/-- The guest is entered at ring 3 exactly where user code is handed over with
selectors of ring 3. -/
theorem GoodSegs.entersRing3 (vm : Vm) (good : GoodSegs vm.setup.linuxVMMode vm.guestCpu) :
    EntersRing3 vm.gdt vm.atEntry ↔ vm.guestCpu.UserRings := by
  constructor
  · intro enters user segno notNull
    have ring := enters.selectors segno
    have notKernel : ¬ (vm.guestCpu.sreg .cs).des.dpl = 0 := by
      rw [user]
      decide
    rw [atEntry_seg, contextSelector, if_neg notKernel, Ring3, Selector.raw_back] at ring
    exact (ring notNull).1
  · intro rings
    refine ⟨fun slot => (good.installed_dpl rings vm.gdt slot).imp_left And.left, fun segno => ?_⟩
    have held (notNull : (vm.guestCpu.sreg segno).sel.isNull = false) :
        (vm.atEntry.gdt (vm.guestCpu.sreg segno).sel.index).dpl = 3 :=
      (good.installed_dpl rings vm.gdt _).resolve_left fun ⟨_, absent⟩ => absent segno notNull rfl
    rw [atEntry_seg, contextSelector]
    by_cases kernel : (vm.guestCpu.sreg .cs).des.dpl = 0
    · rw [if_pos kernel, Ring3, Selector.pushedDown_isNull, Selector.pushedDown_rpl,
        Selector.pushedDown_ti, Selector.pushedDown_index]
      exact fun notNull => ⟨rfl, (good.ring (.inr notNull)).2.2, held notNull⟩
    · rw [if_neg kernel, Ring3, Selector.raw_back]
      exact fun notNull =>
        ⟨rings (good.user kernel) segno notNull, (good.ring (.inr notNull)).2.2, held notNull⟩

private theorem Entry.ring3 {reg : Registration} {boot : Vm} (entry : Entry reg boot) :
    EntersRing3 reg.monitorGdt { boot with intr := boot.guestCpu.intr }.atEntry ↔
      boot.guestCpu.UserRings := by
  have segs : GoodSegs boot.setup.linuxVMMode boot.guestCpu := entry.segs
  rw [← entry.registered.gdt]
  exact GoodSegs.entersRing3 { boot with intr := boot.guestCpu.intr } segs

/-- What the monitor has given the guest over a run: descriptors of ring 3, and
after each trap, for every segment register it has written, a selector of ring 3
whose descriptor is of ring 3 since. -/
structure KeepsRing3 (held : BitVec 13 → Descriptor) (past : List (Moment Vm Trap)) (vm : Vm) :
    Prop where
  installed : ∀ slot, vm.gdt slot = held slot ∨ (vm.gdt slot).dpl = 3
  loaded : ∀ moment ∈ past, ∀ segno,
    moment.after.context.seg segno = moment.event.now.context.seg segno ∨
      Ring3 vm.gdt (moment.after.context.seg segno)

private theorem SegmentStep.ring3 {before next : Running} {raw : Bit32u}
    (step : SegmentStep before next)
    (ring : Ring3 before.gdt raw) : Ring3 next.gdt raw := by
  intro notNull
  obtain ⟨rpl, table, dpl⟩ := ring notNull
  refine ⟨rpl, table, ?_⟩
  rcases step.installed (⟨raw.setWidth 16⟩ : Selector).index with same | fresh
  · rw [same]
    exact dpl
  · exact fresh

/-- The monitor lets the guest into ring 3 only, exactly where user space hands
over user code with selectors of ring 3; and then it does so in every run. -/
theorem guest_ring3 {reg : Registration} {boot : Vm} (registered : reg.Registered boot) :
    (∀ native entered, hostIoctlExecute native boot = .ok () entered →
      (EntersRing3 reg.monitorGdt entered ↔ boot.guestCpu.UserRings)) ∧
    (boot.guestCpu.UserRings →
      (∀ first, StartedBy boot first → ∀ segno, Ring3 first.gdt (first.context.seg segno)) ∧
      ∀ past vm, Run (StartedBy boot) Step past vm → KeepsRing3 reg.monitorGdt past vm) := by
  refine ⟨fun native entered run => ?_, fun rings => ?_⟩
  · obtain ⟨rfl, entry⟩ := registered.enters run
    exact entry.ring3
  have begins {first : Vm} (started : StartedBy boot first) :
      EntersRing3 reg.monitorGdt first := by
    obtain ⟨native, run⟩ := started
    obtain ⟨_, entered, executed, resumed⟩ := bind_ok.mp run
    obtain ⟨rfl, entry⟩ := registered.enters executed
    have enters := entry.ring3.mpr rings
    obtain ⟨middle, resumes⟩ := preGuest_resumes resumed
    constructor
    · intro slot
      rcases resumes.segmentStep.installed slot with same | fresh
      · change first.running.gdt slot = _ ∨ (first.running.gdt slot).dpl = 3
        rw [same]
        exact enters.installed slot
      · exact .inr fresh
    · intro segno
      rcases resumes.segmentStep.loaded segno with same | ring
      · change Ring3 first.running.gdt (first.running.seg segno)
        rw [same]
        exact resumes.segmentStep.ring3 (enters.selectors segno)
      · exact ring
  refine ⟨fun first started => (begins started).selectors, fun past vm run => ?_⟩
  induction run with
  | start started => exact ⟨(begins started).installed, by simp⟩
  | @next older before after trap earlier step inductionHypothesis =>
      have reached : GuestRun reg older before :=
        earlier.mono fun _ started => started.started registered
      have native := reached.guarded.native step.1
      obtain ⟨middle, resumes⟩ := Trap.serve_resumes native.sound step.2
      have segments := resumes.segmentStep
      have same : trap.now.running.gdt = before.gdt := step.1.gdt
      constructor
      · intro slot
        rcases segments.installed slot with kept | fresh
        · change after.running.gdt slot = _ ∨ (after.running.gdt slot).dpl = 3
          rw [kept, same]
          exact inductionHypothesis.installed slot
        · exact .inr fresh
      · intro moment member segno
        rcases List.mem_cons.mp member with rfl | older
        · exact segments.loaded segno
        · refine (inductionHypothesis.loaded moment older segno).imp_right fun ring => ?_
          exact segments.ring3 (same.symm ▸ ring)

/-- The kernel faults, and then returns to user code. -/
theorem guest_ring3_sample : ∃ (past : List (Moment Vm Trap)) (vm : Vm),
    past.length = 2 ∧ vm.guestCPL = 3 ∧ KeepsRing3 Sample.reg.monitorGdt past vm := by
  let episodes : List Episode := [Sample.fault 0x9000 0, { cause := .fault (.iret Sample.visit) }]
  let check (played : List (Moment Vm Trap) × Vm) : Bool :=
    decide (played.1.length = 2) && decide (played.2.guestCPL = 3)
  have checked : (play (Sample.boot false) episodes).any check = true := by decide +kernel
  obtain ⟨past, vm, run, found⟩ := play_reaches_by checked
  simp only [check, Bool.and_eq_true, decide_eq_true_eq] at found
  have rings : (Sample.boot false).guestCpu.UserRings := by decide
  exact ⟨past, vm, found.1, found.2,
    ((guest_ring3 (Sample.boot_registered false)).2 rings).2 past vm run⟩

/-- User code is handed over with a data segment of ring 0, whose descriptor is
then in the monitor's GDT as it stands. -/
theorem guest_ring0 : ∃ boot entered, Sample.reg.Registered boot ∧
    hostIoctlExecute true boot = .ok () entered ∧ entered.guestCPL = 3 ∧
    entered.context.ds = 0x28 ∧ (entered.gdt 5).dpl = 0 ∧
    ¬ EntersRing3 Sample.reg.monitorGdt entered := by
  let cpu : GuestCpu := { Sample.cpu true with
    sreg := Function.update (Sample.cpu true).sreg .ds (Sample.segment 0x28 0x00cf92000000ffff) }
  let boot : Vm := { Sample.boot true with guestCpu := cpu }
  let check (entered : Vm) : Bool :=
    decide (entered.guestCPL = 3) && decide (entered.context.ds = 0x28) &&
      decide ((entered.gdt 5).dpl = 0)
  have checked : (leaves (hostIoctlExecute true) boot).any check = true := by decide +kernel
  cases executed : leaves (hostIoctlExecute true) boot with
  | none => simp [executed] at checked
  | some entered =>
      simp only [executed, Option.any_some, check, Bool.and_eq_true, decide_eq_true_eq] at checked
      obtain ⟨⟨user, ds⟩, level⟩ := checked
      refine ⟨boot, entered, ⟨Sample.reg_valid, cpu, Sample.memory, 0, 0, rfl⟩,
        leaves_eq_some.mp executed, user, ds, level, fun enters => ?_⟩
      have ring := enters.selectors .ds
      change Ring3 entered.gdt entered.context.ds at ring
      rw [ds] at ring
      have levels := (ring (by decide)).1
      revert levels
      decide

end Plex86
