import Plex86.Emulate.InterruptFrame
import Plex86.Emulate.Walkers
import Plex86.Monitor.FlagsRun

namespace Plex86

open Logic Vm

/-- A Linux guest that may be interrupted: its flags in order, and its selectors
pushed down to ring 3. -/
structure Vm.Interruptible (vm : Vm) : Prop where
  linux : vm.setup.linuxVMMode = true
  flags : vm.running.Coherent
  vip : EFlags.vip vm.context.eflags = false
  cs : ∃ sel : Selector, vm.context.cs = sel.pushedDown
  ss : ∃ sel : Selector, vm.context.ss = sel.pushedDown

/-- The flags that code of the guest can change, and VIP. -/
def handlerFlags : Bit32u := iretChangeMask ||| EFlags.maskVIF ||| EFlags.maskVIP

/-- The handler has come to its IRET: it has popped the error code, and left the
frame and the page tables alone. -/
structure HandlerDone (vm entered returning : Vm) (vector intFlags : Bit32u) : Prop where
  spared : entered.Untouched returning (vm.returnFrame vector ++ vm.stackFrame vector)
  level : returning.guestCPL = entered.guestCPL
  esp : returning.context.esp =
    entered.context.esp + if intFlags &&& intFlagPushError ≠ 0 then 4 else 0
  ss : returning.context.ss = entered.context.ss
  flags : ∀ index, handlerFlags.getLsbD index = false →
    returning.context.eflags.getLsbD index = entered.context.eflags.getLsbD index

/-- What was interrupted goes on where it was, as it was. -/
structure Restored (vm next : Vm) : Prop where
  eip : next.context.eip = vm.context.eip
  cs : next.context.cs = vm.context.cs
  esp : next.context.esp = vm.context.esp
  ss : next.context.ss = vm.context.ss
  eflags : next.context.eflags = vm.context.eflags
  guestCPL : next.guestCPL = vm.guestCPL
  pvi : next.monCr4.getLsbD 1 = vm.monCr4.getLsbD 1

section Selectors

variable {vm : Vm} {sel : Selector}

/-- The two bits of the ring. -/
theorem ring_getLsbD {width index : Nat} (small : index < width) :
    (BitVec.ofNat width 3).getLsbD index = decide (index < 2) := by
  rw [BitVec.getLsbD_ofNat, decide_eq_true small, Bool.true_and]
  exact Nat.testBit_two_pow_sub_one 2 index

private theorem pushedDown_getLsbD (sel : Selector) (index : Nat) : sel.pushedDown.getLsbD index =
    (decide (index < 16) && (sel.raw.getLsbD index || decide (index < 2))) := by
  rw [Selector.pushedDown, BitVec.getLsbD_setWidth]
  by_cases small : index < 16
  · rw [BitVec.getLsbD_or, ring_getLsbD small, decide_eq_true small,
      decide_eq_true (by omega : index < 32)]
  · rw [BitVec.getLsbD_of_ge _ _ (Nat.le_of_not_lt small), decide_eq_false small]
    simp

private theorem pushedCS_getLsbD (vm : Vm) (level : BitVec 2) {index : Nat} (small : index < 32) :
    (vm.pushedCS level).getLsbD index =
      if index < 2 then level.getLsbD index else vm.context.cs.getLsbD index := by
  rw [Vm.pushedCS, BitVec.getLsbD_or, EFlags.and_not_getLsbD, ring_getLsbD small,
    BitVec.getLsbD_setWidth, decide_eq_true small]
  by_cases ring : index < 2
  · simp [ring]
  · simp [ring, BitVec.getLsbD_of_ge level index (Nat.le_of_not_lt ring)]

/-- Pushed with the guest's own ring, the code segment comes back. -/
theorem pushedCS_pushedDown (pushed : vm.context.cs = sel.pushedDown) (level : BitVec 2) :
    (⟨(vm.pushedCS level).setWidth 16⟩ : Selector).pushedDown = vm.context.cs := by
  apply BitVec.eq_of_getLsbD_eq
  intro index small
  rw [pushed, pushedDown_getLsbD, pushedDown_getLsbD, BitVec.getLsbD_setWidth,
    pushedCS_getLsbD vm level small, pushed, pushedDown_getLsbD]
  by_cases ring : index < 2
  · simp [ring]
  · by_cases low : index < 16
    · simp [ring, low]
    · simp [low]

private theorem pushedCS_rpl (vm : Vm) (level : BitVec 2) :
    (⟨(vm.pushedCS level).setWidth 16⟩ : Selector).rpl = level := by
  apply BitVec.eq_of_getLsbD_eq
  intro index small
  rw [Selector.rpl, BitVec.getLsbD_extractLsb', BitVec.getLsbD_setWidth, Nat.zero_add,
    pushedCS_getLsbD vm level (by omega)]
  simp [small, (by omega : index < 16)]

/-- A selector that was pushed down is read back as it was. -/
theorem pushedDown_again (sel : Selector) :
    (⟨sel.pushedDown.setWidth 16⟩ : Selector).pushedDown = sel.pushedDown := by
  apply BitVec.eq_of_getLsbD_eq
  intro index small
  rw [pushedDown_getLsbD, pushedDown_getLsbD, BitVec.getLsbD_setWidth, pushedDown_getLsbD]
  by_cases low : index < 16
  · simp [low]
  · simp [low]

end Selectors

/-- What a return leaves in the registers that the frame is about. -/
theorem iretDone_context (vm : Vm) :
    vm.iretDone.context.eip = vm.iretEIP ∧ vm.iretDone.context.cs = vm.iretCS.pushedDown ∧
      vm.iretDone.context.esp = vm.frameClosed.context.esp ∧
      vm.iretDone.context.ss = vm.frameClosed.context.ss := by
  simp only [iretDone, virtualSet, withSegment_context, iretEntered, and_self]

theorem iretDone_mem (vm : Vm) : vm.iretDone.mem = vm.mem := by
  have closed : vm.frameClosed.mem = vm.mem := by
    unfold frameClosed
    split
    · exact withSegment_mem _ _ _
    · rfl
  simp only [iretDone, virtualSet, withSegment_mem, iretEntered, closed]

private theorem frameClosed_outward {vm : Vm} (outward : vm.guestCPL < vm.iretCS.rpl) :
    vm.frameClosed.context.esp = vm.iretESP ∧
      vm.frameClosed.context.ss = vm.iretSS.pushedDown := by
  rw [frameClosed, if_pos outward]
  simp only [withSegment_context, turnedBack, and_self]

private theorem frameClosed_level {vm : Vm} (stays : ¬ vm.guestCPL < vm.iretCS.rpl) :
    vm.frameClosed.context.esp = vm.context.esp + 12 ∧
      vm.frameClosed.context.ss = vm.context.ss := by
  rw [frameClosed, if_neg stays]
  exact ⟨rfl, rfl⟩

/-- A flag that IRET takes from the stack. -/
theorem iretDone_taken (vm : Vm) {index : Nat} (taken : iretChangeMask.getLsbD index = true) :
    vm.iretDone.context.eflags.getLsbD index = vm.iretEFlags.getLsbD index := by
  rw [iretDone_eflags, BitVec.getLsbD_or, EFlags.and_not_getLsbD, BitVec.getLsbD_and, taken,
    Bool.not_true, Bool.and_false, Bool.false_or, Bool.and_true]

/-- In the kernel IF is pushed as VIF has it. -/
theorem oldEFlags_if {vm : Vm} (linux : vm.setup.linuxVMMode = true) (kernel : vm.guestCPL = 0) :
    EFlags.if_ vm.oldEFlags = EFlags.vif vm.context.eflags := by
  have masked : vm.context.eflags &&& EFlags.maskVIF = 0 ↔ EFlags.vif vm.context.eflags = false :=
    and_lineBit_eq_zero (by decide) _
  have low : 9 < 32 := by decide
  rw [oldEFlags, pushedEFlags, if_pos ⟨linux, kernel⟩]
  cases flag : EFlags.vif vm.context.eflags with
  | false =>
      rw [if_neg fun on => on (masked.mpr flag)]
      exact assign_same low _ false
  | true =>
      rw [if_pos fun off => Bool.noConfusion (flag.symm.trans (masked.mp off))]
      exact assign_same low _ true

/-- The entry of the directory for a number. -/
def Vm.directoryEntry (vm : Vm) (pdi : BitVec 10) : Bit32u :=
  vm.physWord 32 (atPage (vm.guestCpu.cr3 >>> 12) (entryOffset pdi))

/-- The page tables are the directory and the tables that its entries name. -/
theorem Vm.TablePage.found {vm : Vm} {ppi : Bit32u} (page : vm.TablePage ppi) :
    ppi = vm.guestCpu.cr3 >>> 12 ∨
      ∃ pdi, (vm.directoryEntry pdi).getLsbD 0 = true ∧ ppi = vm.directoryEntry pdi >>> 12 := by
  obtain ⟨-, lAddr, directory | ⟨present, table⟩⟩ := page
  · rw [pdeAddrOf_eq, atPage_page _ (page_small _)] at directory
    exact .inl directory
  · rw [pdeAddrOf_eq] at present table
    rw [pteAddrOf_eq, atPage_page _ (page_small _)] at table
    exact .inr ⟨pdiOf lAddr, present, table⟩

/-- The pages of the guest's directory and its tables, one by one. -/
def Vm.tablePages (vm : Vm) : List Bit32u :=
  (vm.guestCpu.cr3 >>> 12) :: (List.range 1024).filterMap fun pdi =>
    let entry := vm.directoryEntry (BitVec.ofNat 10 pdi)
    if entry.getLsbD 0 then some (entry >>> 12) else none

theorem Vm.OutsideTables.of_pages {vm : Vm} {words : List (Bit32u × Bit32u)}
    (outside : words.all fun word => !vm.tablePages.contains (vm.translated word.1 >>> 12)) :
    vm.OutsideTables words := by
  intro word member page
  have apart := List.all_eq_true.mp outside word member
  rw [Bool.not_eq_true', List.contains_eq_mem, decide_eq_false_iff_not] at apart
  apply apart
  rcases page.found with directory | ⟨pdi, present, table⟩
  · rw [directory]
    exact List.mem_cons_self
  · apply List.mem_cons_of_mem
    refine List.mem_filterMap.mpr ⟨pdi.toNat, List.mem_range.mpr pdi.isLt, ?_⟩
    rw [BitVec.ofNat_toNat, BitVec.setWidth_eq]
    rw [if_pos present, table]

section Return

variable {vm returning : Vm} {vector intFlags errorCode : Bit32u}

/-- The return finds the frame of the interrupt. -/
structure FoundFrame (vm returning : Vm) (vector : Bit32u) : Prop where
  level : returning.guestCPL = 0
  esp : returning.context.esp = vm.frameESP vector
  eip : returning.iretEIP = vm.context.eip
  cs : returning.iretCS = ⟨(vm.pushedCS vm.guestCPL).setWidth 16⟩
  eflags : returning.iretEFlags = vm.oldEFlags
  outerESP : vm.Inward vector → returning.iretESP = vm.context.esp
  outerSS : vm.Inward vector → returning.iretSS = ⟨vm.context.ss.setWidth 16⟩

theorem HandlerDone.found (able : vm.InterruptOK vector intFlags errorCode)
    (outside : vm.OutsideTables (vm.wholeFrame vector intFlags errorCode))
    (done : HandlerDone vm (vm.interrupted vector intFlags errorCode) returning vector intFlags) :
    FoundFrame vm returning vector := by
  have pushed := interrupted_pushed able outside
  have spared := done.spared
  have esp : returning.context.esp = vm.frameESP vector := by
    rw [done.esp, interrupted_esp]
    exact BitVec.sub_add_cancel _ _
  have pops {lAddr val : Bit32u}
      (member : (lAddr, val) ∈ vm.returnFrame vector ++ vm.stackFrame vector) :
      returning.wordAt 32 lAddr 4 = val :=
    pushed.read spared (List.mem_append_right _ member) member
  have popsWord {lAddr val : Bit32u}
      (member : (lAddr, val) ∈ vm.returnFrame vector ++ vm.stackFrame vector) :
      returning.wordAt 16 lAddr 2 = val.setWidth 16 :=
    pushed.readWord spared (List.mem_append_right _ member) member
  have outer (inward : vm.Inward vector) :
      vm.stackFrame vector = [(vm.frameESP vector + 12, vm.context.esp),
        (vm.frameESP vector + 16, vm.context.ss)] := if_pos inward
  refine ⟨?_, esp, ?_, ?_, ?_, fun inward => ?_, fun inward => ?_⟩
  · rw [done.level]
    exact (withSegment_guestCPL _ _ _).trans able.guestCPL
  · rw [iretEIP, esp]
    exact pops (List.mem_append_left _ List.mem_cons_self)
  · rw [iretCS, esp]
    exact congrArg _ (popsWord (List.mem_append_left _ (List.mem_cons_of_mem _ List.mem_cons_self)))
  · rw [iretEFlags, esp]
    exact pops (List.mem_append_left _
      (List.mem_cons_of_mem _ (List.mem_cons_of_mem _ List.mem_cons_self)))
  · rw [iretESP, esp]
    apply pops
    rw [outer inward]
    exact List.mem_append_right _ List.mem_cons_self
  · rw [iretSS, esp]
    apply congrArg Selector.mk
    apply popsWord
    rw [outer inward]
    exact List.mem_append_right _ (List.mem_cons_of_mem _ List.mem_cons_self)

namespace FoundFrame

variable (found : FoundFrame vm returning vector)

include found

theorem ring : returning.iretCS.rpl = vm.guestCPL := by
  rw [found.cs]
  exact pushedCS_rpl vm vm.guestCPL

/-- The return leaves the inner stack where the interrupt went to it. -/
theorem outward (handler : vm.HandlerOK (vm.handlerOf vector)) :
    returning.guestCPL < returning.iretCS.rpl ↔ vm.Inward vector := by
  rw [found.ring, found.level, Inward, handler.level]

theorem stack (handler : vm.HandlerOK (vm.handlerOf vector))
    (outer : ∃ sel : Selector, vm.context.ss = sel.pushedDown)
    (same : ¬ vm.Inward vector → returning.context.ss = vm.context.ss) :
    returning.iretDone.context.esp = vm.context.esp ∧
      returning.iretDone.context.ss = vm.context.ss := by
  obtain ⟨-, -, esp, ss⟩ := iretDone_context returning
  rw [esp, ss]
  by_cases inward : vm.Inward vector
  · obtain ⟨sel, down⟩ := outer
    obtain ⟨esp', ss'⟩ := frameClosed_outward ((found.outward handler).mpr inward)
    rw [esp', ss', found.outerESP inward, found.outerSS inward, down]
    exact ⟨rfl, pushedDown_again sel⟩
  · obtain ⟨esp', ss'⟩ := frameClosed_level fun out => inward ((found.outward handler).mp out)
    rw [esp', ss', found.esp, frameESP, if_neg inward, same inward]
    exact ⟨BitVec.sub_add_cancel _ _, rfl⟩

/-- Every flag comes back: from the frame, or as the return sets it, or because
the handler could not change it. -/
theorem eflags_restored (interruptible : vm.Interruptible)
    (kept : ∀ index, index ≠ 9 → handlerFlags.getLsbD index = false →
      returning.context.eflags.getLsbD index = vm.context.eflags.getLsbD index) :
    returning.iretDone.context.eflags = vm.context.eflags := by
  apply BitVec.eq_of_getLsbD_eq
  intro index small
  by_cases taken : iretChangeMask.getLsbD index = true
  · have notIF : index ≠ 9 := by
      rintro rfl
      exact absurd taken (by decide)
    rw [iretDone_taken returning taken, found.eflags, oldEFlags, pushedEFlags_other _ _ _ notIF]
  have passed : iretChangeMask.getLsbD index = false := (Bool.not_eq_true _).mp taken
  by_cases isIF : index = 9
  · subst isIF
    exact (iretDone_if returning).trans interruptible.flags.if_.symm
  by_cases isVIF : index = 19
  · subst isVIF
    refine (iretDone_vif returning).trans ?_
    rw [found.ring, found.eflags]
    rcases interruptible.flags.level with kernel | user
    · have level : vm.guestCPL = 0 := kernel
      rw [level, oldEFlags_if interruptible.linux level]
      rfl
    · have level : vm.guestCPL = 3 := user
      rw [level]
      exact (interruptible.flags.vif user).symm
  by_cases isVIP : index = 20
  · subst isVIP
    refine Eq.trans ?_ interruptible.vip.symm
    calc returning.iretDone.context.eflags.getLsbD 20
      _ = _ := iretDone_kept returning passed
      _ = _ := assign_other (by decide) _ true isIF
      _ = false := assign_same (by decide) _ false
  rw [iretDone_other returning isIF isVIF isVIP passed]
  apply kept index isIF
  have vif : EFlags.maskVIF.getLsbD index = false := by
    rw [EFlags.maskVIF, lineBit_getLsbD (by decide), decide_eq_false isVIF]
  have vip : EFlags.maskVIP.getLsbD index = false := by
    rw [EFlags.maskVIP, lineBit_getLsbD (by decide), decide_eq_false isVIP]
  rw [handlerFlags, BitVec.getLsbD_or, BitVec.getLsbD_or, passed, vif, vip]
  rfl

end FoundFrame

/-- The flags that the handler cannot change are those of what was interrupted. -/
theorem interrupted_kept (flags : vm.running.Coherent) {index : Nat} (notIF : index ≠ 9)
    (kept : handlerFlags.getLsbD index = false) :
    (vm.interrupted vector intFlags errorCode).context.eflags.getLsbD index =
      vm.context.eflags.getLsbD index := by
  have notVIF : index ≠ 19 := by
    rintro rfl
    exact absurd kept (by decide)
  have cleared : (vm.interrupted vector intFlags errorCode).context.eflags.getLsbD index =
      (vm.context.eflags.getLsbD index &&
        !(EFlags.maskVM ||| EFlags.maskRF ||| EFlags.maskNT ||| EFlags.maskTF).getLsbD index) := by
    rw [interrupted, resumed_other _ _ notIF notVIF, flagsOfHandler, handlerEFlags_getLsbD _ _ notIF,
      pushedEFlags_other _ _ _ notIF]
  rw [cleared]
  by_cases isVM : index = 17
  · subst isVM
    have off : vm.context.eflags.getLsbD 17 = false := flags.vm86
    rw [off, Bool.false_and]
  · have others : (EFlags.maskVM ||| EFlags.maskRF ||| EFlags.maskNT ||| EFlags.maskTF).getLsbD index =
        false := by
      have masks : ∀ index < 32, index ≠ 17 → handlerFlags.getLsbD index = false →
          (EFlags.maskVM ||| EFlags.maskRF ||| EFlags.maskNT ||| EFlags.maskTF).getLsbD index =
            false := by decide
      by_cases small : index < 32
      · exact masks index small isVM kept
      · exact BitVec.getLsbD_of_ge _ _ (Nat.le_of_not_lt small)
    rw [others, Bool.not_false, Bool.and_true]

private theorem iretDone_restored (interruptible : vm.Interruptible)
    (able : vm.InterruptOK vector intFlags errorCode)
    (outside : vm.OutsideTables (vm.wholeFrame vector intFlags errorCode))
    (done : HandlerDone vm (vm.interrupted vector intFlags errorCode) returning vector intFlags)
    (can : returning.IretOK) : Restored vm returning.iretDone := by
  have found := done.found able outside
  obtain ⟨eip, cs, -, -⟩ := iretDone_context returning
  obtain ⟨sel, down⟩ := interruptible.cs
  have stack := found.stack able.handler interruptible.ss fun stays =>
    done.ss.trans (interrupted_level stays)
  have level : returning.iretDone.guestCPL = vm.guestCPL := by
    rw [iretDone_guestCPL, frameClosed_guestCPL, found.level, found.ring]
    rcases interruptible.flags.level with kernel | user
    · have level : vm.guestCPL = 0 := kernel
      rw [level]
      rfl
    · have level : vm.guestCPL = 3 := user
      rw [level]
      rfl
  have pvi : returning.iretDone.monCr4.getLsbD 1 = vm.monCr4.getLsbD 1 := by
    have before : vm.monCr4.getLsbD 1 = decide (vm.guestCPL = 0) := interruptible.flags.pvi
    rw [before, ← level]
    rcases can.pvi with ⟨kernel, on⟩ | ⟨user, off, -⟩
    · rw [kernel, on]
      rfl
    · rw [user, off]
      rfl
  refine ⟨?_, ?_, stack.1, stack.2, ?_, level, pvi⟩
  · rw [eip, found.eip]
  · rw [cs, found.cs]
    exact pushedCS_pushedDown down vm.guestCPL
  · exact found.eflags_restored interruptible fun index notIF kept =>
      (done.flags index kept).trans (interrupted_kept interruptible.flags notIF kept)

end Return

/-- An interrupt and the return from it come to nothing. Memory has changed in the
frame alone. -/
theorem interrupt_iret {vm entered returning next : Vm} {vector intFlags errorCode : Bit32u}
    (interruptible : vm.Interruptible)
    (entering : doGuestInterrupt vector intFlags errorCode vm = .ok () entered)
    (outside : vm.OutsideTables (vm.wholeFrame vector intFlags errorCode))
    (done : HandlerDone vm entered returning vector intFlags)
    (leaving : doIRET returning = .ok () next) :
    Restored vm next ∧ next.mem = returning.mem ∧
      ∀ ppi place, (∀ word ∈ vm.wholeFrame vector intFlags errorCode, ¬ vm.InDword word.1 ppi place) →
        entered.mem ppi place = vm.mem ppi place := by
  obtain ⟨able, -, seen⟩ := (doGuestInterrupt_does vector intFlags errorCode vm.core).ok entering
  obtain ⟨can, -, left⟩ := (doIRET_does returning.core).ok leaving
  have plain : vm.core.Interruptible := ⟨interruptible.linux, ⟨interruptible.flags.level,
    interruptible.flags.if_, interruptible.flags.iopl, interruptible.flags.vm86,
    interruptible.flags.pvi, interruptible.flags.vif⟩, interruptible.vip, interruptible.cs,
    interruptible.ss⟩
  have apart : vm.core.OutsideTables (vm.core.wholeFrame vector intFlags errorCode) := outside
  have handled : HandlerDone vm.core entered.core returning.core vector intFlags :=
    ⟨⟨⟨done.spared.paging.setup, done.spared.paging.pg, done.spared.paging.cr3,
      done.spared.paging.cr4, done.spared.paging.tables⟩, done.spared.bytes⟩, done.level, done.esp,
      done.ss, done.flags⟩
  rw [seen] at handled
  have restored := iretDone_restored plain able apart handled can
  have pushed := interrupted_pushed able apart
  rw [← seen] at pushed
  rw [← left] at restored
  refine ⟨⟨restored.eip, restored.cs, restored.esp, restored.ss, restored.eflags, restored.guestCPL,
    restored.pvi⟩, ?_, fun ppi place outer => pushed.others ppi place outer⟩
  have kept : next.core.mem = returning.core.mem := by
    rw [left]
    exact iretDone_mem returning.core
  exact kept

/-- User code is interrupted with an error code, and the handler returns at once. -/
theorem interrupt_iret_sample : ∃ vm entered returning next : Vm,
    vm.guestCPL = 3 ∧ doGuestInterrupt 14 intFlagPushError 4 vm = .ok () entered ∧
      entered.guestCPL = 0 ∧ doIRET returning = .ok () next ∧ Restored vm next := by
  let popped (vm : Vm) : Vm :=
    { vm with context := { vm.context with esp := vm.context.esp + 4 } }
  let check (played : List (Moment Vm Trap) × Vm) : Bool :=
    (leaves (doGuestInterrupt 14 intFlagPushError 4) played.2).any fun (entered : Vm) =>
      played.2.setup.linuxVMMode && decide (played.2.guestCPL = 3) &&
        !EFlags.vip played.2.context.eflags &&
        decide (played.2.context.cs = (⟨0x23⟩ : Selector).pushedDown) &&
        decide (played.2.context.ss = (⟨0x2b⟩ : Selector).pushedDown) &&
        decide (entered.guestCPL = 0) &&
        ((played.2.wholeFrame 14 intFlagPushError 4).all fun word =>
          !played.2.tablePages.contains (played.2.translated word.1 >>> 12)) &&
        (leaves doIRET (popped entered)).isSome
  have checked : (play (Sample.boot true) []).any check = true := by decide +kernel
  obtain ⟨past, vm, run, found⟩ := play_reaches (Sample.boot_registered true) checked
  obtain ⟨entered, enters, found⟩ := Option.any_eq_true .. |>.mp found
  have entering := leaves_eq_some.mp enters
  simp only [Bool.and_eq_true, decide_eq_true_eq, Bool.not_eq_true'] at found
  obtain ⟨⟨⟨⟨⟨⟨⟨linux, user⟩, vip⟩, cs⟩, ss⟩, kernel⟩, outside⟩, returns⟩ := found
  obtain ⟨next, left⟩ := Option.isSome_iff_exists.mp returns
  have leaving := leaves_eq_some.mp left
  have interruptible : vm.Interruptible :=
    ⟨linux, (GuestRun.flags run rfl).running, vip, ⟨_, cs⟩, ⟨_, ss⟩⟩
  have handled : HandlerDone vm entered (popped entered) 14 intFlagPushError :=
    ⟨⟨⟨rfl, rfl, rfl, rfl, fun _ _ => rfl⟩, fun _ _ _ _ _ => rfl⟩, rfl, rfl, rfl, fun _ _ => rfl⟩
  exact ⟨vm, entered, popped entered, next, user, entering, kernel, leaving,
    (interrupt_iret interruptible entering (.of_pages outside) handled leaving).1⟩

end Plex86
