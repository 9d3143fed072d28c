import Plex86.Emulate.StackFrame

namespace Plex86

open Logic

namespace Vm

/-- Dwords some way from each other on a stack do not meet, wherever a page ends. -/
theorem apart_of_gap {lAddr other : Bit32u} (far : 4#32 ≤ other - lAddr)
    (near : other - lAddr ≤ 4092#32) : Apart lAddr other := by
  rw [Apart, pageOffset_eq, pageOffset_eq]
  bv_omega

/-- The gate for the vector leads to an inner ring. -/
def Inward (vm : Vm) (vector : Bit32u) : Prop :=
  (vm.descOf (vm.handlerOf vector)).dpl < vm.guestCPL

instance (vm : Vm) (vector : Bit32u) : Decidable (vm.Inward vector) :=
  inferInstanceAs (Decidable (_ < _))

/-- Where the return frame of an interrupt begins. -/
def frameESP (vm : Vm) (vector : Bit32u) : Bit32u :=
  if vm.Inward vector then vm.innerESP (vm.descOf (vm.handlerOf vector)) - 20
  else vm.context.esp - 12

/-- The machine with room for the return frame. -/
def opened (vm : Vm) (vector : Bit32u) : Vm :=
  vm.frameOpened (vm.handlerOf vector) (vm.descOf (vm.handlerOf vector))

/-- The flags that an interrupt pushes. -/
def oldEFlags (vm : Vm) : Bit32u :=
  pushedEFlags vm.setup.linuxVMMode vm.guestCPL vm.context.eflags

/-- The part of the frame that every interrupt pushes. -/
def returnFrame (vm : Vm) (vector : Bit32u) : List (Bit32u × Bit32u) :=
  [(vm.frameESP vector + 0, vm.context.eip),
    (vm.frameESP vector + 4, vm.pushedCS vm.guestCPL),
    (vm.frameESP vector + 8, vm.oldEFlags)]

/-- The outer stack, where it is left for an inner one. -/
def stackFrame (vm : Vm) (vector : Bit32u) : List (Bit32u × Bit32u) :=
  if vm.Inward vector then
    [(vm.frameESP vector + 12, vm.context.esp), (vm.frameESP vector + 16, vm.context.ss)]
  else []

def errorFrame (vm : Vm) (vector intFlags errorCode : Bit32u) : List (Bit32u × Bit32u) :=
  if intFlags &&& intFlagPushError ≠ 0 then [(vm.frameESP vector - 4, errorCode)] else []

/-- The frame that the handler returns by, with the error code below it. -/
def wholeFrame (vm : Vm) (vector intFlags errorCode : Bit32u) : List (Bit32u × Bit32u) :=
  vm.errorFrame vector intFlags errorCode ++ (vm.returnFrame vector ++ vm.stackFrame vector)

/-- No dword of these lies in the guest's page tables. -/
def OutsideTables (vm : Vm) (words : List (Bit32u × Bit32u)) : Prop :=
  ∀ word ∈ words, ¬ vm.TablePage (vm.translated word.1 >>> 12)

section Pushing

variable {vm : Vm} {vector intFlags errorCode : Bit32u}

/-- Dwords of one stack do not meet. -/
theorem apart_of_stack (esp : Bit32u) {first second : Bit32u} (far : 4#32 ≤ second - first)
    (near : second - first ≤ 4092#32) : Apart (esp + first) (esp + second) := by
  have gap : esp + second - (esp + first) = second - first := by bv_omega
  apply apart_of_gap
  · rw [gap]
    exact far
  · rw [gap]
    exact near

private theorem opened_inward (inward : vm.Inward vector) : vm.opened vector =
    vm.stackPushed (vm.handlerOf vector) (vm.descOf (vm.handlerOf vector)) :=
  if_pos inward

private theorem opened_level (stays : ¬ vm.Inward vector) :
    vm.opened vector = { vm with context := { vm.context with esp := vm.context.esp - 12 } } :=
  if_neg stays

private theorem opened_pushed
    (stack : vm.OpenOK (vm.handlerOf vector) (vm.descOf (vm.handlerOf vector)))
    (outside : vm.OutsideTables (vm.stackFrame vector)) :
    vm.Pushed (vm.opened vector) (vm.stackFrame vector) := by
  by_cases inward : vm.Inward vector
  · have able := stack inward
    have place : vm.frameESP vector = vm.innerESP (vm.descOf (vm.handlerOf vector)) - 20 :=
      if_pos inward
    have words : vm.stackFrame vector = [(vm.frameESP vector + 12, vm.context.esp),
        (vm.frameESP vector + 16, vm.context.ss)] := if_pos inward
    rw [words, place] at outside ⊢
    rw [opened_inward inward, stackPushed]
    have begun : vm.Pushed (vm.switched (vm.handlerOf vector) (vm.descOf (vm.handlerOf vector))) [] := by
      apply (Pushed.nil vm).keep
      · simp only [switched, withSegment_setup, turned]
      · simp only [switched, withSegment_guestCpu, turned]
      · simp only [switched, withSegment_mem, turned]
    have high := outside (vm.innerESP (vm.descOf (vm.handlerOf vector)) - 20 + 16, vm.context.ss)
      (List.mem_cons_of_mem _ List.mem_cons_self)
    have low := outside (vm.innerESP (vm.descOf (vm.handlerOf vector)) - 20 + 12, vm.context.esp)
      List.mem_cons_self
    refine (begun.stored able.ss high fun _ member => absurd member List.not_mem_nil).stored able.esp
      low fun word member => ?_
    rw [List.mem_singleton.mp member]
    exact apart_of_stack _ (by decide) (by decide)
  · have words : vm.stackFrame vector = [] := if_neg inward
    rw [words, opened_level inward]
    exact (Pushed.nil vm).keep rfl rfl rfl

private theorem opened_context : (vm.opened vector).context.esp = vm.frameESP vector ∧
    (vm.opened vector).context.eip = vm.context.eip ∧
    (vm.opened vector).context.cs = vm.context.cs := by
  by_cases inward : vm.Inward vector
  · rw [opened_inward inward, frameESP, if_pos inward]
    simp only [stackPushed, stored_context, switched, withSegment_context, turned, and_self]
  · rw [opened_level inward, frameESP, if_neg inward]
    exact ⟨rfl, rfl, rfl⟩

/-- The rest of a frame lies below the outer stack. -/
theorem stackFrame_apart {first : Bit32u} (below : first = 0 ∨ first = 4 ∨ first = 8 ∨ first = -4)
    (word : Bit32u × Bit32u) (member : word ∈ vm.stackFrame vector) :
    Apart (vm.frameESP vector + first) word.1 := by
  unfold stackFrame at member
  split at member
  · rcases List.mem_cons.mp member with rfl | rest
    · rcases below with rfl | rfl | rfl | rfl <;> exact apart_of_stack _ (by decide) (by decide)
    · rw [List.mem_singleton.mp rest]
      rcases below with rfl | rfl | rfl | rfl <;> exact apart_of_stack _ (by decide) (by decide)
  · cases member

private theorem returnFrame_apart {first : Bit32u} (below : first = -4)
    (word : Bit32u × Bit32u) (member : word ∈ vm.returnFrame vector) :
    Apart (vm.frameESP vector + first) word.1 := by
  subst below
  rcases List.mem_cons.mp member with rfl | member
  · exact apart_of_stack _ (by decide) (by decide)
  rcases List.mem_cons.mp member with rfl | member
  · exact apart_of_stack _ (by decide) (by decide)
  rw [List.mem_singleton.mp member]
  exact apart_of_stack _ (by decide) (by decide)

private theorem eipPushed_pushed
    (frame : (vm.opened vector).FrameOK vm.guestCPL vm.oldEFlags intFlags)
    (opened : vm.Pushed (vm.opened vector) (vm.stackFrame vector))
    (outside : vm.OutsideTables (vm.returnFrame vector)) :
    vm.Pushed ((vm.opened vector).eipPushed vm.guestCPL vm.oldEFlags)
      (vm.returnFrame vector ++ vm.stackFrame vector) := by
  obtain ⟨esp, eip, cs⟩ : (vm.opened vector).context.esp = vm.frameESP vector ∧
      (vm.opened vector).context.eip = vm.context.eip ∧
      (vm.opened vector).context.cs = vm.context.cs := vm.opened_context
  have outsideEFlags := outside (vm.frameESP vector + 8, vm.oldEFlags)
    (List.mem_cons_of_mem _ (List.mem_cons_of_mem _ List.mem_cons_self))
  have outsideCS := outside (vm.frameESP vector + 4, vm.pushedCS vm.guestCPL)
    (List.mem_cons_of_mem _ List.mem_cons_self)
  have outsideEIP := outside (vm.frameESP vector + 0, vm.context.eip) List.mem_cons_self
  have flags : vm.Pushed ((vm.opened vector).flagsPushed vm.oldEFlags)
      ((vm.frameESP vector + 8, vm.oldEFlags) :: vm.stackFrame vector) := by
    have able := frame.flags
    rw [flagsPushed]
    rw [esp] at able ⊢
    exact opened.stored able outsideEFlags (stackFrame_apart (by simp))
  have code : vm.Pushed ((vm.opened vector).csPushed vm.guestCPL vm.oldEFlags)
      ((vm.frameESP vector + 4, vm.pushedCS vm.guestCPL) ::
        (vm.frameESP vector + 8, vm.oldEFlags) :: vm.stackFrame vector) := by
    have able := frame.cs
    have same : (vm.opened vector).pushedCS vm.guestCPL = vm.pushedCS vm.guestCPL := by
      rw [pushedCS, pushedCS, cs]
    rw [csPushed, same]
    rw [esp] at able ⊢
    refine flags.stored able outsideCS fun word member => ?_
    rcases List.mem_cons.mp member with rfl | older
    · exact apart_of_stack _ (by decide) (by decide)
    · exact stackFrame_apart (by simp) word older
  have able := frame.eip
  rw [eipPushed, eip]
  rw [esp] at able ⊢
  refine code.stored able outsideEIP fun word member => ?_
  rcases List.mem_cons.mp member with rfl | member
  · exact apart_of_stack _ (by decide) (by decide)
  rcases List.mem_cons.mp member with rfl | older
  · exact apart_of_stack _ (by decide) (by decide)
  · exact stackFrame_apart (by simp) word older

private theorem interruptFramed_pushed (able : vm.InterruptOK vector intFlags errorCode)
    (outside : vm.OutsideTables (vm.wholeFrame vector intFlags errorCode)) :
    vm.Pushed (vm.interruptFramed vector intFlags errorCode)
      (vm.wholeFrame vector intFlags errorCode) := by
  have frame : (vm.opened vector).FrameOK vm.guestCPL vm.oldEFlags intFlags := able.frame
  have stack := opened_pushed able.stack fun word member =>
    outside word (List.mem_append_right _ (List.mem_append_right _ member))
  have rest := eipPushed_pushed frame stack fun word member =>
    outside word (List.mem_append_right _ (List.mem_append_left _ member))
  have framed : vm.interruptFramed vector intFlags errorCode =
      (vm.opened vector).framePushed vm.guestCPL vm.oldEFlags intFlags errorCode := rfl
  rw [framed, framePushed]
  by_cases pushes : intFlags &&& intFlagPushError ≠ 0
  · have words : vm.errorFrame vector intFlags errorCode = [(vm.frameESP vector - 4, errorCode)] :=
      if_pos pushes
    have word : (vm.frameESP vector - 4, errorCode) ∈ vm.wholeFrame vector intFlags errorCode := by
      rw [wholeFrame, words]
      exact List.mem_cons_self
    have below := outside (vm.frameESP vector - 4, errorCode) word
    have room : vm.Pushed ((vm.opened vector).eipPushed vm.guestCPL vm.oldEFlags).errorRoom
        (vm.returnFrame vector ++ vm.stackFrame vector) := rest.keep rfl rfl rfl
    have storable := frame.error pushes
    rw [if_pos pushes, wholeFrame, words]
    rw [vm.opened_context.1] at storable ⊢
    refine room.stored storable below fun other member => ?_
    rw [BitVec.sub_eq_add_neg]
    rcases List.mem_append.mp member with inner | outer
    · exact returnFrame_apart rfl other inner
    · exact stackFrame_apart (by simp) other outer
  · have words : vm.errorFrame vector intFlags errorCode = [] := if_neg pushes
    rw [if_neg pushes, wholeFrame, words]
    exact rest

/-- The interrupt leaves its frame on the stack, and the rest of memory alone. -/
theorem interrupted_pushed (able : vm.InterruptOK vector intFlags errorCode)
    (outside : vm.OutsideTables (vm.wholeFrame vector intFlags errorCode)) :
    vm.Pushed (vm.interrupted vector intFlags errorCode)
      (vm.wholeFrame vector intFlags errorCode) := by
  apply (interruptFramed_pushed able outside).keep
  · rw [interrupted_setup, interruptFramed, framePushed_setup, frameOpened_setup]
  · rw [interrupted_guestCpu, interruptFramed, framePushed_guestCpu, frameOpened_guestCpu]
  · exact interrupted_mem vm vector intFlags errorCode

/-- The handler is entered at the end of the frame. -/
theorem interrupted_esp : (vm.interrupted vector intFlags errorCode).context.esp =
    vm.frameESP vector - if intFlags &&& intFlagPushError ≠ 0 then 4 else 0 := by
  have framed : (vm.interruptFramed vector intFlags errorCode).context.esp =
      vm.frameESP vector - if intFlags &&& intFlagPushError ≠ 0 then 4 else 0 := by
    change ((vm.opened vector).framePushed vm.guestCPL vm.oldEFlags intFlags errorCode).context.esp = _
    rw [← vm.opened_context.1, framePushed]
    split
    · rfl
    · exact (BitVec.sub_zero _).symm
  simp only [interrupted, resumed, withSegment_context, handlerEntered, framed]

theorem interrupted_level (stays : ¬ vm.Inward vector) :
    (vm.interrupted vector intFlags errorCode).context.ss = vm.context.ss := by
  have framed : (vm.interruptFramed vector intFlags errorCode).context.ss = vm.context.ss := by
    change ((vm.opened vector).framePushed vm.guestCPL vm.oldEFlags intFlags errorCode).context.ss = _
    rw [opened_level stays, framePushed]
    split <;> rfl
  simp only [interrupted, resumed, withSegment_context, handlerEntered, framed]

private theorem interrupted_inward (inward : vm.Inward vector) :
    (vm.interrupted vector intFlags errorCode).context.ss =
      (vm.innerSS (vm.descOf (vm.handlerOf vector))).pushedDown := by
  have framed : (vm.interruptFramed vector intFlags errorCode).context.ss =
      (vm.innerSS (vm.descOf (vm.handlerOf vector))).pushedDown := by
    change ((vm.opened vector).framePushed vm.guestCPL vm.oldEFlags intFlags errorCode).context.ss = _
    rw [opened_inward inward, framePushed]
    split <;> simp only [stored_context, errorRoom, eipPushed, csPushed, flagsPushed, stackPushed,
      switched, withSegment_context, turned]
  simp only [interrupted, resumed, withSegment_context, handlerEntered, framed]

/-- The guest is in its kernel, at its handler for the vector, with what was
interrupted in a frame on the handler's stack. -/
structure AtHandler (vm next : Vm) (vector intFlags errorCode : Bit32u) : Prop where
  level : next.guestCPL = 0
  cs : next.context.cs = (vm.handlerOf vector).pushedDown
  eip : next.context.eip = (vm.gateAt vector).offset
  ss : next.context.ss =
    if vm.Inward vector then (vm.innerSS (vm.descOf (vm.handlerOf vector))).pushedDown
    else vm.context.ss
  esp : next.context.esp =
    vm.frameESP vector - if intFlags &&& intFlagPushError ≠ 0 then 4 else 0
  frame : vm.Pushed next (vm.wholeFrame vector intFlags errorCode)

theorem InterruptOK.atHandler (able : vm.InterruptOK vector intFlags errorCode)
    (outside : vm.OutsideTables (vm.wholeFrame vector intFlags errorCode)) :
    vm.AtHandler (vm.interrupted vector intFlags errorCode) vector intFlags errorCode := by
  have place : (vm.interrupted vector intFlags errorCode).context.cs =
      (vm.handlerOf vector).pushedDown ∧
        (vm.interrupted vector intFlags errorCode).context.eip = (vm.gateAt vector).offset := by
    simp only [interrupted, resumed, withSegment_context, handlerEntered, and_self]
  refine ⟨?_, place.1, place.2, ?_, interrupted_esp, interrupted_pushed able outside⟩
  · exact (withSegment_guestCPL _ _ _).trans able.guestCPL
  · by_cases inward : vm.Inward vector
    · rw [if_pos inward, interrupted_inward inward]
    · rw [if_neg inward, interrupted_level inward]

/-- The guest's tables let an interrupt through, to a stack outside of its page tables. -/
structure Interrupts (vm : Vm) (vector intFlags errorCode : Bit32u) : Prop where
  able : vm.core.InterruptOK vector intFlags errorCode
  outside : vm.core.OutsideTables (vm.core.wholeFrame vector intFlags errorCode)

end Pushing

/-- The guest has left these dwords and its page tables alone. -/
structure Untouched (entered returning : Vm) (words : List (Bit32u × Bit32u)) : Prop where
  paging : entered.SamePaging returning
  bytes : ∀ word ∈ words, ∀ ppi place, entered.InDword word.1 ppi place →
    returning.mem ppi place = entered.mem ppi place

section Reading

variable {vm entered returning : Vm} {words spared : List (Bit32u × Bit32u)} {lAddr val : Bit32u}

theorem Pushed.dwordAt (pushed : vm.Pushed entered words) (untouched : entered.Untouched returning spared)
    (member : (lAddr, val) ∈ words) (kept : (lAddr, val) ∈ spared) :
    returning.dwordAt lAddr = val := by
  refine Eq.trans ?_ (pushed.holds _ member)
  rw [Vm.dwordAt, Vm.dwordAt, untouched.paging.translated]
  exact loadWord_congr fun place low high => untouched.bytes _ kept _ place ⟨rfl, low, high⟩

/-- A dword of the frame is read back. -/
theorem Pushed.read (pushed : vm.Pushed entered words) (untouched : entered.Untouched returning spared)
    (member : (lAddr, val) ∈ words) (kept : (lAddr, val) ∈ spared) :
    returning.wordAt 32 lAddr 4 = val := by
  rw [wordAt, if_pos (pushed.within _ member)]
  exact pushed.dwordAt untouched member kept

/-- And so is the lower half of one. -/
theorem Pushed.readWord (pushed : vm.Pushed entered words)
    (untouched : entered.Untouched returning spared) (member : (lAddr, val) ∈ words)
    (kept : (lAddr, val) ∈ spared) : returning.wordAt 16 lAddr 2 = val.setWidth 16 := by
  have within : InPage lAddr 2 := by
    have whole := pushed.within _ member
    exact BitVec.le_trans whole (by decide)
  rw [wordAt, if_pos within, @loadWord_narrow 32 16 (by decide) (by decide)]
  exact congrArg _ (pushed.dwordAt untouched member kept)

end Reading
end Vm
end Plex86
