import Plex86.Emulate.Ticks
import Plex86.Monitor.Instruction

namespace Plex86

open Logic

/-- The state behind the ports. -/
structure Devices where
  picMaster : Pic
  picSlave : Pic
  pit : Pit
  intr : Bit32u
  cmos : Cmos
  vga : Vga
  port0x80 : Bit32u

def Machine.devices (machine : Machine) : Devices where
  picMaster := machine.vm.picMaster
  picSlave := machine.vm.picSlave
  pit := machine.vm.pit
  intr := machine.vm.intr
  cmos := machine.cmos
  vga := machine.vga
  port0x80 := machine.port0x80

/-- The devices that both virtual machines have alike. -/
structure Vm.SameIo (first second : Vm) : Prop where
  picMaster : first.picMaster = second.picMaster
  picSlave : first.picSlave = second.picSlave
  pit : first.pit = second.pit
  intr : first.intr = second.intr

private theorem devices_onVm {machine : Machine} {first second : Vm} :
    Machine.devices { machine with vm := first } = Machine.devices { machine with vm := second } ↔
      first.SameIo second := by
  simp only [Machine.devices, Devices.mk.injEq, and_true]
  constructor
  · rintro ⟨picMaster, picSlave, pit, intr⟩
    exact ⟨picMaster, picSlave, pit, intr⟩
  · rintro ⟨picMaster, picSlave, pit, intr⟩
    exact ⟨picMaster, picSlave, pit, intr⟩

namespace PitTimer

/-- The control word for 16-bit access changes nothing of a timer whose count was
just completed. -/
structure StandsAs (timer : PitTimer) (mode bcd : Bit32u) : Prop where
  moded : timer.mode = mode
  coded : timer.bcd = bcd
  output : if mode = 0 then timer.gate ≠ 0 ∨ timer.out = 0
    else (timer.gate ≠ 0 ∧ timer.active = 0) ∨ timer.out = 1

/-- What a write to its count register makes of a timer, where that is supported. -/
def count (timer : PitTimer) (val : Bit32u) : Option PitTimer :=
  let (latched, xferComplete) := timer.latchInput val
  if timer.latchMode ≠ pitLatchMode16Bit then none
  else if xferComplete = false then some latched
  else if latched.transferred.mode = 0 then some latched.transferred.startTimeout
  else if latched.transferred.mode = 2 ∧ latched.transferred.counterMax ≠ 1 then
    some latched.transferred.startRate
  else none

end PitTimer

/-- The control word `word` changes nothing after a write that completes the count of timer 2. -/
def Pit.ControlledAs (pit : Pit) (word : Bit32u) : Prop :=
  let mode := (word >>> 1) &&& 7
  let bcd := word &&& 1
  (word >>> 4) &&& 3 = 3 ∧ ∀ pitID : Fin 3, pitID.val = ((word >>> 6) &&& 3).toNat →
    if pitID = 2 then (pit.timer 2).StandsAs mode bcd
    else (pit.timer pitID).control mode bcd = pit.timer pitID

/-- The ports that take `val` as the word it is. -/
inductive Machine.TakesWord (machine : Machine) (val : Bit32u) : Bit32u → Prop
  | master (high : val >>> 8 = 0) (mask : val &&& 0x10#32 ≠ 0 ∨ machine.vm.picMaster.imr = 0) :
      TakesWord machine val 0x20
  | slave (high : val >>> 8 = 0) : TakesWord machine val 0xa0
  | timer (second : (machine.vm.pit.timer 2).inputLatchToggle ≠ 0)
      (latch : (machine.vm.pit.timer 2).inputLatchValue ||| (val <<< 8) =
        (machine.vm.pit.timer 2).inputLatchValue ||| ((val &&& 0xff) <<< 8))
      (control : machine.vm.pit.ControlledAs (val >>> 8)) : TakesWord machine val 0x42
  | palette : TakesWord machine val 0x3c8
  | crtc (register : machine.vga.reg (val &&& 0x7f) = val >>> 8) : TakesWord machine val 0x3d4

section Ports

/-- The ports that `outp` knows. -/
def outPorts : List Bit32u :=
  [0x20, 0x21, 0xa0, 0xa1, 0x40, 0x41, 0x42, 0x43, 0x61, 0x70, 0x80, 0x3c0, 0x3c8, 0x3c9, 0x3d4,
    0x3d5, 0x3f2]

private theorem outp_known {iolen port val : Bit32u} {machine next : Machine}
    (run : outp iolen port val machine = .ok () next) : port ∈ outPorts := by
  by_contra unknown
  simp only [outPorts, List.mem_cons, List.not_mem_nil, or_false, not_or] at unknown
  simp only [outp, unknown, or_self, if_false] at run
  cases run

/-- The ports that have another one after them. -/
def pairPorts : List Bit32u := [0x20, 0xa0, 0x40, 0x41, 0x42, 0x3c8, 0x3d4]

private theorem outPorts_pairs {port : Bit32u} (known : port ∈ outPorts)
    (next : port + 1 ∈ outPorts) :
    port ∈ pairPorts := by
  have checked : (outPorts.all fun port =>
      !outPorts.contains (port + 1) || pairPorts.contains port) = true := by decide
  have pair := List.all_eq_true.mp checked port known
  have held : outPorts.contains (port + 1) = true := List.contains_iff_mem.mpr next
  rw [held] at pair
  exact List.contains_iff_mem.mp pair

private theorem onVm_ok {Value : Type} {program : Mon Value} {machine next : Machine}
    {value : Value} :
    onVm program machine = .ok value next ↔
      ∃ vm, program machine.vm = .ok value vm ∧ next = { machine with vm } := by
  rw [onVm]
  cases program machine.vm with
  | ok found vm =>
      constructor
      · rintro ⟨⟩
        exact ⟨vm, rfl, rfl⟩
      · rintro ⟨_, ⟨⟩, rfl⟩
        rfl
  | error stop last =>
      constructor
      · rintro ⟨⟩
      · rintro ⟨_, ⟨⟩, _⟩

end Ports

section Timers

private theorem Vm.withTimer_withTimer (vm : Vm) (pitID : Fin 3) (first second : PitTimer) :
    (vm.withTimer pitID first).withTimer pitID second = vm.withTimer pitID second := by
  simp only [withTimer, Pit.setTimer, Function.update_idem]

private theorem Vm.withTimer_self (vm : Vm) (pitID : Fin 3) :
    vm.withTimer pitID (vm.pit.timer pitID) = vm := by
  simp only [withTimer, Pit.setTimer, Function.update_eq_self]

private theorem setTimer_apply (pitID : Fin 3) (timer : PitTimer) (vm : Vm) :
    setTimer pitID timer vm = .ok () (vm.withTimer pitID timer) := rfl

private theorem pitOutpCount_ok {pitID : Fin 3} {val : Bit32u} {vm next : Vm} :
    pitOutpCount pitID val vm = .ok () next ↔
      ∃ timer, (vm.pit.timer pitID).count val = some timer ∧ next = vm.withTimer pitID timer := by
  rw [pitOutpCount, get_bind_apply, panicWhen_bind_apply, PitTimer.count]
  split
  · simp
  generalize (vm.pit.timer pitID).latchInput val = latch
  obtain ⟨latched, xferComplete⟩ := latch
  cases xferComplete
  case false =>
    constructor
    · rintro ⟨⟩
      exact ⟨latched, rfl, rfl⟩
    · rintro ⟨_, ⟨⟩, rfl⟩
      rfl
  case true =>
    let timer := latched.transferred
    have started (last : PitTimer) : setTimer pitID last
        ((vm.withTimer pitID latched).withTimer pitID timer) = .ok () (vm.withTimer pitID last) := by
      rw [setTimer_apply, Vm.withTimer_withTimer, Vm.withTimer_withTimer]
    change (if timer.mode = 0 then setTimer pitID timer.startTimeout
      else if timer.mode = 2 then do
        panicWhen (timer.counterMax = 1) "pitOutp: bailing.\n"
        setTimer pitID timer.startRate
      else monpanic "pitOutp: bailing.\n") ((vm.withTimer pitID latched).withTimer pitID timer) = _ ↔
      ∃ last, (if timer.mode = 0 then some timer.startTimeout
        else if timer.mode = 2 ∧ timer.counterMax ≠ 1 then some timer.startRate
        else none) = some last ∧ next = vm.withTimer pitID last
    by_cases timeout : timer.mode = 0
    · rw [if_pos timeout, if_pos timeout, started]
      constructor
      · rintro ⟨⟩
        exact ⟨_, rfl, rfl⟩
      · rintro ⟨_, ⟨⟩, rfl⟩
        rfl
    rw [if_neg timeout, if_neg timeout]
    by_cases rate : timer.mode = 2
    · rw [if_pos rate, panicWhen_bind_apply]
      by_cases short : timer.counterMax = 1
      · simp [short]
      · rw [if_neg short, if_pos ⟨rate, short⟩, started]
        constructor
        · rintro ⟨⟩
          exact ⟨_, rfl, rfl⟩
        · rintro ⟨_, ⟨⟩, rfl⟩
          rfl
    · rw [if_neg rate, if_neg fun both => rate both.1]
      constructor
      · rintro ⟨⟩
      · rintro ⟨_, ⟨⟩, _⟩

/-- Half of a count, or the whole of it: the toggle tells them apart. -/
theorem PitTimer.count_toggle {timer counted : PitTimer} {val : Bit32u}
    (count : timer.count val = some counted) :
    counted.inputLatchToggle ≠ timer.inputLatchToggle := by
  by_cases first : timer.inputLatchToggle = 0
  · simp only [PitTimer.count, latchInput, first, reduceIte] at count
    split at count
    · cases count
    · cases count
      rw [first]
      exact (by decide : (1 : Bit32u) ≠ 0)
  · have done : counted.inputLatchToggle = 0 := by
      simp only [PitTimer.count, latchInput, first, reduceIte, Bool.true_eq_false] at count
      split at count
      · cases count
      split at count
      · cases count
        rfl
      split at count
      · cases count
        unfold startRate
        split
        · rfl
        · rfl
      · cases count
    rw [done]
    exact Ne.symm first

/-- The second half of a count is what it makes of the latch. -/
theorem PitTimer.count_congr {timer : PitTimer} {val other : Bit32u}
    (second : timer.inputLatchToggle ≠ 0)
    (same : timer.inputLatchValue ||| (val <<< 8) = timer.inputLatchValue ||| (other <<< 8)) :
    timer.count val = timer.count other := by
  simp only [count, latchInput, second, if_false, same]

/-- What the second half of a count leaves. -/
structure PitTimer.Completed (timer counted : PitTimer) (val : Bit32u) : Prop where
  mode : counted.mode = timer.mode
  bcd : counted.bcd = timer.bcd
  latchMode : counted.latchMode = pitLatchMode16Bit
  latch : counted.inputLatchValue = 0
  toggle : counted.inputLatchToggle = 0
  full : counted.outputLatchFull = 0
  counterMax : counted.counterMax = timer.inputLatchValue ||| (val <<< 8)
  out : (timer.mode = 0 ∧ counted.out = if timer.gate ≠ 0 then 0 else timer.out) ∨
    (timer.mode = 2 ∧ counted.out = if timer.gate ≠ 0 ∧ timer.active = 0 then 1 else timer.out)

private theorem PitTimer.count_completed {timer counted : PitTimer} {val : Bit32u}
    (second : timer.inputLatchToggle ≠ 0) (count : timer.count val = some counted) :
    timer.Completed counted val := by
  simp only [PitTimer.count, latchInput, second, reduceIte, Bool.true_eq_false] at count
  split at count
  · cases count
  next bits =>
  have latchMode : timer.latchMode = pitLatchMode16Bit := not_not.mp bits
  split at count
  next timeout =>
    cases count
    exact ⟨rfl, rfl, latchMode, rfl, rfl, rfl, rfl, .inl ⟨timeout, rfl⟩⟩
  split at count
  next rate =>
    cases count
    unfold startRate
    split
    next started =>
      exact ⟨rfl, rfl, latchMode, rfl, rfl, rfl, rfl, .inr ⟨rate.1, (if_pos started).symm⟩⟩
    next counting =>
      exact ⟨rfl, rfl, latchMode, rfl, rfl, rfl, rfl, .inr ⟨rate.1, (if_neg counting).symm⟩⟩
  · cases count

/-- All that a control word can do. -/
inductive ControlStep (word : Bit32u) (vm : Vm) : Vm → Prop
  | latched (pitID : Fin 3) (empty : (vm.pit.timer pitID).outputLatchFull = 0)
      (access : (word >>> 4) &&& 3 = 0) :
      ControlStep word vm (vm.withTimer pitID (vm.pit.timer pitID).latchOutput)
  | controlled (pitID : Fin 3) (selected : pitID.val = ((word >>> 6) &&& 3).toNat)
      (access : (word >>> 4) &&& 3 = 3)
      (mode : (word >>> 1) &&& 7 = 0 ∨ (word >>> 1) &&& 7 = 2) (binary : word &&& 1 = 0) :
      ControlStep word vm (vm.withTimer pitID
        ((vm.pit.timer pitID).control ((word >>> 1) &&& 7) (word &&& 1)))

private theorem pitOutpControl_step {word : Bit32u} {vm next : Vm}
    (run : pitOutpControl word vm = .ok () next) : ControlStep word vm next := by
  unfold pitOutpControl at run
  split at run
  next known =>
    rw [pitOutpCommand, get_bind_apply, panicWhen_bind_apply] at run
    split at run
    · cases run
    rw [panicWhen_bind_apply] at run
    split at run
    · cases run
    next binary =>
    rw [Logic.ite_apply] at run
    split at run
    next access =>
      rw [panicWhen_bind_apply] at run
      split at run
      · cases run
      next empty =>
      cases run
      exact .latched _ (not_not.mp empty) access
    next other =>
      rw [panicWhen_bind_apply] at run
      split at run
      · cases run
      next access =>
      rw [panicWhen_bind_apply] at run
      split at run
      · cases run
      next mode =>
      cases run
      refine .controlled ⟨_, known⟩ rfl (not_not.mp access) ?_ (not_not.mp binary)
      by_cases timeout : (word >>> 1) &&& 7 = 0
      · exact .inl timeout
      · exact .inr (by_contra fun rate => mode ⟨timeout, rate⟩)
  · cases run

private theorem PitTimer.count_half {timer counted : PitTimer} {val : Bit32u}
    (first : timer.inputLatchToggle = 0) (count : timer.count val = some counted) :
    counted = { timer with inputLatchValue := val, inputLatchToggle := 1 } := by
  simp only [PitTimer.count, latchInput, first, reduceIte] at count
  split at count
  · cases count
  · cases count
    rfl

private theorem PitTimer.control_self_iff {timer : PitTimer} {mode bcd : Bit32u} :
    timer.control mode bcd = timer ↔ mode = timer.mode ∧ pitLatchMode16Bit = timer.latchMode ∧
      0 = timer.inputLatchValue ∧ 0 = timer.inputLatchToggle ∧ bcd = timer.bcd ∧
      (if mode = 0 then 0 else 1) = timer.out := by
  cases timer
  simp [control]

private theorem PitTimer.Completed.stands_iff {timer counted : PitTimer} {val mode bcd : Bit32u}
    (completed : timer.Completed counted val) :
    counted.control mode bcd = counted ↔ timer.StandsAs mode bcd := by
  rw [control_self_iff, completed.mode, completed.bcd, completed.latchMode, completed.latch,
    completed.toggle]
  have output : mode = timer.mode → ((if mode = 0 then 0 else 1) = counted.out ↔
      if mode = 0 then timer.gate ≠ 0 ∨ timer.out = 0
      else (timer.gate ≠ 0 ∧ timer.active = 0) ∨ timer.out = 1) := by
    intro same
    rcases completed.out with ⟨timeout, out⟩ | ⟨rate, out⟩
    · rw [out, same, if_pos timeout, if_pos timeout]
      split
      next gate => exact iff_of_true rfl (.inl gate)
      next closed => exact ⟨fun zero => .inr zero.symm, fun zero => (zero.resolve_left closed).symm⟩
    · have other : timer.mode ≠ 0 := by rw [rate]; decide
      rw [out, same, if_neg other, if_neg other]
      split
      next started => exact iff_of_true rfl (.inl started)
      next counting =>
        exact ⟨fun one => .inr one.symm, fun one => (one.resolve_left counting).symm⟩
  constructor
  · rintro ⟨same, -, -, -, coded, out⟩
    exact ⟨same.symm, coded.symm, (output same).mp out⟩
  · rintro ⟨moded, coded, out⟩
    exact ⟨moded.symm, rfl, rfl, rfl, coded.symm, (output moded.symm).mpr out⟩

/-- Where the high byte is empty, the word is its low byte. -/
theorem word_of_low {val : Bit32u} (low : val = val &&& 0xff) : val >>> 8 = 0 := by
  have nothing : (0xff : Bit32u) >>> 8 = 0#32 := by decide
  rw [low, BitVec.ushiftRight_and_distrib, nothing, BitVec.and_zero]
  rfl

section Count

variable {vm : Vm} {val : Bit32u} {word counted : PitTimer}

/-- The latch says of two second halves whether they are the same count. -/
theorem counts_agree (complete : (vm.pit.timer 2).inputLatchToggle ≠ 0)
    (countWord : (vm.pit.timer 2).count val = some word)
    (countLow : (vm.pit.timer 2).count (val &&& 0xff) = some counted)
    (same : word.counterMax = counted.counterMax) :
    (vm.pit.timer 2).inputLatchValue ||| (val <<< 8) =
        (vm.pit.timer 2).inputLatchValue ||| ((val &&& 0xff) <<< 8) ∧ word = counted := by
  have latch : (vm.pit.timer 2).inputLatchValue ||| (val <<< 8) =
      (vm.pit.timer 2).inputLatchValue ||| ((val &&& 0xff) <<< 8) := by
    rw [← (PitTimer.count_completed complete countWord).counterMax, same,
      (PitTimer.count_completed complete countLow).counterMax]
  refine ⟨latch, ?_⟩
  rw [PitTimer.count_congr complete latch, countLow] at countWord
  exact (Option.some.inj countWord).symm

/-- The counter latch command shows: the word does not latch an output. -/
theorem latched_differs {pitID : Fin 3}
    (countWord : (vm.pit.timer 2).count val = some word)
    (countLow : (vm.pit.timer 2).count (val &&& 0xff) = some counted)
    (empty : ((vm.withTimer 2 counted).pit.timer pitID).outputLatchFull = 0) :
    (vm.withTimer 2 word).pit ≠ ((vm.withTimer 2 counted).withTimer pitID
      ((vm.withTimer 2 counted).pit.timer pitID).latchOutput).pit := by
  intro same
  have full : ((vm.withTimer 2 word).pit.timer pitID).outputLatchFull = 1 := by
    rw [same, Vm.withTimer_timer, if_pos rfl]
    rfl
  rw [Vm.withTimer_timer] at full empty
  by_cases own : pitID = 2
  · rw [if_pos own] at full empty
    by_cases half : (vm.pit.timer 2).inputLatchToggle = 0
    · rw [PitTimer.count_half half countWord] at full
      rw [PitTimer.count_half half countLow] at empty
      exact absurd (empty.symm.trans full) (by decide)
    · rw [(PitTimer.count_completed half countWord).full] at full
      exact absurd full (by decide)
  · rw [if_neg own] at full empty
    exact absurd (empty.symm.trans full) (by decide)

/-- A control word is not noticed where it sets what is set already. -/
theorem controlled_same {pitID : Fin 3}
    (countWord : (vm.pit.timer 2).count val = some word)
    (countLow : (vm.pit.timer 2).count (val &&& 0xff) = some counted)
    (selected : pitID.val = ((val >>> 8 >>> 6) &&& 3).toNat)
    (access : (val >>> 8 >>> 4) &&& 3 = 3)
    (same : (vm.withTimer 2 word).pit = ((vm.withTimer 2 counted).withTimer pitID
      (((vm.withTimer 2 counted).pit.timer pitID).control ((val >>> 8 >>> 1) &&& 7)
        (val >>> 8 &&& 1))).pit) :
    (vm.pit.timer 2).inputLatchToggle ≠ 0 ∧
      (vm.pit.timer 2).inputLatchValue ||| (val <<< 8) =
        (vm.pit.timer 2).inputLatchValue ||| ((val &&& 0xff) <<< 8) ∧
      vm.pit.ControlledAs (val >>> 8) := by
  have timers (other : Fin 3) : (if other = 2 then word else vm.pit.timer other) =
      if other = pitID then ((if pitID = 2 then counted else vm.pit.timer pitID).control
        ((val >>> 8 >>> 1) &&& 7) (val >>> 8 &&& 1))
      else if other = 2 then counted else vm.pit.timer other := by
    have shown := congrArg (fun pit : Pit => pit.timer other) same
    simpa only [Vm.withTimer_timer] using shown
  have only : ∀ other : Fin 3, other.val = ((val >>> 8 >>> 6) &&& 3).toNat → other = pitID :=
    fun other found => Fin.ext (found.trans selected.symm)
  by_cases own : pitID = 2
  · have controlled := timers 2
    rw [if_pos rfl, if_pos own.symm, if_pos own] at controlled
    have complete : (vm.pit.timer 2).inputLatchToggle ≠ 0 := by
      intro half
      have toggle := congrArg PitTimer.inputLatchToggle controlled
      rw [PitTimer.count_half half countWord] at toggle
      exact (by decide : (1 : Bit32u) ≠ 0) toggle
    have limit : word.counterMax = counted.counterMax := by
      rw [controlled]
      rfl
    obtain ⟨latch, rfl⟩ := counts_agree complete countWord countLow limit
    refine ⟨complete, latch, access, fun other found => ?_⟩
    rw [if_pos ((only other found).trans own)]
    exact (PitTimer.count_completed complete countLow).stands_iff.mp controlled.symm
  · have unchanged := timers 2
    rw [if_pos rfl, if_neg (Ne.symm own), if_pos rfl] at unchanged
    subst unchanged
    have complete : (vm.pit.timer 2).inputLatchToggle ≠ 0 := by
      intro half
      have latches := congrArg PitTimer.inputLatchValue
        ((PitTimer.count_half half countWord).symm.trans (PitTimer.count_half half countLow))
      rw [word_of_low latches] at access
      exact absurd access (by decide)
    refine ⟨complete, (counts_agree complete countWord countLow rfl).1, access, fun other found => ?_⟩
    obtain rfl := only other found
    have controlled := timers other
    rw [if_neg own, if_pos rfl] at controlled
    rw [if_neg own]
    exact controlled.symm

end Count

/-- Port 0x42: the byte after the count goes to the control register. -/
theorem timerWord_iff {vm first second : Vm} {val : Bit32u}
    (low : pitOutpCount 2 (val &&& 0xff) vm = .ok () first)
    (high : pitOutpControl (val >>> 8) first = .ok () second) :
    (∃ next, pitOutpCount 2 val vm = .ok () next ∧ next.pit = second.pit) ↔
      (vm.pit.timer 2).inputLatchToggle ≠ 0 ∧
      (vm.pit.timer 2).inputLatchValue ||| (val <<< 8) =
        (vm.pit.timer 2).inputLatchValue ||| ((val &&& 0xff) <<< 8) ∧
      vm.pit.ControlledAs (val >>> 8) := by
  obtain ⟨counted, countLow, rfl⟩ := pitOutpCount_ok.mp low
  have step := pitOutpControl_step high
  constructor
  · rintro ⟨next, run, same⟩
    obtain ⟨word, countWord, rfl⟩ := pitOutpCount_ok.mp run
    cases step with
    | latched pitID empty access => exact absurd same (latched_differs countWord countLow empty)
    | controlled pitID selected access mode binary =>
        exact controlled_same countWord countLow selected access same
  · rintro ⟨complete, latch, access, stands⟩
    have countWord : (vm.pit.timer 2).count val = some counted := by
      rw [PitTimer.count_congr complete latch]
      exact countLow
    refine ⟨_, pitOutpCount_ok.mpr ⟨counted, countWord, rfl⟩, ?_⟩
    cases step with
    | latched pitID empty latching =>
        rw [latching] at access
        exact absurd access (by decide)
    | controlled pitID selected _ mode binary =>
        have same : ((vm.withTimer 2 counted).pit.timer pitID).control ((val >>> 8 >>> 1) &&& 7)
            (val >>> 8 &&& 1) = (vm.withTimer 2 counted).pit.timer pitID := by
          have held := stands pitID selected
          rw [Vm.withTimer_timer]
          split at held
          next own =>
            rw [if_pos own]
            exact (PitTimer.count_completed complete countLow).stands_iff.mpr held
          next other =>
            rw [if_neg other]
            exact held
        rw [same, Vm.withTimer_self]

end Timers

section InterruptControllers

/-- What a command that is supported does to the master. -/
inductive MasterCommand (val : Bit32u) (vm : Vm) : Vm → Prop
  | initialised (command : val &&& 0x10#32 ≠ 0) (plain : val &&& 0x0a#32 = 0) :
      MasterCommand val vm { vm with picMaster := vm.picMaster.initCommand1 val, intr := 0 }
  | ended (specific : val = 0x60 ∨ val = 0x63)
      (inService : vm.picMaster.isr &&& irqBit (val - 0x60) ≠ 0) :
      MasterCommand val vm { vm with
        picMaster := vm.picMaster.endOfInterrupt (irqBit (val - 0x60))
        intr := (vm.picMaster.endOfInterrupt (irqBit (val - 0x60))).service 0 }

private theorem picCommandMaster_ok {val : Bit32u} {vm next : Vm} :
    picCommandMaster val vm = .ok () next ↔ MasterCommand val vm next := by
  constructor
  · intro run
    simp only [picCommandMaster, Logic.ite_apply, modify_bind_apply, get_bind_apply,
      panicWhen_bind_apply, panicWhen_apply] at run
    split at run
    next command =>
      split at run
      · cases run
      next plain =>
        cases run
        exact .initialised command (not_not.mp plain)
    split at run
    · cases run
    split at run
    next specific =>
      split at run
      · cases run
      next inService =>
        rw [picServiceMaster_apply] at run
        cases run
        exact .ended specific inService
    · cases run
  · rintro (⟨command, plain⟩ | ⟨specific, inService⟩)
    · rw [picCommandMaster, if_pos command, modify_bind_apply, panicWhen_apply,
        if_neg (not_not.mpr plain)]
    · have eoi : ¬ val &&& 0x10#32 ≠ 0 ∧ ¬ val &&& 0x18#32 = 0x08 := by
        rcases specific with rfl | rfl
        · decide
        · decide
      rw [picCommandMaster, if_neg eoi.1, if_neg eoi.2, if_pos specific, get_bind_apply,
        panicWhen_bind_apply, if_neg inService, modify_bind_apply, picServiceMaster_apply]

private theorem Pic.service_service (pic : Pic) (intr : Bit32u) :
    pic.service (pic.service intr) = pic.service intr := by
  unfold service
  split
  · rfl
  split
  · rfl
  · rfl

/-- Where nothing is masked after the command, its requests have been looked at. -/
theorem MasterCommand.settled {val : Bit32u} {vm next : Vm} (command : MasterCommand val vm next)
    (mask : val &&& 0x10#32 ≠ 0 ∨ vm.picMaster.imr = 0) :
    next.picMaster.imr = 0 ∧ next.picMaster.service next.intr = next.intr := by
  cases command with
  | initialised command plain => exact ⟨rfl, by simp [Pic.service, Pic.unmasked, Pic.initCommand1]⟩
  | ended specific inService =>
      have plain : ¬ val &&& 0x10#32 ≠ 0 := by
        rcases specific with rfl | rfl
        · decide
        · decide
      exact ⟨mask.resolve_left plain, Pic.service_service _ 0⟩

private theorem picCommandSlave_ok {val : Bit32u} {vm next : Vm} :
    picCommandSlave val vm = .ok () next ↔ val &&& 0x10#32 ≠ 0 ∧ val &&& 0x0a#32 = 0 ∧
      next = { vm with picSlave := vm.picSlave.initCommand1 val } := by
  rw [picCommandSlave, Logic.ite_apply, modify_bind_apply, panicWhen_apply]
  constructor
  · intro run
    split at run
    next command =>
      split at run
      · cases run
      next plain =>
        cases run
        exact ⟨command, not_not.mp plain, rfl⟩
    · cases run
  · rintro ⟨command, plain, rfl⟩
    rw [if_pos command, if_neg (not_not.mpr plain)]

/-- A mask of bits of the low byte does not see the high one. -/
theorem and_low {val mask : Bit32u} (narrow : 0xff &&& mask = mask) :
    (val &&& 0xff) &&& mask = val &&& mask := by
  rw [BitVec.and_assoc, narrow]

/-- Where the high byte is empty, the word is its low byte. -/
theorem low_of_word {val : Bit32u} (high : val >>> 8 = 0) : val &&& 0xff = val := by
  have small : val.toNat < 2 ^ 8 := by
    have shifted := congrArg BitVec.toNat high
    rw [BitVec.toNat_ushiftRight, Nat.shiftRight_eq_div_pow] at shifted
    exact Nat.lt_of_div_eq_zero (by decide) shifted
  apply BitVec.eq_of_toNat_eq
  exact (BitVec.toNat_and _ _).trans ((Nat.and_two_pow_sub_one_eq_mod _ 8).trans (Nat.mod_eq_of_lt small))

/-- The byte after a command goes to the mask of the controller. -/
theorem masterWord_iff {vm first second : Vm} {val : Bit32u}
    (low : picOutp 0x20 (val &&& 0xff) vm = .ok () first)
    (high : picOutp 0x21 (val >>> 8) first = .ok () second) :
    (∃ next, picOutp 0x20 val vm = .ok () next ∧ next.SameIo second) ↔
      val >>> 8 = 0 ∧ (val &&& 0x10#32 ≠ 0 ∨ vm.picMaster.imr = 0) := by
  have command : MasterCommand (val &&& 0xff) vm first := picCommandMaster_ok.mp low
  have masked : second = { first with
      picMaster := { first.picMaster with imr := val >>> 8 }
      intr := Pic.service { first.picMaster with imr := val >>> 8 } first.intr } := by
    have stored : picOutp 0x21 (val >>> 8) first = picServiceMaster
      { first with picMaster := { first.picMaster with imr := val >>> 8 } } := rfl
    rw [stored, picServiceMaster_apply] at high
    cases high
    rfl
  subst masked
  constructor
  · rintro ⟨next, run, same⟩
    have whole : MasterCommand val vm next := picCommandMaster_ok.mp run
    have mask : next.picMaster.imr = val >>> 8 := congrArg Pic.imr same.picMaster
    cases whole with
    | initialised command plain => exact ⟨mask.symm, .inl command⟩
    | ended specific inService =>
        have empty : val >>> 8 = 0 := by
          rcases specific with rfl | rfl
          · decide
          · decide
        exact ⟨empty, .inr (mask.trans empty)⟩
  · rintro ⟨empty, mask⟩
    rw [low_of_word empty] at command low
    obtain ⟨unmasked, settled⟩ := command.settled mask
    have whole : { first.picMaster with imr := 0 } = first.picMaster := by rw [← unmasked]
    refine ⟨first, low, ?_⟩
    rw [empty, whole, settled]
    exact ⟨rfl, rfl, rfl, rfl⟩

private theorem slaveWord_iff {vm first second : Vm} {val : Bit32u}
    (low : picOutp 0xa0 (val &&& 0xff) vm = .ok () first)
    (high : picOutp 0xa1 (val >>> 8) first = .ok () second) :
    (∃ next, picOutp 0xa0 val vm = .ok () next ∧ next.SameIo second) ↔ val >>> 8 = 0 := by
  obtain ⟨command, plain, rfl⟩ := picCommandSlave_ok.mp low
  cases high
  constructor
  · rintro ⟨next, run, same⟩
    obtain ⟨-, -, rfl⟩ := picCommandSlave_ok.mp run
    exact (congrArg Pic.imr same.picSlave).symm
  · intro empty
    rw [low_of_word empty] at low ⊢
    refine ⟨_, low, ⟨rfl, ?_, rfl, rfl⟩⟩
    change vm.picSlave.initCommand1 val = { vm.picSlave.initCommand1 val with imr := val >>> 8 }
    rw [empty]
    rfl

end InterruptControllers

section Words

variable {machine first second : Machine} {val : Bit32u}

/-- The writes of one handler, seen at the virtual machine it works on. -/
theorem onVm_pair {low high word : Mon Unit} (lowRun : onVm low machine = .ok () first)
    (highRun : onVm high first = .ok () second) :
    ∃ vm last, low machine.vm = .ok () vm ∧ high vm = .ok () last ∧
      ((∃ next, onVm word machine = .ok () next ∧ next.devices = second.devices) ↔
        ∃ next, word machine.vm = .ok () next ∧ next.SameIo last) := by
  obtain ⟨vm, low', rfl⟩ := onVm_ok.mp lowRun
  obtain ⟨last, high', rfl⟩ := onVm_ok.mp highRun
  refine ⟨vm, last, low', high', ?_⟩
  constructor
  · rintro ⟨_, run, same⟩
    obtain ⟨next, word', rfl⟩ := onVm_ok.mp run
    exact ⟨next, word', devices_onVm.mp same⟩
  · rintro ⟨next, word', same⟩
    exact ⟨_, onVm_ok.mpr ⟨next, word', rfl⟩, devices_onVm.mpr same⟩

/-- A write to the timer changes nothing else. -/
theorem sameIo_pit {vm : Vm} {left right : Pit} :
    Vm.SameIo { vm with pit := left } { vm with pit := right } ↔ left = right :=
  ⟨fun same => same.pit, fun same => ⟨rfl, rfl, same, rfl⟩⟩

/-- The byte after a count goes to the count of the next timer, which shows it. -/
theorem countWord_never {vm next last : Vm} {pitID other : Fin 3} {low high word : Bit32u}
    (apart : other ≠ pitID) (lowRun : pitOutpCount pitID low vm = .ok () next)
    (highRun : pitOutpCount other high next = .ok () last) :
    ¬ ∃ after, pitOutpCount pitID word vm = .ok () after ∧ after.SameIo last := by
  rintro ⟨after, wordRun, same⟩
  obtain ⟨counted, -, rfl⟩ := pitOutpCount_ok.mp lowRun
  obtain ⟨counted', count, rfl⟩ := pitOutpCount_ok.mp highRun
  obtain ⟨counted'', -, rfl⟩ := pitOutpCount_ok.mp wordRun
  rw [Vm.withTimer_timer, if_neg apart] at count
  have shown := congrArg (fun pit : Pit => pit.timer other) same.pit
  simp only [Vm.withTimer_timer, if_neg apart, if_true] at shown
  exact PitTimer.count_toggle count (congrArg PitTimer.inputLatchToggle shown.symm)

private theorem timerWord_takes (low : outp 1 0x42 (val &&& 0xff) machine = .ok () first)
    (high : outp 1 0x43 (val >>> 8) first = .ok () second) :
    (∃ next, outp 1 0x42 val machine = .ok () next ∧ next.devices = second.devices) ↔
      machine.TakesWord val 0x42 := by
  obtain ⟨vm, last, lowRun, highRun, same⟩ :=
    @onVm_pair _ _ _ (pitOutp 0x42 (val &&& 0xff)) (pitOutp 0x43 (val >>> 8)) (pitOutp 0x42 val) low high
  have words := @timerWord_iff machine.vm vm last val lowRun highRun
  have frame : (∃ next, pitOutp 0x42 val machine.vm = .ok () next ∧ next.SameIo last) ↔
      ∃ next, pitOutpCount 2 val machine.vm = .ok () next ∧ next.pit = last.pit := by
    obtain ⟨counted, -, rfl⟩ := pitOutpCount_ok.mp lowRun
    have step := @pitOutpControl_step (val >>> 8) _ _ highRun
    constructor
    · rintro ⟨next, run, alike⟩
      exact ⟨next, run, alike.pit⟩
    · rintro ⟨next, run, alike⟩
      refine ⟨next, run, ?_⟩
      obtain ⟨word, -, rfl⟩ := pitOutpCount_ok.mp run
      cases step with
      | latched pitID empty access => exact sameIo_pit.mpr alike
      | controlled pitID selected access mode binary => exact sameIo_pit.mpr alike
  refine same.trans (frame.trans (words.trans ⟨?_, ?_⟩))
  · rintro ⟨complete, latch, control⟩
    exact .timer complete latch control
  · rintro ⟨⟩
    exact ⟨‹_›, ‹_›, ‹_›⟩

private theorem masterWord_takes (low : outp 1 0x20 (val &&& 0xff) machine = .ok () first)
    (high : outp 1 0x21 (val >>> 8) first = .ok () second) :
    (∃ next, outp 1 0x20 val machine = .ok () next ∧ next.devices = second.devices) ↔
      machine.TakesWord val 0x20 := by
  obtain ⟨vm, last, lowRun, highRun, same⟩ :=
    @onVm_pair _ _ _ (picOutp 0x20 (val &&& 0xff)) (picOutp 0x21 (val >>> 8)) (picOutp 0x20 val) low high
  refine same.trans ((masterWord_iff lowRun highRun).trans ⟨?_, ?_⟩)
  · rintro ⟨empty, mask⟩
    exact .master empty mask
  · rintro ⟨⟩
    exact ⟨‹_›, ‹_›⟩

private theorem slaveWord_takes (low : outp 1 0xa0 (val &&& 0xff) machine = .ok () first)
    (high : outp 1 0xa1 (val >>> 8) first = .ok () second) :
    (∃ next, outp 1 0xa0 val machine = .ok () next ∧ next.devices = second.devices) ↔
      machine.TakesWord val 0xa0 := by
  obtain ⟨vm, last, lowRun, highRun, same⟩ :=
    @onVm_pair _ _ _ (picOutp 0xa0 (val &&& 0xff)) (picOutp 0xa1 (val >>> 8)) (picOutp 0xa0 val) low high
  refine same.trans ((slaveWord_iff lowRun highRun).trans ⟨.slave, ?_⟩)
  rintro ⟨⟩
  assumption

/-- The two count registers that have another one after them. -/
theorem countWord_takes {port : Bit32u} {pitID other : Fin 3} (apart : other ≠ pitID)
    (counts : ∀ val, outp 1 port val = onVm (pitOutpCount pitID val))
    (counts' : ∀ val, outp 1 (port + 1) val = onVm (pitOutpCount other val))
    (none : ¬ machine.TakesWord val port)
    (low : outp 1 port (val &&& 0xff) machine = .ok () first)
    (high : outp 1 (port + 1) (val >>> 8) first = .ok () second) :
    (∃ next, outp 1 port val machine = .ok () next ∧ next.devices = second.devices) ↔
      machine.TakesWord val port := by
  rw [counts] at low ⊢
  rw [counts'] at high
  obtain ⟨vm, last, lowRun, highRun, same⟩ := @onVm_pair _ _ _ _ _ (pitOutpCount pitID val) low high
  exact same.trans (iff_of_false (countWord_never apart lowRun highRun) none)

private theorem vgaOutpByte_index {next : Machine} :
    vgaOutpByte 0x3d4 val machine = .ok () next ↔ ¬ val &&& 0x7f > 0x18 ∧
      next = { machine with vga := { machine.vga with address := val &&& 0x7f } } := by
  rw [vgaOutpByte, if_pos rfl, modify_bind_apply, Logic.ite_apply]
  split
  next wild =>
    constructor
    · rintro ⟨⟩
    · rintro ⟨tame, -⟩
      exact absurd wild tame
  next tame =>
    constructor
    · rintro ⟨⟩
      exact ⟨tame, rfl⟩
    · rintro ⟨-, rfl⟩
      rfl

private theorem vgaOutpByte_data {next : Machine}
    (run : vgaOutpByte 0x3d5 val machine = .ok () next) :
    next = { machine with vga := { machine.vga with
      reg := Function.update machine.vga.reg machine.vga.address (val &&& 0xff) } } := by
  rw [vgaOutpByte, if_neg (by decide), if_pos rfl, get_bind_apply, Logic.ite_apply] at run
  split at run
  · cases run
  · cases run
    rfl

/-- The byte after the index goes to the register it selects. -/
theorem crtcWord_takes (narrow : val &&& 0xffff = val)
    (low : outp 1 0x3d4 (val &&& 0xff) machine = .ok () first)
    (high : outp 1 0x3d5 (val >>> 8) first = .ok () second) :
    (∃ next, outp 1 0x3d4 val machine = .ok () next ∧ next.devices = second.devices) ↔
      machine.TakesWord val 0x3d4 := by
  have byte : val >>> 8 &&& (0xff : Bit32u) = val >>> 8 := by
    have mask : (0xff : Bit32u) = (0xffff : Bit32u) >>> 8 := by decide
    rw [mask, ← BitVec.ushiftRight_and_distrib, narrow]
  obtain ⟨tame, rfl⟩ := vgaOutpByte_index.mp low
  have stored := vgaOutpByte_data high
  subst stored
  rw [and_low (by decide)] at tame
  have index : val &&& 0xff &&& 0x7f = val &&& 0x7f := and_low (by decide)
  have alike : ∀ vga, Machine.devices { machine with vga } = Machine.devices { machine with
      vga := ⟨val &&& 0x7f, Function.update machine.vga.reg (val &&& 0x7f) (val >>> 8)⟩ } ↔
        vga = ⟨val &&& 0x7f, Function.update machine.vga.reg (val &&& 0x7f) (val >>> 8)⟩ := by
    intro vga
    simp only [Machine.devices, Devices.mk.injEq, true_and, and_true]
  constructor
  · rintro ⟨next, run, same⟩
    obtain ⟨-, rfl⟩ := vgaOutpByte_index.mp run
    simp only [index, byte] at same
    have registers := congrArg Vga.reg ((alike _).mp same)
    exact .crtc (Function.update_eq_self_iff.mp registers.symm).symm
  · rintro ⟨⟩
    refine ⟨_, vgaOutpByte_index.mpr ⟨tame, rfl⟩, ?_⟩
    simp only [index, byte]
    apply (alike _).mpr
    rw [Function.update_eq_self_iff.mpr (Eq.symm ‹_›)]

/-- What is written to the palette is not kept. -/
theorem paletteWord_takes (low : outp 1 0x3c8 (val &&& 0xff) machine = .ok () first)
    (high : outp 1 0x3c9 (val >>> 8) first = .ok () second) :
    (∃ next, outp 1 0x3c8 val machine = .ok () next ∧ next.devices = second.devices) ↔
      machine.TakesWord val 0x3c8 := by
  cases low
  cases high
  exact iff_of_true ⟨machine, rfl, rfl⟩ .palette

/-- Exactly there, one write of the word does what the writes of its bytes do. -/
theorem outp_takes {port : Bit32u} (narrow : val &&& 0xffff = val)
    (low : outp 1 port (val &&& 0xff) machine = .ok () first)
    (high : outp 1 (port + 1) (val >>> 8) first = .ok () second) :
    (∃ next, outp 1 port val machine = .ok () next ∧ next.devices = second.devices) ↔
      machine.TakesWord val port := by
  have pair := outPorts_pairs (outp_known low) (outp_known high)
  simp only [pairPorts, List.mem_cons, List.not_mem_nil, or_false] at pair
  rcases pair with rfl | rfl | rfl | rfl | rfl | rfl | rfl
  · exact masterWord_takes low high
  · exact slaveWord_takes low high
  · exact @countWord_takes _ _ _ _ 0x40 0 1 (by decide) (fun _ => rfl) (fun _ => rfl) nofun low high
  · exact @countWord_takes _ _ _ _ 0x41 1 2 (by decide) (fun _ => rfl) (fun _ => rfl) nofun low high
  · exact timerWord_takes low high
  · exact paletteWord_takes low high
  · exact crtcWord_takes narrow low high

end Words

/-- The byte 0x66 makes the operand of OUT 16 bits wide. -/
theorem decodeOpcode_outWord (surroundings : Surroundings) (rest : List Bit8u) :
    Emu.decodeOpcode (0x66 :: 0xef :: rest) surroundings 0 true = Emu.outDXeAX false 2 := by
  have first : Emu.byteAt (0x66 :: 0xef :: rest) 0 = pure 0x66 := rfl
  have second : Emu.byteAt (0x66 :: 0xef :: rest) (0 + 1) = pure 0xef := rfl
  rw [Emu.decodeOpcode, first, pure_bind, if_pos (by decide), dif_pos rfl, Emu.decodeOpcode, second,
    pure_bind, if_neg (by decide)]
  rfl

/-- Stepping over the instruction does not touch the devices. -/
theorem outDXeAX_devices {machine : Machine} {iLen : Nat} {devices : Devices} :
    (∃ after, Emu.outDXeAX false iLen machine = .ok true after ∧ after.devices = devices) ↔
      ∃ next, outp 1 (machine.vm.context.edx &&& 0xffff) (machine.vm.context.eax &&& 0xffff)
        machine = .ok () next ∧ next.devices = devices := by
  have unfolded : Emu.outDXeAX false iLen machine = (do
      outp 1 (machine.vm.context.edx &&& 0xffff) (machine.vm.context.eax &&& 0xffff)
      Emu.advanceInstruction iLen) machine := rfl
  rw [unfolded, bind_apply]
  cases outp 1 (machine.vm.context.edx &&& 0xffff) (machine.vm.context.eax &&& 0xffff) machine with
  | error stop last =>
      constructor
      · rintro ⟨_, ⟨⟩, _⟩
      · rintro ⟨_, ⟨⟩, _⟩
  | ok value next =>
      constructor
      · rintro ⟨_, ⟨⟩, same⟩
        exact ⟨next, rfl, same⟩
      · rintro ⟨_, ⟨⟩, same⟩
        exact ⟨_, rfl, same⟩

/-- The 16-bit OUT of `v` to port `p`, exactly where it does what two byte writes do. -/
theorem outWord_iff (surroundings : Surroundings) (rest : List Bit8u) {machine first second : Machine}
    {p v : Bit16u} (port : machine.vm.context.edx &&& 0xffff = p.setWidth 32)
    (value : machine.vm.context.eax &&& 0xffff = v.setWidth 32)
    (low : outp 1 (p.setWidth 32) (v.setWidth 32 &&& 0xff) machine = .ok () first)
    (high : outp 1 (p.setWidth 32 + 1) (v.setWidth 32 >>> 8) first = .ok () second) :
    (∃ after, Emu.decodeOpcode (0x66 :: 0xef :: rest) surroundings 0 true machine = .ok true after ∧
        after.devices = second.devices) ↔
      machine.TakesWord (v.setWidth 32) (p.setWidth 32) := by
  have narrow : v.setWidth 32 &&& 0xffff = v.setWidth 32 := by
    rw [← value, BitVec.and_assoc]
    rfl
  rw [decodeOpcode_outWord, outDXeAX_devices, port, value]
  exact outp_takes narrow low high

/-- A guest that writes AX to the display adapter. -/
def Sample.display (eax : Bit32u) : Machine where
  vm := { setup := Sample.setup, context := { eax, edx := 0x3d4 } }

theorem outWord_iff_zero : ∃ after second, Emu.decodeOpcode [0x66, 0xef]
      ⟨⟨fun _ => 0, 0, 0, fun _ _ => 0, true⟩, 0⟩ 0 true (Sample.display 0x0001) = .ok true after ∧
    outp 1 0x3d5 0 { Sample.display 0x0001 with vga := { address := 1 } } = .ok () second ∧
    after.devices = second.devices := by
  obtain ⟨after, run, same⟩ := (@outWord_iff ⟨⟨fun _ => 0, 0, 0, fun _ _ => 0, true⟩, 0⟩ []
    (Sample.display 0x0001) { Sample.display 0x0001 with vga := { address := 1 } } _ 0x3d4 0x0001
    rfl rfl rfl rfl).mpr (.crtc rfl)
  exact ⟨after, _, run, rfl, same⟩

/-- Register 1 of the display adapter gets the high byte, but not from the word. -/
theorem outWord_differs : ¬ ∀ (surroundings : Surroundings) (rest : List Bit8u)
    (machine first second : Machine) (p v : Bit16u),
    machine.vm.context.edx &&& 0xffff = p.setWidth 32 →
    machine.vm.context.eax &&& 0xffff = v.setWidth 32 →
    outp 1 (p.setWidth 32) (v.setWidth 32 &&& 0xff) machine = .ok () first →
    outp 1 (p.setWidth 32 + 1) (v.setWidth 32 >>> 8) first = .ok () second →
    ∃ after, Emu.decodeOpcode (0x66 :: 0xef :: rest) surroundings 0 true machine = .ok true after ∧
      after.devices = second.devices := by
  intro claimed
  obtain ⟨after, run, same⟩ := claimed ⟨⟨fun _ => 0, 0, 0, fun _ _ => 0, true⟩, 0⟩ []
    (Sample.display 0x0501) { Sample.display 0x0501 with vga := { address := 1 } } _ 0x3d4 0x0501
    rfl rfl rfl rfl
  rw [decodeOpcode_outWord] at run
  cases run
  exact absurd (congrArg (fun devices : Devices => devices.vga.reg 1) same) (by decide)

end Plex86
