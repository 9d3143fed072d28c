import Plex86.Emulate.PitRun

namespace Plex86

open Logic

/-- The loop of HLT, cut off after some iterations; tells whether INTR has ended it. -/
def hltLoop : Nat → Mon Bool
  | 0 => do
      let vm ← get
      return decide (vm.intr ≠ 0)
  | iterations + 1 => do
      let vm ← get
      if vm.intr ≠ 0 then return true
      else
        pitExpireClocks 1
        hltLoop iterations

/-- Clocks that pass one by one. -/
def clocks : Nat → Mon Unit
  | 0 => return ()
  | elapsed + 1 => do
      clocks elapsed
      pitExpireClocks 1

/-- No interrupt of line 0 is pending. -/
def Vm.withoutIrq0 (vm : Vm) : Vm :=
  { vm with picMaster := { vm.picMaster with irr := vm.picMaster.irr &&& ~~~irqBit 0 } }

/-- The next clock requests an interrupt of line 0, unless one is pending. -/
def Ticks (vm : Vm) : Prop :=
  ∃ next, pitExpireClocks 1 vm.withoutIrq0 = .ok () next ∧ next.picMaster.irr.getLsbD 0 = true

/-- Line 0 is next requested by the clock of that number, and by none before it. -/
def TicksAt (vm : Vm) (clock : Nat) : Prop :=
  ∀ elapsed < clock, ∃ now, clocks elapsed vm = .ok () now ∧ (Ticks now ↔ elapsed + 1 = clock)

/-- The count that two bytes stand for, the low one first. -/
def countOf (low high : BitVec 8) : Bit32u := low.setWidth 32 ||| (high.setWidth 32 <<< 8)

/-- A count of 0 stands for the longest period there is. -/
def periodOf (count : Bit32u) : Nat := if count = 0 then 65536 else count.toNat

/-- The timer stands still, however many clocks pass. -/
def PitTimer.Stopped (timer : PitTimer) : Prop :=
  ∀ pitClocks, timer.expire pitClocks = (timer, false)

/-- A control word for timer 0 stops its old count, and the count that is
written after it determines its next interrupt. -/
def Reprograms (vm : Vm) (word : Bit32u) (low high : BitVec 8) : Prop :=
  ∃ controlled half loaded, pitOutp 0x43 word vm = .ok () controlled ∧
    pitOutp 0x40 (low.setWidth 32) controlled = .ok () half ∧
    pitOutp 0x40 (high.setWidth 32) half = .ok () loaded ∧
    (controlled.pit.timer 0).Stopped ∧ TicksAt loaded (periodOf (countOf low high))

/-- The mode that a control word for 16-bit access to timer 0 selects. -/
inductive ControlWord : Bit32u → Bit32u → Prop
  | timeout : ControlWord 0x30 0
  | rate : ControlWord 0x34 2

private theorem pitOutp_control {word mode : Bit32u} (control : ControlWord word mode) (vm : Vm) :
    pitOutp 0x43 word vm = .ok () (vm.withTimer 0 ((vm.pit.timer 0).control mode 0)) := by
  cases control with
  | timeout => rfl
  | rate => rfl

@[simp] theorem Vm.withTimer_timer (vm : Vm) (pitID other : Fin 3) (timer : PitTimer) :
    (vm.withTimer pitID timer).pit.timer other =
      if other = pitID then timer else vm.pit.timer other := by
  simp [withTimer]

private theorem pitOutp_lowByte {vm : Vm} (latch : (vm.pit.timer 0).latchMode = pitLatchMode16Bit)
    (empty : (vm.pit.timer 0).inputLatchToggle = 0) (val : Bit32u) :
    pitOutp 0x40 val vm = .ok () (vm.withTimer 0
      { vm.pit.timer 0 with inputLatchValue := val, inputLatchToggle := 1 }) := by
  have latched : (vm.pit.timer 0).latchInput val =
      ({ vm.pit.timer 0 with inputLatchValue := val, inputLatchToggle := 1 }, false) := by
    rw [PitTimer.latchInput, if_pos empty]
  rw [pitOutp, if_pos rfl, pitOutpCount, get_bind_apply, panicWhen_bind_apply,
    if_neg (not_not.mpr latch), latched]
  rfl

/-- The high byte completes a count, which the mode of the timer then starts. -/
theorem pitOutp_highByte {vm : Vm} (latch : (vm.pit.timer 0).latchMode = pitLatchMode16Bit)
    (half : (vm.pit.timer 0).inputLatchToggle = 1) {val count : Bit32u}
    (whole : (vm.pit.timer 0).inputLatchValue ||| (val <<< 8) = count)
    (supported : (vm.pit.timer 0).Supported) (legal : (vm.pit.timer 0).mode = 2 → count ≠ 1) :
    ∃ (next : Vm) (timer : PitTimer), pitOutp 0x40 val vm = .ok () next ∧
      timer.mode = (vm.pit.timer 0).mode ∧
      timer.gate = (vm.pit.timer 0).gate ∧ timer.active = (vm.pit.timer 0).active ∧
      timer.counterMax = count ∧
      next.pit.timer 0 = (if timer.mode = 0 then timer.startTimeout else timer.startRate) ∧
      ∀ other, other ≠ 0 → next.pit.timer other = vm.pit.timer other := by
  have full : (vm.pit.timer 0).inputLatchToggle ≠ 0 := by rw [half]; decide
  let latched : PitTimer :=
    { vm.pit.timer 0 with inputLatchValue := count, inputLatchToggle := 0 }
  have complete : (vm.pit.timer 0).latchInput val = (latched, true) := by
    rw [PitTimer.latchInput, if_neg full, whole]
  let moved : Vm := (vm.withTimer 0 latched).withTimer 0 latched.transferred
  have started : pitOutp 0x40 val vm = (if latched.transferred.mode = 0 then
      setTimer 0 latched.transferred.startTimeout
    else if latched.transferred.mode = 2 then do
      panicWhen (latched.transferred.counterMax = 1) "pitOutp: bailing.\n"
      setTimer 0 latched.transferred.startRate
    else monpanic "pitOutp: bailing.\n") moved := by
    rw [pitOutp, if_pos rfl, pitOutpCount, get_bind_apply, panicWhen_bind_apply,
      if_neg (not_not.mpr latch), complete]
    rfl
  rcases supported with timeout | rate
  · have mode : latched.transferred.mode = 0 := timeout
    rw [if_pos mode] at started
    refine ⟨_, latched.transferred, started, rfl, rfl, rfl, rfl, ?_, fun other differs => ?_⟩
    · rw [if_pos mode]
      rfl
    · simp [moved, differs, Pit.setTimer_timer]
  · have mode : latched.transferred.mode = 2 := rate
    have other : latched.transferred.mode ≠ 0 := by rw [mode]; decide
    have allowed : ¬ latched.transferred.counterMax = 1 := legal rate
    rw [if_neg other, if_pos mode, panicWhen_bind_apply, if_neg allowed] at started
    refine ⟨_, latched.transferred, started, rfl, rfl, rfl, rfl, ?_, fun other differs => ?_⟩
    · rw [if_neg other]
      rfl
    · simp [moved, differs, Pit.setTimer_timer]

private theorem ticks_iff {vm : Vm} (supported : vm.pit.Supported) :
    Ticks vm ↔ ((vm.pit.timer 0).expire 1).2 = true := by
  have modes : vm.withoutIrq0.pit.Supported := supported
  have run := pitExpireClocks_apply modes 1
  have clear : vm.withoutIrq0.picMaster.irr.getLsbD 0 = false := by
    simp [Vm.withoutIrq0, irqBit]
  have raised : ((vm.withoutIrq0.picMaster.request (irqBit 0)).1).irr.getLsbD 0 = true := by
    have free : vm.withoutIrq0.picMaster.irr &&& irqBit 0 = 0 :=
      (and_lineBit_eq_zero (by decide) _).mpr clear
    rw [Pic.request, if_neg (not_not.mpr free)]
    simp [irqBit]
  constructor
  · rintro ⟨next, ran, pending⟩
    cases run.symm.trans ran
    cases expired : ((vm.pit.timer 0).expire 1).2 with
    | true => rfl
    | false =>
        have same : (vm.withoutIrq0.expireClocks 1).picMaster = vm.withoutIrq0.picMaster := by
          rw [Vm.expireClocks, show vm.withoutIrq0.pit = vm.pit from rfl, expired]
          rfl
        rw [same, clear] at pending
        exact absurd pending (by decide)
  · intro expired
    refine ⟨_, run, ?_⟩
    rw [Vm.expireClocks, show vm.withoutIrq0.pit = vm.pit from rfl, expired]
    exact raised

/-- A counting timer is as much further on as clocks have passed. -/
theorem clocks_counting {vm : Vm} (supported : vm.pit.Supported)
    (active : (vm.pit.timer 0).active ≠ 0) {elapsed : Nat}
    (short : elapsed < (vm.pit.timer 0).counter.toNat) :
    ∃ now : Vm, clocks elapsed vm = .ok () now ∧ now.pit.Supported ∧
      now.pit.timer 0 = { vm.pit.timer 0 with
        counter := (vm.pit.timer 0).counter - BitVec.ofNat 32 elapsed } := by
  induction elapsed with
  | zero => exact ⟨vm, rfl, supported, by simp⟩
  | succ elapsed inductionHypothesis =>
      obtain ⟨now, passed, modes, timer⟩ := inductionHypothesis (by omega)
      have counting : (now.pit.timer 0).active ≠ 0 := by rw [timer]; exact active
      have less : 1 < (now.pit.timer 0).counter := by
        rw [timer]
        bv_omega
      have expired := (now.pit.timer 0).expire_counting counting less
      refine ⟨now.expireClocks 1, ?_, modes.expireClocks 1, ?_⟩
      · exact bind_ok.mpr ⟨(), now, passed, pitExpireClocks_apply modes 1⟩
      · rw [Vm.expireClocks_timer, expired, timer]
        have further : (vm.pit.timer 0).counter - BitVec.ofNat 32 elapsed - 1 =
            (vm.pit.timer 0).counter - BitVec.ofNat 32 (elapsed + 1) := by
          rw [BitVec.sub_sub, BitVec.ofNat_add]
          rfl
        rw [further]

/-- A timer that counts ticks when its count is over. -/
theorem ticksAt_counter {vm : Vm} (supported : vm.pit.Supported)
    (active : (vm.pit.timer 0).active ≠ 0) : TicksAt vm (vm.pit.timer 0).counter.toNat := by
  intro elapsed short
  obtain ⟨now, passed, modes, timer⟩ := clocks_counting supported active short
  refine ⟨now, passed, ?_⟩
  rw [ticks_iff modes]
  have counting : (now.pit.timer 0).active ≠ 0 := by rw [timer]; exact active
  have left : (now.pit.timer 0).counter.toNat = (vm.pit.timer 0).counter.toNat - elapsed := by
    rw [timer]
    bv_omega
  by_cases less : 1 < (now.pit.timer 0).counter
  · rw [(now.pit.timer 0).expire_counting counting less]
    have more := BitVec.lt_def.mp less
    have one : (1 : Bit32u).toNat = 1 := rfl
    exact ⟨fun no => Bool.noConfusion no, fun last => by omega⟩
  · have late := BitVec.not_lt.mp less
    have last := BitVec.le_def.mp late
    have ticks : ((now.pit.timer 0).expire 1).2 = true := by
      rcases modes 0 with timeout | rate
      · rw [(now.pit.timer 0).expire_timeout counting late timeout]
      · rw [(now.pit.timer 0).expire_rate counting late rate]
    simp at last
    refine ⟨fun _ => by omega, fun _ => ticks⟩

/-- Both bytes of a count, written after a control word. A timer that stood still
counts from there. -/
theorem pitOutp_count {vm : Vm} (others : ∀ pitID, pitID ≠ 0 → (vm.pit.timer pitID).Supported)
    (gate : (vm.pit.timer 0).gate ≠ 0) {mode : Bit32u} (known : mode = 0 ∨ mode = 2)
    {low high : BitVec 8} (legal : mode = 2 → countOf low high ≠ 1) :
    ∃ half loaded : Vm, pitOutp 0x40 (low.setWidth 32)
        (vm.withTimer 0 ((vm.pit.timer 0).control mode 0)) = .ok () half ∧
      pitOutp 0x40 (high.setWidth 32) half = .ok () loaded ∧ loaded.pit.Supported ∧
      ((vm.pit.timer 0).active = 0 →
        (loaded.pit.timer 0).counter = countOf low high ∧ (loaded.pit.timer 0).active = 1) := by
  let controlled := vm.withTimer 0 ((vm.pit.timer 0).control mode 0)
  obtain ⟨half, isHalf⟩ : ∃ half, half = controlled.withTimer 0
      { (vm.pit.timer 0).control mode 0 with
        inputLatchValue := low.setWidth 32, inputLatchToggle := 1 } := ⟨_, rfl⟩
  have first : pitOutp 0x40 (low.setWidth 32) controlled = .ok () half := by
    rw [isHalf]
    exact pitOutp_lowByte rfl rfl _
  have timerHalf : half.pit.timer 0 = { (vm.pit.timer 0).control mode 0 with
      inputLatchValue := low.setWidth 32, inputLatchToggle := 1 } := by
    rw [isHalf]
    rfl
  have supportedHalf : (half.pit.timer 0).Supported := by
    rw [timerHalf]
    exact known
  have whole : (half.pit.timer 0).inputLatchValue ||| (high.setWidth 32 <<< 8) = countOf low high := by
    rw [timerHalf]
    rfl
  obtain ⟨loaded, timer, second, sameMode, sameGate, sameActive, max, started, kept⟩ :=
    pitOutp_highByte (by rw [timerHalf]; rfl) (by rw [timerHalf]) whole supportedHalf
      (by rw [timerHalf]; exact legal)
  rw [timerHalf] at sameMode sameGate sameActive
  refine ⟨half, loaded, first, second, fun pitID => ?_, fun idle => ?_⟩
  · by_cases here : pitID = 0
    · subst here
      rw [started, PitTimer.Supported]
      split
      · next timeout => exact .inl timeout
      · rw [PitTimer.startRate_mode, sameMode]
        exact known
    · rw [kept pitID here, isHalf]
      simpa [controlled, here] using others pitID here
  · rw [started]
    split
    · exact ⟨max, rfl⟩
    · have ready : timer.gate ≠ 0 ∧ timer.active = 0 := by
        rw [sameGate, sameActive]
        exact ⟨gate, idle⟩
      rw [PitTimer.startRate, if_pos ready]
      exact ⟨max, rfl⟩

/-- A timer in a supported mode stands still only when it is not active. -/
theorem PitTimer.Stopped.idle {timer : PitTimer} (stopped : timer.Stopped)
    (supported : timer.Supported) : timer.active = 0 := by
  by_contra running
  have still := stopped timer.counter
  rcases supported with timeout | rate
  · rw [timer.expire_timeout running (BitVec.le_refl _) timeout] at still
    exact absurd (congrArg Prod.snd still) (by simp)
  · rw [timer.expire_rate running (BitVec.le_refl _) rate] at still
    exact absurd (congrArg Prod.snd still) (by simp)

/-- A timer that starts from a count of 0 ticks at once. -/
theorem ticks_of_zero {vm : Vm} (supported : vm.pit.Supported)
    (running : (vm.pit.timer 0).active ≠ 0) (zero : (vm.pit.timer 0).counter = 0) : Ticks vm := by
  have enough : (vm.pit.timer 0).counter ≤ 1 := by rw [zero]; decide
  rw [ticks_iff supported]
  rcases supported 0 with timeout | rate
  · rw [(vm.pit.timer 0).expire_timeout running enough timeout]
  · rw [(vm.pit.timer 0).expire_rate running enough rate]

/-- The programming has the effect that is expected of it exactly when timer 0
stood still before, and the count is not 0. -/
theorem reprograms_iff {vm : Vm} (others : ∀ pitID, pitID ≠ 0 → (vm.pit.timer pitID).Supported)
    (gate : (vm.pit.timer 0).gate ≠ 0) {word mode : Bit32u} (control : ControlWord word mode)
    {low high : BitVec 8} (legal : mode = 2 → countOf low high ≠ 1) :
    Reprograms vm word low high ↔ (vm.pit.timer 0).active = 0 ∧ countOf low high ≠ 0 := by
  have known : mode = 0 ∨ mode = 2 := by
    cases control with
    | timeout => exact .inl rfl
    | rate => exact .inr rfl
  have written := pitOutp_control control vm
  obtain ⟨half, loaded, first, second, supported, counts⟩ :=
    pitOutp_count others gate known legal
  constructor
  · rintro ⟨_, _, _, wrote, wroteLow, wroteHigh, stopped, ticks⟩
    cases written.symm.trans wrote
    cases first.symm.trans wroteLow
    cases second.symm.trans wroteHigh
    have idle : (vm.pit.timer 0).active = 0 := stopped.idle known
    refine ⟨idle, fun zero => ?_⟩
    obtain ⟨counter, active⟩ := counts idle
    have running : (loaded.pit.timer 0).active ≠ 0 := by rw [active]; decide
    rw [zero] at counter ticks
    obtain ⟨now, passed, exactly⟩ := ticks 0 (by decide)
    cases passed
    exact absurd (exactly.mp (ticks_of_zero supported running counter)) (by decide)
  · rintro ⟨idle, positive⟩
    obtain ⟨counter, active⟩ := counts idle
    have running : (loaded.pit.timer 0).active ≠ 0 := by rw [active]; decide
    have period : periodOf (countOf low high) = (loaded.pit.timer 0).counter.toNat := by
      rw [periodOf, if_neg positive, counter]
    refine ⟨_, _, _, written, first, second, fun pitClocks => ?_, ?_⟩
    · exact PitTimer.expire_idle _ idle
    · rw [period]
      exact ticksAt_counter supported running

/-- Timer 0 of a machine at reset is loaded with the bytes 3 and 0. -/
theorem reprograms_iff_sample :
    Reprograms (hostInitLinuxIOEnvironment { setup := Sample.setup }) 0x34 3 0 :=
  (reprograms_iff (fun _ _ => .inl rfl) (by decide) .rate (by decide)).mpr (by decide)

/-- A rate generator that is counting goes on with its old count. -/
theorem reprograms_counting : ¬ Reprograms
    ((hostInitLinuxIOEnvironment { setup := Sample.setup }).withTimer 0
      { mode := 2, counterMax := 10, counter := 10, active := 1, gate := 1 }) 0x34 3 0 := by
  rintro ⟨controlled, _, _, wrote, _, _, stopped, _⟩
  cases wrote
  have still := stopped 10
  exact absurd (congrArg Prod.snd still) (by decide)

/-- Where line 0 can be served, its request raises INTR. -/
theorem expireClocks_raises {vm : Vm} (sound : IoSound vm) (free : vm.picMaster.isr = 0)
    (unmasked : vm.picMaster.imr.getLsbD 0 = false)
    (expired : ((vm.pit.timer 0).expire 1).2 = true) : (vm.expireClocks 1).intr = 1 := by
  have next := sound.pic.step (vm.expireClocks_master 1)
  have master : (vm.expireClocks 1).picMaster = (vm.picMaster.request (irqBit 0)).1 := by
    rw [Vm.expireClocks, expired]
    rfl
  have requested : (vm.expireClocks 1).picMaster.irr.getLsbD 0 = true := by
    rw [master, Pic.request]
    split
    · next there =>
      by_contra absent
      exact there ((and_lineBit_eq_zero (by decide) _).mpr (by simpa using absent))
    · simp [irqBit]
  have same : (vm.expireClocks 1).picMaster.isr = vm.picMaster.isr ∧
      (vm.expireClocks 1).picMaster.imr = vm.picMaster.imr := by
    rw [master, Pic.request]
    split <;> exact ⟨rfl, rfl⟩
  refine next.raised (same.1.trans free) fun nothing => ?_
  have pending := unmasked_getLsbD (vm.expireClocks 1).picMaster (by decide : 0 < 32)
  rw [nothing, requested, same.2, unmasked] at pending
  exact absurd pending (by decide)

/-- One clock that does not end the count leaves the controller alone. -/
theorem expireClocks_quiet {vm : Vm} (quiet : ((vm.pit.timer 0).expire 1).2 = false) :
    (vm.expireClocks 1).picMaster = vm.picMaster ∧ (vm.expireClocks 1).intr = vm.intr := by
  rw [Vm.expireClocks, quiet]
  exact ⟨rfl, rfl⟩

theorem IoSound.expireClocks {vm : Vm} (sound : IoSound vm) (pitClocks : Bit32u) :
    IoSound (vm.expireClocks pitClocks) := by
  have step : IoStep vm (.expireClocks pitClocks) (vm.expireClocks pitClocks) :=
    ⟨none, bind_ok.mpr ⟨(), _, pitExpireClocks_apply sound.timers pitClocks, rfl⟩⟩
  exact sound.step step

/-- Once INTR is high, the loop ends. -/
theorem hltLoop_raised {vm : Vm} (raised : vm.intr = 1) (iterations : Nat) :
    hltLoop iterations vm = .ok true vm := by
  have high : vm.intr ≠ 0 := by rw [raised]; decide
  cases iterations with
  | zero => rw [hltLoop, get_bind_apply, pure_apply, decide_eq_true high]
  | succ iterations => rw [hltLoop, get_bind_apply, if_pos high, pure_apply]

/-- One iteration of the loop either ends the wait or the count is one less. -/
theorem hltLoop_iterate {vm : Vm} (sound : IoSound vm) (free : vm.picMaster.isr = 0)
    (unmasked : vm.picMaster.imr.getLsbD 0 = false) (active : (vm.pit.timer 0).active ≠ 0)
    (low : vm.intr = 0) (iterations : Nat) :
    (∃ next, hltLoop (iterations + 1) vm = .ok true next ∧ next.intr = 1) ∨
      (1 < (vm.pit.timer 0).counter ∧
        hltLoop (iterations + 1) vm = hltLoop iterations (vm.expireClocks 1) ∧
        (vm.expireClocks 1).picMaster = vm.picMaster ∧
        (vm.expireClocks 1).pit.timer 0 =
          { vm.pit.timer 0 with counter := (vm.pit.timer 0).counter - 1 }) := by
  have iterated : hltLoop (iterations + 1) vm = hltLoop iterations (vm.expireClocks 1) := by
    rw [hltLoop, get_bind_apply, if_neg (not_not.mpr low), bind_apply,
      pitExpireClocks_apply sound.timers]
  by_cases less : 1 < (vm.pit.timer 0).counter
  · have counting := (vm.pit.timer 0).expire_counting active less
    have quiet : ((vm.pit.timer 0).expire 1).2 = false := by rw [counting]
    refine .inr ⟨less, iterated, (expireClocks_quiet quiet).1, ?_⟩
    rw [Vm.expireClocks_timer, counting]
  · have late := BitVec.not_lt.mp less
    have expired : ((vm.pit.timer 0).expire 1).2 = true := by
      rcases sound.timers 0 with timeout | rate
      · rw [(vm.pit.timer 0).expire_timeout active late timeout]
      · rw [(vm.pit.timer 0).expire_rate active late rate]
    have raised := expireClocks_raises sound free unmasked expired
    exact .inl ⟨_, iterated.trans (hltLoop_raised raised iterations), raised⟩

private theorem hltLoop_ends {vm : Vm} (sound : IoSound vm) (free : vm.picMaster.isr = 0)
    (unmasked : vm.picMaster.imr.getLsbD 0 = false) (active : (vm.pit.timer 0).active ≠ 0)
    {iterations : Nat} (enough : (vm.pit.timer 0).counter.toNat ≤ iterations + 1) :
    ∃ next, hltLoop (iterations + 1) vm = .ok true next ∧ next.intr = 1 := by
  induction iterations generalizing vm with
  | zero =>
      rcases sound.intr with low | raised
      · rcases hltLoop_iterate sound free unmasked active low 0 with ended | ⟨less, -⟩
        · exact ended
        · have more := BitVec.lt_def.mp less
          have one : (1 : Bit32u).toNat = 1 := rfl
          omega
      · exact ⟨vm, hltLoop_raised raised _, raised⟩
  | succ iterations inductionHypothesis =>
      rcases sound.intr with low | raised
      · rcases hltLoop_iterate sound free unmasked active low (iterations + 1) with
          ended | ⟨less, iterated, master, timer⟩
        · exact ended
        · rw [iterated]
          refine inductionHypothesis (sound.expireClocks 1) ?_ ?_ ?_ ?_
          · rw [master]
            exact free
          · rw [master]
            exact unmasked
          · rw [timer]
            exact active
          · rw [timer]
            have fewer := BitVec.toNat_sub_of_le (BitVec.le_of_lt less)
            have one : (1 : Bit32u).toNat = 1 := rfl
            simp only [fewer, one]
            omega
      · exact ⟨vm, hltLoop_raised raised _, raised⟩

/-- With line 0 ready to be served and timer 0 counting, HLT waits no longer than
the timer's count. -/
theorem hlt_ends {past : List (Moment Vm IoOp)} {vm : Vm} (run : Run PicIdle IoStep past vm)
    (free : vm.picMaster.isr = 0) (unmasked : vm.picMaster.imr.getLsbD 0 = false)
    (active : (vm.pit.timer 0).active ≠ 0) :
    ∃ next, hltLoop (max 1 (vm.pit.timer 0).counter.toNat) vm = .ok true next ∧
      next.intr = 1 := by
  have atLeast : ∃ iterations, max 1 (vm.pit.timer 0).counter.toNat = iterations + 1 :=
    ⟨_, (Nat.sub_add_cancel (Nat.le_max_left ..)).symm⟩
  obtain ⟨iterations, same⟩ := atLeast
  rw [same]
  exact hltLoop_ends (ioRun_sound run) free unmasked active (by omega)

/-- Line 0 is unmasked, and timer 0 counts ten clocks. -/
theorem hlt_ends_sample : ∃ past vm next, Run PicIdle IoStep past vm ∧
    (vm.pit.timer 0).counter = 10 ∧ hltLoop 10 vm = .ok true next ∧ next.intr = 1 := by
  let check (played : List (Moment Vm IoOp) × Vm) : Bool :=
    (played.2.pit.timer 0).counter = 10 && (played.2.pit.timer 0).active ≠ 0 &&
      played.2.picMaster.isr = 0 && !played.2.picMaster.imr.getLsbD 0
  have checked : (playback ioNext [] (hostInitLinuxIOEnvironment { setup := Sample.setup })
      (.pic (.outp 0x21 0xfe) :: rateOfTen)).any check = true := by decide +kernel
  have idle : PicIdle (hostInitLinuxIOEnvironment { setup := Sample.setup }) := ⟨_, rfl, rfl⟩
  obtain ⟨past, vm, run, found⟩ := playback_reaches ioNext_step idle checked
  simp only [check, Bool.and_eq_true, decide_eq_true_eq, Bool.not_eq_true'] at found
  obtain ⟨⟨⟨counter, active⟩, free⟩, unmasked⟩ := found
  obtain ⟨next, ended, raised⟩ := hlt_ends run free unmasked active
  rw [counter] at ended
  exact ⟨past, vm, next, run, counter, ended, raised⟩

end Plex86
