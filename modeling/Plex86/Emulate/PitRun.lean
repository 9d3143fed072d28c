import Plex86.Emulate.PicRun
import Plex86.Paging.Settled

namespace Plex86

open Logic

/-- The only modes that are supported. -/
def PitTimer.Supported (timer : PitTimer) : Prop := timer.mode = 0 ∨ timer.mode = 2

/-- Every timer is in a supported mode. -/
def Pit.Supported (pit : Pit) : Prop := ∀ pitID, (pit.timer pitID).Supported

namespace Pit

@[simp] theorem setTimer_timer (pit : Pit) (pitID other : Fin 3) (timer : PitTimer) :
    (pit.setTimer pitID timer).timer other = if other = pitID then timer else pit.timer other := by
  simp [setTimer, Function.update_apply]

theorem Supported.setTimer {pit : Pit} (supported : pit.Supported) (pitID : Fin 3)
    {timer : PitTimer} (fresh : timer.Supported) : (pit.setTimer pitID timer).Supported := by
  intro other
  rw [setTimer_timer]
  split
  · exact fresh
  · exact supported other

theorem Supported.polled {pit : Pit} (supported : pit.Supported) : pit.polled.Supported := by
  unfold Pit.polled
  intro pitID
  dsimp only
  have counted (clock counter : Bit32u) : Supported { pit with
      refreshClockDiv2 := clock, bogusCounter := counter } := supported
  split
  · refine (counted _ _).setTimer 2 ?_ pitID
    exact supported 2
  · exact supported pitID

end Pit

def Vm.withTimer (vm : Vm) (pitID : Fin 3) (timer : PitTimer) : Vm :=
  { vm with pit := vm.pit.setTimer pitID timer }

/-- The timers after clocks have passed, and the interrupt that timer 0 requests. -/
def Vm.expireClocks (vm : Vm) (pitClocks : Bit32u) : Vm :=
  let raised := if ((vm.pit.timer 0).expire pitClocks).2 then vm.irqMaster 0 else vm
  { raised with
    pit := { vm.pit with timer := fun pitID => ((vm.pit.timer pitID).expire pitClocks).1 } }

@[simp] theorem Vm.expireClocks_timer (vm : Vm) (pitClocks : Bit32u) (pitID : Fin 3) :
    (vm.expireClocks pitClocks).pit.timer pitID = ((vm.pit.timer pitID).expire pitClocks).1 := rfl

namespace PitTimer

private theorem expire_mode (timer : PitTimer) (pitClocks : Bit32u) :
    (timer.expire pitClocks).1.mode = timer.mode := by
  unfold expire
  split
  · rfl
  split
  · rfl
  split
  · rfl
  split <;> rfl

theorem Supported.expire {timer : PitTimer} (supported : timer.Supported) (pitClocks : Bit32u) :
    (timer.expire pitClocks).1.Supported := by
  rw [PitTimer.Supported, expire_mode]
  exact supported

end PitTimer

theorem Pit.Supported.expireClocks {vm : Vm} (supported : vm.pit.Supported) (pitClocks : Bit32u) :
    (vm.expireClocks pitClocks).pit.Supported :=
  fun pitID => (supported pitID).expire pitClocks

namespace PitTimer

variable (timer : PitTimer) {pitClocks : Bit32u}

theorem expire_idle (idle : timer.active = 0) : timer.expire pitClocks = (timer, false) := by
  rw [expire, if_pos idle]

theorem expire_counting (active : timer.active ≠ 0) (less : pitClocks < timer.counter) :
    timer.expire pitClocks = ({ timer with counter := timer.counter - pitClocks }, false) := by
  rw [expire, if_neg active, if_pos less]

theorem expire_timeout (active : timer.active ≠ 0) (enough : timer.counter ≤ pitClocks)
    (timeout : timer.mode = 0) :
    timer.expire pitClocks = ({ timer with counter := 0, active := 0 }, true) := by
  rw [expire, if_neg active, if_neg (BitVec.not_lt.mpr enough), if_pos timeout]

theorem expire_rate (active : timer.active ≠ 0) (enough : timer.counter ≤ pitClocks)
    (rate : timer.mode = 2) :
    timer.expire pitClocks = ({ timer with counter := timer.counterMax }, true) := by
  have other : timer.mode ≠ 0 := by rw [rate]; decide
  rw [expire, if_neg active, if_neg (BitVec.not_lt.mpr enough), if_neg other, if_pos rate]

/-- Two timers show the same count, and both count or neither does. -/
structure SameCount (first second : PitTimer) : Prop where
  counter : first.counter = second.counter
  active : first.active = second.active

/-- A count of 0 stands for 65536, as it does in the frequency that is printed. -/
def ofCount (count : Bit32u) : Nat := if count = 0 then 65536 else count.toNat

/-- The count that is due of a rate generator: every clock takes one off it, and
the last one of a period begins the next. -/
def due : Nat → Nat
  | 0 => ofCount timer.counter
  | clocks + 1 => if due clocks = 1 then ofCount timer.counterMax else due clocks - 1

/-- Where it was a rate generator, the timer shows the count that is due after the clocks. -/
def InPhase (clocks : Nat) (later : PitTimer) : Prop :=
  timer.active ≠ 0 → timer.mode = 2 → ofCount later.counter = timer.due clocks

/-- The clocks come out where a period begins: with one period more they are what
was left of the count and a whole number of periods. -/
def BeginsPeriod (clocks : Nat) : Prop :=
  ofCount timer.counter ≤ clocks + ofCount timer.counterMax ∧
    ofCount timer.counterMax ∣ clocks + ofCount timer.counterMax - ofCount timer.counter

instance (clocks : Nat) : Decidable (timer.BeginsPeriod clocks) :=
  inferInstanceAs (Decidable (_ ∧ _))

/-- The second slice has no part of a period to count that the first one ends. -/
def SlicesMeet (first second : Bit32u) : Prop :=
  first < timer.counter ∨ second = 0 ∨ timer.counterMax ≤ second

instance (first second : Bit32u) : Decidable (timer.SlicesMeet first second) :=
  inferInstanceAs (Decidable (_ ∨ _))

/-- For a rate generator, the slices meet, and together they are short of its count
or come out where a period begins. -/
def SlicesAlign (first second : Bit32u) : Prop :=
  timer.active = 0 ∨ timer.mode = 0 ∨ timer.SlicesMeet first second ∧
    (first.toNat + second.toNat < timer.counter.toNat ∨
      timer.BeginsPeriod (first.toNat + second.toNat))

instance (first second : Bit32u) : Decidable (timer.SlicesAlign first second) :=
  inferInstanceAs (Decidable (_ ∨ _))

private theorem ofCount_pos (count : Bit32u) : 0 < ofCount count := by
  unfold ofCount
  split
  · decide
  · bv_omega

private theorem ofCount_of_lt {count : Bit32u} {clocks : Nat} (less : clocks < count.toNat) :
    ofCount count = count.toNat := by
  have some : count ≠ 0 := by
    intro none
    rw [none] at less
    exact absurd less (Nat.not_lt_zero _)
  rw [ofCount, if_neg some]

/-- Until the end of the count it goes down with the clocks. -/
theorem due_before {clocks : Nat} (before : clocks < ofCount timer.counter) :
    timer.due clocks = ofCount timer.counter - clocks := by
  induction clocks with
  | zero => rfl
  | succ clocks inductionHypothesis =>
      have earlier := inductionHypothesis (Nat.lt_of_succ_lt before)
      have more : timer.due clocks ≠ 1 := by omega
      rw [due, if_neg more, earlier, Nat.sub_sub]

/-- From then on it goes round with the period. -/
theorem due_after (clocks : Nat) : timer.due (ofCount timer.counter + clocks) =
    ofCount timer.counterMax - clocks % ofCount timer.counterMax := by
  have left := ofCount_pos timer.counter
  have period := ofCount_pos timer.counterMax
  induction clocks with
  | zero =>
      obtain ⟨earlier, last⟩ := Nat.exists_eq_succ_of_ne_zero left.ne'
      have ending := timer.due_before (by rw [last]; exact Nat.lt_succ_self earlier)
      rw [last, Nat.succ_sub (Nat.le_refl _), Nat.sub_self] at ending
      rw [last, Nat.add_zero, due, if_pos ending, Nat.zero_mod, Nat.sub_zero]
  | succ clocks inductionHypothesis =>
      have within := Nat.mod_lt clocks period
      have step : timer.due (ofCount timer.counter + (clocks + 1)) =
          if clocks % ofCount timer.counterMax + 1 = ofCount timer.counterMax
          then ofCount timer.counterMax
          else ofCount timer.counterMax - (clocks % ofCount timer.counterMax + 1) := by
        rw [← Nat.add_assoc, due, inductionHypothesis]
        split <;> split <;> omega
      rw [step, ← Nat.mod_add_mod clocks]
      split
      case isTrue around => rw [around, Nat.mod_self, Nat.sub_zero]
      case isFalse more =>
        have short : clocks % ofCount timer.counterMax + 1 < ofCount timer.counterMax := by omega
        rw [Nat.mod_eq_of_lt short]

/-- The count that is due is a whole period just where one begins. -/
theorem due_period {clocks : Nat} :
    timer.due clocks = ofCount timer.counterMax ↔ timer.BeginsPeriod clocks := by
  have left := ofCount_pos timer.counter
  have period := ofCount_pos timer.counterMax
  rcases Nat.lt_or_ge clocks (ofCount timer.counter) with before | after
  · rw [timer.due_before before]
    constructor
    · intro whole
      have none : clocks + ofCount timer.counterMax - ofCount timer.counter = 0 := by omega
      refine ⟨by omega, ?_⟩
      rw [none]
      exact Nat.dvd_zero _
    · rintro ⟨enough, whole⟩
      have none := Nat.eq_zero_of_dvd_of_lt whole (by omega)
      omega
  · obtain ⟨beyond, rfl⟩ := Nat.exists_eq_add_of_le after
    have shift : ofCount timer.counter + beyond + ofCount timer.counterMax -
        ofCount timer.counter = beyond + ofCount timer.counterMax := by omega
    have within := Nat.mod_lt beyond period
    rw [due_after, BeginsPeriod, shift, Nat.dvd_add_self_right, Nat.dvd_iff_mod_eq_zero]
    constructor
    · intro whole
      exact ⟨by omega, by omega⟩
    · rintro ⟨-, round⟩
      rw [round, Nat.sub_zero]

variable {timer}

/-- Before the end of its count, a timer does not mind how time is sliced. -/
theorem expire_split {first second : Bit32u} (supported : timer.Supported)
    (active : timer.active ≠ 0) (less : first < timer.counter)
    (fits : first.toNat + second.toNat < 2 ^ 32) :
    SameCount ((timer.expire first).1.expire second).1 (timer.expire (first + second)).1 := by
  rw [expire_counting _ active less]
  let counted : PitTimer := { timer with counter := timer.counter - first }
  have sum : (first + second).toNat = first.toNat + second.toNat := by
    rw [BitVec.toNat_add, Nat.mod_eq_of_lt fits]
  have left : (timer.counter - first).toNat = timer.counter.toNat - first.toNat :=
    BitVec.toNat_sub_of_le (BitVec.le_of_lt less)
  have below := BitVec.lt_def.mp less
  by_cases short : first + second < timer.counter
  · have within := BitVec.lt_def.mp short
    have still : second < timer.counter - first := by
      rw [BitVec.lt_def]
      omega
    rw [expire_counting _ active short, expire_counting counted active still]
    exact ⟨BitVec.sub_sub .., rfl⟩
  · have enough := BitVec.not_lt.mp short
    have beyond := BitVec.le_def.mp enough
    have late : timer.counter - first ≤ second := by
      rw [BitVec.le_def]
      omega
    rcases supported with timeout | rate
    · rw [expire_timeout _ active enough timeout, expire_timeout counted active late timeout]
      exact ⟨rfl, rfl⟩
    · rw [expire_rate _ active enough rate, expire_rate counted active late rate]
      exact ⟨rfl, rfl⟩

/-- Two slices come to the same as one exactly when they meet. -/
theorem expire_slices {first second : Bit32u} (supported : timer.Supported)
    (fits : first.toNat + second.toNat < 2 ^ 32) :
    SameCount ((timer.expire first).1.expire second).1 (timer.expire (first + second)).1 ↔
      timer.active = 0 ∨ timer.mode = 0 ∨ timer.SlicesMeet first second := by
  by_cases idle : timer.active = 0
  · rw [expire_idle _ idle, expire_idle _ idle, expire_idle _ idle]
    exact ⟨fun _ => .inl idle, fun _ => ⟨rfl, rfl⟩⟩
  by_cases less : first < timer.counter
  · exact ⟨fun _ => .inr (.inr (.inl less)), fun _ => expire_split supported idle less fits⟩
  have enough := BitVec.not_lt.mp less
  have sum : (first + second).toNat = first.toNat + second.toNat := by
    rw [BitVec.toNat_add, Nat.mod_eq_of_lt fits]
  have all : timer.counter ≤ first + second := by
    rw [BitVec.le_def, sum]
    exact Nat.le_add_right_of_le (BitVec.le_def.mp enough)
  rcases supported with timeout | rate
  · rw [expire_timeout _ idle enough timeout, expire_timeout _ idle all timeout, expire_idle _ rfl]
    exact ⟨fun _ => .inr (.inl timeout), fun _ => ⟨rfl, rfl⟩⟩
  · rw [expire_rate _ idle enough rate, expire_rate _ idle all rate]
    let reloaded : PitTimer := { timer with counter := timer.counterMax }
    have other : timer.mode ≠ 0 := by rw [rate]; decide
    by_cases again : timer.counterMax ≤ second
    · rw [expire_rate reloaded idle again rate]
      exact ⟨fun _ => .inr (.inr (.inr (.inr again))), fun _ => ⟨rfl, rfl⟩⟩
    · have early := BitVec.not_le.mp again
      rw [expire_counting reloaded idle early]
      constructor
      · intro same
        have unmoved : timer.counterMax - second = timer.counterMax := same.counter
        exact .inr (.inr (.inr (.inl (by bv_omega))))
      · rintro (never | never | never | none | never)
        · exact absurd never idle
        · exact absurd never other
        · exact absurd never less
        · exact ⟨by rw [none]; exact BitVec.sub_zero _, rfl⟩
        · exact absurd never again

/-- Clocks in one slice leave a rate generator with the count that is due when they
are short of its count or come out where a period begins. -/
theorem expire_inPhase {clocks : Bit32u} (active : timer.active ≠ 0) (rate : timer.mode = 2) :
    ofCount (timer.expire clocks).1.counter = timer.due clocks.toNat ↔
      clocks.toNat < timer.counter.toNat ∨ timer.BeginsPeriod clocks.toNat := by
  by_cases less : clocks < timer.counter
  · have short := BitVec.lt_def.mp less
    have left := ofCount_of_lt short
    have still : (timer.counter - clocks).toNat = timer.counter.toNat - clocks.toNat :=
      BitVec.toNat_sub_of_le (BitVec.le_of_lt less)
    have some : 0 < (timer.counter - clocks).toNat := by omega
    rw [expire_counting _ active less, timer.due_before (by omega), ofCount_of_lt some, left, still]
    exact ⟨fun _ => .inl short, fun _ => rfl⟩
  · have enough := BitVec.not_lt.mp less
    have beyond := Nat.not_lt.mpr (BitVec.le_def.mp enough)
    rw [expire_rate _ active enough rate, eq_comm, due_period]
    exact ⟨.inr, fun begins => begins.resolve_left beyond⟩

/-- What two slices leave of a timer is what one leaves and is in phase, exactly when they align. -/
theorem expire_aligned {first second : Bit32u} (supported : timer.Supported)
    (fits : first.toNat + second.toNat < 2 ^ 32) :
    SameCount ((timer.expire first).1.expire second).1 (timer.expire (first + second)).1 ∧
        timer.InPhase (first.toNat + second.toNat) ((timer.expire first).1.expire second).1 ↔
      timer.SlicesAlign first second := by
  have sum : (first + second).toNat = first.toNat + second.toNat := by
    rw [BitVec.toNat_add, Nat.mod_eq_of_lt fits]
  rw [expire_slices supported fits]
  by_cases idle : timer.active = 0
  · exact ⟨fun _ => .inl idle, fun _ => ⟨.inl idle, fun active => absurd idle active⟩⟩
  rcases supported with timeout | rate
  · have other : timer.mode ≠ 2 := by rw [timeout]; decide
    constructor
    · intro _
      exact .inr (.inl timeout)
    · intro _
      exact ⟨.inr (.inl timeout), fun _ rate => absurd rate other⟩
  · have other : timer.mode ≠ 0 := by rw [rate]; decide
    have whole : ofCount (timer.expire (first + second)).1.counter =
        timer.due (first + second).toNat ↔ _ := expire_inPhase idle rate
    rw [sum] at whole
    have same (meet : timer.SlicesMeet first second) :=
      ((expire_slices (.inr rate) fits).mpr (.inr (.inr meet))).counter
    constructor
    · rintro ⟨never | never | meet, phase⟩
      · exact absurd never idle
      · exact absurd never other
      · have due := phase idle rate
        rw [same meet] at due
        exact .inr (.inr ⟨meet, whole.mp due⟩)
    · rintro (never | never | ⟨meet, due⟩)
      · exact absurd never idle
      · exact absurd never other
      · refine ⟨.inr (.inr meet), fun _ _ => ?_⟩
        rw [same meet]
        exact whole.mpr due

end PitTimer

/-- One round of the loop over the timers, for a timer in a supported mode. -/
theorem pitExpireTimer_apply {vm : Vm} {pitID : Fin 3}
    (supported : (vm.pit.timer pitID).Supported) (pitClocks : Bit32u) :
    pitExpireTimer pitClocks pitID vm =
      .ok () (if ((vm.pit.timer pitID).expire pitClocks).2 = true ∧ pitID = 0 then
        (vm.withTimer pitID ((vm.pit.timer pitID).expire pitClocks).1).irqMaster 0
      else vm.withTimer pitID ((vm.pit.timer pitID).expire pitClocks).1) := by
  rw [pitExpireTimer, get_bind_apply]
  generalize (vm.pit.timer pitID).expire pitClocks = outcome
  obtain ⟨counted, expired⟩ := outcome
  have quiet : ¬ (expired = true ∧ (vm.pit.timer pitID).mode ≠ 0 ∧
      (vm.pit.timer pitID).mode ≠ 2) := by
    rintro ⟨-, notTimeout, notRate⟩
    exact supported.elim notTimeout notRate
  dsimp only
  rw [panicWhen_bind_apply, if_neg quiet, setTimer, modify_bind_apply, Logic.ite_apply]
  split
  · exact picIrq_zero _
  · rfl

/-- All three timers are set one after another. -/
theorem Pit.setTimer_all (pit : Pit) (timer : Fin 3 → PitTimer) :
    ((pit.setTimer 0 (timer 0)).setTimer 1 (timer 1)).setTimer 2 (timer 2) =
      { pit with timer } := by
  unfold Pit.setTimer
  congr 1
  funext pitID
  match pitID with
  | 0 => rfl
  | 1 => rfl
  | 2 => rfl

/-- In supported modes the clocks never stop the monitor. -/
theorem pitExpireClocks_apply {vm : Vm} (supported : vm.pit.Supported) (pitClocks : Bit32u) :
    pitExpireClocks pitClocks vm = .ok () (vm.expireClocks pitClocks) := by
  have all := vm.pit.setTimer_all fun pitID => ((vm.pit.timer pitID).expire pitClocks).1
  have round (now : Vm) (pitID : Fin 3) (same : now.pit.timer pitID = vm.pit.timer pitID)
      (other : pitID ≠ 0) : pitExpireTimer pitClocks pitID now =
        .ok () (now.withTimer pitID ((vm.pit.timer pitID).expire pitClocks).1) := by
    have here : (now.pit.timer pitID).Supported := by rw [same]; exact supported pitID
    rw [pitExpireTimer_apply here, same]
    simp [other]
  have first := pitExpireTimer_apply (supported 0) pitClocks
  unfold pitExpireClocks Vm.expireClocks
  cases expired : ((vm.pit.timer 0).expire pitClocks).2 with
  | false =>
      rw [expired, if_neg (by simp)] at first
      refine bind_ok.mpr ⟨(), _, first, bind_ok.mpr ⟨(), _, round _ 1 rfl (by decide), ?_⟩⟩
      refine (round _ 2 ?_ (by decide)).trans ?_
      · rfl
      · rw [← all]
        rfl
  | true =>
      rw [expired, if_pos ⟨rfl, rfl⟩] at first
      refine bind_ok.mpr ⟨(), _, first, bind_ok.mpr ⟨(), _, round _ 1 rfl (by decide), ?_⟩⟩
      refine (round _ 2 ?_ (by decide)).trans ?_
      · rfl
      · rw [← all]
        rfl

/-- An operation on the interrupt controllers or on the timers. -/
inductive IoOp
  | pic (op : PicOp)
  | picInp (port : Bit32u)
  | pitInp (port : Bit32u)
  | pitOutp (port val : Bit32u)
  | expireClocks (pitClocks : Bit32u)
deriving DecidableEq

/-- The operation, with the value that a read or an acknowledgement returns. -/
def IoOp.run : IoOp → Mon (Option Bit32u)
  | .pic op => op.run
  | .picInp port => do
      let value ← Plex86.picInp port
      return some value
  | .pitInp port => do
      let value ← Plex86.pitInp port
      return some value
  | .pitOutp port val => do
      Plex86.pitOutp port val
      return none
  | .expireClocks pitClocks => do
      pitExpireClocks pitClocks
      return none

/-- An operation that does not panic. -/
def IoStep (vm : Vm) (op : IoOp) (next : Vm) : Prop := ∃ value, op.run vm = .ok value next

/-- What holds of the controllers and the timers throughout. -/
structure IoSound (vm : Vm) : Prop where
  pic : PicSound vm.picMaster vm.intr
  intr : vm.intr = 0 ∨ vm.intr = 1
  timers : vm.pit.Supported

/-- The master and INTR are what they were, and the timers in supported modes. -/
structure PitPorts (start vm : Vm) : Prop where
  picMaster : vm.picMaster = start.picMaster
  intr : vm.intr = start.intr
  timers : vm.pit.Supported

/-- The code only programs or reads timers. -/
abbrev Programs {Value : Type} (start : Vm) (program : Mon Value) : Prop :=
  Keeps (PitPorts start) (fun _ _ => True) program

section
variable {start : Vm}

private theorem panicWhen_programs {cond : Prop} [Decidable cond] {format : String}
    {args : List Bit32u} :
    Programs start (panicWhen cond format args) :=
  panicWhen_keeps fun _ _ => trivial

private theorem setTimer_programs {pitID : Fin 3} {timer : PitTimer} (fresh : timer.Supported) :
    Programs start (setTimer pitID timer) :=
  .modify fun _ ports => ⟨ports.picMaster, ports.intr, ports.timers.setTimer pitID fresh⟩

private theorem monpanic_programs {Value : Type} {format : String} {args : List Bit32u} :
    Programs start (monpanic format args : Mon Value) :=
  .throw fun _ _ => trivial

@[simp] theorem PitTimer.startRate_mode (timer : PitTimer) : timer.startRate.mode = timer.mode := by
  unfold startRate
  split <;> rfl

@[simp] theorem PitTimer.latchInput_mode (timer : PitTimer) (val : Bit32u) :
    (timer.latchInput val).1.mode = timer.mode := by
  unfold latchInput
  split <;> rfl

private theorem pitOutpCount_programs (pitID : Fin 3) (val : Bit32u) :
    Programs start (pitOutpCount pitID val) := by
  unfold pitOutpCount
  apply Keeps.get_bind
  intro vm ports
  have supported : ((vm.pit.timer pitID).latchInput val).1.Supported := by
    rw [PitTimer.Supported, PitTimer.latchInput_mode]
    exact ports.timers pitID
  apply Keeps.bind panicWhen_programs
  intro _
  generalize (vm.pit.timer pitID).latchInput val = outcome at supported ⊢
  obtain ⟨latched, xferComplete⟩ := outcome
  apply Keeps.bind (setTimer_programs supported)
  intro _
  apply Keeps.ite ?_ fun half => .pure
  intro complete
  -- the transfer leaves the mode as it is
  have transferred : latched.transferred.Supported := supported
  apply Keeps.bind (setTimer_programs transferred)
  intro _
  apply Keeps.ite
  · intro timeout
    exact setTimer_programs transferred
  intro other
  apply Keeps.ite ?_ fun unsupported => monpanic_programs
  intro rate
  apply Keeps.bind panicWhen_programs
  intro _
  apply setTimer_programs
  rw [PitTimer.Supported, PitTimer.startRate_mode]
  exact transferred

private theorem pitOutpCommand_programs (pitID : Fin 3) (rw mode bcd : Bit32u) :
    Programs start (pitOutpCommand pitID rw mode bcd) := by
  apply Keeps.get_bind
  intro vm ports
  apply Keeps.bind panicWhen_programs
  intro _
  apply Keeps.bind panicWhen_programs
  intro _
  apply Keeps.ite
  · intro latch
    apply Keeps.bind panicWhen_programs
    intro _
    exact setTimer_programs (ports.timers pitID)
  · intro program
    apply Keeps.bind panicWhen_programs
    intro _
    apply panicWhen_bind (fun _ _ => trivial)
    intro known
    apply setTimer_programs
    rwa [← not_or, not_not] at known

private theorem pitOutpGate_programs (val : Bit32u) : Programs start (pitOutpGate val) := by
  apply Keeps.bind (.modify fun _ ports => ⟨ports.picMaster, ports.intr, ports.timers⟩)
  intro _
  apply Keeps.get_bind
  intro vm ports
  apply Keeps.ite (fun same => .pure)
  intro changed
  apply Keeps.bind
  · exact setTimer_programs (ports.timers 2)
  · intro _
    exact monpanic_programs

private theorem pitOutpControl_programs (val : Bit32u) : Programs start (pitOutpControl val) := by
  unfold pitOutpControl
  dsimp only
  split
  · exact pitOutpCommand_programs _ _ _ _
  · exact monpanic_programs

theorem pitOutp_programs (port val : Bit32u) : Programs start (pitOutp port val) := by
  apply Keeps.ite (fun timer0 => pitOutpCount_programs 0 val)
  intro _
  apply Keeps.ite (fun timer1 => pitOutpCount_programs 1 val)
  intro _
  apply Keeps.ite (fun timer2 => pitOutpCount_programs 2 val)
  intro _
  apply Keeps.ite (fun control => pitOutpControl_programs val)
  intro _
  apply Keeps.ite (fun gate => pitOutpGate_programs val)
  intro _
  exact monpanic_programs

private theorem pitInpCount_programs : Programs start pitInpCount := by
  apply Keeps.get_bind
  intro vm ports
  have supported := ports.timers 0
  apply Keeps.bind panicWhen_programs
  intro _
  apply Keeps.ite
  · intro lowByte
    exact .bind (setTimer_programs supported) fun _ => .pure
  · intro highByte
    exact .bind (setTimer_programs supported) fun _ => .pure

theorem pitInp_programs (port : Bit32u) : Programs start (pitInp port) := by
  apply Keeps.ite (fun count => pitInpCount_programs)
  intro _
  apply Keeps.ite ?_ fun other => monpanic_programs
  intro speaker
  apply Keeps.bind
  · exact .modify fun _ ports => ⟨ports.picMaster, ports.intr, ports.timers.polled⟩
  · intro _
    exact .get_bind fun _ _ => .pure

/-- An operation on the interrupt controllers leaves the timers alone. -/
theorem PicOp.run_pit (op : PicOp) :
    Keeps (fun vm => vm.pit = start.pit) (fun _ _ => True) op.run :=
  Keeps.hidden (fun _ => op.run_pic) (fun _ => rfl) start.pit

end

/-- INTR is a line: it is low or high. -/
theorem MasterStep.intr_line {pic pic' : Pic} {intr intr' : Bit32u} {op : PicOp}
    (step : MasterStep pic intr op pic' intr') (line : intr = 0 ∨ intr = 1) :
    intr' = 0 ∨ intr' = 1 := by
  have served (after : Pic) {before : Bit32u} (known : before = 0 ∨ before = 1) :
      after.service before = 0 ∨ after.service before = 1 := by
    unfold Pic.service
    split
    · exact known
    split
    · exact known
    · exact .inr rfl
  cases step with
  | unchanged => exact line
  | requested =>
      split
      · exact .inr rfl
      · exact line
  | masked val => exact served _ line
  | ended val bitmask => exact served _ (.inl rfl)
  | initialised val => exact .inl rfl
  | acknowledged => exact .inl rfl

/-- The interrupt that the clocks request is like any other request of line 0. -/
theorem Vm.expireClocks_master (vm : Vm) (pitClocks : Bit32u) :
    MasterStep vm.picMaster vm.intr (.irq 0) (vm.expireClocks pitClocks).picMaster
      (vm.expireClocks pitClocks).intr := by
  unfold Vm.expireClocks
  split
  · have requested := picIrq_step (picIrq_zero vm)
    exact requested
  · exact .unchanged

/-- Each operation keeps the controllers and the timers sound. -/
theorem IoSound.step {vm next : Vm} {op : IoOp} (sound : IoSound vm) (step : IoStep vm op next) :
    IoSound next := by
  obtain ⟨value, run⟩ := step
  have programmed {Value : Type} {program : Mon Value} {result : Value}
      (programs : Programs vm program) (ran : program vm = .ok result next) : IoSound next := by
    have ports := programs.returns ⟨rfl, rfl, sound.timers⟩ ran
    refine ⟨?_, ?_, ports.timers⟩
    · rw [ports.picMaster, ports.intr]
      exact sound.pic
    · rw [ports.intr]
      exact sound.intr
  cases op with
  | pic op =>
      have master := picStep_master ⟨value, run⟩
      have pit := (PicOp.run_pit op).returns rfl run
      exact ⟨sound.pic.step master, master.intr_line sound.intr, by rw [pit]; exact sound.timers⟩
  | picInp port =>
      obtain ⟨mask, middle, looked, rest⟩ := bind_ok.mp run
      cases rest
      refine programmed (.get_bind fun _ _ => ?_) looked
      exact .ite (fun _ => .pure) fun _ => monpanic_programs
  | pitInp port =>
      obtain ⟨count, middle, read, rest⟩ := bind_ok.mp run
      cases rest
      exact programmed (pitInp_programs port) read
  | pitOutp port val =>
      obtain ⟨_, middle, written, rest⟩ := bind_ok.mp run
      cases rest
      exact programmed (pitOutp_programs port val) written
  | expireClocks pitClocks =>
      obtain ⟨_, middle, expired, rest⟩ := bind_ok.mp run
      cases rest
      cases (pitExpireClocks_apply sound.timers pitClocks).symm.trans expired
      have master := vm.expireClocks_master pitClocks
      exact ⟨sound.pic.step master, master.intr_line sound.intr, sound.timers.expireClocks pitClocks⟩

theorem ioRun_sound {past : List (Moment Vm IoOp)} {vm : Vm} (run : Run PicIdle IoStep past vm) :
    IoSound vm := by
  induction run with
  | start idle =>
      obtain ⟨boot, low, rfl⟩ := idle
      exact ⟨PicReset.sound ⟨boot, rfl⟩, .inl low, fun _ => .inl rfl⟩
  | next earlier step inductionHypothesis => exact inductionHypothesis.step step

/-- The operation as a function on states. -/
def ioNext (vm : Vm) (op : IoOp) : Option Vm := leaves op.run vm

theorem ioNext_step (before : Vm) (op : IoOp) (after : Vm) (left : ioNext before op = some after) :
    IoStep before op after := by
  unfold ioNext leaves at left
  cases result : op.run before with
  | ok value next =>
      simp only [result, Option.some.injEq] at left
      exact ⟨value, left ▸ result⟩
  | error stop last => simp [result] at left

/-- Clocks that pass in two slices leave every timer with the count and the
activity that they leave it with in one, and every rate generator in the phase
that the number of clocks gives. -/
def SlicesAgree (vm : Vm) (first second : Bit32u) : Prop :=
  ∃ middle sliced whole, pitExpireClocks first vm = .ok () middle ∧
    pitExpireClocks second middle = .ok () sliced ∧
    pitExpireClocks (first + second) vm = .ok () whole ∧
    ∀ pitID, PitTimer.SameCount (sliced.pit.timer pitID) (whole.pit.timer pitID) ∧
      (vm.pit.timer pitID).InPhase (first.toNat + second.toNat) (sliced.pit.timer pitID)

/-- In every state reached, two slices agree with one and keep the phase exactly
when they align with the period of every timer. -/
theorem slicesAgree_iff {past : List (Moment Vm IoOp)} {vm : Vm} (run : Run PicIdle IoStep past vm)
    {first second : Bit32u} (fits : first.toNat + second.toNat < 2 ^ 32) :
    SlicesAgree vm first second ↔ ∀ pitID, (vm.pit.timer pitID).SlicesAlign first second := by
  have timers := (ioRun_sound run).timers
  have begun := pitExpireClocks_apply timers first
  have ended := pitExpireClocks_apply (timers.expireClocks first) second
  have whole := pitExpireClocks_apply timers (first + second)
  constructor
  · rintro ⟨middle, sliced, once, ran, again, together, same⟩ pitID
    cases begun.symm.trans ran
    cases ended.symm.trans again
    cases whole.symm.trans together
    exact (PitTimer.expire_aligned (timers pitID) fits).mp (same pitID)
  · intro aligned
    refine ⟨_, _, _, begun, ended, whole, fun pitID => ?_⟩
    exact (PitTimer.expire_aligned (timers pitID) fits).mpr (aligned pitID)

/-- Timer 0 is a rate generator with a period of ten clocks. -/
def rateOfTen : List IoOp := [.pitOutp 0x43 0x34, .pitOutp 0x40 10, .pitOutp 0x40 0]

theorem slicesAgree_iff_sample : ∃ past vm, Run PicIdle IoStep past vm ∧
    (vm.pit.timer 0).counter = 10 ∧ (vm.pit.timer 0).mode = 2 ∧
    SlicesAgree vm 4 3 ∧ SlicesAgree vm 15 15 := by
  let aligned (vm : Vm) (first second : Bit32u) : Bool :=
    decide (∀ pitID, (vm.pit.timer pitID).SlicesAlign first second)
  let check (played : List (Moment Vm IoOp) × Vm) : Bool :=
    (played.2.pit.timer 0).counter = 10 && (played.2.pit.timer 0).mode = 2 &&
      (aligned played.2 4 3 && aligned played.2 15 15)
  have checked : (playback ioNext [] (hostInitLinuxIOEnvironment { setup := Sample.setup })
      rateOfTen).any check = true := by decide +kernel
  have idle : PicIdle (hostInitLinuxIOEnvironment { setup := Sample.setup }) := ⟨_, rfl, rfl⟩
  obtain ⟨past, vm, run, found⟩ := playback_reaches ioNext_step idle checked
  simp only [check, aligned, Bool.and_eq_true, decide_eq_true_eq] at found
  obtain ⟨⟨counter, mode⟩, within, around⟩ := found
  refine ⟨past, vm, run, counter, mode, ?_, ?_⟩
  · exact (slicesAgree_iff run (by decide)).mpr within
  · exact (slicesAgree_iff run (by decide)).mpr around

/-- Fifteen clocks and three more leave it at seven, and eighteen at ten: the five
clocks by which the first slice goes beyond the period are lost. -/
theorem slices_drift : ∃ past vm, Run PicIdle IoStep past vm ∧ ¬ SlicesAgree vm 15 3 := by
  let check (played : List (Moment Vm IoOp) × Vm) : Bool :=
    ((((played.2.pit.timer 0).expire 15).1.expire 3).1.counter = 7 : Bool) &&
      (((played.2.pit.timer 0).expire 18).1.counter = 10 : Bool)
  have checked : (playback ioNext [] (hostInitLinuxIOEnvironment { setup := Sample.setup })
      rateOfTen).any check = true := by decide +kernel
  have idle : PicIdle (hostInitLinuxIOEnvironment { setup := Sample.setup }) := ⟨_, rfl, rfl⟩
  obtain ⟨past, vm, run, found⟩ := playback_reaches ioNext_step idle checked
  simp only [check, Bool.and_eq_true, decide_eq_true_eq] at found
  refine ⟨past, vm, run, ?_⟩
  rintro ⟨middle, sliced, whole, ran, again, together, same⟩
  have timers := (ioRun_sound run).timers
  cases (pitExpireClocks_apply timers 15).symm.trans ran
  cases (pitExpireClocks_apply (timers.expireClocks 15) 3).symm.trans again
  cases (pitExpireClocks_apply timers (15 + 3)).symm.trans together
  have counter := (same 0).1.counter
  rw [Vm.expireClocks_timer, Vm.expireClocks_timer, Vm.expireClocks_timer, found.1] at counter
  rw [show (15 + 3 : Bit32u) = 18 from rfl, found.2] at counter
  exact absurd counter (by decide)

end Plex86
