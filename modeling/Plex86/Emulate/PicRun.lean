import Mathlib.Data.List.Basic
import Plex86.Emulate.Io
import Plex86.Host.PinHistory
import Plex86.Logic.Run

namespace Plex86

open Logic

/-- An operation on the interrupt controllers. -/
inductive PicOp
  | irq (irqNum : Bit32u)
  | outp (port val : Bit32u)
  | iac
deriving DecidableEq

namespace PicOp

/-- The operation, with the vector that an acknowledgement returns. -/
def run : PicOp → Mon (Option Bit32u)
  | .irq irqNum => do
      picIrq irqNum
      return none
  | .outp port val => do
      picOutp port val
      return none
  | .iac => do
      let vector ← picIAC
      return some vector

/-- The operation requests an interrupt on a line of the master. The slave's
output is line 2. -/
def Requests (op : PicOp) (line : Nat) : Prop :=
  ∃ irqNum, op = .irq irqNum ∧ (irqNum.toNat = line ∨ (line = 2 ∧ 7 < irqNum.toNat))

/-- The operation is an initialisation command to the master. -/
def Initialises (op : PicOp) : Prop := ∃ val, op = .outp 0x20 val ∧ val &&& 0x10#32 ≠ 0

end PicOp

/-- An operation that does not panic. -/
def PicStep (vm : Vm) (op : PicOp) (next : Vm) : Prop := ∃ vector, op.run vm = .ok vector next

/-- The master's output after its pending requests have been looked at. -/
def Pic.service (pic : Pic) (intr : Bit32u) : Bit32u :=
  if pic.isr ≠ 0 then intr else if pic.unmasked = 0 then intr else 1

theorem picServiceMaster_apply (vm : Vm) :
    picServiceMaster vm = .ok () { vm with intr := vm.picMaster.service vm.intr } := by
  unfold picServiceMaster
  rw [modify_apply, Pic.service]
  split
  · rfl
  split <;> rfl

/-- The machine without its interrupt controllers and their line. -/
def Vm.offPic (vm : Vm) : Vm := { vm with picMaster := {}, picSlave := {}, intr := 0 }

/-- The program works on those only. -/
abbrev PicOnly {Value : Type} (off : Vm) (program : Mon Value) : Prop :=
  Keeps (fun vm => vm.offPic = off) (fun _ _ => True) program

section PicOnly

variable {off : Vm}

private theorem panicWhen_pic {cond : Prop} [Decidable cond] {format : String}
    {args : List Bit32u} : PicOnly off (panicWhen cond format args) :=
  panicWhen_keeps fun _ _ => trivial

private theorem monpanic_pic {Value : Type} {format : String} {args : List Bit32u} :
    PicOnly off (monpanic format args : Mon Value) :=
  .throw fun _ _ => trivial

private theorem picServiceMaster_pic : PicOnly off picServiceMaster := by
  intro vm same
  rw [picServiceMaster_apply]
  exact same

private theorem picIrqMaster_pic (irqNum : Bit32u) : PicOnly off (picIrqMaster irqNum) :=
  .modify fun _ same => same

theorem picIrq_pic (irqNum : Bit32u) : PicOnly off (picIrq irqNum) := by
  apply Keeps.bind panicWhen_pic
  intro _
  apply Keeps.ite (fun master => picIrqMaster_pic irqNum)
  intro slave
  apply Keeps.get_bind
  intro vm _
  apply Keeps.bind
  · exact .modify fun _ same => same
  · intro _
    exact .ite (fun signals => picIrqMaster_pic 2) fun quiet => .pure

private theorem picCommandMaster_pic (val : Bit32u) : PicOnly off (picCommandMaster val) := by
  apply Keeps.ite
  · intro initCommand
    exact .bind (.modify fun _ same => same) fun _ => panicWhen_pic
  intro _
  apply Keeps.ite (fun ocw3 => monpanic_pic)
  intro _
  apply Keeps.ite ?_ fun other => monpanic_pic
  intro endOfInterrupt
  apply Keeps.get_bind
  intro vm _
  apply Keeps.bind panicWhen_pic
  intro _
  exact .bind (.modify fun _ same => same) fun _ => picServiceMaster_pic

private theorem picCommandSlave_pic (val : Bit32u) : PicOnly off (picCommandSlave val) := by
  apply Keeps.ite ?_ fun other => monpanic_pic
  intro initCommand
  exact .bind (.modify fun _ same => same) fun _ => panicWhen_pic

theorem picOutp_pic (port val : Bit32u) : PicOnly off (picOutp port val) := by
  apply Keeps.ite (fun commandMaster => picCommandMaster_pic val)
  intro _
  apply Keeps.ite
  · intro maskMaster
    exact .bind (.modify fun _ same => same) fun _ => picServiceMaster_pic
  intro _
  apply Keeps.ite (fun commandSlave => picCommandSlave_pic val)
  intro _
  apply Keeps.ite ?_ fun other => monpanic_pic
  intro maskSlave
  exact .modify fun _ same => same

theorem picIAC_pic : PicOnly off picIAC := by
  apply Keeps.get_bind
  intro vm _
  apply Keeps.bind panicWhen_pic
  intro _
  apply Keeps.bind panicWhen_pic
  intro _
  exact .bind (.modify fun _ same => same) fun _ => .pure

end PicOnly

theorem PicOp.run_pic (op : PicOp) {off : Vm} : PicOnly off op.run := by
  cases op with
  | irq irqNum => exact .bind (picIrq_pic irqNum) fun _ => .pure
  | outp port val => exact .bind (picOutp_pic port val) fun _ => .pure
  | iac => exact .bind picIAC_pic fun vector => .pure

/-- All that an operation can do to the master and to INTR. -/
inductive MasterStep (pic : Pic) (intr : Bit32u) : PicOp → Pic → Bit32u → Prop
  | unchanged {op : PicOp} : MasterStep pic intr op pic intr
  | requested {op : PicOp} (line : Nat) (low : line < 8) (requests : op.Requests line)
      (fresh : pic.irr.getLsbD line = false) :
      MasterStep pic intr op { pic with irr := pic.irr ||| (1#32 <<< line) }
        (if pic.imr.getLsbD line = false ∧ pic.isr = 0 then 1 else intr)
  | masked (val : Bit32u) :
      MasterStep pic intr (.outp 0x21 val) { pic with imr := val }
        (Pic.service { pic with imr := val } intr)
  | ended (val bitmask : Bit32u) (inService : pic.isr &&& bitmask ≠ 0) :
      MasterStep pic intr (.outp 0x20 val) (pic.endOfInterrupt bitmask)
        ((pic.endOfInterrupt bitmask).service 0)
  | initialised (val : Bit32u) (command : val &&& 0x10#32 ≠ 0) :
      MasterStep pic intr (.outp 0x20 val) (pic.initCommand1 val) 0
  | acknowledged (free : pic.isr = 0) (pending : pic.unmasked ≠ 0) :
      MasterStep pic intr .iac (pic.promote (firstIrq pic.unmasked)) 0

/-- A request to the master either was there already or is new. -/
theorem picIrqMaster_step {vm next : Vm} {op : PicOp} {irqNum : Bit32u} {line : Nat}
    (same : irqNum.toNat = line) (low : line < 8) (requests : op.Requests line)
    (run : picIrqMaster irqNum vm = .ok () next) :
    MasterStep vm.picMaster vm.intr op next.picMaster next.intr := by
  subst same
  have narrow : irqNum.toNat < 32 := by omega
  rw [picIrqMaster, modify_apply] at run
  cases run
  simp only [Pic.request, irqBit, ne_eq, and_lineBit_eq_zero narrow]
  cases held : vm.picMaster.irr.getLsbD irqNum.toNat
  · simpa using MasterStep.requested irqNum.toNat low requests held
  · simpa using MasterStep.unchanged

private theorem picOutp_step {vm next : Vm} {port val : Bit32u}
    (run : picOutp port val vm = .ok () next) :
    MasterStep vm.picMaster vm.intr (.outp port val) next.picMaster next.intr := by
  simp only [picOutp, Logic.ite_apply] at run
  split at run
  · next command =>
    subst command
    simp only [picCommandMaster, Logic.ite_apply, modify_bind_apply, get_bind_apply,
      panicWhen_bind_apply, panicWhen_apply, picServiceMaster_apply] at run
    split at run
    · next init =>
      split at run
      · cases run
      · cases run
        exact .initialised val init
    split at run
    · cases run
    split at run
    · split at run
      · cases run
      · next inService =>
        cases run
        exact .ended val (irqBit (val - 0x60)) inService
    · cases run
  split at run
  · next mask =>
    subst mask
    rw [modify_bind_apply, picServiceMaster_apply] at run
    cases run
    exact .masked val
  split at run
  · simp only [picCommandSlave, Logic.ite_apply, modify_bind_apply, panicWhen_apply] at run
    split at run
    · split at run
      · cases run
      · cases run
        exact .unchanged
    · cases run
  split at run
  · rw [modify_apply] at run
    cases run
    exact .unchanged
  · cases run

theorem picIrq_step {vm next : Vm} {irqNum : Bit32u} (run : picIrq irqNum vm = .ok () next) :
    MasterStep vm.picMaster vm.intr (.irq irqNum) next.picMaster next.intr := by
  simp only [picIrq, panicWhen_bind_apply, Logic.ite_apply] at run
  split at run
  · cases run
  split at run
  · next master =>
    have low : irqNum.toNat < 8 := by
      have bound := BitVec.le_def.mp master
      simp at bound
      omega
    exact picIrqMaster_step rfl low ⟨irqNum, rfl, .inl rfl⟩ run
  · next slave =>
    have high : 7 < irqNum.toNat := by
      have bound := BitVec.lt_def.mp (BitVec.not_le.mp slave)
      simpa using bound
    simp only [get_bind_apply, modify_bind_apply, Logic.ite_apply] at run
    split at run
    · have requests : (PicOp.irq irqNum).Requests 2 := ⟨irqNum, rfl, .inr ⟨rfl, high⟩⟩
      have second : (2#32).toNat = 2 := rfl
      have step := picIrqMaster_step second (by omega) requests run
      exact step
    · cases run
      exact .unchanged

/-- Interrupt request line `irqNum` of the master is raised. -/
def Vm.irqMaster (vm : Vm) (irqNum : Bit32u) : Vm :=
  { vm with
    picMaster := (vm.picMaster.request (irqBit irqNum)).1
    intr := if (vm.picMaster.request (irqBit irqNum)).2 then 1 else vm.intr }

theorem picIrq_zero (vm : Vm) : picIrq 0 vm = .ok () (vm.irqMaster 0) := by
  rw [picIrq, panicWhen_bind_apply, if_neg (by decide), if_pos (by decide)]
  rfl

theorem picIAC_ok {vm next : Vm} {vector : Bit32u} (run : picIAC vm = .ok vector next) :
    vm.intr ≠ 0 ∧ vm.picMaster.isr = 0 ∧ vm.picMaster.unmasked ≠ 0 ∧
      vector = vm.picMaster.vectorOffset + BitVec.ofNat 32 (firstIrq vm.picMaster.unmasked) ∧
      next = { vm with
        picMaster := vm.picMaster.promote (firstIrq vm.picMaster.unmasked), intr := 0 } := by
  simp only [picIAC, get_bind_apply, panicWhen_bind_apply, modify_bind_apply] at run
  split at run
  · cases run
  split at run
  · cases run
  next ready pending =>
  cases run
  exact ⟨fun low => ready (.inl low), not_not.mp fun busy => ready (.inr busy), pending, rfl, rfl⟩

/-- What one operation can do to the master. -/
theorem picStep_master {vm next : Vm} {op : PicOp} (step : PicStep vm op next) :
    MasterStep vm.picMaster vm.intr op next.picMaster next.intr := by
  obtain ⟨vector, run⟩ := step
  cases op with
  | irq irqNum =>
      obtain ⟨_, middle, requested, rest⟩ := bind_ok.mp run
      cases rest
      exact picIrq_step requested
  | outp port val =>
      obtain ⟨_, middle, written, rest⟩ := bind_ok.mp run
      cases rest
      exact picOutp_step written
  | iac =>
      obtain ⟨vector, middle, acknowledged, rest⟩ := bind_ok.mp run
      cases rest
      obtain ⟨-, free, pending, -, rfl⟩ := picIAC_ok acknowledged
      exact .acknowledged free pending

/-- The search for a request finds the one of highest priority. -/
theorem firstIrq_finds {irr : Bit32u} (requested : ∃ line < 8, irr.getLsbD line = true) :
    firstIrq irr < 8 ∧ irr.getLsbD (firstIrq irr) = true ∧
      ∀ lower, lower < firstIrq irr → irr.getLsbD lower = false := by
  cases search : (List.range 8).find? fun bit => irr.getLsbD bit with
  | none =>
      obtain ⟨line, low, here⟩ := requested
      exact absurd here (List.find?_eq_none.mp search line (List.mem_range.mpr low))
  | some bit =>
      obtain ⟨found, listed, lower⟩ := List.find?_range_eq_some.mp search
      have first : firstIrq irr = bit := by rw [firstIrq, search, Option.getD_some]
      rw [first]
      exact ⟨List.mem_range.mp listed, found, fun place below => by simpa using lower place below⟩

theorem firstIrq_spec {irr : Bit32u} (lines : ∀ line, 8 ≤ line → irr.getLsbD line = false)
    (pending : irr ≠ 0) : firstIrq irr < 8 ∧ irr.getLsbD (firstIrq irr) = true ∧
      ∀ lower, lower < firstIrq irr → irr.getLsbD lower = false := by
  apply firstIrq_finds
  by_contra none
  refine pending (BitVec.eq_of_getLsbD_eq fun index _ => ?_)
  by_cases low : index < 8
  · simpa using fun here => none ⟨index, low, here⟩
  · simpa using lines index (by omega)

theorem unmasked_getLsbD (pic : Pic) {line : Nat} (low : line < 32) :
    pic.unmasked.getLsbD line = (pic.irr.getLsbD line && !pic.imr.getLsbD line) := by
  simp [Pic.unmasked, low]

/-- What holds of the master and of INTR throughout. -/
structure PicSound (pic : Pic) (intr : Bit32u) : Prop where
  lines : ∀ line, 8 ≤ line → pic.irr.getLsbD line = false
  single : ∀ first second, pic.isr.getLsbD first = true → pic.isr.getLsbD second = true →
    first = second
  raised : pic.isr = 0 → pic.unmasked ≠ 0 → intr = 1
  offset : pic.vectorOffset = 0x20

private theorem PicSound.unmasked_lines {pic : Pic} {intr : Bit32u} (sound : PicSound pic intr) :
    ∀ line, 8 ≤ line → pic.unmasked.getLsbD line = false := by
  intro line high
  rw [Pic.unmasked, BitVec.getLsbD_and, sound.lines line high, Bool.false_and]

private theorem Pic.service_raises {pic : Pic} (intr : Bit32u) (free : pic.isr = 0)
    (pending : pic.unmasked ≠ 0) : pic.service intr = 1 := by
  rw [service, if_neg (by simpa using free), if_neg pending]

/-- A request that is masked, or found an interrupt in service, adds nothing to
what is unmasked and can be served. -/
theorem unmasked_or {pic : Pic} {line : Nat} (low : line < 8) (masked : pic.imr.getLsbD line = true) :
    Pic.unmasked { pic with irr := pic.irr ||| (1#32 <<< line) } = pic.unmasked := by
  apply BitVec.eq_of_getLsbD_eq
  intro index small
  have narrow : line < 32 := by omega
  rw [unmasked_getLsbD _ small, unmasked_getLsbD _ small, BitVec.getLsbD_or,
    lineBit_getLsbD narrow]
  by_cases same : index = line
  · subst same
    simp [masked]
  · simp [same]

/-- Each operation keeps the interrupt controller sound. -/
theorem PicSound.step {pic pic' : Pic} {intr intr' : Bit32u} {op : PicOp}
    (sound : PicSound pic intr) (step : MasterStep pic intr op pic' intr') :
    PicSound pic' intr' := by
  cases step with
  | unchanged => exact sound
  | requested line low requests fresh =>
      refine ⟨fun index high => ?_, sound.single, fun free pending => ?_, sound.offset⟩
      · have narrow : line < 32 := by omega
        have other : index ≠ line := by omega
        simp [BitVec.getLsbD_or, lineBit_getLsbD narrow, sound.lines index high, other]
      · cases masked : pic.imr.getLsbD line
        · exact if_pos ⟨rfl, free⟩
        · rw [unmasked_or low masked] at pending
          simpa using sound.raised free pending
  | masked val =>
      exact ⟨sound.lines, sound.single, fun free pending => Pic.service_raises intr free pending,
        sound.offset⟩
  | ended val bitmask inService =>
      refine ⟨sound.lines, fun first second inFirst inSecond => ?_, fun free pending =>
        Pic.service_raises 0 free pending, sound.offset⟩
      simp only [Pic.endOfInterrupt, BitVec.getLsbD_and, Bool.and_eq_true] at inFirst inSecond
      exact sound.single first second inFirst.1 inSecond.1
  | initialised val command =>
      refine ⟨fun line _ => ?_, fun first second inFirst _ => ?_, fun _ pending => ?_, sound.offset⟩
      · simp [Pic.initCommand1]
      · simp [Pic.initCommand1] at inFirst
      · simp [Pic.initCommand1, Pic.unmasked] at pending
  | acknowledged free pending =>
      obtain ⟨low, -, -⟩ := firstIrq_spec sound.unmasked_lines pending
      have narrow : firstIrq pic.unmasked < 32 := by omega
      have only : ∀ line, (pic.promote (firstIrq pic.unmasked)).isr.getLsbD line =
          decide (line = firstIrq pic.unmasked) := fun line => by
        simp [Pic.promote, free, lineBit_getLsbD narrow]
      refine ⟨fun line high => ?_, fun first second inFirst inSecond => ?_, fun idle _ => ?_,
        sound.offset⟩
      · simp [Pic.promote, BitVec.getLsbD_and, sound.lines line high]
      · rw [only, decide_eq_true_eq] at inFirst inSecond
        exact inFirst.trans inSecond.symm
      · have here := only (firstIrq pic.unmasked)
        simp [idle] at here

/-- The state that `hostInitLinuxIOEnvironment` sets. -/
def PicReset (vm : Vm) : Prop := ∃ boot, vm = hostInitLinuxIOEnvironment boot

theorem PicReset.sound {vm : Vm} (reset : PicReset vm) : PicSound vm.picMaster vm.intr := by
  obtain ⟨boot, rfl⟩ := reset
  have irr : (hostInitLinuxIOEnvironment boot).picMaster.irr = 0 := rfl
  have isr : (hostInitLinuxIOEnvironment boot).picMaster.isr = 0 := rfl
  refine ⟨fun line _ => ?_, fun first second inFirst _ => ?_, fun _ pending => ?_, rfl⟩
  · simp [irr]
  · simp [isr] at inFirst
  · simp [Pic.unmasked, irr] at pending

private theorem picRun_sound {past : List (Moment Vm PicOp)} {vm : Vm}
    (run : Run PicReset PicStep past vm) : PicSound vm.picMaster vm.intr := by
  induction run with
  | start reset => exact reset.sound
  | next earlier step inductionHypothesis => exact inductionHypothesis.step (picStep_master step)

/-- The moment acknowledges the interrupt of a line: it returns the line's vector. -/
def Acknowledges (moment : Moment Vm PicOp) (line : Nat) : Prop :=
  moment.event = .iac ∧ line < 8 ∧
    picIAC moment.before =
      .ok (moment.before.picMaster.vectorOffset + BitVec.ofNat 32 line) moment.after

/-- A request goes only with its acknowledgement or an initialisation. -/
theorem MasterStep.kept {pic pic' : Pic} {intr intr' : Bit32u} {op : PicOp} {line : Nat}
    (step : MasterStep pic intr op pic' intr') (held : pic.irr.getLsbD line = true) :
    pic'.irr.getLsbD line = true ∨ op.Initialises ∨
      (op = .iac ∧ line = firstIrq pic.unmasked) := by
  cases step with
  | unchanged => exact .inl held
  | requested other low requests fresh =>
      refine .inl ?_
      rw [BitVec.getLsbD_or, held, Bool.true_or]
  | masked val => exact .inl held
  | ended val bitmask inService => exact .inl held
  | initialised val command => exact .inr (.inl ⟨val, rfl, command⟩)
  | acknowledged free pending =>
      by_cases taken : line = firstIrq pic.unmasked
      · exact .inr (.inr ⟨rfl, taken⟩)
      · refine .inl ?_
        have small : line < 32 := BitVec.lt_of_getLsbD held
        simp only [Pic.promote, BitVec.getLsbD_and, held, Bool.true_and, BitVec.getLsbD_not, small,
          decide_true]
        by_cases narrow : firstIrq pic.unmasked < 32
        · rw [lineBit_getLsbD narrow]
          simp [taken]
        · rw [BitVec.shiftLeft_eq_zero (by omega)]
          simp

/-- A request comes only from outside. -/
theorem MasterStep.fresh {pic pic' : Pic} {intr intr' : Bit32u} {op : PicOp} {line : Nat}
    (step : MasterStep pic intr op pic' intr') (absent : pic.irr.getLsbD line = false)
    (held : pic'.irr.getLsbD line = true) : op.Requests line := by
  cases step with
  | unchanged => simp [absent] at held
  | requested other low requests fresh =>
      have narrow : other < 32 := by omega
      rw [BitVec.getLsbD_or, absent, lineBit_getLsbD narrow, Bool.false_or,
        decide_eq_true_eq] at held
      exact held ▸ requests
  | masked val => simp [absent] at held
  | ended val bitmask inService => simp [Pic.endOfInterrupt, absent] at held
  | initialised val command => simp [Pic.initCommand1] at held
  | acknowledged free pending => simp [Pic.promote, absent] at held

/-- What holds in every state the interrupt controller reaches. -/
structure PicExact (past : List (Moment Vm PicOp)) (vm : Vm) : Prop where
  raised : vm.picMaster.isr = 0 → vm.picMaster.unmasked ≠ 0 → vm.intr = 1
  single : ∀ first second, vm.picMaster.isr.getLsbD first = true →
    vm.picMaster.isr.getLsbD second = true → first = second
  offset : vm.picMaster.vectorOffset = 0x20
  highest : ∀ vector next, picIAC vm = .ok vector next → ∃ line, line < 8 ∧
    vm.picMaster.unmasked.getLsbD line = true ∧
    (∀ lower, lower < line → vm.picMaster.unmasked.getLsbD lower = false) ∧
    vector = vm.picMaster.vectorOffset + BitVec.ofNat 32 line
  kept : ∀ op next line, PicStep vm op next → vm.picMaster.irr.getLsbD line = true →
    next.picMaster.irr.getLsbD line = true ∨ op.Initialises ∨ Acknowledges ⟨vm, op, next⟩ line
  between : ∀ newer second middle first older line,
    past = newer ++ second :: (middle ++ first :: older) → Acknowledges first line →
      Acknowledges second line → ∃ moment ∈ middle, moment.event.Requests line

/-- An acknowledgement takes the line it returns. -/
theorem Acknowledges.takes {moment : Moment Vm PicOp} {line : Nat}
    (acknowledges : Acknowledges moment line)
    (sound : PicSound moment.before.picMaster moment.before.intr) :
    moment.before.picMaster.irr.getLsbD line = true ∧
      moment.after.picMaster.irr.getLsbD line = false := by
  obtain ⟨-, low, acknowledged⟩ := acknowledges
  obtain ⟨-, -, pending, vector, next⟩ := picIAC_ok acknowledged
  obtain ⟨lowFirst, held, -⟩ := firstIrq_spec sound.unmasked_lines pending
  have line_eq : line = firstIrq moment.before.picMaster.unmasked := by
    have same := congrArg BitVec.toNat ((BitVec.add_right_inj _).mp vector)
    simp at same
    omega
  rw [← line_eq] at held
  have narrow : line < 32 := by omega
  refine ⟨?_, ?_⟩
  · rw [unmasked_getLsbD _ narrow, Bool.and_eq_true] at held
    exact held.1
  · rw [next, ← line_eq]
    simp [Pic.promote, lineBit_getLsbD narrow]

/-- No interrupt is lost or duplicated by the master. -/
theorem pic_exact {past : List (Moment Vm PicOp)} {vm : Vm} (run : Run PicReset PicStep past vm) :
    PicExact past vm := by
  have sound := picRun_sound run
  constructor
  case raised => exact sound.raised
  case single => exact sound.single
  case offset => exact sound.offset
  case highest =>
    intro vector next acknowledged
    obtain ⟨-, -, pending, same, -⟩ := picIAC_ok acknowledged
    obtain ⟨low, held, lower⟩ := firstIrq_spec sound.unmasked_lines pending
    exact ⟨_, low, held, lower, same⟩
  case kept =>
    intro op next line step held
    rcases (picStep_master step).kept held with still | initialises | ⟨rfl, taken⟩
    · exact .inl still
    · exact .inr (.inl initialises)
    · refine .inr (.inr ⟨rfl, ?_, ?_⟩)
      all_goals
        obtain ⟨_, acknowledge⟩ := step
        obtain ⟨vector, middle, acknowledged, rest⟩ := bind_ok.mp acknowledge
        cases rest
        obtain ⟨-, -, pending, same, -⟩ := picIAC_ok acknowledged
      · rw [taken]
        exact (firstIrq_spec sound.unmasked_lines pending).1
      · rw [acknowledged, same, taken]
  case between =>
    intro newer second middle first older line split acknowledgesFirst acknowledgesSecond
    subst split
    obtain ⟨earlier, -⟩ := run.prefix_run
    obtain ⟨before, -⟩ := earlier.prefix_run
    have gone := (acknowledgesFirst.takes (picRun_sound before)).2
    have back := (acknowledgesSecond.takes (picRun_sound earlier)).1
    have steps : ∀ before op after, PicStep before op after →
        ¬ before.picMaster.irr.getLsbD line = true → after.picMaster.irr.getLsbD line = true →
          op.Requests line := fun _ _ _ step absent held =>
      (picStep_master step).fresh (by simpa using absent) held
    exact earlier.brought_about (fun moment => moment.event.Requests line) steps (by simp [gone]) back

/-- The operation as a function on states. -/
def picNext (vm : Vm) (op : PicOp) : Option Vm := leaves op.run vm

private theorem picNext_step (before : Vm) (op : PicOp) (after : Vm)
    (left : picNext before op = some after) :
    PicStep before op after := by
  unfold picNext leaves at left
  cases result : op.run before with
  | ok vector next =>
      simp only [result, Option.some.injEq] at left
      exact ⟨vector, left ▸ result⟩
  | error stop last => simp [result] at left

/-- A line is unmasked, requested, acknowledged, requested again. -/
theorem pic_exact_sample : ∃ past vm, PicExact past vm ∧ vm.picMaster.isr = 1 ∧
    vm.picMaster.irr = 1 := by
  let check (played : List (Moment Vm PicOp) × Vm) : Bool :=
    played.2.picMaster.isr = 1 && played.2.picMaster.irr = 1
  have checked : (playback picNext [] (hostInitLinuxIOEnvironment { setup := Sample.setup })
      [.outp 0x21 0xfe, .irq 0, .iac, .irq 0]).any check = true := by decide +kernel
  have reset : PicReset (hostInitLinuxIOEnvironment { setup := Sample.setup }) := ⟨_, rfl⟩
  obtain ⟨past, vm, run, found⟩ := playback_reaches picNext_step reset checked
  simp only [check, Bool.and_eq_true, decide_eq_true_eq] at found
  exact ⟨past, vm, pic_exact run, found⟩

/-- The same with INTR low. -/
def PicIdle (vm : Vm) : Prop := ∃ boot : Vm, boot.intr = 0 ∧ vm = hostInitLinuxIOEnvironment boot

/-- INTR is up for an interrupt that the processor can be given. -/
def IntrJustified (vm : Vm) : Prop :=
  vm.intr ≠ 0 → vm.picMaster.isr = 0 ∧ vm.picMaster.unmasked ≠ 0 ∧
    ∃ vector next, picIAC vm = .ok vector next

/-- No write to the mask register hides, while INTR is up, every line requested. -/
def MaskLeaves (pic : Pic) (intr : Bit32u) : PicOp → Prop
  | .outp port val => port = 0x21 → intr ≠ 0 → pic.irr &&& ~~~val ≠ 0
  | _ => True

instance (pic : Pic) (intr : Bit32u) : (op : PicOp) → Decidable (MaskLeaves pic intr op)
  | .outp port _ => inferInstanceAs (Decidable (port = 0x21 → intr ≠ 0 → _))
  | .irq _ => isTrue trivial
  | .iac => isTrue trivial

private theorem Pic.service_ne_zero {pic : Pic} {intr : Bit32u} (up : pic.service intr ≠ 0) :
    intr ≠ 0 ∨ (pic.isr = 0 ∧ pic.unmasked ≠ 0) := by
  unfold service at up
  split at up
  · exact .inl up
  split at up
  · exact .inl up
  · next free pending => exact .inr ⟨by simpa using free, pending⟩

/-- Each operation that leaves a line unmasked keeps INTR justified. -/
theorem MasterStep.justified {pic pic' : Pic} {intr intr' : Bit32u} {op : PicOp}
    (step : MasterStep pic intr op pic' intr')
    (maskLeaves : MaskLeaves pic intr op)
    (justified : intr ≠ 0 → pic.isr = 0 ∧ pic.unmasked ≠ 0) (up : intr' ≠ 0) :
    pic'.isr = 0 ∧ pic'.unmasked ≠ 0 := by
  cases step with
  | unchanged => exact justified up
  | requested line low requests fresh =>
      have narrow : line < 32 := by omega
      by_cases signals : pic.imr.getLsbD line = false ∧ pic.isr = 0
      · refine ⟨signals.2, fun nothing => ?_⟩
        have here : (Pic.unmasked { pic with irr := pic.irr ||| (1#32 <<< line) }).getLsbD line =
            false := by
          rw [nothing]
          exact BitVec.getLsbD_zero
        rw [unmasked_getLsbD _ narrow, BitVec.getLsbD_or, lineBit_getLsbD narrow, signals.1] at here
        simp at here
      · rw [if_neg signals] at up
        obtain ⟨free, pending⟩ := justified up
        refine ⟨free, fun nothing => pending ?_⟩
        have masked : pic.imr.getLsbD line = true := by
          cases unmasked : pic.imr.getLsbD line
          · exact (signals ⟨unmasked, free⟩).elim
          · rfl
        rwa [unmasked_or low masked] at nothing
  | masked val =>
      rcases Pic.service_ne_zero up with already | raised
      · exact ⟨(justified already).1, maskLeaves rfl already⟩
      · exact raised
  | ended val bitmask inService => exact (Pic.service_ne_zero up).resolve_left (by simp)
  | initialised val command => exact (up rfl).elim
  | acknowledged free pending => exact (up rfl).elim

/-- An interrupt that can be given is acknowledged without a panic. -/
theorem picIAC_returns {vm : Vm} (up : vm.intr ≠ 0) (free : vm.picMaster.isr = 0)
    (pending : vm.picMaster.unmasked ≠ 0) : ∃ vector next, picIAC vm = .ok vector next := by
  have ready : ¬ (vm.intr = 0 ∨ vm.picMaster.isr ≠ 0) := not_or.mpr ⟨up, not_not.mpr free⟩
  refine ⟨vm.picMaster.vectorOffset + BitVec.ofNat 32 (firstIrq vm.picMaster.unmasked),
    { vm with picMaster := vm.picMaster.promote (firstIrq vm.picMaster.unmasked), intr := 0 }, ?_⟩
  simp only [picIAC, get_bind_apply, panicWhen_bind_apply, if_neg ready, if_neg pending,
    modify_bind_apply, pure_apply]

/-- No mask write of the run hides every line requested while INTR is up. -/
def MasksLeave (past : List (Moment Vm PicOp)) : Prop :=
  ∀ moment ∈ past, MaskLeaves moment.before.picMaster moment.before.intr moment.event

instance (past : List (Moment Vm PicOp)) : Decidable (MasksLeave past) :=
  inferInstanceAs (Decidable (∀ moment ∈ past, _))

/-- In such a run INTR is never spurious. -/
theorem intr_justified {past : List (Moment Vm PicOp)} {vm : Vm} (run : Run PicIdle PicStep past vm)
    (masks : MasksLeave past) : IntrJustified vm := by
  have justified : vm.intr ≠ 0 → vm.picMaster.isr = 0 ∧ vm.picMaster.unmasked ≠ 0 := by
    induction run with
    | start idle =>
        obtain ⟨boot, low, rfl⟩ := idle
        exact fun up => (up low).elim
    | next earlier step inductionHypothesis =>
        have before := inductionHypothesis fun moment member =>
          masks moment (List.mem_cons_of_mem _ member)
        exact (picStep_master step).justified (masks _ List.mem_cons_self) before
  intro up
  obtain ⟨free, pending⟩ := justified up
  exact ⟨free, pending, picIAC_returns up free pending⟩

/-- A line is unmasked and requested, and another one is masked. -/
theorem intr_justified_sample : ∃ vm, IntrJustified vm ∧ vm.intr = 1 := by
  let check (played : List (Moment Vm PicOp) × Vm) : Bool :=
    played.2.intr = 1 && decide (MasksLeave played.1)
  have checked : (playback picNext [] (hostInitLinuxIOEnvironment { setup := Sample.setup })
      [.outp 0x21 0xfc, .irq 0, .outp 0x21 0xfe]).any check = true := by decide +kernel
  have idle : PicIdle (hostInitLinuxIOEnvironment { setup := Sample.setup }) := ⟨_, rfl, rfl⟩
  obtain ⟨past, vm, run, found⟩ := playback_reaches picNext_step idle checked
  simp only [check, Bool.and_eq_true, decide_eq_true_eq] at found
  exact ⟨vm, intr_justified run found.2, found.1⟩

/-- The acknowledgement gives up on the machine. -/
def acknowledgePanics (vm : Vm) : Bool :=
  match picIAC vm with
  | .ok _ _ => false
  | .error stop _ => stop = .monpanic "picIAC: no unmasked irqs.\n" []

/-- A guest that masks a line whose request has already raised INTR is left with
INTR up for nothing, and the next acknowledgement panics. -/
theorem intr_spurious : ∃ past vm, Run PicIdle PicStep past vm ∧ vm.intr = 1 ∧
    vm.picMaster.unmasked = 0 ∧ acknowledgePanics vm = true ∧ ¬ IntrJustified vm := by
  let check (played : List (Moment Vm PicOp) × Vm) : Bool :=
    played.2.intr = 1 && played.2.picMaster.unmasked = 0 && acknowledgePanics played.2
  have checked : (playback picNext [] (hostInitLinuxIOEnvironment { setup := Sample.setup })
      [.outp 0x21 0xfe, .irq 0, .outp 0x21 0xff]).any check = true := by decide +kernel
  have idle : PicIdle (hostInitLinuxIOEnvironment { setup := Sample.setup }) := ⟨_, rfl, rfl⟩
  obtain ⟨past, vm, run, found⟩ := playback_reaches picNext_step idle checked
  simp only [check, Bool.and_eq_true, decide_eq_true_eq] at found
  obtain ⟨⟨up, masked⟩, panics⟩ := found
  have raised : vm.intr ≠ 0 := by simp [up]
  exact ⟨past, vm, run, up, masked, panics, fun justified => (justified raised).2.1 masked⟩

end Plex86
