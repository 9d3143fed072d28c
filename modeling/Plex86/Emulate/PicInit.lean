import Plex86.Emulate.PicRun

namespace Plex86

open Logic

/-- The bytes of an initialisation. The last is written only where the first asks for it. -/
structure InitBytes where
  icw1 : BitVec 8
  icw2 : BitVec 8
  icw3 : BitVec 8
  icw4 : BitVec 8
deriving DecidableEq

namespace InitBytes

variable (bytes : InitBytes)

def requires4 : Bool := bytes.icw1.getLsbD 0

/-- The byte that ends the initialisation. -/
def last : BitVec 8 := if bytes.requires4 then bytes.icw4 else bytes.icw3

/-- What the guest writes. -/
def write : Mon Unit := do
  picOutp 0x20 (bytes.icw1.setWidth 32)
  picOutp 0x21 (bytes.icw2.setWidth 32)
  picOutp 0x21 (bytes.icw3.setWidth 32)
  if bytes.requires4 then picOutp 0x21 (bytes.icw4.setWidth 32)

/-- The first byte is an initialisation command, and one that is supported. -/
def Accepted (vm : Vm) : Prop :=
  bytes.icw1.setWidth 32 &&& 0x10#32 ≠ 0 ∧
    ∃ next, picOutp 0x20 (bytes.icw1.setWidth 32) vm = .ok () next

/-- The vector of the first interrupt request line. -/
def offset : Bit32u := bytes.icw2.setWidth 32 &&& 0xf8

/-- Whatever happens after the initialisation, short of another one, each line is
acknowledged with its own vector. -/
def VectorsFrom (ended : Vm) : Prop :=
  ∀ past now vector next line, Run (· = ended) PicStep past now →
    (∀ moment ∈ past, ¬ moment.event.Initialises) → picIAC now = .ok vector next →
      next.picMaster.isr.getLsbD line = true → vector = bytes.offset + BitVec.ofNat 32 line

/-- The bytes initialise the controller: none of them is left in the mask
register or raises INTR, the next byte is a mask, and the vectors start at ICW2. -/
def Initialise (vm : Vm) : Prop :=
  ∃ ended, bytes.write vm = .ok () ended ∧ ended.picMaster.imr = 0 ∧ ended.intr = 0 ∧
    (∀ mask, ∃ next, picOutp 0x21 mask ended = .ok () next ∧ next.picMaster.imr = mask) ∧
    bytes.VectorsFrom ended

end InitBytes

def Vm.withMask (vm : Vm) (val : Bit32u) : Vm :=
  { vm with picMaster := { vm.picMaster with imr := val } }

/-- The state after the first byte. -/
def Vm.commanded (vm : Vm) (icw1 : BitVec 8) : Vm :=
  { vm with picMaster := vm.picMaster.initCommand1 (icw1.setWidth 32), intr := 0 }

private theorem Pic.service_quiet (pic : Pic) (intr : Bit32u) (none : pic.irr = 0) :
    pic.service intr = intr := by
  have nothing : pic.unmasked = 0 := by simp [unmasked, none]
  rw [service, nothing, if_pos rfl, ite_self]

/-- A mask byte, while nothing is requested. -/
theorem picOutp_mask_quiet (vm : Vm) (none : vm.picMaster.irr = 0) (val : Bit32u) :
    picOutp 0x21 val vm = .ok () (vm.withMask val) := by
  have quiet := Pic.service_quiet { vm.picMaster with imr := val } vm.intr none
  rw [picOutp, if_neg (by decide), if_pos rfl, modify_bind_apply, picServiceMaster_apply, quiet]
  rfl

private theorem picOutp_init {vm : Vm} {bytes : InitBytes} (accepted : bytes.Accepted vm) :
    picOutp 0x20 (bytes.icw1.setWidth 32) vm = .ok () (vm.commanded bytes.icw1) := by
  obtain ⟨command, next, run⟩ := accepted
  rw [picOutp, if_pos rfl, picCommandMaster, if_pos command, modify_bind_apply,
    panicWhen_apply] at run ⊢
  split at run
  · cases run
  · next supported =>
    rw [if_neg supported]
    rfl

/-- Every byte after the first ends up in the mask register, where the last one stays. -/
theorem InitBytes.write_apply {vm : Vm} {bytes : InitBytes} (accepted : bytes.Accepted vm) :
    ∃ ended, bytes.write vm = .ok () ended ∧
      ended.picMaster = { vm.picMaster.initCommand1 (bytes.icw1.setWidth 32) with
        imr := bytes.last.setWidth 32 } ∧ ended.intr = 0 := by
  let masked := (vm.commanded bytes.icw1).withMask (bytes.icw2.setWidth 32)
  have second := picOutp_mask_quiet (vm.commanded bytes.icw1) rfl (bytes.icw2.setWidth 32)
  have third := picOutp_mask_quiet masked rfl (bytes.icw3.setWidth 32)
  have fourth := picOutp_mask_quiet (masked.withMask (bytes.icw3.setWidth 32)) rfl
    (bytes.icw4.setWidth 32)
  rw [InitBytes.write, InitBytes.last]
  cases asked : bytes.requires4 with
  | true =>
      exact ⟨_, bind_ok.mpr ⟨(), _, picOutp_init accepted, bind_ok.mpr ⟨(), _, second,
        bind_ok.mpr ⟨(), _, third, fourth⟩⟩⟩, rfl, rfl⟩
  | false =>
      exact ⟨_, bind_ok.mpr ⟨(), _, picOutp_init accepted, bind_ok.mpr ⟨(), _, second,
        bind_ok.mpr ⟨(), _, third, rfl⟩⟩⟩, rfl, rfl⟩

/-- What holds of the master after an initialisation: its requests are those of
its own lines, and its vectors start where they did. -/
structure PicLines (offset : Bit32u) (pic : Pic) : Prop where
  lines : ∀ line, 8 ≤ line → pic.irr.getLsbD line = false
  offset : pic.vectorOffset = offset

theorem PicLines.step {offset : Bit32u} {pic pic' : Pic} {intr intr' : Bit32u} {op : PicOp}
    (kept : PicLines offset pic) (step : MasterStep pic intr op pic' intr') :
    PicLines offset pic' := by
  cases step with
  | unchanged => exact kept
  | requested line low requests fresh =>
      refine ⟨fun index high => ?_, kept.offset⟩
      have narrow : line < 32 := by omega
      have other : index ≠ line := by omega
      simp [lineBit_getLsbD narrow, kept.lines index high, other]
  | masked val => exact ⟨kept.lines, kept.offset⟩
  | ended val bitmask inService => exact ⟨kept.lines, kept.offset⟩
  | initialised val command => exact ⟨fun line _ => BitVec.getLsbD_zero, kept.offset⟩
  | acknowledged free pending =>
      refine ⟨fun line high => ?_, kept.offset⟩
      simp [Pic.promote, kept.lines line high]

/-- Each line is acknowledged with the vector at its own place after the offset. -/
theorem PicLines.vector {offset : Bit32u} {vm next : Vm} {vector : Bit32u} {line : Nat}
    (kept : PicLines offset vm.picMaster) (acknowledged : picIAC vm = .ok vector next)
    (taken : next.picMaster.isr.getLsbD line = true) :
    vector = offset + BitVec.ofNat 32 line := by
  obtain ⟨-, free, pending, same, rfl⟩ := picIAC_ok acknowledged
  have lines : ∀ line, 8 ≤ line → vm.picMaster.unmasked.getLsbD line = false := by
    intro line high
    rw [Pic.unmasked, BitVec.getLsbD_and, kept.lines line high, Bool.false_and]
  obtain ⟨low, -, -⟩ := firstIrq_spec lines pending
  have narrow : firstIrq vm.picMaster.unmasked < 32 := by omega
  have first : line = firstIrq vm.picMaster.unmasked := by
    simpa [Pic.promote, free, lineBit_getLsbD narrow] using taken
  rw [same, kept.offset, first]

/-- Line 0 can be requested and acknowledged while nothing is masked or requested. -/
theorem picIAC_reached {vm : Vm} (clear : vm.picMaster.imr = 0) (irr : vm.picMaster.irr = 0)
    (isr : vm.picMaster.isr = 0) :
    ∃ raised vector next line, PicStep vm (.irq 0) raised ∧ picIAC raised = .ok vector next ∧
      next.picMaster.isr.getLsbD line = true ∧
      vector = vm.picMaster.vectorOffset + BitVec.ofNat 32 line := by
  have requested : vm.picMaster.request (irqBit 0) =
      ({ vm.picMaster with irr := irqBit 0 }, true) := by
    simp [Pic.request, irr, clear, isr]
  have step : PicStep vm (.irq 0) (vm.irqMaster 0) :=
    ⟨none, bind_ok.mpr ⟨(), _, picIrq_zero vm, rfl⟩⟩
  have master : (vm.irqMaster 0).picMaster = { vm.picMaster with irr := irqBit 0 } := by
    rw [Vm.irqMaster, requested]
  have unmasked : (vm.irqMaster 0).picMaster.unmasked = irqBit 0 := by
    rw [master, Pic.unmasked, clear]
    exact BitVec.and_allOnes
  have raised : (vm.irqMaster 0).intr = 1 := by
    rw [Vm.irqMaster, requested]
    rfl
  have up : (vm.irqMaster 0).intr ≠ 0 := by
    rw [raised]
    decide
  have free : (vm.irqMaster 0).picMaster.isr = 0 := by rw [master]; exact isr
  obtain ⟨vector, next, acknowledged⟩ := picIAC_returns up free (by rw [unmasked]; decide)
  obtain ⟨-, -, -, same, after⟩ := picIAC_ok acknowledged
  have first : firstIrq (vm.irqMaster 0).picMaster.unmasked = 0 := by
    rw [unmasked]
    decide
  refine ⟨_, vector, next, 0, step, acknowledged, ?_, ?_⟩
  · rw [after, first]
    simp [Pic.promote]
  · rw [same, first, master]

/-- The bytes initialise the controller exactly when the last of them is 0, and
ICW2 asks for the vectors that the controller uses anyway. -/
theorem initialise_iff {vm : Vm} {bytes : InitBytes} (accepted : bytes.Accepted vm) :
    bytes.Initialise vm ↔ bytes.last = 0 ∧ bytes.offset = vm.picMaster.vectorOffset := by
  obtain ⟨ended, written, master, low⟩ := InitBytes.write_apply accepted
  have imr : ended.picMaster.imr = bytes.last.setWidth 32 := by rw [master]
  have irr : ended.picMaster.irr = 0 := by rw [master]; rfl
  have isr : ended.picMaster.isr = 0 := by rw [master]; rfl
  have offset : ended.picMaster.vectorOffset = vm.picMaster.vectorOffset := by rw [master]; rfl
  constructor
  · rintro ⟨_, again, clear, -, -, vectors⟩
    cases written.symm.trans again
    have zero : bytes.last = 0 := by
      have same := imr.symm.trans clear
      bv_omega
    obtain ⟨raised, vector, next, line, step, acknowledged, taken, same⟩ :=
      picIAC_reached clear irr isr
    have run : Run (· = ended) PicStep [⟨ended, .irq 0, raised⟩] raised := .next (.start rfl) step
    have asked := vectors _ raised vector next line run (by simp [PicOp.Initialises])
      acknowledged taken
    rw [same, offset] at asked
    exact ⟨zero, ((BitVec.add_left_inj _).mp asked).symm⟩
  · rintro ⟨zero, same⟩
    refine ⟨ended, written, by rw [imr, zero]; rfl, low, fun mask => ?_, ?_⟩
    · exact ⟨_, picOutp_mask_quiet ended irr mask, rfl⟩
    · intro past now vector next line run _ acknowledged taken
      have begun : ∀ state, state = ended → PicLines bytes.offset state.picMaster := by
        intro state first
        rw [first]
        exact ⟨fun line _ => by rw [irr]; exact BitVec.getLsbD_zero, offset.trans same.symm⟩
      have preserved : ∀ before op after, PicLines bytes.offset before.picMaster →
          PicStep before op after → PicLines bytes.offset after.picMaster :=
        fun before op after kept step => kept.step (picStep_master step)
      exact (run.invariant begun preserved).vector acknowledged taken

/-- Bytes that happen to leave the controller as they should. -/
theorem initialise_iff_sample :
    InitBytes.Initialise ⟨0x11, 0x20, 4, 0⟩
      (hostInitLinuxIOEnvironment { setup := Sample.setup }) :=
  (initialise_iff ⟨by decide, _, rfl⟩).mpr ⟨by decide, by decide⟩

/-- The bytes that Linux writes leave the last of them in the mask register. -/
theorem initialise_linux : ¬ InitBytes.Initialise ⟨0x11, 0x20, 4, 1⟩
    (hostInitLinuxIOEnvironment { setup := Sample.setup }) := by
  rintro ⟨ended, written, clear, -⟩
  cases written
  exact absurd clear (by decide)

end Plex86
