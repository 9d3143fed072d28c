import Plex86.Emulate.GuestSpec

namespace Plex86

open Logic Vm

private theorem fetchGate_does (vector intFlags : Bit32u) (before : Vm) :
    Does (fetchGate vector intFlags) before (before.GateOK vector intFlags) (before.gateAt vector)
      before := by
  refine .get_bind (fun _ => rfl) ?_
  refine Behaves.congr (Does.panic_bind fun _ => Does.panic_bind fun _ =>
    (fetchGuestDescByLAddr_does _ _).bind fun _ => Does.panic_bind fun _ =>
      Does.panic_bind fun _ => Does.panic_last fun _ => Behaves.pure _ _) ?_
  constructor
  · rintro ⟨inside, aligned, mapped, present, type, level⟩
    exact ⟨inside, aligned, mapped, (Bool.not_eq_false _).mp present, or_iff_not_and_not.mpr type, level⟩
  · rintro ⟨inside, aligned, mapped, present, type, level⟩
    refine ⟨inside, aligned, mapped, ?_, or_iff_not_and_not.mp type, level⟩
    exact fun absent => Bool.noConfusion (absent.symm.trans present)

/-- The checks of a segment descriptor's type, privilege level and present bit. -/
theorem descriptor_good {desc : Descriptor} {type : BitVec 5} {level : BitVec 2} :
    ¬ (desc.type ≠ type ∨ desc.dpl ≠ level ∨ desc.p = false) ↔
      desc.type = type ∧ desc.dpl = level ∧ desc.p = true := by
  simp only [ne_eq, not_or, not_not, Bool.not_eq_false]

private theorem fetchHandlerCS_does (csSel : Selector) (before : Vm) :
    Does (fetchHandlerCS csSel) before (before.HandlerOK csSel) (before.descOf csSel) before := by
  refine Behaves.congr (Does.panic_bind fun _ => (fetchGuestDescBySel_does _ _).bind fun _ =>
    Does.panic_last fun _ => Behaves.pure _ _) ?_
  rw [descriptor_good]
  constructor
  · rintro ⟨-, desc, type, level, present⟩
    exact ⟨desc, type, level, present⟩
  · rintro ⟨desc, type, level, present⟩
    exact ⟨by simp [desc.notNull], desc, type, level, present⟩

private theorem fetchInnerStack_does (csDesc : Descriptor) (before : Vm) :
    Does (fetchInnerStack csDesc) before (before.InnerStackOK csDesc)
      (before.innerESP csDesc, before.innerSS csDesc) before := by
  refine .get_bind (fun _ => rfl) ?_
  refine Behaves.congr (Does.panic_bind fun _ => Does.panic_bind fun _ =>
    (getGuestDWord_does _ _).bind fun _ => (getGuestWord_does _ _).bind fun _ =>
      Does.panic_bind fun _ => Does.panic_bind fun _ => (fetchGuestDescBySel_does _ _).bind fun _ =>
        Does.panic_last fun _ => Behaves.pure _ _) ?_
  rw [descriptor_good]
  constructor
  · rintro ⟨type, limit, esp, ss, notNull, ring, desc, segment⟩
    exact ⟨not_not.mp type, limit, esp, ss, (Bool.not_eq_true _).mp notNull, not_not.mp ring, desc, segment⟩
  · rintro ⟨type, limit, esp, ss, notNull, ring, desc, segment⟩
    refine ⟨not_not.mpr type, limit, esp, ss, ?_, not_not.mpr ring, desc, segment⟩
    exact fun null => Bool.noConfusion (notNull.symm.trans null)

private theorem enterInnerStack_does (csSel : Selector) (csDesc : Descriptor) (before : Vm) :
    Does (enterInnerStack csSel csDesc) before (before.SwitchOK csSel csDesc) ()
      (before.stackPushed csSel csDesc) := by
  refine Behaves.congr ((fetchInnerStack_does _ _).bind fun _ => Does.get_bind (fun _ => rfl)
    (Behaves.seq (Does.change (fun _ => rfl) fun _ => rfl)
      ((guestSelectorUpdated_does _ _ _).bind fun _ =>
        Behaves.seq (Does.change (fun _ => rfl) fun _ => rfl)
          ((writeGuestDWord_does _ _ _).bind fun _ => writeGuestDWord_does _ _ _)))) ?_
  constructor
  · rintro ⟨stack, segment, ss, esp⟩
    exact ⟨stack, segment, ss, esp⟩
  · rintro ⟨stack, segment, ss, esp⟩
    exact ⟨stack, segment, ss, esp⟩

private theorem openFrame_does (csSel : Selector) (csDesc : Descriptor) (before : Vm) :
    Does (openFrame before.guestCPL csSel csDesc) before (before.OpenOK csSel csDesc) ()
      (before.frameOpened csSel csDesc) := by
  refine Behaves.congr (Behaves.branch (fun _ => enterInnerStack_does _ _ _) fun _ =>
    Does.change (fun _ => rfl) fun _ => rfl) ?_
  unfold OpenOK
  split
  · next inward => exact ⟨fun holds _ => holds, fun holds => holds inward⟩
  · next stays => exact ⟨fun _ inward => absurd inward stays, fun _ => trivial⟩

private theorem pushFrame_does (fromCPL : BitVec 2) (oldEFlags intFlags errorCode : Bit32u)
    (before : Vm) :
    Does (pushFrame fromCPL oldEFlags intFlags errorCode) before
      (before.FrameOK fromCPL oldEFlags intFlags) ()
      (before.framePushed fromCPL oldEFlags intFlags errorCode) := by
  refine Behaves.congr (Does.get_bind (fun _ => rfl) ((writeGuestDWord_does _ _ _).bind fun _ =>
    (writeGuestDWord_does _ _ _).bind fun _ => (writeGuestDWord_does _ _ _).bind fun _ =>
      Behaves.branch (fun _ => Behaves.seq (Does.change (fun _ => rfl) fun _ => rfl)
        (writeGuestDWord_does _ _ _)) fun _ => Behaves.pure _ _)) ?_
  constructor
  · rintro ⟨flags, cs, eip, error⟩
    refine ⟨flags, cs, eip, fun pushes => ?_⟩
    rwa [if_pos pushes] at error
  · rintro ⟨flags, cs, eip, error⟩
    refine ⟨flags, cs, eip, ?_⟩
    split
    · next pushes => exact error pushes
    · trivial

private theorem resumeWithEFlags_does (eflags : Bit32u) (before : Vm) :
    Does (resumeWithEFlags eflags) before (before.RunsKernel ∨ eflags &&& EFlags.maskIF ≠ 0) ()
      (before.resumed eflags) := by
  refine Behaves.congr (Does.get_bind (fun _ => rfl) (Does.panic_last fun _ =>
    Does.change (fun _ => rfl) fun _ => rfl)) ?_
  change ¬ (¬ before.RunsKernel ∧ eflags &&& EFlags.maskIF = 0) ↔ _
  rw [not_and, or_iff_not_imp_left]

/-- The delivery of an interrupt. -/
theorem doGuestInterrupt_does (vector intFlags errorCode : Bit32u) (before : Vm) :
    Does (doGuestInterrupt vector intFlags errorCode) before
      (before.InterruptOK vector intFlags errorCode) ()
      (before.interrupted vector intFlags errorCode) := by
  refine Behaves.congr (Does.get_bind (fun _ => rfl) ((fetchGate_does _ _ _).bind fun _ =>
    (fetchHandlerCS_does _ _).bind fun _ => (openFrame_does _ _ _).bind fun _ =>
      (pushFrame_does _ _ _ _ _).bind fun _ => Behaves.seq (Does.change (fun _ => rfl) fun _ => rfl)
        ((guestSelectorUpdated_does _ _ _).bind fun _ => resumeWithEFlags_does _ _))) ?_
  constructor
  · rintro ⟨gate, handler, stack, frame, segment, flags⟩
    exact ⟨gate, handler, stack, frame, segment (Or.inl rfl), flags⟩
  · rintro ⟨gate, handler, stack, frame, segment, flags⟩
    exact ⟨gate, handler, stack, frame, fun _ => segment, flags⟩

end Plex86
