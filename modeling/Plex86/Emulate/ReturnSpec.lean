import Plex86.Emulate.InterruptSpec

namespace Plex86

open Logic Vm

private theorem checkIretFrame_does (fromCPL : BitVec 2) (toCS : Selector) (toEFlags : Bit32u)
    (before : Vm) :
    Does (checkIretFrame fromCPL toCS toEFlags) before
      (EFlags.vm toEFlags = false ∧ EFlags.iopl toEFlags = 0 ∧ toCS.isNull = false ∧
        ((toCS.rpl = 0 ∨ toCS.rpl = 3) ∧ toCS.ti = false) ∧ ¬ toCS.rpl < fromCPL) () before := by
  refine Behaves.congr (Does.panic_bind fun _ => Does.panic_bind fun _ => Does.panic_bind fun _ =>
    Does.panic_bind fun _ => Behaves.guard) ?_
  simp only [ne_eq, not_or, not_and_or, not_not, Bool.not_eq_true]

private theorem checkUserDataSegment_does (raw : Bit32u) (before : Vm) :
    Does (checkUserDataSegment raw) before (UserDataOK raw) () before := by
  refine Behaves.congr Behaves.guard ?_
  simp only [UserDataOK, ne_eq, not_and_or, not_not, Bool.not_eq_false]

private theorem leaveInnerStack_does (before : Vm) :
    Does (leaveInnerStack before.iretCS) before before.LeaveOK ()
      (before.turnedBack.withSegment .ss before.iretSS) := by
  refine Behaves.congr (Does.get_bind (fun _ => rfl) ((getGuestDWord_does _ _).bind fun _ =>
    (getGuestWord_does _ _).bind fun _ => Does.panic_bind fun _ => Does.panic_bind fun _ =>
      (fetchGuestDescBySel_does _ _).bind fun _ => Does.panic_bind fun _ =>
        Behaves.seq (Does.change (fun _ => rfl) fun _ => rfl)
          ((guestSelectorUpdated_does _ _ _).bind fun _ =>
            (checkUserDataSegment_does _ _).bind fun _ => (checkUserDataSegment_does _ _).bind fun _ =>
              (checkUserDataSegment_does _ _).bind fun _ => checkUserDataSegment_does _ _))) ?_
  rw [descriptor_good]
  constructor
  · rintro ⟨esp, ss, notNull, ring, desc, type, segment, data⟩
    exact ⟨esp, ss, (Bool.not_eq_true _).mp notNull, not_not.mp ring, desc, type, segment, data⟩
  · rintro ⟨esp, ss, notNull, ring, desc, type, segment, data⟩
    refine ⟨esp, ss, ?_, not_not.mpr ring, desc, type, segment, data⟩
    exact fun null => Bool.noConfusion (notNull.symm.trans null)

private theorem closeFrame_does (before : Vm) :
    Does (closeFrame before.guestCPL before.iretCS) before
      (before.guestCPL < before.iretCS.rpl → before.LeaveOK) () before.frameClosed := by
  refine Behaves.congr (Behaves.branch (fun _ => leaveInnerStack_does _) fun _ =>
    Does.change (fun _ => rfl) fun _ => rfl) ?_
  split
  · next outward => exact ⟨fun holds _ => holds, fun holds => holds outward⟩
  · next stays => exact ⟨fun _ outward => absurd outward stays, fun _ => trivial⟩

private theorem clearVirtualFlags_does (before : Vm) :
    Does clearVirtualFlags before True ()
      { before with
        context := { before.context with
          eflags := EFlags.assign EFlags.maskVIP false
            (EFlags.assign EFlags.maskVIF false before.context.eflags) } } :=
  Does.change (fun _ => rfl) fun _ => rfl

private theorem iretVirtualFlags_does (fromCPL : BitVec 2) (toCS : Selector) (toEFlags : Bit32u)
    (before : Vm) :
    Does (iretVirtualFlags fromCPL toCS toEFlags) before (before.VirtualOK fromCPL toCS toEFlags) ()
      (before.virtualSet fromCPL toCS toEFlags) := by
  refine .get_bind (fun _ => rfl) ?_
  by_cases kernel : toCS.rpl = 0
  · simp only [VirtualOK, virtualSet, kernel, ne_eq, not_true_eq_false, false_and, if_true,
      if_false, decide_true, Bool.true_and]
    refine Behaves.congr (Does.panic_bind fun _ => Does.panic_last fun _ =>
      Does.change (fun _ => rfl) fun _ => rfl) ?_
    rw [not_not, Bool.not_eq_false]
  by_cases outward : fromCPL < toCS.rpl
  · simp only [VirtualOK, virtualSet, kernel, outward, ne_eq, not_false_eq_true,
      true_and, if_true, if_false, decide_false, Bool.false_and]
    refine Behaves.congr (Does.panic_bind fun _ => Behaves.seq (clearVirtualFlags_does _)
      (Does.panic_last fun _ => Does.change (fun _ => rfl) fun _ => rfl)) ?_
    rw [Bool.not_eq_false, Bool.not_eq_false]
  · simp only [VirtualOK, virtualSet, kernel, outward, ne_eq, not_false_eq_true,
      and_false, if_false, decide_false, Bool.false_and]
    refine Behaves.congr (Does.panic_bind fun _ => Behaves.seq (clearVirtualFlags_does _)
      Behaves.guard) ?_
    rw [not_not, Bool.not_eq_true]

/-- The return from an interrupt. -/
theorem doIRET_does (before : Vm) : Does doIRET before before.IretOK () before.iretDone := by
  refine Behaves.congr (Does.get_bind (fun _ => rfl) (Does.panic_bind fun _ =>
    (getGuestDWord_does _ _).bind fun _ => (getGuestWord_does _ _).bind fun _ =>
      (getGuestDWord_does _ _).bind fun _ => (checkIretFrame_does _ _ _ _).bind fun _ =>
        (fetchGuestDescBySel_does _ _).bind fun _ => Does.panic_bind fun _ =>
          (closeFrame_does _).bind fun _ => Behaves.seq (Does.change (fun _ => rfl) fun _ => rfl)
            ((guestSelectorUpdated_does _ _ _).bind fun _ =>
              (iretVirtualFlags_does _ _ _ _).bind fun _ =>
                Does.change (fun _ => rfl) fun _ => rfl))) ?_
  rw [descriptor_good]
  constructor
  · rintro ⟨nested, eip, cs, eflags, ⟨vm, iopl, notNull, ring, outward⟩, desc, type, stack, segment,
      flags, -⟩
    exact ⟨⟨(Bool.not_eq_true _).mp nested, eip, cs, eflags, vm, iopl, notNull, ring, outward, desc,
      type⟩, stack, segment (Or.inl rfl), flags⟩
  · rintro ⟨⟨nested, eip, cs, eflags, vm, iopl, notNull, ring, outward, desc, type⟩, stack, segment,
      flags⟩
    refine ⟨?_, eip, cs, eflags, ⟨vm, iopl, notNull, ring, outward⟩, desc, type, stack,
      fun _ => segment, flags, trivial⟩
    exact fun nests => Bool.noConfusion (nested.symm.trans nests)

theorem loadGuestSegment_does (sreg : SReg) (selector : Selector) (before : Vm) :
    Does (loadGuestSegment sreg selector) before (before.LoadOK sreg selector) ()
      (before.segmentLoaded sreg selector) := by
  refine Behaves.congr ((fetchGuestDescBySel_does _ _).bind fun _ => Does.panic_bind fun _ =>
    Behaves.seq (Does.change (fun _ => rfl) fun _ => rfl) (guestSelectorUpdated_does _ _ _)) ?_
  constructor
  · rintro ⟨desc, -, segment⟩
    exact ⟨desc, segment⟩
  · rintro ⟨desc, segment⟩
    exact ⟨desc, not_not.mpr desc.level, segment⟩

end Plex86
