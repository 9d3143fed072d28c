import Plex86.Emulate.InterruptSpec
import Plex86.Monitor.Origin
import Plex86.Monitor.Replay

namespace Plex86

open Logic Vm

namespace Vm

/-- The monitor's tables have an entry for the address. -/
def shadowMaps (vm : Vm) (laddr : Bit32u) : Bool :=
  (vm.entryOf laddr).pde.p && (vm.entryOf laddr).pte.p

/-- So have the guest's own tables. -/
def guestMaps (vm : Vm) (laddr : Bit32u) : Bool :=
  (vm.tables (pdiOf laddr) (ptiOf laddr)).1.p && (vm.tables (pdiOf laddr) (ptiOf laddr)).2.p

/-- The error code that the processor leaves for an access of the guest, which
runs at ring 3 of the monitor's tables whatever its own privilege level. -/
structure Raised (vm : Vm) (cr2 : Bit32u) (write : Bool) : Prop where
  present : vm.context.error.getLsbD 0 = vm.shadowMaps cr2
  write : vm.context.error.getLsbD 1 = write
  user : vm.context.error.getLsbD 2 = true

instance (vm : Vm) (cr2 : Bit32u) (write : Bool) : Decidable (vm.Raised cr2 write) :=
  decidable_of_iff (_ ∧ _ ∧ _)
    ⟨fun ⟨present, write, user⟩ => ⟨present, write, user⟩,
      fun raised => ⟨raised.present, raised.write, raised.user⟩⟩

/-- The machine that has noted the address of a fault. -/
def faultAt (vm : Vm) (cr2 : Bit32u) : Vm :=
  { vm with guestCpu := { vm.guestCpu with cr2 } }

/-- The error code that has been pushed for a page fault of the machine `walked`. -/
def pushedCode (next walked : Vm) (cr2 : Bit32u) : Bit32u :=
  next.physWord 32 ((walked.faultAt cr2).core.errorCodeAddr exceptionPF)

end Vm

/-- A page fault that the guest's own tables ask for is given to the guest. -/
structure Reflected (cr2 : Bit32u) (vm walked next : Vm) : Prop where
  refused : ∃ code, mapGuestLinAddr cr2 vm.faultAccess.1 vm.faultAccess.2 vm =
    .ok (.exception code) walked
  served : guestPageFault cr2 vm = .ok () next

/-- What the guest is to be told of a page fault. -/
structure TellsFault (vm : Vm) (cr2 : Bit32u) (write : Bool) (code : Bit32u) (next : Vm) : Prop where
  present : code.getLsbD 0 = vm.guestMaps cr2
  write : code.getLsbD 1 = write
  user : code.getLsbD 2 = decide (vm.guestCPL = 3)
  address : next.guestCpu.cr2 = cr2

/-- The guest's error code is the processor's own, but for the privilege bit. -/
def guestErrorCode (guestCPL : BitVec 2) (error : Bit32u) : Bit32u :=
  if guestCPL ≠ 3 then error &&& ~~~(1#32 <<< 2) else error

private theorem guestErrorCode_getLsbD (guestCPL : BitVec 2) (error : Bit32u) (index : Nat) :
    (guestErrorCode guestCPL error).getLsbD index =
      (error.getLsbD index && (decide (index ≠ 2) || decide (guestCPL = 3))) := by
  by_cases user : guestCPL = 3
  · rw [guestErrorCode, if_neg (not_not.mpr user)]
    simp [user]
  · rw [guestErrorCode, if_pos user]
    change (EFlags.assign (1#32 <<< 2) false error).getLsbD index = _
    rw [EFlags.assign_getLsbD, lineBit_getLsbD (by decide), decide_eq_false user]
    by_cases here : index = 2 <;> simp [here]

theorem Reflected.interrupted {cr2 : Bit32u} {vm walked next : Vm}
    (reflected : Reflected cr2 vm walked next) :
    next.core = (walked.faultAt cr2).core.interrupted exceptionPF
      (intFlagAssertRF ||| intFlagPushError) (guestErrorCode vm.guestCPL vm.context.error) := by
  obtain ⟨code, refused⟩ := reflected.refused
  cases guestPageFault_ok reflected.served with
  | mapped run =>
      rw [refused] at run
      cases run
  | reflected run fault =>
      rw [refused] at run
      cases run
      obtain ⟨-, same, -⟩ := mapGuestLinAddr_exception refused
      have level : (walked.faultAt cr2).guestCPL = vm.guestCPL := same.guestCPL
      rw [doGuestFaultPF, get_bind_apply] at fault
      obtain ⟨-, -, seen⟩ := (doGuestInterrupt_does _ _ _ _).ok fault
      rw [← level]
      exact seen

private theorem Reflected.pushedCode_eq {cr2 : Bit32u} {vm walked next : Vm}
    (reflected : Reflected cr2 vm walked next) :
    next.pushedCode walked cr2 = guestErrorCode vm.guestCPL vm.context.error := by
  change next.core.physWord 32 _ = _
  rw [reflected.interrupted]
  exact interrupted_errorCode (by decide)

private theorem Reflected.cr2_eq {cr2 : Bit32u} {vm walked next : Vm}
    (reflected : Reflected cr2 vm walked next) : next.guestCpu.cr2 = cr2 := by
  change next.core.guestCpu.cr2 = cr2
  rw [reflected.interrupted, interrupted_guestCpu]
  rfl

/-- The guest is told the truth about a page fault exactly where the monitor's
tables have the address just as its own do. -/
theorem pageFault_told {cr2 : Bit32u} {write : Bool} {vm walked next : Vm}
    (raised : vm.Raised cr2 write) (reflected : Reflected cr2 vm walked next) :
    TellsFault vm cr2 write (next.pushedCode walked cr2) next ↔
      vm.shadowMaps cr2 = vm.guestMaps cr2 := by
  rw [reflected.pushedCode_eq, ← raised.present]
  constructor
  · intro tells
    have present := tells.present
    rw [guestErrorCode_getLsbD] at present
    simpa using present
  · intro same
    refine ⟨?_, ?_, ?_, reflected.cr2_eq⟩
    · rw [guestErrorCode_getLsbD]
      simpa using same
    · rw [guestErrorCode_getLsbD]
      simpa using raised.write
    · rw [guestErrorCode_getLsbD, raised.user]
      simp

/-- The state that a fault on an address is given to the guest in, and what the
guest gets. -/
def reflects (cr2 : Bit32u) (vm : Vm) : Option (Vm × Vm) :=
  match mapGuestLinAddr cr2 vm.faultAccess.1 vm.faultAccess.2 vm, guestPageFault cr2 vm with
  | .ok (.exception _) walked, .ok () next => some (walked, next)
  | _, _ => none

private theorem reflects_reflected {cr2 : Bit32u} {vm walked next : Vm}
    (found : reflects cr2 vm = some (walked, next)) : Reflected cr2 vm walked next := by
  unfold reflects at found
  split at found
  · next code walked' next' refused served =>
      cases found
      exact ⟨⟨code, refused⟩, served⟩
  · cases found

/-- User code reads from an address that nothing is mapped at. -/
theorem pageFault_told_sample : ∃ (past : List (Moment Vm Trap)) (vm walked next : Vm),
    GuestRun Sample.reg past vm ∧
      let now := ((Sample.fault 0x400000 4).trap vm).faulted
      Reflected 0x400000 now walked next ∧
        TellsFault now 0x400000 false (next.pushedCode walked 0x400000) next := by
  let check (played : List (Moment Vm Trap) × Vm) : Bool :=
    let now := ((Sample.fault 0x400000 4).trap played.2).faulted
    (reflects 0x400000 now).isSome && decide (now.Raised 0x400000 false) &&
      now.shadowMaps 0x400000 == now.guestMaps 0x400000
  have checked : (play (Sample.boot true) []).any check = true := by decide +kernel
  obtain ⟨past, vm, run, found⟩ := play_reaches (Sample.boot_registered true) checked
  simp only [check, Bool.and_eq_true, decide_eq_true_eq, beq_iff_eq] at found
  obtain ⟨⟨gives, raised⟩, same⟩ := found
  obtain ⟨⟨walked, next⟩, given⟩ := Option.isSome_iff_exists.mp gives
  have reflected := reflects_reflected given
  exact ⟨past, vm, walked, next, run, reflected, (pageFault_told raised reflected).mpr same⟩

/-- User code reads from a page of the kernel. The guest is told that the page is
not there. -/
theorem pageFault_untold : ∃ (past : List (Moment Vm Trap)) (vm walked next : Vm),
    GuestRun Sample.reg past vm ∧
      let now := ((Sample.fault 0x9000 4).trap vm).faulted
      now.Raised 0x9000 false ∧ Reflected 0x9000 now walked next ∧
        ¬ TellsFault now 0x9000 false (next.pushedCode walked 0x9000) next := by
  let check (played : List (Moment Vm Trap) × Vm) : Bool :=
    let now := ((Sample.fault 0x9000 4).trap played.2).faulted
    decide (now.Raised 0x9000 false) && (reflects 0x9000 now).any fun (walked, next) =>
      (next.pushedCode walked 0x9000).getLsbD 0 != now.guestMaps 0x9000
  have checked : (play (Sample.boot true) []).any check = true := by decide +kernel
  obtain ⟨past, vm, run, found⟩ := play_reaches (Sample.boot_registered true) checked
  simp only [check, Bool.and_eq_true, decide_eq_true_eq, Option.any_eq_true, bne_iff_ne] at found
  obtain ⟨raised, ⟨walked, next⟩, given, differs⟩ := found
  exact ⟨past, vm, walked, next, run, raised, reflects_reflected given,
    fun tells => differs tells.present⟩

end Plex86
