import Plex86.Monitor.Acceptance
import Plex86.Monitor.MachineRun

namespace Plex86

open Logic Vm

/-- The machine behind an instruction of this length. -/
def Vm.stepped (vm : Vm) (iLen : Nat) : Vm :=
  { vm with context := { vm.context with eip := vm.context.eip + BitVec.ofNat 32 iLen } }

/-- The guest is at INT with this vector, all of whose fetched bytes are mapped. -/
structure Vm.CallsInt (vm : Vm) (vector : Bit8u) : Prop where
  fetched : vm.core.ObjectMapped vm.context.eip 15
  opcode : (vm.core.objectAt vm.context.eip 15)[0]? = some 0xcd
  immediate : (vm.core.objectAt vm.context.eip 15)[1]? = some vector

section UserFault

variable {machine next : Machine}

private theorem byteAt_some {opcode : List Bit8u} {place : Nat} {byte : Bit8u}
    (here : opcode[place]? = some byte) : Emu.byteAt opcode place = pure byte := by
  rw [Emu.byteAt, here]

private theorem byteAt_ok {opcode : List Bit8u} {place : Nat} {byte : Bit8u}
    (run : Emu.byteAt opcode place machine = .ok byte next) :
    opcode[place]? = some byte ∧ machine = next := by
  unfold Emu.byteAt at run
  cases found : opcode[place]? with
  | none =>
      rw [found] at run
      cases run
  | some byte =>
      rw [found] at run
      cases run
      exact ⟨rfl, rfl⟩

/-- The fetch of an instruction. -/
theorem opcode_does (vm : Vm) : Does (getObjectLAddr vm.context.eip 15) vm.core
    (vm.core.ObjectMapped vm.context.eip 15) (vm.core.objectAt vm.context.eip 15) vm.core :=
  getObjectLAddr_does vm.core (by decide) (by decide)

/-- User code is emulated only where it is at INT. -/
theorem emulateUserInstr_calls (run : emulateUserInstr machine = .ok () next) :
    ∃ vector, machine.vm.CallsInt vector := by
  rw [emulateUserInstr, get_bind_apply] at run
  obtain ⟨opcode, fetched, fetch, run⟩ := bind_ok.mp run
  obtain ⟨mapped, rfl, -⟩ := (opcode_does machine.vm).ok (onVm_returns fetch)
  obtain ⟨b0, _, first, run⟩ := bind_ok.mp run
  obtain ⟨leading, rfl⟩ := byteAt_ok first
  rw [Logic.ite_apply] at run
  split at run
  · next int =>
      obtain ⟨vector, _, second, -⟩ := bind_ok.mp run
      exact ⟨vector, mapped, int ▸ leading, (byteAt_ok second).1⟩
  · cases run

/-- There it calls the guest's kernel, which is to return behind it. -/
theorem emulateUserInstr_delivers {vector : Bit8u} (calls : machine.vm.CallsInt vector)
    (ready : machine.vm.core.Ready)
    (tables : (machine.vm.stepped 2).Interrupts (vector.setWidth 32) intFlagSoftInt 0) :
    ∃ next, emulateUserInstr machine = .ok () next ∧ (machine.vm.stepped 2).core.AtHandler
      next.vm.core (vector.setWidth 32) intFlagSoftInt 0 := by
  obtain ⟨-, fetched, fetch, seen⟩ := (opcode_does machine.vm).run ready calls.fetched
  have same : (fetched.stepped 2).core = (machine.vm.stepped 2).core :=
    calc (fetched.stepped 2).core = fetched.core.stepped 2 := rfl
      _ = machine.vm.core.stepped 2 := by rw [seen]
  obtain ⟨able, outside⟩ := tables
  rw [← same] at able outside
  have willing : (fetched.stepped 2).core.Ready := by
    rw [same]
    exact ready.same rfl
  obtain ⟨entered, delivers, -, there⟩ := Interrupts.delivered ⟨able, outside⟩ willing
  rw [same] at there
  have fetching : onVm (getObjectLAddr machine.vm.context.eip 15) machine =
      .ok (machine.vm.core.objectAt machine.vm.context.eip 15) { machine with vm := fetched } := by
    rw [onVm, fetch]
  have committed : Emu.commit 2 { machine with vm := fetched } =
      .ok () { machine with
        vm := fetched.stepped 2
        advanced := (fetched.context.eip, fetched.context.eip + 2) :: machine.advanced } := rfl
  refine ⟨{ machine with
    vm := entered
    advanced := (fetched.context.eip, fetched.context.eip + 2) :: machine.advanced }, ?_, there⟩
  rw [emulateUserInstr, get_bind_apply]
  refine bind_ok.mpr ⟨_, _, fetching, ?_⟩
  rw [byteAt_some calls.opcode, pure_bind, if_pos rfl, byteAt_some calls.immediate, pure_bind]
  refine bind_ok.mpr ⟨(), _, committed, ?_⟩
  rw [onVm, delivers]

/-- What is due to an exception of user code: the guest's kernel at its handler for the
vector, with an error code where there is one, or the call of the kernel that the user
code was at. -/
inductive ReachesKernel (vm : Vm) (vector : Bit32u) (next : Vm) : Prop
  | reflected (intFlags errorCode : Bit32u)
      (coded : intFlags &&& intFlagPushError ≠ 0 ↔ vector = exceptionGP)
      (there : vm.core.AtHandler next.core vector intFlags errorCode)
  | called (number : Bit8u) (calls : vm.CallsInt number)
      (there : (vm.stepped 2).core.AtHandler next.core (number.setWidth 32) intFlagSoftInt 0)

/-- The guest's tables let every interrupt through that user code can be due here. -/
structure Vm.Receptive (vm : Vm) : Prop where
  device : vm.Interrupts exceptionNM intFlagAssertRF 0
  call : ∀ number : Bit8u, vm.CallsInt number →
    (vm.stepped 2).Interrupts (number.setWidth 32) intFlagSoftInt 0

private theorem passedOn_cases {vector : Bit32u} (passed : vector ∈ passedOn) :
    vector ≠ exceptionDB ∧ vector ≠ exceptionBR ∧ vector ≠ exceptionPF := by
  simp only [passedOn, List.mem_cons, List.not_mem_nil, or_false] at passed
  rcases passed with rfl | rfl | rfl | rfl | rfl | rfl | rfl <;> decide

/-- What is done about an exception of user code that is passed on. -/
def userFault (vector : Bit32u) : Emu Unit :=
  if vector = exceptionUD ∨ vector = exceptionGP then emulateUserInstr
  else if vector = exceptionNM then onVm (doGuestInterrupt exceptionNM intFlagAssertRF 0)
  else emuPanic "doGuestFault: unhandled exception %u.\n" [vector]

private theorem handleGuestFault_user {surroundings : Surroundings} {cycles : BitVec 64}
    {cr2 : Bit32u}
    (user : machine.vm.guestCPL = 3) (flags : machine.vm.running.Coherent)
    (passed : machine.vm.context.vector ∈ passedOn) :
    handleGuestFault surroundings cycles cr2 machine =
      userFault machine.vm.context.vector { machine with vm := machine.vm.entered cycles } := by
  obtain ⟨notDB, notBR, notPF⟩ := passedOn_cases passed
  have on : ¬ EFlags.if_ machine.vm.context.eflags = false := by
    rw [show EFlags.if_ machine.vm.context.eflags = true from flags.if_]
    exact Bool.noConfusion
  have plain : ¬ EFlags.vm machine.vm.context.eflags = true := by
    rw [show EFlags.vm machine.vm.context.eflags = false from flags.vm86]
    exact Bool.noConfusion
  have enter : onVm (enterGuestFault cycles) machine =
      .ok () { machine with vm := machine.vm.entered cycles } := by
    rw [onVm, enterGuestFault_apply, if_neg on, if_neg plain]
  have level : ¬ (machine.vm.entered cycles).guestCPL = 0 := by
    change ¬ machine.vm.guestCPL = 0
    rw [user]
    decide
  rw [handleGuestFault, bind_apply, enter]
  change dispatchFault surroundings cr2 machine.vm.context.vector _ = _
  rw [dispatchFault, if_neg notDB, if_neg notBR, if_pos passed, doGuestFault, get_bind_apply,
    if_neg level, if_neg level, if_neg notPF, userFault]

/-- The exceptions of user code that are the kernel's business: the missing FPU, and
the instruction INT. -/
def Vm.CallsKernel (vm : Vm) (vector : Bit32u) : Prop :=
  vector = exceptionNM ∨
    ((vector = exceptionUD ∨ vector = exceptionGP) ∧ ∃ number, vm.CallsInt number)

private theorem userFault_calls {vector : Bit32u} (run : userFault vector machine = .ok () next) :
    machine.vm.CallsKernel vector := by
  rw [userFault, Logic.ite_apply] at run
  split at run
  · next emulated => exact .inr ⟨emulated, emulateUserInstr_calls run⟩
  rw [Logic.ite_apply] at run
  split at run
  · next device => exact .inl device
  · cases run

private theorem userFault_delivers {vector : Bit32u} (calls : machine.vm.CallsKernel vector)
    (ready : machine.vm.core.Ready) (receptive : machine.vm.Receptive) :
    ∃ next, userFault vector machine = .ok () next ∧ ReachesKernel machine.vm vector next.vm := by
  rcases calls with device | ⟨emulated, number, calls⟩
  · obtain ⟨entered, delivers, -, there⟩ := receptive.device.delivered ready
    refine ⟨{ machine with vm := entered }, ?_, .reflected intFlagAssertRF 0 ?_ (device ▸ there)⟩
    · rw [userFault, device, if_neg (by decide), if_pos rfl, onVm, delivers]
    · rw [device]
      decide
  · obtain ⟨next, run, there⟩ := emulateUserInstr_delivers calls ready (receptive.call number calls)
    exact ⟨next, by rw [userFault, if_pos emulated, run], .called number calls there⟩

/-- Of the exceptions of user code that are passed on to `doGuestFault`, the guest's
kernel gets to see exactly the missing FPU, and the instruction INT. With any other
one the monitor stops. -/
theorem user_exception_reaches {surroundings : Surroundings} {cycles : BitVec 64} {cr2 : Bit32u}
    (user : machine.vm.guestCPL = 3) (flags : machine.vm.running.Coherent)
    (ready : machine.vm.core.Ready) (receptive : (machine.vm.entered cycles).Receptive)
    (passed : machine.vm.context.vector ∈ passedOn) :
    ((∃ next, handleGuestFault surroundings cycles cr2 machine = .ok () next ∧
      ReachesKernel (machine.vm.entered cycles) machine.vm.context.vector next.vm) ↔
        (machine.vm.entered cycles).CallsKernel machine.vm.context.vector) ∧
    (¬ (machine.vm.entered cycles).CallsKernel machine.vm.context.vector →
      ∃ stop last, handleGuestFault surroundings cycles cr2 machine = .error stop last) := by
  rw [handleGuestFault_user user flags passed]
  have willing : (machine.vm.entered cycles).core.Ready := ready.same rfl
  refine ⟨⟨?_, ?_⟩, ?_⟩
  · rintro ⟨next, run, -⟩
    exact userFault_calls run
  · intro calls
    exact @userFault_delivers { machine with vm := machine.vm.entered cycles } _ calls willing
      receptive
  · intro other
    cases ends : userFault machine.vm.context.vector
        { machine with vm := machine.vm.entered cycles } with
    | ok _ next => exact (other (userFault_calls ends)).elim
    | error stop last => exact ⟨stop, last, rfl⟩

end UserFault

namespace Sample

/-- User code at INT 0x80, and gates that it may call through. -/
def userCode (ppi : Bit32u) : Bytes :=
  if ppi = 7 then fun offset => if offset = 0 then 0xcd else if offset = 1 then 0x80 else 0
  else if ppi = 3 then pageOf fun index => if index % 2 = 0 then 0x00107000 else 0x0000ee00
  else memory ppi

/-- User code has called the kernel. -/
def calling : Vm :=
  let vm := { boot true with mem := userCode }.atEntry
  { vm with context := { vm.context with vector := exceptionGP } }

/-- The guest is at INT with this vector, as far as can be computed. -/
def callsInt (vm : Vm) (vector : Bit8u) : Bool :=
  (leaves (getObjectLAddr vm.context.eip 15 >>= fun _ => pure ()) vm).isSome &&
    decide ((vm.core.objectAt vm.context.eip 15)[0]? = some 0xcd) &&
    decide ((vm.core.objectAt vm.context.eip 15)[1]? = some vector)

private theorem callsInt_calls {vm : Vm} {vector : Bit8u} (checked : callsInt vm vector = true) :
    vm.CallsInt vector := by
  simp only [callsInt, Bool.and_eq_true, decide_eq_true_eq] at checked
  obtain ⟨⟨fetches, opcode⟩, immediate⟩ := checked
  obtain ⟨after, left⟩ := Option.isSome_iff_exists.mp fetches
  obtain ⟨bytes, _, fetch, -⟩ := bind_ok.mp (leaves_eq_some.mp left)
  exact ⟨((opcode_does vm).ok fetch).1, opcode, immediate⟩

end Sample

open Sample in
/-- User code calls the kernel with INT 0x80. -/
theorem user_exception_reaches_sample : ∃ next : Machine,
    handleGuestFault outside 0 0 { vm := calling } = .ok () next ∧
      ReachesKernel (calling.entered 0) exceptionGP next.vm := by
  have called : (calling.entered 0).CallsInt 0x80 := callsInt_calls (by decide +kernel)
  have device : interrupts (calling.entered 0) 6 exceptionNM intFlagAssertRF = true := by
    decide +kernel
  have call : interrupts ((calling.entered 0).stepped 2) 6 0x80 intFlagSoftInt = true := by
    decide +kernel
  have receptive : (calling.entered 0).Receptive := by
    refine ⟨interrupts_tables device, fun number calls => ?_⟩
    cases Option.some.inj (calls.immediate.symm.trans called.immediate)
    exact interrupts_tables call
  have flags : calling.running.Coherent := by
    constructor
    · exact .inr rfl
    all_goals decide +kernel
  have ready : calling.core.Ready :=
    @Registration.ready reg calling.core rfl (by decide) fun _ _ => rfl
  apply (@user_exception_reaches { vm := calling } outside 0 0 rfl flags ready receptive
    (by decide +kernel)).1.mpr
  exact .inr ⟨.inr rfl, 0x80, called⟩

end Plex86
