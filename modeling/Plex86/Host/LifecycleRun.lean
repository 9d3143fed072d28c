import Plex86.Host.Lifecycle

namespace Plex86

open Logic

namespace HostVm

/-- The flags that a registration leaves alone until it has succeeded. -/
def outerFlags : Bit32u := ~~~(vmStateMemAllocated ||| vmStateRegisteredAll)

/-- What is not about the memory of a machine. -/
structure Outer where
  flags : Bit32u
  monRequest : MonReq
  entries : Nat
  loads : Nat

def outer (vm : HostVm) : Outer :=
  ⟨vm.vmState &&& outerFlags, vm.monRequest, vm.entries, vm.loads⟩

private theorem outer_set {vm : HostVm} {bit : Bit32u} (inner : bit &&& outerFlags = 0#32) :
    (vm.vmState ||| bit) &&& outerFlags = vm.vmState &&& outerFlags := by
  rw [BitVec.and_or_distrib_right, inner, BitVec.or_zero]

private theorem outer_clear {vm : HostVm} {bit : Bit32u}
    (inner : ~~~bit &&& outerFlags = outerFlags) :
    (vm.vmState &&& ~~~bit) &&& outerFlags = vm.vmState &&& outerFlags := by
  rw [BitVec.and_assoc, inner]

/-- The program is about the memory of the machine. -/
abbrev KeepsOuter {α : Type} (now : Outer) (program : Host α) : Prop :=
  Keeps (fun vm => vm.outer = now) (fun _ vm => vm.outer = now) program

section Memory

variable {now : Outer}

private theorem oopsWhen_outer (cond : Prop) [Decidable cond] : KeepsOuter now (oopsWhen cond) :=
  Keeps.ite (fun _ => .throw fun _ here => here) fun _ => .pure

private theorem serve_outer (service : HostService) : KeepsOuter now (serve service) :=
  Keeps.modify fun _ here => here

private theorem plain_outer (answers : Answers) :
    Plain answers (fun vm => vm.outer = now) (fun vm => vm.outer = now) where
  stop _ here := here
  block vm block here _ := by
    unfold afterAlloc
    split <;> exact here
  refused vm block here := by
    unfold afterAlloc
    split <;> exact here
  frames _ _ _ here := here

private theorem pinShared_outer (answers : Answers) (shared : SharedPage) {bit : Bit32u}
    (inner : bit &&& outerFlags = 0#32) : KeepsOuter now (pinShared answers shared bit) := by
  unfold pinShared
  split
  · exact Keeps.throw fun _ here => here
  · refine Keeps.modify fun vm here => ?_
    rw [← here, outer, outer, withShared, outer_set inner]

theorem allocSteps_outer (answers : Answers) (msg : RegisterMem) :
    KeepsOuter now (allocSteps answers msg) := by
  have plain : Plain answers (fun vm => vm.outer = now) fun vm => vm.outer = now :=
    plain_outer answers
  refine Keeps.bind (Keeps.modify fun vm here => ?_) fun _ =>
    Keeps.bind (pinShared_outer _ _ (by decide)) fun _ =>
      Keeps.bind (Stable.inOrder (List.forall_mem_cons.mpr ⟨pinShared_outer _ _ (by decide),
        plain.steps msg⟩)) fun _ => Keeps.modify fun vm here => ?_
  · rw [← here, outer, outer, beginAlloc, outer_set (by decide)]
  · rw [← here, outer, outer, outer_set (by decide)]

private theorem hostOSUnpinUserPage_outer (hostOSPtr : HostPtr) :
    KeepsOuter now (hostOSUnpinUserPage hostOSPtr) :=
  Keeps.bind (oopsWhen_outer _) fun _ => serve_outer _

private theorem releaseGuestPages_outer (ppi : Bit32u) (pages : Nat) :
    KeepsOuter now (releaseGuestPages ppi pages) := by
  induction pages generalizing ppi with
  | zero => exact Keeps.pure
  | succ pages inductionHypothesis =>
      refine Keeps.bind ?_ fun _ => inductionHypothesis (ppi + 1)
      refine Keeps.get_bind fun _ _ => Keeps.bind (oopsWhen_outer _) fun _ => ?_
      refine Keeps.ite (fun _ => ?_) fun _ => .pure
      exact Keeps.get_bind fun _ _ => Keeps.bind (oopsWhen_outer _) fun _ =>
        Keeps.bind (hostOSUnpinUserPage_outer _) fun _ => Keeps.modify fun _ here => here

private theorem releaseGuestMemory_outer : KeepsOuter now releaseGuestMemory := by
  refine Keeps.get_bind fun _ _ => Keeps.ite (fun _ => ?_) fun _ => .pure
  refine Keeps.bind ?_ fun _ => Keeps.modify fun _ here => here
  exact Keeps.get_bind fun _ _ => Keeps.bind (releaseGuestPages_outer _ _) fun _ =>
    Keeps.bind (hostOSUnpinUserPage_outer _) fun _ => hostOSUnpinUserPage_outer _

private theorem freeBlocks_outer (blocks : List Block) : KeepsOuter now (freeBlocks blocks) := by
  induction blocks with
  | nil => exact Keeps.pure
  | cons block rest inductionHypothesis =>
      refine Keeps.get_bind fun _ _ => Keeps.bind ?_ fun _ => inductionHypothesis
      exact Keeps.ite (fun _ => serve_outer _) fun _ => .pure

theorem hostUnallocVmPages_outer : KeepsOuter now hostUnallocVmPages := by
  refine Keeps.bind releaseGuestMemory_outer fun _ => Keeps.bind (Keeps.modify fun vm here => ?_)
    fun _ => Keeps.bind (freeBlocks_outer _) fun _ => Keeps.modify fun _ here => here
  rw [← here, outer, outer, outer_clear (by decide)]

private theorem hostInitGuestPhyMem_outer : KeepsOuter now hostInitGuestPhyMem :=
  Keeps.get_bind fun _ _ => Keeps.ite (fun _ => .pure) fun _ =>
    Keeps.bind (Keeps.modify fun _ here => here) fun _ => .pure

/-- The machine is ready to be run. -/
def Outer.monitored (outer : Outer) : Outer :=
  { outer with
    flags := outer.flags ||| vmStateInitMonitor ||| vmStateMapMonitor, monRequest := .none }

/-- What the answer to a request for memory says of the rest of the machine. -/
def OuterAfter (now : Outer) (errno : Option Errno) (vm : HostVm) : Prop :=
  vm.outer = if errno = none then now.monitored else now

private theorem setUpMonitor_outer (answers : Answers) :
    Ensures (fun vm => vm.outer = now) (setUpMonitor answers)
      (fun done vm => vm.outer = if done = true then now.monitored else now)
      fun _ vm => vm.outer = now := by
  rintro vm rfl
  by_cases large : 4096 < answers.nexusSize
  · rw [setUpMonitor, bind_apply, hostInitMonitor, if_pos large]
    rfl
  · rw [setUpMonitor, bind_apply, hostInitMonitor, if_neg large]
    simp only [modify_bind_apply, pure_apply, hostMapMonitor, if_true, outer, Outer.monitored]
    rw [BitVec.and_or_distrib_right, BitVec.and_or_distrib_right]
    rfl

private theorem failWith_after (errno : Errno) :
    Ensures (fun vm => vm.outer = now) (failWith errno) (OuterAfter now)
      fun _ vm => vm.outer = now :=
  Ensures.bind hostUnallocVmPages_outer fun _ => Ensures.pure fun _ here => here

private theorem initialise_outer (answers : Answers) :
    Ensures (fun vm => vm.outer = now) (initialise answers) (OuterAfter now)
      fun _ vm => vm.outer = now := by
  refine Ensures.bind hostInitGuestPhyMem_outer fun _ =>
    Ensures.ite (fun _ => ?_) fun _ => failWith_after _
  refine Ensures.bind (setUpMonitor_outer answers) fun done => ?_
  cases done with
  | true => exact Ensures.pure fun _ here => here
  | false => exact failWith_after _

end Memory

/-- A request for memory that passes the checks. -/
theorem register_outer {answers : Answers} {msg : RegisterMem} {vm : HostVm}
    (passed : msg.check vm.vmState vm.pages.guestNMegs = none) :
    Ensures (· = vm) (hostIoctlRegisterMem answers msg) (OuterAfter vm.outer)
      fun _ last => last.outer = vm.outer := by
  rintro vm rfl
  have keeps : KeepsOuter vm.outer (allocSteps answers msg) := allocSteps_outer answers msg
  have allocated := keeps vm rfl
  rw [hostIoctlRegisterMem_passed passed]
  cases ran : allocSteps answers msg vm with
  | ok value now =>
      rw [ran] at allocated
      exact initialise_outer answers now allocated
  | error stop now =>
      rw [ran] at allocated
      cases stop with
      | oops | running => exact allocated
      | error => exact failWith_after .enomem now allocated

/-- The CPU state of the guest has been loaded `loads` times, and the flags are these. -/
def Executing (flags : Bit32u) (loads : Nat) (vm : HostVm) : Prop :=
  vm.vmState = flags ∧ vm.loads = loads

/-- The monitor is to be returned to, or there has been a panic. -/
def Suspended (flags : Bit32u) (loads : Nat) (vm : HostVm) : Prop :=
  vm.loads = loads ∧
    ((vm.vmState = flags ∧ vm.monRequest ≠ .none) ∨ vm.vmState = flags ||| vmStatePanic)

section Execution

variable {flags : Bit32u} {loads : Nat}

private theorem handlePanic_suspends (retval : Nat) :
    Ensures (Executing flags loads) (handlePanic retval) (fun _ => Suspended flags loads)
      fun _ vm => vm.loads = loads :=
  Ensures.bind (Ensures.modify fun _ ⟨state, same⟩ => ⟨same, .inr (by rw [state])⟩) fun _ =>
    Ensures.pure fun _ here => here

private theorem hostHandlePagePinRequest_executing (ppi : Bit32u) (page : Option PinnedPage) :
    Keeps (Executing flags loads) (fun _ vm => vm.loads = loads)
      (hostHandlePagePinRequest ppi page) := by
  have serves : ∀ service, Keeps (Executing flags loads) (fun _ vm => vm.loads = loads)
      (serve service) := fun _ => Keeps.modify fun _ here => here
  have room : Keeps (Executing flags loads) (fun _ vm => vm.loads = loads) makeRoom := by
    refine Keeps.get_bind fun _ _ => Keeps.ite (fun _ => .pure) fun _ => ?_
    refine Keeps.get_bind fun _ _ => Keeps.bind (Keeps.bind ?_ fun _ => serves _) fun _ =>
      Keeps.modify fun _ here => here
    exact Keeps.ite (fun _ => .throw fun _ here => here.2) fun _ => .pure
  refine Keeps.get_bind fun _ _ => Keeps.bind room fun _ => ?_
  cases page with
  | none => exact .pure
  | some page =>
      exact Keeps.bind (serves _) fun _ => Keeps.bind (Keeps.modify fun _ here => here) fun _ => .pure

private theorem executeVMLoop_suspends (hostIF : Bool) (returns : List MonitorReturn) :
    Ensures (Executing flags loads) (executeVMLoop hostIF returns) (fun _ => Suspended flags loads)
      fun _ vm => vm.loads = loads := by
  induction returns with
  | nil => exact Ensures.throw fun _ here => here.2
  | cons back rest inductionHypothesis =>
      refine Ensures.ite (fun _ => handlePanic_suspends _) fun _ => ?_
      have entered : Ensures (Executing flags loads) (host2mon back)
          (fun _ vm => Executing flags loads vm ∧ vm.monRequest = back.request)
          fun _ vm => vm.loads = loads := Ensures.modify fun _ here => ⟨here, rfl⟩
      have panics (request : MonReq) (retval : Nat) :
          Ensures (fun vm => Executing flags loads vm ∧ vm.monRequest = request) (handlePanic retval)
            (fun _ => Suspended flags loads) fun _ vm => vm.loads = loads :=
        Ensures.weaken (handlePanic_suspends _) (fun _ here => here.1) (fun _ _ here => here)
          fun _ _ here => here
      have leaves {request : MonReq} (asked : request ≠ .none) :
          Ensures (fun vm => Executing flags loads vm ∧ vm.monRequest = request) (pure 0 : Host Nat)
            (fun _ => Suspended flags loads) fun _ vm => vm.loads = loads :=
        Ensures.pure fun _ here => ⟨here.1.2, .inl ⟨here.1.1, here.2 ▸ asked⟩⟩
      refine Ensures.bind entered fun _ => ?_
      cases back.request with
      | redirect =>
          refine Ensures.ite (fun _ => ?_) fun _ => leaves (by decide)
          exact Ensures.bind (Ensures.modify fun _ here => here.1) fun _ => inductionHypothesis
      | flushPrintBuf | halCall | bogus => exact leaves (by decide)
      | remapMonitor | panic | none | guestFault | cyclesUpdate => exact panics _ _
      | pinUserPage =>
          refine Ensures.bind (Ensures.weaken (hostHandlePagePinRequest_executing _ _)
            (fun _ here => here.1) (fun _ _ here => here) fun _ _ here => here) fun _ => ?_
          exact Ensures.ite (fun _ => inductionHypothesis) fun _ => handlePanic_suspends _

end Execution

/-- How far an execution has come: only a machine that is ready is entered, and only
where nothing has been requested is the CPU state loaded. -/
structure Within (vm last : HostVm) : Prop where
  entered : vm.vmState = vmStateReady ∨ last.entries = vm.entries
  loaded : (vm.vmState = vmStateReady ∧ vm.monRequest = .none) ∨ last.loads = vm.loads

/-- The state of the guest is not touched. -/
structure Untouched (vm next : HostVm) : Prop where
  vmState : next.vmState = vm.vmState
  monRequest : next.monRequest = vm.monRequest
  loads : next.loads = vm.loads

/-- What is left where an execution returns. -/
structure Executed (vm next : HostVm) : Prop where
  within : Within vm next
  left : Untouched vm next ∨ (next.vmState = vm.vmState ∧ next.monRequest ≠ .none) ∨
    next.vmState = vm.vmState ||| vmStatePanic

/-- The loop runs only on a machine that is ready. -/
theorem executeVMLoop_executed {vm : HostVm} (loads : Nat) (ready : vm.vmState = vmStateReady)
    (load : vm.monRequest = .none ∨ loads = vm.loads) (hostIF : Bool)
    (returns : List MonitorReturn) :
    Ensures (Executing vm.vmState loads) (executeVMLoop hostIF returns) (fun _ => Executed vm)
      fun _ => Within vm := by
  have within {last : HostVm} (same : last.loads = loads) : Within vm last :=
    ⟨.inl ready, load.imp (fun fresh => ⟨ready, fresh⟩) same.trans⟩
  refine Ensures.weaken (executeVMLoop_suspends hostIF returns) (fun _ here => here)
    (fun _ next left => ⟨within left.1, .inr left.2⟩) fun _ last same => within same

private theorem hostIoctlExecute_executed (execution : Execution) (vm : HostVm) :
    Ensures (· = vm) (hostIoctlExecute execution) (fun _ => Executed vm) fun _ => Within vm := by
  have panics (retval : Nat) :
      Ensures (· = vm) (handlePanic retval) (fun _ => Executed vm) fun _ => Within vm := by
    apply Ensures.exactly
    exact ⟨⟨.inr rfl, .inr rfl⟩, .inr (.inr rfl)⟩
  have fails (retval : Nat) :
      Ensures (· = vm) (pure retval : Host Nat) (fun _ => Executed vm) fun _ => Within vm := by
    apply Ensures.exactly
    exact ⟨⟨.inr rfl, .inr rfl⟩, .inl ⟨rfl, rfl, rfl⟩⟩
  refine Ensures.get_bind fun now same => ?_
  obtain rfl : now = vm := same
  refine Ensures.ite (fun _ => panics _) fun state => ?_
  have ready : now.vmState = vmStateReady := not_not.mp state
  refine Ensures.ite (fun _ => ?_) fun _ => Ensures.ite (fun _ => panics _) fun request => ?_
  · refine Ensures.bind (Ensures.modify ?_) fun _ =>
      executeVMLoop_executed now.loads ready (.inr rfl) execution.hostIF execution.returns
    rintro _ rfl
    exact ⟨rfl, rfl⟩
  · have fresh : now.monRequest = .none := not_not.mp request
    refine Ensures.ite (fun _ => fails _) fun _ => ?_
    cases execution.badCpuState with
    | some retval => exact fails _
    | none =>
        refine Ensures.bind (Ensures.modify ?_) fun _ =>
          executeVMLoop_executed (now.loads + 1) ready (.inl fresh) execution.hostIF execution.returns
        rintro _ rfl
        exact ⟨rfl, rfl⟩

end HostVm

/-- The `cmd` of an ioctl. -/
inductive IoctlCmd
  | cpuid | registerMemory | unregisterMemory | linuxVMMode | teardown | execute | reset | unknown

def Ioctl.cmd : Ioctl → IoctlCmd
  | .cpuid _ => .cpuid
  | .registerMemory _ _ _ => .registerMemory
  | .unregisterMemory => .unregisterMemory
  | .linuxVMMode => .linuxVMMode
  | .teardown => .teardown
  | .execute _ => .execute
  | .reset => .reset
  | .unknown => .unknown

namespace HostVm

-- The places of bits of `vm->vmState`
def cpuidPlace : Nat := 2
def phyMemPlace : Nat := 3
def mapMonitorPlace : Nat := 7
def panicPlace : Nat := 8

/-- At this moment an ioctl with this command was served without an error. -/
def Serves (cmd : IoctlCmd) (moment : Moment HostVm Ioctl) : Prop :=
  moment.event.cmd = cmd ∧
    ∃ value, hostIoctlGeneric moment.event moment.before = .ok (.ok value) moment.after

/-- A request for memory reached a device with nothing but the CPUID set. -/
def FreshlyOpened (vm : HostVm) : Prop :=
  ∀ place, place ≠ cpuidPlace → vm.vmState.getLsbD place = vmStateFDOpened.getLsbD place

/-- What an ioctl does to the life of a machine. -/
inductive Effect (moment : Moment HostVm Ioctl) : Prop
  | untouched (kept : Untouched moment.before moment.after)
      (other : moment.event.cmd ≠ .unregisterMemory)
  | cpuid (done : Serves .cpuid moment)
      (set : moment.after.vmState = moment.before.vmState ||| vmStateGuestCPUID)
      (monRequest : moment.after.monRequest = moment.before.monRequest)
      (loads : moment.after.loads = moment.before.loads)
  | registered (done : Serves .registerMemory moment) (fresh : FreshlyOpened moment.before)
      (outer : moment.after.outer = moment.before.outer.monitored)
  | notRegistered (fresh : FreshlyOpened moment.before)
      (outer : moment.after.outer = moment.before.outer)
  | unregistered (event : moment.event.cmd = .unregisterMemory)
      (cleared : moment.after.vmState = moment.before.vmState &&& ~~~vmStateRegisteredAll)
      (monRequest : moment.after.monRequest = moment.before.monRequest)
      (loads : moment.after.loads = moment.before.loads)
  | tornDown (done : Serves .teardown moment) (closed : moment.after.vmState = vmStateFDOpened)
      (loads : moment.after.loads = moment.before.loads)
  | executed (event : moment.event.cmd = .execute) (done : Executed moment.before moment.after)

/-- Every ioctl that returns has one of these effects. -/
theorem ioctl_effect {vm next : HostVm} {ioctl : Ioctl} (step : IoctlStep vm ioctl next) :
    Effect ⟨vm, ioctl, next⟩ := by
  have quiet (other : ioctl.cmd ≠ .unregisterMemory) : Effect ⟨vm, ioctl, vm⟩ :=
    .untouched ⟨rfl, rfl, rfl⟩ other
  obtain ⟨result, run⟩ := step
  cases ioctl with
  | cpuid copied =>
      by_cases set : vm.vmState &&& vmStateGuestCPUID ≠ 0
      · rw [hostIoctlGeneric, get_bind_apply, if_pos set] at run
        cases run
        exact quiet (by simp [Ioctl.cmd])
      · cases copied with
        | false =>
            rw [hostIoctlGeneric, get_bind_apply, if_neg set] at run
            cases run
            exact quiet (by simp [Ioctl.cmd])
        | true =>
            have served := run
            rw [hostIoctlGeneric, get_bind_apply, if_neg set] at run
            cases run
            exact .cpuid ⟨rfl, _, served⟩ rfl rfl rfl
  | registerMemory copied msg answers =>
      cases copied with
      | false =>
          cases run
          exact quiet (by simp [Ioctl.cmd])
      | true =>
          cases checked : msg.check vm.vmState vm.pages.guestNMegs with
          | some errno =>
              rw [hostIoctlGeneric, if_neg (by simp), hostIoctlRegisterMem, bind_apply,
                get_bind_apply, checked] at run
              cases run
              exact quiet (by simp [Ioctl.cmd])
          | none =>
              have fresh : FreshlyOpened vm := fun place => passed_state checked
              have served := run
              rw [hostIoctlGeneric, if_neg (by simp)] at run
              obtain ⟨errno, now, registered, answered⟩ := bind_ok.mp run
              have outer := (register_outer checked).returns rfl registered
              cases errno with
              | none =>
                  cases answered
                  exact .registered ⟨rfl, _, served⟩ fresh outer
              | some errno =>
                  cases answered
                  exact .notRegistered fresh outer
  | unregisterMemory =>
      cases run
      exact .unregistered rfl rfl rfl rfl
  | teardown =>
      by_cases busy : vm.vmState &&& vmStateRegisteredAll ≠ 0
      · rw [hostIoctlGeneric, get_bind_apply, if_pos busy] at run
        cases run
        exact quiet (by simp [Ioctl.cmd])
      · have served := run
        rw [hostIoctlGeneric, get_bind_apply, if_neg busy] at run
        obtain ⟨_, freed, given, rest⟩ := bind_ok.mp run
        have same : freed.outer = vm.outer := hostUnallocVmPages_outer.returns rfl given
        cases rest
        exact .tornDown ⟨rfl, _, served⟩ rfl (congrArg Outer.loads same)
  | execute execution =>
      cases copied : execution.copied with
      | false =>
          rw [hostIoctlGeneric, if_pos copied] at run
          cases run
          exact quiet (by simp [Ioctl.cmd])
      | true =>
          rw [hostIoctlGeneric, if_neg (by simp [copied])] at run
          obtain ⟨retval, now, executed, answered⟩ := bind_ok.mp run
          have done : Executed vm now :=
            (hostIoctlExecute_executed execution vm).returns rfl executed
          rw [Logic.ite_apply] at answered
          split at answered <;> cases answered <;> exact .executed rfl done
  | linuxVMMode =>
      cases run
      exact .untouched ⟨rfl, rfl, rfl⟩ (by simp [Ioctl.cmd])
  | reset | unknown =>
      cases run
      exact quiet (by simp [Ioctl.cmd])

/-- Neither is the monitor entered nor the CPU state loaded. -/
theorem Within.of_outer {vm last : HostVm} (entries : last.entries = vm.entries)
    (loads : last.loads = vm.loads) : Within vm last :=
  ⟨.inr entries, .inr loads⟩

theorem OuterAfter.within {vm last : HostVm} {errno : Option Errno}
    (after : OuterAfter vm.outer errno last) : Within vm last := by
  have same : last.outer.entries = vm.outer.entries ∧ last.outer.loads = vm.outer.loads := by
    rw [after]
    split <;> exact ⟨rfl, rfl⟩
  exact .of_outer same.1 same.2

/-- Also an ioctl that does not return loads the CPU state only into a machine that is
ready and not running already. -/
theorem ioctl_within (vm : HostVm) (ioctl : Ioctl) :
    Ensures (· = vm) (hostIoctlGeneric ioctl) (fun _ => Within vm) fun _ => Within vm := by
  have same {vm last : HostVm} (outer : last.outer = vm.outer) : Within vm last :=
    .of_outer (congrArg Outer.entries outer) (congrArg Outer.loads outer)
  have quiet (answer : IoctlResult) :
      Ensures (· = vm) (pure answer : Host IoctlResult) (fun _ => Within vm) fun _ => Within vm :=
    Ensures.pure fun _ here => same (congrArg outer here)
  cases ioctl with
  | cpuid copied =>
      refine Ensures.look_bind fun _ _ => Ensures.ite (fun _ => quiet _) fun _ =>
        Ensures.ite (fun _ => quiet _) fun _ => Ensures.bind (Ensures.modify ?_) fun _ =>
          Ensures.pure fun _ here => here
      rintro _ rfl
      exact .of_outer rfl rfl
  | registerMemory copied msg answers =>
      have registers : Ensures (· = vm) (hostIoctlRegisterMem answers msg) (fun _ => Within vm)
          fun _ => Within vm := by
        cases checked : msg.check vm.vmState vm.pages.guestNMegs with
        | none =>
            exact Ensures.weaken (register_outer checked) (fun _ here => here)
              (fun _ _ after => after.within) fun _ _ outer => same outer
        | some errno =>
            rintro _ rfl
            rw [hostIoctlRegisterMem, get_bind_apply, checked]
            exact same rfl
      refine Ensures.ite (fun _ => quiet _) fun _ => Ensures.bind registers fun errno => ?_
      cases errno <;> exact Ensures.pure fun _ here => here
  | unregisterMemory | linuxVMMode =>
      refine Ensures.bind (Ensures.modify ?_) fun _ => Ensures.pure fun _ here => here
      rintro _ rfl
      exact .of_outer rfl rfl
  | teardown =>
      refine Ensures.look_bind fun _ _ => Ensures.ite (fun _ => quiet _) fun _ => ?_
      have freed : Ensures (· = vm) hostUnallocVmPages (fun _ last => last.outer = vm.outer)
          fun _ => Within vm :=
        Ensures.weaken hostUnallocVmPages_outer (fun _ here => congrArg outer here)
          (fun _ _ outer => outer) fun _ _ outer => same outer
      refine Ensures.bind freed fun _ => Ensures.bind (Ensures.modify fun _ here => ?_) fun _ =>
        Ensures.pure fun _ here => here
      exact .of_outer (congrArg Outer.entries here) (congrArg Outer.loads here)
  | execute execution =>
      refine Ensures.ite (fun _ => quiet _) fun _ =>
        Ensures.bind (hostIoctlExecute_executed execution vm) fun _ => ?_
      exact Ensures.ite (fun _ => Ensures.pure fun _ here => here.within) fun _ =>
        Ensures.pure fun _ here => here.within
  | reset | unknown => exact quiet _

/-- A bit that a registration leaves alone until it has succeeded. -/
theorem has_iff {place : Nat} (outside : outerFlags.getLsbD place = true) (vm : HostVm) :
    vm.Has place ↔ vm.outer.flags.getLsbD place = true := by
  rw [outer, BitVec.getLsbD_and, outside, Bool.and_true]
  exact Iff.rfl

private theorem Has.of_outer {vm next : HostVm} {place : Nat} (has : vm.Has place)
    (outside : outerFlags.getLsbD place = true) (same : next.outer = vm.outer) :
    next.Has place := by
  rw [has_iff outside, same, ← has_iff outside]
  exact has

/-- The bits of the monitor are all that a registration sets outside the memory. -/
theorem has_monitored {vm next : HostVm} {place : Nat} (outside : outerFlags.getLsbD place = true)
    (same : next.outer = vm.outer.monitored) :
    next.Has place ↔
      vm.Has place ∨ (vmStateInitMonitor ||| vmStateMapMonitor).getLsbD place = true := by
  rw [has_iff outside, same, Outer.monitored, has_iff outside vm, BitVec.or_assoc,
    BitVec.getLsbD_or, Bool.or_eq_true]

/-- A machine that has been torn down is as it was opened. -/
theorem Serves.opened {moment : Moment HostVm Ioctl} (served : Serves .teardown moment) :
    moment.after.vmState = vmStateFDOpened := by
  obtain ⟨before, event, after⟩ := moment
  obtain ⟨cmd, value, run⟩ := served
  cases event with
  | teardown =>
      rw [hostIoctlGeneric, get_bind_apply, Logic.ite_apply] at run
      split at run
      · cases run
      · obtain ⟨_, freed, _, rest⟩ := bind_ok.mp run
        cases rest
        rfl
  | cpuid | registerMemory | unregisterMemory | linuxVMMode | execute | reset | unknown => cases cmd

namespace Effect

variable {moment : Moment HostVm Ioctl} {place : Nat}

/-- Until the machine is torn down, a bit outside its memory stays set. -/
theorem keeps_bit (effect : Effect moment) (outside : outerFlags.getLsbD place = true)
    (has : moment.before.Has place) : moment.after.Has place ∨ Serves .teardown moment := by
  cases effect with
  | untouched kept => exact .inl (by rwa [Has, kept.vmState])
  | cpuid _ set => exact .inl (by rw [Has, set]; exact has.set _)
  | registered _ _ same => exact .inl ((has_monitored outside same).mpr (.inl has))
  | notRegistered _ same => exact .inl (has.of_outer outside same)
  | unregistered _ cleared =>
      left
      have set : moment.before.vmState.getLsbD place = true := has
      have small := BitVec.lt_of_getLsbD set
      have inner : vmStateRegisteredAll.getLsbD place = false := by
        have spared : (vmStateRegisteredAll &&& outerFlags).getLsbD place = false := by
          rw [show vmStateRegisteredAll &&& outerFlags = 0#32 by decide, BitVec.getLsbD_zero]
        rwa [BitVec.getLsbD_and, outside, Bool.and_true] at spared
      rw [Has, cleared, BitVec.getLsbD_and, set, BitVec.getLsbD_not, inner]
      simp [small]
  | tornDown done => exact .inr done
  | executed _ done =>
      left
      rcases done.left with kept | ⟨same, -⟩ | panicked
      · rwa [Has, kept.vmState]
      · rwa [Has, same]
      · rw [Has, panicked]
        exact has.set _

/-- A new bit is that of the CPUID, one of the monitor's, that of a panic, or about memory. -/
theorem sets_bit (effect : Effect moment) (outside : outerFlags.getLsbD place = true)
    (has : moment.after.Has place) :
    (moment.before.Has place ∧ ¬ Serves .teardown moment) ∨
      (Serves .cpuid moment ∧ vmStateGuestCPUID.getLsbD place = true) ∨
      (Serves .registerMemory moment ∧
        (vmStateInitMonitor ||| vmStateMapMonitor).getLsbD place = true) ∨
      vmStatePanic.getLsbD place = true ∨ vmStateFDOpened.getLsbD place = true := by
  by_cases torn : Serves .teardown moment
  · rw [Has, torn.opened] at has
    exact .inr (.inr (.inr (.inr has)))
  cases effect with
  | untouched kept =>
      rw [Has, kept.vmState] at has
      exact .inl ⟨has, torn⟩
  | cpuid done set =>
      rw [Has, set, BitVec.getLsbD_or, Bool.or_eq_true] at has
      exact has.imp (fun old => ⟨old, torn⟩) fun new => .inl ⟨done, new⟩
  | registered done _ same =>
      exact ((has_monitored outside same).mp has).imp (fun old => ⟨old, torn⟩)
        fun new => .inr (.inl ⟨done, new⟩)
  | notRegistered _ same => exact .inl ⟨has.of_outer outside same.symm, torn⟩
  | unregistered _ cleared =>
      rw [Has, cleared, BitVec.getLsbD_and, Bool.and_eq_true] at has
      exact .inl ⟨has.1, torn⟩
  | tornDown done => exact (torn done).elim
  | executed _ done =>
      rcases done.left with kept | ⟨same, -⟩ | panicked
      · rw [Has, kept.vmState] at has
        exact .inl ⟨has, torn⟩
      · rw [Has, same] at has
        exact .inl ⟨has, torn⟩
      · rw [Has, panicked, BitVec.getLsbD_or, Bool.or_eq_true] at has
        exact has.imp (fun old => ⟨old, torn⟩) fun new => .inr (.inr (.inl new))

end Effect

/-- What has been done, and was not undone since. -/
def Since (past : List (Moment HostVm Ioctl)) (made undone : Moment HostVm Ioctl → Prop) : Prop :=
  ∃ newer maker older, past = newer ++ maker :: older ∧ made maker ∧
    ∀ moment ∈ newer, ¬ undone moment

/-- What has to come before the monitor is entered. -/
structure Permitted (past : List (Moment HostVm Ioctl)) : Prop where
  registered : Since past (Serves .registerMemory) fun moment =>
    moment.event.cmd = .unregisterMemory ∨ Serves .teardown moment
  cpuid : Since past (Serves .cpuid) (Serves .teardown)
  calm : ∀ newer moment older, past = newer ++ moment :: older → moment.after.Has panicPlace →
    ∃ later ∈ newer, Serves .teardown later

section Served

variable {past : List (Moment HostVm Ioctl)} {vm : HostVm}

/-- A bit that is not set in an opened device. -/
theorem not_opened {place : Nat} (clear : vmStateFDOpened.getLsbD place = false) (vm : HostVm)
    (opened : vm = hostDeviceOpen) : ¬ vm.Has place := by
  rw [opened]
  exact (Bool.eq_false_iff).mp clear

theorem Served.cpuid (served : Served past vm) (has : vm.Has cpuidPlace) :
    Since past (Serves .cpuid) (Serves .teardown) := by
  refine Run.since (not_opened (by decide)) ?_ served has
  intro before event after step has
  rcases (ioctl_effect step).sets_bit (by decide) has with old | ⟨new, -⟩ | ⟨-, other⟩ |
    other | other
  · exact .inr old
  · exact .inl new
  all_goals exact absurd other (by decide)

/-- The guest's memory is marked as registered, and the monitor as mapped. -/
def Registered (vm : HostVm) : Prop := vm.Has mapMonitorPlace ∧ vm.Has phyMemPlace

/-- Where the monitor is mapped already, no registration begins. -/
theorem FreshlyOpened.not_mapped (fresh : FreshlyOpened vm) : ¬ vm.Has mapMonitorPlace := by
  rw [Has, fresh _ (by decide)]
  decide

/-- A machine whose monitor is mapped keeps its memory until it is unregistered. -/
theorem Effect.registered_before {moment : Moment HostVm Ioctl} (effect : Effect moment)
    (mapped : moment.before.Has mapMonitorPlace) (registered : moment.after.Has phyMemPlace) :
    moment.before.Has phyMemPlace ∧ moment.event.cmd ≠ .unregisterMemory := by
  have added {bits : Bit32u} (set : moment.after.vmState = moment.before.vmState ||| bits)
      (other : bits.getLsbD phyMemPlace = false) : moment.before.Has phyMemPlace := by
    rwa [Has, set, BitVec.getLsbD_or, other, Bool.or_false] at registered
  cases effect with
  | untouched kept other =>
      rw [Has, kept.vmState] at registered
      exact ⟨registered, other⟩
  | cpuid done set => exact ⟨added set (by decide), by simp [done.1]⟩
  | registered _ fresh | notRegistered fresh => exact (fresh.not_mapped mapped).elim
  | unregistered _ cleared =>
      rw [Has, cleared, BitVec.getLsbD_and] at registered
      exact absurd (Bool.and_eq_true _ _ ▸ registered).2 (by decide)
  | tornDown _ closed =>
      rw [Has, closed] at registered
      exact absurd registered (by decide)
  | executed event done =>
      refine ⟨?_, by simp [event]⟩
      rcases done.left with kept | ⟨same, -⟩ | panicked
      · rwa [Has, kept.vmState] at registered
      · rwa [Has, same] at registered
      · exact added panicked (by decide)

theorem Served.registered (served : Served past vm) (registered : vm.Registered) :
    Since past (Serves .registerMemory) fun moment =>
      moment.event.cmd = .unregisterMemory ∨ Serves .teardown moment := by
  refine Run.since (fun vm opened has => not_opened (by decide) vm opened has.1) ?_ served registered
  intro before event after step has
  have effect := ioctl_effect step
  rcases effect.sets_bit (by decide) has.1 with ⟨mapped, kept⟩ | ⟨-, other⟩ | ⟨new, -⟩ |
    other | other
  · have old := effect.registered_before mapped has.2
    exact .inr ⟨⟨mapped, old.1⟩, not_or.mpr ⟨old.2, kept⟩⟩
  · exact absurd other (by decide)
  · exact .inl new
  all_goals exact absurd other (by decide)

/-- A panic is forgotten only by tearing the machine down. -/
theorem Served.calm {newer older : List (Moment HostVm Ioctl)} {moment : Moment HostVm Ioctl}
    (served : Served (newer ++ moment :: older) vm) (panicked : moment.after.Has panicPlace)
    (calm : ¬ vm.Has panicPlace) : ∃ later ∈ newer, Serves .teardown later := by
  have steps : ∀ before event after, IoctlStep before event after →
      ¬ ¬ before.Has panicPlace → ¬ after.Has panicPlace →
        Serves .teardown ⟨before, event, after⟩ := fun _ _ _ step had has =>
    ((ioctl_effect step).keeps_bit (by decide) (not_not.mp had)).resolve_left has
  exact Run.brought_about _ steps served (not_not.mpr panicked) calm

/-- Whatever a device has served, an ioctl passes control to the monitor only if a
registration and a CPUID were served since it was last opened or torn down, the memory
was not unregistered since, and every panic before was followed by a teardown. -/
theorem entered_permitted (served : Served past vm) (ioctl : Ioctl)
    (entered : vm.entries < (ends (hostIoctlGeneric ioctl) vm).entries) : Permitted past := by
  have ready : vm.vmState = vmStateReady :=
    ((ioctl_within vm ioctl).ends rfl).entered.resolve_right (Nat.ne_of_gt entered)
  have set {place : Nat} (bit : vmStateReady.getLsbD place = true) : vm.Has place := by
    rwa [Has, ready]
  refine ⟨served.registered ⟨set (by decide), set (by decide)⟩, served.cpuid (set (by decide)), ?_⟩
  rintro newer moment older rfl panicked
  refine Served.calm served panicked ?_
  rw [Has, ready]
  decide

/-- An ioctl as a function on states. -/
def ioctlNext (vm : HostVm) (ioctl : Ioctl) : Option HostVm := leaves (hostIoctlGeneric ioctl) vm

theorem ioctlNext_step (before : HostVm) (ioctl : Ioctl) (after : HostVm)
    (left : ioctlNext before ioctl = some after) : IoctlStep before ioctl after := by
  unfold ioctlNext leaves at left
  cases result : hostIoctlGeneric ioctl before with
  | ok value next =>
      simp only [result, Option.some.injEq] at left
      exact ⟨value, left ▸ result⟩
  | error stop last => simp [result] at left

/-- The ioctls with which user space sets up a machine, the host granting everything. -/
def setUp : List Ioctl :=
  [.cpuid true, .registerMemory true ⟨32, 0, 0x42000000, 0x42001000⟩
    { lastRefused with vmFrames := some [] }]

/-- The guest calls the HAL, and the monitor returns to user space. -/
def oneCall : Ioctl := .execute { returns := [{ request := .halCall }] }

/-- A machine is set up and entered. -/
theorem entered_permitted_sample : ∃ past vm, Served past vm ∧
    vm.entries < (ends (hostIoctlGeneric oneCall) vm).entries ∧ Permitted past := by
  let check (played : List (Moment HostVm Ioctl) × HostVm) : Bool :=
    decide (played.2.entries < (ends (hostIoctlGeneric oneCall) played.2).entries)
  have checked : (playback ioctlNext [] hostDeviceOpen setUp).any check = true := by
    decide +kernel
  obtain ⟨past, vm, run, found⟩ := playback_reaches ioctlNext_step (Eq.refl hostDeviceOpen) checked
  have served : Served past vm := run.mono fun _ => Eq.symm
  have entered := of_decide_eq_true found
  exact ⟨past, vm, served, entered, entered_permitted served oneCall entered⟩

/-- The guest's state has been loaded, and it is running or has panicked. -/
def Loaded (vm : HostVm) : Prop :=
  vm.Has mapMonitorPlace ∧ (vm.Has panicPlace ∨ vm.monRequest ≠ .none)

/-- A machine that has been loaded stays so until it is torn down. -/
theorem Effect.keeps_loaded {moment : Moment HostVm Ioctl} (effect : Effect moment)
    (loaded : moment.before.Loaded) : moment.after.Loaded ∨ Serves .teardown moment := by
  by_cases torn : Serves .teardown moment
  · exact .inr torn
  have mapped := (effect.keeps_bit (by decide) loaded.1).resolve_right torn
  refine .inl ⟨mapped, ?_⟩
  rcases loaded.2 with panicked | requested
  · exact .inl ((effect.keeps_bit (by decide) panicked).resolve_right torn)
  cases effect with
  | untouched kept => exact .inr (kept.monRequest ▸ requested)
  | cpuid _ _ monRequest | unregistered _ _ monRequest => exact .inr (monRequest ▸ requested)
  | registered _ fresh | notRegistered fresh => exact (fresh.not_mapped loaded.1).elim
  | tornDown done => exact (torn done).elim
  | executed _ done =>
      rcases done.left with kept | ⟨-, stopped⟩ | panicked
      · exact .inr (kept.monRequest ▸ requested)
      · exact .inr stopped
      · refine .inl ?_
        rw [Has, panicked, BitVec.getLsbD_or]
        exact Bool.or_eq_true_iff.mpr (.inr (by decide))

/-- Loading the state leaves a machine that has been loaded. -/
theorem Effect.loads {moment : Moment HostVm Ioctl} (effect : Effect moment)
    (more : moment.before.loads < moment.after.loads) : moment.after.Loaded := by
  have no {loads : Nat} (same : loads = moment.before.loads)
      (here : moment.after.loads = loads) : moment.after.Loaded :=
    absurd (here.trans same) (Nat.ne_of_gt more)
  cases effect with
  | untouched kept => exact no rfl kept.loads
  | cpuid _ _ _ same | unregistered _ _ _ same | tornDown _ _ same => exact no rfl same
  | registered _ _ same | notRegistered _ same => exact no rfl (congrArg Outer.loads same)
  | executed _ done =>
      have ready := (done.within.loaded.resolve_right (Nat.ne_of_gt more)).1
      rcases done.left with kept | ⟨same, stopped⟩ | panicked
      · exact no rfl kept.loads
      · refine ⟨?_, .inr stopped⟩
        rw [Has, same, ready]
        decide
      · constructor
        · rw [Has, panicked, ready]
          decide
        · left
          rw [Has, panicked, ready]
          decide

/-- Whatever a device has served, the CPU state is loaded from user space only if the
machine was torn down since every earlier moment at which it was loaded. -/
theorem loaded_once {newer older : List (Moment HostVm Ioctl)} {moment : Moment HostVm Ioctl}
    (served : Served (newer ++ moment :: older) vm) (ioctl : Ioctl)
    (before : moment.before.loads < moment.after.loads)
    (again : vm.loads < (ends (hostIoctlGeneric ioctl) vm).loads) :
    ∃ later ∈ newer, Serves .teardown later := by
  have fresh := ((ioctl_within vm ioctl).ends rfl).loaded.resolve_right (Nat.ne_of_gt again)
  have notLoaded : ¬ vm.Loaded := by
    rintro ⟨-, panicked | requested⟩
    · rw [Has, fresh.1] at panicked
      exact absurd panicked (by decide)
    · exact requested fresh.2
  have loaded : moment.after.Loaded := by
    obtain ⟨_, step⟩ := served.prefix_run
    exact (ioctl_effect step).loads before
  have steps : ∀ before event after, IoctlStep before event after →
      ¬ ¬ before.Loaded → ¬ after.Loaded → Serves .teardown ⟨before, event, after⟩ :=
    fun _ _ _ step had has => ((ioctl_effect step).keeps_loaded (not_not.mp had)).resolve_left has
  exact Run.brought_about _ steps served (not_not.mpr loaded) notLoaded

/-- A machine is set up, run and taken down, and another one is set up and run. -/
theorem loaded_once_sample : ∃ newer moment older vm, Served (newer ++ moment :: older) vm ∧
    moment.before.loads < moment.after.loads ∧
    vm.loads < (ends (hostIoctlGeneric oneCall) vm).loads ∧
    ∃ later ∈ newer, Serves .teardown later := by
  let check (played : List (Moment HostVm Ioctl) × HostVm) : Bool :=
    (played.1.drop 4).head?.any (fun moment => decide (moment.before.loads < moment.after.loads)) &&
      decide (played.2.loads < (ends (hostIoctlGeneric oneCall) played.2).loads)
  have checked : (playback ioctlNext [] hostDeviceOpen
      (setUp ++ oneCall :: .unregisterMemory :: .teardown :: setUp)).any check = true := by
    decide +kernel
  obtain ⟨past, vm, run, found⟩ := playback_reaches ioctlNext_step (Eq.refl hostDeviceOpen) checked
  simp only [check, Bool.and_eq_true, decide_eq_true_eq] at found
  obtain ⟨moment, here, before⟩ := (Option.any_eq_true _ _).mp found.1
  obtain ⟨older, split⟩ := List.head?_eq_some_iff.mp here
  have served : Served (past.take 4 ++ moment :: older) vm := by
    rw [← split, List.take_append_drop]
    exact run.mono fun _ => Eq.symm
  have before := of_decide_eq_true before
  exact ⟨_, moment, older, vm, served, before, found.2, loaded_once served oneCall before found.2⟩

end Served

end HostVm
end Plex86
