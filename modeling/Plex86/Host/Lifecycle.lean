import Plex86.Host.Execute
import Plex86.Host.RegisterSpec
import Plex86.Logic.Run

/-! The ioctls through which user space sets up, runs and takes down a machine,
from the opening of the device on. -/

namespace Plex86

open Logic

def vmStateRegisteredAll : Bit32u :=
  vmStateRegisteredPhyMem ||| vmStateRegisteredPrintBuffer ||| vmStateRegisteredGuestCPU

/-- How the monitor comes back to the host, and what the host answers then. -/
structure MonitorReturn where
  request : MonReq
  /-- `hostOSIdle`: another timeslice is allowed. -/
  anotherSlice : Bool := true
  pinReqPPI : Bit32u := 0
  /-- The page that is pinned on request. -/
  page : Option PinnedPage := none

/-- What decides about a call of `PLEX86_EXECUTE`. -/
structure Execution where
  copied : Bool := true
  copiedBack : Bool := true
  native : Bool := true
  /-- What the checks of the CPU state find wrong. -/
  badCpuState : Option Nat := none
  /-- Interrupts are on in the host. -/
  hostIF : Bool := true
  returns : List MonitorReturn := []

inductive Ioctl
  | cpuid (copied : Bool)
  | registerMemory (copied : Bool) (msg : RegisterMem) (answers : Answers)
  | unregisterMemory
  | linuxVMMode
  | teardown
  | execute (execution : Execution)
  | reset
  | unknown

namespace HostVm

/-- `hostDeviceOpen` -/
def hostDeviceOpen : HostVm where
  vmState := vmStateFDOpened

/-- Unpin the page pinned the longest time ago. -/
def unpinOldest : Host Unit := do
  let vm ← get
  let unpinGuestPPI := vm.pins.queue.ppi vm.pins.queue.tail
  hostOSUnpinUserPage (vm.pins.guestPageInfoHostAdjunct unpinGuestPPI)
  modify fun vm => { vm with pins := vm.pins.clearPinned unpinGuestPPI }

/-- Make room in a full queue. -/
def makeRoom : Host Unit := do
  let vm ← get
  if vm.pins.queue.nEntries < maxPhyPagesPinned then return () else unpinOldest

/-- The slot of the queue that the next page is put in. -/
def pinSlot (pins : Pins) : Nat :=
  if pins.queue.nEntries < maxPhyPagesPinned then pins.queue.nEntries else pins.queue.tail

def hostHandlePagePinRequest (reqGuestPPI : Bit32u) (page : Option PinnedPage) : Host Bool := do
  let vm ← get
  let qIndex := pinSlot vm.pins
  makeRoom
  match page with
  | none => return false
  | some page => do
      serve (.pinned page.hostPtr)
      modify fun vm =>
        { vm with pins := (vm.pins.setPinned reqGuestPPI page).enqueue qIndex reqGuestPPI }
      return true

/-- The exit `handlePanic`. -/
def handlePanic (retval : Nat) : Host Nat := do
  modify fun vm => { vm with vmState := vm.vmState ||| vmStatePanic, monRequest := .panic }
  return retval

def setMonRequest (request : MonReq) : Host Unit :=
  modify fun vm => { vm with monRequest := request }

/-- `vm->host.__host2mon()`, until the monitor switches back. -/
def host2mon (back : MonitorReturn) : Host Unit :=
  modify fun vm => { vm with entries := vm.entries + 1, monRequest := back.request }

/-- The loop `executeVMLoop`. -/
def executeVMLoop (hostIF : Bool) : List MonitorReturn → Host Nat
  | [] => throw .running
  | back :: rest =>
      if hostIF = false then handlePanic 101 -- EFLAGS.IF==0
      else do
        host2mon back
        match back.request with
        | .redirect =>
            if back.anotherSlice then do
              setMonRequest .none -- Request satisfied
              executeVMLoop hostIF rest
            else return 0
        | .remapMonitor => handlePanic 103
        | .flushPrintBuf | .halCall | .bogus => return 0
        | .panic => handlePanic 106
        | .pinUserPage => do
            if ← hostHandlePagePinRequest back.pinReqPPI back.page then executeVMLoop hostIF rest
            else handlePanic 108
        | .none | .guestFault | .cyclesUpdate => handlePanic 107

/-- Load the CPU state from user space, once it has passed the checks. -/
def loadCpuState (execution : Execution) : Host Nat :=
  if execution.native = false then return noExecuteMethod
  else
    match execution.badCpuState with
    | some retval => return retval
    | none => do
        modify fun vm => { vm with loads := vm.loads + 1 }
        executeVMLoop execution.hostIF execution.returns

def hostIoctlExecute (execution : Execution) : Host Nat := do
  let vm ← get
  if vm.vmState ≠ vmStateReady then handlePanic noExecuteVMState
  else if vm.monRequest = .halCall ∨ vm.monRequest.resumes = true then do
    -- the monitor is still executing
    setMonRequest .none
    executeVMLoop execution.hostIF execution.returns
  else if vm.monRequest ≠ .none then handlePanic noExecuteVMState
  else loadCpuState execution

/-- What an ioctl returns: an error, or what is not an error. -/
abbrev IoctlResult := Except Errno Nat

def hostIoctlGeneric : Ioctl → Host IoctlResult
  | .cpuid copied => do
      let vm ← get
      if vm.vmState &&& vmStateGuestCPUID ≠ 0 then return .error .einval
      else if copied = false then return .error .efault
      else
        modify fun vm => { vm with vmState := vm.vmState ||| vmStateGuestCPUID }
        return .ok 0
  | .registerMemory copied msg answers =>
      if copied = false then return .error .efault
      else do
        match ← hostIoctlRegisterMem answers msg with
        | some errno => return .error errno
        | none => return .ok 0
  | .unregisterMemory => do
      modify fun vm => { vm with vmState := vm.vmState &&& ~~~vmStateRegisteredAll }
      return .ok 0
  | .linuxVMMode => do
      modify fun vm => { vm with linuxVMMode := true }
      return .ok 0
  | .teardown => do
      let vm ← get
      if vm.vmState &&& vmStateRegisteredAll ≠ 0 then return .error .ebusy
      else
        hostUnallocVmPages
        modify fun vm => { vm with vmState := vmStateFDOpened }
        return .ok 0
  | .execute execution =>
      if execution.copied = false then return .error .efault
      else do
        let retval ← hostIoctlExecute execution
        if execution.copiedBack = false then return .error .efault else return .ok retval
  | .reset => return .ok 0
  | .unknown => return .error .einval

/-- An ioctl that returns. -/
def IoctlStep (vm : HostVm) (ioctl : Ioctl) (next : HostVm) : Prop :=
  ∃ result, hostIoctlGeneric ioctl vm = .ok result next

/-- A device that has served some ioctls since it was opened. -/
abbrev Served (past : List (Moment HostVm Ioctl)) (vm : HostVm) : Prop :=
  Run (· = hostDeviceOpen) IoctlStep past vm

/-- Nothing is registered. -/
structure Vacant (vm : HostVm) : Prop where
  pages : vm.pages = {}
  addr : vm.addr = {}
  guestPhyMemAddr : vm.guestPhyMemAddr = 0

/-- The place of `VMStateMemAllocated`. -/
def memAllocatedPlace : Nat := 1

/-- Nothing is registered, or the machine is marked as having its memory. -/
def Accounted (vm : HostVm) : Prop := vm.Vacant ∨ vm.Has memAllocatedPlace

variable {vm next last : HostVm}

/-- Changes that leave what is registered alone keep a machine accounted for. -/
theorem Accounted.same (accounted : vm.Accounted) (pages : next.pages = vm.pages)
    (addr : next.addr = vm.addr) (memory : next.guestPhyMemAddr = vm.guestPhyMemAddr)
    (bit : vm.Has memAllocatedPlace → next.Has memAllocatedPlace) : next.Accounted := by
  rcases accounted with vacant | has
  · exact .inl ⟨pages.trans vacant.pages, addr.trans vacant.addr, memory.trans vacant.guestPhyMemAddr⟩
  · exact .inr (bit has)

/-- The guest is run without any change to what is registered. -/
theorem execute_accounted (execution : Execution) :
    Keeps Accounted (fun _ _ => True) (hostIoctlExecute execution) := by
  have panic : ∀ retval, Keeps Accounted (fun _ _ => True) (handlePanic retval) := by
    intro retval
    refine Keeps.bind (Keeps.modify fun vm holds => ?_) fun _ => .pure
    exact holds.same rfl rfl rfl fun has => has.set _
  have request : ∀ request, Keeps Accounted (fun _ _ => True) (setMonRequest request) :=
    fun request => Keeps.modify fun vm holds => holds.same rfl rfl rfl id
  have serves : ∀ service, Keeps Accounted (fun _ _ => True) (serve service) :=
    fun service => Keeps.modify fun vm holds => holds.same rfl rfl rfl id
  have oldest : Keeps Accounted (fun _ _ => True) unpinOldest := by
    refine Keeps.get_bind fun now _ => Keeps.bind (Keeps.bind ?_ fun _ => serves _) fun _ =>
      Keeps.modify fun vm holds => holds.same rfl rfl rfl id
    exact Keeps.ite (fun _ => .throw fun _ _ => trivial) fun _ => .pure
  have pin : ∀ ppi page, Keeps Accounted (fun _ _ => True) (hostHandlePagePinRequest ppi page) := by
    intro ppi page
    have room : Keeps Accounted (fun _ _ => True) makeRoom :=
      Keeps.get_bind fun _ _ => Keeps.ite (fun _ => .pure) fun _ => oldest
    refine Keeps.get_bind fun now _ => Keeps.bind room fun _ => ?_
    cases page with
    | none => exact .pure
    | some page =>
        exact Keeps.bind (serves _) fun _ =>
          Keeps.bind (Keeps.modify fun vm holds => holds.same rfl rfl rfl id) fun _ => .pure
  have loop : ∀ returns, Keeps Accounted (fun _ _ => True) (executeVMLoop execution.hostIF returns) := by
    intro returns
    induction returns with
    | nil => exact Keeps.throw fun _ _ => trivial
    | cons back rest inductionHypothesis =>
        refine Keeps.ite (fun _ => panic _) fun _ => ?_
        refine Keeps.bind (Keeps.modify fun vm holds => holds.same rfl rfl rfl id) fun _ => ?_
        cases back.request with
        | redirect =>
            exact Keeps.ite (fun _ => Keeps.bind (request _) fun _ => inductionHypothesis)
              fun _ => .pure
        | flushPrintBuf | halCall | bogus => exact .pure
        | remapMonitor | panic | none | guestFault | cyclesUpdate => exact panic _
        | pinUserPage =>
            exact Keeps.bind (pin _ _) fun _ => Keeps.ite (fun _ => inductionHypothesis)
              fun _ => panic _
  have load : Keeps Accounted (fun _ _ => True) (loadCpuState execution) := by
    refine Keeps.ite (fun _ => .pure) fun _ => ?_
    cases execution.badCpuState with
    | some retval => exact .pure
    | none =>
        exact Keeps.bind (Keeps.modify fun vm holds => holds.same rfl rfl rfl id) fun _ => loop _
  refine Keeps.get_bind fun now _ => Keeps.ite (fun _ => panic _) fun _ => ?_
  exact Keeps.ite (fun _ => Keeps.bind (request _) fun _ => loop _) fun _ =>
    Keeps.ite (fun _ => panic _) fun _ => load

/-- Giving everything back leaves nothing registered. -/
theorem hostUnallocVmPages_vacant :
    Ensures (fun _ => True) hostUnallocVmPages (fun _ => Vacant) fun _ _ => True := by
  have released : Ensures (fun _ => True) releaseGuestMemory
      (fun _ vm => vm.guestPhyMemAddr = 0) fun _ _ => True := by
    refine Ensures.get_bind fun now _ => Ensures.ite (fun _ => ?_) fun absent => ?_
    · exact Ensures.bind Ensures.anything fun _ => Ensures.modify fun _ _ => rfl
    · refine Ensures.pure ?_
      rintro _ rfl
      exact not_not.mp absent
  have freed : ∀ blocks, Keeps (fun vm : HostVm => vm.guestPhyMemAddr = 0) (fun _ _ => True)
      (freeBlocks blocks) := by
    intro blocks
    induction blocks with
    | nil => exact Keeps.pure
    | cons block rest inductionHypothesis =>
        refine Keeps.get_bind fun now _ => Keeps.bind ?_ fun _ => inductionHypothesis
        exact Keeps.ite (fun _ => Keeps.modify fun _ holds => holds) fun _ => .pure
  refine Ensures.bind released fun _ => Ensures.bind (Ensures.modify fun _ holds => ?_) fun _ =>
    Ensures.bind (freed blocks) fun _ => Ensures.modify fun _ holds => ⟨rfl, rfl, holds⟩
  exact holds

private theorem failWith_vacant (errno : Errno) :
    Ensures (fun _ => True) (failWith errno) (fun _ => Vacant) fun _ _ => True :=
  Ensures.bind hostUnallocVmPages_vacant fun _ => Keeps.pure

/-- A request that passes the checks finds the state of an opened device. -/
theorem passed_state {msg : RegisterMem} {place : Nat}
    (passed : msg.check vm.vmState vm.pages.guestNMegs = none)
    (other : place ≠ 2) : vm.vmState.getLsbD place = vmStateFDOpened.getLsbD place := by
  have opened : vm.vmState &&& ~~~vmStateGuestCPUID = vmStateFDOpened := by
    by_contra different
    simp [RegisterMem.check, different] at passed
  rcases Nat.lt_or_ge place 32 with small | large
  · have clear : vmStateGuestCPUID.getLsbD place = false := by
      rw [show vmStateGuestCPUID = BitVec.twoPow 32 2 from rfl, BitVec.getLsbD_twoPow]
      simp only [Bool.and_eq_false_iff, decide_eq_false_iff_not]
      omega
    rw [← opened, BitVec.getLsbD_and, BitVec.getLsbD_not, clear]
    simp [small]
  · rw [BitVec.getLsbD_of_ge _ _ large, BitVec.getLsbD_of_ge _ _ large]

/-- A request that passes the checks finds nothing registered. -/
theorem Accounted.vacant {msg : RegisterMem} (accounted : vm.Accounted)
    (passed : msg.check vm.vmState vm.pages.guestNMegs = none) : vm.Vacant := by
  refine accounted.resolve_right fun has => ?_
  have set : vm.vmState.getLsbD memAllocatedPlace = true := has
  rw [passed_state passed (by decide)] at set
  exact absurd set (by decide)

private theorem register_accounted (answers : Answers) (msg : RegisterMem) :
    Keeps Accounted (fun _ _ => True) (hostIoctlRegisterMem answers msg) := by
  intro vm accounted
  cases checked : msg.check vm.vmState vm.pages.guestNMegs with
  | some errno =>
      rw [hostIoctlRegisterMem, get_bind_apply, checked]
      exact accounted
  | none =>
      rw [hostIoctlRegisterMem_passed checked]
      have failed := failWith_vacant .enomem
      have initialised := Leaves.initialise (by decide : memAllocatedPlace ≠ 3) answers
      cases run : allocSteps answers msg vm with
      | ok value now =>
          have allocated : now.Has memAllocatedPlace := by
            simp only [allocSteps, modify_bind_apply, bind_ok] at run
            obtain ⟨_, _, _, _, before, _, done⟩ := run
            cases done
            simp [Has, memAllocatedPlace, vmStateMemAllocated]
          exact Ensures.weaken initialised (fun _ holds => holds) (fun _ _ has => .inr has)
            (fun _ _ _ => trivial) now allocated
      | error stop now =>
          cases stop with
          | error =>
              exact Ensures.weaken failed (fun _ holds => holds) (fun _ _ vacant => .inl vacant)
                (fun _ _ _ => trivial) now trivial
          | oops | running => exact trivial

/-- Every ioctl keeps a machine accounted for. -/
theorem ioctl_accounted (ioctl : Ioctl) :
    Keeps Accounted (fun _ _ => True) (hostIoctlGeneric ioctl) := by
  cases ioctl with
  | cpuid copied =>
      refine Keeps.get_bind fun _ _ => Keeps.ite (fun _ => .pure) fun _ =>
        Keeps.ite (fun _ => .pure) fun _ => Keeps.bind (Keeps.modify fun vm holds => ?_) fun _ => .pure
      exact holds.same rfl rfl rfl fun has => has.set _
  | registerMemory copied msg answers =>
      refine Keeps.ite (fun _ => .pure) fun _ => Keeps.bind (register_accounted answers msg) fun errno => ?_
      cases errno <;> exact .pure
  | unregisterMemory =>
      refine Keeps.bind (Keeps.modify fun vm holds => ?_) fun _ => .pure
      refine holds.same rfl rfl rfl fun has => ?_
      have set : vm.vmState.getLsbD memAllocatedPlace = true := has
      simp only [Has, BitVec.getLsbD_and, set]
      decide
  | linuxVMMode =>
      exact Keeps.bind (Keeps.modify fun vm holds => holds.same rfl rfl rfl id) fun _ => .pure
  | teardown =>
      refine Keeps.get_bind fun _ _ => Keeps.ite (fun _ => .pure) fun _ => ?_
      have torn : Ensures Accounted hostUnallocVmPages (fun _ => Vacant) fun _ _ => True :=
        Ensures.weaken hostUnallocVmPages_vacant (fun _ _ => trivial) (fun _ _ holds => holds)
          fun _ _ _ => trivial
      exact Ensures.bind torn fun _ => Ensures.bind
        (Ensures.modify fun _ vacant => .inl ⟨vacant.pages, vacant.addr, vacant.guestPhyMemAddr⟩)
        fun _ => Keeps.pure
  | execute execution =>
      exact Keeps.ite (fun _ => .pure) fun _ => Keeps.bind (execute_accounted execution) fun _ =>
        Keeps.ite (fun _ => .pure) fun _ => .pure
  | reset => exact .pure
  | unknown => exact .pure

/-- Whatever a device has served, nothing is registered or the machine is marked. -/
theorem Served.accounted {past : List (Moment HostVm Ioctl)} (served : Served past vm) :
    vm.Accounted := by
  refine Run.invariant ?_ ?_ served
  · rintro _ rfl
    exact .inl ⟨rfl, rfl, rfl⟩
  · intro before ioctl after holds step
    obtain ⟨result, run⟩ := step
    exact (ioctl_accounted ioctl).returns holds run

/-- The machine is as it was before a request, so that the request is accepted
once the host grants everything. -/
structure AsBefore (msg : RegisterMem) (vm next : HostVm) : Prop where
  vmState : next.vmState = vm.vmState
  pages : next.pages = vm.pages
  addr : next.addr = vm.addr
  guestPhyMemAddr : next.guestPhyMemAddr = vm.guestPhyMemAddr
  accepted : msg.check vm.vmState vm.pages.guestNMegs = none → ∀ answers : Answers,
    answers.Grant → answers.nexusSize ≤ 4096 →
      ∃ last, hostIoctlRegisterMem answers msg next = .ok none last

/-- A registration succeeds, or it returns an error and leaves the machine as it was. -/
def Atomic (msg : RegisterMem) (vm : HostVm) :
    EStateM.Result HostStop HostVm (Option Errno) → Prop
  | .ok none _ => True
  | .ok (some _) next => AsBefore msg vm next
  | .error _ _ => False

theorem AsBefore.of {msg : RegisterMem} (vmState : next.vmState = vm.vmState)
    (pages : next.pages = vm.pages) (addr : next.addr = vm.addr)
    (guestPhyMemAddr : next.guestPhyMemAddr = vm.guestPhyMemAddr) : AsBefore msg vm next where
  vmState := vmState
  pages := pages
  addr := addr
  guestPhyMemAddr := guestPhyMemAddr
  accepted passed answers grant fits := by
    rw [← vmState, ← pages] at passed
    exact (hostIoctlRegisterMem_ok passed).mpr ⟨grant, fits⟩

/-- A bit that was not set before is taken back without a trace. -/
theorem phyMem_takenBack {vmState : Bit32u} (clear : vmState.getLsbD 3 = false) :
    (vmState ||| vmStateRegisteredPhyMem) &&& ~~~vmStateRegisteredPhyMem = vmState := by
  apply BitVec.eq_of_getLsbD_eq
  intro place small
  rw [show vmStateRegisteredPhyMem = BitVec.twoPow 32 3 from rfl]
  simp only [BitVec.getLsbD_and, BitVec.getLsbD_or, BitVec.getLsbD_not, BitVec.getLsbD_twoPow, small]
  by_cases here : 3 = place
  · subst here
    simpa using clear
  · simp [here]

/-- Where the guest CPU area is not pinned everything is taken back, but only if
the guest's memory is at address 0. -/
theorem atomic_notPinned {answers : Answers} {msg : RegisterMem} (vacant : vm.Vacant)
    (passed : msg.check vm.vmState vm.pages.guestNMegs = none)
    (refused : answers.pin .guestCpu = none) :
    Atomic msg vm (hostIoctlRegisterMem answers msg vm) ↔ msg.guestPhyMemVector = 0 := by
  rw [hostIoctlRegisterMem_notPinned passed refused, failWith, bind_apply]
  by_cases absent : msg.guestPhyMemVector = 0
  · rw [hostUnallocVmPages_nothing absent fun _ => rfl]
    refine iff_of_true (AsBefore.of ?_ vacant.pages.symm vacant.addr.symm ?_) absent
    · exact phyMem_takenBack ((passed_state passed (by decide)).trans rfl)
    · exact absent.trans vacant.guestPhyMemAddr.symm
  · rw [hostUnallocVmPages_oops absent rfl rfl]
    exact iff_of_false id absent

/-- Whatever a device has served, a registration is all or nothing exactly when it
is turned down by the checks, or everything is granted, or the first call of the host
fails and the guest's memory is at address 0. -/
theorem registration_atomic {past : List (Moment HostVm Ioctl)} (served : Served past vm)
    (answers : Answers) (msg : RegisterMem) :
    Atomic msg vm (hostIoctlRegisterMem answers msg vm) ↔
      msg.check vm.vmState vm.pages.guestNMegs ≠ none ∨
        (answers.Grant ∧ answers.nexusSize ≤ 4096) ∨
          (msg.guestPhyMemVector = 0 ∧ answers.pin .guestCpu = none) := by
  cases checked : msg.check vm.vmState vm.pages.guestNMegs with
  | some errno =>
      have rejected : hostIoctlRegisterMem answers msg vm = .ok (some errno) vm := by
        rw [hostIoctlRegisterMem, get_bind_apply, checked]
        rfl
      rw [rejected]
      exact iff_of_true (AsBefore.of rfl rfl rfl rfl) (.inl (by simp))
  | none =>
      cases pinned : answers.pin .guestCpu with
      | none =>
          have notGranted : ¬ answers.Grant := by
            intro grant
            have given := grant.pin .guestCpu
            simp [pinned] at given
          rw [atomic_notPinned (served.accounted.vacant checked) checked pinned]
          simp [notGranted]
      | some page =>
          rw [← hostIoctlRegisterMem_ok checked]
          simp only [ne_eq, not_true_eq_false, reduceCtorEq, and_false, or_false, false_or]
          cases run : hostIoctlRegisterMem answers msg vm with
          | ok result next =>
              cases result with
              | none => exact iff_of_true trivial ⟨next, rfl⟩
              | some errno =>
                  refine iff_of_false (fun same => ?_) (by simp)
                  have set : next.vmState.getLsbD guestCPUPlace = true :=
                    hostIoctlRegisterMem_leavesBit checked pinned run
                  rw [same.vmState, passed_state checked (by decide)] at set
                  exact absurd set (by decide)
          | error stop last => exact iff_of_false id (by simp)

/-- A host that grants everything but the frames of the `vm_t` structure. -/
def lastRefused : Answers where
  pin _ := some ⟨0xc1000000, 0x1000, 0xc2000000⟩
  alloc _ := 0xc4000000
  frames _ := some []
  vmFrames := none
  nexusSize := 0x400

theorem registration_atomic_sample :
    let msg : RegisterMem := ⟨32, 0x40000000, 0x42000000, 0x42001000⟩
    Atomic msg hostDeviceOpen (hostIoctlRegisterMem lastRefused msg hostDeviceOpen) ↔
      msg.check hostDeviceOpen.vmState hostDeviceOpen.pages.guestNMegs ≠ none ∨
        (lastRefused.Grant ∧ lastRefused.nexusSize ≤ 4096) ∨
          (msg.guestPhyMemVector = 0 ∧ lastRefused.pin .guestCpu = none) :=
  registration_atomic (.start rfl) lastRefused _

/-- Without a pinned page the loop over the guest's pages does nothing. -/
theorem releaseGuestPages_unpinned (info : vm.HasBlock .guestPageInfo)
    (unpinned : ∀ ppi, vm.pins.pinned ppi = false) (ppi : Bit32u) (pages : Nat) :
    releaseGuestPages ppi pages vm = .ok () vm := by
  induction pages generalizing ppi with
  | zero => rfl
  | succ pages inductionHypothesis =>
      have skipped : releaseGuestPage ppi vm = .ok () vm := by
        rw [releaseGuestPage, get_bind_apply, bind_apply, oopsWhen_apply, if_neg info]
        simp [unpinned ppi]
      rw [releaseGuestPages, bind_apply, skipped]
      exact inductionHypothesis (ppi + 1)

/-- Where no page of the guest is pinned, everything that a machine has is given back. -/
theorem hostUnallocVmPages_unpinned (memory : vm.guestPhyMemAddr ≠ 0)
    (info : vm.HasBlock .guestPageInfo) (unpinned : ∀ ppi, vm.pins.pinned ppi = false)
    (shared : ∀ shared, vm.pages.sharedHostOSPtr shared ≠ 0) :
    ∃ next, hostUnallocVmPages vm = .ok () next ∧
      next.vmState = vm.vmState &&& ~~~vmStateRegisteredPhyMem := by
  have unpin : ∀ now shared', hostOSUnpinUserPage (vm.pages.sharedHostOSPtr shared') now =
      .ok () { now with served := .unpinned (vm.pages.sharedHostOSPtr shared') :: now.served } := by
    intro now shared'
    rw [hostOSUnpinUserPage, bind_apply, oopsWhen_apply, if_neg (shared shared')]
    rfl
  have released : hostReleasePinnedUserPages vm = .ok () { vm with
      served := .unpinned (vm.pages.sharedHostOSPtr .userLogBuffer) ::
        .unpinned (vm.pages.sharedHostOSPtr .guestCpu) :: vm.served } := by
    rw [hostReleasePinnedUserPages, get_bind_apply, bind_apply,
      releaseGuestPages_unpinned info unpinned]
    simp only [bind_apply, unpin]
  rw [hostUnallocVmPages, bind_apply, releaseGuestMemory, get_bind_apply, Logic.ite_apply,
    if_pos memory, bind_apply, released]
  simp only [modify_apply, bind_apply, freeBlocks_apply]
  exact ⟨_, rfl, rfl⟩

/-- A failed registration may leave a state in which every further one is turned down. -/
theorem registration_leavesState : ∃ answers msg next,
    hostIoctlRegisterMem answers msg hostDeviceOpen = .ok (some .enomem) next ∧
      next.vmState ≠ hostDeviceOpen.vmState ∧
        ∀ again, hostIoctlRegisterMem again msg next = .ok (some .ebusy) next := by
  let msg : RegisterMem := ⟨32, 0x40000000, 0x42000000, 0x42001000⟩
  have passed : msg.check hostDeviceOpen.vmState hostDeviceOpen.pages.guestNMegs = none := by decide
  obtain ⟨last, stopped, memory, info, unpinned, shared, state⟩ : ∃ last : HostVm,
      allocSteps lastRefused msg hostDeviceOpen = .error .error last ∧
        last.guestPhyMemAddr ≠ 0 ∧ last.HasBlock .guestPageInfo ∧
          (∀ ppi, last.pins.pinned ppi = false) ∧
            (∀ shared, last.pages.sharedHostOSPtr shared ≠ 0) ∧ last.vmState = 0x39 := by
    refine ⟨_, rfl, by decide, by decide, fun _ => rfl, fun shared => ?_, by decide⟩
    cases shared <;> decide
  obtain ⟨next, given, after⟩ := hostUnallocVmPages_unpinned memory info unpinned shared
  rw [state] at after
  refine ⟨lastRefused, msg, next, ?_, ?_, fun again => ?_⟩
  · have failed : failWith .enomem last = .ok (some .enomem) next := by
      rw [failWith, bind_apply, given]
      rfl
    rw [hostIoctlRegisterMem_passed passed, stopped]
    exact failed
  · rw [after]
    decide
  · have busy : msg.check next.vmState next.pages.guestNMegs = some .ebusy := by
      rw [after]
      rfl
    rw [hostIoctlRegisterMem, get_bind_apply, busy]
    rfl

end HostVm
end Plex86
