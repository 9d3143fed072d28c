import Plex86.Monitor.System

namespace Plex86

open Logic Vm

section Handlers

variable {start : Vm}

private theorem ioctlPanic_handler {α : Type} (retval : Nat) :
    Handler start (ioctlPanic retval : Mon α) :=
  .bind (modify_handler fun _ => rfl) fun _ => .throw fun _ handled => ⟨rfl, handled.2⟩

/-- On the way back into the monitor nothing changes but registers. -/
theorem hostIoctlExecute_resumes {request : MonReq} (native : Bool)
    (way : request = .halCall ∨ request.resumes = true) :
    Ensures (fun vm => Handles start vm ∧ vm.monRequest = request) (hostIoctlExecute native)
      (fun _ => Handles start) (ReachedStop start) := by
  refine .look_bind fun now here => ?_
  have resumed : Handler start (if now.vmState ≠ vmStateReady then ioctlPanic noExecuteVMState
      else do
        modify fun vm => { vm with intr := vm.guestCpu.intr }
        if now.monRequest = .halCall then
          modify fun vm =>
            { vm with context := vm.context.loadGenRegs vm.guestCpu.genReg, monRequest := .none }
        else if now.monRequest.resumes then modify fun vm => { vm with monRequest := .none }
        else if now.monRequest ≠ .none then ioctlPanic noExecuteVMState
        else
          failWhen (native = false) noExecuteMethod
          enterGuest) := by
    refine .ite (fun _ => ioctlPanic_handler _) fun _ =>
      .bind (modify_handler fun _ => rfl) fun _ =>
        .ite (fun _ => modify_handler fun _ => rfl) fun notHal =>
          .ite (fun _ => modify_handler fun _ => rfl) fun notBack => ?_
    rw [here.2] at notHal notBack
    exact (way.elim notHal notBack).elim
  exact Ensures.weaken resumed (fun _ holds => holds.1) (fun _ _ after => after)
    fun _ _ stopped => stopped

private theorem visitUser_handler {request : MonReq} (visit : UserVisit)
    (way : request = .halCall ∨ request.resumes = true) :
    Handler start (visitUser request visit) := by
  have asked : Handler start (modify fun vm : Vm =>
      { vm with
        monRequest := request
        guestCpu := { vm.guestCpu with
          genReg := if request = .halCall then vm.context.genRegs else vm.guestCpu.genReg
          intr := vm.intr } }) := modify_handler fun _ => rfl
  have written : Handler start (modify fun vm : Vm =>
      { vm with
        guestCpu := { vm.guestCpu with
          genReg := visit.genReg, intr := visit.intr, halIrq := visit.halIrq }
        mem := visit.mem }) := modify_handler fun _ => rfl
  intro vm handled
  have first := asked.returns handled rfl
  have second := written.returns first rfl
  exact hostIoctlExecute_resumes visit.native way _ ⟨second, rfl⟩

theorem Access.run_handler (request : Access) : Handler start request.run := by
  cases request with
  | translate lAddr =>
      exact .bind (accessor_handler fun start => translateLinToPhy_accessor start _) fun _ => .pure
  | object lAddr len small =>
      exact .bind (accessor_handler fun start => getObjectLAddr_accessor start _ _ small)
        fun _ => .pure
  | dword lAddr =>
      exact .bind (accessor_handler fun start => getGuestDWord_accessor start _) fun _ => .pure
  | word lAddr =>
      exact .bind (accessor_handler fun start => getGuestWord_accessor start _) fun _ => .pure
  | writeDWord lAddr val => exact writeGuestDWord_handler _ _
  | descByLAddr laddr =>
      exact .bind (accessor_handler fun start => fetchGuestDescByLAddr_accessor start _)
        fun _ => .pure
  | descBySel sel updateBusyBit =>
      exact .bind (accessor_handler fun start => fetchGuestDescBySel_accessor start _ _)
        fun _ => .pure

theorem getHostOSPinnedPage_accessor (start : Vm) (ppi : Bit32u) :
    Accessor start (getHostOSPinnedPage ppi) := by
  intro vm reached
  have logged := getHostOSPinnedPage_log vm.accesses ppi vm rfl
  cases run : getHostOSPinnedPage ppi vm with
  | ok frame next =>
      rw [run] at logged
      obtain ⟨pin, -, nexus⟩ := getHostOSPinnedPage_ok run
      exact ⟨reached.1.trans ⟨pin.cpu, pin.settled nexus⟩, reached.2.trans ⟨[], logged, by simp⟩⟩
  | error stop last =>
      rw [run] at logged
      exact ⟨logged.1, reached.2.trans ⟨[], logged.2, by simp⟩⟩

/-- The operation leaves the shadow tables to pinning. -/
def MonOp.plain : MonOp → Bool
  | .pageFault _ | .invalidate _ | .setCRx _ _ => false
  | _ => true

theorem MonOp.run_handler {op : MonOp} (plain : op.plain = true) : Handler start op.run := by
  cases op with
  | pageFault cr2 => exact Bool.noConfusion plain
  | invalidate laddr => exact Bool.noConfusion plain
  | setCRx crx val32 => exact Bool.noConfusion plain
  | interrupt vector intFlags errorCode => exact doGuestInterrupt_handler _ _ _
  | iret visit => exact .bind doIRET_handler fun _ => visitUser_handler visit (.inr rfl)
  | loadSegment sreg selector => exact loadGuestSegment_handler sreg selector
  | sti iLen => exact emulateSTI_handler iLen
  | halCall visit => exact visitUser_handler visit (.inl rfl)
  | access request => exact request.run_handler
  | pin ppi =>
      exact .bind (accessor_handler fun start => getHostOSPinnedPage_accessor start ppi)
        fun _ => .pure
  | other => exact .pure

theorem handleInt_handler (cycles : BitVec 64) (visit : Option UserVisit) :
    Handler start (handleInt cycles visit) := by
  refine .bind (modify_handler fun _ => rfl) fun _ => ?_
  cases visit with
  | none => exact modify_handler fun _ => rfl
  | some visit => exact visitUser_handler visit (.inr rfl)

theorem enterGuestFault_handler (cycles : BitVec 64) : Handler start (enterGuestFault cycles) :=
  .bind (modify_handler fun _ => rfl) fun _ => .get_bind fun _ _ =>
    .bind (panicWhen_handler rfl) fun _ =>
    .bind (panicWhen_handler rfl) fun _ => modify_handler fun _ => rfl

end Handlers

/-- What holds in every state the guest is resumed in. -/
structure Guarded (reg : Registration) (vm : Vm) : Prop where
  setup : vm.setup = reg.setup
  sound : vm.Sound
  own : (vm.shadow.pageDir vm.setup.monPdi).base = vm.setup.nexusPageTbl
  hidden : ∀ pti, (vm.nexusPageTbl pti).us = false
  apart : ∀ page, (vm.pins.guestPageInfo page).attr.ro = true →
    (vm.pins.guestPageInfo page).attr.memMapIo = false
  user : ∀ pdi, pdi ≠ vm.setup.monPdi → (vm.shadow.pageDir pdi).p = true →
    (vm.shadow.pageDir pdi).us = true

/-- The tables have been reset, and no page was unpinned for it. -/
structure Emptied (before after : Vm) : Prop where
  setup : after.setup = before.setup
  pins : after.pins = before.pins
  nexus : after.nexusPageTbl = before.nexusPageTbl
  accesses : after.accesses = before.accesses
  shadow : after.shadow = before.shadow.init before.setup.monPdi

theorem Emptied.live_false {before after : Vm} (emptied : Emptied before after)
    {pdi pti : BitVec 10} {pde pte : PageEntry} (live : after.Live pdi pti pde pte) : False := by
  rw [Vm.Live, emptied.setup, emptied.shadow] at live
  exact live.init_false

/-- The entry of one address has been cleared. -/
structure Dropped (laddr : Bit32u) (before after : Vm) : Prop where
  cpu : SameCpu before after
  pins : after.pins = before.pins
  nexus : after.nexusPageTbl = before.nexusPageTbl
  calls : after.hostCalls = before.hostCalls
  accesses : after.accesses = before.accesses
  sound : after.Sound
  directory : after.shadow.pageDir = before.shadow.pageDir
  fewer : ∀ pdi pti pde pte, after.Live pdi pti pde pte →
    before.Live pdi pti pde pte ∧ ¬ (pdi = pdiOf laddr ∧ pti = ptiOf laddr)

namespace Guarded

variable {reg : Registration} {before after : Vm}

theorem native (guarded : Guarded reg before) (native : Native before after) :
    Guarded reg after where
  setup := native.setup.trans guarded.setup
  sound :=
    { heap := by rw [native.setup, native.shadow]; exact guarded.sound.heap
      monitor := by rw [native.setup, native.shadow]; exact guarded.sound.monitor
      holds := by rw [native.pins]; exact guarded.sound.holds }
  own := by rw [native.setup, native.shadow]; exact guarded.own
  hidden := by rw [native.nexus]; exact guarded.hidden
  apart := by rw [native.pins]; exact guarded.apart
  user := by rw [native.setup, native.shadow]; exact guarded.user

/-- Registers do not count. -/
theorem entered (guarded : Guarded reg before) (cycles : BitVec 64) :
    Guarded reg (before.entered cycles) :=
  ⟨guarded.setup, ⟨guarded.sound.heap, guarded.sound.monitor, guarded.sound.holds⟩, guarded.own,
    guarded.hidden, guarded.apart, guarded.user⟩

theorem init_own (guarded : Guarded reg before) :
    ((before.shadow.init before.setup.monPdi).pageDir before.setup.monPdi).base =
      before.setup.nexusPageTbl := by
  simpa [Shadow.init] using guarded.own

theorem settled (guarded : Guarded reg before) (settled : PagesSettled before after) :
    Guarded reg after where
  setup := settled.setup.trans guarded.setup
  sound := guarded.sound.settled settled
  own := by
    rw [settled.setup]
    rcases settled.shadow with quiet | flushed
    · rw [quiet.shadow]; exact guarded.own
    · rw [flushed.shadow]; exact guarded.init_own
  hidden := fun pti => (settled.user pti).trans (guarded.hidden pti)
  apart := by
    intro page
    rw [settled.readOnly, settled.memMapIo]
    exact guarded.apart page
  user := by
    intro pdi other present
    rw [settled.setup] at other
    rcases settled.shadow with quiet | flushed
    · rw [quiet.shadow] at present ⊢
      exact guarded.user pdi other present
    · rw [flushed.shadow] at present
      simp [Shadow.init, other] at present

theorem emptied (guarded : Guarded reg before) (emptied : Emptied before after) :
    Guarded reg after where
  setup := emptied.setup.trans guarded.setup
  sound :=
    { heap := by rw [emptied.setup, emptied.shadow]; exact .init _ _
      monitor := by
        rw [emptied.setup, emptied.shadow]
        exact ⟨by simp [Shadow.init, guarded.sound.monitor.present], guarded.sound.monitor.mask⟩
      holds := by rw [emptied.pins]; exact guarded.sound.holds }
  own := by rw [emptied.setup, emptied.shadow]; exact guarded.init_own
  hidden := by rw [emptied.nexus]; exact guarded.hidden
  apart := by rw [emptied.pins]; exact guarded.apart
  user := by
    intro pdi other present
    rw [emptied.setup] at other
    rw [emptied.shadow] at present
    simp [Shadow.init, other] at present

theorem dropped {laddr : Bit32u} (guarded : Guarded reg before) (dropped : Dropped laddr before after) :
    Guarded reg after where
  setup := dropped.cpu.setup.trans guarded.setup
  sound := dropped.sound
  own := by rw [dropped.cpu.setup, dropped.directory]; exact guarded.own
  hidden := by rw [dropped.nexus]; exact guarded.hidden
  apart := by rw [dropped.pins]; exact guarded.apart
  user := by rw [dropped.cpu.setup, dropped.directory]; exact guarded.user

/-- Under a directory entry made for a page fault ring 3 gets at pages. -/
theorem granted_us {vm : Vm} {laddr : Bit32u} {reqRw : Bool}
    (allowed : vm.tablesFault laddr (decide (vm.guestCPL = 3)) reqRw = none) :
    (vm.grantedRights (vm.tables (pdiOf laddr) (ptiOf laddr)).1).1 = true := by
  by_cases paged : vm.guestCpu.pg = true
  · rw [grantedRights, if_pos paged]
    by_cases user : vm.guestCPL = 3
    · rw [tablesFault, if_pos paged, guestFault_eq_none] at allowed
      rw [user, shadowRights_user]
      exact (PageEntry.denies_eq_false.mp allowed.2.1).1 (by simpa using user)
    · rw [shadowRights_kernel user]
  · rw [grantedRights, if_neg paged]

theorem mapped {laddr ppi : Bit32u} {reqRw : Bool} (guarded : Guarded reg before)
    (mapped : Mapped before laddr (decide (before.guestCPL = 3)) reqRw ppi after) :
    Guarded reg after where
  setup := mapped.cpu.setup.trans guarded.setup
  sound := mapped.sound
  own := by
    have present := mapped.sound.monitor.present
    rcases mapped.directory _ present with same | ⟨here, -⟩
    · rw [same, mapped.cpu.setup]
      exact guarded.own
    · rw [mapped.cpu.setup] at here
      exact (mapped.other here.symm).elim
  hidden := fun pti => (mapped.user pti).trans (guarded.hidden pti)
  apart := by
    intro page
    rw [mapped.readOnly, mapped.memMapIo]
    exact guarded.apart page
  user := by
    intro pdi other present
    rw [mapped.cpu.setup] at other
    rcases mapped.directory pdi present with same | ⟨-, rights⟩
    · rw [same] at present ⊢
      exact guarded.user pdi other present
    · exact (congrArg Prod.fst rights).trans (granted_us mapped.allowed)

end Guarded

end Plex86
