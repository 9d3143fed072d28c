import Plex86.Monitor.SystemSpec

namespace Plex86

open Logic Vm

theorem invalidateGuestLinAddr_ok {laddr : Bit32u} {vm next : Vm} (sound : vm.Sound)
    (run : invalidateGuestLinAddr laddr vm = .ok () next) : Dropped laddr vm next := by
  have unchanged : (∀ pdi pti pde pte, vm.Live pdi pti pde pte →
      ¬ (pdi = pdiOf laddr ∧ pti = ptiOf laddr)) → Dropped laddr vm vm := fun absent =>
    ⟨.refl vm, rfl, rfl, rfl, rfl, sound, rfl, fun pdi pti pde pte live =>
      ⟨live, absent pdi pti pde pte live⟩⟩
  simp only [invalidateGuestLinAddr, get_bind_apply, panicWhen_bind_apply, Logic.ite_apply] at run
  split at run
  · cases run
  split at run
  · next missing =>
      cases run
      refine unchanged ?_
      rintro _ _ pde pte live ⟨rfl, rfl⟩
      rw [live.directory] at missing
      exact missing live.present
  next held =>
  have present : (vm.shadow.pageDir (pdiOf laddr)).p = true := by simpa using held
  split at run
  · cases run
  next outside =>
  have other : pdiOf laddr ≠ vm.setup.monPdi := fun same =>
    outside ((sound.monitor.inMonitor_iff laddr).mpr same)
  rw [bind_apply, getMonPTi_present sound.heap other present] at run
  simp only [Logic.ite_apply, pure_apply] at run
  split at run
  · next missing =>
      cases run
      refine unchanged ?_
      rintro _ _ pde pte live ⟨rfl, rfl⟩
      rw [live.table] at missing
      exact missing live.mapped
  · cases run
    have cleared := sound.withPTE (vm.shadow.pageTblLaddrMap (pdiOf laddr)) (ptiOf laddr) ⟨0⟩
    refine ⟨by constructor <;> rfl, rfl, rfl, rfl, rfl, cleared, rfl, ?_⟩
    intro pdi pti pde pte live
    have live' : (vm.shadow.setPTE (vm.shadow.pageTblLaddrMap (pdiOf laddr)) (ptiOf laddr) ⟨0⟩).Live
        vm.setup pdi pti pde pte := live
    have kept := live'.mapped
    rcases live'.of_setPTE sound.heap other present with ⟨-, -, rfl⟩ | old
    · simp at kept
    · refine ⟨old, ?_⟩
      rintro ⟨rfl, rfl⟩
      rw [← live'.table] at kept
      simp [Shadow.setPTE] at kept

theorem setCRx_ok {crx val32 : Bit32u} {vm next : Vm} (run : setCRx crx val32 vm = .ok () next) :
    Emptied vm next := by
  simp only [setCRx, monInitShadowPaging, modify_bind_apply, panicWhen_bind_apply, modify_apply,
    Logic.ite_apply] at run
  split at run
  · split at run
    · cases run
    · cases run
      exact ⟨rfl, rfl, rfl, rfl, rfl⟩
  split at run
  · cases run
    exact ⟨rfl, rfl, rfl, rfl, Shadow.init_init _ _⟩
  split at run
  · split at run
    · cases run
    · cases run
      exact ⟨rfl, rfl, rfl, rfl, rfl⟩
  · cases run

/-- What a trap came to: pages pinned, and at most one thing done to the tables. -/
inductive Handled (trap : Trap) (next : Vm) : Prop
  | settled (pages : PagesSettled trap.now next)
      (valid : ∀ laddr, trap.cause ≠ .fault (.invalidate laddr))
      (noLoad : ∀ crx val32, trap.cause ≠ .fault (.setCRx crx val32))
  | mapped {cr2 ppi : Bit32u} {middle : Vm} (cause : trap.cause = .fault (.pageFault cr2))
      (run : mapGuestLinAddr cr2 (trap.now.entered trap.cycles).faultAccess.1
        (trap.now.entered trap.cycles).faultAccess.2 (trap.now.entered trap.cycles) =
          .ok (.ok ppi) middle)
      (rest : PagesSettled middle next)
  | dropped {laddr : Bit32u} {middle : Vm} (cause : trap.cause = .fault (.invalidate laddr))
      (dropped : Dropped laddr (trap.now.entered trap.cycles) middle)
      (rest : PagesSettled middle next)
  | emptied {crx val32 : Bit32u} {middle : Vm} (cause : trap.cause = .fault (.setCRx crx val32))
      (emptied : Emptied (trap.now.entered trap.cycles) middle) (rest : PagesSettled middle next)

theorem handler_pages {program : Mon Unit} (handler : ∀ start, Handler start program)
    {vm next : Vm} (run : program vm = .ok () next) : PagesSettled vm next :=
  ((handler vm).returns ⟨.refl vm, .refl vm⟩ run).1

theorem Trap.serve_handled {trap : Trap} {next : Vm} (sound : trap.now.Sound)
    (run : trap.serve trap.now = .ok () next) : Handled trap next := by
  obtain ⟨_, middle, handled, resumed⟩ := bind_ok.mp run
  have rest := handler_pages (fun _ => preGuest_handler) resumed
  have begun := (trap.now.entered_handles trap.cycles).1
  cases cause : trap.cause with
  | int visit =>
      rw [Trap.handle, cause] at handled
      exact .settled ((handler_pages (fun _ => handleInt_handler _ _) handled).trans rest)
        (by simp [cause]) (by simp [cause])
  | fault op =>
      rw [Trap.handle, cause] at handled
      obtain ⟨_, entered, enter, operated⟩ := bind_ok.mp handled
      obtain ⟨-, -, rfl⟩ := enterGuestFault_ok enter
      have soundEntered := sound.settled begun
      by_cases plain : op.plain = true
      · have pages := handler_pages (fun _ => MonOp.run_handler plain) operated
        refine .settled ((begun.trans pages).trans rest) (fun laddr same => ?_) fun crx val32 same => ?_
        all_goals
          cases cause.symm.trans same
          exact Bool.noConfusion plain
      · cases op with
        | pageFault cr2 =>
            rcases guestPageFault_ok operated with mapped | ⟨walk, fault⟩
            · exact .mapped cause mapped rest
            · have handles := PageFaultSpec.handles soundEntered walk fault
              exact .settled ((begun.trans handles.1).trans rest) (by simp [cause]) (by simp [cause])
        | invalidate laddr =>
            exact .dropped cause (invalidateGuestLinAddr_ok soundEntered operated) rest
        | setCRx crx val32 => exact .emptied cause (setCRx_ok operated) rest
        | _ => exact (plain rfl).elim

namespace Guarded

variable {reg : Registration} {vm next : Vm}

theorem handled {trap : Trap} (guarded : Guarded reg trap.now) (handled : Handled trap next) :
    Guarded reg next := by
  have entered := guarded.entered trap.cycles
  cases handled with
  | settled pages valid noLoad => exact guarded.settled pages
  | mapped cause run rest =>
      have spec := (mapGuestLinAddr_ok entered.sound run).mapped entered.sound
      exact (entered.mapped spec).settled rest
  | dropped cause dropped rest => exact (entered.dropped dropped).settled rest
  | emptied cause emptied rest => exact (entered.emptied emptied).settled rest

theorem step {trap : Trap} (guarded : Guarded reg vm) (step : Step vm trap next) :
    Guarded reg next :=
  have native := guarded.native step.1
  native.handled (Trap.serve_handled native.sound step.2)

/-- The first entry finds the tables empty and everything else as registered. -/
theorem entry {boot middle : Vm} (registered : reg.Registered boot)
    (emptied : Emptied boot middle) : Guarded reg middle := by
  obtain ⟨setup, pins, nexus, shadow⟩ := registered.same
  have mapped := reg.monitorMapped
  constructor
  case setup => exact emptied.setup.trans setup
  case sound =>
    constructor
    case heap => rw [emptied.setup, emptied.shadow]; exact .init _ _
    case monitor =>
      rw [emptied.setup, emptied.shadow, setup, shadow]
      exact ⟨by rw [Shadow.init_own]; exact mapped.present, mapped.mask⟩
    case holds =>
      rw [emptied.pins, pins]
      exact ⟨[], reg.emptyQueue.holds⟩
  case own =>
    rw [emptied.setup, emptied.shadow, setup, shadow, Shadow.init_own, reg.machine_own]
    exact reg.nexusPDE_base
  case hidden => rw [emptied.nexus, nexus]; exact Registration.nexusMap_private reg.pages
  case apart =>
    rw [emptied.pins, pins]
    exact fun page => Registration.initialAttr_apart _ _ page
  case user =>
    intro pdi other present
    rw [emptied.setup] at other
    rw [emptied.shadow] at present
    simp [Shadow.init, other] at present

end Guarded

/-- The state that user space has set up passes every check. -/
structure Entry (reg : Registration) (boot : Vm) : Prop where
  registered : reg.Registered boot
  segs : ∀ segno, badSegReg boot.setup.linuxVMMode boot.atEntry.guestCPL segno
    (boot.guestCpu.sreg segno) = false
  eflags : eflagsOK (boot.setup.linuxVMMode && boot.atEntry.guestCPL = 0) boot.guestCpu.eflags = true

/-- The machine just registered that user space has set up is entered as it stands. -/
theorem Registration.Registered.enters {reg : Registration} {boot vm : Vm} {native : Bool}
    (registered : reg.Registered boot) (run : hostIoctlExecute native boot = .ok () vm) :
    vm = { boot with intr := boot.guestCpu.intr }.atEntry ∧ Entry reg boot := by
  have fresh : boot.monRequest = .none := by
    obtain ⟨guestCpu, mem, guestCPL, intr, same⟩ := registered.machine
    rw [same]
    rfl
  obtain ⟨same, segs, eflags⟩ := enterGuest_ok (hostIoctlExecute_enters fresh run)
  exact ⟨same, registered, segs, eflags⟩

theorem Started.entered {reg : Registration} {vm : Vm} (started : Started reg vm) :
    ∃ boot, Entry reg boot ∧
      preGuest { boot with intr := boot.guestCpu.intr }.atEntry = .ok () vm := by
  obtain ⟨boot, native, registered, run⟩ := started
  obtain ⟨_, middle, executed, resumed⟩ := bind_ok.mp run
  obtain ⟨rfl, entry⟩ := registered.enters executed
  exact ⟨boot, entry, resumed⟩

theorem Started.guarded {reg : Registration} {vm : Vm} (started : Started reg vm) :
    Guarded reg vm ∧ ∀ pdi pti pde pte, ¬ vm.Live pdi pti pde pte := by
  obtain ⟨boot, entry, resumed⟩ := started.entered
  have emptied : Emptied boot { boot with intr := boot.guestCpu.intr }.atEntry :=
    ⟨rfl, rfl, rfl, rfl, rfl⟩
  have rest := handler_pages (fun _ => preGuest_handler) resumed
  exact ⟨(Guarded.entry entry.registered emptied).settled rest, fun pdi pti pde pte live =>
    emptied.live_false (rest.live live).1⟩

/-- In every state the guest is resumed in the monitor's structures are in order. -/
theorem GuestRun.guarded {reg : Registration} {past : List (Moment Vm Trap)} {vm : Vm}
    (run : GuestRun reg past vm) : Guarded reg vm :=
  run.invariant (fun _ started => started.guarded.1) fun _ _ _ guarded step => guarded.step step

end Plex86
