import Plex86.Host.GiveBack

namespace Plex86

open Logic

namespace HostVm

variable {vm next : HostVm}

section Execution

variable {pins : Pins} {guestNPages ppi : Bit32u} {page : PinnedPage}

/-- The monitor asks only for pages of the guest that are not pinned, and the pages that
the host pins have a `struct page`. -/
def Asks (guestNPages : Bit32u) : Pins → List MonitorReturn → Prop
  | _, [] => True
  | pins, back :: rest =>
      match back.request with
      | .redirect => Asks guestNPages pins rest
      | .pinUserPage =>
          match back.page with
          | some page =>
              back.pinReqPPI < guestNPages ∧ pins.pinned back.pinReqPPI = false ∧
                page.hostPtr ≠ 0 ∧ Asks guestNPages (pins.requested back.pinReqPPI page) rest
          | none => True
      | _ => True

/-- The machine with a page unpinned. -/
def withUnpinned (vm : HostVm) (ppi : Bit32u) : HostVm :=
  { vm with
    served := .unpinned (vm.pins.guestPageInfoHostAdjunct ppi) :: vm.served
    pins := vm.pins.clearPinned ppi }

/-- The machine with a page pinned in a slot of the queue. -/
def withPinned (vm : HostVm) (ppi : Bit32u) (page : PinnedPage) (slot : Nat) : HostVm :=
  { vm with
    served := .pinned page.hostPtr :: vm.served
    pins := (vm.pins.setPinned ppi page).enqueue slot ppi }

private theorem pinnedAt_setPinned (pins : Pins) (ppi : Bit32u) (page : PinnedPage) (slot : Nat) :
    pinnedAt ((pins.setPinned ppi page).enqueue slot ppi) =
      Function.update (pinnedAt pins) ppi (some (.page page.hostPtr)) := by
  funext other
  rw [Function.update_apply, pinnedAt, Pins.enqueue_pinned, Pins.setPinned_pinned]
  by_cases same : other = ppi
  · subst same
    simp [Pins.enqueue, Pins.setPinned]
  · simp [same, pinnedAt, Pins.enqueue, Pins.setPinned]

private theorem mem_guestPages (inside : ppi.toNat < guestNPages.toNat) :
    ppi ∈ pagesFrom 0 guestNPages.toNat := by
  have small : (0 : Bit32u).toNat + guestNPages.toNat < 2 ^ 32 := by simpa using guestNPages.isLt
  exact (mem_pagesFrom small ppi).mpr ⟨by simp, by simpa using inside⟩

private theorem nodup_guestPages : (pagesFrom 0 guestNPages.toNat).Nodup := by
  refine nodup_pagesFrom ?_
  simpa using guestNPages.isLt

theorem Balanced.unpin (balanced : vm.Balanced) (inside : ppi.toNat < vm.pages.guestNPages.toNat)
    (pinned : vm.pins.pinned ppi = true) : (vm.withUnpinned ppi).Balanced := by
  have here : pinnedAt vm.pins ppi = some _ := if_pos pinned
  have taken := kept_take nodup_guestPages (mem_guestPages inside) here
  rw [Balanced, held, taken, Multiset.cons_add, ← pinnedAt_clearPinned] at balanced
  exact .give balanced

theorem Balanced.pin (balanced : vm.Balanced) (inside : ppi.toNat < vm.pages.guestNPages.toNat)
    (fresh : vm.pins.pinned ppi = false) (page : PinnedPage) (slot : Nat) :
    (vm.withPinned ppi page slot).Balanced := by
  have here : pinnedAt vm.pins ppi = none := if_neg (Bool.eq_false_iff.mp fresh)
  have put := @kept_put _ _ _ _ (.page page.hostPtr) _ _ nodup_guestPages (mem_guestPages inside) here
  rw [← pinnedAt_setPinned vm.pins ppi page slot] at put
  have whole : (vm.withPinned ppi page slot).held = .page page.hostPtr ::ₘ vm.held := by
    rw [held, held, ← Multiset.cons_add, ← put]
    rfl
  rw [Balanced, whole]
  exact .obtain balanced

theorem Equipped.unpin (equipped : vm.Equipped) (ppi : Bit32u) : (vm.withUnpinned ppi).Equipped := by
  have still : ∀ other, (vm.withUnpinned ppi).pins.pinned other = true →
      vm.pins.pinned other = true := by
    intro other set
    rw [withUnpinned, Pins.clearPinned_pinned] at set
    split at set
    · cases set
    · exact set
  refine ⟨equipped.memory, fun pointer => ?_, fun other set => ?_, fun other set => ?_,
    equipped.mapped⟩
  · have given := equipped.pointers pointer
    cases pointer <;> exact given
  · exact equipped.inside other (still other set)
  · exact equipped.handles other (still other set)

theorem Equipped.pin (equipped : vm.Equipped) (inside : ppi.toNat < vm.pages.guestNPages.toNat)
    (given : page.hostPtr ≠ 0) (slot : Nat) : (vm.withPinned ppi page slot).Equipped := by
  refine ⟨equipped.memory, fun pointer => ?_, fun other set => ?_, fun other set => ?_,
    equipped.mapped⟩
  · have pointers := equipped.pointers pointer
    cases pointer <;> exact pointers
  · rw [withPinned, Pins.enqueue_pinned, Pins.setPinned_pinned] at set
    split at set
    · next same => exact same ▸ inside
    · exact equipped.inside other set
  · rw [withPinned, Pins.enqueue_pinned, Pins.setPinned_pinned] at set
    change Function.update vm.pins.guestPageInfoHostAdjunct ppi page.hostPtr other ≠ 0
    rw [Function.update_apply]
    split at set
    · next same => rwa [if_pos same]
    · next different =>
        rw [if_neg different]
        exact equipped.handles other set

/-- A complete machine whose pins are these is running. -/
structure Running (guestNPages : Bit32u) (pins : Pins) (vm : HostVm) : Prop where
  balanced : vm.Balanced
  equipped : vm.Equipped
  holds : ∃ records, pins.Holds records
  pins : vm.pins = pins
  guestNPages : vm.pages.guestNPages = guestNPages

/-- A machine that has everything, whatever its queue is. -/
def Stocked (vm : HostVm) : Prop := vm.Balanced ∧ vm.Equipped

private theorem Running.stocked (running : Running guestNPages pins vm) : vm.Stocked :=
  ⟨running.balanced, running.equipped⟩

theorem Running.sound (running : Running guestNPages pins vm) : vm.Sound := by
  obtain ⟨records, holds⟩ := running.holds
  refine ⟨running.balanced, .inr ⟨running.equipped, .inr ⟨records, ?_⟩⟩⟩
  rwa [running.pins]

/-- There is room for one more page. -/
structure Roomed (guestNPages : Bit32u) (pins : Pins) (vm : HostVm) : Prop where
  stocked : vm.Stocked
  pins : vm.pins = pins.room
  guestNPages : vm.pages.guestNPages = guestNPages

private theorem makeRoom_rooms : Ensures (Running guestNPages pins) makeRoom
    (fun _ => Roomed guestNPages pins) fun _ _ => True := by
  rintro vm ⟨balanced, equipped, ⟨records, holds⟩, rfl, rfl⟩
  rw [makeRoom, get_bind_apply, Logic.ite_apply]
  by_cases more : vm.pins.queue.nEntries < maxPhyPagesPinned
  · rw [if_pos more]
    refine ⟨⟨balanced, equipped⟩, ?_, rfl⟩
    rw [Pins.room, if_pos more]
  · rw [if_neg more, unpinOldest, get_bind_apply, bind_apply, hostOSUnpinUserPage_apply]
    have pinned := holds.oldest_pinned more
    simp only [if_neg (equipped.handles _ pinned)]
    refine ⟨⟨balanced.unpin (equipped.inside _ pinned) pinned, equipped.unpin _⟩, ?_, rfl⟩
    rw [Pins.room, if_neg more]

/-- A request of the monitor. -/
theorem hostHandlePagePinRequest_running (inside : ppi < guestNPages)
    (fresh : pins.pinned ppi = false) (given : page.hostPtr ≠ 0) :
    Ensures (Running guestNPages pins) (hostHandlePagePinRequest ppi (some page))
      (fun done vm => Running guestNPages (pins.requested ppi page) vm ∧ done = true)
      fun _ _ => True := by
  refine Ensures.look_bind fun now here => Ensures.bind makeRoom_rooms fun _ => ?_
  rintro vm ⟨⟨balanced, equipped⟩, roomed, pages⟩
  obtain ⟨records, holds⟩ := here.holds
  have bound : ppi.toNat < vm.pages.guestNPages.toNat := pages ▸ BitVec.lt_def.mp inside
  have unpinned : vm.pins.pinned ppi = false := roomed ▸ Pins.room_pinned fresh
  refine ⟨⟨balanced.pin bound unpinned page _, equipped.pin bound given _,
    ⟨_, holds.requested fresh page⟩, ?_, pages⟩, rfl⟩
  rw [Pins.requested, ← roomed, ← here.pins]

/-- A page that the host cannot pin. -/
theorem hostHandlePagePinRequest_refused :
    Ensures (Running guestNPages pins) (hostHandlePagePinRequest ppi none)
      (fun done vm => vm.Stocked ∧ done = false) fun _ _ => True :=
  Ensures.look_bind fun _ _ => Ensures.bind makeRoom_rooms fun _ =>
    Ensures.pure fun _ here => ⟨here.stocked, rfl⟩

/-- A panic excuses the queue. -/
theorem handlePanic_stocked (retval : Nat) :
    Ensures Stocked (handlePanic retval) (fun _ => Sound) fun _ _ => True := by
  refine Ensures.bind (Ensures.modify fun vm here => ?_) fun _ => Ensures.pure fun _ sound => sound
  obtain ⟨balanced, equipped⟩ := here
  refine ⟨balanced, .inr ⟨⟨equipped.memory, fun pointer => ?_, equipped.inside, equipped.handles,
    equipped.mapped.set _⟩, .inl ?_⟩⟩
  · have given := equipped.pointers pointer
    cases pointer <;> exact given
  · rw [Has, BitVec.getLsbD_or]
    exact Bool.or_eq_true_iff.mpr (.inr (by decide))

/-- What has nothing to do with memory leaves a machine running. -/
theorem modify_running {change : HostVm → HostVm}
    (same : ∀ vm, (change vm).served = vm.served ∧ (change vm).addr = vm.addr ∧
      (change vm).pages = vm.pages ∧ (change vm).pins = vm.pins ∧
      (change vm).guestPhyMemAddr = vm.guestPhyMemAddr ∧ (change vm).vmState = vm.vmState) :
    Keeps (Running guestNPages pins) (fun _ _ => True) (modify change : Host Unit) := by
  refine Keeps.modify fun vm running => ?_
  obtain ⟨served, addr, pages, samePins, memory, state⟩ := same vm
  have sameHeld : (change vm).held = vm.held := by rw [held, pages, addr, samePins, held]
  have equipped := running.equipped
  refine ⟨?_, ⟨?_, fun pointer => ?_, ?_, ?_, ?_⟩, running.holds, ?_, ?_⟩
  · rw [Balanced, deals, served, sameHeld]
    exact running.balanced
  · rw [memory]
    exact equipped.memory
  · have given := equipped.pointers pointer
    cases pointer with
    | block block => rwa [HostVm.pointer, addr]
    | shared shared => rwa [HostVm.pointer, pages]
  · rw [samePins, pages]
    exact equipped.inside
  · rw [samePins]
    exact equipped.handles
  · rw [Has, state]
    exact equipped.mapped
  · rw [samePins, running.pins]
  · rw [pages, running.guestNPages]

/-- Whatever the monitor asks for, the machine stays sound. -/
theorem executeVMLoop_sound (hostIF : Bool) (returns : List MonitorReturn)
    (asks : Asks guestNPages pins returns) :
    Ensures (Running guestNPages pins) (executeVMLoop hostIF returns) (fun _ => Sound)
      fun _ _ => True := by
  induction returns generalizing pins with
  | nil => exact Ensures.throw fun _ _ => trivial
  | cons back rest inductionHypothesis =>
      have panics (pins : Pins) (retval : Nat) :
          Ensures (Running guestNPages pins) (handlePanic retval) (fun _ => Sound)
            fun _ _ => True :=
        Ensures.weaken (handlePanic_stocked retval) (fun _ running => running.stocked)
          (fun _ _ sound => sound) fun _ _ _ => trivial
      have leaves : Ensures (Running guestNPages pins) (pure 0 : Host Nat) (fun _ => Sound)
          fun _ _ => True := Ensures.pure fun _ running => running.sound
      refine Ensures.ite (fun _ => panics pins _) fun _ => ?_
      refine Ensures.bind (modify_running fun _ => ⟨rfl, rfl, rfl, rfl, rfl, rfl⟩) fun _ => ?_
      unfold Asks at asks
      cases requested : back.request with
      | redirect =>
          rw [requested] at asks
          refine Ensures.ite (fun _ => ?_) fun _ => leaves
          exact Ensures.bind (modify_running fun _ => ⟨rfl, rfl, rfl, rfl, rfl, rfl⟩) fun _ =>
            inductionHypothesis asks
      | flushPrintBuf | halCall | bogus => exact leaves
      | remapMonitor | panic | none | guestFault | cyclesUpdate => exact panics pins _
      | pinUserPage =>
          rw [requested] at asks
          cases given : back.page with
          | none =>
              refine Ensures.bind hostHandlePagePinRequest_refused fun done => ?_
              refine Ensures.assuming fun refused => ?_
              rw [if_neg (by simp [refused])]
              exact handlePanic_stocked _
          | some page =>
              rw [given] at asks
              obtain ⟨inside, fresh, page, more⟩ := asks
              refine Ensures.bind (hostHandlePagePinRequest_running inside fresh page) fun done => ?_
              refine Ensures.assuming fun granted => ?_
              rw [if_pos granted]
              exact inductionHypothesis more

/-- What has nothing to do with memory leaves a machine sound. -/
theorem Sound.same (sound : vm.Sound) (served : next.served = vm.served)
    (addr : next.addr = vm.addr) (pages : next.pages = vm.pages) (pins : next.pins = vm.pins)
    (memory : next.guestPhyMemAddr = vm.guestPhyMemAddr)
    (mapped : next.Has mapMonitorPlace ↔ vm.Has mapMonitorPlace)
    (panicked : vm.Has panicPlace → next.Has panicPlace) : next.Sound := by
  have sameHeld : next.held = vm.held := by rw [held, pages, addr, pins, held]
  constructor
  · rw [Balanced, deals, served, sameHeld]
    exact sound.balanced
  rcases sound.state with idle | complete
  · left
    have vacant := idle.vacant
    refine ⟨⟨pages.trans vacant.pages, addr.trans vacant.addr,
      memory.trans vacant.guestPhyMemAddr⟩, ?_, fun has => idle.unmapped (mapped.mp has)⟩
    rw [pins]
    exact idle.unpinned
  · right
    refine ⟨⟨memory ▸ complete.memory, fun pointer => ?_, ?_, ?_, mapped.mpr complete.mapped⟩, ?_⟩
    · have given := complete.pointers pointer
      cases pointer with
      | block block => rwa [HostVm.pointer, addr]
      | shared shared => rwa [HostVm.pointer, pages]
    · rw [pins, pages]
      exact complete.inside
    · rw [pins]
      exact complete.handles
    · rw [pins]
      exact complete.queue.imp_left panicked

/-- A panic leaves a machine sound. -/
theorem handlePanic_sound (retval : Nat) :
    Keeps Sound (fun _ _ => True) (handlePanic retval) := by
  intro vm sound
  refine sound.same rfl rfl rfl rfl rfl ?_ fun panicked => panicked.set _
  rw [Has, BitVec.getLsbD_or, Bool.or_eq_true]
  exact or_iff_left (by decide)

private theorem hostIoctlExecute_sound {execution : Execution}
    (asks : Asks vm.pages.guestNPages vm.pins execution.returns) (sound : vm.Sound) :
    Ensures (· = vm) (hostIoctlExecute execution) (fun _ => Sound) fun _ _ => True := by
  have panics (retval : Nat) :
      Ensures (· = vm) (handlePanic retval) (fun _ => Sound) fun _ _ => True :=
    Ensures.weaken (handlePanic_sound retval) (fun _ here => here ▸ sound) (fun _ _ sound => sound)
      fun _ _ _ => trivial
  have fails (retval : Nat) :
      Ensures (· = vm) (pure retval : Host Nat) (fun _ => Sound) fun _ _ => True :=
    Ensures.pure fun _ here => here ▸ sound
  refine Ensures.look_bind fun now same => Ensures.ite (fun _ => panics _) fun state => ?_
  have ready : vm.vmState = vmStateReady := same ▸ not_not.mp state
  have mapped : vm.Has mapMonitorPlace := by
    rw [Has, ready]
    decide
  have complete : vm.Complete := sound.state.resolve_left fun idle => idle.unmapped mapped
  have running : Running vm.pages.guestNPages vm.pins vm := by
    refine ⟨sound.balanced, complete.toEquipped, complete.queue.resolve_left ?_, rfl, rfl⟩
    rw [Has, ready]
    decide
  have enters {change : HostVm → HostVm}
      (other : ∀ vm, (change vm).served = vm.served ∧ (change vm).addr = vm.addr ∧
        (change vm).pages = vm.pages ∧ (change vm).pins = vm.pins ∧
        (change vm).guestPhyMemAddr = vm.guestPhyMemAddr ∧ (change vm).vmState = vm.vmState) :
      Ensures (· = vm)
        (do modify change; executeVMLoop execution.hostIF execution.returns) (fun _ => Sound)
        fun _ _ => True := by
    refine Ensures.weaken (Ensures.bind (modify_running other) fun _ =>
      executeVMLoop_sound execution.hostIF execution.returns asks) (fun _ here => here ▸ running)
      (fun _ _ sound => sound) fun _ _ _ => trivial
  refine Ensures.ite (fun _ => enters fun _ => ⟨rfl, rfl, rfl, rfl, rfl, rfl⟩) fun _ =>
    Ensures.ite (fun _ => panics _) fun _ => Ensures.ite (fun _ => fails _) fun _ => ?_
  cases execution.badCpuState with
  | some retval => exact fails _
  | none => exact enters fun _ => ⟨rfl, rfl, rfl, rfl, rfl, rfl⟩

end Execution

/-- A sound machine is emptied without a stop. -/
theorem hostUnallocVmPages_sound (sound : vm.Sound) :
    ∃ next, hostUnallocVmPages vm = .ok () next ∧ Holding next.deals 0 ∧ next.Vacant ∧
      ∀ ppi, next.pins.pinned ppi = false := by
  rcases sound.state with idle | complete
  · have vacant := idle.vacant
    have nothing : ∀ block, vm.addr.block block = 0 := fun block => vacant.pointer (.block block)
    have holding := sound.balanced
    rw [Balanced, held_nothing idle.unpinned vacant.pointer] at holding
    exact ⟨_, hostUnallocVmPages_nothing vacant.guestPhyMemAddr nothing, holding,
      ⟨rfl, rfl, vacant.guestPhyMemAddr⟩, idle.unpinned⟩
  · have usable : Usable vm.addr vm.pages := ⟨complete.pointers (.block .guestPageInfo),
      complete.pointers (.block .hostAdjunct), fun shared => complete.pointers (.shared shared)⟩
    have settled := hostUnallocVmPages_settles True vm
      ⟨⟨sound.balanced, complete.memory, complete.inside⟩, fun _ => ⟨usable, complete.handles⟩⟩
    have vacant := hostUnallocVmPages_vacant vm trivial
    cases run : hostUnallocVmPages vm with
    | ok value next =>
        rw [run] at settled vacant
        exact ⟨next, rfl, settled.1, vacant, settled.2⟩
    | error stop last =>
        rw [run] at settled
        exact (settled trivial).elim

/-- What is asked of the callers and of the host kernel: the guest's memory is not at
address 0, the kernel answers as documented, and the monitor asks for pages that are
not pinned. -/
def Fair (moment : Moment HostVm Ioctl) : Prop :=
  match moment.event with
  | .registerMemory _ msg answers => msg.guestPhyMemVector ≠ 0 ∧ answers.Proper
  | .execute execution =>
      Asks moment.before.pages.guestNPages moment.before.pins execution.returns
  | _ => True

/-- Every ioctl that returns leaves a sound machine sound. -/
theorem ioctl_sound {ioctl : Ioctl} (sound : vm.Sound) (step : IoctlStep vm ioctl next)
    (fair : Fair ⟨vm, ioctl, next⟩) : next.Sound := by
  obtain ⟨result, run⟩ := step
  cases ioctl with
  | cpuid copied =>
      have kept : Keeps Sound (fun _ _ => True) (hostIoctlGeneric (.cpuid copied)) := by
        refine Keeps.get_bind fun _ _ => Keeps.ite (fun _ => .pure) fun _ =>
          Keeps.ite (fun _ => .pure) fun _ => Keeps.bind (Keeps.modify fun vm sound => ?_)
            fun _ => .pure
        refine sound.same rfl rfl rfl rfl rfl ?_ fun panicked => panicked.set _
        rw [Has, BitVec.getLsbD_or, Bool.or_eq_true]
        exact or_iff_left (by decide)
      exact kept.returns sound run
  | registerMemory copied msg answers =>
      have kept : Keeps Sound (fun _ _ => True) (hostIoctlGeneric (.registerMemory copied msg answers)) := by
        refine Keeps.ite (fun _ => .pure) fun _ =>
          Keeps.bind (hostIoctlRegisterMem_sound fair.2 fair.1) fun errno => ?_
        cases errno <;> exact .pure
      exact kept.returns sound run
  | unregisterMemory =>
      cases run
      refine sound.same rfl rfl rfl rfl rfl ?_ fun panicked => ?_
      · rw [Has, BitVec.getLsbD_and, Bool.and_eq_true]
        exact and_iff_left (by decide)
      · rw [Has, BitVec.getLsbD_and, Bool.and_eq_true]
        exact ⟨panicked, by decide⟩
  | linuxVMMode =>
      cases run
      exact sound.same rfl rfl rfl rfl rfl Iff.rfl id
  | teardown =>
      rw [hostIoctlGeneric, get_bind_apply, Logic.ite_apply] at run
      split at run
      · cases run
        exact sound
      · obtain ⟨freed, emptied, holding, vacant, unpinned⟩ := hostUnallocVmPages_sound sound
        rw [bind_apply, emptied] at run
        cases run
        have balanced : freed.Balanced := by
          rw [Balanced, held_nothing unpinned vacant.pointer]
          exact holding
        refine ⟨balanced, .inl ⟨⟨vacant.pages, vacant.addr, vacant.guestPhyMemAddr⟩, unpinned, ?_⟩⟩
        exact Bool.eq_false_iff.mp (by decide : vmStateFDOpened.getLsbD mapMonitorPlace = false)
  | execute execution =>
      have kept : Ensures (· = vm) (hostIoctlGeneric (.execute execution)) (fun _ => Sound)
          fun _ _ => True := by
        refine Ensures.ite (fun _ => Ensures.pure fun _ here => here ▸ sound) fun _ =>
          Ensures.bind (hostIoctlExecute_sound fair sound) fun _ => ?_
        exact Ensures.ite (fun _ => Ensures.pure fun _ sound => sound) fun _ =>
          Ensures.pure fun _ sound => sound
      exact kept.returns rfl run
  | reset | unknown =>
      cases run
      exact sound

private theorem hostDeviceOpen_sound : hostDeviceOpen.Sound := by
  have vacant : hostDeviceOpen.Vacant := ⟨rfl, rfl, rfl⟩
  have unpinned : ∀ ppi, hostDeviceOpen.pins.pinned ppi = false := fun _ => rfl
  refine ⟨?_, .inl ⟨vacant, unpinned, not_opened (by decide) _ rfl⟩⟩
  rw [Balanced, held_nothing unpinned vacant.pointer]
  exact .start

/-- Whatever a device has served, it holds what its ledger says, and when it is closed
everything obtained for it is given back, each thing once and nothing else; to give
back again does nothing. -/
theorem resources_balanced {past : List (Moment HostVm Ioctl)} (served : Served past vm)
    (fair : ∀ moment ∈ past, Fair moment) :
    vm.Balanced ∧ ∃ closed, hostUnallocVmPages vm = .ok () closed ∧ Settled closed.deals ∧
      ∃ again, hostUnallocVmPages closed = .ok () again ∧ again.deals = closed.deals := by
  have sound : vm.Sound := by
    refine Run.guarded Fair ?_ (fun _ _ _ sound step fair => ioctl_sound sound step fair) served fair
    rintro _ rfl
    exact hostDeviceOpen_sound
  obtain ⟨closed, emptied, holding, vacant, unpinned⟩ := hostUnallocVmPages_sound sound
  refine ⟨sound.balanced, closed, emptied, holding.settled, ?_⟩
  have nothing : ∀ block, closed.addr.block block = 0 := fun block => vacant.pointer (.block block)
  exact ⟨_, hostUnallocVmPages_nothing vacant.guestPhyMemAddr nothing, rfl⟩

private theorem ioctlNext_ends {ioctl : Ioctl} (returns : (ioctlNext vm ioctl).isSome = true) :
    IoctlStep vm ioctl (ends (hostIoctlGeneric ioctl) vm) := by
  obtain ⟨next, left⟩ := Option.isSome_iff_exists.mp returns
  obtain ⟨result, run⟩ := ioctlNext_step vm ioctl next left
  rw [ends_of_ok run]
  exact ⟨result, run⟩

/-- A host that grants everything. -/
def allGranted : Answers := { lastRefused with vmFrames := some [] }

/-- Memory is registered at the address 0x40000000. -/
def register : Ioctl := .registerMemory true ⟨32, 0x40000000, 0x42000000, 0x42001000⟩ allGranted

/-- The monitor asks for a page, and then calls the HAL. -/
def onePin : Ioctl := .execute
  { returns :=
    [{ request := .pinUserPage, pinReqPPI := 5, page := some ⟨0xc1001000, 0x1005⟩ },
      { request := .halCall }] }

/-- A machine is set up and has pinned a page. -/
theorem resources_balanced_sample : ∃ past vm, Served past vm ∧ (∀ moment ∈ past, Fair moment) ∧
    vm.pins.pinned 5 = true ∧
    vm.Balanced ∧ ∃ closed, hostUnallocVmPages vm = .ok () closed ∧ Settled closed.deals ∧
      ∃ again, hostUnallocVmPages closed = .ok () again ∧ again.deals = closed.deals := by
  let identified := ends (hostIoctlGeneric (.cpuid true)) hostDeviceOpen
  let registered := ends (hostIoctlGeneric register) identified
  let pinning := ends (hostIoctlGeneric onePin) registered
  have served : Served [⟨registered, onePin, pinning⟩, ⟨identified, register, registered⟩,
      ⟨hostDeviceOpen, .cpuid true, identified⟩] pinning :=
    .next (.next (.next (.start rfl) (ioctlNext_ends (by decide +kernel)))
      (ioctlNext_ends (by decide +kernel))) (ioctlNext_ends (by decide +kernel))
  have proper : allGranted.Proper := by
    have whole : 0xc4000000#32 &&& 0xfff#32 = 0#32 := by decide
    refine ⟨fun _ _ => whole, fun _ page given => ?_⟩
    cases given
    decide
  have asks : Asks registered.pages.guestNPages registered.pins
      [{ request := .pinUserPage, pinReqPPI := 5, page := some ⟨0xc1001000, 0x1005⟩ },
        { request := .halCall }] :=
    ⟨by decide +kernel, by decide +kernel, by decide, trivial⟩
  have fair : ∀ moment ∈ [⟨registered, onePin, pinning⟩, ⟨identified, register, registered⟩,
      ⟨hostDeviceOpen, .cpuid true, identified⟩], Fair moment := by
    rw [List.forall_mem_cons, List.forall_mem_cons, List.forall_mem_singleton]
    exact ⟨asks, ⟨by decide, proper⟩, trivial⟩
  exact ⟨_, _, served, fair, by decide +kernel, resources_balanced served fair⟩

end HostVm
end Plex86
