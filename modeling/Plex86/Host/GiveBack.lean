import Plex86.Host.Holdings

namespace Plex86

open Logic

namespace HostVm

variable {answers : Answers} {msg : RegisterMem} {vm : HostVm}

theorem mem_pagesFrom {ppi : Bit32u} {pages : Nat} (small : ppi.toNat + pages < 2 ^ 32)
    (other : Bit32u) :
    other ∈ pagesFrom ppi pages ↔ ppi.toNat ≤ other.toNat ∧ other.toNat < ppi.toNat + pages := by
  induction pages generalizing ppi with
  | zero => simp [pagesFrom]
  | succ pages inductionHypothesis =>
      have following : (ppi + 1).toNat = ppi.toNat + 1 := by
        rw [BitVec.toNat_add]
        exact Nat.mod_eq_of_lt (by simp; omega)
      have later := @inductionHypothesis (ppi + 1) (by omega)
      rw [pagesFrom, List.mem_cons, later, following, ← BitVec.toNat_inj]
      omega

private theorem pagesFrom_fresh {ppi : Bit32u} {pages : Nat}
    (small : ppi.toNat + (pages + 1) < 2 ^ 32) :
    (ppi + 1).toNat + pages < 2 ^ 32 ∧ ppi ∉ pagesFrom (ppi + 1) pages := by
  have following : (ppi + 1).toNat = ppi.toNat + 1 := by
    rw [BitVec.toNat_add]
    exact Nat.mod_eq_of_lt (by simp; omega)
  have bound : (ppi + 1).toNat + pages < 2 ^ 32 := by omega
  refine ⟨bound, fun member => ?_⟩
  have after := ((mem_pagesFrom bound ppi).mp member).1
  omega

theorem nodup_pagesFrom {ppi : Bit32u} {pages : Nat} (small : ppi.toNat + pages < 2 ^ 32) :
    (pagesFrom ppi pages).Nodup := by
  induction pages generalizing ppi with
  | zero => exact List.nodup_nil
  | succ pages inductionHypothesis =>
      obtain ⟨bound, fresh⟩ := pagesFrom_fresh small
      exact List.nodup_cons.mpr ⟨fresh, inductionHypothesis bound⟩

theorem pinnedAt_clearPinned (pins : Pins) (ppi : Bit32u) :
    pinnedAt (pins.clearPinned ppi) = Function.update (pinnedAt pins) ppi none := by
  funext other
  rw [Function.update_apply, pinnedAt, Pins.clearPinned_pinned]
  split
  · rfl
  · rfl

section Release

variable {whole : Prop} {addr : HostAddr} {pages : HostPages} {rest : List Bit32u}
variable {more : Multiset Resource}

/-- Nothing that is followed while everything is given back is NULL. -/
structure Usable (addr : HostAddr) (pages : HostPages) : Prop where
  guestPageInfo : addr.block .guestPageInfo ≠ 0
  hostAdjunct : addr.block .hostAdjunct ≠ 0
  shared : ∀ shared, pages.sharedHostOSPtr shared ≠ 0

/-- Of the guest's pages only these may still be pinned, and this is held besides. Of a
machine that is `whole` no pointer is NULL. -/
structure Releasing (whole : Prop) (addr : HostAddr) (pages : HostPages) (rest : List Bit32u)
    (more : Multiset Resource) (vm : HostVm) : Prop where
  addr : vm.addr = addr
  pages : vm.pages = pages
  balanced : Holding vm.deals (kept rest (pinnedAt vm.pins) + more)
  marked : ∀ ppi, vm.pins.pinned ppi = true → ppi ∈ rest
  handles : whole → ∀ ppi, vm.pins.pinned ppi = true → vm.pins.guestPageInfoHostAdjunct ppi ≠ 0

/-- What is done to a machine in which some of this is left to give back. -/
abbrev Releases (whole : Prop) (addr : HostAddr) (pages : HostPages) (rest : List Bit32u)
    (more : Multiset Resource) (program : Host Unit) (rest' : List Bit32u)
    (more' : Multiset Resource) : Prop :=
  Ensures (Releasing whole addr pages rest more) program
    (fun _ => Releasing whole addr pages rest' more') fun _ _ => ¬ whole

/-- A change elsewhere. -/
theorem modify_releases {change : HostVm → HostVm}
    (same : ∀ vm, (change vm).addr = vm.addr ∧ (change vm).pages = vm.pages ∧
      (change vm).pins = vm.pins ∧ (change vm).served = vm.served) :
    Releases whole addr pages rest more (modify change) rest more := by
  refine Ensures.modify fun vm here => ?_
  obtain ⟨sameAddr, samePages, samePins, sameServed⟩ := same vm
  refine ⟨sameAddr.trans here.addr, samePages.trans here.pages, ?_, ?_, ?_⟩
  · rw [deals, sameServed, samePins]
    exact here.balanced
  · rw [samePins]
    exact here.marked
  · rw [samePins]
    exact here.handles

theorem hostOSUnpinUserPage_apply (hostOSPtr : HostPtr) (vm : HostVm) :
    hostOSUnpinUserPage hostOSPtr vm =
      if hostOSPtr = 0 then .error .oops vm
      else .ok () { vm with served := .unpinned hostOSPtr :: vm.served } := by
  rw [hostOSUnpinUserPage, bind_apply, oopsWhen_apply]
  by_cases null : hostOSPtr = 0
  · simp only [null, if_true]
  · simp only [null, if_false]
    rfl

/-- A page that is marked as pinned is given back. -/
theorem unpinGuestPage_releases (usable : whole → Usable addr pages) {ppi : Bit32u}
    (fresh : ppi ∉ rest) :
    Ensures (fun vm => Releasing whole addr pages (ppi :: rest) more vm ∧ vm.pins.pinned ppi = true)
      (unpinGuestPage ppi) (fun _ => Releasing whole addr pages rest more) fun _ _ => ¬ whole := by
  rintro vm ⟨releasing, pinned⟩
  rw [unpinGuestPage, get_bind_apply, bind_apply, oopsWhen_apply]
  by_cases adjunct : vm.addr.block .hostAdjunct = 0
  · simp only [adjunct, if_true]
    intro sound
    exact (usable sound).hostAdjunct (releasing.addr ▸ adjunct)
  simp only [adjunct, if_false]
  rw [bind_apply, hostOSUnpinUserPage_apply]
  by_cases null : vm.pins.guestPageInfoHostAdjunct ppi = 0
  · simp only [null, if_true]
    intro sound
    exact releasing.handles sound ppi pinned null
  simp only [null, if_false, modify_apply]
  have here : pinnedAt vm.pins ppi = some (.page (vm.pins.guestPageInfoHostAdjunct ppi)) :=
    if_pos pinned
  have others : kept rest (pinnedAt (vm.pins.clearPinned ppi)) = kept rest (pinnedAt vm.pins) := by
    rw [pinnedAt_clearPinned]
    refine kept_congr fun other member => Function.update_of_ne ?_ _ _
    rintro rfl
    exact fresh member
  have still : ∀ other, (vm.pins.clearPinned ppi).pinned other = true →
      other ≠ ppi ∧ vm.pins.pinned other = true := by
    intro other set
    rw [Pins.clearPinned_pinned] at set
    split at set
    · cases set
    · next different => exact ⟨different, set⟩
  refine ⟨releasing.addr, releasing.pages, ?_, fun other set => ?_, fun sound other set => ?_⟩
  · have earlier := releasing.balanced
    rw [kept_cons_some here, Multiset.cons_add] at earlier
    rw [others]
    exact .give earlier
  · obtain ⟨different, before⟩ := still other set
    exact (List.mem_cons.mp (releasing.marked other before)).resolve_left different
  · exact releasing.handles sound other (still other set).2

private theorem releaseGuestPage_releases (usable : whole → Usable addr pages) {ppi : Bit32u}
    (fresh : ppi ∉ rest) :
    Releases whole addr pages (ppi :: rest) more (releaseGuestPage ppi) rest more := by
  intro vm releasing
  rw [releaseGuestPage, get_bind_apply, bind_apply, oopsWhen_apply]
  by_cases info : vm.addr.block .guestPageInfo = 0
  · simp only [info, if_true]
    intro sound
    exact (usable sound).guestPageInfo (releasing.addr ▸ info)
  simp only [info, if_false, Logic.ite_apply]
  by_cases pinned : vm.pins.pinned ppi = true
  · rw [if_pos pinned]
    exact unpinGuestPage_releases usable fresh vm ⟨releasing, pinned⟩
  · rw [if_neg pinned]
    have here : pinnedAt vm.pins ppi = none := if_neg pinned
    refine ⟨releasing.addr, releasing.pages, ?_, fun other set => ?_, releasing.handles⟩
    · have earlier := releasing.balanced
      rwa [kept_cons_none here] at earlier
    · refine (List.mem_cons.mp (releasing.marked other set)).resolve_left ?_
      rintro rfl
      exact pinned set

/-- The loop gives back all pages of the guest. -/
theorem releaseGuestPages_releases (usable : whole → Usable addr pages) {ppi : Bit32u} {count : Nat}
    (small : ppi.toNat + count < 2 ^ 32) :
    Releases whole addr pages (pagesFrom ppi count) more (releaseGuestPages ppi count) [] more := by
  induction count generalizing ppi with
  | zero => exact Keeps.pure
  | succ count inductionHypothesis =>
      obtain ⟨bound, fresh⟩ := pagesFrom_fresh small
      exact Ensures.bind (releaseGuestPage_releases usable fresh) fun _ => inductionHypothesis bound

/-- A shared page is given back. -/
theorem unpinShared_releases (usable : whole → Usable addr pages) (shared : SharedPage)
    (others : List SharedPage) :
    Releases whole addr pages [] (kept (shared :: others) (sharedAt pages) + more)
      (hostOSUnpinUserPage (pages.sharedHostOSPtr shared)) [] (kept others (sharedAt pages) + more) := by
  intro vm releasing
  rw [hostOSUnpinUserPage_apply]
  by_cases null : pages.sharedHostOSPtr shared = 0
  · simp only [null, if_true]
    intro sound
    exact (usable sound).shared shared null
  simp only [null, if_false]
  have here : sharedAt pages shared = some _ := heldBy_given null _
  refine ⟨releasing.addr, releasing.pages, ?_, releasing.marked, releasing.handles⟩
  have earlier := releasing.balanced
  rw [kept_cons_some here, kept_nil, Multiset.zero_add, Multiset.cons_add] at earlier
  rw [kept_nil, Multiset.zero_add]
  exact .give earlier

/-- Every block is freed. -/
theorem freeBlocks_releases (list : List Block) :
    Releases whole addr pages [] (kept list (blockAt addr)) (freeBlocks list) [] 0 := by
  induction list with
  | nil => exact Keeps.pure
  | cons block others inductionHypothesis =>
      refine Ensures.get_bind fun now releasing => Ensures.bind ?_ fun _ => inductionHypothesis
      rintro vm rfl
      have earlier := releasing.balanced
      rw [hostOSFree, Logic.ite_apply, releasing.addr]
      by_cases null : addr.block block = 0
      · rw [if_neg (not_not.mpr null)]
        have here : blockAt addr block = none := by rw [blockAt, null, heldBy_null]
        rw [kept_cons_none here] at earlier
        exact ⟨releasing.addr, releasing.pages, earlier, releasing.marked, releasing.handles⟩
      · rw [if_pos null]
        have here : blockAt addr block = some _ := heldBy_given null _
        rw [kept_cons_some here, Multiset.add_cons] at earlier
        exact ⟨releasing.addr, releasing.pages, .give earlier, releasing.marked, releasing.handles⟩

private theorem hostReleasePinnedUserPages_releases (usable : whole → Usable addr pages) :
    Releases whole addr pages (pagesFrom 0 pages.guestNPages.toNat)
      (kept sharedPages (sharedAt pages) + more) hostReleasePinnedUserPages [] more := by
  have small : (0 : Bit32u).toNat + pages.guestNPages.toNat < 2 ^ 32 := by
    simpa using pages.guestNPages.isLt
  refine Ensures.look_bind fun now here => ?_
  rw [here.pages]
  refine Ensures.bind (releaseGuestPages_releases usable small) fun _ =>
    Ensures.bind (unpinShared_releases usable .guestCpu [.userLogBuffer]) fun _ => ?_
  have last : Releases whole addr pages [] (kept [.userLogBuffer] (sharedAt pages) + more)
      (hostOSUnpinUserPage (pages.sharedHostOSPtr .userLogBuffer)) [] _ :=
    unpinShared_releases usable .userLogBuffer []
  rwa [kept_nil, Multiset.zero_add] at last

/-- What can be given back is given back, and of a machine that is whole without a stop. -/
theorem hostUnallocVmPages_settles (whole : Prop) :
    Ensures
      (fun vm => vm.Releasable ∧ (whole → Usable vm.addr vm.pages ∧ ∀ ppi,
        vm.pins.pinned ppi = true → vm.pins.guestPageInfoHostAdjunct ppi ≠ 0))
      hostUnallocVmPages
      (fun _ vm => Holding vm.deals 0 ∧ ∀ ppi, vm.pins.pinned ppi = false)
      fun _ _ => ¬ whole := by
  rintro vm ⟨releasable, sound⟩
  have usable : whole → Usable vm.addr vm.pages := fun is => (sound is).1
  have small : (0 : Bit32u).toNat + vm.pages.guestNPages.toNat < 2 ^ 32 := by
    simpa using vm.pages.guestNPages.isLt
  have begun : Releasing whole vm.addr vm.pages (pagesFrom 0 vm.pages.guestNPages.toNat)
      (kept sharedPages (sharedAt vm.pages) + kept blocks (blockAt vm.addr)) vm := by
    refine ⟨rfl, rfl, releasable.balanced, fun ppi pinned => ?_, fun is => (sound is).2⟩
    have inside := releasable.inside ppi pinned
    exact (mem_pagesFrom small ppi).mpr ⟨by simp, by simpa using inside⟩
  have memory : Releases whole vm.addr vm.pages (pagesFrom 0 vm.pages.guestNPages.toNat)
      (kept sharedPages (sharedAt vm.pages) + kept blocks (blockAt vm.addr))
      (do
        hostReleasePinnedUserPages
        modify fun vm => { vm with guestPhyMemAddr := 0 }) [] (kept blocks (blockAt vm.addr)) :=
    Ensures.bind (hostReleasePinnedUserPages_releases usable) fun _ =>
      modify_releases fun _ => ⟨rfl, rfl, rfl, rfl⟩
  have released : releaseGuestMemory vm =
      (do
        hostReleasePinnedUserPages
        modify fun vm => { vm with guestPhyMemAddr := 0 } : Host Unit) vm := by
    rw [releaseGuestMemory, get_bind_apply, Logic.ite_apply, if_pos releasable.memory]
  have given : Ensures (· = vm) releaseGuestMemory
      (fun _ => Releasing whole vm.addr vm.pages [] (kept blocks (blockAt vm.addr)))
      fun _ _ => ¬ whole := by
    rintro _ rfl
    rw [released]
    exact memory _ begun
  have all : Ensures (· = vm) hostUnallocVmPages
      (fun _ vm => Holding vm.deals 0 ∧ ∀ ppi, vm.pins.pinned ppi = false)
      fun _ _ => ¬ whole := by
    refine Ensures.bind given fun _ => Ensures.bind (modify_releases ?_) fun _ =>
      Ensures.bind (freeBlocks_releases blocks) fun _ => Ensures.modify fun now here => ?_
    · exact fun _ => ⟨rfl, rfl, rfl, rfl⟩
    · refine ⟨here.balanced, fun ppi => ?_⟩
      rw [← Bool.not_eq_true]
      exact fun pinned => List.not_mem_nil (here.marked ppi pinned)
  exact all vm rfl

end Release

/-- What can be given back is given back, and nothing else is touched. -/
theorem hostUnallocVmPages_idle {now : Outer} (unmapped : now.flags.getLsbD mapMonitorPlace = false) :
    Ensures (fun vm => vm.Releasable ∧ vm.outer = now) hostUnallocVmPages
      (fun _ vm => vm.Balanced ∧ vm.Idle) fun _ _ => True := by
  have settled := Ensures.weaken (hostUnallocVmPages_settles False)
    (fun vm (here : vm.Releasable ∧ vm.outer = now) => ⟨here.1, False.elim⟩)
    (fun _ _ done => done) fun _ _ _ => trivial
  have vacant := Ensures.weaken hostUnallocVmPages_vacant
    (fun vm (_ : vm.Releasable ∧ vm.outer = now) => trivial)
    (fun _ _ done => done) fun _ _ _ => trivial
  have outer := Ensures.weaken hostUnallocVmPages_outer
    (fun vm (here : vm.Releasable ∧ vm.outer = now) => here.2)
    (fun _ _ done => done) fun _ _ _ => trivial
  refine Ensures.weaken (settled.both (vacant.both outer)) (fun _ here => here) ?_
    fun _ _ _ => trivial
  rintro _ vm ⟨⟨holding, unpinned⟩, nothing, same⟩
  refine ⟨?_, nothing, unpinned, fun mapped => ?_⟩
  · rw [Balanced, held_nothing unpinned nothing.pointer]
    exact holding
  · rw [has_iff (by decide), same, unmapped] at mapped
    exact Bool.false_ne_true mapped

section Register

variable {now : Outer}

private theorem failWith_sound (unmapped : now.flags.getLsbD mapMonitorPlace = false)
    (errno : Errno) :
    Ensures (fun vm => vm.Releasable ∧ vm.outer = now) (failWith errno) (fun _ => Sound)
      fun _ _ => True :=
  Ensures.bind (hostUnallocVmPages_idle unmapped) fun _ =>
    Ensures.pure fun _ here => ⟨here.1, .inl here.2⟩

private theorem hostInitGuestPhyMem_obtained :
    Keeps (fun vm => vm.Obtaining [] ∧ vm.outer = now) (fun _ _ => True) hostInitGuestPhyMem := by
  refine Keeps.get_bind fun _ _ => Keeps.ite (fun _ => .pure) fun _ =>
    Keeps.bind (Keeps.modify fun vm here => ?_) fun _ => .pure
  exact ⟨here.1.same rfl rfl rfl rfl fun _ => rfl, here.2⟩

/-- A machine that has everything is complete once the monitor is mapped. -/
theorem Obtaining.complete (obtaining : vm.Obtaining []) (mapped : vm.Has mapMonitorPlace)
    (empty : vm.pins.queue = {}) : vm.Complete where
  memory := obtaining.memory
  pointers pointer null := List.not_mem_nil ((obtaining.absent pointer).mp null)
  inside ppi pinned := absurd pinned (Bool.eq_false_iff.mp (obtaining.unpinned ppi))
  handles ppi pinned := absurd pinned (Bool.eq_false_iff.mp (obtaining.unpinned ppi))
  mapped := mapped
  queue := .inr ⟨[], Pins.holds_nothing empty obtaining.unpinned⟩

private theorem setUpMonitor_obtained (answers : Answers) :
    Ensures (fun vm => vm.Obtaining [] ∧ vm.outer = now) (setUpMonitor answers)
      (fun done vm => if done = true then vm.Sound else vm.Obtaining [] ∧ vm.outer = now)
      fun _ _ => True := by
  have initialised : Ensures (fun vm => vm.Obtaining [] ∧ vm.outer = now) (hostInitMonitor answers)
      (fun done vm => if done = true then vm.Obtaining [] ∧ vm.pins.queue = {}
        else vm.Obtaining [] ∧ vm.outer = now) fun _ _ => True := by
    refine Ensures.ite (fun _ => Ensures.pure fun _ here => here) fun _ =>
      Ensures.bind (Ensures.modify fun vm here => ?_) fun _ => Ensures.pure fun _ here => here
    exact ⟨here.1.same rfl rfl rfl rfl here.1.unpinned, rfl⟩
  have mapped : Ensures (fun vm => vm.Obtaining [] ∧ vm.pins.queue = {}) hostMapMonitor
      (fun done vm => if done = true then vm.Sound else vm.Obtaining [] ∧ vm.outer = now)
      fun _ _ => True := by
    refine Ensures.bind (Ensures.modify fun vm here => ?_) fun _ => Ensures.pure fun _ here => here
    obtain ⟨obtaining, empty⟩ := here
    have still : ({ vm with vmState := vm.vmState ||| vmStateMapMonitor } : HostVm).Obtaining [] :=
      obtaining.same rfl rfl rfl rfl obtaining.unpinned
    refine ⟨still.balanced, .inr (still.complete ?_ empty)⟩
    rw [Has, BitVec.getLsbD_or]
    exact Bool.or_eq_true_iff.mpr (.inr (by decide))
  refine Ensures.bind initialised fun done => ?_
  cases done with
  | true => exact mapped
  | false => exact Ensures.pure fun _ here => here

private theorem initialise_sound (unmapped : now.flags.getLsbD mapMonitorPlace = false)
    (answers : Answers) :
    Ensures (fun vm => vm.Obtaining [] ∧ vm.outer = now) (initialise answers) (fun _ => Sound)
      fun _ _ => True := by
  have fails : Ensures (fun vm => vm.Obtaining [] ∧ vm.outer = now) (failWith .efault)
      (fun _ => Sound) fun _ _ => True :=
    Ensures.weaken (failWith_sound unmapped .efault) (fun _ here => ⟨here.1.releasable, here.2⟩)
      (fun _ _ sound => sound) fun _ _ _ => trivial
  refine Ensures.bind hostInitGuestPhyMem_obtained fun _ => Ensures.ite (fun _ => ?_) fun _ => fails
  refine Ensures.bind (setUpMonitor_obtained answers) fun done => ?_
  cases done with
  | true => exact Ensures.pure fun _ sound => sound
  | false => exact fails

end Register

/-- A request for memory that passes the checks finds an idle machine. -/
theorem Sound.idle (sound : vm.Sound) (passed : msg.check vm.vmState vm.pages.guestNMegs = none) :
    vm.Idle := by
  refine sound.state.resolve_right fun complete => ?_
  have mapped : vm.vmState.getLsbD mapMonitorPlace = true := complete.mapped
  rw [passed_state passed (by decide)] at mapped
  exact absurd mapped (by decide)

theorem hostIoctlRegisterMem_sound (proper : answers.Proper) (address : msg.guestPhyMemVector ≠ 0) :
    Keeps Sound (fun _ _ => True) (hostIoctlRegisterMem answers msg) := by
  intro vm sound
  cases checked : msg.check vm.vmState vm.pages.guestNMegs with
  | some errno =>
      rw [hostIoctlRegisterMem, get_bind_apply, checked]
      exact sound
  | none =>
      have idle := sound.idle checked
      have unmapped : vm.outer.flags.getLsbD mapMonitorPlace = false := by
        have bit := idle.unmapped
        rwa [has_iff (by decide), Bool.not_eq_true] at bit
      have obtained := allocSteps_obtains proper address vm ⟨sound.balanced, idle⟩
      have outer := @allocSteps_outer vm.outer answers msg vm rfl
      rw [hostIoctlRegisterMem_passed checked]
      cases run : allocSteps answers msg vm with
      | ok value next =>
          rw [run] at obtained outer
          exact initialise_sound unmapped answers next ⟨obtained, outer⟩
      | error stop last =>
          rw [run] at obtained outer
          cases stop with
          | error => exact failWith_sound unmapped .enomem last ⟨obtained, outer⟩
          | oops | running => trivial

end HostVm
end Plex86
