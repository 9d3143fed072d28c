import Plex86.Host.PinHistory
import Plex86.Paging.Window

namespace Plex86

open Logic

def HostCall.isUnpin : HostCall → Bool
  | .unpinned .. => true
  | _ => false

namespace Vm

/-- How many pages have been unpinned so far. -/
def unpins (vm : Vm) : Nat := vm.hostCalls.countP HostCall.isUnpin

/-- Nothing was unpinned: the shadow tables stand and every pinned page stays
where it is. -/
structure NoEviction (before after : Vm) : Prop where
  shadow : after.shadow = before.shadow
  unpins : after.unpins = before.unpins
  kept : ∀ ppi, before.pins.pinned ppi = true →
    after.pins.pinned ppi = true ∧ after.pins.hostPPI ppi = before.pins.hostPPI ppi

/-- A page was unpinned, and the shadow tables were emptied with it. -/
structure Evicted (before after : Vm) : Prop where
  shadow : after.shadow = before.shadow.init before.setup.monPdi
  unpins : after.unpins = before.unpins + 1

/-- A request for this page has to unpin another one. -/
def MustEvict (vm : Vm) (ppi : Bit32u) : Prop :=
  vm.pins.pinned ppi = false ∧ ¬ vm.pins.queue.nEntries < maxPhyPagesPinned

instance (vm : Vm) (ppi : Bit32u) : Decidable (vm.MustEvict ppi) :=
  inferInstanceAs (Decidable (_ ∧ _))

/-- A request for the first page unpins the second. -/
def Drops (vm : Vm) (ppi victim : Bit32u) : Prop := vm.MustEvict ppi ∧ victim = vm.oldest

instance (vm : Vm) (ppi victim : Bit32u) : Decidable (vm.Drops ppi victim) :=
  inferInstanceAs (Decidable (_ ∧ _))

/-- All that pinning a page does to the machine. -/
structure PinSpec (ppi : Bit32u) (before after : Vm) : Prop where
  cpu : SameCpu before after
  mem : after.mem = before.mem
  accesses : after.accesses = before.accesses
  readOnly : ∀ page, (after.pins.guestPageInfo page).attr.ro =
    (before.pins.guestPageInfo page).attr.ro
  memMapIo : ∀ page, (after.pins.guestPageInfo page).attr.memMapIo =
    (before.pins.guestPageInfo page).attr.memMapIo
  inBounds : ppi < before.setup.guestNPages
  pinned : after.pins.pinned ppi = true
  evicts : before.MustEvict ppi → Evicted before after
  keeps : ¬ before.MustEvict ppi → NoEviction before after
  others : ∀ page, page ≠ ppi → ¬ before.Drops ppi page →
    after.pins.guestPageInfo page = before.pins.guestPageInfo page
  holds : ∀ records, before.pins.Holds records → ∃ records', after.pins.Holds records'
  live : ∀ records, before.pins.Holds records →
    after.pins.live = request maxPhyPagesPinned ppi before.pins.live

/-- The state after a page that was not pinned has been pinned on request. -/
def afterPin (vm : Vm) (ppi : Bit32u) (page : PinnedPage) : Vm :=
  { vm.withRoom with
    monRequest := .pinUserPage
    pinReqPPI := ppi
    hostCalls := .pinned (vm.setup.userAddr ppi) page :: vm.withRoom.hostCalls
    pins := vm.pinsAfter ppi page }

private theorem withRoom_cpu (vm : Vm) : SameCpu vm vm.withRoom := by
  unfold withRoom
  split <;> constructor <;> rfl

theorem withRoom_same (vm : Vm) :
    vm.withRoom.mem = vm.mem ∧ vm.withRoom.accesses = vm.accesses ∧
      vm.withRoom.nexusPageTbl = vm.nexusPageTbl := by
  unfold withRoom
  split <;> exact ⟨rfl, rfl, rfl⟩

private theorem withRoom_attr (vm : Vm) (page : Bit32u) :
    (vm.withRoom.pins.guestPageInfo page).attr.ro = (vm.pins.guestPageInfo page).attr.ro ∧
      (vm.withRoom.pins.guestPageInfo page).attr.memMapIo =
        (vm.pins.guestPageInfo page).attr.memMapIo := by
  unfold withRoom
  split
  · exact ⟨rfl, rfl⟩
  · simp only [Pins.clearPinned, Function.update_apply]
    split
    · subst_vars; exact ⟨rfl, rfl⟩
    · exact ⟨rfl, rfl⟩

private theorem afterPin_attr (vm : Vm) (ppi : Bit32u) (answer : PinnedPage) (page : Bit32u) :
    ((vm.afterPin ppi answer).pins.guestPageInfo page).attr.ro =
        (vm.pins.guestPageInfo page).attr.ro ∧
      ((vm.afterPin ppi answer).pins.guestPageInfo page).attr.memMapIo =
        (vm.pins.guestPageInfo page).attr.memMapIo := by
  rw [← (vm.withRoom_attr page).1, ← (vm.withRoom_attr page).2]
  simp only [afterPin, pinsAfter, Pins.enqueue, Pins.setPinned, Function.update_apply]
  split
  · subst_vars; exact ⟨rfl, rfl⟩
  · exact ⟨rfl, rfl⟩

theorem afterPin_spec {vm : Vm} {ppi : Bit32u} {page : PinnedPage}
    (inBounds : ppi < vm.setup.guestNPages) (fresh : vm.pins.pinned ppi = false) :
    PinSpec ppi vm (vm.afterPin ppi page) := by
  have cpu := vm.withRoom_cpu
  constructor
  case cpu =>
    constructor <;> simp [afterPin, cpu.setup, cpu.guestCpu, cpu.context, cpu.guestCPL,
      cpu.monCr0, cpu.monCr4, cpu.gdt, cpu.intr, cpu.cyclesElapsed, cpu.picMaster,
      cpu.picSlave, cpu.pit, cpu.vmState]
  case mem => exact vm.withRoom_same.1
  case accesses => exact vm.withRoom_same.2.1
  case readOnly => exact fun other => (vm.afterPin_attr ppi page other).1
  case memMapIo => exact fun other => (vm.afterPin_attr ppi page other).2
  case inBounds => exact inBounds
  case pinned => simp [afterPin, pinsAfter]
  case evicts =>
    intro must
    constructor
    · simp [afterPin, withRoom, must.2]
    · simp [afterPin, withRoom, must.2, unpins, List.countP_cons, HostCall.isUnpin]
  case keeps =>
    intro stays
    have room : vm.pins.queue.nEntries < maxPhyPagesPinned := by
      by_contra full
      exact stays ⟨fresh, full⟩
    constructor
    · simp [afterPin, withRoom, room]
    · simp [afterPin, withRoom, room, unpins, HostCall.isUnpin]
    · intro other pinned
      have differs : other ≠ ppi := fun same => by simp [same, fresh] at pinned
      simp [afterPin, pinsAfter, withRoom, room, differs, pinned]
  case others =>
    intro other differs stays
    simp only [afterPin, pinsAfter, Pins.enqueue, Pins.setPinned, Function.update_of_ne differs,
      withRoom]
    split
    · rfl
    · next full =>
        have notOldest : other ≠ vm.oldest := fun same => stays ⟨⟨fresh, full⟩, same⟩
        exact Function.update_of_ne notOldest _ _
  case holds => exact fun records holds => ⟨_, holds.request fresh page⟩
  case live =>
    intro records holds
    have absent : ppi ∉ vm.pins.live := fun member => by
      simp [(holds.pinned_iff ppi).mpr member] at fresh
    simp only [afterPin, request, absent, if_false]
    exact pinsAfter_live holds.ring

theorem PinSpec.refl {vm : Vm} {ppi : Bit32u} (inBounds : ppi < vm.setup.guestNPages)
    (pinned : vm.pins.pinned ppi = true) : PinSpec ppi vm vm := by
  constructor
  case cpu => exact SameCpu.refl vm
  case inBounds => exact inBounds
  case pinned => exact pinned
  case evicts => exact fun must => by simp [MustEvict, pinned] at must
  case keeps => exact fun _ => ⟨rfl, rfl, fun _ already => ⟨already, rfl⟩⟩
  case holds => exact fun records holds => ⟨records, holds⟩
  case live =>
    intro records holds
    simp [request, (holds.pinned_iff ppi).mp pinned]
  all_goals intros; rfl

/-- Which page a window shows makes no difference to the pinned pages. -/
theorem PinSpec.withNexus {ppi : Bit32u} {before after : Vm} (spec : PinSpec ppi before after)
    (entries : Nat → PageEntry) : PinSpec ppi before { after with nexusPageTbl := entries } where
  cpu := by constructor <;> simp [spec.cpu.setup, spec.cpu.guestCpu, spec.cpu.context,
    spec.cpu.guestCPL, spec.cpu.monCr0, spec.cpu.monCr4, spec.cpu.gdt, spec.cpu.intr,
    spec.cpu.cyclesElapsed, spec.cpu.picMaster, spec.cpu.picSlave, spec.cpu.pit,
    spec.cpu.vmState]
  mem := spec.mem
  accesses := spec.accesses
  readOnly := spec.readOnly
  memMapIo := spec.memMapIo
  inBounds := spec.inBounds
  pinned := spec.pinned
  evicts := fun must => ⟨(spec.evicts must).shadow, (spec.evicts must).unpins⟩
  keeps := fun stays =>
    ⟨(spec.keeps stays).shadow, (spec.keeps stays).unpins, (spec.keeps stays).kept⟩
  others := spec.others
  holds := spec.holds
  live := spec.live

/-- Opening a window pins the page and turns one entry of the nexus page table to it. -/
structure OpenSpec (page : OpenPage) (before after : Vm) : Prop where
  pin : PinSpec page.ppi before after
  window : after.WindowOpen page
  others : ∀ pti, pti ≠ before.setup.windowPti page.monOffset →
    after.nexusPageTbl pti = before.nexusPageTbl pti
  user : ∀ pti, (after.nexusPageTbl pti).us = (before.nexusPageTbl pti).us

/-- What a request unpins, read off the queue. -/
theorem drops_iff {vm : Vm} {records : List PinRecord} (holds : vm.pins.Holds records)
    (ppi victim : Bit32u) : vm.Drops ppi victim ↔ ppi ∉ vm.pins.live ∧
      ¬ vm.pins.live.length < maxPhyPagesPinned ∧ vm.pins.live.head? = some victim := by
  have length := Pins.live_length holds.ring
  have queued := holds.pinned_iff ppi
  simp only [Drops, MustEvict, length, ← queued, Bool.not_eq_true]
  constructor
  · rintro ⟨⟨absent, full⟩, rfl⟩
    obtain ⟨rest, queue⟩ := live_head holds full
    exact ⟨absent, full, by simp [queue]⟩
  · rintro ⟨absent, full, head⟩
    obtain ⟨rest, queue⟩ := live_head holds full
    exact ⟨⟨absent, full⟩, by simpa [queue] using head.symm⟩

theorem NoEviction.refl (vm : Vm) : NoEviction vm vm :=
  ⟨rfl, rfl, fun _ pinned => ⟨pinned, rfl⟩⟩

theorem NoEviction.trans {before middle after : Vm} (first : NoEviction before middle)
    (second : NoEviction middle after) : NoEviction before after where
  shadow := second.shadow.trans first.shadow
  unpins := second.unpins.trans first.unpins
  kept := fun ppi pinned =>
    have ⟨still, same⟩ := first.kept ppi pinned
    have ⟨later, unmoved⟩ := second.kept ppi still
    ⟨later, unmoved.trans same⟩

/-- Pages have been unpinned, and the shadow tables were emptied with them. -/
structure Flushed (before after : Vm) : Prop where
  shadow : after.shadow = before.shadow.init before.setup.monPdi
  unpins : before.unpins < after.unpins

/-- These pages were asked for one after another, starting from a queue in order. -/
structure Asked (pages : List Bit32u) (before after : Vm) : Prop where
  live : after.pins.live = requests maxPhyPagesPinned before.pins.live pages
  flushes : overflow maxPhyPagesPinned before.pins.live pages = true → Flushed before after
  quiet : overflow maxPhyPagesPinned before.pins.live pages = false → NoEviction before after

/-- Asking for a page that is not pinned drops another one from a full queue. -/
theorem mustEvict_iff {vm : Vm} {records : List PinRecord} (holds : vm.pins.Holds records)
    (ppi : Bit32u) :
    vm.MustEvict ppi ↔ overflows maxPhyPagesPinned ppi vm.pins.live = true := by
  simp only [MustEvict, overflows, Pins.live_length holds.ring, ← holds.pinned_iff ppi,
    Bool.not_eq_true, decide_eq_true_eq]

theorem PinSpec.asked {ppi : Bit32u} {before after : Vm} (spec : PinSpec ppi before after)
    {records : List PinRecord} (holds : before.pins.Holds records) :
    Asked [ppi] before after where
  live := spec.live records holds
  flushes := fun exceeds => by
    have evicted := spec.evicts ((mustEvict_iff holds ppi).mpr (by simpa [overflow] using exceeds))
    exact ⟨evicted.shadow, by rw [evicted.unpins]; exact Nat.lt_succ_self _⟩
  quiet := fun room => spec.keeps fun must => by
    simp [overflow, (mustEvict_iff holds ppi).mp must] at room

theorem Asked.refl (vm : Vm) : Asked [] vm vm :=
  ⟨rfl, by simp [overflow], fun _ => .refl vm⟩

/-- A page just asked for is unpinned by the next request only where it was
pinned already, as the oldest of all. -/
theorem PinSpec.drops {first second : Bit32u} {before after : Vm}
    (spec : PinSpec first before after) {records : List PinRecord}
    (holds : before.pins.Holds records) (drops : after.Drops second first) :
    before.pins.pinned first = true ∧ before.Drops second first := by
  obtain ⟨records', holds'⟩ := spec.holds records holds
  have live := spec.live records holds
  rw [drops_iff holds', live] at drops
  obtain ⟨absent, full, head⟩ := drops
  by_cases queued : first ∈ before.pins.live
  · simp only [request, queued, if_true] at absent full head
    exact ⟨(holds.pinned_iff first).mpr queued, (drops_iff holds second first).mpr
      ⟨absent, full, head⟩⟩
  · simp only [request, queued, if_false] at full head
    exact (push_head_ne queued (by simp [maxPhyPagesPinned] at full ⊢; omega) head).elim

/-- A window stays open while another one is opened, unless that unpins its page. -/
theorem OpenSpec.stays {page other : OpenPage} {before after : Vm}
    (spec : OpenSpec page before after) (shows : before.WindowOpen other)
    (apart : before.setup.windowPti other.monOffset ≠ before.setup.windowPti page.monOffset)
    (kept : ¬ before.Drops page.ppi other.ppi) : after.WindowOpen other := by
  have same : after.pins.pinned other.ppi = true ∧
      after.pins.hostPPI other.ppi = before.pins.hostPPI other.ppi := by
    by_cases must : before.MustEvict page.ppi
    · have differs : other.ppi ≠ page.ppi := fun same => by
        simp [MustEvict, ← same, shows.1] at must
      have still := spec.pin.others other.ppi differs kept
      exact ⟨by rw [Pins.pinned, still]; exact shows.1, by rw [Pins.hostPPI, still]; rfl⟩
    · exact (spec.pin.keeps must).kept other.ppi shows.1
  refine ⟨same.1, ?_⟩
  rw [same.2, ← shows.2, windowBase, windowBase, spec.pin.cpu.setup, spec.others _ apart]

end Vm

open Vm

theorem toHostPinUserPage_ok {ppi : Bit32u} {vm next : Vm}
    (run : toHostPinUserPage ppi vm = .ok () next) :
    ∃ page, next = vm.afterPin ppi page := by
  simp only [toHostPinUserPage, modify_bind_apply, bind_ok] at run
  obtain ⟨served, answered, request, rest⟩ := run
  cases served with
  | false => simp [ioctlPanic] at rest
  | true =>
      obtain ⟨page, -, rfl⟩ := hostHandlePagePinRequest_ok request
      refine ⟨page, ?_⟩
      simp only [if_true, pure_apply, EStateM.Result.ok.injEq, true_and] at rest
      rw [← rest]
      by_cases room : vm.pins.queue.nEntries < maxPhyPagesPinned <;>
        simp [afterPin, withRoom, pinsAfter, pinSlot, room]

theorem monAssert_ok {holds : Bool} {expression : String} {vm next : Vm} {value : Unit}
    (run : monAssert holds expression vm = .ok value next) : holds = true ∧ vm = next := by
  unfold monAssert at run
  split at run
  · simp_all
  · simp at run

theorem getHostOSPinnedPage_ok {ppi : Bit32u} {frame : Frame} {vm next : Vm}
    (run : getHostOSPinnedPage ppi vm = .ok frame next) :
    PinSpec ppi vm next ∧ frame = next.pins.hostPPI ppi ∧
      next.nexusPageTbl = vm.nexusPageTbl := by
  simp only [getHostOSPinnedPage, get_bind_apply, bind_ok] at run
  obtain ⟨_, _, bounded, rest⟩ := run
  obtain ⟨inBounds, rfl⟩ := monAssert_ok bounded
  have inside : ppi < vm.setup.guestNPages := by simpa using inBounds
  split at rest
  · next already =>
      simp only [pure_apply, EStateM.Result.ok.injEq] at rest
      obtain ⟨rfl, rfl⟩ := rest
      exact ⟨PinSpec.refl inside already, rfl, rfl⟩
  · next fresh =>
      simp only [bind_ok, get_bind_apply, pure_apply, EStateM.Result.ok.injEq] at rest
      obtain ⟨_, asked, request, _, _, asserted, rfl, rfl⟩ := rest
      obtain ⟨page, rfl⟩ := toHostPinUserPage_ok request
      obtain ⟨-, rfl⟩ := monAssert_ok asserted
      exact ⟨afterPin_spec inside (by simpa using fresh), rfl, (vm.withRoom_same).2.2⟩

theorem openGuestPhyPage_ok {ppi monOffset : Bit32u} {page : OpenPage} {vm next : Vm}
    (run : openGuestPhyPage ppi monOffset vm = .ok page next) :
    page = ⟨monOffset, ppi⟩ ∧ OpenSpec page vm next := by
  simp only [openGuestPhyPage, get_bind_apply, modify_bind_apply, bind_ok, pure_apply,
    EStateM.Result.ok.injEq] at run
  obtain ⟨_, _, bounded, base, mid, pinned, rfl, rfl⟩ := run
  obtain ⟨-, rfl⟩ := monAssert_ok bounded
  obtain ⟨pin, rfl, nexus⟩ := getHostOSPinnedPage_ok pinned
  have setup := pin.cpu.setup
  refine ⟨rfl, ⟨?_, ?_, ?_, ?_⟩⟩
  · exact pin.withNexus _
  · exact ⟨pin.pinned, by simp [windowBase, Pins.hostPPI]⟩
  · intro pti differs
    simp only [setup, Function.update_of_ne differs, nexus]
  · intro pti
    simp only [setup, nexus, Function.update_apply]
    split
    · subst_vars; simp
    · rfl

end Plex86
