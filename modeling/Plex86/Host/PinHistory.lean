import Plex86.Host.PinQueue
import Plex86.Logic.Run

namespace Plex86

open Logic

/-- A page as it was pinned: the guest page and what the host returned for it. -/
structure PinRecord where
  ppi : Bit32u
  page : PinnedPage

namespace Pins

/-- The pages in the queue, the one pinned the longest time ago first. -/
def live (pins : Pins) : List Bit32u :=
  ringList maxPhyPagesPinned pins.queue.nEntries pins.queue.tail pins.queue.ppi

/-- The queue, the pinned flags and the stored pointers all tell of the same pins. -/
structure Holds (pins : Pins) (records : List PinRecord) : Prop where
  ring : RingOk maxPhyPagesPinned pins.queue.nEntries pins.queue.tail
  queued : pins.live = records.map (·.ppi)
  distinct : pins.live.Nodup
  pinned_iff : ∀ ppi, pins.pinned ppi = true ↔ ppi ∈ pins.live
  handle : ∀ record ∈ records,
    pins.guestPageInfoHostAdjunct record.ppi = record.page.hostPtr
  frame : ∀ record ∈ records, pins.hostPPI record.ppi = record.page.hostPPI

@[simp] theorem clearPinned_pinned (pins : Pins) (ppi other : Bit32u) :
    (pins.clearPinned ppi).pinned other = if other = ppi then false else pins.pinned other := by
  simp only [clearPinned, pinned, Function.update_apply]
  split <;> rfl

@[simp] theorem setPinned_pinned (pins : Pins) (ppi other : Bit32u) (page : PinnedPage) :
    (pins.setPinned ppi page).pinned other =
      if other = ppi then true else pins.pinned other := by
  simp only [setPinned, pinned, Function.update_apply]
  split <;> rfl

@[simp] theorem clearPinned_hostPPI (pins : Pins) (ppi other : Bit32u) :
    (pins.clearPinned ppi).hostPPI other = pins.hostPPI other := by
  simp only [clearPinned, hostPPI, Function.update_apply]
  split
  · subst_vars; rfl
  · rfl

@[simp] theorem setPinned_hostPPI (pins : Pins) (ppi other : Bit32u) (page : PinnedPage) :
    (pins.setPinned ppi page).hostPPI other =
      if other = ppi then page.hostPPI else pins.hostPPI other := by
  simp only [setPinned, hostPPI, Function.update_apply]
  split <;> rfl

@[simp] theorem enqueue_pinned (pins : Pins) (slot : Nat) (ppi other : Bit32u) :
    (pins.enqueue slot ppi).pinned other = pins.pinned other := rfl

@[simp] theorem enqueue_hostPPI (pins : Pins) (slot : Nat) (ppi other : Bit32u) :
    (pins.enqueue slot ppi).hostPPI other = pins.hostPPI other := rfl

theorem live_length {pins : Pins}
    (ring : RingOk maxPhyPagesPinned pins.queue.nEntries pins.queue.tail) :
    pins.live.length = pins.queue.nEntries :=
  ringList_length _ ring

end Pins

/-- The page that a request on a full queue unpins. -/
def Vm.oldest (vm : Vm) : Bit32u := vm.pins.queue.ppi vm.pins.queue.tail

theorem Vm.live_head {vm : Vm} {records : List PinRecord} (holds : vm.pins.Holds records)
    (full : ¬ vm.pins.queue.nEntries < maxPhyPagesPinned) :
    ∃ rest, vm.pins.live = vm.oldest :: rest := by
  have head := ringList_head vm.pins.queue.ppi holds.ring full
  cases queue : vm.pins.live with
  | nil =>
      rw [Pins.live] at queue
      simp [queue] at head
  | cons first rest =>
      rw [Pins.live] at queue
      simp only [queue, List.head?_cons, Option.some.injEq] at head
      exact ⟨rest, by rw [head, Vm.oldest]⟩

/-- The pins after a successful request. -/
def Vm.pinsAfter (vm : Vm) (ppi : Bit32u) (page : PinnedPage) : Pins :=
  (vm.withRoom.pins.setPinned ppi page).enqueue vm.pinSlot ppi

private theorem Vm.withRoom_queue (vm : Vm) : vm.withRoom.pins.queue = vm.pins.queue := by
  unfold withRoom
  split <;> rfl

private theorem Vm.withRoom_pinned (vm : Vm) (ppi : Bit32u) :
    vm.withRoom.pins.pinned ppi =
      if ¬ vm.pins.queue.nEntries < maxPhyPagesPinned ∧ ppi = vm.oldest then false
      else vm.pins.pinned ppi := by
  unfold withRoom
  split
  · simp [*]
  · simp [*, oldest]

private theorem Vm.withRoom_hostPPI (vm : Vm) (ppi : Bit32u) :
    vm.withRoom.pins.hostPPI ppi = vm.pins.hostPPI ppi := by
  unfold withRoom
  split <;> simp

private theorem Vm.withRoom_adjunct (vm : Vm) :
    vm.withRoom.pins.guestPageInfoHostAdjunct = vm.pins.guestPageInfoHostAdjunct := by
  unfold withRoom
  split <;> rfl

private theorem Vm.pinsAfter_ring {vm : Vm} {ppi : Bit32u} {page : PinnedPage}
    (ring : RingOk maxPhyPagesPinned vm.pins.queue.nEntries vm.pins.queue.tail) :
    RingOk maxPhyPagesPinned (vm.pinsAfter ppi page).queue.nEntries
      (vm.pinsAfter ppi page).queue.tail := by
  obtain ⟨bounded, filling, inside⟩ := ring
  simp only [pinsAfter, Pins.enqueue, Pins.setPinned, withRoom_queue]
  by_cases room : vm.pins.queue.nEntries < maxPhyPagesPinned
  · simp only [room, if_true]
    refine ⟨room, fun more => Nat.mod_eq_of_lt more, Nat.mod_lt _ (by decide)⟩
  · simp only [room, if_false]
    exact ⟨bounded, fun less => (room less).elim, Nat.mod_lt _ (by decide)⟩

/-- A request puts its page behind the others in the queue. -/
theorem Vm.pinsAfter_live {vm : Vm} {ppi : Bit32u} {page : PinnedPage}
    (ring : RingOk maxPhyPagesPinned vm.pins.queue.nEntries vm.pins.queue.tail) :
    (vm.pinsAfter ppi page).live = push maxPhyPagesPinned ppi vm.pins.live := by
  simp only [Pins.live, pinsAfter, Pins.enqueue, Pins.setPinned, withRoom_queue, pinSlot]
  by_cases room : vm.pins.queue.nEntries < maxPhyPagesPinned
  · simp only [room, if_true]
    exact ringList_fill ring room
  · have full : vm.pins.queue.nEntries = maxPhyPagesPinned :=
      Nat.le_antisymm ring.bounded (Nat.not_lt.mp room)
    simp only [room, if_false]
    rw [full] at ring ⊢
    exact ringList_overwrite ring

/-- After a request the pages in the queue are the requested one and those that
were there before, but for the oldest page of a full queue. -/
theorem Vm.mem_pinsAfter_live {vm : Vm} {records : List PinRecord} {ppi other : Bit32u}
    {page : PinnedPage} (holds : vm.pins.Holds records) :
    other ∈ (vm.pinsAfter ppi page).live ↔ other = ppi ∨
      (other ∈ vm.pins.live ∧
        ¬ (¬ vm.pins.queue.nEntries < maxPhyPagesPinned ∧ other = vm.oldest)) := by
  have length := Pins.live_length holds.ring
  rw [pinsAfter_live holds.ring]
  by_cases room : vm.pins.queue.nEntries < maxPhyPagesPinned
  · rw [push_of_lt (by omega)]
    simp [room, or_comm]
  · obtain ⟨rest, queue⟩ := live_head holds room
    have distinct := holds.distinct
    rw [queue] at distinct length ⊢
    rw [push_of_full (by omega)]
    have absent : vm.oldest ∉ rest := (List.nodup_cons.mp distinct).1
    simp only [List.tail_cons, List.mem_append, List.mem_cons, List.not_mem_nil, or_false, room,
      not_false_eq_true, true_and]
    constructor
    · rintro (kept | rfl)
      · exact .inr ⟨.inr kept, fun same => absent (same ▸ kept)⟩
      · exact .inl rfl
    · rintro (rfl | ⟨oldest | kept, differs⟩)
      · exact .inr rfl
      · exact (differs oldest).elim
      · exact .inl kept

/-- A request for a page that is not pinned keeps queue, flags and pointers in step. -/
theorem Pins.Holds.request {vm : Vm} {records : List PinRecord} (holds : vm.pins.Holds records)
    {ppi : Bit32u} (fresh : vm.pins.pinned ppi = false) (page : PinnedPage) :
    (vm.pinsAfter ppi page).Holds (push maxPhyPagesPinned ⟨ppi, page⟩ records) := by
  have absent : ppi ∉ vm.pins.live := fun member => by
    simp [(holds.pinned_iff ppi).mpr member] at fresh
  have queued : (vm.pinsAfter ppi page).live =
      (push maxPhyPagesPinned ⟨ppi, page⟩ records).map (·.ppi) := by
    rw [Vm.pinsAfter_live holds.ring, push_map, holds.queued]
  have other : ∀ record ∈ push maxPhyPagesPinned ⟨ppi, page⟩ records,
      (record ∈ records ∧ record.ppi ≠ ppi) ∨ record = ⟨ppi, page⟩ := by
    intro record member
    rcases mem_of_mem_push member with old | new
    · refine .inl ⟨old, fun same => absent ?_⟩
      rw [← same, holds.queued]
      exact List.mem_map_of_mem old
    · exact .inr new
  constructor
  case ring => exact Vm.pinsAfter_ring holds.ring
  case queued => exact queued
  case distinct =>
    rw [Vm.pinsAfter_live holds.ring]
    exact push_nodup holds.distinct absent
  case pinned_iff =>
    intro page'
    rw [Vm.mem_pinsAfter_live holds, ← holds.pinned_iff]
    simp only [Vm.pinsAfter, Pins.enqueue_pinned, Pins.setPinned_pinned, Vm.withRoom_pinned]
    by_cases requested : page' = ppi
    · simp [requested]
    · simp only [requested, if_false, false_or]
      split <;> simp_all
  case handle =>
    intro record member
    simp only [Vm.pinsAfter, Pins.enqueue, Pins.setPinned, Vm.withRoom_adjunct]
    rcases other record member with ⟨old, differs⟩ | rfl
    · rw [Function.update_of_ne differs, holds.handle record old]
    · simp
  case frame =>
    intro record member
    simp only [Vm.pinsAfter, Pins.enqueue_hostPPI, Pins.setPinned_hostPPI, Vm.withRoom_hostPPI]
    rcases other record member with ⟨old, differs⟩ | rfl
    · rw [if_neg differs, holds.frame record old]
    · simp

/-- One successful request for a page that is not pinned. -/
def PinStep (vm : Vm) (ppi : Bit32u) (next : Vm) : Prop :=
  vm.pins.pinned ppi = false ∧ hostHandlePagePinRequest ppi vm = .ok true next

/-- What a successful request leaves behind. -/
theorem hostHandlePagePinRequest_ok {ppi : Bit32u} {vm next : Vm}
    (request : hostHandlePagePinRequest ppi vm = .ok true next) :
    ∃ page, vm.setup.os.getAndPinUserPage vm.withRoom.hostCalls.length
        (vm.setup.userAddr ppi) = some page ∧
      next = { vm.withRoom with
        hostCalls := .pinned (vm.setup.userAddr ppi) page :: vm.withRoom.hostCalls
        pins := vm.pinsAfter ppi page } := by
  rw [hostHandlePagePinRequest_apply] at request
  split at request
  · simp at request
  · next page found =>
      refine ⟨page, found, ?_⟩
      simp only [EStateM.Result.ok.injEq, true_and] at request
      exact request.symm

/-- No page is pinned and the queue is as `hostInitMonitor` leaves it. -/
structure EmptyQueue (vm : Vm) : Prop where
  nEntries : vm.pins.queue.nEntries = 0
  tail : vm.pins.queue.tail = 0
  unpinned : ∀ ppi, vm.pins.pinned ppi = false

theorem EmptyQueue.holds {vm : Vm} (empty : EmptyQueue vm) : vm.pins.Holds [] := by
  have nothing : vm.pins.live = [] := by
    simp [Pins.live, ringList, empty.nEntries, maxPhyPagesPinned]
  constructor
  case ring =>
    rw [empty.nEntries, empty.tail]
    exact ⟨by decide, fun _ => rfl, by decide⟩
  case queued => simpa using nothing
  case distinct => simp [nothing]
  case pinned_iff => simp [nothing, empty.unpinned]
  case handle => simp
  case frame => simp

/-- The pin made at a moment: the page asked for and what the host answered. -/
def pinRecord (moment : Moment Vm Bit32u) : PinRecord :=
  { ppi := moment.event
    page := match moment.after.hostCalls with
      | .pinned _ page :: _ => page
      | _ => { hostPtr := 0, hostPPI := 0 } }

/-- The pins made in a run, the first one first. -/
def pinRecords (past : List (Moment Vm Bit32u)) : List PinRecord :=
  (past.map pinRecord).reverse

private theorem pinStep_record {vm next : Vm} {ppi : Bit32u} (step : PinStep vm ppi next) :
    next.hostCalls = .pinned (vm.setup.userAddr ppi) (pinRecord ⟨vm, ppi, next⟩).page ::
        vm.withRoom.hostCalls ∧
      next.pins = vm.pinsAfter ppi (pinRecord ⟨vm, ppi, next⟩).page ∧
      next.setup = vm.setup := by
  obtain ⟨page, -, rfl⟩ := hostHandlePagePinRequest_ok step.2
  exact ⟨rfl, rfl, Vm.withRoom_setup vm⟩

/-- The queue always holds the last pins made, as many as it has slots. -/
theorem pins_hold_recent {past : List (Moment Vm Bit32u)} {vm : Vm}
    (run : Run EmptyQueue PinStep past vm) :
    vm.pins.Holds ((pinRecords past).rtake maxPhyPagesPinned) := by
  induction run with
  | start empty => simpa [pinRecords] using empty.holds
  | @next past now later ppi earlier step inductionHypothesis =>
      have requested := inductionHypothesis.request step.1 (pinRecord ⟨now, ppi, later⟩).page
      rw [push_rtake (by decide), ← (pinStep_record step).2.1] at requested
      simpa [pinRecords, pinRecord] using requested

/-- What a run of successful requests leaves in the queue, and what the next
request does to it. -/
structure PinQueueExact (past : List (Moment Vm Bit32u)) (vm : Vm) : Prop where
  bounded : vm.pins.queue.nEntries ≤ maxPhyPagesPinned
  distinct : vm.pins.live.Nodup
  exactly_pinned : ∀ ppi, ppi ∈ vm.pins.live ↔ vm.pins.pinned ppi = true
  most_recent : vm.pins.live = ((past.map (·.event)).reverse).rtake maxPhyPagesPinned
  with_room : ∀ ppi next, PinStep vm ppi next →
    vm.pins.queue.nEntries < maxPhyPagesPinned →
      (∃ page, next.hostCalls = .pinned (vm.setup.userAddr ppi) page :: vm.hostCalls) ∧
      ∀ other, other ≠ ppi → next.pins.guestPageInfo other = vm.pins.guestPageInfo other
  when_full : ∀ ppi next, PinStep vm ppi next →
    vm.pins.queue.nEntries = maxPhyPagesPinned →
      ∃ newer maker older, ∃ old new : PinnedPage, past = newer ++ maker :: older ∧
        newer.length = maxPhyPagesPinned - 1 ∧
        maker.after.hostCalls.head? = some (.pinned (vm.setup.userAddr maker.event) old) ∧
        next.hostCalls = .pinned (vm.setup.userAddr ppi) new ::
          .unpinned (vm.setup.userAddr maker.event) old.hostPtr maker.event :: vm.hostCalls ∧
        next.pins.pinned maker.event = false ∧
        ∀ other, other ≠ ppi → other ≠ maker.event →
          next.pins.guestPageInfo other = vm.pins.guestPageInfo other

private theorem pinRun_setup {past : List (Moment Vm Bit32u)} {vm : Vm}
    (run : Run EmptyQueue PinStep past vm) {moment : Moment Vm Bit32u} (member : moment ∈ past) :
    moment.before.setup = vm.setup := by
  induction run with
  | start empty => simp at member
  | next earlier step inductionHypothesis =>
      rw [(pinStep_record step).2.2]
      rcases List.mem_cons.mp member with rfl | older
      · rfl
      · exact inductionHypothesis older

/-- Apart from the page asked for and the one unpinned, a request changes no page. -/
private theorem pinStep_others {vm next : Vm} {ppi : Bit32u} (step : PinStep vm ppi next)
    {other : Bit32u} (differs : other ≠ ppi)
    (stays : vm.pins.queue.nEntries < maxPhyPagesPinned ∨ other ≠ vm.oldest) :
    next.pins.guestPageInfo other = vm.pins.guestPageInfo other := by
  rw [(pinStep_record step).2.1]
  simp only [Vm.pinsAfter, Pins.enqueue, Pins.setPinned, Function.update_of_ne differs,
    Vm.withRoom]
  split
  · rfl
  · next full =>
      have notOldest : other ≠ vm.oldest := stays.resolve_left full
      exact Function.update_of_ne notOldest _ _

/-- The pin queue is exact after any number of successful requests. -/
theorem pinQueue_exact {past : List (Moment Vm Bit32u)} {vm : Vm}
    (run : Run EmptyQueue PinStep past vm) : PinQueueExact past vm := by
  have holds := pins_hold_recent run
  have records : (pinRecords past).rtake maxPhyPagesPinned =
      ((past.take maxPhyPagesPinned).map pinRecord).reverse := by
    rw [pinRecords, rtake_reverse, List.map_take]
  have recent : vm.pins.live = ((past.take maxPhyPagesPinned).map (·.event)).reverse := by
    rw [holds.queued, records]
    simp [pinRecord, Function.comp_def]
  constructor
  case bounded => exact holds.ring.bounded
  case distinct => exact holds.distinct
  case exactly_pinned => exact fun ppi => (holds.pinned_iff ppi).symm
  case most_recent => rw [recent, rtake_reverse, List.map_take]
  case with_room =>
    intro ppi next step room
    refine ⟨⟨(pinRecord ⟨vm, ppi, next⟩).page, ?_⟩,
      fun other differs => pinStep_others step differs (.inl room)⟩
    rw [(pinStep_record step).1]
    simp [Vm.withRoom, room]
  case when_full =>
    intro ppi next step full
    have noRoom : ¬ vm.pins.queue.nEntries < maxPhyPagesPinned := by omega
    have long : maxPhyPagesPinned ≤ past.length := by
      have length := Pins.live_length holds.ring
      rw [recent, full] at length
      simp at length
      omega
    obtain ⟨newer, maker, older, split, position, taken⟩ := take_split (by decide) long
    rw [taken] at records recent
    -- the head of the queue is the page pinned as many requests ago as it has slots
    obtain ⟨rest, queue⟩ := Vm.live_head holds noRoom
    have oldest : maker.event = vm.oldest := by
      have head : vm.pins.live.head? = some maker.event := by simp [recent]
      simpa [queue] using head.symm
    have member : maker ∈ past := by simp [split]
    have made := (run.moment_reached member).2
    have sameSetup := pinRun_setup run member
    have handle : vm.pins.guestPageInfoHostAdjunct maker.event =
        (pinRecord maker).page.hostPtr := by
      have record := holds.handle (pinRecord maker) (by simp [records])
      simpa [pinRecord] using record
    refine ⟨newer, maker, older, (pinRecord maker).page, (pinRecord ⟨vm, ppi, next⟩).page,
      split, position, ?_, ?_, ?_, ?_⟩
    · rw [(pinStep_record made).1, sameSetup]
      rfl
    · rw [(pinStep_record step).1, ← handle, oldest]
      simp [Vm.withRoom, noRoom, Vm.oldest]
    · have stillPinned : vm.pins.pinned vm.oldest = true :=
        (holds.pinned_iff _).mpr (by simp [queue])
      have differs : vm.oldest ≠ ppi := fun same => by
        rw [same, step.1] at stillPinned
        exact Bool.false_ne_true stillPinned
      rw [(pinStep_record step).2.1, oldest]
      simp [Vm.pinsAfter, differs, Vm.withRoom_pinned, noRoom]
    · intro other differs notOldest
      exact pinStep_others step differs (.inr (oldest ▸ notOldest))

namespace Sample

/-- A host that pins every page it is asked for, at a frame of its own. -/
def os : HostOS where
  getAndPinUserPage := fun _ userAddr => some ⟨userAddr, userAddr.extractLsb' 12 20⟩
  holds := fun _ _ => none
  otherMemory := fun _ _ => 0

/-- What a guest of four megabytes is registered with. -/
def setup : Setup where
  linuxVMMode := true
  guestNPages := 1024
  guestNBytes := 0x400000
  guestPhyMemAddr := 0x40000000
  family := 6
  monPdi := 0x1c0
  monPdeMask := 0x70000000
  startOffsetPageAligned := 0
  tmpPhyPage0 := 0x100000
  tmpPhyPage1 := 0x101000
  pageTbl := fun index => 0x200 + index.setWidth 20
  nexusPageTbl := 0x10b
  cpuToPitRatio := 100
  os

end Sample

/-- A page that no request named so far is not pinned. -/
private theorem unnamed_unpinned {past : List (Moment Vm Bit32u)} {vm : Vm}
    (run : Run EmptyQueue PinStep past vm) {ppi : Bit32u} (unnamed : ppi ∉ past.map (·.event)) :
    vm.pins.pinned ppi = false := by
  have holds := pins_hold_recent run
  rw [← Bool.not_eq_true, holds.pinned_iff, holds.queued]
  intro queued
  obtain ⟨record, recent, named⟩ := List.mem_map.mp queued
  have kept : record ∈ pinRecords past := List.mem_of_mem_drop recent
  rw [pinRecords, List.mem_reverse] at kept
  obtain ⟨moment, made, rfl⟩ := List.mem_map.mp kept
  exact unnamed (List.mem_map.mpr ⟨moment, made, named⟩)

/-- A host that grants every request serves one for each of any different pages. -/
private theorem requests_run {vm : Vm} (empty : EmptyQueue vm)
    (granted : ∀ calls userAddr, (vm.setup.os.getAndPinUserPage calls userAddr).isSome)
    (pages : List Bit32u) (distinct : pages.Nodup) : ∃ past now,
    Run EmptyQueue PinStep past now ∧ now.setup = vm.setup ∧ past.map (·.event) = pages := by
  induction pages with
  | nil => exact ⟨[], vm, .start empty, rfl, rfl⟩
  | cons ppi earlier inductionHypothesis =>
      obtain ⟨new, others⟩ := List.nodup_cons.mp distinct
      obtain ⟨past, now, run, sameSetup, named⟩ := inductionHypothesis others
      obtain ⟨page, pinned⟩ := Option.isSome_iff_exists.mp
        (granted now.withRoom.hostCalls.length (vm.setup.userAddr ppi))
      have request := hostHandlePagePinRequest_apply ppi now
      rw [sameSetup, pinned] at request
      have step : PinStep now ppi _ := ⟨unnamed_unpinned run (named ▸ new), request⟩
      refine ⟨_, _, run.next step, ?_, ?_⟩
      · exact (pinStep_record step).2.2.trans sameSetup
      · rw [List.map_cons, named]

/-- The pages from 0 on, the last one first. -/
def firstPages (count : Nat) : List Bit32u :=
  ((List.range count).map (BitVec.ofNat 32)).reverse

private theorem firstPages_nodup {count : Nat} (few : count ≤ 2 ^ 32) :
    (firstPages count).Nodup := by
  refine List.nodup_reverse.mpr (List.Nodup.map_on ?_ List.nodup_range)
  intro first inside second within same
  have numbers := congrArg BitVec.toNat same
  rw [List.mem_range] at inside within
  rw [BitVec.toNat_ofNat, BitVec.toNat_ofNat] at numbers
  omega

private theorem firstPages_succ (count : Nat) :
    firstPages (count + 1) = BitVec.ofNat 32 count :: firstPages count := by
  simp [firstPages, List.range_succ]

private theorem firstPages_last (count : Nat) : (firstPages (count + 1)).getLast? = some 0 := by
  rw [firstPages, List.getLast?_reverse, List.range_succ_eq_map]
  rfl

/-- As many requests as the queue has slots fill it. -/
private theorem queue_full {past : List (Moment Vm Bit32u)} {vm : Vm}
    (run : Run EmptyQueue PinStep past vm) (many : maxPhyPagesPinned ≤ past.length) :
    vm.pins.queue.nEntries = maxPhyPagesPinned := by
  have holds := pins_hold_recent run
  have length := Pins.live_length holds.ring
  rw [holds.queued, List.length_map, List.rtake, List.length_drop] at length
  have made : (pinRecords past).length = past.length := by simp [pinRecords]
  omega

/-- A guest of 2048 pages has its pages from 0 on pinned until the queue is full, and
the request for one more unpins page 0. -/
theorem pinQueue_exact_sample : ∃ past vm next,
    past.map (·.event) = firstPages maxPhyPagesPinned ∧ PinQueueExact past vm ∧
      vm.pins.queue.nEntries = maxPhyPagesPinned ∧ PinStep vm 1024 next ∧
      next.pins.pinned 0 = false ∧ next.pins.queue.nEntries = maxPhyPagesPinned := by
  let setup : Setup := { Sample.setup with guestNPages := 2048, guestNBytes := 0x800000 }
  have empty : EmptyQueue { setup } := ⟨rfl, rfl, fun _ => rfl⟩
  have distinct : (firstPages (maxPhyPagesPinned + 1)).Nodup := firstPages_nodup (by decide)
  obtain ⟨made, next, run, -, named⟩ := requests_run empty (fun _ _ => rfl) _ distinct
  rw [firstPages_succ] at named
  cases run with
  | start begun => cases named
  | @next past vm _ ppi earlier step =>
      rw [List.map_cons, List.cons.injEq] at named
      obtain ⟨rfl, pages⟩ := named
      have long : past.length = maxPhyPagesPinned := by
        have count := congrArg List.length pages
        simpa [firstPages] using count
      have full := queue_full earlier long.ge
      have queue := pinQueue_exact earlier
      obtain ⟨newer, maker, older, old, new, split, position, -, -, unpinned, -⟩ :=
        queue.when_full 1024 next step full
      -- the queue has as many slots as there were requests, so the page unpinned is the first
      have only : older = [] := by
        have count := congrArg List.length split
        rw [long, List.length_append, List.length_cons, position] at count
        apply List.eq_nil_of_length_eq_zero
        unfold maxPhyPagesPinned at count
        omega
      have first : maker.event = 0 := by
        have last := congrArg List.getLast? pages
        rw [split, only, List.map_append, List.map_cons, List.map_nil, List.getLast?_concat,
          maxPhyPagesPinned, firstPages_last] at last
        exact Option.some.inj last
      refine ⟨past, vm, next, pages, queue, full, step, first ▸ unpinned, ?_⟩
      exact queue_full (earlier.next step) (by simp [long])

end Plex86
