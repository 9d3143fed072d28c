import Plex86.Host.LifecycleRun
import Plex86.Host.PinHistory
import Plex86.Logic.Ledger

/-! What a machine holds of the host's memory and of the user's pages, and how it is
obtained. -/

namespace Plex86

open Logic

/-- What the host obtains: memory, and pinned pages of the user process. -/
inductive Resource
  | memory (ptr : HostPtr)
  | page (hostOSPtr : HostPtr)
deriving DecidableEq

def HostService.deal : HostService → Deal Resource
  | .allocated _ ptr => .obtained (.memory ptr)
  | .freed ptr => .returned (.memory ptr)
  | .pinned hostOSPtr => .obtained (.page hostOSPtr)
  | .unpinned hostOSPtr => .returned (.page hostOSPtr)

/-- What is documented of the host kernel: `vmalloc` returns whole pages, and a page
that is pinned has a `struct page`. -/
structure Answers.Proper (answers : Answers) : Prop where
  aligned : ∀ block, block.isPage = false → answers.alloc block &&& 0xfff = 0
  pin : ∀ shared page, answers.pin shared = some page → page.hostOSPtr ≠ 0

/-- A pointer under which something is kept for a machine. -/
inductive Pointer
  | block (block : Block)
  | shared (shared : SharedPage)
deriving DecidableEq

namespace Pins

/-- The pins when there is room for one more. -/
def room (pins : Pins) : Pins :=
  if pins.queue.nEntries < maxPhyPagesPinned then pins
  else pins.clearPinned (pins.queue.ppi pins.queue.tail)

theorem room_pinned {pins : Pins} {ppi : Bit32u} (fresh : pins.pinned ppi = false) :
    pins.room.pinned ppi = false := by
  unfold room
  split
  · exact fresh
  · rw [clearPinned_pinned, fresh, ite_self]

/-- The pins once the host has pinned a page on request. -/
def requested (pins : Pins) (ppi : Bit32u) (page : PinnedPage) : Pins :=
  (pins.room.setPinned ppi page).enqueue (HostVm.pinSlot pins) ppi

/-- A machine with these pins, whatever it is otherwise. -/
def alone (pins : Pins) : Vm where
  setup := ⟨true, 0, 0, 0, 0, 0, 0, 0, 0, 0, fun _ => 0, 0, 0,
    ⟨fun _ _ => none, fun _ _ => none, fun _ _ => 0⟩⟩
  pins := pins

/-- A request for a page that is not pinned keeps queue, flags and pointers in step. -/
theorem Holds.requested {pins : Pins} {records : List PinRecord} (holds : pins.Holds records)
    {ppi : Bit32u} (fresh : pins.pinned ppi = false) (page : PinnedPage) :
    (pins.requested ppi page).Holds (push maxPhyPagesPinned ⟨ppi, page⟩ records) := by
  have same : pins.alone.pinsAfter ppi page = pins.requested ppi page := by
    simp only [Vm.pinsAfter, Vm.withRoom, Vm.pinSlot, Pins.requested, room, HostVm.pinSlot,
      Pins.alone]
    by_cases more : pins.queue.nEntries < maxPhyPagesPinned
    · simp only [more, if_true]
    · simp only [more, if_false]
  have alone : pins.alone.pins.Holds records := holds
  rw [← same]
  exact alone.request fresh page

/-- The page that is unpinned to make room is pinned. -/
theorem Holds.oldest_pinned {pins : Pins} {records : List PinRecord} (holds : pins.Holds records)
    (full : ¬ pins.queue.nEntries < maxPhyPagesPinned) :
    pins.pinned (pins.queue.ppi pins.queue.tail) = true := by
  have alone : pins.alone.pins.Holds records := holds
  obtain ⟨rest, queue⟩ := Vm.live_head alone full
  refine (holds.pinned_iff _).mpr ?_
  have live : pins.live = pins.queue.ppi pins.queue.tail :: rest := queue
  rw [live]
  exact List.mem_cons_self

/-- The queue as the monitor's initialisation leaves it. -/
theorem holds_nothing {pins : Pins} (empty : pins.queue = {})
    (unpinned : ∀ ppi, pins.pinned ppi = false) : pins.Holds [] := by
  have queue : EmptyQueue pins.alone := by
    refine ⟨?_, ?_, unpinned⟩
    · rw [alone, empty]
    · rw [alone, empty]
  exact queue.holds

end Pins

namespace HostVm

def deals (vm : HostVm) : List (Deal Resource) := vm.served.map HostService.deal

def pointer (vm : HostVm) : Pointer → HostPtr
  | .block block => vm.addr.block block
  | .shared shared => vm.pages.sharedHostOSPtr shared

/-- What a pointer says is kept; NULL says that there is nothing. -/
def heldBy (make : HostPtr → Resource) (ptr : HostPtr) : Option Resource :=
  if ptr = 0 then none else some (make ptr)

def sharedPages : List SharedPage := [.guestCpu, .userLogBuffer]

/-- The pages that the loop over the guest's pages looks at. -/
def pagesFrom (ppi : Bit32u) : Nat → List Bit32u
  | 0 => []
  | pages + 1 => ppi :: pagesFrom (ppi + 1) pages

/-- What is kept under the pointer to a block. -/
def blockAt (addr : HostAddr) (block : Block) : Option Resource :=
  heldBy .memory (addr.block block)

/-- What is kept under the pointer to a shared page. -/
def sharedAt (pages : HostPages) (shared : SharedPage) : Option Resource :=
  heldBy .page (pages.sharedHostOSPtr shared)

/-- What is kept under a guest page. -/
def pinnedAt (pins : Pins) (ppi : Bit32u) : Option Resource :=
  if pins.pinned ppi = true then some (.page (pins.guestPageInfoHostAdjunct ppi)) else none

/-- What a machine is known to hold. -/
def held (vm : HostVm) : Multiset Resource :=
  kept (pagesFrom 0 vm.pages.guestNPages.toNat) (pinnedAt vm.pins) +
    (kept sharedPages (sharedAt vm.pages) + kept blocks (blockAt vm.addr))

/-- What a machine holds is what the ledger says. -/
def Balanced (vm : HostVm) : Prop := Holding vm.deals vm.held

/-- Nothing is registered, and nothing of it is left behind. -/
structure Idle (vm : HostVm) : Prop where
  vacant : vm.Vacant
  unpinned : ∀ ppi, vm.pins.pinned ppi = false
  unmapped : ¬ vm.Has mapMonitorPlace

/-- Everything that belongs to a machine is there. -/
structure Equipped (vm : HostVm) : Prop where
  memory : vm.guestPhyMemAddr ≠ 0
  pointers : ∀ pointer, vm.pointer pointer ≠ 0
  inside : ∀ ppi, vm.pins.pinned ppi = true → ppi.toNat < vm.pages.guestNPages.toNat
  handles : ∀ ppi, vm.pins.pinned ppi = true → vm.pins.guestPageInfoHostAdjunct ppi ≠ 0
  mapped : vm.Has mapMonitorPlace

/-- And its queue is in order, unless there has been a panic. -/
structure Complete (vm : HostVm) : Prop extends Equipped vm where
  queue : vm.Has panicPlace ∨ ∃ records, vm.pins.Holds records

/-- Between ioctls a machine is idle or complete, and its ledger is balanced. -/
structure Sound (vm : HostVm) : Prop where
  balanced : vm.Balanced
  state : vm.Idle ∨ vm.Complete

variable {answers : Answers} {msg : RegisterMem} {vm next : HostVm} {todo : List Pointer}

theorem heldBy_null (make : HostPtr → Resource) : heldBy make 0 = none := if_pos rfl

theorem heldBy_given {ptr : HostPtr} (given : ptr ≠ 0) (make : HostPtr → Resource) :
    heldBy make ptr = some (make ptr) := if_neg given

private theorem kept_unpinned {pins : Pins} (unpinned : ∀ ppi, pins.pinned ppi = false)
    (pages : List Bit32u) : kept pages (pinnedAt pins) = 0 := by
  refine kept_empty fun ppi _ => ?_
  rw [pinnedAt, unpinned ppi, if_neg Bool.false_ne_true]

/-- Where no page is pinned, what is held is what the pointers say. -/
theorem held_unpinned (unpinned : ∀ ppi, vm.pins.pinned ppi = false) :
    vm.held = kept sharedPages (sharedAt vm.pages) + kept blocks (blockAt vm.addr) := by
  rw [held, kept_unpinned unpinned, Multiset.zero_add]

theorem held_nothing (unpinned : ∀ ppi, vm.pins.pinned ppi = false)
    (nothing : ∀ pointer, vm.pointer pointer = 0) : vm.held = 0 := by
  have blocks : kept HostVm.blocks (blockAt vm.addr) = 0 := by
    refine kept_empty fun block _ => ?_
    have null : vm.addr.block block = 0 := nothing (.block block)
    rw [blockAt, null, heldBy_null]
  have shared : kept sharedPages (sharedAt vm.pages) = 0 := by
    refine kept_empty fun shared _ => ?_
    have null : vm.pages.sharedHostOSPtr shared = 0 := nothing (.shared shared)
    rw [sharedAt, null, heldBy_null]
  rw [held_unpinned unpinned, shared, blocks, Multiset.zero_add]

theorem Vacant.pointer (vacant : vm.Vacant) (pointer : Pointer) : vm.pointer pointer = 0 := by
  cases pointer with
  | block block => rw [HostVm.pointer, vacant.addr]
  | shared shared => rw [HostVm.pointer, vacant.pages]

/-- The tables say of every block what is kept for it. -/
theorem kept_block {addr : HostAddr} {block : Block} {ptr : HostPtr}
    (absent : addr.block block = 0) (given : ptr ≠ 0) :
    kept blocks (blockAt { addr with block := Function.update addr.block block ptr }) =
      .memory ptr ::ₘ kept blocks (blockAt addr) := by
  have distinct : blocks.Nodup := by decide
  have member : block ∈ blocks := by cases block <;> decide
  have empty : blockAt addr block = none := by rw [blockAt, absent, heldBy_null]
  rw [← kept_put distinct member empty, ← heldBy_given given]
  congr 1
  exact Function.comp_update (heldBy .memory) addr.block block ptr

private theorem kept_shared {pages : HostPages} {shared : SharedPage} {frame : Frame}
    {hostOSPtr : HostPtr} (absent : pages.sharedHostOSPtr shared = 0) (given : hostOSPtr ≠ 0) :
    kept sharedPages (sharedAt
        { pages with
          shared := Function.update pages.shared shared frame
          sharedHostOSPtr := Function.update pages.sharedHostOSPtr shared hostOSPtr }) =
      .page hostOSPtr ::ₘ kept sharedPages (sharedAt pages) := by
  have distinct : sharedPages.Nodup := by decide
  have member : shared ∈ sharedPages := by cases shared <;> decide
  have empty : sharedAt pages shared = none := by rw [sharedAt, absent, heldBy_null]
  rw [← kept_put distinct member empty, ← heldBy_given given]
  congr 1
  exact Function.comp_update (heldBy .page) pages.sharedHostOSPtr shared hostOSPtr

/-- Some of what a machine needs has been obtained, and this is still to be. -/
structure Obtaining (todo : List Pointer) (vm : HostVm) : Prop where
  balanced : vm.Balanced
  memory : vm.guestPhyMemAddr ≠ 0
  unpinned : ∀ ppi, vm.pins.pinned ppi = false
  distinct : todo.Nodup
  absent : ∀ pointer, vm.pointer pointer = 0 ↔ pointer ∈ todo

/-- What can be given back. -/
structure Releasable (vm : HostVm) : Prop where
  balanced : vm.Balanced
  memory : vm.guestPhyMemAddr ≠ 0
  inside : ∀ ppi, vm.pins.pinned ppi = true → ppi.toNat < vm.pages.guestNPages.toNat

theorem Obtaining.releasable (obtaining : vm.Obtaining todo) : vm.Releasable where
  balanced := obtaining.balanced
  memory := obtaining.memory
  inside ppi pinned := by simp [obtaining.unpinned ppi] at pinned

/-- Changes that leave the ledger and the pointers alone obtain nothing. -/
theorem Obtaining.same (obtaining : vm.Obtaining todo) (served : next.served = vm.served)
    (memory : next.guestPhyMemAddr = vm.guestPhyMemAddr)
    (block : next.addr.block = vm.addr.block)
    (shared : next.pages.sharedHostOSPtr = vm.pages.sharedHostOSPtr)
    (unpinned : ∀ ppi, next.pins.pinned ppi = false) : next.Obtaining todo := by
  have sameBlocks : blockAt next.addr = blockAt vm.addr := by
    funext other
    rw [blockAt, block, blockAt]
  have sameShared : sharedAt next.pages = sharedAt vm.pages := by
    funext other
    rw [sharedAt, shared, sharedAt]
  refine ⟨?_, memory ▸ obtaining.memory, unpinned, obtaining.distinct, fun pointer => ?_⟩
  · have earlier := obtaining.balanced
    rw [Balanced, held_unpinned obtaining.unpinned, deals] at earlier
    rwa [Balanced, held_unpinned unpinned, deals, served, sameBlocks, sameShared]
  · rw [← obtaining.absent pointer]
    cases pointer with
    | block other => rw [HostVm.pointer, block, HostVm.pointer]
    | shared other => rw [HostVm.pointer, shared, HostVm.pointer]

private theorem zeroed_unpinned {pins : Pins} (unpinned : ∀ ppi, pins.pinned ppi = false)
    (block : Block)
    (ppi : Bit32u) : (zeroed block pins).pinned ppi = false := by
  cases block with
  | guestPageInfo => rfl
  | _ => exact unpinned ppi

private theorem withBlock_unpinned (unpinned : ∀ ppi, vm.pins.pinned ppi = false) (block : Block)
    (ptr : HostPtr) (ppi : Bit32u) : (vm.withBlock block ptr).pins.pinned ppi = false := by
  unfold withBlock
  split
  · exact unpinned ppi
  · exact zeroed_unpinned unpinned block ppi

/-- The pointer that is obtained is the only one that changes. -/
theorem Obtaining.rest {pointer : Pointer} {ptr : HostPtr} (given : ptr ≠ 0)
    (obtaining : vm.Obtaining (pointer :: todo))
    (changed : next.pointer = Function.update vm.pointer pointer ptr) (other : Pointer) :
    next.pointer other = 0 ↔ other ∈ todo := by
  have apart := (List.nodup_cons.mp obtaining.distinct).1
  rw [changed, Function.update_apply]
  by_cases same : other = pointer
  · subst same
    rw [if_pos rfl]
    exact iff_of_false given apart
  · rw [if_neg same, obtaining.absent, List.mem_cons]
    exact or_iff_right same

/-- A block is obtained. -/
theorem Obtaining.block {block : Block} {ptr : HostPtr}
    (obtaining : vm.Obtaining (.block block :: todo)) (given : ptr ≠ 0) :
    ((vm.afterAlloc block ptr).withBlock block ptr).Obtaining todo := by
  have absent : vm.addr.block block = 0 := (obtaining.absent (.block block)).mpr List.mem_cons_self
  have after : vm.afterAlloc block ptr = { vm with served := .allocated block ptr :: vm.served } :=
    if_pos given
  have unpinned := withBlock_unpinned obtaining.unpinned block ptr
  rw [after]
  refine ⟨?_, obtaining.memory, unpinned, (List.nodup_cons.mp obtaining.distinct).2, ?_⟩
  · have earlier := obtaining.balanced
    rw [Balanced, held_unpinned obtaining.unpinned] at earlier
    have whole := @held_unpinned
      ({ vm with served := .allocated block ptr :: vm.served }.withBlock block ptr) unpinned
    have put : kept blocks (blockAt (vm.withBlock block ptr).addr) = _ := kept_block absent given
    rw [Balanced, whole]
    change Holding (_ :: vm.deals)
      (kept sharedPages (sharedAt vm.pages) + kept blocks (blockAt (vm.withBlock block ptr).addr))
    rw [put, Multiset.add_cons]
    exact .obtain earlier
  · refine obtaining.rest given ?_
    funext other
    cases other with
    | block other =>
        change Function.update vm.addr.block block ptr other = _
        rw [Function.update_apply, Function.update_apply]
        simp [pointer]
    | shared other => rw [Function.update_of_ne (by simp)]; rfl

/-- A block is refused. -/
theorem Obtaining.refused {block : Block} (obtaining : vm.Obtaining (.block block :: todo)) :
    (vm.withBlock block 0).Releasable := by
  have absent : vm.addr.block block = 0 := (obtaining.absent (.block block)).mpr List.mem_cons_self
  have same : Function.update vm.addr.block block 0 = vm.addr.block := by
    rw [← absent, Function.update_eq_self]
  have untouched : vm.withBlock block 0 = vm := by
    rw [withBlock, same, if_pos rfl]
  rw [untouched]
  exact obtaining.releasable

/-- A shared page is pinned. -/
theorem Obtaining.shared {shared : SharedPage} {page : UserPage} {bit : Bit32u}
    (obtaining : vm.Obtaining (.shared shared :: todo)) (given : page.hostOSPtr ≠ 0) :
    (vm.withShared shared page bit).Obtaining todo := by
  have absent : vm.pages.sharedHostOSPtr shared = 0 :=
    (obtaining.absent (.shared shared)).mpr List.mem_cons_self
  refine ⟨?_, obtaining.memory, obtaining.unpinned, (List.nodup_cons.mp obtaining.distinct).2, ?_⟩
  · have earlier := obtaining.balanced
    rw [Balanced, held_unpinned obtaining.unpinned] at earlier
    have whole := @held_unpinned (vm.withShared shared page bit) obtaining.unpinned
    have put : kept sharedPages (sharedAt (vm.withShared shared page bit).pages) = _ :=
      kept_shared absent given
    rw [Balanced, whole, put, Multiset.cons_add]
    exact .obtain earlier
  · refine obtaining.rest given ?_
    funext other
    cases other with
    | shared other =>
        change Function.update vm.pages.sharedHostOSPtr shared page.hostOSPtr other = _
        rw [Function.update_apply, Function.update_apply]
        simp [pointer]
    | block other => rw [Function.update_of_ne (by simp)]; rfl

/-- The pointers to what is obtained after the guest CPU area, step by step. -/
def restPointers : List (List Pointer) :=
  [[.shared .userLogBuffer], [.block .monLogBuffer], [.block .pageDir], [.block .pageTbl],
    [.block .pageTblLaddrMap], [.block .nexusPageTbl], [.block .transitionPT], [.block .nexus],
    [.block .idt], [.block .gdt], [.block .ldt], [.block .tss], [.block .idtStubs],
    [.block .guestPageInfo, .block .guestPageInfoPages],
    [.block .hostAdjunct, .block .hostAdjunctPages], []]

/-- All pointers that a machine has. -/
def pointers : List Pointer := .shared .guestCpu :: restPointers.flatten

/-- The code obtains what these pointers are for, or leaves what can be given back. -/
def Obtains (used : List Pointer) (program : Host Unit) : Prop :=
  ∀ todo, Ensures (Obtaining (used ++ todo)) program (fun _ => Obtaining todo) fun _ => Releasable

namespace Obtains

variable {used used' : List Pointer} {first second : Host Unit}

theorem bind (before : Obtains used first) (after : Obtains used' second) :
    Obtains (used ++ used') (do first; second) := by
  intro todo
  rw [List.append_assoc]
  exact Ensures.bind (before (used' ++ todo)) fun _ => after todo

theorem inOrder {uses : List (List Pointer)} {steps : List (Host Unit)}
    (each : List.Forall₂ Obtains uses steps) : Obtains uses.flatten (HostVm.inOrder steps) := by
  induction each with
  | nil => exact fun todo => Keeps.pure
  | cons step _ inductionHypothesis => exact step.bind inductionHypothesis

theorem keepPage (block : Block) : Obtains [.block block] (keepPage answers block) := by
  intro todo vm obtaining
  rw [HostVm.keepPage, bind_apply, allocZeroedPage_apply]
  simp only [keepBlock_apply]
  by_cases absent : answers.alloc block = 0
  · have untouched : vm.afterAlloc block 0 = vm := if_neg (not_not.mpr rfl)
    simpa only [absent, if_true, untouched] using obtaining.refused
  · have reached : Obtaining todo _ := obtaining.block absent
    simpa only [if_neg absent] using reached

theorem keepMem {block : Block} (aligned : answers.alloc block &&& 0xfff = 0) (size : Bit32u) :
    Obtains [.block block] (keepMem answers block size) := by
  intro todo vm obtaining
  rw [HostVm.keepMem, bind_apply, allocZeroedMem_apply, if_neg (not_not.mpr aligned)]
  simp only [keepBlock_apply]
  by_cases absent : answers.alloc block = 0
  · have untouched : vm.afterAlloc block 0 = vm := if_neg (not_not.mpr rfl)
    by_cases empty : size = 0
    · simpa only [absent, empty, ne_eq, not_true_eq_false, and_false, if_false, if_true, untouched]
        using obtaining.refused
    · simpa only [absent, empty, ne_eq, not_false_eq_true, and_self, if_true, untouched] using
        obtaining.releasable
  · have reached : Obtaining todo _ := obtaining.block absent
    simpa only [absent, false_and, if_false] using reached

theorem keepFrames (block : Block) : Obtains [] (keepFrames answers block) := by
  intro todo
  unfold HostVm.keepFrames
  split
  · exact Ensures.throw fun _ obtaining => obtaining.releasable
  · exact Ensures.modify fun _ obtaining => obtaining.same rfl rfl rfl rfl obtaining.unpinned

theorem keepVmFrames : Obtains [] (keepVmFrames answers) := by
  intro todo
  unfold HostVm.keepVmFrames
  split
  · exact Ensures.throw fun _ obtaining => obtaining.releasable
  · exact Ensures.modify fun _ obtaining => obtaining.same rfl rfl rfl rfl obtaining.unpinned

theorem allocPage (block : Block) : Obtains [.block block] (allocPage answers block) :=
  (keepPage block).bind (keepFrames block)

variable (proper : answers.Proper)
include proper

theorem pinShared (shared : SharedPage) (bit : Bit32u) :
    Obtains [.shared shared] (pinShared answers shared bit) := by
  intro todo
  unfold HostVm.pinShared
  split
  · exact Ensures.throw fun _ obtaining => obtaining.releasable
  · next page given =>
      exact Ensures.modify fun _ obtaining => obtaining.shared (proper.pin shared page given)

theorem allocMem {block : Block} (mem : block.isPage = false) (size : Bit32u) :
    Obtains [.block block] (allocMem answers block size) :=
  (keepMem (proper.aligned block mem) size).bind (keepFrames block)

theorem allocInfo {info list : Block} (mem : info.isPage = false) (mem' : list.isPage = false)
    (bytes : Bit32u) : Obtains [.block info, .block list] (allocInfo answers info list bytes) :=
  (keepMem (proper.aligned info mem) _).bind
    ((keepMem (proper.aligned list mem') _).bind (keepFrames info))

theorem allocRest (msg : RegisterMem) :
    List.Forall₂ Obtains restPointers (allocRest answers msg) :=
  .cons (pinShared proper _ _) <| .cons (allocPage _) <| .cons (allocPage _) <|
    .cons (allocMem proper rfl _) <| .cons (allocPage _) <| .cons (allocPage _) <|
    .cons (allocPage _) <| .cons (allocPage _) <| .cons (allocMem proper rfl _) <|
    .cons (allocMem proper rfl _) <| .cons (allocMem proper rfl _) <|
    .cons (allocMem proper rfl _) <| .cons (allocMem proper rfl _) <|
    .cons (allocInfo proper rfl rfl _) <| .cons (allocInfo proper rfl rfl _) <|
    .cons keepVmFrames .nil

end Obtains

/-- From an idle machine, everything is obtained or what was obtained can be given back. -/
theorem allocSteps_obtains (proper : answers.Proper) (address : msg.guestPhyMemVector ≠ 0) :
    Ensures (fun vm => vm.Balanced ∧ vm.Idle) (allocSteps answers msg) (fun _ => Obtaining [])
      fun _ => Releasable := by
  have begun : ∀ vm : HostVm, vm.Balanced ∧ vm.Idle →
      (vm.beginAlloc msg).Obtaining (pointers ++ []) := by
    rintro vm ⟨balanced, idle⟩
    have nothing : ∀ pointer, (vm.beginAlloc msg).pointer pointer = 0 := by
      intro pointer
      cases pointer <;> rfl
    refine ⟨?_, address, idle.unpinned, by decide, fun pointer => ?_⟩
    · rw [Balanced, held_nothing idle.unpinned idle.vacant.pointer] at balanced
      rw [Balanced, @held_nothing (vm.beginAlloc msg) idle.unpinned nothing]
      exact balanced
    · refine iff_of_true (nothing pointer) ?_
      cases pointer with
      | block block => cases block <;> decide
      | shared shared => cases shared <;> decide
  have cpu := Obtains.pinShared proper .guestCpu vmStateRegisteredGuestCPU
  have rest := Obtains.inOrder (Obtains.allocRest proper msg)
  refine Ensures.bind (Ensures.modify begun) fun _ => Ensures.bind (cpu _) fun _ =>
    Ensures.bind (rest []) fun _ => Ensures.modify fun vm obtaining => ?_
  exact obtaining.same rfl rfl rfl rfl obtaining.unpinned

end HostVm
end Plex86
