import Plex86.Logic.Run
import Plex86.Paging.MapSpec

namespace Plex86

open Logic Vm

/-- What holds of the monitor's tables between any two operations on them. -/
structure HeapKept (setup : Setup) (own : PageEntry) (vm : Vm) : Prop where
  fixed : vm.setup = setup
  heap : HeapOk setup vm.shadow
  monitor : MonitorMapped setup vm.shadow
  own : vm.shadow.pageDir setup.monPdi = own

/-- A stop that is no heap check, with the tables still in order. -/
def HeapStop (setup : Setup) (own : PageEntry) (stop : Halt) (last : Vm) : Prop :=
  stop.heapCheck = false ∧ HeapKept setup own last

/-- Code that keeps the heap in order and fails none of its checks. -/
abbrev KeepsHeap {α : Type} (setup : Setup) (own : PageEntry) (program : Mon α) : Prop :=
  Keeps (HeapKept setup own) (HeapStop setup own) program

namespace HeapKept

variable {setup : Setup} {own : PageEntry} {vm next : Vm}

/-- Only the tables count. -/
theorem same (kept : HeapKept setup own vm) (sameSetup : next.setup = vm.setup)
    (sameShadow : next.shadow = vm.shadow) : HeapKept setup own next :=
  ⟨sameSetup.trans kept.fixed, sameShadow ▸ kept.heap, sameShadow ▸ kept.monitor,
    sameShadow ▸ kept.own⟩

private theorem flush (kept : HeapKept setup own vm) (sameSetup : next.setup = vm.setup)
    (emptied : next.shadow = vm.shadow.init setup.monPdi) : HeapKept setup own next where
  fixed := sameSetup.trans kept.fixed
  heap := emptied ▸ HeapOk.init setup vm.shadow
  monitor := ⟨by simp [emptied, Shadow.init, kept.monitor.present], kept.monitor.mask⟩
  own := by simp [emptied, Shadow.init, kept.own]

theorem withRoom (kept : HeapKept setup own vm) : HeapKept setup own vm.withRoom := by
  by_cases room : vm.pins.queue.nEntries < maxPhyPagesPinned
  · exact kept.same vm.withRoom_setup (by simp [Vm.withRoom, room])
  · exact kept.flush vm.withRoom_setup (by simp [Vm.withRoom, room, kept.fixed])

theorem mapPDE {laddr : Bit32u} {guestPDE : Option PageEntry} {result : Except MapLin Bit32u}
    (kept : HeapKept setup own vm) (spec : MapPDESpec vm laddr guestPDE result next) :
    HeapKept setup own next := by
  obtain ⟨rfl, heap, monitor, here⟩ := kept
  cases spec with
  | conflict own => exact ⟨rfl, heap, monitor, here⟩
  | found other present => exact ⟨rfl, heap, monitor, here⟩
  | made other absent room =>
      have untouched : ∀ entry, (vm.shadow.allocate (pdiOf laddr) entry).pageDir vm.setup.monPdi =
          vm.shadow.pageDir vm.setup.monPdi := fun entry =>
        Function.update_of_ne (Ne.symm other) _ _
      exact ⟨rfl, heap.allocate room (newMonPDE_p ..) (newMonPDE_base ..),
        ⟨by rw [untouched]; exact monitor.present, monitor.mask⟩, by rw [untouched]; exact here⟩

end HeapKept

section Operations

variable {setup : Setup} {own : PageEntry}

private theorem panicWhen_heap {cond : Prop} [Decidable cond] {format : String} {args : List Bit32u}
    (other : (Halt.monpanic format args).heapCheck = false) :
    KeepsHeap setup own (panicWhen cond format args) :=
  panicWhen_keeps fun _ kept => ⟨other, kept⟩

private theorem monAssert_heap {holds : Bool} {expression : String} :
    KeepsHeap setup own (monAssert holds expression) :=
  monAssert_keeps fun _ kept => ⟨rfl, kept⟩

private theorem hostHandlePagePinRequest_heap (ppi : Bit32u) :
    KeepsHeap setup own (hostHandlePagePinRequest ppi) := by
  intro vm kept
  rw [hostHandlePagePinRequest_apply]
  cases vm.setup.os.getAndPinUserPage vm.withRoom.hostCalls.length (vm.setup.userAddr ppi) <;>
    exact kept.withRoom.same rfl rfl

private theorem getHostOSPinnedPage_heap (ppi : Bit32u) :
    KeepsHeap setup own (getHostOSPinnedPage ppi) := by
  have requested : KeepsHeap setup own (toHostPinUserPage ppi) := by
    apply Keeps.bind (.modify fun vm kept => kept.same rfl rfl)
    intro _
    apply Keeps.bind (hostHandlePagePinRequest_heap ppi)
    intro served
    apply Keeps.ite (fun granted => .pure)
    intro refused
    apply Keeps.bind (.modify fun vm kept => kept.same rfl rfl)
    intro _
    exact .throw fun vm kept => ⟨rfl, kept⟩
  apply Keeps.get_bind
  intro now here
  apply Keeps.bind monAssert_heap
  intro _
  apply Keeps.ite (fun pinned => .pure)
  intro unpinned
  apply Keeps.bind requested
  intro _
  apply Keeps.get_bind
  intro later kept
  apply Keeps.bind monAssert_heap
  intro _
  exact .pure

theorem openGuestPhyPage_heap {ppi monOffset : Bit32u} :
    KeepsHeap setup own (openGuestPhyPage ppi monOffset) :=
  .get_bind fun _ _ => .bind monAssert_heap fun _ => .bind (getHostOSPinnedPage_heap ppi) fun _ =>
    .bind (.modify fun _ kept => kept.same rfl rfl) fun _ => .pure

private theorem readEntry_heap {page : OpenPage} {index : BitVec 10} :
    KeepsHeap setup own (readEntry page index) :=
  .bind (.get_bind fun _ _ => .bind (.modify fun _ kept => kept.same rfl rfl) fun _ => .pure)
    fun _ => .pure

private theorem writeEntry_heap {page : OpenPage} {index : BitVec 10} {entry : PageEntry} :
    KeepsHeap setup own (writeEntry page index entry) :=
  .modify fun _ kept => kept.same rfl rfl

private theorem markPDE_heap {guestPDir : OpenPage} {pdi : BitVec 10} {guestPDE : PageEntry} :
    KeepsHeap setup own (markPDE guestPDir pdi guestPDE) :=
  .ite (fun _ => .pure) fun _ => .bind writeEntry_heap fun _ => .pure

private theorem markPTE_heap {guestPTbl : OpenPage} {pti : BitVec 10} {guestPTE : PageEntry}
    {reqRw : Bool} : KeepsHeap setup own (markPTE guestPTbl pti guestPTE reqRw) :=
  .ite (fun _ => .bind writeEntry_heap fun _ => .pure) fun _ => .pure

private theorem walkGuestPTbl_heap {guestPDir : OpenPage} {pdi pti : BitVec 10}
    {guestPDE : PageEntry}
    {reqUs reqRw : Bool} :
    KeepsHeap setup own (walkGuestPTbl guestPDir pdi pti guestPDE reqUs reqRw) := by
  apply Keeps.get_bind
  intro now here
  apply Keeps.bind (panicWhen_heap rfl)
  intro _
  apply Keeps.bind openGuestPhyPage_heap
  intro guestPTbl
  apply Keeps.bind readEntry_heap
  intro guestPTE
  -- an absent entry and either level's refusal leave everything as it is
  apply Keeps.ite (fun absent => .pure)
  intro present
  apply Keeps.ite (fun directoryDenies => .pure)
  intro directoryAllows
  apply Keeps.ite (fun tableDenies => .pure)
  intro tableAllows
  apply Keeps.bind
  · exact .ite (fun recent => markPDE_heap) fun early => .pure
  · intro marked
    apply Keeps.bind markPTE_heap
    intro written
    exact .pure

private theorem walkGuest_heap {pdi pti : BitVec 10} {reqUs reqRw : Bool} :
    KeepsHeap setup own (walkGuest pdi pti reqUs reqRw) := by
  apply Keeps.get_bind
  intro now here
  apply Keeps.bind (panicWhen_heap rfl)
  intro _
  apply Keeps.bind openGuestPhyPage_heap
  intro guestPDir
  apply Keeps.bind readEntry_heap
  intro guestPDE
  apply Keeps.ite (fun absent => .pure)
  intro present
  apply Keeps.bind
  · exact .ite (fun early => markPDE_heap) fun recent => .pure
  · intro marked
    exact walkGuestPTbl_heap

private theorem mapPDE_heap {laddr : Bit32u} {guestPDE : Option PageEntry} :
    KeepsHeap setup own (mapPDE laddr guestPDE) := by
  intro vm kept
  have heap : HeapOk vm.setup vm.shadow := by rw [kept.fixed]; exact kept.heap
  have monitor : MonitorMapped vm.setup vm.shadow := by rw [kept.fixed]; exact kept.monitor
  have spec := mapPDE_spec heap monitor laddr guestPDE vm rfl
  cases run : mapPDE laddr guestPDE vm with
  | ok result next =>
      rw [run] at spec
      exact kept.mapPDE spec
  | error stop last =>
      rw [run] at spec
      exact ⟨spec.1, spec.2 ▸ kept⟩

private theorem setMonPTE_heap {ptIndex : Bit32u} {pti : BitVec 10} {entry : PageEntry} :
    KeepsHeap setup own (setMonPTE ptIndex pti entry) :=
  .modify fun _ kept =>
    ⟨kept.fixed, kept.heap.setPTE ptIndex pti entry, ⟨kept.monitor.present, kept.monitor.mask⟩,
      kept.own⟩

private theorem mapPTE_heap {ptIndex laddr guestPPI : Bit32u} {usage : PhyPageAttr}
    {guestPTE : Option PageEntry} {reqRw : Bool} :
    KeepsHeap setup own (mapPTE ptIndex laddr guestPPI usage guestPTE reqRw) := by
  apply Keeps.get_bind
  intro now here
  apply Keeps.ite (fun mapped => .pure)
  intro unmapped
  apply Keeps.ite (fun readOnly => .pure)
  intro writable
  apply Keeps.ite (fun memMapIo => .pure)
  intro ordinary
  -- pinning the page may evict another and empty the heap before the entry is set
  apply Keeps.bind (getHostOSPinnedPage_heap guestPPI)
  intro base
  apply Keeps.bind setMonPTE_heap
  intro _
  exact .pure

private theorem getPageUsage_heap (ppi : Bit32u) : KeepsHeap setup own (getPageUsage ppi) :=
  .get_bind fun _ _ => .bind monAssert_heap fun _ => .pure

private theorem mapIntoMonitor_heap {laddr guestPPI : Bit32u}
    {entries : Option (PageEntry × PageEntry)}
    {reqRw : Bool} : KeepsHeap setup own (mapIntoMonitor laddr guestPPI entries reqRw) := by
  apply Keeps.get_bind
  intro now here
  apply Keeps.ite (fun outside => .pure)
  intro inside
  apply Keeps.bind (getPageUsage_heap guestPPI)
  intro usage
  apply Keeps.bind mapPDE_heap
  intro found
  cases found with
  | error refused => exact .pure
  | ok ptIndex => exact mapPTE_heap

private theorem mapGuestLinAddr_heap {laddr : Bit32u} {reqUs reqRw : Bool} :
    KeepsHeap setup own (mapGuestLinAddr laddr reqUs reqRw) := by
  apply Keeps.get_bind
  intro now here
  apply Keeps.ite
  · intro paging
    apply Keeps.bind walkGuest_heap
    intro walked
    cases walked with
    | error error => exact .pure
    | ok entries => exact mapIntoMonitor_heap
  · intro unpaged
    exact mapIntoMonitor_heap

private theorem invalidateGuestLinAddr_heap (laddr : Bit32u) :
    KeepsHeap setup own (invalidateGuestLinAddr laddr) := by
  intro vm kept
  obtain ⟨rfl, heap, monitor, here⟩ := id kept
  simp only [invalidateGuestLinAddr, get_bind_apply, panicWhen_bind_apply]
  by_cases off : vm.guestCpu.pg = false
  · rw [if_pos off]
    exact ⟨rfl, kept⟩
  by_cases present : (vm.shadow.pageDir (pdiOf laddr)).p = true
  · simp only [off, present, if_false, not_true_eq_false, panicWhen_bind_apply]
    by_cases inside : vm.setup.inMonitor laddr
    · rw [if_pos inside]
      exact ⟨rfl, kept⟩
    · -- the panics of the table lookup cannot happen here
      have other : pdiOf laddr ≠ vm.setup.monPdi := fun same =>
        inside ((monitor.inMonitor_iff laddr).mpr same)
      rw [if_neg inside, bind_apply, getMonPTi_present heap other present]
      exact Keeps.ite (fun _ => .pure) (fun _ => setMonPTE_heap) vm kept
  · simp only [off, present]
    exact kept

private theorem initShadowPaging_heap :
    KeepsHeap setup own (modify fun vm : Vm =>
      { vm with shadow := vm.shadow.init vm.setup.monPdi }) :=
  .modify fun _ kept => kept.flush rfl (by simp [kept.fixed])

end Operations

/-- The operations that work on the monitor's page tables. -/
inductive HeapOp
  | mapGuestLinAddr (laddr : Bit32u) (reqUs reqRw : Bool)
  | invalidateGuestLinAddr (laddr : Bit32u)
  | monInitShadowPaging
  | hostInitShadowPaging
  | hostHandlePagePinRequest (ppi : Bit32u)
deriving DecidableEq

def HeapOp.run : HeapOp → Mon Unit
  | .mapGuestLinAddr laddr reqUs reqRw => do
      let _ ← Plex86.mapGuestLinAddr laddr reqUs reqRw
  | .invalidateGuestLinAddr laddr => Plex86.invalidateGuestLinAddr laddr
  | .monInitShadowPaging => Plex86.monInitShadowPaging
  | .hostInitShadowPaging => Plex86.hostInitShadowPaging
  | .hostHandlePagePinRequest ppi => do
      let _ ← Plex86.hostHandlePagePinRequest ppi

private theorem HeapOp.run_keeps (setup : Setup) (own : PageEntry) (op : HeapOp) :
    KeepsHeap setup own op.run := by
  cases op with
  | mapGuestLinAddr laddr reqUs reqRw =>
      exact .bind mapGuestLinAddr_heap fun _ => .pure
  | invalidateGuestLinAddr laddr => exact invalidateGuestLinAddr_heap laddr
  | monInitShadowPaging => exact initShadowPaging_heap
  | hostInitShadowPaging => exact initShadowPaging_heap
  | hostHandlePagePinRequest ppi =>
      exact .bind (hostHandlePagePinRequest_heap ppi) fun _ => .pure

/-- One operation. Before it anything but the tables may have changed: the
guest's registers, its memory, what is pinned. -/
def HeapStep (vm : Vm) (op : HeapOp) (next : Vm) : Prop :=
  ∃ now : Vm, now.setup = vm.setup ∧ now.shadow = vm.shadow ∧ op.run now = .ok () next

/-- The tables have just been reset, with the monitor's own entry in place. -/
structure HeapStart (setup : Setup) (own : PageEntry) (vm : Vm) : Prop where
  fixed : vm.setup = setup
  reset : ∃ shadow : Shadow, vm.shadow = shadow.init setup.monPdi
  monitor : MonitorMapped setup vm.shadow
  own : vm.shadow.pageDir setup.monPdi = own

theorem HeapStart.kept {setup : Setup} {own : PageEntry} {vm : Vm}
    (begun : HeapStart setup own vm) : HeapKept setup own vm where
  fixed := begun.fixed
  heap := by
    obtain ⟨shadow, same⟩ := begun.reset
    exact same ▸ HeapOk.init setup shadow
  monitor := begun.monitor
  own := begun.own

/-- In every state reached the heap is in order, the monitor's own entry is the
one it started with, and whatever is done next fails none of the heap's checks. -/
theorem pageTableHeap_consistent {setup : Setup} {own : PageEntry}
    {past : List (Moment Vm HeapOp)} {vm : Vm} (run : Run (HeapStart setup own) HeapStep past vm) :
    HeapKept setup own vm ∧
      ∀ (op : HeapOp) (now : Vm), now.setup = vm.setup → now.shadow = vm.shadow →
        match op.run now with
        | .ok _ next => HeapKept setup own next
        | .error stop last => stop.heapCheck = false ∧ HeapKept setup own last := by
  have kept : HeapKept setup own vm := by
    refine run.invariant (fun _ begun => begun.kept) ?_
    rintro before op after kept ⟨now, sameSetup, sameShadow, run⟩
    exact (op.run_keeps setup own).returns (kept.same sameSetup sameShadow) run
  refine ⟨kept, fun op now sameSetup sameShadow => ?_⟩
  have result := op.run_keeps setup own now (kept.same sameSetup sameShadow)
  cases outcome : op.run now <;> rw [outcome] at result <;> exact result

/-- The operation as a function on states. -/
def heapNext (vm : Vm) (op : HeapOp) : Option Vm := leaves op.run vm

private theorem heapNext_step (before : Vm) (op : HeapOp) (after : Vm)
    (left : heapNext before op = some after) : HeapStep before op after :=
  ⟨before, rfl, rfl, leaves_eq_some.mp left⟩

/-- The first 1024 pages of a guest of 2048 fill the pin queue, and nothing is mapped yet. -/
def Sample.queueFilled : Vm where
  setup := { Sample.setup with guestNPages := 2048, guestNBytes := 0x800000 }
  shadow := Shadow.init { pageDir := Function.update (fun _ => ⟨0⟩) 0x1c0 (.make 0x10b 7) } 0x1c0
  pins :=
    { guestPageInfo := fun ppi =>
        if ppi < 1024 then { attr := { pinned := true }, hostPPI := ppi.setWidth 20 } else {}
      queue := { ppi := BitVec.ofNat 32, nEntries := maxPhyPagesPinned } }

/-- A page table is made for a page that is pinned; pinning the next page in the
middle of mapping it empties the heap, and so does another request later on. -/
theorem pageTableHeap_consistent_sample : ∃ (past : List (Moment Vm HeapOp)) (vm : Vm),
    past.reverse.map (·.event) = [.mapGuestLinAddr 0x5000 false false,
        .mapGuestLinAddr 0x500000 false false, .mapGuestLinAddr 0x500000 false false,
        .hostHandlePagePinRequest 1500, .mapGuestLinAddr 0x6000 false false] ∧
      past.reverse.map (·.after.shadow.ptblLaddrMapI) = [1, 0, 1, 0, 1] ∧
      HeapKept Sample.queueFilled.setup (.make 0x10b 7) vm := by
  let ops : List HeapOp := [.mapGuestLinAddr 0x5000 false false,
    .mapGuestLinAddr 0x500000 false false, .mapGuestLinAddr 0x500000 false false,
    .hostHandlePagePinRequest 1500, .mapGuestLinAddr 0x6000 false false]
  let check (played : List (Moment Vm HeapOp) × Vm) : Bool :=
    decide (played.1.reverse.map (·.event) = ops) &&
      decide (played.1.reverse.map (·.after.shadow.ptblLaddrMapI) = [1, 0, 1, 0, 1])
  have checked : (playback heapNext [] Sample.queueFilled ops).any check = true := by decide +kernel
  have start : HeapStart Sample.queueFilled.setup (.make 0x10b 7) Sample.queueFilled :=
    ⟨rfl, ⟨_, rfl⟩, ⟨by decide, by decide⟩, by decide⟩
  obtain ⟨past, vm, run, found⟩ := playback_reaches heapNext_step start checked
  simp only [check, Bool.and_eq_true, decide_eq_true_eq] at found
  obtain ⟨events, tables⟩ := found
  exact ⟨past, vm, events, tables, (pageTableHeap_consistent run).1⟩

end Plex86
