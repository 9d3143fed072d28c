import Plex86.Logic.BoundedQueue
import Plex86.Logic.Outcome
import Plex86.Machine.Vm

/-! The host's side of page pinning: the queue of pinned guest pages and the
requests that go through it. -/

namespace Plex86

open Logic

def maxPhyPagesPinned : Nat := 1024

/-- `-1` in the unsigned entries of `page_tbl_laddr_map`. -/
def noPageTable : Bit32u := 0xffffffff#32

/-- The reset shared by `hostInitShadowPaging` and `monInitShadowPaging`: the
heap of page tables is emptied and the directory cleared but for the monitor. -/
def Shadow.init (shadow : Shadow) (monPdi : BitVec 10) : Shadow :=
  { shadow with
    pageDir := fun pdi => if pdi ≠ monPdi then ⟨0⟩ else shadow.pageDir pdi
    pageTblLaddrMap := fun _ => noPageTable
    ptblLaddrMapI := 0 }

@[simp] theorem Shadow.init_own (shadow : Shadow) (monPdi : BitVec 10) :
    (shadow.init monPdi).pageDir monPdi = shadow.pageDir monPdi := by
  simp [Shadow.init]

def hostInitShadowPaging : Mon Unit :=
  modify fun vm => { vm with shadow := vm.shadow.init vm.setup.monPdi }

/-- Where the user process has a guest page, `vm->guestPhyMemAddr + (ppi<<12)`. -/
def Setup.userAddr (setup : Setup) (ppi : Bit32u) : Bit32u :=
  setup.guestPhyMemAddr + (ppi <<< 12)

namespace Pins

def pinned (pins : Pins) (ppi : Bit32u) : Bool := (pins.guestPageInfo ppi).attr.pinned
def hostPPI (pins : Pins) (ppi : Bit32u) : Frame := (pins.guestPageInfo ppi).hostPPI

def clearPinned (pins : Pins) (ppi : Bit32u) : Pins :=
  { pins with
    guestPageInfo := Function.update pins.guestPageInfo ppi
      { pins.guestPageInfo ppi with
        attr := { (pins.guestPageInfo ppi).attr with pinned := false } } }

/-- Mark a page as pinned and keep what the host returned for it. -/
def setPinned (pins : Pins) (ppi : Bit32u) (page : PinnedPage) : Pins :=
  { pins with
    guestPageInfoHostAdjunct :=
      Function.update pins.guestPageInfoHostAdjunct ppi page.hostPtr
    guestPageInfo := Function.update pins.guestPageInfo ppi
      { attr := { (pins.guestPageInfo ppi).attr with pinned := true }
        hostPPI := page.hostPPI } }

/-- Add a page to the queue at the given slot and advance the indices. -/
def enqueue (pins : Pins) (qIndex : Nat) (ppi : Bit32u) : Pins :=
  { pins with queue :=
      { ppi := Function.update pins.queue.ppi qIndex ppi
        nEntries :=
          if pins.queue.nEntries < maxPhyPagesPinned then pins.queue.nEntries + 1
          else pins.queue.nEntries
        tail :=
          if pins.queue.nEntries < maxPhyPagesPinned then
            (pins.queue.nEntries + 1) % maxPhyPagesPinned
          else (pins.queue.tail + 1) % maxPhyPagesPinned } }

end Pins

def hostOSUnpinUserPage (userAddr osSpecificPtr ppi : Bit32u) : Mon Unit :=
  modify fun vm => { vm with hostCalls := .unpinned userAddr osSpecificPtr ppi :: vm.hostCalls }

def hostOSGetAndPinUserPage (userAddr : Bit32u) : Mon (Option PinnedPage) := do
  let vm ← get
  match vm.setup.os.getAndPinUserPage vm.hostCalls.length userAddr with
  | none =>
      modify fun vm => { vm with hostCalls := .refused userAddr :: vm.hostCalls }
      return none
  | some page =>
      modify fun vm => { vm with hostCalls := .pinned userAddr page :: vm.hostCalls }
      return some page

/-- Make room in a full queue: unpin the page pinned the longest time ago. -/
def unpinOldest : Mon Unit := do
  let vm ← get
  let unpinGuestPPI := vm.pins.queue.ppi vm.pins.queue.tail
  hostOSUnpinUserPage (vm.setup.userAddr unpinGuestPPI)
    (vm.pins.guestPageInfoHostAdjunct unpinGuestPPI) unpinGuestPPI
  modify fun vm => { vm with pins := vm.pins.clearPinned unpinGuestPPI }
  hostInitShadowPaging

def hostHandlePagePinRequest (reqGuestPPI : Bit32u) : Mon Bool := do
  let vm ← get
  let room := vm.pins.queue.nEntries < maxPhyPagesPinned
  let qIndex := if room then vm.pins.queue.nEntries else vm.pins.queue.tail
  if ¬ room then unpinOldest
  match ← hostOSGetAndPinUserPage (vm.setup.userAddr reqGuestPPI) with
  | none => return false
  | some page =>
      modify fun vm =>
        { vm with pins := (vm.pins.setPinned reqGuestPPI page).enqueue qIndex reqGuestPPI }
      return true

/-- The state in which a request asks the host for its page: a full queue has
lost its oldest page by then, and the shadow tables with it. -/
def Vm.withRoom (vm : Vm) : Vm :=
  if vm.pins.queue.nEntries < maxPhyPagesPinned then vm
  else
    let oldest := vm.pins.queue.ppi vm.pins.queue.tail
    { vm with
      hostCalls := .unpinned (vm.setup.userAddr oldest)
        (vm.pins.guestPageInfoHostAdjunct oldest) oldest :: vm.hostCalls
      pins := vm.pins.clearPinned oldest
      shadow := vm.shadow.init vm.setup.monPdi }

/-- The slot a request writes. -/
def Vm.pinSlot (vm : Vm) : Nat :=
  if vm.pins.queue.nEntries < maxPhyPagesPinned then vm.pins.queue.nEntries
  else vm.pins.queue.tail

theorem Vm.withRoom_setup (vm : Vm) : vm.withRoom.setup = vm.setup := by
  unfold withRoom
  split <;> rfl

/-- All a pin request can do. -/
theorem hostHandlePagePinRequest_apply (ppi : Bit32u) (vm : Vm) :
    hostHandlePagePinRequest ppi vm =
      match vm.setup.os.getAndPinUserPage vm.withRoom.hostCalls.length (vm.setup.userAddr ppi) with
      | none => .ok false { vm.withRoom with
          hostCalls := .refused (vm.setup.userAddr ppi) :: vm.withRoom.hostCalls }
      | some page => .ok true { vm.withRoom with
          hostCalls := .pinned (vm.setup.userAddr ppi) page :: vm.withRoom.hostCalls
          pins := (vm.withRoom.pins.setPinned ppi page).enqueue vm.pinSlot ppi } := by
  by_cases room : vm.pins.queue.nEntries < maxPhyPagesPinned
  · simp only [hostHandlePagePinRequest, hostOSGetAndPinUserPage, Vm.withRoom, Vm.pinSlot, room,
      bind_apply, get_apply, if_true, not_true_eq_false, if_false]
    cases vm.setup.os.getAndPinUserPage vm.hostCalls.length (vm.setup.userAddr ppi) <;> rfl
  · simp only [hostHandlePagePinRequest, unpinOldest, hostOSUnpinUserPage, hostInitShadowPaging,
      hostOSGetAndPinUserPage, Vm.withRoom, Vm.pinSlot, room, bind_apply, get_apply,
      modify_apply, not_false_eq_true, if_true, if_false]
    cases vm.setup.os.getAndPinUserPage (vm.hostCalls.length + 1) (vm.setup.userAddr ppi) <;>
      simp_all

end Plex86
