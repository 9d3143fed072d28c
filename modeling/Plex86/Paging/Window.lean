import Plex86.Host.PinQueue

/-! Windows into guest physical memory: two page table entries of the monitor
through which it reads and writes one pinned guest page at a time. -/

namespace Plex86

open Logic

def vmStatePanic : Bit32u := 0x100#32

/-- The `handlePanic` exit of `hostIoctlExecute`. -/
def ioctlPanic {α : Type} (retval : Nat) : Mon α := do
  modify fun vm => { vm with vmState := vm.vmState ||| vmStatePanic, monRequest := .panic }
  throw (.ioctlExecute retval)

/-- The request travels to `hostIoctlExecute`, which serves it and comes back. -/
def toHostPinUserPage (ppi : Bit32u) : Mon Unit := do
  modify fun vm => { vm with monRequest := .pinUserPage, pinReqPPI := ppi }
  let served ← hostHandlePagePinRequest ppi
  if served then return () else ioctlPanic 108

def getHostOSPinnedPage (guestPPI : Bit32u) : Mon Frame := do
  let vm ← get
  monAssert (decide (guestPPI < vm.setup.guestNPages)) "guestPPI < vm->pages.guest_n_pages"
  if vm.pins.pinned guestPPI then return vm.pins.hostPPI guestPPI
  else
    toHostPinUserPage guestPPI
    let vm ← get
    monAssert (vm.pins.pinned guestPPI)
      "vm->guest.addr.guestPageInfo[guestPPI].attr.fields.pinned"
    return vm.pins.hostPPI guestPPI

/-- The slot of the nexus page table behind a window's address. -/
def Setup.windowPti (setup : Setup) (monOffset : Bit32u) : Nat :=
  (((monOffset - setup.startOffsetPageAligned) >>> 12) &&& 0x3ff#32).toNat

/-- A window pointer: its address, and the guest page it was opened for. -/
structure OpenPage where
  monOffset : Bit32u
  ppi : Bit32u

def openGuestPhyPage (ppi monOffset : Bit32u) : Mon OpenPage := do
  let vm ← get
  monAssert (decide (ppi < vm.setup.guestNPages)) "ppi < vm->pages.guest_n_pages"
  let base ← getHostOSPinnedPage ppi
  modify fun vm =>
    let pti := vm.setup.windowPti monOffset
    { vm with
      nexusPageTbl := Function.update vm.nexusPageTbl pti ((vm.nexusPageTbl pti).setBase base) }
  return { monOffset, ppi }

namespace Vm

/-- The frame an access through a window pointer really goes to. -/
def windowBase (vm : Vm) (page : OpenPage) : Frame :=
  (vm.nexusPageTbl (vm.setup.windowPti page.monOffset)).base

/-- The window still shows the page it was opened for, and the host still pins it. -/
def WindowOpen (vm : Vm) (page : OpenPage) : Prop :=
  vm.pins.pinned page.ppi = true ∧ vm.windowBase page = vm.pins.hostPPI page.ppi

instance (vm : Vm) (page : OpenPage) : Decidable (vm.WindowOpen page) :=
  inferInstanceAs (Decidable (_ ∧ _))

/-- The guest page an access through a window pointer reaches. Behind a window
whose page is no longer pinned the host may have put anything. -/
def windowTarget (vm : Vm) (page : OpenPage) : Option Bit32u :=
  if vm.WindowOpen page then some page.ppi
  else vm.setup.os.holds vm.hostCalls.length (vm.windowBase page)

def windowBytes (vm : Vm) (page : OpenPage) : Bytes :=
  match vm.windowTarget page with
  | some ppi => vm.mem ppi
  | none => vm.setup.os.otherMemory (vm.windowBase page)

def windowAccess (vm : Vm) (page : OpenPage) (offset length : Nat) (stored : Option Nat) :
    WindowAccess :=
  { ppi := page.ppi, offset, length, stored, base := vm.windowBase page
    hostPPI := vm.pins.hostPPI page.ppi, pinned := vm.pins.pinned page.ppi }

end Vm

/-- Read a little-endian word through a window pointer. -/
def readWord (width : Nat) (page : OpenPage) (offset : Nat) : Mon (BitVec width) := do
  let vm ← get
  modify fun vm =>
    { vm with accesses := vm.windowAccess page offset (width / 8) none :: vm.accesses }
  return loadWord width (vm.windowBytes page) offset

/-- Write a little-endian word through a window pointer. -/
def writeWord {width : Nat} (page : OpenPage) (offset : Nat) (word : BitVec width) : Mon Unit :=
  modify fun vm =>
    { vm with
      accesses := vm.windowAccess page offset (width / 8) (some word.toNat) :: vm.accesses
      mem := match vm.windowTarget page with
        | some ppi => Function.update vm.mem ppi (storeWord (vm.mem ppi) offset word)
        | none => vm.mem }

/-- An access went to the page its window was opened for, inside that page. -/
structure WindowAccess.Valid (access : WindowAccess) : Prop where
  base : access.base = access.hostPPI
  pinned : access.pinned = true
  inside : access.offset + access.length ≤ 4096

end Plex86
