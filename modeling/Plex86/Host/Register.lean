import Plex86.Host.PinQueue
import Plex86.Host.RegisterCheck
import Plex86.Host.Startup

/-! What the host obtains for a machine when memory is registered for it, and how
that is given back. -/

namespace Plex86

open Logic

/-- A pointer of the host kernel; NULL is 0. -/
abbrev HostPtr := Bit32u

/-- The memory that the host allocates for a machine, after the field of `vm_addr_t`
or `vm_pages_t` that points to it. -/
inductive Block
  | monLogBuffer | pageDir | pageTbl | pageTblLaddrMap | nexusPageTbl | transitionPT | nexus
  | idt | gdt | ldt | tss | idtStubs
  | guestPageInfo | guestPageInfoPages | hostAdjunct | hostAdjunctPages
deriving DecidableEq

/-- The pages of the user process that are shared with a machine. -/
inductive SharedPage
  | guestCpu | userLogBuffer
deriving DecidableEq

/-- A page of the user process that the host has pinned and mapped. -/
structure UserPage where
  hostOSPtr : HostPtr
  hostPPI : Frame
  kernelAddr : HostPtr

/-- `vm_addr_t`, with the page lists that `vm_pages_t` points to. -/
@[ext] structure HostAddr where
  block : Block → HostPtr := fun _ => 0
  shared : SharedPage → HostPtr := fun _ => 0
  guestStackContext : HostPtr := 0

/-- `vm_pages_t` -/
@[ext] structure HostPages where
  guestNMegs : Bit32u := 0
  guestNPages : Bit32u := 0
  guestNBytes : Bit32u := 0
  frames : Block → List Frame := fun _ => []
  vm : List Frame := []
  shared : SharedPage → Frame := fun _ => 0
  sharedHostOSPtr : SharedPage → HostPtr := fun _ => 0

/-- What the host kernel has done for a machine. -/
inductive HostService
  | allocated (block : Block) (ptr : HostPtr)
  | freed (ptr : HostPtr)
  | pinned (hostOSPtr : HostPtr)
  | unpinned (hostOSPtr : HostPtr)
deriving DecidableEq

/-- `vm_t`, as far as the ioctls that set up a machine go. -/
structure HostVm where
  vmState : Bit32u
  linuxVMMode : Bool := false
  guestPhyMemAddr : Bit32u := 0
  pages : HostPages := {}
  addr : HostAddr := {}
  /-- What `guestPageInfo` and `guestPageInfoHostAdjunct` point to, and the queue. -/
  pins : Pins := {}
  monRequest : MonReq := .none
  /-- What the host has done, newest first. -/
  served : List HostService := []
  /-- How often control was passed to the monitor. -/
  entries : Nat := 0
  /-- How often the CPU state was loaded from user space. -/
  loads : Nat := 0

/-- What the host kernel answers to the calls made for one registration. -/
structure Answers where
  /-- `get_user_pages`; `none` where it fails. -/
  pin : SharedPage → Option UserPage
  /-- `get_zeroed_page` or `vmalloc`. -/
  alloc : Block → HostPtr
  /-- The frames of allocated memory; `none` where they are not found. -/
  frames : Block → Option (List Frame)
  /-- The frames of the `vm_t` structure. -/
  vmFrames : Option (List Frame)
  /-- The size of the code between `__nexus_start` and `__nexus_end`. -/
  nexusSize : Bit32u

/-- Whether a block is one page, from `get_zeroed_page`, or memory from `vmalloc`. -/
def Block.isPage : Block → Bool
  | .monLogBuffer | .pageDir | .pageTblLaddrMap | .nexusPageTbl | .transitionPT | .nexus => true
  | _ => false

/-- Whether a block is the list of the frames of another one. -/
def Block.isList : Block → Bool
  | .guestPageInfoPages | .hostAdjunctPages => true
  | _ => false

/-- The host grants every call. -/
structure Answers.Grant (answers : Answers) : Prop where
  pin : ∀ shared, (answers.pin shared).isSome
  alloc : ∀ block, answers.alloc block ≠ 0
  aligned : ∀ block, block.isPage = false → answers.alloc block &&& 0xfff = 0
  frames : ∀ block, block.isList = false → (answers.frames block).isSome
  vmFrames : answers.vmFrames.isSome

/-- What ends a function of the host before it returns. -/
inductive HostStop
  /-- `goto error` -/
  | error
  /-- The kernel follows a NULL pointer. -/
  | oops
  /-- The guest is still running. -/
  | running
deriving DecidableEq

/-- Code of the host module that sets up a machine. -/
abbrev Host := EStateM HostStop HostVm

namespace HostVm

-- What one call of the host kernel does

def serve (service : HostService) : Host Unit :=
  modify fun vm => { vm with served := service :: vm.served }

/-- A NULL pointer is followed. -/
def oopsWhen (cond : Prop) [Decidable cond] : Host Unit := if cond then throw .oops else return ()

def serveAlloc (block : Block) (ptr : HostPtr) : Host Unit :=
  if ptr ≠ 0 then serve (.allocated block ptr) else return ()

def hostOSAllocZeroedPage (answers : Answers) (block : Block) : Host HostPtr := do
  serveAlloc block (answers.alloc block)
  return answers.alloc block

def hostOSAllocZeroedMem (answers : Answers) (block : Block) (size : Bit32u) : Host HostPtr := do
  serveAlloc block (answers.alloc block)
  if answers.alloc block &&& 0xfff ≠ 0 then return 0 -- Error.
  else
    -- the memory is zeroed without a look at the pointer
    oopsWhen (answers.alloc block = 0 ∧ size ≠ 0)
    return answers.alloc block

def hostOSUnpinUserPage (hostOSPtr : HostPtr) : Host Unit := do
  oopsWhen (hostOSPtr = 0)
  serve (.unpinned hostOSPtr)

/-- `if (ptr) hostOSFreePage(ptr)`, and the same with `hostOSFreeMem`. -/
def hostOSFree (ptr : HostPtr) : Host Unit :=
  if ptr ≠ 0 then serve (.freed ptr) else return ()

-- The steps of `hostAllocVmPages`

/-- What freshly zeroed memory means for the arrays that it is used for. -/
def zeroed (block : Block) (pins : Pins) : Pins :=
  match block with
  | .guestPageInfo => { pins with guestPageInfo := fun _ => {} }
  | .hostAdjunct => { pins with guestPageInfoHostAdjunct := fun _ => 0 }
  | _ => pins

/-- The machine with a block noted. -/
def withBlock (vm : HostVm) (block : Block) (ptr : HostPtr) : HostVm :=
  { vm with
    addr := { vm.addr with block := Function.update vm.addr.block block ptr }
    pins := if ptr = 0 then vm.pins else zeroed block vm.pins }

/-- `ad->... = ptr`, and an error if there is nothing. -/
def keepBlock (block : Block) (ptr : HostPtr) : Host Unit := do
  modify fun vm => vm.withBlock block ptr
  if ptr = 0 then throw .error else return ()

/-- `hostOSGetAllocedPagePhyPage` and `hostOSGetAllocedMemPhyPages` -/
def keepFrames (answers : Answers) (block : Block) : Host Unit :=
  match answers.frames block with
  | none => throw .error
  | some frames =>
      modify fun vm =>
        { vm with pages :=
            { vm.pages with frames := Function.update vm.pages.frames block frames } }

def keepPage (answers : Answers) (block : Block) : Host Unit := do
  keepBlock block (← hostOSAllocZeroedPage answers block)

def keepMem (answers : Answers) (block : Block) (size : Bit32u) : Host Unit := do
  keepBlock block (← hostOSAllocZeroedMem answers block size)

def allocPage (answers : Answers) (block : Block) : Host Unit := do
  keepPage answers block
  keepFrames answers block

def allocMem (answers : Answers) (block : Block) (size : Bit32u) : Host Unit := do
  keepMem answers block size
  keepFrames answers block

def bytesToPages (bytes : Bit32u) : Bit32u := (bytes + 4095) >>> 12

/-- An array with an entry for each page of guest memory, and the list of its frames. -/
def allocInfo (answers : Answers) (info list : Block) (structNBytes : Bit32u) : Host Unit := do
  let structNPages := bytesToPages structNBytes
  keepMem answers info (structNPages <<< 12)
  let pageListNPages := bytesToPages (4 * structNPages)
  keepMem answers list (pageListNPages <<< 12)
  keepFrames answers info

/-- The machine with a shared page pinned. -/
def withShared (vm : HostVm) (shared : SharedPage) (page : UserPage) (bit : Bit32u) : HostVm :=
  { vm with
    served := .pinned page.hostOSPtr :: vm.served
    addr := { vm.addr with shared := Function.update vm.addr.shared shared page.kernelAddr }
    pages :=
      { vm.pages with
        shared := Function.update vm.pages.shared shared page.hostPPI
        sharedHostOSPtr := Function.update vm.pages.sharedHostOSPtr shared page.hostOSPtr }
    vmState := vm.vmState ||| bit }

/-- `hostOSGetAndPinUserPage` for a shared page, and the bit of `vmState` set for it. -/
def pinShared (answers : Answers) (shared : SharedPage) (bit : Bit32u) : Host Unit :=
  match answers.pin shared with
  | none => throw .error
  | some page => modify fun vm => vm.withShared shared page bit

/-- `hostOSGetAllocedMemPhyPages(pg->vm, ...)` -/
def keepVmFrames (answers : Answers) : Host Unit :=
  match answers.vmFrames with
  | none => throw .error
  | some frames => modify fun vm => { vm with pages := { vm.pages with vm := frames } }

/-- One step after the other. -/
def inOrder : List (Host Unit) → Host Unit
  | [] => return ()
  | step :: rest => do
      step
      inOrder rest

def monPageTables : Bit32u := 80
def sizeofPhyPageInfo : Bit32u := 16

/-- The tables are cleared and the guest's memory is noted. -/
def beginAlloc (msg : RegisterMem) (vm : HostVm) : HostVm :=
  { vm with
    pages :=
      { guestNMegs := msg.nMegs, guestNPages := msg.nMegs * 256
        guestNBytes := msg.nMegs * 1024 * 1024 }
    addr := {}
    guestPhyMemAddr := msg.guestPhyMemVector
    vmState := vm.vmState ||| vmStateRegisteredPhyMem }

/-- Everything that is obtained once the guest CPU area is pinned. -/
def allocRest (answers : Answers) (msg : RegisterMem) : List (Host Unit) :=
  [pinShared answers .userLogBuffer vmStateRegisteredPrintBuffer,
    allocPage answers .monLogBuffer,
    allocPage answers .pageDir,
    allocMem answers .pageTbl (4096 * monPageTables),
    allocPage answers .pageTblLaddrMap,
    allocPage answers .nexusPageTbl,
    allocPage answers .transitionPT,
    allocPage answers .nexus,
    allocMem answers .idt (bytesToPages (8 * 256) * 4096),
    allocMem answers .gdt (bytesToPages (8 * 512) * 4096),
    allocMem answers .ldt (bytesToPages (8 * 1) * 4096),
    allocMem answers .tss (bytesToPages 104 * 4096),
    allocMem answers .idtStubs (bytesToPages (15 * 256) * 4096),
    allocInfo answers .guestPageInfo .guestPageInfoPages (sizeofPhyPageInfo * (msg.nMegs <<< 8)),
    allocInfo answers .hostAdjunct .hostAdjunctPages (4 * (msg.nMegs <<< 8)),
    keepVmFrames answers]

/-- The body of `hostAllocVmPages` up to the label `error`. -/
def allocSteps (answers : Answers) (msg : RegisterMem) : Host Unit := do
  modify (beginAlloc msg)
  pinShared answers .guestCpu vmStateRegisteredGuestCPU
  inOrder (allocRest answers msg)
  modify fun vm => { vm with vmState := vm.vmState ||| vmStateMemAllocated }

-- Giving everything back

/-- Unpin a page of the guest that is marked as pinned. -/
def unpinGuestPage (ppi : Bit32u) : Host Unit := do
  let vm ← get
  oopsWhen (vm.addr.block .hostAdjunct = 0)
  hostOSUnpinUserPage (vm.pins.guestPageInfoHostAdjunct ppi)
  modify fun vm => { vm with pins := vm.pins.clearPinned ppi }

def releaseGuestPage (ppi : Bit32u) : Host Unit := do
  let vm ← get
  oopsWhen (vm.addr.block .guestPageInfo = 0)
  if vm.pins.pinned ppi then unpinGuestPage ppi else return ()

/-- The loop over the guest's pages. -/
def releaseGuestPages (ppi : Bit32u) : Nat → Host Unit
  | 0 => return ()
  | pages + 1 => do
      releaseGuestPage ppi
      releaseGuestPages (ppi + 1) pages

def hostReleasePinnedUserPages : Host Unit := do
  let vm ← get
  releaseGuestPages 0 vm.pages.guestNPages.toNat
  hostOSUnpinUserPage (vm.pages.sharedHostOSPtr .guestCpu)
  hostOSUnpinUserPage (vm.pages.sharedHostOSPtr .userLogBuffer)

/-- `if (vm->guestPhyMemAddr)` -/
def releaseGuestMemory : Host Unit := do
  let vm ← get
  if vm.guestPhyMemAddr ≠ 0 then
    hostReleasePinnedUserPages
    modify fun vm => { vm with guestPhyMemAddr := 0 }
  else return ()

/-- The order in which blocks are freed. -/
def blocks : List Block :=
  [.monLogBuffer, .pageDir, .pageTbl, .pageTblLaddrMap, .nexusPageTbl, .transitionPT, .nexus,
    .idt, .gdt, .ldt, .tss, .idtStubs, .guestPageInfo, .hostAdjunct, .guestPageInfoPages,
    .hostAdjunctPages]

def freeBlocks : List Block → Host Unit
  | [] => return ()
  | block :: rest => do
      let vm ← get
      hostOSFree (vm.addr.block block)
      freeBlocks rest

def hostUnallocVmPages : Host Unit := do
  releaseGuestMemory
  modify fun vm => { vm with vmState := vm.vmState &&& ~~~vmStateRegisteredPhyMem }
  freeBlocks blocks
  modify fun vm => { vm with pages := {}, addr := {} }

/-- Whether everything could be allocated; if not, it is given back. -/
def hostAllocVmPages (answers : Answers) (msg : RegisterMem) : Host Bool := fun vm =>
  match allocSteps answers msg vm with
  | .ok _ next => .ok true next
  | .error .error last => (do hostUnallocVmPages; return false : Host Bool) last
  | .error stop last => .error stop last

/-- Whether the guest's memory could be initialised. -/
def hostInitGuestPhyMem : Host Bool := do
  let vm ← get
  if vm.addr.block .guestPageInfo = 0 then return false
  else
    modify fun vm =>
      { vm with pins :=
          { vm.pins with guestPageInfo := fun ppi =>
              { attr := initialAttr vm.linuxVMMode vm.pages.guestNPages ppi } } }
    return true

def sizeofGuestStackContext : Bit32u := 76

/-- Whether the monitor could be initialised. -/
def hostInitMonitor (answers : Answers) : Host Bool :=
  if 4096 < answers.nexusSize then return false
  else do
    modify fun vm =>
      { vm with
        addr := { vm.addr with
          guestStackContext := vm.addr.block .nexus + 4096 - sizeofGuestStackContext }
        pins := { vm.pins with queue := {} }
        vmState := vm.vmState ||| vmStateInitMonitor
        monRequest := .none }
    return true

/-- It never fails. -/
def hostMapMonitor : Host Bool := do
  modify fun vm => { vm with vmState := vm.vmState ||| vmStateMapMonitor }
  return true

/-- `hostUnallocVmPages(vm); return -errno;` -/
def failWith (errno : Errno) : Host (Option Errno) := do
  hostUnallocVmPages
  return some errno

/-- Both tests of the monitor's initialisation. -/
def setUpMonitor (answers : Answers) : Host Bool := do
  if ← hostInitMonitor answers then hostMapMonitor else return false

/-- What is initialised once everything is allocated. -/
def initialise (answers : Answers) : Host (Option Errno) := do
  if ← hostInitGuestPhyMem then
    if ← setUpMonitor answers then return none else failWith .efault
  else failWith .efault

/-- The error with which memory is not registered, if any. -/
def hostIoctlRegisterMem (answers : Answers) (msg : RegisterMem) : Host (Option Errno) := do
  let vm ← get
  match msg.check vm.vmState vm.pages.guestNMegs with
  | some errno => return some errno
  | none => if ← hostAllocVmPages answers msg then initialise answers else return some .enomem

end HostVm
end Plex86
