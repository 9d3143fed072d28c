import Plex86.Logic.Bytes
import Plex86.Machine.Cpu

/-! The state of one virtual machine: `vm_t` with the structures it points to,
the guest's physical memory, and what the host has been asked to do. -/

namespace Plex86

open Logic

/-- The requests the monitor makes of the host, `vm->mon_request`. -/
inductive MonReq
  | none | flushPrintBuf | redirect | remapMonitor | guestFault | pinUserPage | panic
  | halCall | cyclesUpdate | bogus
deriving DecidableEq

/-- What makes the monitor give up instead of resuming the guest. -/
inductive Halt
  | monpanic (format : String) (args : List Bit32u)
  | assertion (expression : String)
  | monpanicNomess
  | ioctlExecute (retval : Nat)
deriving DecidableEq

/-- `phy_page_attr_t` -/
structure PhyPageAttr where
  memMapIo : Bool := false
  ro : Bool := false
  allocated : Bool := false
  pinned : Bool := false
deriving DecidableEq

/-- `attr.raw & PageBadUsage4PTbl` -/
def PhyPageAttr.badUsage4PTbl (attr : PhyPageAttr) : Bool := attr.memMapIo || attr.ro

/-- `phyPageInfo_t` -/
structure PhyPageInfo where
  attr : PhyPageAttr := {}
  hostPPI : Frame := 0
deriving DecidableEq

/-- What the host returns for a user page it has pinned: its own handle for
the page, needed to unpin it, and the page's physical page number. -/
structure PinnedPage where
  hostPtr : Bit32u
  hostPPI : Frame
deriving DecidableEq

/-- A call of the host's page pinning services. -/
inductive HostCall
  | pinned (userAddr : Bit32u) (page : PinnedPage)
  | refused (userAddr : Bit32u)
  | unpinned (userAddr hostPtr ppi : Bit32u)
deriving DecidableEq

/-- The host operating system, as far as the monitor depends on it. The first
argument of the first two is the number of calls the host has served before. -/
structure HostOS where
  /-- `hostOSGetAndPinUserPage`; `none` where `get_user_pages` fails. -/
  getAndPinUserPage : Nat → Bit32u → Option PinnedPage
  /-- The guest page, if any, whose contents a frame that is not pinned holds. -/
  holds : Nat → Frame → Option Bit32u
  /-- The contents of frames that hold no guest page. -/
  otherMemory : Frame → Bytes

/-- `pic_t.init` -/
structure PicInit where
  inInit : Bit32u := 0
  requires4 : Bit32u := 0
  byteExpected : Bit32u := 0

/-- `pic_t` -/
structure Pic where
  imr : Bit32u := 0
  isr : Bit32u := 0
  irr : Bit32u := 0
  vectorOffset : Bit32u := 0
  init : PicInit := {}

/-- One timer of `pit_t`. -/
structure PitTimer where
  mode : Bit32u := 0
  latchMode : Bit32u := 0
  inputLatchValue : Bit32u := 0
  inputLatchToggle : Bit32u := 0
  outputLatchValue : Bit32u := 0
  outputLatchToggle : Bit32u := 0
  outputLatchFull : Bit32u := 0
  counterMax : Bit32u := 0
  counter : Bit32u := 0
  bcd : Bit32u := 0
  active : Bit32u := 0
  gate : Bit32u := 0
  out : Bit32u := 0

/-- `pit_t` -/
structure Pit where
  timer : Fin 3 → PitTimer := fun _ => {}
  speakerDataOn : Bit32u := 0
  refreshClockDiv2 : Bit32u := 0
  /-- `vm->io.pit_bogus_counter` -/
  bogusCounter : Bit32u := 0

/-- `vm->guestPhyPagePinQueue` -/
structure PinQueue where
  nEntries : Nat := 0
  tail : Nat := 0
  ppi : Nat → Bit32u := fun _ => 0

/-- The pinning state of guest pages. -/
structure Pins where
  guestPageInfo : Bit32u → PhyPageInfo := fun _ => {}
  guestPageInfoHostAdjunct : Bit32u → Bit32u := fun _ => 0
  queue : PinQueue := {}

/-- The monitor's page directory and the heap of page tables under it. -/
structure Shadow where
  pageDir : BitVec 10 → PageEntry := fun _ => ⟨0⟩
  pageTbl : Bit32u → BitVec 10 → PageEntry := fun _ _ => ⟨0⟩
  pageTblLaddrMap : BitVec 10 → Bit32u := fun _ => 0
  ptblLaddrMapI : Bit32u := 0

/-- One read or write through a window pointer, with the state of the window
and of the page it was opened for at that time. -/
structure WindowAccess where
  ppi : Bit32u
  offset : Nat
  length : Nat
  stored : Option Nat
  base : Frame
  hostPPI : Frame
  pinned : Bool
deriving DecidableEq

/-- What registration fixes for the life of the machine. -/
structure Setup where
  linuxVMMode : Bool
  guestNPages : Bit32u
  guestNBytes : Bit32u
  guestPhyMemAddr : Bit32u
  family : BitVec 4
  monPdi : BitVec 10
  monPdeMask : Bit32u
  startOffsetPageAligned : Bit32u
  tmpPhyPage0 : Bit32u
  tmpPhyPage1 : Bit32u
  pageTbl : Bit32u → Frame
  nexusPageTbl : Frame
  cpuToPitRatio : Bit32u
  os : HostOS

/-- `vm_t` -/
structure Vm where
  setup : Setup
  guestCpu : GuestCpu := {}
  context : GuestStackContext := {}
  guestCPL : BitVec 2 := 0
  monCr0 : Bit32u := 0
  monCr4 : Bit32u := 0
  gdt : BitVec 13 → Descriptor := fun _ => ⟨0⟩
  intr : Bit32u := 0
  cyclesElapsed : BitVec 64 := 0
  picMaster : Pic := {}
  picSlave : Pic := {}
  pit : Pit := {}
  vmState : Bit32u := 0
  monRequest : MonReq := .none
  pinReqPPI : Bit32u := 0
  shadow : Shadow := {}
  nexusPageTbl : Nat → PageEntry := fun _ => ⟨0⟩
  pins : Pins := {}
  /-- The guest's physical memory, page by page. -/
  mem : Bit32u → Bytes := fun _ _ => 0
  /-- The calls the host has served, newest first. -/
  hostCalls : List HostCall := []
  /-- The accesses made through window pointers, newest first. -/
  accesses : List WindowAccess := []

/-- Code of the monitor or the host module: it changes the machine's state and
may give up. -/
abbrev Mon := EStateM Halt Vm

def monpanic {α : Type} (format : String) (args : List Bit32u := []) : Mon α :=
  throw (.monpanic format args)

/-- `MonAssert` -/
def monAssert (holds : Bool) (expression : String) : Mon Unit :=
  if holds then pure () else throw (.assertion expression)

namespace Vm

/-- Everything but paging and pinning is as it was. -/
structure SameCpu (before after : Vm) : Prop where
  setup : after.setup = before.setup
  guestCpu : after.guestCpu = before.guestCpu
  context : after.context = before.context
  guestCPL : after.guestCPL = before.guestCPL
  monCr0 : after.monCr0 = before.monCr0
  monCr4 : after.monCr4 = before.monCr4
  gdt : after.gdt = before.gdt
  intr : after.intr = before.intr
  cyclesElapsed : after.cyclesElapsed = before.cyclesElapsed
  picMaster : after.picMaster = before.picMaster
  picSlave : after.picSlave = before.picSlave
  pit : after.pit = before.pit
  vmState : after.vmState = before.vmState

theorem SameCpu.refl (vm : Vm) : SameCpu vm vm := by
  constructor <;> rfl

theorem SameCpu.trans {before middle after : Vm} (first : SameCpu before middle)
    (second : SameCpu middle after) : SameCpu before after := by
  constructor <;> simp [first.setup, first.guestCpu, first.context, first.guestCPL,
    first.monCr0, first.monCr4, first.gdt, first.intr, first.cyclesElapsed, first.picMaster,
    first.picSlave, first.pit, first.vmState, second.setup, second.guestCpu, second.context,
    second.guestCPL, second.monCr0, second.monCr4, second.gdt, second.intr,
    second.cyclesElapsed, second.picMaster, second.picSlave, second.pit, second.vmState]

end Vm
end Plex86
