import Plex86.Logic.Outcome
import Plex86.Logic.Slices
import Plex86.Machine.Cpu

/-! The process on the host that owns the guest's memory and serves the calls
of the guest's drivers, with the system calls it makes. -/

namespace Plex86

open Logic

/-- The errors of `read()` that the code tells apart. -/
inductive ReadErrno
  | eagain | eintr | other
deriving DecidableEq

/-- The answer of `read()` for at most `size` bytes. -/
inductive ReadAnswer (size : Nat)
  | data (bytes : List Bit8u) (fits : bytes.length ≤ size)
  | failed (errno : ReadErrno)

/-- The requests made of the VM device when the machine is taken down. -/
inductive TearDownRequest
  | unregisterMemory | teardown
deriving DecidableEq

/-- The system calls of the host. What they answer depends on the world outside
the process, which they change. -/
structure HostCalls (World : Type) where
  /-- `open(pathName, O_RDWR, 0)` -/
  openFile : List Char → World → Int × World
  lseek : Int → Int → World → Int × World
  write : Int → List Bit8u → World → Int × World
  read : Int → (size : Nat) → World → ReadAnswer size × World
  close : Int → World → Int × World
  ioctl : Int → TearDownRequest → World → Int × World

/-- A host on which every call fails. -/
def HostCalls.failing : HostCalls Unit where
  openFile _ world := (-1, world)
  lseek _ _ world := (-1, world)
  write _ _ world := (-1, world)
  read _ _ world := (.failed .other, world)
  close _ world := (-1, world)
  ioctl _ _ world := (-1, world)

abbrev halDiskMaxDisks : Nat := 4
abbrev halNetMaxDevices : Nat := 2
abbrev halConMaxDevices : Nat := 1

/-- One unit of `halDisk`. -/
structure HalDisk where
  enabled : Bit32u := 0
  fileNo : Int := 0
  pathName : List Char := []
  numSectors : Bit32u := 0
  cylinders : Bit32u := 0
  heads : Bit32u := 0
  spt : Bit32u := 0

/-- One device of `halNetDev` or `halConDev`. -/
structure HalDev where
  registered : Bool := false
  guestAreaPAddr : Bit32u := 0
  guestAreaLen : Bit32u := 0
  /-- The pointer into guest memory, counted from `plex86MemPtr`; `none` is NULL. -/
  guestArea : Option Nat := none
deriving DecidableEq

namespace HalDev

/-- The checks made before an area of at least `size` bytes is registered. -/
def Accepts (dev : HalDev) (memSize size paddr len : Bit32u) : Prop :=
  dev.registered = false ∧ size ≤ len ∧ paddr < memSize - size

instance (dev : HalDev) (memSize size paddr len : Bit32u) :
    Decidable (dev.Accepts memSize size paddr len) :=
  inferInstanceAs (Decidable (_ ∧ _))

/-- The device with its area. -/
def register (paddr len : Bit32u) : HalDev where
  registered := true
  guestAreaPAddr := paddr
  guestAreaLen := len
  guestArea := some paddr.toNat

end HalDev

/-- The console's line buffer, and what it has sent to `stderr`. -/
structure HalConLine where
  line : Nat → Bit8u := fun _ => 0
  lineI : Nat := 0
  printed : List Bit8u := []

/-- Bytes read or written as guest memory, counted from `plex86MemPtr`. -/
structure Touch where
  offset : Nat
  length : Nat
  /-- The guest's memory had not been freed. -/
  allocated : Bool
deriving DecidableEq

/-- The process, and the world it runs in. -/
structure Hal (World : Type) where
  world : World
  guestCPU : GuestCpu := {}
  mem : Bytes := fun _ => 0
  memSize : Bit32u := 0
  plex86FD : Int := -1
  /-- The bits of `plex86State`. -/
  memAllocated : Bool := false
  memRegistered : Bool := false
  halDisk : Fin halDiskMaxDisks → HalDisk := fun _ => {}
  halNetDev : Fin halNetMaxDevices → HalDev := fun _ => {}
  halConDev : Fin halConMaxDevices → HalDev := fun _ => {}
  halConLine : HalConLine := {}
  fdTunTap : Int := -1
  halNetConsumerCount : Bit32u := 0
  halNetProducerCount : Bit32u := 0
  /-- The accesses to guest memory, newest first. -/
  touched : List Touch := []
  /-- How often the guest's memory has been freed. -/
  freed : Nat := 0

/-- What ends the process. -/
inductive HalStop
  | exit
  /-- A null pointer is dereferenced. -/
  | nullDeref
  /-- A byte is stored past the end of `halConLine`. -/
  | overrun
  /-- A loop is still running. -/
  | running
deriving DecidableEq

abbrev HalM (World : Type) := EStateM HalStop (Hal World)

section
variable {World : Type}

namespace Hal

def reg (hal : Hal World) (number : Fin 8) : Bit32u := hal.guestCPU.genReg number

def setReg (hal : Hal World) (number : Fin 8) (value : Bit32u) : Hal World :=
  { hal with guestCPU :=
      { hal.guestCPU with genReg := Function.update hal.guestCPU.genReg number value } }

@[simp] theorem setReg_reg (hal : Hal World) (number : Fin 8) (value : Bit32u) :
    (hal.setReg number value).reg number = value :=
  Function.update_self ..

/-- Note an access to guest memory. -/
def touch (hal : Hal World) (offset length : Nat) : Hal World :=
  { hal with touched := ⟨offset, length, hal.memAllocated⟩ :: hal.touched }

/-- Store bytes in guest memory. -/
def put (hal : Hal World) (offset : Nat) (bytes : List Bit8u) : Hal World :=
  { hal.touch offset bytes.length with mem := splice hal.mem offset bytes }

/-- Store a 32-bit word in guest memory. -/
def putWord (hal : Hal World) (offset : Nat) (word : Bit32u) : Hal World :=
  { hal.touch offset 4 with mem := storeWord hal.mem offset word }

end Hal

/-- Make a system call. -/
def systemCall {Answer : Type} (call : World → Answer × World) : HalM World Answer := do
  let hal ← get
  let (answer, world) := call hal.world
  modify fun hal => { hal with world }
  return answer

@[simp] theorem systemCall_bind_apply {Answer Next : Type} (call : World → Answer × World)
    (rest : Answer → HalM World Next) (hal : Hal World) :
    (systemCall call >>= rest) hal =
      rest (call hal.world).1 { hal with world := (call hal.world).2 } := rfl

/-- Read bytes of guest memory. -/
def readGuest (offset length : Nat) : HalM World (List Bit8u) := do
  modify fun hal => hal.touch offset length
  let hal ← get
  return slice hal.mem offset length

/-- Read a 32-bit word of guest memory. -/
def readGuestWord (offset : Nat) : HalM World Bit32u := do
  modify fun hal => hal.touch offset 4
  let hal ← get
  return loadWord 32 hal.mem offset

/-- Follow a pointer. -/
def deref (pointer : Option Nat) : HalM World Nat :=
  match pointer with
  | some offset => pure offset
  | none => throw .nullDeref

@[simp] theorem deref_some_bind {Next : Type} (offset : Nat) (rest : Nat → HalM World Next) :
    (deref (some offset) >>= rest) = rest offset := rfl

/-- The end of `plex86TearDown`, once the VM device is closed. -/
def freeGuestMemory (hal : Hal World) : Hal World :=
  { hal with
    freed := if hal.memAllocated then hal.freed + 1 else hal.freed
    memAllocated := false
    memRegistered := false }

/-- Close the connection to the kernel module; tell whether that worked. -/
def closeVmDevice (host : HostCalls World) : HalM World Bool := do
  let hal ← get
  if (← systemCall (host.ioctl hal.plex86FD .unregisterMemory)) = -1 then return false
  modify fun hal => { hal with memRegistered := false }
  if (← systemCall (host.ioctl hal.plex86FD .teardown)) < 0 then return false
  if (← systemCall (host.close hal.plex86FD)) = -1 then return false
  modify fun hal => { hal with plex86FD := -1 }
  return true

def plex86TearDown (host : HostCalls World) : HalM World Unit := do
  let hal ← get
  if hal.plex86FD < 0 then modify freeGuestMemory
  else if ← closeVmDevice host then modify freeGuestMemory

/-- The calls of `plex86TearDown` that concern the VM device, and what becomes of its
descriptor. -/
inductive DeviceCalls (host : HostCalls World) (fd : Int) : World → Int → World → Prop
  | none (world : World) : DeviceCalls host fd world fd world
  | ioctl {world before : World} (request : TearDownRequest) :
      DeviceCalls host fd before fd world →
        DeviceCalls host fd before fd (host.ioctl fd request world).2
  | close {world before : World} :
      DeviceCalls host fd before fd world → DeviceCalls host fd before fd (host.close fd world).2
  | closed {world before : World} :
      DeviceCalls host fd before fd world → DeviceCalls host fd before (-1) (host.close fd world).2

private theorem closeVmDevice_apply (host : HostCalls World) (hal : Hal World) :
    ∃ closed world plex86FD memRegistered, closeVmDevice host hal =
        .ok closed { hal with world, plex86FD, memRegistered } ∧
      DeviceCalls host hal.plex86FD hal.world plex86FD world := by
  simp only [closeVmDevice, get_bind_apply, systemCall_bind_apply, Logic.ite_apply,
    modify_bind_apply]
  have begun : DeviceCalls host hal.plex86FD hal.world hal.plex86FD hal.world := .none hal.world
  have unregistered := begun.ioctl .unregisterMemory
  have tornDown := unregistered.ioctl .teardown
  split
  · exact ⟨_, _, _, _, rfl, unregistered⟩
  split
  · exact ⟨_, _, _, _, rfl, tornDown⟩
  split
  · exact ⟨_, _, _, _, rfl, tornDown.close⟩
  · exact ⟨_, _, _, _, rfl, tornDown.closed⟩

/-- Taking the machine down leaves the guest's memory and devices as they are. -/
theorem plex86TearDown_apply (host : HostCalls World) (hal : Hal World) :
    ∃ world plex86FD memAllocated memRegistered freed, plex86TearDown host hal =
        .ok () { hal with world, plex86FD, memAllocated, memRegistered, freed } ∧
      DeviceCalls host hal.plex86FD hal.world plex86FD world := by
  rw [plex86TearDown, get_bind_apply]
  split
  · exact ⟨_, _, _, _, _, rfl, .none _⟩
  · obtain ⟨closed, world, plex86FD, memRegistered, run, calls⟩ := closeVmDevice_apply host hal
    rw [bind_apply, run]
    cases closed with
    | false => exact ⟨_, _, _, _, _, rfl, calls⟩
    | true => exact ⟨_, _, _, _, _, rfl, calls⟩

/-- Report success to the guest. -/
def halSuccess : HalM World Unit := modify fun hal => hal.setReg genRegEAX 1

/-- Report failure to the guest, and take the machine down. -/
def halFail (host : HostCalls World) : HalM World Unit := do
  modify fun hal => hal.setReg genRegEAX 0
  plex86TearDown host

theorem halFail_apply (host : HostCalls World) (hal : Hal World) :
    ∃ world plex86FD memAllocated memRegistered freed, halFail host hal =
        .ok () { hal.setReg genRegEAX 0 with
          world, plex86FD, memAllocated, memRegistered, freed } ∧
      DeviceCalls host hal.plex86FD hal.world plex86FD world := by
  rw [halFail, modify_bind_apply]
  exact plex86TearDown_apply host (hal.setReg genRegEAX 0)

/-- The `error` exit of the network and the console. -/
def halFailExit (host : HostCalls World) : HalM World Unit := do
  halFail host
  throw .exit

end
end Plex86
