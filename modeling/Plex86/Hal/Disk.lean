import Plex86.Hal.State

/-! The disk: units of whole sectors, kept in image files on the host. -/

namespace Plex86

open Logic

/-- `sizeof(halDiskInfo_t)` -/
def sizeofHalDiskInfo : Bit32u := 20

def sectorSize : Nat := 512

namespace HalDisk

/-- The fields of `halDiskInfo_t` in their order. -/
def info (disk : HalDisk) : List Bit32u :=
  [disk.enabled, disk.cylinders, disk.heads, disk.spt, disk.numSectors]

/-- The checks that `halDiskInit` makes of the user's settings. -/
def Accepted (disk : HalDisk) : Prop :=
  (disk.numSectors ≠ 0 ∧ disk.cylinders ≠ 0 ∧ disk.heads ≠ 0 ∧ disk.spt ≠ 0) ∧
    disk.numSectors = disk.cylinders * disk.heads * disk.spt

instance (disk : HalDisk) : Decidable disk.Accepted :=
  inferInstanceAs (Decidable (_ ∧ _))

end HalDisk

section
variable {World : Type} (host : HostCalls World)

/-- Store consecutive 32-bit words in guest memory. -/
def putWords (offset : Nat) : List Bit32u → HalM World Unit
  | [] => pure ()
  | word :: rest => do
      modify fun hal => hal.putWord offset word
      putWords (offset + 4) rest

def Hal.setFileNo (hal : Hal World) (unit : Fin halDiskMaxDisks) (fileNo : Int) : Hal World :=
  { hal with halDisk := Function.update hal.halDisk unit { hal.halDisk unit with fileNo } }

/-- The entry of one unit in the guest's table, and its image opened; `false`
where that fails. -/
def halDiskOpenUnit (infoPAddr : Nat) (unit : Fin halDiskMaxDisks) : HalM World Bool := do
  let hal ← get
  let disk := hal.halDisk unit
  let entry := infoPAddr + sizeofHalDiskInfo.toNat * unit
  if disk.enabled ≠ 0 then do
    putWords entry disk.info
    let fileNo ← systemCall (host.openFile disk.pathName)
    modify fun hal => hal.setFileNo unit fileNo
    return decide (0 ≤ fileNo)
  else do
    modify fun hal => hal.put entry (List.replicate sizeofHalDiskInfo.toNat 0)
    modify fun hal => hal.setFileNo unit (-1)
    return true

/-- The loop over the units; `false` where an image cannot be opened. -/
def halDiskOpenUnits (infoPAddr : Nat) : List (Fin halDiskMaxDisks) → HalM World Bool
  | [] => return true
  | unit :: rest => do
      if ← halDiskOpenUnit host infoPAddr unit then halDiskOpenUnits infoPAddr rest
      else return false

/-- `HalCallDiskGetInfo`. On success EAX keeps the number of the call. -/
def halDiskGetInfo : HalM World Unit := do
  let hal ← get
  let infoPAddr := hal.reg genRegEBX
  if hal.memSize - sizeofHalDiskInfo ≤ infoPAddr then halFail host
  else if ← halDiskOpenUnits host infoPAddr.toNat (List.finRange halDiskMaxDisks) then return ()
  else halFail host

/-- What reading and writing have in common: the checks, and the seek. A sector
begins at the byte `sector<<9`, a 32-bit number which `off_t` takes as signed. -/
def halDiskTransfer (transfer : Int → Nat → HalM World Bool) : HalM World Unit := do
  let hal ← get
  let bufferPAddr := hal.reg genRegEBX
  let sector := hal.reg genRegECX
  if hal.memSize - 512 ≤ bufferPAddr then halFail host
  else if known : (hal.reg genRegEDX).toNat < halDiskMaxDisks then do
    let fileNo := (hal.halDisk ⟨_, known⟩).fileNo
    if (← systemCall (host.lseek fileNo (sector <<< 9).toInt)) < 0 then halFail host
    else if ← transfer fileNo bufferPAddr.toNat then halSuccess
    else halFail host
  else halFail host

/-- Write 512 bytes of guest memory at the file's offset; tell whether all were written. -/
def writeSector (fileNo : Int) (offset : Nat) : HalM World Bool := do
  let bytes ← readGuest offset sectorSize
  let written ← systemCall (host.write fileNo bytes)
  return decide (written = sectorSize)

/-- Read 512 bytes at the file's offset into guest memory; tell whether there were as many. -/
def readSector (fileNo : Int) (offset : Nat) : HalM World Bool := do
  match ← systemCall (host.read fileNo sectorSize) with
  | .data bytes _ => do
      modify fun hal => hal.put offset bytes
      return decide (bytes.length = sectorSize)
  | .failed _ => return false

theorem readSector_data {fileNo : Int} {offset : Nat} {hal : Hal World} {bytes : List Bit8u}
    {fits : bytes.length ≤ sectorSize}
    (data : (host.read fileNo sectorSize hal.world).1 = .data bytes fits) :
    readSector host fileNo offset hal = .ok (decide (bytes.length = sectorSize))
      (Hal.put { hal with world := (host.read fileNo sectorSize hal.world).2 } offset bytes) := by
  rw [readSector, systemCall_bind_apply, data]
  rfl

theorem readSector_failed {fileNo : Int} {offset : Nat} {hal : Hal World} {errno : ReadErrno}
    (failed : (host.read fileNo sectorSize hal.world).1 = .failed errno) :
    readSector host fileNo offset hal =
      .ok false { hal with world := (host.read fileNo sectorSize hal.world).2 } := by
  rw [readSector, systemCall_bind_apply, failed]
  rfl

/-- `HalCallDiskWrite` -/
def halDiskWrite : HalM World Unit := halDiskTransfer host (writeSector host)

/-- `HalCallDiskRead` -/
def halDiskRead : HalM World Unit := halDiskTransfer host (readSector host)

/-- Close the images of some units. -/
def halDiskClose : List (Fin halDiskMaxDisks) → HalM World Unit
  | [] => pure ()
  | unit :: rest => do
      let hal ← get
      if 0 ≤ (hal.halDisk unit).fileNo then do
        let _ ← systemCall (host.close (hal.halDisk unit).fileNo)
        halDiskClose rest
      else halDiskClose rest

/-- `HalCallDiskCleanup` -/
def halDiskCleanup : HalM World Unit := do
  halDiskClose host (List.finRange halDiskMaxDisks)
  halSuccess

def halCallDiskGetInfo : Bit32u := 5
def halCallDiskWrite : Bit32u := 6
def halCallDiskRead : Bit32u := 7
def halCallDiskCleanup : Bit32u := 8

def halDiskCall (callNo : Bit32u) : HalM World Unit :=
  if callNo = halCallDiskGetInfo then halDiskGetInfo host
  else if callNo = halCallDiskWrite then halDiskWrite host
  else if callNo = halCallDiskRead then halDiskRead host
  else if callNo = halCallDiskCleanup then halDiskCleanup host
  else halFail host

end
end Plex86
