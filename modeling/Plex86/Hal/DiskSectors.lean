import Plex86.Hal.DiskBounds

namespace Plex86

open Logic

/-- An open file description. -/
structure OpenFile where
  file : Nat
  offset : Nat

/-- The files of the host, and which of them are open. -/
structure Files where
  content : Nat → Bytes
  opened : Int → Option OpenFile

namespace Files

/-- Set the offset of a file that is open. -/
def moveTo (files : Files) (fd : Int) (file offset : Nat) : Files :=
  { files with opened := Function.update files.opened fd (some ⟨file, offset⟩) }

/-- Store bytes in a file. -/
def store (files : Files) (file offset : Nat) (bytes : List Bit8u) : Files :=
  { files with content :=
      Function.update files.content file (splice (files.content file) offset bytes) }

@[simp] theorem moveTo_content (files : Files) (fd : Int) (file offset : Nat) :
    (files.moveTo fd file offset).content = files.content := rfl

@[simp] theorem store_content (files : Files) (file offset : Nat) (bytes : List Bit8u) :
    (files.store file offset bytes).content file = splice (files.content file) offset bytes :=
  Function.update_self ..

end Files

section
variable {World : Type} {host : HostCalls World} {view : World → Files}

/-- The host's calls act on its files as on arrays of bytes. -/
structure ActsOnFiles (host : HostCalls World) (view : World → Files) : Prop where
  lseek : ∀ fd (place : Int) world file offset, (view world).opened fd = some ⟨file, offset⟩ →
    0 ≤ place → 0 ≤ (host.lseek fd place world).1 ∧
      view (host.lseek fd place world).2 = (view world).moveTo fd file place.toNat
  /-- There is no byte before the first. -/
  lseekBefore : ∀ fd (place : Int) world, place < 0 →
    (host.lseek fd place world).1 < 0 ∧ view (host.lseek fd place world).2 = view world
  read : ∀ fd size world file offset, (view world).opened fd = some ⟨file, offset⟩ →
    (host.read fd size world).1 =
        .data (slice ((view world).content file) offset size) (Nat.le_of_eq slice_length) ∧
      view (host.read fd size world).2 = (view world).moveTo fd file (offset + size)
  write : ∀ fd bytes world file offset, (view world).opened fd = some ⟨file, offset⟩ →
    (host.write fd bytes world).1 = bytes.length ∧
      view (host.write fd bytes world).2 =
        ((view world).store file offset bytes).moveTo fd file (offset + bytes.length)
  ioctl : ∀ fd request world, view (host.ioctl fd request world).2 = view world
  close : ∀ fd world, (view (host.close fd world).2).content = (view world).content ∧
    ∀ other, other ≠ fd → (view (host.close fd world).2).opened other = (view world).opened other

/-- The units whose images are open: the file behind each. The machine's own
device is none of them. -/
structure Mounted (view : World → Files) (image : Fin halDiskMaxDisks → Option Nat)
    (hal : Hal World) : Prop where
  opened : ∀ unit file, image unit = some file →
    ∃ offset, (view hal.world).opened (hal.halDisk unit).fileNo = some ⟨file, offset⟩
  apart : ∀ unit file, image unit = some file →
    0 ≤ (hal.halDisk unit).fileNo ∧ (hal.halDisk unit).fileNo ≠ hal.plex86FD

/-- The sectors of each unit. -/
abbrev Sectors := Fin halDiskMaxDisks → Nat → List Bit8u

/-- The sectors that the images hold. -/
def sectorsOf (files : Files) (image : Fin halDiskMaxDisks → Option Nat) : Sectors :=
  fun unit sector => match image unit with
    | some file => slice (files.content file) (sectorSize * sector) sectorSize
    | none => []

/-- A call to read or write a sector of a unit. -/
structure Transfer (call : GuestCall) (unit : Fin halDiskMaxDisks) : Prop where
  number : call.genReg genRegEAX = halCallDiskRead ∨ call.genReg genRegEAX = halCallDiskWrite
  unit : (call.genReg genRegEDX).toNat = unit

/-- The request is for a sector of the disk, with a buffer that is not refused. -/
def Serviceable (hal : Hal World) (call : GuestCall) (unit : Fin halDiskMaxDisks) : Prop :=
  call.genReg genRegEBX < hal.memSize - 512 ∧
    call.genReg genRegECX < (hal.halDisk unit).numSectors

instance (hal : Hal World) (call : GuestCall) (unit : Fin halDiskMaxDisks) :
    Decidable (Serviceable hal call unit) :=
  inferInstanceAs (Decidable (_ ∧ _))

/-- What a request makes of an array of sectors. -/
def Sectors.request (sectors : Sectors) (hal : Hal World) (call : GuestCall)
    (unit : Fin halDiskMaxDisks) : Sectors :=
  if call.genReg genRegEAX = halCallDiskWrite ∧ Serviceable hal call unit then
    Function.update sectors unit (Function.update (sectors unit) (call.genReg genRegECX).toNat
      (slice call.mem (call.genReg genRegEBX).toNat sectorSize))
  else sectors

/-- A request is served as by an array of sectors. -/
structure ServedAs (view : World → Files) (image : Fin halDiskMaxDisks → Option Nat)
    (sectors : Sectors) (hal : Hal World) (call : GuestCall) (unit : Fin halDiskMaxDisks)
    (next : Hal World) : Prop where
  served : Serviceable hal call unit → next.reg genRegEAX = 1
  /-- A request for a sector that the disk does not have fails. -/
  failed : ¬ Serviceable hal call unit →
    next.reg genRegEAX = 0 ∧ (view next.world).content = (view hal.world).content
  delivered : Serviceable hal call unit → call.genReg genRegEAX = halCallDiskRead →
    slice next.mem (call.genReg genRegEBX).toNat sectorSize =
      sectors unit (call.genReg genRegECX).toNat
  kept : sectorsOf (view next.world) image = sectors.request hal call unit

/-- The 32-bit number that is the byte offset of the request's sector is right and the
buffer has not been freed, or the disk has no such sector and the seek fails. -/
def OffsetRight (hal : Hal World) (call : GuestCall) (unit : Fin halDiskMaxDisks) : Prop :=
  call.genReg genRegEBX < hal.memSize - 512 →
    if call.genReg genRegECX < (hal.halDisk unit).numSectors then
      (call.genReg genRegECX).toNat < 2 ^ 22 ∧ hal.memAllocated = true
    else (call.genReg genRegECX).getLsbD 22 = true

/-- What is used of guest memory in between has not been freed. -/
def UsesLive (hal next : Hal World) : Prop :=
  ∀ touch ∈ next.touched, touch ∈ hal.touched ∨ touch.allocated = true

theorem UsesLive.nothing {hal next : Hal World} (same : next.touched = hal.touched) :
    UsesLive hal next := by
  intro touch member
  exact .inl (same ▸ member)

theorem UsesLive.buffer {hal next : Hal World} (allocated : hal.memAllocated = true)
    {offset length : Nat} (used : next.touched = ⟨offset, length, hal.memAllocated⟩ :: hal.touched) :
    UsesLive hal next := by
  intro touch member
  rw [used] at member
  rcases List.mem_cons.mp member with rfl | before
  · exact .inr allocated
  · exact .inl before

theorem OffsetRight.low {hal : Hal World} {call : GuestCall} {unit : Fin halDiskMaxDisks}
    (inside : call.genReg genRegECX < (hal.halDisk unit).numSectors)
    (low : (call.genReg genRegECX).toNat < 2 ^ 22) (allocated : hal.memAllocated = true) :
    OffsetRight hal call unit := by
  intro _
  rw [if_pos inside]
  exact ⟨low, allocated⟩

theorem OffsetRight.beyond {hal : Hal World} {call : GuestCall} {unit : Fin halDiskMaxDisks}
    (outside : ¬ call.genReg genRegECX < (hal.halDisk unit).numSectors)
    (high : (call.genReg genRegECX).getLsbD 22 = true) : OffsetRight hal call unit := by
  intro _
  rw [if_neg outside]
  exact high

private theorem sectorsOf_congr {files other : Files} (same : other.content = files.content)
    (image : Fin halDiskMaxDisks → Option Nat) : sectorsOf other image = sectorsOf files image := by
  unfold sectorsOf
  rw [same]

/-- Different units have different images. -/
def Apart (image : Fin halDiskMaxDisks → Option Nat) : Prop :=
  ∀ unit other file, image unit = some file → image other = some file → unit = other

/-- A sector that is stored is the only one to change. -/
theorem sectorsOf_store {image : Fin halDiskMaxDisks → Option Nat} (apart : Apart image)
    {unit : Fin halDiskMaxDisks} {file : Nat} (known : image unit = some file) (files : Files)
    (sector : Nat) {bytes : List Bit8u} (whole : bytes.length = sectorSize) :
    sectorsOf (files.store file (sectorSize * sector) bytes) image =
      Function.update (sectorsOf files image) unit
        (Function.update (sectorsOf files image unit) sector bytes) := by
  funext other place
  by_cases same : other = unit
  · subst same
    rw [Function.update_self]
    simp only [sectorsOf, known, Files.store, Function.update_self]
    by_cases here : place = sector
    · rw [here, Function.update_self]
      have stored := @slice_splice_self (files.content file) (sectorSize * sector) bytes
      exact whole ▸ stored
    · have outside : sectorSize * place + sectorSize ≤ sectorSize * sector ∨
          sectorSize * sector + bytes.length ≤ sectorSize * place := by
        rw [whole]
        unfold sectorSize
        omega
      rw [Function.update_of_ne here, slice_splice_disjoint outside]
      simp only [sectorsOf, known]
  · rw [Function.update_of_ne same]
    unfold sectorsOf Files.store
    cases there : image other with
    | none => rfl
    | some file' =>
        have different : file' ≠ file := by
          rintro rfl
          exact same (apart other unit file' there known)
        simp only [Function.update_of_ne different]

private theorem ActsOnFiles.deviceCalls (acts : ActsOnFiles host view) {fd last : Int}
    {before world : World} (calls : DeviceCalls host fd before last world) :
    (view world).content = (view before).content ∧
      (∀ other, other ≠ fd → (view world).opened other = (view before).opened other) ∧
      (last = fd ∨ last = -1) := by
  induction calls with
  | none => exact ⟨rfl, fun _ _ => rfl, .inl rfl⟩
  | ioctl request _ inductionHypothesis =>
      rw [acts.ioctl]
      exact inductionHypothesis
  | @close world _ _ inductionHypothesis =>
      have closed := acts.close fd world
      refine ⟨closed.1.trans inductionHypothesis.1, ?_, inductionHypothesis.2.2⟩
      intro other apart
      exact (closed.2 other apart).trans (inductionHypothesis.2.1 other apart)
  | @closed world _ _ inductionHypothesis =>
      have closed := acts.close fd world
      refine ⟨closed.1.trans inductionHypothesis.1, ?_, .inr rfl⟩
      intro other apart
      exact (closed.2 other apart).trans (inductionHypothesis.2.1 other apart)

/-- What a request keeps, besides the images. -/
structure StaysMounted (view : World → Files) (image : Fin halDiskMaxDisks → Option Nat)
    (hal next : Hal World) : Prop where
  mounted : Mounted view image next
  memSize : next.memSize = hal.memSize
  halDisk : next.halDisk = hal.halDisk
  live : UsesLive hal next
  memAllocated : next.reg genRegEAX = 1 → next.memAllocated = hal.memAllocated

/-- Where only the offset of an open image moves, the images stay mounted. -/
theorem Mounted.moveTo {image : Fin halDiskMaxDisks → Option Nat} {hal next : Hal World}
    (mounted : Mounted view image hal) {unit : Fin halDiskMaxDisks} {file : Nat} (offset : Nat)
    (known : image unit = some file) (disks : next.halDisk = hal.halDisk)
    (device : next.plex86FD = hal.plex86FD)
    (moved : (view next.world).opened = Function.update (view hal.world).opened
      (hal.halDisk unit).fileNo (some ⟨file, offset⟩)) : Mounted view image next := by
  refine ⟨fun other there some => ?_, fun other there some => ?_⟩
  · obtain ⟨place, opened⟩ := mounted.opened other there some
    obtain ⟨_, here⟩ := mounted.opened unit file known
    rw [disks, moved]
    by_cases same : (hal.halDisk other).fileNo = (hal.halDisk unit).fileNo
    · rw [same] at opened ⊢
      rw [Function.update_self]
      have files := here.symm.trans opened
      simp only [Option.some.injEq, OpenFile.mk.injEq] at files
      exact ⟨offset, by rw [files.1]⟩
    · rw [Function.update_of_ne same]
      exact ⟨place, opened⟩
  · rw [disks, device]
    exact mounted.apart other there some

/-- A failing call leaves the images alone. -/
theorem halFail_mounted (acts : ActsOnFiles host view) {image : Fin halDiskMaxDisks → Option Nat}
    {hal : Hal World} (mounted : Mounted view image hal) :
    ∃ next, halFail host hal = .ok () next ∧ next.reg genRegEAX = 0 ∧
      (view next.world).content = (view hal.world).content ∧ StaysMounted view image hal next := by
  obtain ⟨world, plex86FD, memAllocated, memRegistered, freed, run, calls⟩ :=
    halFail_apply host hal
  obtain ⟨content, opened, device⟩ := acts.deviceCalls calls
  have failed : (hal.setReg genRegEAX 0).reg genRegEAX = 0 := hal.setReg_reg genRegEAX 0
  refine ⟨_, run, failed, content, ⟨?_, ?_⟩, rfl, rfl, .nothing rfl, fun served => ?_⟩
  rotate_right
  · cases failed.symm.trans served
  · intro unit file known
    obtain ⟨offset, there⟩ := mounted.opened unit file known
    exact ⟨offset, (opened _ (mounted.apart unit file known).2).trans there⟩
  · intro unit file known
    have apart := mounted.apart unit file known
    refine ⟨apart.1, ?_⟩
    rcases device with same | closed
    · rw [same]
      exact apart.2
    · rw [closed]
      show (hal.halDisk unit).fileNo ≠ -1
      omega

private theorem sectorOffset_low {sector : Bit32u} (low : sector.toNat < 2 ^ 22) :
    (sector <<< 9).toInt = (sectorSize * sector.toNat : Nat) := by
  have shifted : (sector <<< 9).toNat = sectorSize * sector.toNat := by
    rw [BitVec.toNat_shiftLeft, Nat.shiftLeft_eq]
    unfold sectorSize
    omega
  rw [BitVec.toInt_eq_toNat_cond, shifted, if_pos]
  unfold sectorSize
  omega

private theorem sectorOffset_high {sector : Bit32u} (high : sector.getLsbD 22 = true) :
    (sector <<< 9).toInt < 0 := by
  have sign : (sector <<< 9).msb = true := by
    rw [BitVec.msb_eq_getLsbD_last, BitVec.getLsbD_shiftLeft]
    simpa using high
  rw [BitVec.msb_eq_toInt] at sign
  exact of_decide_eq_true sign

section
variable {image : Fin halDiskMaxDisks → Option Nat} {hal : Hal World} {call : GuestCall}
variable {unit : Fin halDiskMaxDisks} {transfer : Int → Nat → HalM World Bool}

private theorem halDiskTransfer_refused (hal : Hal World)
    (far : hal.memSize - 512 ≤ hal.reg genRegEBX) :
    halDiskTransfer host transfer hal = halFail host hal := by
  rw [halDiskTransfer, get_bind_apply, if_pos far]

/-- A transfer that is not refused seeks the sector. -/
theorem halDiskTransfer_seeks (hal : Hal World)
    (near : call.genReg genRegEBX < hal.memSize - 512)
    (known : (call.genReg genRegEDX).toNat = unit) :
    let fileNo := (hal.halDisk unit).fileNo
    let sought := host.lseek fileNo (call.genReg genRegECX <<< 9).toInt hal.world
    halDiskTransfer host transfer (hal.enter call) =
      if sought.1 < 0 then halFail host { hal.enter call with world := sought.2 }
      else (transfer fileNo (call.genReg genRegEBX).toNat >>= fun done =>
        if done = true then halSuccess else halFail host)
          { hal.enter call with world := sought.2 } := by
  have small : ((hal.enter call).reg genRegEDX).toNat < halDiskMaxDisks :=
    known ▸ unit.isLt
  have same : (⟨((hal.enter call).reg genRegEDX).toNat, small⟩ : Fin halDiskMaxDisks) = unit :=
    Fin.ext known
  have far : ¬ (hal.enter call).memSize - 512 ≤ (hal.enter call).reg genRegEBX :=
    BitVec.not_le.mpr near
  rw [halDiskTransfer, get_bind_apply, if_neg far, dif_pos small, same]
  dsimp only
  rw [systemCall_bind_apply, Logic.ite_apply]
  rfl

/-- Where the request fails, nothing has changed. -/
theorem failed_served (acts : ActsOnFiles host view) {now : Hal World}
    (mounted : Mounted view image now) (files : view now.world = view hal.world)
    (size : now.memSize = hal.memSize) (disks : now.halDisk = hal.halDisk)
    (memory : now.touched = hal.touched ∧ now.memAllocated = hal.memAllocated)
    (unserviceable : ¬ Serviceable hal call unit) :
    ∃ next, halFail host now = .ok () next ∧
      ServedAs view image (sectorsOf (view hal.world) image) hal call unit next ∧
      StaysMounted view image hal next := by
  obtain ⟨next, run, failed, content, steady⟩ := halFail_mounted acts mounted
  rw [files] at content
  have live : UsesLive hal next := fun touch member =>
    (steady.live touch member).imp_left fun before => memory.1 ▸ before
  refine ⟨next, run, ⟨fun here => absurd here unserviceable, fun _ => ⟨failed, content⟩,
    fun here => absurd here unserviceable, ?_⟩,
    ⟨steady.mounted, steady.memSize.trans size, steady.halDisk.trans disks,
      live, fun served => (steady.memAllocated served).trans memory.2⟩⟩
  rw [sectorsOf_congr content, Sectors.request, if_neg fun both => unserviceable both.2]

/-- After its seek, a read delivers the sector. -/
theorem read_served (acts : ActsOnFiles host view) (mounted : Mounted view image hal)
    {file : Nat} (known : image unit = some file) {world : World}
    (sought : view world = (view hal.world).moveTo (hal.halDisk unit).fileNo file
      (sectorSize * (call.genReg genRegECX).toNat))
    (number : call.genReg genRegEAX = halCallDiskRead) (serviceable : Serviceable hal call unit)
    (allocated : hal.memAllocated = true) :
    ∃ next, (readSector host (hal.halDisk unit).fileNo (call.genReg genRegEBX).toNat >>= fun done =>
        if done = true then halSuccess else halFail host) { hal.enter call with world } =
          .ok () next ∧
      ServedAs view image (sectorsOf (view hal.world) image) hal call unit next ∧
      StaysMounted view image hal next := by
  have opened : (view world).opened (hal.halDisk unit).fileNo =
      some ⟨file, sectorSize * (call.genReg genRegECX).toNat⟩ := by
    rw [sought]
    exact Function.update_self ..
  obtain ⟨data, files⟩ :=
    acts.read (hal.halDisk unit).fileNo sectorSize world file _ opened
  let bytes := slice ((view world).content file)
    (sectorSize * (call.genReg genRegECX).toNat) sectorSize
  have length : bytes.length = sectorSize := slice_length
  let after := (host.read (hal.halDisk unit).fileNo sectorSize world).2
  let next := (Hal.put { hal.enter call with world := after }
    (call.genReg genRegEBX).toNat bytes).setReg genRegEAX 1
  have content : (view after).content = (view hal.world).content := by
    rw [files, sought]
    rfl
  refine ⟨next, ?_, ⟨fun _ => Hal.setReg_reg .., fun not => absurd serviceable not, ?_, ?_⟩, ?_⟩
  · refine bind_ok.mpr ⟨true, _, (readSector_data host data).trans ?_, rfl⟩
    rw [decide_eq_true length]
  · intro _ _
    show slice (splice call.mem (call.genReg genRegEBX).toNat bytes) _ sectorSize = _
    have delivered := @slice_splice_self call.mem (call.genReg genRegEBX).toNat bytes
    rw [length] at delivered
    rw [delivered, sectorsOf, known]
    show slice ((view world).content file) _ _ = _
    rw [sought]
    rfl
  · have same : (view next.world).content = (view hal.world).content := content
    have unwritten : ¬ (call.genReg genRegEAX = halCallDiskWrite ∧ Serviceable hal call unit) := by
      rintro ⟨other, _⟩
      exact absurd (number.symm.trans other) (by decide)
    rw [sectorsOf_congr same, Sectors.request, if_neg unwritten]
  · refine ⟨mounted.moveTo (sectorSize * (call.genReg genRegECX).toNat + sectorSize) known rfl rfl
      ?_, rfl, rfl, .buffer allocated rfl, fun _ => rfl⟩
    show (view after).opened = _
    rw [files, sought, Files.moveTo, Files.moveTo]
    exact Function.update_idem ..

/-- Wherever the seek went, a write stores the guest's bytes there. -/
theorem writeSector_stores (acts : ActsOnFiles host view) {fileNo : Int} {world : World}
    {file place : Nat} (opened : (view world).opened fileNo = some ⟨file, place⟩)
    (hal : Hal World) (call : GuestCall) :
    let bytes := slice call.mem (call.genReg genRegEBX).toNat sectorSize
    ∃ next, (writeSector host fileNo (call.genReg genRegEBX).toNat >>= fun done =>
        if done = true then halSuccess else halFail host) { hal.enter call with world } =
          .ok () next ∧
      next.reg genRegEAX = 1 ∧
      view next.world =
        ((view world).store file place bytes).moveTo fileNo file (place + sectorSize) ∧
      (next.memSize = hal.memSize ∧ next.halDisk = hal.halDisk ∧ next.plex86FD = hal.plex86FD) ∧
      next.touched = ⟨(call.genReg genRegEBX).toNat, sectorSize, hal.memAllocated⟩ :: hal.touched ∧
      next.memAllocated = hal.memAllocated := by
  intro bytes
  have length : bytes.length = sectorSize := slice_length
  obtain ⟨written, files⟩ := acts.write fileNo bytes world file place opened
  have all : decide ((host.write fileNo bytes world).1 = sectorSize) = true := by
    rw [written, length]
    exact decide_eq_true rfl
  let after := (host.write fileNo bytes world).2
  let next := (Hal.touch { hal.enter call with world := after }
    (call.genReg genRegEBX).toNat sectorSize).setReg genRegEAX 1
  refine ⟨next, ?_, Hal.setReg_reg .., ?_, ⟨rfl, rfl, rfl⟩, rfl, rfl⟩
  · have run : writeSector host fileNo (call.genReg genRegEBX).toNat { hal.enter call with world } =
        .ok (decide ((host.write fileNo bytes world).1 = sectorSize)) _ := rfl
    rw [all] at run
    exact bind_ok.mpr ⟨true, _, run, rfl⟩
  · rw [length] at files
    exact files

/-- After its seek, a write stores the guest's bytes in the sector. -/
theorem write_served (acts : ActsOnFiles host view) (apart : Apart image)
    (mounted : Mounted view image hal) {file : Nat} (known : image unit = some file)
    {world : World}
    (sought : view world = (view hal.world).moveTo (hal.halDisk unit).fileNo file
      (sectorSize * (call.genReg genRegECX).toNat))
    (number : call.genReg genRegEAX = halCallDiskWrite) (serviceable : Serviceable hal call unit)
    (allocated : hal.memAllocated = true) :
    ∃ next, (writeSector host (hal.halDisk unit).fileNo (call.genReg genRegEBX).toNat >>=
        fun done => if done = true then halSuccess else halFail host)
          { hal.enter call with world } = .ok () next ∧
      ServedAs view image (sectorsOf (view hal.world) image) hal call unit next ∧
      StaysMounted view image hal next := by
  have opened : (view world).opened (hal.halDisk unit).fileNo =
      some ⟨file, sectorSize * (call.genReg genRegECX).toNat⟩ := by
    rw [sought]
    exact Function.update_self ..
  obtain ⟨next, run, done, files, ⟨size, disks, device⟩, used, kept⟩ :=
    writeSector_stores acts opened hal call
  refine ⟨next, run, ⟨fun _ => done, fun not => absurd serviceable not, ?_, ?_⟩,
    ?_, size, disks, .buffer allocated used, fun _ => kept⟩
  · intro _ other
    exact absurd (number.symm.trans other) (by decide)
  · have stored : sectorsOf (view next.world) image =
        sectorsOf ((view hal.world).store file (sectorSize * (call.genReg genRegECX).toNat)
          (slice call.mem (call.genReg genRegEBX).toNat sectorSize)) image := by
      apply sectorsOf_congr
      rw [files, sought]
      rfl
    rw [stored, sectorsOf_store apart known _ _ slice_length, Sectors.request,
      if_pos ⟨number, serviceable⟩]
  · refine mounted.moveTo (sectorSize * (call.genReg genRegECX).toNat + sectorSize) known disks
      device ?_
    rw [files, sought, Files.moveTo, Files.moveTo, Files.store]
    exact Function.update_idem ..

/-- A request whose offset is right is served as by an array of sectors. -/
theorem transfer_served (acts : ActsOnFiles host view) (apart : Apart image)
    (mounted : Mounted view image hal) {file : Nat} (known : image unit = some file)
    (transfer : Transfer call unit) (right : OffsetRight hal call unit) :
    ∃ next, halCall host (hal.enter call) = .ok true next ∧
      ServedAs view image (sectorsOf (view hal.world) image) hal call unit next ∧
      StaysMounted view image hal next := by
  have disk : (hal.enter call).reg genRegEAX ∈ diskCalls := by
    rcases transfer.number with same | same
    · rw [show (hal.enter call).reg genRegEAX = _ from same]
      decide
    · rw [show (hal.enter call).reg genRegEAX = _ from same]
      decide
  have entered : Mounted view image (hal.enter call) := ⟨mounted.opened, mounted.apart⟩
  suffices found : ∃ next, halDiskCall host (call.genReg genRegEAX) (hal.enter call) = .ok () next ∧
      ServedAs view image (sectorsOf (view hal.world) image) hal call unit next ∧
      StaysMounted view image hal next by
    obtain ⟨next, run, served, steady⟩ := found
    exact ⟨next, halCall_disk disk run, served, steady⟩
  -- the place of the call's code decides only how the sector is transferred
  have cases : ∃ move : Int → Nat → HalM World Bool,
      halDiskCall host (call.genReg genRegEAX) = halDiskTransfer host move ∧
        (call.genReg genRegEAX = halCallDiskRead ∧ move = readSector host ∨
          call.genReg genRegEAX = halCallDiskWrite ∧ move = writeSector host) := by
    rcases transfer.number with same | same
    · exact ⟨_, by rw [same]; rfl, .inl ⟨same, rfl⟩⟩
    · exact ⟨_, by rw [same]; rfl, .inr ⟨same, rfl⟩⟩
  obtain ⟨move, code, kind⟩ := cases
  rw [code]
  by_cases near : call.genReg genRegEBX < hal.memSize - 512
  · rw [halDiskTransfer_seeks hal near transfer.unit]
    have inRange := right near
    split at inRange
    · next inside =>
      obtain ⟨old, opened⟩ := mounted.opened unit file known
      have place : (call.genReg genRegECX <<< 9).toInt =
          (sectorSize * (call.genReg genRegECX).toNat : Nat) := sectorOffset_low inRange.1
      obtain ⟨found, sought⟩ := acts.lseek (hal.halDisk unit).fileNo
        (call.genReg genRegECX <<< 9).toInt hal.world file old opened (by rw [place]; omega)
      have there : ((sectorSize * (call.genReg genRegECX).toNat : Nat) : Int).toNat =
          sectorSize * (call.genReg genRegECX).toNat := Int.toNat_natCast _
      rw [place, there, ← place] at sought
      rw [if_neg (Int.not_lt.mpr found)]
      rcases kind with ⟨number, rfl⟩ | ⟨number, rfl⟩
      · exact read_served acts mounted known sought number ⟨near, inside⟩ inRange.2
      · exact write_served acts apart mounted known sought number ⟨near, inside⟩ inRange.2
    · next outside =>
      obtain ⟨before, same⟩ := acts.lseekBefore (hal.halDisk unit).fileNo
        (call.genReg genRegECX <<< 9).toInt hal.world (sectorOffset_high inRange)
      rw [if_pos before]
      refine failed_served acts ?_ same rfl rfl ⟨rfl, rfl⟩ fun here => outside here.2
      exact ⟨fun other there some => by
        obtain ⟨offset, opened⟩ := mounted.opened other there some
        exact ⟨offset, by rw [same]; exact opened⟩, mounted.apart⟩
  · rw [halDiskTransfer_refused (hal.enter call) (BitVec.not_lt.mp near)]
    exact failed_served acts entered rfl rfl rfl ⟨rfl, rfl⟩ fun here => near here.1

/-- A guest reads or writes a sector of a unit whose image is open. Where the call uses
memory that has been freed, nothing is known of what it leaves. -/
def TransferStep (host : HostCalls World) (image : Fin halDiskMaxDisks → Option Nat)
    (hal : Hal World) (call : GuestCall) (next : Hal World) : Prop :=
  (∃ unit file, image unit = some file ∧ Transfer call unit) ∧
    ∃ served, halCall host (hal.enter call) = .ok true served ∧ (UsesLive hal served → next = served)

/-- The unit of a call. -/
def requestUnit (call : GuestCall) : Fin halDiskMaxDisks :=
  Fin.ofNat halDiskMaxDisks (call.genReg genRegEDX).toNat

private theorem Transfer.requestUnit (transfer : Transfer call unit) : requestUnit call = unit := by
  apply Fin.ext
  rw [Plex86.requestUnit, transfer.unit]
  exact Nat.mod_eq_of_lt unit.isLt

/-- The array of sectors after some requests, the newest first. -/
def storeAfter (original : Sectors) : List (Moment (Hal World) GuestCall) → Sectors
  | [] => original
  | moment :: older =>
      (storeAfter original older).request moment.before moment.event (requestUnit moment.event)

/-- In every run whose offsets are right, the disk is an array of sectors. -/
theorem disk_isSectors (acts : ActsOnFiles host view) (apart : Apart image) {first : Hal World}
    (mounted : Mounted view image first) {past : List (Moment (Hal World) GuestCall)}
    {now : Hal World} (run : Run (· = first) (TransferStep host image) past now)
    (right : ∀ moment ∈ past, OffsetRight moment.before moment.event (requestUnit moment.event)) :
    sectorsOf (view now.world) image = storeAfter (sectorsOf (view first.world) image) past ∧
      ∀ newer moment older, past = newer ++ moment :: older →
        ServedAs view image (storeAfter (sectorsOf (view first.world) image) older) moment.before
          moment.event (requestUnit moment.event) moment.after := by
  suffices all : Mounted view image now ∧
      sectorsOf (view now.world) image = storeAfter (sectorsOf (view first.world) image) past ∧
      ∀ newer moment older, past = newer ++ moment :: older →
        ServedAs view image (storeAfter (sectorsOf (view first.world) image) older) moment.before
          moment.event (requestUnit moment.event) moment.after from all.2
  induction run with
  | start begun =>
      rw [begun]
      refine ⟨mounted, rfl, fun newer moment older split => ?_⟩
      simp at split
  | @next past before after call earlier taken inductionHypothesis =>
      obtain ⟨still, store, served⟩ := inductionHypothesis fun moment member =>
        right moment (List.mem_cons_of_mem _ member)
      obtain ⟨⟨unit, file, known, transfer⟩, ended, run, reached⟩ := taken
      have offset := right _ List.mem_cons_self
      rw [transfer.requestUnit] at offset
      obtain ⟨next, again, newest, steady⟩ :=
        transfer_served acts apart still known transfer offset
      have same : ended = next := by
        cases run.symm.trans again
        rfl
      obtain rfl : after = next := (reached (same ▸ steady.live)).trans same
      rw [store] at newest
      refine ⟨steady.mounted, ?_, fun newer moment older split => ?_⟩
      · rw [storeAfter, transfer.requestUnit]
        exact newest.kept
      · cases newer with
        | nil =>
            obtain ⟨rfl, rfl⟩ := List.cons.inj split
            rw [transfer.requestUnit]
            exact newest
        | cons latest newer =>
            exact served newer moment older (List.cons.inj split).2

end

namespace Files

/-- System calls that act on files as on arrays of bytes. -/
def calls : HostCalls Files where
  openFile _ files := (-1, files)
  lseek fd place files :=
    match files.opened fd with
    | some opened =>
        if 0 ≤ place then (place, files.moveTo fd opened.file place.toNat) else (-1, files)
    | none => (-1, files)
  write fd bytes files :=
    match files.opened fd with
    | some opened =>
        (bytes.length, (files.store opened.file opened.offset bytes).moveTo fd opened.file
          (opened.offset + bytes.length))
    | none => (-1, files)
  read fd size files :=
    match files.opened fd with
    | some opened =>
        (.data (slice (files.content opened.file) opened.offset size) (Nat.le_of_eq slice_length),
          files.moveTo fd opened.file (opened.offset + size))
    | none => (.failed .other, files)
  close fd files := (0, { files with opened := Function.update files.opened fd none })
  ioctl _ _ files := (0, files)

private theorem calls_act : ActsOnFiles calls id := by
  refine ⟨?_, ?_, ?_, ?_, fun _ _ _ => rfl, ?_⟩
  · intro fd place files file offset opened found
    simp only [calls, id, show files.opened fd = _ from opened, if_pos found, and_true]
    exact found
  · intro fd place files before
    have fails : calls.lseek fd place files = (-1, files) := by
      cases found : files.opened fd with
      | none => simp only [calls, found]
      | some opened => simp only [calls, found, if_neg (Int.not_le.mpr before)]
    rw [fails]
    exact ⟨Int.negSucc_lt_zero 0, rfl⟩
  · intro fd size files file offset opened
    simp only [calls, id, show files.opened fd = _ from opened, and_self]
  · intro fd bytes files file offset opened
    simp only [calls, id, show files.opened fd = _ from opened, and_self]
  · intro fd files
    exact ⟨rfl, fun other apart => Function.update_of_ne apart _ _⟩

end Files

/-- A machine whose first unit has eight sectors, all of them zero. -/
def eightSectors : Hal Files where
  world := { content := fun _ _ => 0, opened := Function.update (fun _ => none) 5 (some ⟨0, 0⟩) }
  memSize := 0x400000
  plex86FD := 3
  memAllocated := true
  halDisk := Function.update (fun _ => {}) 0
    { enabled := 1, fileNo := 5, numSectors := 8, cylinders := 8, heads := 1, spt := 1 }

def firstImage : Fin halDiskMaxDisks → Option Nat := Function.update (fun _ => none) 0 (some 0)

/-- A request for a sector of the first unit, with a buffer of ones at the start of memory. -/
def sectorCall (callNo sector : Bit32u) : GuestCall where
  genReg := Function.update (Function.update (fun _ => 0) genRegEAX callNo) genRegECX sector
  mem _ := 0xff

private theorem eightSectors_mounted : Mounted id firstImage eightSectors := by
  refine ⟨fun unit file known => ?_, fun unit file known => ?_⟩
  · by_cases first : unit = 0
    · subst first
      cases known
      exact ⟨0, rfl⟩
    · rw [firstImage, Function.update_of_ne first] at known
      cases known
  · by_cases first : unit = 0
    · subst first
      exact ⟨by decide, by decide⟩
    · rw [firstImage, Function.update_of_ne first] at known
      cases known

private theorem firstImage_apart : Apart firstImage := by
  have only : ∀ unit file, firstImage unit = some file → unit = 0 := by
    intro unit file known
    by_contra other
    rw [firstImage, Function.update_of_ne other] at known
    cases known
  intro unit other file first second
  rw [only unit file first, only other file second]

/-- A request whose offset is right can be made, as one more step of a run. -/
theorem next_transfer {hal : Hal Files} (mounted : Mounted id firstImage hal)
    {past : List (Moment (Hal Files) GuestCall)}
    (run : Run (· = eightSectors) (TransferStep Files.calls firstImage) past hal) {call : GuestCall}
    (transfer : Transfer call 0) (right : OffsetRight hal call 0) :
    ∃ next, Run (· = eightSectors) (TransferStep Files.calls firstImage)
        (⟨hal, call, next⟩ :: past) next ∧ StaysMounted id firstImage hal next ∧
      (Serviceable hal call 0 → next.reg genRegEAX = 1) := by
  obtain ⟨next, made, served, steady⟩ := transfer_served Files.calls_act firstImage_apart mounted
    (rfl : firstImage 0 = some 0) transfer right
  exact ⟨next, .next run ⟨⟨0, 0, rfl, transfer⟩, next, made, fun _ => rfl⟩, steady, served.served⟩

/-- Sector 5 is written and read, and then a sector is asked for that the disk does not
have, whose byte offset is negative. -/
theorem disk_isSectors_sample : ∃ past now,
    Run (· = eightSectors) (TransferStep Files.calls firstImage) past now ∧
      past.map Moment.event = [sectorCall halCallDiskRead 0x400000, sectorCall halCallDiskRead 5,
        sectorCall halCallDiskWrite 5] ∧
      now.reg genRegEAX = 0 ∧
      sectorsOf now.world firstImage = storeAfter (sectorsOf eightSectors.world firstImage) past := by
  have write : Transfer (sectorCall halCallDiskWrite 5) 0 := ⟨.inr rfl, rfl⟩
  have read (sector : Bit32u) : Transfer (sectorCall halCallDiskRead sector) 0 := ⟨.inl rfl, rfl⟩
  have five : 5#32 < (eightSectors.halDisk 0).numSectors := by decide
  have small : (5#32).toNat < 2 ^ 22 := by decide
  have near {hal : Hal Files} (steady : hal.halDisk = eightSectors.halDisk)
      (allocated : hal.memAllocated = true) (callNo : Bit32u) :
      OffsetRight hal (sectorCall callNo 5) 0 := .low (steady ▸ five) small allocated
  obtain ⟨written, run, first, done⟩ :=
    next_transfer eightSectors_mounted (.start rfl) write (near rfl rfl _)
  have allocated := first.memAllocated (done ⟨by decide, by decide⟩)
  have right := near first.halDisk allocated halCallDiskRead
  obtain ⟨fetched, run, second, -⟩ := next_transfer first.mounted run (read 5) right
  have outside : ¬ 0x400000#32 < (fetched.halDisk 0).numSectors := by
    rw [second.halDisk, first.halDisk]
    decide
  have far : OffsetRight fetched (sectorCall halCallDiskRead 0x400000) 0 :=
    .beyond outside (by decide)
  obtain ⟨now, run, third, -⟩ := next_transfer second.mounted run (read 0x400000) far
  obtain ⟨store, served⟩ := disk_isSectors Files.calls_act firstImage_apart eightSectors_mounted run
    (by
      rw [List.forall_mem_cons, List.forall_mem_cons, List.forall_mem_singleton]
      exact ⟨far, right, near rfl rfl _⟩)
  have fails := (served [] _ _ rfl).failed fun here => outside here.2
  exact ⟨_, now, run, rfl, fails.1, store⟩

/-- A write to a sector whose byte offset, cut to 32 bits, is that of sector 0. -/
def farCall : GuestCall := sectorCall halCallDiskWrite 0x800000

/-- The disk has eight sectors, but sector 0x800000 can be written, and that is sector 0. -/
theorem disk_notSectors :
    (eightSectors.halDisk 0).Accepted ∧ ∃ next,
      halCall Files.calls (eightSectors.enter farCall) = .ok true next ∧ next.reg genRegEAX = 1 ∧
      next.world.content 0 0 = 0xff ∧ eightSectors.world.content 0 0 = 0 := by
  have disk : (eightSectors.enter farCall).reg genRegEAX ∈ diskCalls := by decide
  -- the byte offset is 0, as for sector 0
  have sought : Files.calls.lseek 5 (farCall.genReg genRegECX <<< 9).toInt eightSectors.world =
      (0, eightSectors.world.moveTo 5 0 0) := rfl
  have opened : (eightSectors.world.moveTo 5 0 0).opened 5 = some ⟨0, 0⟩ := rfl
  obtain ⟨next, run, done, files, -⟩ :=
    writeSector_stores Files.calls_act opened eightSectors farCall
  have seeks := @halDiskTransfer_seeks _ Files.calls farCall 0 (writeSector Files.calls) eightSectors
    (by decide) rfl
  refine ⟨by decide, next, halCall_disk disk ?_, done, ?_, rfl⟩
  · show halDiskTransfer Files.calls (writeSector Files.calls) (eightSectors.enter farCall) = _
    rw [seeks]
    show (if (Files.calls.lseek 5 (farCall.genReg genRegECX <<< 9).toInt eightSectors.world).1 < 0
      then _ else _) = _
    rw [sought, if_neg (by decide)]
    exact run
  · have content : next.world.content 0 = splice (fun _ => 0) 0 (slice farCall.mem 0 sectorSize) := by
      have stored := congrArg (fun now : Files => now.content 0) files
      rw [Files.moveTo_content, Files.store_content] at stored
      exact stored
    have inside : 0 < (slice farCall.mem 0 sectorSize).length := by
      rw [slice_length]
      decide
    have first : splice (fun _ => 0) 0 (slice farCall.mem 0 sectorSize) (0 + 0) =
        (slice farCall.mem 0 sectorSize)[0] := splice_inside inside
    rw [content, first]
    simp [slice, farCall, sectorCall]

end
end Plex86
