import Plex86.Hal.DiskBounds

namespace Plex86

open Logic

/-- What the process does with a descriptor. -/
inductive FileCall
  | opened (pathName : List Char) (fileNo : Int)
  /-- By `lseek()`, `read()` or `write()`. -/
  | used (fileNo : Int)
  | closed (fileNo : Int)
deriving DecidableEq

/-- The descriptor was returned when the file was opened, and has not been closed
since. The calls are listed newest first. -/
def Held : List FileCall → List Char → Int → Prop
  | [], _, _ => False
  | .opened name opened :: log, pathName, fileNo =>
      (name = pathName ∧ opened = fileNo) ∨ Held log pathName fileNo
  | .used _ :: log, pathName, fileNo => Held log pathName fileNo
  | .closed closed :: log, pathName, fileNo => closed ≠ fileNo ∧ Held log pathName fileNo

section
variable {World : Type}

/-- The answer of a call, with what the log becomes by it. -/
def logged {Answer : Type} (log : List FileCall) (answer : Answer × World) :
    Answer × World × List FileCall :=
  (answer.1, answer.2, log)

/-- The host, and the log of what is done with descriptors there. -/
def traced (host : HostCalls World) : HostCalls (World × List FileCall) where
  openFile pathName now :=
    let answer := host.openFile pathName now.1
    logged (if 0 ≤ answer.1 then .opened pathName answer.1 :: now.2 else now.2) answer
  lseek fileNo offset now := logged (.used fileNo :: now.2) (host.lseek fileNo offset now.1)
  write fileNo bytes now := logged (.used fileNo :: now.2) (host.write fileNo bytes now.1)
  read fileNo size now := logged (.used fileNo :: now.2) (host.read fileNo size now.1)
  close fileNo now := logged (.closed fileNo :: now.2) (host.close fileNo now.1)
  ioctl fileNo request now := logged now.2 (host.ioctl fileNo request now.1)

/-- The process, with the log of its descriptors. -/
abbrev TracedHal (World : Type) := Hal (World × List FileCall)

/-- A unit's image is open under the unit's descriptor. -/
def Hal.HoldsImage (hal : TracedHal World) (unit : Fin halDiskMaxDisks) : Prop :=
  Held hal.world.2 (hal.halDisk unit).pathName (hal.halDisk unit).fileNo

/-- How the host numbers descriptors: one that is open is not returned again, and
stays open until it is closed. -/
structure Descriptors (host : HostCalls World) (isOpen : World → Int → Prop) : Prop where
  opened : ∀ pathName world, 0 ≤ (host.openFile pathName world).1 →
    ¬ isOpen world (host.openFile pathName world).1 ∧
      isOpen (host.openFile pathName world).2 (host.openFile pathName world).1
  openFile : ∀ pathName world other, isOpen world other →
    isOpen (host.openFile pathName world).2 other
  lseek : ∀ fileNo offset world other, isOpen world other →
    isOpen (host.lseek fileNo offset world).2 other
  write : ∀ fileNo bytes world other, isOpen world other →
    isOpen (host.write fileNo bytes world).2 other
  read : ∀ fileNo size world other, isOpen world other →
    isOpen (host.read fileNo size world).2 other
  ioctl : ∀ fileNo request world other, isOpen world other →
    isOpen (host.ioctl fileNo request world).2 other
  close : ∀ fileNo world other, other ≠ fileNo → isOpen world other →
    isOpen (host.close fileNo world).2 other

/-- The module has nothing to write out when its device is closed, so that closing
the open device does not fail. -/
def DeviceCloses (host : HostCalls World) (isOpen : World → Int → Prop) (device : Int) : Prop :=
  ∀ world, isOpen world device → (host.close device world).1 ≠ -1

/-- What a disk call may do with a descriptor, where `log` tells what was done before. -/
def Permitted (start : TracedHal World) (log : List FileCall) : FileCall → Prop
  | .opened pathName _ => ∃ unit, pathName = (start.halDisk unit).pathName
  | .used fileNo => ∃ unit : Fin halDiskMaxDisks, (start.reg genRegEDX).toNat = unit ∧
      Held log (start.halDisk unit).pathName fileNo
  | .closed fileNo => (∃ unit, Held log (start.halDisk unit).pathName fileNo) ∨
      -- `plex86TearDown` closes the VM device.
      fileNo = start.plex86FD ∧ ∀ pathName, ¬ Held log pathName fileNo

/-- The log has grown by nothing but what is permitted. -/
inductive Grows (permitted : List FileCall → FileCall → Prop) (log : List FileCall) :
    List FileCall → Prop
  | same : Grows permitted log log
  | step {later : List FileCall} {call : FileCall} :
      Grows permitted log later → permitted later call → Grows permitted log (call :: later)

/-- No image is open but under the descriptor of a unit. -/
def Owned (hal : TracedHal World) : Prop :=
  ∀ pathName fileNo, Held hal.world.2 pathName fileNo →
    ∃ unit, (hal.halDisk unit).pathName = pathName ∧ (hal.halDisk unit).fileNo = fileNo

/-- What the calls before have made of the descriptor of a unit. -/
inductive UnitFile
  /-- It is 0, as `halDisk` starts out. -/
  | unset
  /-- It is negative: the unit is not enabled, or its image could not be opened. -/
  | none
  | opened
  /-- It is the number of an image that has been closed. -/
  | closed
deriving DecidableEq

abbrev UnitFiles := Fin halDiskMaxDisks → UnitFile

namespace UnitFiles

/-- The units are opened, up to the first for which `open()` fails. -/
def getInfo (host : HostCalls World) (halDisk : Fin halDiskMaxDisks → HalDisk) :
    List (Fin halDiskMaxDisks) → World → UnitFiles → UnitFiles
  | [], _, files => files
  | unit :: rest, world, files =>
      if (halDisk unit).enabled = 0 then
        getInfo host halDisk rest world (Function.update files unit .none)
      else if 0 ≤ (host.openFile (halDisk unit).pathName world).1 then
        getInfo host halDisk rest (host.openFile (halDisk unit).pathName world).2
          (Function.update files unit .opened)
      else Function.update files unit .none

/-- The images that are open are closed. -/
def cleanup : List (Fin halDiskMaxDisks) → UnitFiles → UnitFiles
  | [], files => files
  | unit :: rest, files =>
      cleanup rest (if files unit = .opened then Function.update files unit .closed else files)

/-- What a call makes of the descriptors. -/
def call (host : HostCalls World) (hal : TracedHal World) (files : UnitFiles) : UnitFiles :=
  if hal.reg genRegEAX = halCallDiskGetInfo then
    if hal.memSize - sizeofHalDiskInfo ≤ hal.reg genRegEBX then files
    else files.getInfo host hal.halDisk (List.finRange halDiskMaxDisks) hal.world.1
  else if hal.reg genRegEAX = halCallDiskCleanup then
    files.cleanup (List.finRange halDiskMaxDisks)
  else files

/-- What all calls since the start have made of them, the newest first. -/
def calls (host : HostCalls World) : List (Moment (TracedHal World) GuestCall) → UnitFiles
  | [] => fun _ => .unset
  | moment :: older => (calls host older).call host (moment.before.enter moment.event)

private theorem getInfo_congr {host : HostCalls World}
    {halDisk other : Fin halDiskMaxDisks → HalDisk}
    (same : SameImages halDisk other) (units : List (Fin halDiskMaxDisks)) (world : World)
    (files : UnitFiles) :
    getInfo host other units world files = getInfo host halDisk units world files := by
  induction units generalizing world files with
  | nil => rfl
  | cons unit rest inductionHypothesis =>
      simp only [getInfo, (same unit).1, (same unit).2, inductionHypothesis]

end UnitFiles

theorem SameImages.trans {first second third : Fin halDiskMaxDisks → HalDisk}
    (begun : SameImages first second) (finished : SameImages second third) :
    SameImages first third := by
  intro unit
  exact ⟨(finished unit).1.trans (begun unit).1, (finished unit).2.trans (begun unit).2⟩

/-- The descriptors are what the calls have made of them. -/
structure Reflects (files : UnitFiles) (hal : TracedHal World) : Prop where
  none : ∀ unit, files unit = .none → (hal.halDisk unit).fileNo < 0
  opened : ∀ unit, files unit = .opened → hal.HoldsImage unit
  apart : ∀ unit other, files unit = .opened → files other = .opened →
    (hal.halDisk unit).fileNo = (hal.halDisk other).fileNo → unit = other
  owned : ∀ pathName fileNo, Held hal.world.2 pathName fileNo → ∃ unit, files unit = .opened ∧
    (hal.halDisk unit).pathName = pathName ∧ (hal.halDisk unit).fileNo = fileNo

/-- What is known of the descriptors since a call began. -/
structure Tracks (isOpen : World → Int → Prop) (device : Int) (start : TracedHal World)
    (files : UnitFiles) (hal : TracedHal World) : Prop where
  grows : Grows (Permitted start) start.world.2 hal.world.2
  images : SameImages start.halDisk hal.halDisk
  plex86FD : hal.plex86FD = start.plex86FD ∨ hal.plex86FD < 0
  device : hal.plex86FD < 0 ∨ hal.plex86FD = device ∧ isOpen hal.world.1 device
  held : ∀ pathName fileNo, Held hal.world.2 pathName fileNo →
    isOpen hal.world.1 fileNo ∧ 0 ≤ fileNo ∧ fileNo ≠ hal.plex86FD
  files : Reflects files hal

section
variable {host : HostCalls World} {isOpen : World → Int → Prop} {device : Int}
variable {start hal next : TracedHal World} {files : UnitFiles} {unit : Fin halDiskMaxDisks}

/-- The descriptors and the log are all that counts. -/
theorem Reflects.same (reflects : Reflects files hal) (log : next.world.2 = hal.world.2)
    (disks : next.halDisk = hal.halDisk) : Reflects files next := by
  constructor
  · rw [disks]
    exact reflects.none
  · intro unit opened
    rw [Hal.HoldsImage, log, disks]
    exact reflects.opened unit opened
  · rw [disks]
    exact reflects.apart
  · rw [log, disks]
    exact reflects.owned

/-- A descriptor that is no image's is closed. -/
theorem Reflects.closeOther (reflects : Reflects files hal) {fileNo : Int}
    (other : ∀ pathName, ¬ Held hal.world.2 pathName fileNo)
    (log : next.world.2 = .closed fileNo :: hal.world.2) (disks : next.halDisk = hal.halDisk) :
    Reflects files next := by
  constructor
  · rw [disks]
    exact reflects.none
  · intro unit opened
    have held : Held hal.world.2 (hal.halDisk unit).pathName (hal.halDisk unit).fileNo :=
      reflects.opened unit opened
    rw [Hal.HoldsImage, log, disks]
    exact ⟨fun same => other _ (same ▸ held), held⟩
  · rw [disks]
    exact reflects.apart
  · intro pathName fileNo held
    rw [log] at held
    rw [disks]
    exact reflects.owned pathName fileNo held.2

/-- A unit without an image is given a descriptor. -/
theorem Reflects.setFileNo (reflects : Reflects files hal) (unopened : files unit ≠ .opened)
    (fileNo : Int) (file : UnitFile) (other : file ≠ .opened) (negative : file = .none → fileNo < 0) :
    Reflects (Function.update files unit file) (hal.setFileNo unit fileNo) := by
  have differs {place : Fin halDiskMaxDisks} (opened : Function.update files unit file place = .opened) :
      place ≠ unit := by
    rintro rfl
    rw [Function.update_self] at opened
    exact other opened
  have kept {place : Fin halDiskMaxDisks} (apart : place ≠ unit) :
      (hal.setFileNo unit fileNo).halDisk place = hal.halDisk place := Function.update_of_ne apart ..
  constructor
  · intro place none
    by_cases same : place = unit
    · subst same
      rw [Function.update_self] at none
      show (Function.update hal.halDisk place _ place).fileNo < 0
      rw [Function.update_self]
      exact negative none
    · rw [Function.update_of_ne same] at none
      rw [kept same]
      exact reflects.none place none
  · intro place opened
    have apart := differs opened
    rw [Function.update_of_ne apart] at opened
    rw [Hal.HoldsImage, kept apart]
    exact reflects.opened place opened
  · intro first second firstOpened secondOpened
    have firstApart := differs firstOpened
    have secondApart := differs secondOpened
    rw [Function.update_of_ne firstApart] at firstOpened
    rw [Function.update_of_ne secondApart] at secondOpened
    rw [kept firstApart, kept secondApart]
    exact reflects.apart first second firstOpened secondOpened
  · intro pathName number held
    obtain ⟨owner, opened, same⟩ := reflects.owned pathName number held
    have apart : owner ≠ unit := fun same => unopened (same ▸ opened)
    refine ⟨owner, (Function.update_of_ne apart ..).trans opened, ?_⟩
    rw [kept apart]
    exact same

/-- The image of a unit is opened under the unit's descriptor, which no other image has. -/
theorem Reflects.openImage (reflects : Reflects files hal) (unopened : files unit ≠ .opened)
    (fresh : ∀ pathName, ¬ Held hal.world.2 pathName (hal.halDisk unit).fileNo)
    (log : next.world.2 =
      .opened (hal.halDisk unit).pathName (hal.halDisk unit).fileNo :: hal.world.2)
    (disks : next.halDisk = hal.halDisk) :
    Reflects (Function.update files unit .opened) next := by
  have before {place : Fin halDiskMaxDisks} (apart : place ≠ unit)
      (opened : Function.update files unit .opened place = .opened) : files place = .opened :=
    (Function.update_of_ne apart ..).symm.trans opened
  have alone {place : Fin halDiskMaxDisks} (apart : place ≠ unit)
      (opened : Function.update files unit .opened place = .opened) :
      (hal.halDisk place).fileNo ≠ (hal.halDisk unit).fileNo := by
    intro same
    have held := reflects.opened place (before apart opened)
    rw [Hal.HoldsImage, same] at held
    exact fresh _ held
  constructor
  · intro place none
    have apart : place ≠ unit := by
      rintro rfl
      rw [Function.update_self] at none
      cases none
    rw [disks]
    exact reflects.none place ((Function.update_of_ne apart ..).symm.trans none)
  · intro place opened
    rw [Hal.HoldsImage, log, disks]
    by_cases same : place = unit
    · subst same
      exact .inl ⟨rfl, rfl⟩
    · exact .inr (reflects.opened place (before same opened))
  · intro first second firstOpened secondOpened same
    rw [disks] at same
    by_cases here : first = unit
    · by_cases there : second = unit
      · exact here.trans there.symm
      · exact (alone there secondOpened (same.symm.trans (here ▸ rfl))).elim
    · by_cases there : second = unit
      · exact (alone here firstOpened (same.trans (there ▸ rfl))).elim
      · exact reflects.apart first second (before here firstOpened) (before there secondOpened) same
  · intro pathName number held
    rw [log] at held
    rw [disks]
    rcases held with here | there
    · exact ⟨unit, Function.update_self .., here⟩
    · obtain ⟨owner, opened, same⟩ := reflects.owned pathName number there
      have apart : owner ≠ unit := fun same => unopened (same ▸ opened)
      exact ⟨owner, (Function.update_of_ne apart ..).trans opened, same⟩

/-- The image of a unit is closed. -/
theorem Reflects.closeImage (reflects : Reflects files hal) (opened : files unit = .opened)
    (log : next.world.2 = .closed (hal.halDisk unit).fileNo :: hal.world.2)
    (disks : next.halDisk = hal.halDisk) :
    Reflects (Function.update files unit .closed) next := by
  have before {place : Fin halDiskMaxDisks}
      (still : Function.update files unit .closed place = .opened) :
      place ≠ unit ∧ files place = .opened := by
    by_cases same : place = unit
    · subst same
      rw [Function.update_self] at still
      cases still
    · rw [Function.update_of_ne same] at still
      exact ⟨same, still⟩
  constructor
  · intro place none
    have apart : place ≠ unit := by
      rintro rfl
      rw [Function.update_self] at none
      cases none
    rw [disks]
    exact reflects.none place ((Function.update_of_ne apart ..).symm.trans none)
  · intro place still
    obtain ⟨apart, earlier⟩ := before still
    rw [Hal.HoldsImage, log, disks]
    exact ⟨fun same => apart (reflects.apart unit place opened earlier same).symm,
      reflects.opened place earlier⟩
  · intro first second firstOpened secondOpened same
    rw [disks] at same
    exact reflects.apart first second (before firstOpened).2 (before secondOpened).2 same
  · intro pathName number held
    rw [log] at held
    obtain ⟨owner, earlier, path, same⟩ := reflects.owned pathName number held.2
    have apart : owner ≠ unit := by
      rintro rfl
      exact held.1 same
    rw [disks]
    exact ⟨owner, (Function.update_of_ne apart ..).trans earlier, path, same⟩

namespace Tracks

/-- Nothing is done with descriptors. -/
theorem quiet (tracks : Tracks isOpen device start files hal)
    (others : ∀ other, isOpen hal.world.1 other → isOpen next.world.1 other)
    (log : next.world.2 = hal.world.2) (disks : next.halDisk = hal.halDisk)
    (fd : next.plex86FD = hal.plex86FD) : Tracks isOpen device start files next := by
  refine ⟨log ▸ tracks.grows, disks ▸ tracks.images, fd ▸ tracks.plex86FD, ?_, ?_,
    tracks.files.same log disks⟩
  · rw [fd]
    exact tracks.device.imp_right fun ⟨same, opened⟩ => ⟨same, others _ opened⟩
  · intro pathName fileNo held
    rw [log] at held
    obtain ⟨opened, differs⟩ := tracks.held pathName fileNo held
    exact ⟨others _ opened, differs.1, fd ▸ differs.2⟩

theorem used (tracks : Tracks isOpen device start files hal) {world : World} {fileNo : Int}
    (permitted : Permitted start hal.world.2 (.used fileNo))
    (others : ∀ other, isOpen hal.world.1 other → isOpen world other) :
    Tracks isOpen device start files { hal with world := (world, .used fileNo :: hal.world.2) } := by
  have reflects := tracks.files
  refine ⟨.step tracks.grows permitted, tracks.images, tracks.plex86FD, ?_, ?_, ?_⟩
  · exact tracks.device.imp_right fun ⟨same, before⟩ => ⟨same, others device before⟩
  · intro pathName other held
    obtain ⟨before, differs⟩ := tracks.held pathName other held
    exact ⟨others _ before, differs⟩
  · exact ⟨reflects.none, reflects.opened, reflects.apart, reflects.owned⟩

/-- A unit without an image is given a descriptor. -/
theorem setFileNo (tracks : Tracks isOpen device start files hal) (unopened : files unit ≠ .opened)
    (fileNo : Int) (file : UnitFile) (other : file ≠ .opened) (negative : file = .none → fileNo < 0) :
    Tracks isOpen device start (Function.update files unit file) (hal.setFileNo unit fileNo) :=
  ⟨tracks.grows, tracks.images.trans (sameImages_fileNo hal.halDisk unit fileNo), tracks.plex86FD,
    tracks.device, tracks.held, tracks.files.setFileNo unopened fileNo file other negative⟩

end Tracks

variable (descriptors : Descriptors host isOpen) (closes : DeviceCloses host isOpen device)
include descriptors

/-- The VM device is closed, which is no image. -/
theorem Tracks.closeDevice (tracks : Tracks isOpen device start files hal)
    (opened : 0 ≤ hal.plex86FD) :
    Tracks isOpen device start files { hal with
      world := ((traced host).close hal.plex86FD hal.world).2, plex86FD := -1 } := by
  have negative : (-1 : Int) < 0 := by decide
  have none : ∀ pathName, ¬ Held hal.world.2 pathName hal.plex86FD :=
    fun pathName held => (tracks.held pathName _ held).2.2 rfl
  have same : hal.plex86FD = start.plex86FD := tracks.plex86FD.resolve_right (by omega)
  refine ⟨.step tracks.grows (.inr ⟨same, none⟩), tracks.images, .inr negative, .inl negative, ?_,
    tracks.files.closeOther none rfl rfl⟩
  intro pathName fileNo held
  obtain ⟨still, positive, -⟩ := tracks.held pathName fileNo held.2
  refine ⟨descriptors.close _ _ _ held.1.symm still, positive, ?_⟩
  show fileNo ≠ -1
  omega

include closes

private theorem closeVmDevice_tracks (tracks : Tracks isOpen device start files hal)
    (opened : 0 ≤ hal.plex86FD) :
    ∃ closed next, closeVmDevice (traced host) hal = .ok closed next ∧
      Tracks isOpen device start files next := by
  simp only [closeVmDevice, get_bind_apply, systemCall_bind_apply, Logic.ite_apply,
    modify_bind_apply]
  obtain ⟨isDevice, -⟩ := tracks.device.resolve_left (by omega)
  let unregistered := (traced host).ioctl hal.plex86FD .unregisterMemory hal.world
  have first : Tracks isOpen device start files { hal with world := unregistered.2 } :=
    tracks.quiet (fun other => descriptors.ioctl _ _ _ other) rfl rfl rfl
  by_cases failed : unregistered.1 = -1
  · rw [if_pos failed]
    exact ⟨_, _, rfl, first⟩
  rw [if_neg failed]
  let tornDown := (traced host).ioctl hal.plex86FD .teardown unregistered.2
  have second : Tracks isOpen device start files
      { hal with world := tornDown.2, memRegistered := false } :=
    first.quiet (fun other => descriptors.ioctl _ _ _ other) rfl rfl rfl
  by_cases refused : tornDown.1 < 0
  · rw [if_pos refused]
    exact ⟨_, _, rfl, second⟩
  rw [if_neg refused, if_neg]
  · exact ⟨_, _, rfl, second.closeDevice descriptors opened⟩
  · have still := (second.device.resolve_left (Int.not_lt.mpr opened)).2
    have succeeds : (host.close hal.plex86FD tornDown.2.1).1 ≠ -1 := by
      rw [isDevice]
      exact closes tornDown.2.1 still
    exact succeeds

private theorem halFail_tracks (tracks : Tracks isOpen device start files hal) :
    ∃ next, halFail (traced host) hal = .ok () next ∧ Tracks isOpen device start files next := by
  have begun : Tracks isOpen device start files (hal.setReg genRegEAX 0) :=
    tracks.quiet (fun _ opened => opened) rfl rfl rfl
  rw [halFail, modify_bind_apply, plex86TearDown, get_bind_apply]
  by_cases closed : (hal.setReg genRegEAX 0).plex86FD < 0
  · rw [if_pos closed]
    exact ⟨_, rfl, begun.quiet (fun _ opened => opened) rfl rfl rfl⟩
  rw [if_neg closed, bind_apply]
  obtain ⟨done, next, run, after⟩ :=
    closeVmDevice_tracks descriptors closes begun (Int.not_lt.mp closed)
  rw [run]
  cases done with
  | false => exact ⟨next, rfl, after⟩
  | true => exact ⟨freeGuestMemory next, rfl, after.quiet (fun _ opened => opened) rfl rfl rfl⟩

omit closes

/-- The image of a unit is opened under the descriptor that the unit is given. -/
theorem Tracks.openImage (tracks : Tracks isOpen device start files hal)
    (unopened : files unit ≠ .opened)
    (given : (hal.halDisk unit).fileNo =
      (host.openFile (hal.halDisk unit).pathName hal.world.1).1)
    (positive : 0 ≤ (hal.halDisk unit).fileNo) :
    Tracks isOpen device start (Function.update files unit .opened) { hal with
      world := ((traced host).openFile (hal.halDisk unit).pathName hal.world).2 } := by
  let pathName := (hal.halDisk unit).pathName
  obtain ⟨closed, opened⟩ := descriptors.opened pathName hal.world.1 (given ▸ positive)
  rw [← given] at closed opened
  have log : ((traced host).openFile pathName hal.world).2.2 =
      .opened pathName (hal.halDisk unit).fileNo :: hal.world.2 := by
    rw [given] at positive ⊢
    exact if_pos positive
  have fresh : ∀ name, ¬ Held hal.world.2 name (hal.halDisk unit).fileNo :=
    fun name held => closed (tracks.held name _ held).1
  refine ⟨?_, tracks.images, tracks.plex86FD, ?_, ?_,
    tracks.files.openImage unopened fresh log rfl⟩
  · show Grows _ _ ((traced host).openFile pathName hal.world).2.2
    rw [log]
    exact .step tracks.grows ⟨unit, (tracks.images unit).2⟩
  · exact tracks.device.imp_right fun ⟨same, before⟩ =>
      ⟨same, descriptors.openFile pathName _ _ before⟩
  · intro name fileNo held
    change Held ((traced host).openFile pathName hal.world).2.2 name fileNo at held
    rw [log] at held
    rcases held with ⟨-, same⟩ | before
    · subst same
      refine ⟨opened, positive, ?_⟩
      rcases tracks.device with negative | ⟨isDevice, still⟩
      · show (hal.halDisk unit).fileNo ≠ hal.plex86FD
        omega
      · intro same
        exact closed (by rw [same]; exact isDevice ▸ still)
    · obtain ⟨still, differs⟩ := tracks.held name fileNo before
      exact ⟨descriptors.openFile pathName _ _ still, differs⟩

/-- One unit is opened, or is not enabled. -/
theorem halDiskOpenUnit_tracks (infoPAddr : Nat) (unopened : files unit ≠ .opened)
    (tracks : Tracks isOpen device start files hal) :
    ∃ opened next file, halDiskOpenUnit (traced host) infoPAddr unit hal = .ok opened next ∧
      Tracks isOpen device start (Function.update files unit file) next ∧
      SameImages hal.halDisk next.halDisk ∧
      ∀ rest, files.getInfo host hal.halDisk (unit :: rest) hal.world.1 =
        if opened then
          UnitFiles.getInfo host hal.halDisk rest next.world.1 (Function.update files unit file)
        else Function.update files unit file := by
  rw [halDiskOpenUnit, get_bind_apply]
  by_cases enabled : (hal.halDisk unit).enabled ≠ 0
  · obtain ⟨mem, touched, run, -⟩ :=
      putWords_uses (infoPAddr + sizeofHalDiskInfo.toNat * unit) (hal.halDisk unit).info hal
    rw [if_pos enabled, bind_apply, run]
    let fileNo := (host.openFile (hal.halDisk unit).pathName hal.world.1).1
    have stored : Tracks isOpen device start files { hal with mem, touched } :=
      tracks.quiet (fun _ opened => opened) rfl rfl rfl
    have number : (Hal.setFileNo { hal with mem, touched } unit fileNo).halDisk unit =
        { hal.halDisk unit with fileNo } := Function.update_self ..
    have images := sameImages_fileNo hal.halDisk unit fileNo
    let answered : TracedHal World := Hal.setFileNo { hal with
      mem, touched, world := ((traced host).openFile (hal.halDisk unit).pathName hal.world).2 }
        unit fileNo
    by_cases positive : 0 ≤ fileNo
    · have given := stored.setFileNo unopened fileNo .unset (by decide) fun other =>
        UnitFile.noConfusion other
      have unset : Function.update files unit .unset unit ≠ .opened := by
        rw [Function.update_self]
        decide
      have opened := given.openImage descriptors unset (by rw [number]; rfl)
        (by rw [number]; exact positive)
      rw [number, Function.update_idem] at opened
      refine ⟨decide (0 ≤ fileNo), answered, .opened, rfl, opened, images, fun rest => ?_⟩
      rw [UnitFiles.getInfo, if_neg enabled, if_pos positive, if_pos (decide_eq_true positive)]
      rfl
    · have given := stored.setFileNo unopened fileNo .none (by decide)
        fun _ => Int.not_le.mp positive
      have log : ((traced host).openFile (hal.halDisk unit).pathName hal.world).2.2 =
          hal.world.2 := if_neg positive
      have still : Tracks isOpen device start (Function.update files unit .none) answered :=
        given.quiet (fun _ => descriptors.openFile _ _ _) log rfl rfl
      refine ⟨decide (0 ≤ fileNo), answered, .none, rfl, still, images, fun rest => ?_⟩
      rw [UnitFiles.getInfo, if_neg enabled, if_neg positive, if_neg (by simpa using positive)]
  · have stored : Tracks isOpen device start files
        (hal.put (infoPAddr + sizeofHalDiskInfo.toNat * unit)
          (List.replicate sizeofHalDiskInfo.toNat 0)) :=
      tracks.quiet (fun _ opened => opened) rfl rfl rfl
    have given := stored.setFileNo unopened (-1) .none (by decide) fun _ => by decide
    rw [if_neg enabled]
    refine ⟨true, _, .none, rfl, given, sameImages_fileNo hal.halDisk unit (-1), fun rest => ?_⟩
    rw [UnitFiles.getInfo, if_pos (not_not.mp enabled), if_pos rfl]
    rfl

private theorem halDiskOpenUnits_tracks (infoPAddr : Nat) {units : List (Fin halDiskMaxDisks)}
    (distinct : units.Nodup) (unopened : ∀ unit ∈ units, files unit ≠ .opened)
    (tracks : Tracks isOpen device start files hal) :
    ∃ opened next, halDiskOpenUnits (traced host) infoPAddr units hal = .ok opened next ∧
      Tracks isOpen device start (files.getInfo host hal.halDisk units hal.world.1) next := by
  induction units generalizing hal files with
  | nil => exact ⟨true, hal, rfl, tracks⟩
  | cons unit rest inductionHypothesis =>
      obtain ⟨fresh, distinct⟩ := List.nodup_cons.mp distinct
      obtain ⟨closed, others⟩ := List.forall_mem_cons.mp unopened
      obtain ⟨opened, middle, file, run, after, images, made⟩ :=
        halDiskOpenUnit_tracks descriptors infoPAddr closed tracks
      rw [halDiskOpenUnits, bind_apply, run, made]
      cases opened with
      | false => exact ⟨false, middle, rfl, after⟩
      | true =>
          have still : ∀ other ∈ rest, Function.update files unit file other ≠ .opened := by
            intro other member
            have apart : other ≠ unit := by
              rintro rfl
              exact fresh member
            rw [Function.update_of_ne apart]
            exact others other member
          obtain ⟨opened, next, entries, reached⟩ := inductionHypothesis distinct still after
          rw [UnitFiles.getInfo_congr images] at reached
          exact ⟨opened, next, entries, reached⟩

include closes

private theorem halDiskGetInfo_tracks (begun : Tracks isOpen device start files start)
    (ready : ¬ start.memSize - sizeofHalDiskInfo ≤ start.reg genRegEBX →
      ∀ unit, files unit ≠ .opened) :
    ∃ next, halDiskGetInfo (traced host) start = .ok () next ∧
      Tracks isOpen device start (if start.memSize - sizeofHalDiskInfo ≤ start.reg genRegEBX
        then files else files.getInfo host start.halDisk (List.finRange halDiskMaxDisks)
          start.world.1) next := by
  rw [halDiskGetInfo, get_bind_apply]
  by_cases refused : start.memSize - sizeofHalDiskInfo ≤ start.reg genRegEBX
  · rw [if_pos refused, if_pos refused]
    exact halFail_tracks descriptors closes begun
  obtain ⟨opened, middle, run, after⟩ := halDiskOpenUnits_tracks descriptors
    (start.reg genRegEBX).toNat (List.nodup_finRange halDiskMaxDisks)
    (fun unit _ => ready refused unit) begun
  rw [if_neg refused, if_neg refused, bind_apply, run]
  cases opened with
  | true => exact ⟨middle, rfl, after⟩
  | false => exact halFail_tracks descriptors closes after

/-- What reading and writing a sector have in common. -/
theorem halDiskTransfer_tracks {transfer : Int → Nat → HalM (World × List FileCall) Bool}
    (moves : ∀ fileNo offset {hal : TracedHal World}, Tracks isOpen device start files hal →
      Permitted start hal.world.2 (.used fileNo) →
        ∃ done next, transfer fileNo offset hal = .ok done next ∧
          Tracks isOpen device start files next)
    (begun : Tracks isOpen device start files start)
    (ready : ¬ start.memSize - 512 ≤ start.reg genRegEBX →
      ∀ unit : Fin halDiskMaxDisks, (start.reg genRegEDX).toNat = unit → files unit = .opened) :
    ∃ next, halDiskTransfer (traced host) transfer start = .ok () next ∧
      Tracks isOpen device start files next := by
  rw [halDiskTransfer, get_bind_apply]
  by_cases far : start.memSize - 512 ≤ start.reg genRegEBX
  · rw [if_pos far]
    exact halFail_tracks descriptors closes begun
  rw [if_neg far]
  by_cases known : (start.reg genRegEDX).toNat < halDiskMaxDisks
  · have permitted : Permitted start start.world.2 (.used (start.halDisk ⟨_, known⟩).fileNo) :=
      ⟨⟨_, known⟩, rfl, begun.files.opened ⟨_, known⟩ (ready far ⟨_, known⟩ rfl)⟩
    rw [dif_pos known, systemCall_bind_apply]
    let sought := (traced host).lseek (start.halDisk ⟨_, known⟩).fileNo
      (start.reg genRegECX <<< 9).toInt start.world
    have after : Tracks isOpen device start files { start with world := sought.2 } :=
      begun.used permitted fun _ => descriptors.lseek _ _ _ _
    by_cases fails : sought.1 < 0
    · rw [if_pos fails]
      exact halFail_tracks descriptors closes after
    obtain ⟨done, middle, run, moved⟩ := moves (start.halDisk ⟨_, known⟩).fileNo
      (start.reg genRegEBX).toNat after permitted
    rw [if_neg fails, bind_apply, run]
    cases done with
    | true =>
        refine ⟨middle.setReg genRegEAX 1, rfl, ?_⟩
        exact moved.quiet (fun _ opened => opened) rfl rfl rfl
    | false => exact halFail_tracks descriptors closes moved
  · rw [dif_neg known]
    exact halFail_tracks descriptors closes begun

omit closes

private theorem writeSector_tracks (fileNo : Int) (offset : Nat) {hal : TracedHal World}
    (tracks : Tracks isOpen device start files hal)
    (permitted : Permitted start hal.world.2 (.used fileNo)) :
    ∃ done next, writeSector (traced host) fileNo offset hal = .ok done next ∧
      Tracks isOpen device start files next := by
  have read : Tracks isOpen device start files (hal.touch offset sectorSize) :=
    tracks.quiet (fun _ opened => opened) rfl rfl rfl
  exact ⟨_, _, rfl, read.used permitted fun _ => descriptors.write _ _ _ _⟩

private theorem readSector_tracks (fileNo : Int) (offset : Nat) {hal : TracedHal World}
    (tracks : Tracks isOpen device start files hal)
    (permitted : Permitted start hal.world.2 (.used fileNo)) :
    ∃ done next, readSector (traced host) fileNo offset hal = .ok done next ∧
      Tracks isOpen device start files next := by
  let answer := (traced host).read fileNo sectorSize hal.world
  have after : Tracks isOpen device start files { hal with world := answer.2 } :=
    tracks.used permitted fun _ => descriptors.read _ _ _ _
  cases delivered : answer.1 with
  | data bytes fits =>
      refine ⟨_, _, readSector_data (traced host) delivered, ?_⟩
      exact after.quiet (fun _ opened => opened) rfl rfl rfl
  | failed errno => exact ⟨_, _, readSector_failed (traced host) delivered, after⟩

/-- The image of a unit is closed. -/
theorem Tracks.closeImage (tracks : Tracks isOpen device start files hal)
    (opened : files unit = .opened) :
    Tracks isOpen device start (Function.update files unit .closed) { hal with
      world := ((traced host).close (hal.halDisk unit).fileNo hal.world).2 } := by
  have held := tracks.files.opened unit opened
  have notDevice := (tracks.held _ _ held).2.2
  have permitted : Permitted start hal.world.2 (.closed (hal.halDisk unit).fileNo) :=
    .inl ⟨unit, (tracks.images unit).2 ▸ held⟩
  refine ⟨.step tracks.grows permitted, tracks.images, tracks.plex86FD, ?_, ?_,
    tracks.files.closeImage opened rfl rfl⟩
  · refine tracks.device.imp_right fun ⟨same, before⟩ => ⟨same, ?_⟩
    exact descriptors.close _ _ _ (same ▸ notDevice.symm) before
  · intro pathName fileNo still
    obtain ⟨before, differs⟩ := tracks.held pathName fileNo still.2
    exact ⟨descriptors.close _ _ _ still.1.symm before, differs⟩

private theorem halDiskClose_tracks {units : List (Fin halDiskMaxDisks)} (distinct : units.Nodup)
    (ready : ∀ unit ∈ units, files unit = .opened ∨ files unit = .none)
    (tracks : Tracks isOpen device start files hal) :
    ∃ next, halDiskClose (traced host) units hal = .ok () next ∧
      Tracks isOpen device start (files.cleanup units) next := by
  induction units generalizing hal files with
  | nil => exact ⟨hal, rfl, tracks⟩
  | cons unit rest inductionHypothesis =>
      obtain ⟨fresh, distinct⟩ := List.nodup_cons.mp distinct
      obtain ⟨here, others⟩ := List.forall_mem_cons.mp ready
      rw [halDiskClose, get_bind_apply, UnitFiles.cleanup]
      rcases here with opened | none
      · have positive := (tracks.held _ _ (tracks.files.opened unit opened)).2.1
        rw [if_pos positive, if_pos opened, systemCall_bind_apply]
        refine inductionHypothesis distinct ?_ (tracks.closeImage descriptors opened)
        intro other member
        have apart : other ≠ unit := by
          rintro rfl
          exact fresh member
        rw [Function.update_of_ne apart]
        exact others other member
      · have negative := Int.not_le.mpr (tracks.files.none unit none)
        rw [if_neg negative, if_neg (by rw [none]; decide)]
        exact inductionHypothesis distinct others tracks

omit descriptors

/-- A call that takes the images to be open or closed as the calls before have left
them. -/
structure FilesReady (files : UnitFiles) (hal : TracedHal World) : Prop where
  /-- The images are opened while none of them is open. -/
  getInfo : hal.reg genRegEAX = halCallDiskGetInfo →
    ¬ hal.memSize - sizeofHalDiskInfo ≤ hal.reg genRegEBX → ∀ unit, files unit ≠ .opened
  /-- A unit is read or written while its image is open. -/
  transfer : hal.reg genRegEAX = halCallDiskWrite ∨ hal.reg genRegEAX = halCallDiskRead →
    ¬ hal.memSize - 512 ≤ hal.reg genRegEBX →
      ∀ unit : Fin halDiskMaxDisks, (hal.reg genRegEDX).toNat = unit → files unit = .opened
  /-- The images are closed while each unit's is open, but those that were not opened. -/
  cleanup : hal.reg genRegEAX = halCallDiskCleanup →
    ∀ unit, files unit = .opened ∨ files unit = .none

/-- Every call of a run does so, the newest first. -/
def CallsReady (host : HostCalls World) : List (Moment (TracedHal World) GuestCall) → Prop
  | [] => True
  | moment :: older =>
      FilesReady (UnitFiles.calls host older) (moment.before.enter moment.event) ∧
        CallsReady host older

include descriptors closes

private theorem diskCall_tracks (begun : Tracks isOpen device start files start)
    (disk : start.reg genRegEAX ∈ diskCalls) (ready : FilesReady files start) :
    ∃ next, halCall (traced host) start = .ok true next ∧
      Tracks isOpen device start (files.call host start) next := by
  have number : start.reg genRegEAX = halCallDiskGetInfo ∨
      start.reg genRegEAX = halCallDiskWrite ∨ start.reg genRegEAX = halCallDiskRead ∨
        start.reg genRegEAX = halCallDiskCleanup := by
    simpa [diskCalls] using disk
  rw [UnitFiles.call]
  rcases number with same | same | same | same
  · obtain ⟨next, run, after⟩ := halDiskGetInfo_tracks descriptors closes begun (ready.getInfo same)
    rw [if_pos same]
    exact ⟨next, halCall_disk disk (by rw [same]; exact run), after⟩
  · obtain ⟨next, run, after⟩ := halDiskTransfer_tracks descriptors closes
      (writeSector_tracks descriptors) begun (ready.transfer (.inl same))
    have write : halDiskWrite (traced host) start = .ok () next := run
    rw [if_neg (by rw [same]; decide), if_neg (by rw [same]; decide)]
    exact ⟨next, halCall_disk disk (by rw [same]; exact write), after⟩
  · obtain ⟨next, run, after⟩ := halDiskTransfer_tracks descriptors closes
      (readSector_tracks descriptors) begun (ready.transfer (.inr same))
    have read : halDiskRead (traced host) start = .ok () next := run
    rw [if_neg (by rw [same]; decide), if_neg (by rw [same]; decide)]
    exact ⟨next, halCall_disk disk (by rw [same]; exact read), after⟩
  · obtain ⟨middle, run, after⟩ := halDiskClose_tracks descriptors
      (List.nodup_finRange halDiskMaxDisks) (fun unit _ => ready.cleanup same unit) begun
    have cleanup : halDiskCall (traced host) halCallDiskCleanup start =
        .ok () (middle.setReg genRegEAX 1) := by
      show (halDiskClose (traced host) (List.finRange halDiskMaxDisks) >>= fun _ => halSuccess)
        start = _
      rw [bind_apply, run]
      rfl
    rw [if_neg (by rw [same]; decide), if_pos same]
    refine ⟨_, halCall_disk disk (by rw [same]; exact cleanup), ?_⟩
    exact after.quiet (fun _ opened => opened) rfl rfl rfl

omit descriptors closes

/-- The state that `halDiskInit` leaves, with any of the units enabled. The VM device
is open. -/
structure FilesStart (isOpen : World → Int → Prop) (device : Int) (hal : TracedHal World) :
    Prop where
  log : hal.world.2 = []
  fileNo : ∀ unit, (hal.halDisk unit).fileNo = 0
  plex86FD : hal.plex86FD = device
  device : isOpen hal.world.1 device

private theorem FilesStart.tracks (begins : FilesStart isOpen device start) :
    Tracks isOpen device start (fun _ => .unset) start := by
  have none : ∀ pathName fileNo, ¬ Held start.world.2 pathName fileNo := by
    intro pathName fileNo held
    rw [begins.log] at held
    exact held
  refine ⟨.same, fun _ => ⟨rfl, rfl⟩, .inl rfl, .inr ⟨begins.plex86FD, begins.device⟩, ?_, ?_⟩
  · exact fun pathName fileNo held => (none pathName fileNo held).elim
  · constructor
    · exact fun _ other => UnitFile.noConfusion other
    · exact fun _ other => UnitFile.noConfusion other
    · exact fun _ _ other => UnitFile.noConfusion other
    · exact fun pathName fileNo held => (none pathName fileNo held).elim

/-- The next call begins where the last one ended. -/
theorem Tracks.restart (tracks : Tracks isOpen device start files hal) (call : GuestCall) :
    Tracks isOpen device (hal.enter call) files (hal.enter call) :=
  ⟨.same, fun _ => ⟨rfl, rfl⟩, .inl rfl, tracks.device, tracks.held, tracks.files.same rfl rfl⟩

private theorem Tracks.owned (tracks : Tracks isOpen device start files hal) : Owned hal := by
  intro pathName fileNo held
  obtain ⟨unit, -, same⟩ := tracks.files.owned pathName fileNo held
  exact ⟨unit, same⟩

/-- As long as each call takes the images to be open or closed as the calls before it
have left them, a descriptor is used or closed only while it is the unit's, and none is
lost that is open. -/
theorem descriptors_kept (descriptors : Descriptors host isOpen)
    (closes : DeviceCloses host isOpen device)
    {past : List (Moment (TracedHal World) GuestCall)} {now : TracedHal World}
    (run : Run (FilesStart isOpen device) (DiskStep (traced host)) past now)
    (ready : CallsReady host past) :
    (∀ moment ∈ past, Grows (Permitted (moment.before.enter moment.event))
      moment.before.world.2 moment.after.world.2) ∧ Owned now := by
  suffices all : (∀ moment ∈ past, Grows (Permitted (moment.before.enter moment.event))
      moment.before.world.2 moment.after.world.2) ∧
      ∃ start, Tracks isOpen device start (UnitFiles.calls host past) now by
    obtain ⟨grown, start, tracks⟩ := all
    exact ⟨grown, tracks.owned⟩
  induction run with
  | start begins =>
      refine ⟨?_, _, begins.tracks⟩
      exact fun moment member => absurd member List.not_mem_nil
  | @next past now later call earlier taken inductionHypothesis =>
      obtain ⟨grown, start, tracks⟩ := inductionHypothesis ready.2
      obtain ⟨next, called, after⟩ :=
        diskCall_tracks descriptors closes (tracks.restart call) taken.1 ready.1
      obtain rfl : next = later := by
        cases called.symm.trans taken.2
        rfl
      have step : Grows (Permitted (now.enter call)) now.world.2 next.world.2 := after.grows
      exact ⟨List.forall_mem_cons.mpr ⟨step, grown⟩, now.enter call, after⟩

end
end

/-- A host that numbers the descriptors one after another, and writes sectors; its
world is the next number. -/
def numberingHost : HostCalls Int where
  openFile _ next := (next, next + 1)
  lseek _ place next := (place, next)
  write _ _ next := (sectorSize, next)
  read _ _ next := (.data [] (Nat.zero_le _), next)
  close _ next := (0, next)
  ioctl _ _ next := (0, next)

private theorem numberingHost_descriptors :
    Descriptors numberingHost fun next fileNo => fileNo < next where
  opened _ next _ := ⟨Int.lt_irrefl next, Int.lt_succ next⟩
  openFile _ _ _ below := Int.lt_add_one_of_le (Int.le_of_lt below)
  lseek _ _ _ _ below := below
  write _ _ _ _ below := below
  read _ _ _ _ below := below
  ioctl _ _ _ _ below := below
  close _ _ _ _ below := below

/-- A machine with one disk. -/
def oneDisk : TracedHal Int where
  world := (4, [])
  memSize := 0x400000
  plex86FD := 3
  halDisk := Function.update (fun _ => {}) 0 { enabled := 1, pathName := ['h', 'd'] }

private theorem oneDisk_starts : FilesStart (fun next fileNo => fileNo < next) 3 oneDisk where
  log := rfl
  fileNo unit := by
    unfold oneDisk
    by_cases first : unit = 0
    · rw [first]
      rfl
    · simp only [Function.update_of_ne first]
  plex86FD := rfl
  device := by decide

/-- The guest calls the disk with the number of the call in EAX, and EBX, ECX and EDX. -/
def diskCall (eax ebx ecx edx : Bit32u) : GuestCall where
  genReg := Function.update (Function.update (Function.update (Function.update (fun _ => 0)
    genRegEAX eax) genRegEBX ebx) genRegECX ecx) genRegEDX edx

/-- The disk after a call. -/
def afterCall (hal : TracedHal Int) (call : GuestCall) : TracedHal Int :=
  Logic.ends (halCall (traced numberingHost)) (hal.enter call)

private theorem afterCall_step (hal : TracedHal Int) {call : GuestCall}
    (disk : call.genReg genRegEAX ∈ diskCalls) :
    DiskStep (traced numberingHost) hal call (afterCall hal call) := by
  obtain ⟨next, _, run, -⟩ := diskCall_uses (traced numberingHost) (hal.enter call) disk
  rw [afterCall, ends_of_ok run]
  exact ⟨disk, run⟩

/-- The image of the disk is opened, written and closed, and opened again. -/
theorem descriptors_kept_sample :
    let opened := afterCall oneDisk (diskCall halCallDiskGetInfo 0 0 0)
    let written := afterCall opened (diskCall halCallDiskWrite 0 1 0)
    let closed := afterCall written (diskCall halCallDiskCleanup 0 0 0)
    let reopened := afterCall closed (diskCall halCallDiskGetInfo 0 0 0)
    reopened.world.2 = [.opened ['h', 'd'] 5, .closed 4, .used 4, .used 4, .opened ['h', 'd'] 4] ∧
      Owned reopened := by
  intro opened written closed reopened
  have run : Run (FilesStart (fun next fileNo => fileNo < next) 3) (DiskStep (traced numberingHost))
      [⟨closed, diskCall halCallDiskGetInfo 0 0 0, reopened⟩,
        ⟨written, diskCall halCallDiskCleanup 0 0 0, closed⟩,
        ⟨opened, diskCall halCallDiskWrite 0 1 0, written⟩,
        ⟨oneDisk, diskCall halCallDiskGetInfo 0 0 0, opened⟩] reopened :=
    .next (.next (.next (.next (.start oneDisk_starts) (afterCall_step _ (by decide)))
      (afterCall_step _ (by decide))) (afterCall_step _ (by decide))) (afterCall_step _ (by decide))
  have closes : DeviceCloses numberingHost (fun next fileNo => fileNo < next) 3 := by
    intro world _
    show (0 : Int) ≠ -1
    decide
  have log : reopened.world.2 = [.opened ['h', 'd'] 5, .closed 4, .used 4, .used 4,
      .opened ['h', 'd'] 4] := by decide +kernel
  refine ⟨log, (descriptors_kept numberingHost_descriptors closes run ⟨?_, ?_, ?_, ?_, trivial⟩).2⟩
  · refine ⟨fun _ _ => by decide, fun other => absurd other (by decide), fun other => ?_⟩
    exact absurd other (by decide)
  · refine ⟨fun other => absurd other (by decide), fun other => absurd other (by decide), ?_⟩
    exact fun _ => by decide
  · refine ⟨fun other => absurd other (by decide), fun _ _ => by decide, fun other => ?_⟩
    exact absurd other (by decide)
  · refine ⟨fun _ _ => by decide, fun other => absurd other (by decide), fun other => ?_⟩
    exact absurd other (by decide)

/-- A guest that writes to the disk before it asks for the table of its disks has the
process write to its standard input. -/
theorem descriptors_not_kept :
    ∃ past now, Run (FilesStart (fun next fileNo => fileNo < next) 3)
        (DiskStep (traced numberingHost)) past now ∧
      ∃ moment ∈ past, ¬ Grows (Permitted (moment.before.enter moment.event))
        moment.before.world.2 moment.after.world.2 := by
  let writtenDisk := Logic.ends (halCall (traced numberingHost))
    (oneDisk.enter (diskCall halCallDiskWrite 0 1 0))
  have log : writtenDisk.world.2 = [.used 0, .used 0] := rfl
  refine ⟨[⟨oneDisk, diskCall halCallDiskWrite 0 1 0, writtenDisk⟩], writtenDisk,
    .next (.start oneDisk_starts) ⟨by decide, rfl⟩, _, List.mem_singleton_self _, ?_⟩
  intro grown
  rw [log] at grown
  cases grown with
  | step _ permitted =>
      obtain ⟨unit, -, held⟩ := permitted
      exact held

end Plex86
