import Plex86.Hal.Uses
import Plex86.Logic.Run

namespace Plex86

open Logic

section
variable {World : Type} {host : HostCalls World} {hal : Hal World}

theorem putWords_uses (offset : Nat) (words : List Bit32u) (hal : Hal World) :
    ∃ mem touched, putWords offset words hal = .ok () { hal with mem, touched } ∧
      hal.Uses { hal with mem, touched } (Stretch offset (4 * words.length)) := by
  induction words generalizing offset hal with
  | nil =>
      refine ⟨hal.mem, hal.touched, rfl, ?_⟩
      exact (Hal.Uses.nothing rfl rfl).congr fun place => (stretch_empty offset place).symm
  | cons word rest inductionHypothesis =>
      obtain ⟨mem, touched, run, uses⟩ := inductionHypothesis (offset + 4) (hal.putWord offset word)
      refine ⟨mem, touched, run, ?_⟩
      have both := (hal.putWord_uses offset word).append uses
      rwa [show 4 * (word :: rest).length = 4 + 4 * rest.length by simp; omega]

/-- How many units `HalCallDiskGetInfo` reports on: all up to the first whose
image cannot be opened. -/
def reportedUnits (host : HostCalls World) (halDisk : Fin halDiskMaxDisks → HalDisk) :
    List (Fin halDiskMaxDisks) → World → Nat
  | [], _ => 0
  | unit :: rest, world =>
      if (halDisk unit).enabled = 0 then 1 + reportedUnits host halDisk rest world
      else
        let (fileNo, world) := host.openFile (halDisk unit).pathName world
        if 0 ≤ fileNo then 1 + reportedUnits host halDisk rest world else 1

/-- Two tables of units that tell the same units to be open to the same images. -/
def SameImages (halDisk other : Fin halDiskMaxDisks → HalDisk) : Prop :=
  ∀ unit, (other unit).enabled = (halDisk unit).enabled ∧
    (other unit).pathName = (halDisk unit).pathName

theorem sameImages_fileNo (halDisk : Fin halDiskMaxDisks → HalDisk) (unit : Fin halDiskMaxDisks)
    (fileNo : Int) :
    SameImages halDisk (Function.update halDisk unit { halDisk unit with fileNo }) := by
  intro other
  by_cases same : other = unit
  · subst same
    rw [Function.update_self]
    exact ⟨rfl, rfl⟩
  · rw [Function.update_of_ne same]
    exact ⟨rfl, rfl⟩

private theorem reportedUnits_congr {halDisk other : Fin halDiskMaxDisks → HalDisk}
    (same : SameImages halDisk other) (units : List (Fin halDiskMaxDisks)) (world : World) :
    reportedUnits host other units world = reportedUnits host halDisk units world := by
  induction units generalizing world with
  | nil => rfl
  | cons unit rest inductionHypothesis =>
      simp only [reportedUnits, (same unit).1, (same unit).2, inductionHypothesis]

/-- The entry of one unit is written, whether its image is opened or not. -/
theorem halDiskOpenUnit_uses (host : HostCalls World) (infoPAddr : Nat) (unit : Fin halDiskMaxDisks) (hal : Hal World) :
    ∃ opened next, halDiskOpenUnit host infoPAddr unit hal = .ok opened next ∧
      hal.Uses next (Stretch (infoPAddr + 20 * unit) 20) ∧
      SameImages hal.halDisk next.halDisk ∧
      ∀ rest, reportedUnits host hal.halDisk (unit :: rest) hal.world =
        if opened then 1 + reportedUnits host hal.halDisk rest next.world else 1 := by
  by_cases off : (hal.halDisk unit).enabled = 0
  · have uses := hal.put_uses (infoPAddr + 20 * unit) (List.replicate 20 0)
    rw [List.length_replicate] at uses
    refine ⟨true, (hal.put (infoPAddr + 20 * unit) (List.replicate 20 0)).setFileNo unit (-1), ?_,
      uses.quiet rfl rfl, sameImages_fileNo hal.halDisk unit (-1), ?_⟩
    · rw [halDiskOpenUnit, get_bind_apply, if_neg (not_not.mpr off)]
      rfl
    · intro rest
      rw [reportedUnits, if_pos off, if_pos rfl]
      rfl
  · obtain ⟨mem, touched, run, uses⟩ :=
      putWords_uses (infoPAddr + 20 * unit) (hal.halDisk unit).info hal
    let opened := host.openFile (hal.halDisk unit).pathName hal.world
    refine ⟨decide (0 ≤ opened.1),
      Hal.setFileNo { hal with mem, touched, world := opened.2 } unit opened.1, ?_,
      uses.quiet rfl rfl, sameImages_fileNo hal.halDisk unit opened.1, ?_⟩
    · rw [halDiskOpenUnit, get_bind_apply, if_pos off]
      show (putWords (infoPAddr + 20 * unit) (hal.halDisk unit).info >>= _) hal = _
      rw [bind_apply, run]
      rfl
    · intro rest
      rw [reportedUnits, if_neg off]
      simp only [decide_eq_true_eq]
      rfl

/-- The entries of the units reported on are written, one behind the other. -/
theorem halDiskOpenUnits_uses (host : HostCalls World) (infoPAddr first : Nat) (units : List (Fin halDiskMaxDisks))
    (inOrder : units.map Fin.val = List.range' first units.length) (hal : Hal World) :
    ∃ opened next, halDiskOpenUnits host infoPAddr units hal = .ok opened next ∧
      hal.Uses next (Stretch (infoPAddr + 20 * first)
        (20 * reportedUnits host hal.halDisk units hal.world)) := by
  induction units generalizing first hal with
  | nil =>
      refine ⟨true, hal, rfl, (Hal.Uses.nothing rfl rfl).congr fun place => ?_⟩
      exact (stretch_empty _ place).symm
  | cons unit rest inductionHypothesis =>
      rw [List.map_cons, List.length_cons, List.range'_succ, List.cons.injEq] at inOrder
      obtain ⟨opened, middle, entry, uses, same, reported⟩ :=
        halDiskOpenUnit_uses host infoPAddr unit hal
      rw [inOrder.1] at uses
      rw [reported]
      cases opened with
      | false =>
          refine ⟨false, middle, ?_, uses⟩
          rw [halDiskOpenUnits, bind_apply, entry]
          rfl
      | true =>
          obtain ⟨opened, next, entries, others⟩ := inductionHypothesis (first + 1) inOrder.2 middle
          rw [reportedUnits_congr same] at others
          refine ⟨opened, next, ?_, ?_⟩
          · rw [halDiskOpenUnits, bind_apply, entry]
            exact entries
          · rw [if_pos rfl, Nat.mul_add]
            exact uses.append others

/-- `HalCallDiskGetInfo` refuses an address too near to the end of guest memory
for one entry, and otherwise writes an entry for each unit reported on. -/
theorem halDiskGetInfo_uses (host : HostCalls World) (hal : Hal World) :
    ∃ next, halDiskGetInfo host hal = .ok () next ∧
      hal.Uses next (if hal.memSize - sizeofHalDiskInfo ≤ hal.reg genRegEBX then Nothing
        else Stretch (hal.reg genRegEBX).toNat
          (20 * reportedUnits host hal.halDisk (List.finRange halDiskMaxDisks) hal.world)) := by
  by_cases refused : hal.memSize - sizeofHalDiskInfo ≤ hal.reg genRegEBX
  · rw [if_pos refused, halDiskGetInfo, get_bind_apply, if_pos refused]
    exact halFail_uses host hal
  · obtain ⟨opened, middle, entries, uses⟩ := halDiskOpenUnits_uses host
      (hal.reg genRegEBX).toNat 0 (List.finRange halDiskMaxDisks) (by decide) hal
    rw [if_neg refused, halDiskGetInfo, get_bind_apply, if_neg refused, bind_apply, entries]
    cases opened with
    | true => exact ⟨middle, rfl, uses⟩
    | false =>
        obtain ⟨next, failed, quiet⟩ := halFail_uses host middle
        exact ⟨next, failed, uses.trans quiet |>.congr fun place => by simp [Nothing]⟩

/-- The image that a transfer goes to, and the world after the seek; `none`
where the checks or the seek fail. -/
def transferImage (host : HostCalls World) (hal : Hal World) : Option (Int × World) :=
  if hal.memSize - 512 ≤ hal.reg genRegEBX then none
  else if known : (hal.reg genRegEDX).toNat < halDiskMaxDisks then
    let fileNo := (hal.halDisk ⟨_, known⟩).fileNo
    let sought := host.lseek fileNo (hal.reg genRegECX <<< 9).toInt hal.world
    if sought.1 < 0 then none else some (fileNo, sought.2)
  else none

/-- How much guest memory a transfer uses, when `moved` bytes go from or to an image. -/
def transferLength (host : HostCalls World) (moved : Int × World → Nat) (hal : Hal World) : Nat :=
  match transferImage host hal with
  | none => 0
  | some image => moved image

private theorem halDiskTransfer_uses {transfer : Int → Nat → HalM World Bool}
    {moved : Int × World → Nat}
    (moves : ∀ fileNo offset (hal : Hal World), ∃ done next,
      transfer fileNo offset hal = .ok done next ∧
        hal.Uses next (Stretch offset (moved (fileNo, hal.world)))) (hal : Hal World) :
    ∃ next, halDiskTransfer host transfer hal = .ok () next ∧
      hal.Uses next (Stretch (hal.reg genRegEBX).toNat (transferLength host moved hal)) := by
  have nothing : ∀ {next : Hal World}, hal.Uses next Nothing →
      hal.Uses next (Stretch (hal.reg genRegEBX).toNat 0) :=
    fun quiet => quiet.congr fun place => (stretch_empty _ place).symm
  unfold transferLength transferImage
  rw [halDiskTransfer, get_bind_apply]
  by_cases far : hal.memSize - 512 ≤ hal.reg genRegEBX
  · obtain ⟨next, failed, quiet⟩ := halFail_uses host hal
    rw [if_pos far, if_pos far]
    exact ⟨next, failed, nothing quiet⟩
  rw [if_neg far, if_neg far]
  by_cases known : (hal.reg genRegEDX).toNat < halDiskMaxDisks
  · rw [dif_pos known, dif_pos known, systemCall_bind_apply]
    let fileNo := (hal.halDisk ⟨_, known⟩).fileNo
    let sought := host.lseek fileNo (hal.reg genRegECX <<< 9).toInt hal.world
    by_cases fails : sought.1 < 0
    · obtain ⟨next, failed, quiet⟩ := halFail_uses host { hal with world := sought.2 }
      rw [if_pos fails, if_pos fails]
      refine ⟨next, failed, nothing ?_⟩
      exact ⟨quiet.memSize, quiet.touches⟩
    rw [if_neg fails, if_neg fails]
    obtain ⟨done, middle, transferred, uses⟩ :=
      moves fileNo (hal.reg genRegEBX).toNat { hal with world := sought.2 }
    have used : hal.Uses middle (Stretch (hal.reg genRegEBX).toNat (moved (fileNo, sought.2))) :=
      ⟨uses.memSize, uses.touches⟩
    rw [bind_apply, transferred]
    cases done with
    | true => exact ⟨middle.setReg genRegEAX 1, rfl, used.quiet rfl rfl⟩
    | false =>
        obtain ⟨next, failed, quiet⟩ := halFail_uses host middle
        refine ⟨next, failed, (used.trans quiet).congr fun place => ?_⟩
        exact or_iff_left id
  · obtain ⟨next, failed, quiet⟩ := halFail_uses host hal
    rw [dif_neg known, dif_neg known]
    exact ⟨next, failed, nothing quiet⟩

/-- How many bytes `read()` delivers for a sector. -/
def deliveredBytes (host : HostCalls World) (image : Int × World) : Nat :=
  match (host.read image.1 sectorSize image.2).1 with
  | .data bytes _ => bytes.length
  | .failed _ => 0

private theorem halDiskWrite_uses (host : HostCalls World) (hal : Hal World) :
    ∃ next, halDiskWrite host hal = .ok () next ∧ hal.Uses next
      (Stretch (hal.reg genRegEBX).toNat (transferLength host (fun _ => sectorSize) hal)) := by
  apply halDiskTransfer_uses
  intro fileNo offset hal
  exact ⟨_, _, rfl, (hal.touch_uses offset sectorSize).quiet rfl rfl⟩

private theorem halDiskRead_uses (host : HostCalls World) (hal : Hal World) :
    ∃ next, halDiskRead host hal = .ok () next ∧ hal.Uses next
      (Stretch (hal.reg genRegEBX).toNat (transferLength host (deliveredBytes host) hal)) := by
  apply halDiskTransfer_uses
  intro fileNo offset hal
  rw [readSector, systemCall_bind_apply, deliveredBytes]
  cases (host.read fileNo sectorSize hal.world).1 with
  | data bytes fits =>
      refine ⟨_, _, rfl, ?_⟩
      have put := Hal.put_uses { hal with world := (host.read fileNo sectorSize hal.world).2 }
        offset bytes
      exact ⟨put.memSize, put.touches⟩
  | failed errno =>
      have quiet : hal.Uses
          { hal with world := (host.read fileNo sectorSize hal.world).2 } Nothing :=
        .nothing rfl rfl
      exact ⟨false, _, rfl, quiet.congr fun place => (stretch_empty offset place).symm⟩

private theorem halDiskClose_uses (host : HostCalls World) (units : List (Fin halDiskMaxDisks))
    (hal : Hal World) :
    ∃ next, halDiskClose host units hal = .ok () next ∧ hal.Uses next Nothing := by
  induction units generalizing hal with
  | nil => exact ⟨hal, rfl, .nothing rfl rfl⟩
  | cons unit rest inductionHypothesis =>
      rw [halDiskClose, get_bind_apply]
      split
      · obtain ⟨next, closed, quiet⟩ := inductionHypothesis
          { hal with world := (host.close (hal.halDisk unit).fileNo hal.world).2 }
        exact ⟨next, closed, ⟨quiet.memSize, quiet.touches⟩⟩
      · exact inductionHypothesis hal

/-- The calls that the disk serves. -/
def diskCalls : List Bit32u :=
  [halCallDiskGetInfo, halCallDiskWrite, halCallDiskRead, halCallDiskCleanup]

/-- The guest memory that a disk call would use lies inside guest memory, unless
the call is refused before it uses any. -/
structure DiskCallFits (host : HostCalls World) (hal : Hal World) : Prop where
  /-- The entries of all units reported on fit, not only the first. -/
  getInfo : hal.reg genRegEAX = halCallDiskGetInfo →
    hal.memSize - sizeofHalDiskInfo ≤ hal.reg genRegEBX ∨
      (hal.reg genRegEBX).toNat +
          20 * reportedUnits host hal.halDisk (List.finRange halDiskMaxDisks) hal.world ≤
        hal.memSize.toNat
  write : hal.reg genRegEAX = halCallDiskWrite →
    transferLength host (fun _ => sectorSize) hal = 0 ∨
      (hal.reg genRegEBX).toNat + transferLength host (fun _ => sectorSize) hal ≤ hal.memSize.toNat
  read : hal.reg genRegEAX = halCallDiskRead →
    transferLength host (deliveredBytes host) hal = 0 ∨
      (hal.reg genRegEBX).toNat + transferLength host (deliveredBytes host) hal ≤ hal.memSize.toNat

/-- A disk call is served by the disk. -/
theorem halCall_disk_apply (disk : hal.reg genRegEAX ∈ diskCalls) :
    halCall host hal = (halDiskCall host (hal.reg genRegEAX) >>= fun _ => pure true) hal := by
  have net : ¬ (hal.reg genRegEAX = halCallNetGuestRegDev ∨ hal.reg genRegEAX = halCallNetGuestTx) := by
    rintro (same | same) <;> rw [same] at disk <;> exact absurd disk (by decide)
  have con : ¬ (hal.reg genRegEAX = halCallConGuestRegDev ∨
      hal.reg genRegEAX = halCallConGuestWrite) := by
    rintro (same | same) <;> rw [same] at disk <;> exact absurd disk (by decide)
  have known : hal.reg genRegEAX = halCallDiskGetInfo ∨ hal.reg genRegEAX = halCallDiskWrite ∨
      hal.reg genRegEAX = halCallDiskRead ∨ hal.reg genRegEAX = halCallDiskCleanup := by
    simpa [diskCalls] using disk
  rw [halCall, get_bind_apply, if_neg net, if_neg con, if_pos known]

theorem halCall_disk (disk : hal.reg genRegEAX ∈ diskCalls) {next : Hal World}
    (run : halDiskCall host (hal.reg genRegEAX) hal = .ok () next) :
    halCall host hal = .ok true next := by
  rw [halCall_disk_apply disk, bind_apply, run]
  rfl

private theorem reportedUnits_pos (host : HostCalls World) (units : List (Fin halDiskMaxDisks))
    (some : units ≠ [])
    (halDisk : Fin halDiskMaxDisks → HalDisk) (world : World) :
    0 < reportedUnits host halDisk units world := by
  cases units with
  | nil => exact absurd rfl some
  | cons unit rest =>
      unfold reportedUnits
      split
      · omega
      · dsimp only
        split <;> omega

/-- A disk call uses what it uses inside guest memory exactly when it fits. -/
theorem diskCall_uses (host : HostCalls World) (hal : Hal World) (disk : hal.reg genRegEAX ∈ diskCalls) :
    ∃ next region, halCall host hal = .ok true next ∧ hal.Uses next region ∧
      ((∀ place, region place → place < hal.memSize.toNat) ↔ DiskCallFits host hal) := by
  have number : hal.reg genRegEAX = halCallDiskGetInfo ∨ hal.reg genRegEAX = halCallDiskWrite ∨
      hal.reg genRegEAX = halCallDiskRead ∨ hal.reg genRegEAX = halCallDiskCleanup := by
    simpa [diskCalls] using disk
  rcases number with same | same | same | same
  · obtain ⟨next, run, uses⟩ := halDiskGetInfo_uses host hal
    refine ⟨next, _, halCall_disk disk (by rw [same]; exact run), uses, ?_⟩
    have some := reportedUnits_pos host (List.finRange halDiskMaxDisks) (by decide)
      hal.halDisk hal.world
    constructor
    · intro inside
      refine ⟨fun _ => ?_, fun other => ?_, fun other => ?_⟩
      · by_cases refused : hal.memSize - sizeofHalDiskInfo ≤ hal.reg genRegEBX
        · exact .inl refused
        · rw [if_neg refused, stretch_below] at inside
          exact .inr (inside.resolve_left (by omega))
      · exact absurd (same.symm.trans other) (by decide)
      · exact absurd (same.symm.trans other) (by decide)
    · intro fits
      by_cases refused : hal.memSize - sizeofHalDiskInfo ≤ hal.reg genRegEBX
      · rw [if_pos refused]
        exact fun place used => used.elim
      · rw [if_neg refused, stretch_below]
        exact .inr ((fits.getInfo same).resolve_left refused)
  · obtain ⟨next, run, uses⟩ := halDiskWrite_uses host hal
    refine ⟨next, _, halCall_disk disk (by rw [same]; exact run), uses, ?_⟩
    rw [stretch_below]
    constructor
    · intro inside
      exact ⟨fun other => absurd (same.symm.trans other) (by decide), fun _ => inside,
        fun other => absurd (same.symm.trans other) (by decide)⟩
    · intro fits
      exact fits.write same
  · obtain ⟨next, run, uses⟩ := halDiskRead_uses host hal
    refine ⟨next, _, halCall_disk disk (by rw [same]; exact run), uses, ?_⟩
    rw [stretch_below]
    constructor
    · intro inside
      exact ⟨fun other => absurd (same.symm.trans other) (by decide),
        fun other => absurd (same.symm.trans other) (by decide), fun _ => inside⟩
    · intro fits
      exact fits.read same
  · obtain ⟨middle, run, quiet⟩ :=
      halDiskClose_uses host (List.finRange halDiskMaxDisks) hal
    have cleanup : halDiskCall host halCallDiskCleanup hal = .ok () (middle.setReg genRegEAX 1) := by
      show (halDiskClose host (List.finRange halDiskMaxDisks) >>= fun _ => halSuccess) hal = _
      rw [bind_apply, run]
      rfl
    refine ⟨middle.setReg genRegEAX 1, Nothing, halCall_disk disk (by rw [same]; exact cleanup),
      quiet.quiet rfl rfl, ?_⟩
    refine iff_of_true (fun place used => used.elim) ⟨?_, ?_, ?_⟩
    · intro other
      exact absurd (same.symm.trans other) (by decide)
    · intro other
      exact absurd (same.symm.trans other) (by decide)
    · intro other
      exact absurd (same.symm.trans other) (by decide)

/-- The guest makes a disk call. -/
def DiskStep (host : HostCalls World) (hal : Hal World) (call : GuestCall) (next : Hal World) :
    Prop :=
  call.genReg genRegEAX ∈ diskCalls ∧ halCall host (hal.enter call) = .ok true next

/-- The disk calls stay inside guest memory as long as each of them fits. -/
theorem diskCalls_inside {past : List (Moment (Hal World) GuestCall)} {now : Hal World}
    (run : Run (fun hal => hal.touched = []) (DiskStep host) past now) :
    (∀ place, now.Touches place → place < now.memSize.toNat) ↔
      ∀ moment ∈ past, DiskCallFits host (moment.before.enter moment.event) := by
  induction run with
  | start untouched =>
      constructor
      · intro _ moment member
        simp at member
      · intro _ place used
        obtain ⟨touch, member, _⟩ := used
        rw [untouched] at member
        simp at member
  | @next past now later call earlier taken inductionHypothesis =>
      obtain ⟨next, region, called, uses, fits⟩ :=
        diskCall_uses host (now.enter call) taken.1
      have same : next = later := by
        have both := called.symm.trans taken.2
        cases both
        rfl
      subst same
      have size : next.memSize = now.memSize := uses.memSize
      have before : ∀ place, (now.enter call).Touches place ↔ now.Touches place := fun _ => Iff.rfl
      have all := uses.below now.memSize.toNat
      simp only [before] at all
      rw [size, all, inductionHypothesis, List.forall_mem_cons]
      exact and_congr_left' fits

/-- A machine with four megabytes and no disks. -/
def disklessHal : Hal Unit where
  world := ()
  memSize := 0x400000

/-- A guest that asks for the table of its disks at an address. -/
def getInfoCall (infoPAddr : Bit32u) : GuestCall where
  genReg := Function.update (Function.update (fun _ => 0) genRegEAX halCallDiskGetInfo)
    genRegEBX infoPAddr

/-- A table at the start of guest memory is inside. -/
theorem diskCalls_inside_sample :
    let now := Logic.ends (halCall .failing) (disklessHal.enter (getInfoCall 0))
    ∀ place, now.Touches place → place < 0x400000 := by
  have run : Run (fun hal => hal.touched = []) (DiskStep .failing)
      [⟨disklessHal, getInfoCall 0,
        Logic.ends (halCall .failing) (disklessHal.enter (getInfoCall 0))⟩]
      (Logic.ends (halCall .failing) (disklessHal.enter (getInfoCall 0))) :=
    .next (.start rfl) ⟨by decide, rfl⟩
  refine (diskCalls_inside run).mpr ?_
  rintro moment member
  rw [List.mem_singleton.mp member]
  refine ⟨fun _ => .inr (by decide), fun other => ?_, fun other => ?_⟩
  · exact absurd other (by decide)
  · exact absurd other (by decide)

/-- Only the first entry of the table is checked to lie inside. -/
theorem diskCalls_outside :
    ∃ past now, Run (fun hal => hal = disklessHal) (DiskStep .failing) past now ∧
      ∃ place, now.Touches place ∧ now.memSize.toNat ≤ place := by
  obtain ⟨next, region, called, uses, fits⟩ :=
    diskCall_uses .failing (disklessHal.enter (getInfoCall 0x3fffeb)) (by decide)
  have outside : ¬ DiskCallFits .failing (disklessHal.enter (getInfoCall 0x3fffeb)) := by
    intro all
    exact absurd (all.getInfo rfl) (by decide)
  obtain ⟨place, used, above⟩ : ∃ place, region place ∧ ¬ place < disklessHal.memSize.toNat := by
    by_contra none
    push Not at none
    exact outside (fits.mp none)
  refine ⟨_, next, .next (.start rfl) ⟨by decide, called⟩, place, ?_, ?_⟩
  · exact (uses.touches place).mpr (.inl used)
  · rw [uses.memSize]
    exact Nat.le_of_not_lt above

end
end Plex86
