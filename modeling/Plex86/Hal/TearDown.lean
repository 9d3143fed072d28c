import Plex86.Hal.Call
import Plex86.Logic.Run
import Plex86.Machine.Vm

namespace Plex86

open Logic

/-- Where `executeLinux` is. -/
inductive ExecutePlace
  | executeLoop | ioctl | halCall | tearDown | ended
deriving DecidableEq

structure ExecuteLoop (World : Type) where
  place : ExecutePlace := .executeLoop
  hal : Hal World

/-- What happens next, with what others leave behind meanwhile. -/
inductive ExecuteEvent (World : Type)
  /-- A signal comes from the TUN/TAP device. -/
  | signal (world : World)
  /-- The test of the packet counts; `rounds` bounds the loop that drains packets. -/
  | poll (rounds : Nat)
  /-- `PLEX86_EXECUTE` does not return 0. -/
  | refused (world : World)
  /-- `PLEX86_EXECUTE` returns with a request, after the guest has run. -/
  | executed (request : MonReq) (guestCPU : GuestCpu) (mem : Bytes) (world : World)
  | serve
  | tearDown

/-- Where the loop goes with a request of the monitor. -/
def ExecutePlace.afterRequest : MonReq → ExecutePlace
  | .flushPrintBuf | .redirect | .bogus => .executeLoop
  | .halCall => .halCall
  | _ => .tearDown

section
variable {World : Type} (host : HostCalls World)

/-- The test at the head of the loop. -/
def pollPackets (rounds : Nat) : HalM World Unit := do
  let hal ← get
  if hal.halNetConsumerCount ≠ hal.halNetProducerCount then halNetReadPacketToGuest host rounds 0
  else pure ()

namespace ExecuteLoop

/-- The loop goes on behind a program, unless that ends the process. -/
def after {Value : Type} (place : Value → ExecutePlace)
    (result : EStateM.Result HalStop (Hal World) Value) : ExecuteLoop World :=
  match result with
  | .ok value hal => { place := place value, hal }
  | .error _ hal => { place := .ended, hal }

/-- One step of the loop, or `none` where it cannot be taken. The kernel answers a
request on a closed descriptor with an error. -/
def step (loop : ExecuteLoop World) : ExecuteEvent World → Option (ExecuteLoop World)
  | .signal world =>
      if loop.place = .ended then none
      else some (after (fun _ => loop.place) ( tuntapDev0SigIO { loop.hal with world }))
  | .poll rounds =>
      if loop.place = .executeLoop then
        some (after (fun _ => .ioctl) (pollPackets host rounds loop.hal))
      else none
  | .refused world =>
      if loop.place = .ioctl then some { place := .tearDown, hal := { loop.hal with world } }
      else none
  | .executed request guestCPU mem world =>
      if loop.place = .ioctl ∧ 0 ≤ loop.hal.plex86FD then
        some { place := .afterRequest request, hal := { loop.hal with guestCPU, mem, world } }
      else none
  | .serve =>
      if loop.place = .halCall then
        some (after (fun known => if known then .executeLoop else .tearDown)
          (halCall host loop.hal))
      else none
  | .tearDown =>
      if loop.place = .tearDown then some (after (fun _ => .ended) (plex86TearDown host loop.hal))
      else none

/-- `executeLinux` is entered: the VM device is open, guest memory is allocated and
registered, and no device of the guest is registered yet. -/
structure Starts (loop : ExecuteLoop World) : Prop where
  place : loop.place = .executeLoop
  plex86FD : 0 ≤ loop.hal.plex86FD
  memAllocated : loop.hal.memAllocated = true
  memRegistered : loop.hal.memRegistered = true
  halNetDev : ∀ deviceNo, (loop.hal.halNetDev deviceNo).registered = false
  halConDev : ∀ deviceNo, (loop.hal.halConDev deviceNo).registered = false
  touched : loop.hal.touched = []
  freed : loop.hal.freed = 0

end ExecuteLoop

/-- One step of `executeLinux`. -/
def ExecuteStep (loop : ExecuteLoop World) (event : ExecuteEvent World)
    (later : ExecuteLoop World) : Prop :=
  loop.step host event = some later

end

section
variable {World : Type} {host : HostCalls World} {Value : Type}

/-- Guest memory is freed once at most, and after the VM device is closed, and what
has been used of it was not freed. -/
structure Kept (hal : Hal World) : Prop where
  freed : hal.freed = if hal.memAllocated then 0 else 1
  closed : hal.memAllocated = false → hal.plex86FD < 0
  live : ∀ touch ∈ hal.touched, touch.allocated = true

/-- Guest memory has not been freed. -/
structure Unfreed (hal : Hal World) : Prop extends Kept hal where
  memAllocated : hal.memAllocated = true

namespace Unfreed

variable {hal next : Hal World}

theorem quiet (unfreed : Unfreed hal) (freed : next.freed = hal.freed)
    (allocated : next.memAllocated = hal.memAllocated) (fd : next.plex86FD = hal.plex86FD)
    (touched : next.touched = hal.touched) : Unfreed next := by
  refine ⟨⟨?_, ?_, ?_⟩, allocated.trans unfreed.memAllocated⟩
  · rw [freed, allocated, unfreed.freed]
  · rw [allocated, fd]
    exact unfreed.closed
  · rw [touched]
    exact unfreed.live

theorem touch (unfreed : Unfreed hal) (offset length : Nat) : Unfreed (hal.touch offset length) := by
  refine ⟨⟨unfreed.freed, unfreed.closed, ?_⟩, unfreed.memAllocated⟩
  intro touch member
  rcases List.mem_cons.mp member with rfl | older
  · exact unfreed.memAllocated
  · exact unfreed.live touch older

end Unfreed

/-- The program does not free guest memory, except where it ends the process. -/
def KeepsUnfreed (program : HalM World Value) : Prop :=
  Keeps Unfreed (fun _ => Kept) program

/-- The program may free guest memory, and does not use it from then on. -/
def Finishes (program : HalM World Value) : Prop :=
  Ensures Unfreed program (fun _ => Kept) fun _ => Kept

private theorem KeepsUnfreed.finishes {program : HalM World Value} (keeps : KeepsUnfreed program) :
    Finishes program :=
  Ensures.weaken keeps (fun _ unfreed => unfreed) (fun _ _ unfreed => unfreed.toKept)
    fun _ _ kept => kept

theorem KeepsUnfreed.bind {Next : Type} {program : HalM World Value} {rest : Value → HalM World Next}
    (first : KeepsUnfreed program) (second : ∀ value, Finishes (rest value)) :
    Finishes (program >>= rest) :=
  fun hal unfreed => Ensures.bind first second hal unfreed

private theorem systemCall_unfreed {Answer : Type} (call : World → Answer × World) :
    KeepsUnfreed (systemCall call) :=
  fun _ unfreed => unfreed.quiet rfl rfl rfl rfl

private theorem halSuccess_unfreed : KeepsUnfreed (halSuccess : HalM World Unit) :=
  Keeps.modify fun _ unfreed => unfreed.quiet rfl rfl rfl rfl

private theorem readGuest_unfreed (offset length : Nat) :
    KeepsUnfreed (readGuest offset length : HalM World (List Bit8u)) := by
  refine Keeps.bind (Keeps.modify fun _ unfreed => unfreed.touch offset length) fun _ => ?_
  exact Keeps.get_bind fun _ _ => Keeps.pure

private theorem readGuestWord_unfreed (offset : Nat) :
    KeepsUnfreed (readGuestWord offset : HalM World Bit32u) := by
  refine Keeps.bind (Keeps.modify fun _ unfreed => unfreed.touch offset 4) fun _ => ?_
  exact Keeps.get_bind fun _ _ => Keeps.pure

private theorem deref_unfreed (pointer : Option Nat) :
    KeepsUnfreed (deref pointer : HalM World Nat) := by
  cases pointer with
  | none => exact Keeps.throw fun _ unfreed => unfreed.toKept
  | some offset => exact Keeps.pure

private theorem freeGuestMemory_kept {hal : Hal World} (kept : Kept hal)
    (closed : hal.plex86FD < 0) :
    Kept (freeGuestMemory hal) := by
  refine ⟨?_, fun _ => closed, kept.live⟩
  have freed := kept.freed
  unfold freeGuestMemory
  cases allocated : hal.memAllocated with
  | false => simpa [allocated] using freed
  | true => simpa [allocated] using freed

private theorem systemCall_kept {Answer : Type} (call : World → Answer × World) :
    Keeps Kept (fun _ => Kept) (systemCall call) :=
  fun _ kept => ⟨kept.freed, kept.closed, kept.live⟩

/-- Where the connection to the kernel module is closed, so is its descriptor. -/
theorem closeVmDevice_kept : Ensures Kept (closeVmDevice host)
    (fun closed hal => Kept hal ∧ (closed = true → hal.plex86FD < 0)) fun _ => Kept := by
  have unchanged : Ensures Kept (pure false : HalM World Bool)
      (fun closed hal => Kept hal ∧ (closed = true → hal.plex86FD < 0)) fun _ => Kept :=
    Ensures.pure fun _ kept => ⟨kept, by simp⟩
  refine Ensures.look_bind fun hal _ => ?_
  refine Ensures.bind (systemCall_kept _) fun unregistered => Ensures.ite (fun _ => unchanged) fun _ => ?_
  refine Ensures.bind (Keeps.modify fun _ kept => ⟨kept.freed, kept.closed, kept.live⟩) fun _ => ?_
  refine Ensures.bind (systemCall_kept _) fun tornDown => Ensures.ite (fun _ => unchanged) fun _ => ?_
  refine Ensures.bind (systemCall_kept _) fun closed => Ensures.ite (fun _ => unchanged) fun _ => ?_
  have shut : Ensures Kept (modify fun hal => { hal with plex86FD := -1 } : HalM World Unit)
      (fun _ hal => Kept hal ∧ hal.plex86FD < 0) fun _ => Kept := by
    have negative : (-1 : Int) < 0 := by decide
    exact Ensures.modify fun _ kept => ⟨⟨kept.freed, fun _ => negative, kept.live⟩, negative⟩
  exact Ensures.bind shut fun _ => Ensures.pure fun _ closed => ⟨closed.1, fun _ => closed.2⟩

private theorem plex86TearDown_kept : Keeps Kept (fun _ => Kept) (plex86TearDown host) := by
  refine Ensures.get_bind fun hal kept => Ensures.ite (fun closed => ?_) fun _ => ?_
  · exact Ensures.modify fun _ same => by
      subst same
      exact freeGuestMemory_kept kept closed
  · refine Ensures.bind (Ensures.weaken closeVmDevice_kept ?_ (fun _ _ result => result)
      fun _ _ kept => kept) fun closed => Ensures.ite (fun shut => ?_) fun _ => ?_
    · rintro _ rfl
      exact kept
    · exact Ensures.modify fun _ result => freeGuestMemory_kept result.1 (result.2 shut)
    · exact Ensures.pure fun _ result => result.1

private theorem halFail_finishes : Finishes (halFail host) := by
  refine Ensures.bind (Keeps.modify fun _ unfreed => unfreed.quiet rfl rfl rfl rfl) fun _ => ?_
  exact Ensures.weaken plex86TearDown_kept (fun _ unfreed => unfreed.toKept) (fun _ _ kept => kept)
    fun _ _ kept => kept

private theorem halFailExit_finishes : Finishes (halFailExit host) :=
  Ensures.bind halFail_finishes fun _ => Ensures.throw fun _ kept => kept

private theorem storeChar_unfreed (c : Bit8u) : KeepsUnfreed (storeChar c : HalM World Unit) := by
  refine Keeps.get_bind fun hal _ => Keeps.ite (fun _ => ?_) fun _ => ?_
  · exact Keeps.modify fun _ unfreed => unfreed.quiet rfl rfl rfl rfl
  · exact Keeps.throw fun _ unfreed => unfreed.toKept

private theorem endLine_unfreed : KeepsUnfreed (endLine : HalM World Unit) := by
  refine Keeps.bind (storeChar_unfreed newlineChar) fun _ => ?_
  refine Keeps.bind (storeChar_unfreed 0) fun _ => ?_
  exact Keeps.modify fun _ unfreed => unfreed.quiet rfl rfl rfl rfl

private theorem halConChar_unfreed (c : Bit8u) : KeepsUnfreed (halConChar c : HalM World Unit) := by
  refine Keeps.ite (fun _ => endLine_unfreed) fun _ => ?_
  exact Keeps.ite (fun _ => storeChar_unfreed c) fun _ => storeChar_unfreed 0x20

private theorem txBufferChar_unfreed (bufferI : Nat) :
    KeepsUnfreed (txBufferChar bufferI : HalM World Bit8u) := by
  refine Keeps.get_bind fun hal _ => Keeps.bind (deref_unfreed _) fun area => ?_
  exact Keeps.bind (Keeps.modify fun _ unfreed => unfreed.touch _ 1) fun _ => Keeps.pure

private theorem halConWriteLoop_unfreed (bufferI writeLen : Nat) :
    KeepsUnfreed (halConWriteLoop bufferI writeLen : HalM World Unit) := by
  induction writeLen generalizing bufferI with
  | zero => exact Keeps.pure
  | succ writeLen inductionHypothesis =>
      refine Keeps.bind (Keeps.get_bind fun _ _ => ?_) fun _ => ?_
      · exact Keeps.ite (fun _ => endLine_unfreed) fun _ => Keeps.pure
      refine Keeps.bind (txBufferChar_unfreed bufferI) fun c => ?_
      refine Keeps.bind (halConChar_unfreed c) fun _ => ?_
      exact inductionHypothesis (bufferI + 1)

private theorem halConCall_finishes (callNo : Bit32u) : Finishes (halConCall host callNo) := by
  refine Ensures.ite (fun _ => ?_) fun _ => Ensures.ite (fun _ => ?_) fun _ => halFailExit_finishes
  · refine Ensures.look_bind fun hal _ => ?_
    dsimp only
    split
    · refine Ensures.ite (fun _ => ?_) fun _ => halFailExit_finishes
      refine KeepsUnfreed.bind (Keeps.modify fun _ unfreed => ?_) fun _ => halSuccess_unfreed.finishes
      exact unfreed.quiet rfl rfl rfl rfl
    · exact halFailExit_finishes
  · refine Ensures.look_bind fun hal _ => Ensures.ite (fun _ => halFailExit_finishes) fun _ => ?_
    refine Ensures.ite (fun _ => halFailExit_finishes) fun _ => ?_
    exact (halConWriteLoop_unfreed 0 _).bind fun _ => halSuccess_unfreed.finishes

private theorem halNetSend_finishes (packetPAddr packetLen : Bit32u) :
    Finishes (halNetSend host packetPAddr packetLen) := by
  refine Ensures.look_bind fun hal _ => ?_
  refine (readGuest_unfreed packetPAddr.toNat packetLen.toNat).bind fun bytes => ?_
  refine (systemCall_unfreed _).bind fun ret => ?_
  exact Ensures.ite (fun _ => halSuccess_unfreed.finishes) fun _ => halFailExit_finishes

private theorem halNetCall_finishes (callNo : Bit32u) : Finishes (halNetCall host callNo) := by
  refine Ensures.ite (fun _ => ?_) fun _ => Ensures.ite (fun _ => ?_) fun _ => halFailExit_finishes
  · refine Ensures.look_bind fun hal _ => ?_
    dsimp only
    split
    · refine Ensures.ite (fun _ => ?_) fun _ => halFailExit_finishes
      refine KeepsUnfreed.bind (Keeps.modify fun _ unfreed => ?_) fun _ => halSuccess_unfreed.finishes
      exact unfreed.quiet rfl rfl rfl rfl
    · exact halFailExit_finishes
  · refine Ensures.look_bind fun hal _ => ?_
    dsimp only
    split
    · refine Ensures.ite (fun _ => halFailExit_finishes) fun _ => ?_
      refine Ensures.ite (fun _ => halFailExit_finishes) fun _ => ?_
      refine Ensures.ite (fun _ => halFailExit_finishes) fun _ => ?_
      exact halNetSend_finishes _ _
    · exact halFailExit_finishes

private theorem allPacketsConsumed_unfreed : KeepsUnfreed (allPacketsConsumed : HalM World Unit) :=
  Keeps.modify fun _ unfreed => unfreed.quiet rfl rfl rfl rfl

private theorem halNetPacketStored_unfreed (area packetLen : Nat) :
    KeepsUnfreed (halNetPacketStored area packetLen : HalM World Unit) := by
  have word (offset : Nat) (value : Bit32u) :
      KeepsUnfreed (modify fun hal => hal.putWord offset value : HalM World Unit) :=
    Keeps.modify fun _ unfreed => (unfreed.touch offset 4).quiet rfl rfl rfl rfl
  refine Keeps.bind (word area 1) fun _ => Keeps.bind (word (area + rxBufferLenOffset) _) fun _ => ?_
  exact Keeps.modify fun _ unfreed => unfreed.quiet rfl rfl rfl rfl

private theorem halNetReceive_unfreed (area : Nat) : KeepsUnfreed (halNetReceive host area) := by
  refine Keeps.get_bind fun hal _ => Keeps.bind (systemCall_unfreed _) fun answer => ?_
  cases answer with
  | data bytes fits =>
      refine Keeps.ite (fun _ => allPacketsConsumed_unfreed) fun _ => ?_
      refine Keeps.bind (Keeps.modify fun hal unfreed => ?_) fun _ =>
        halNetPacketStored_unfreed area bytes.length
      exact (unfreed.touch (area + rxBufferOffset) bytes.length).quiet rfl rfl rfl rfl
  | failed errno =>
      cases errno with
      | eagain => exact allPacketsConsumed_unfreed
      | eintr => exact Keeps.pure
      | other => exact Keeps.pure

/-- Draining the packets uses no guest memory, whether that is freed or not. -/
theorem halNetDrain_kept (rounds : Nat) : Keeps Kept (fun _ => Kept) (halNetDrain host rounds) := by
  have consumed : Keeps Kept (fun _ => Kept) (allPacketsConsumed : HalM World Unit) :=
    Keeps.modify fun _ kept => ⟨kept.freed, kept.closed, kept.live⟩
  induction rounds with
  | zero => exact Keeps.throw fun _ kept => kept
  | succ rounds inductionHypothesis =>
      refine Keeps.get_bind fun hal _ => Keeps.bind (systemCall_kept _) fun answer => ?_
      cases answer with
      | data bytes fits => exact Keeps.ite (fun _ => consumed) fun _ => inductionHypothesis
      | failed errno => exact consumed

/-- The packets may be looked for unless guest memory is freed, the counts differ and
the device is registered. -/
def PollsSafely (hal : Hal World) : Prop :=
  hal.memAllocated = false → hal.halNetConsumerCount = hal.halNetProducerCount ∨
    (hal.halNetDev 0).registered = false

instance (hal : Hal World) : Decidable (PollsSafely hal) :=
  inferInstanceAs (Decidable (_ → _))

private theorem pollPackets_kept (rounds : Nat) :
    Ensures (fun hal => Kept hal ∧ PollsSafely hal) (pollPackets host rounds) (fun _ => Kept)
      fun _ => Kept := by
  refine Ensures.get_bind fun hal safe => Ensures.ite (fun differ => ?_) fun _ => ?_
  · refine Ensures.get_bind fun now isNow => ?_
    obtain rfl : now = hal := isNow
    refine Ensures.ite (fun registered => ?_) fun _ => ?_
    · have allocated : now.memAllocated = true := by
        by_contra freed
        rcases safe.2 (Bool.eq_false_iff.mpr freed) with equal | unregistered
        · exact differ equal
        · rw [registered] at unregistered
          exact Bool.noConfusion unregistered
      have stores : KeepsUnfreed (do
          let area ← deref (now.halNetDev 0).guestArea
          if (← readGuestWord area) = 0 then halNetReceive host area else pure ()) := by
        refine Keeps.bind (deref_unfreed _) fun area => ?_
        refine Keeps.bind (readGuestWord_unfreed area) fun full => ?_
        exact Keeps.ite (fun _ => halNetReceive_unfreed area) fun _ => Keeps.pure
      refine Ensures.weaken stores.finishes ?_ (fun _ _ kept => kept) fun _ _ kept => kept
      rintro _ rfl
      exact ⟨safe.1, allocated⟩
    · refine Ensures.weaken (halNetDrain_kept rounds) ?_ (fun _ _ kept => kept) fun _ _ kept => kept
      rintro _ rfl
      exact safe.1
  · exact Ensures.pure fun _ same => same ▸ safe.1

private theorem putWords_unfreed (offset : Nat) (words : List Bit32u) :
    KeepsUnfreed (putWords offset words : HalM World Unit) := by
  induction words generalizing offset with
  | nil => exact Keeps.pure
  | cons word rest inductionHypothesis =>
      refine Keeps.bind (Keeps.modify fun _ unfreed => ?_) fun _ => inductionHypothesis (offset + 4)
      exact (unfreed.touch offset 4).quiet rfl rfl rfl rfl

private theorem setFileNo_unfreed (unit : Fin halDiskMaxDisks) (fileNo : Int) :
    KeepsUnfreed (modify fun hal => hal.setFileNo unit fileNo : HalM World Unit) :=
  Keeps.modify fun _ unfreed => unfreed.quiet rfl rfl rfl rfl

private theorem halDiskOpenUnit_unfreed (infoPAddr : Nat) (unit : Fin halDiskMaxDisks) :
    KeepsUnfreed (halDiskOpenUnit host infoPAddr unit) := by
  refine Keeps.get_bind fun hal _ => Keeps.ite (fun _ => ?_) fun _ => ?_
  · refine Keeps.bind (putWords_unfreed _ _) fun _ => ?_
    refine Keeps.bind (systemCall_unfreed _) fun fileNo => ?_
    exact Keeps.bind (setFileNo_unfreed unit fileNo) fun _ => Keeps.pure
  · refine Keeps.bind (Keeps.modify fun _ unfreed => ?_) fun _ => ?_
    · exact (unfreed.touch _ _).quiet rfl rfl rfl rfl
    · exact Keeps.bind (setFileNo_unfreed unit (-1)) fun _ => Keeps.pure

private theorem halDiskOpenUnits_unfreed (infoPAddr : Nat) (units : List (Fin halDiskMaxDisks)) :
    KeepsUnfreed (halDiskOpenUnits host infoPAddr units) := by
  induction units with
  | nil => exact Keeps.pure
  | cons unit rest inductionHypothesis =>
      refine Keeps.bind (halDiskOpenUnit_unfreed infoPAddr unit) fun opened => ?_
      exact Keeps.ite (fun _ => inductionHypothesis) fun _ => Keeps.pure

private theorem halDiskGetInfo_finishes : Finishes (halDiskGetInfo host) := by
  refine Ensures.look_bind fun hal _ => Ensures.ite (fun _ => halFail_finishes) fun _ => ?_
  refine (halDiskOpenUnits_unfreed _ _).bind fun opened => ?_
  exact Ensures.ite (fun _ => Ensures.pure fun _ unfreed => unfreed.toKept) fun _ => halFail_finishes

private theorem halDiskTransfer_finishes {transfer : Int → Nat → HalM World Bool}
    (moves : ∀ fileNo offset, KeepsUnfreed (transfer fileNo offset)) :
    Finishes (halDiskTransfer host transfer) := by
  refine Ensures.look_bind fun hal _ => Ensures.ite (fun _ => halFail_finishes) fun _ => ?_
  dsimp only
  split
  · refine (systemCall_unfreed _).bind fun sought => ?_
    refine Ensures.ite (fun _ => halFail_finishes) fun _ => ?_
    refine (moves _ _).bind fun moved => ?_
    exact Ensures.ite (fun _ => halSuccess_unfreed.finishes) fun _ => halFail_finishes
  · exact halFail_finishes

private theorem writeSector_unfreed (fileNo : Int) (offset : Nat) :
    KeepsUnfreed (writeSector host fileNo offset) := by
  refine Keeps.bind (readGuest_unfreed offset sectorSize) fun bytes => ?_
  exact Keeps.bind (systemCall_unfreed _) fun written => Keeps.pure

private theorem readSector_unfreed (fileNo : Int) (offset : Nat) :
    KeepsUnfreed (readSector host fileNo offset) := by
  refine Keeps.bind (systemCall_unfreed _) fun answer => ?_
  cases answer with
  | data bytes fits =>
      refine Keeps.bind (Keeps.modify fun _ unfreed => ?_) fun _ => Keeps.pure
      exact (unfreed.touch offset bytes.length).quiet rfl rfl rfl rfl
  | failed errno => exact Keeps.pure

private theorem halDiskClose_unfreed (units : List (Fin halDiskMaxDisks)) :
    KeepsUnfreed (halDiskClose host units) := by
  induction units with
  | nil => exact Keeps.pure
  | cons unit rest inductionHypothesis =>
      refine Keeps.get_bind fun hal _ => Keeps.ite (fun _ => ?_) fun _ => inductionHypothesis
      exact Keeps.bind (systemCall_unfreed _) fun _ => inductionHypothesis

private theorem halDiskCall_finishes (callNo : Bit32u) : Finishes (halDiskCall host callNo) := by
  refine Ensures.ite (fun _ => halDiskGetInfo_finishes) fun _ => ?_
  refine Ensures.ite (fun _ => halDiskTransfer_finishes writeSector_unfreed) fun _ => ?_
  refine Ensures.ite (fun _ => halDiskTransfer_finishes readSector_unfreed) fun _ => ?_
  refine Ensures.ite (fun _ => ?_) fun _ => halFail_finishes
  exact (halDiskClose_unfreed _).bind fun _ => halSuccess_unfreed.finishes

/-- A call that fails may free guest memory, and uses none of it afterwards. -/
theorem halCall_finishes : Finishes (halCall host) := by
  have served {program : HalM World Unit} (finishes : Finishes program) :
      Finishes (do program; return true) :=
    Ensures.bind finishes fun _ => Ensures.pure fun _ kept => kept
  refine Ensures.look_bind fun hal _ => ?_
  refine Ensures.ite (fun _ => served (halNetCall_finishes _)) fun _ => ?_
  refine Ensures.ite (fun _ => served (halConCall_finishes _)) fun _ => ?_
  refine Ensures.ite (fun _ => served (halDiskCall_finishes _)) fun _ => ?_
  exact Ensures.pure fun _ unfreed => unfreed.toKept

/-- What holds wherever the loop is. -/
structure ExecuteInv (loop : ExecuteLoop World) : Prop extends Kept loop.hal where
  /-- A call of the guest is served only where the guest has run. -/
  serving : loop.place = .halCall → loop.hal.memAllocated = true

theorem ExecuteInv.after {before : Hal World → Prop} {program : HalM World Value}
    {place : Value → ExecutePlace} {hal : Hal World}
    (finishes : Ensures before program (fun _ => Kept) fun _ => Kept) (holds : before hal)
    (elsewhere : ∀ value, place value ≠ .halCall) :
    ExecuteInv (ExecuteLoop.after place (program hal)) := by
  have kept := finishes hal holds
  cases run : program hal with
  | ok value next =>
      rw [run] at kept
      exact ⟨kept, fun serving => absurd serving (elsewhere value)⟩
  | error stop last =>
      rw [run] at kept
      exact ⟨kept, nofun⟩

/-- The step does not look for packets where that would use guest memory that has
been freed. -/
def StepsSafely (moment : Moment (ExecuteLoop World) (ExecuteEvent World)) : Prop :=
  (∃ rounds, moment.event = .poll rounds) → PollsSafely moment.before.hal

private theorem executeStep_inv {loop later : ExecuteLoop World} {event : ExecuteEvent World}
    (inv : ExecuteInv loop) (taken : ExecuteStep host loop event later)
    (safe : StepsSafely ⟨loop, event, later⟩) : ExecuteInv later := by
  unfold ExecuteStep at taken
  cases event with
  | signal world =>
      obtain ⟨-, ⟨⟩⟩ := Option.ite_none_left_eq_some.mp taken
      exact ⟨⟨inv.freed, inv.closed, inv.live⟩, inv.serving⟩
  | poll rounds =>
      obtain ⟨-, ⟨⟩⟩ := Option.ite_none_right_eq_some.mp taken
      exact .after (pollPackets_kept rounds) ⟨inv.toKept, safe ⟨rounds, rfl⟩⟩ nofun
  | refused world =>
      obtain ⟨-, ⟨⟩⟩ := Option.ite_none_right_eq_some.mp taken
      exact ⟨⟨inv.freed, inv.closed, inv.live⟩, nofun⟩
  | executed request guestCPU mem world =>
      obtain ⟨⟨-, opened⟩, ⟨⟩⟩ := Option.ite_none_right_eq_some.mp taken
      refine ⟨⟨inv.freed, inv.closed, inv.live⟩, fun _ => ?_⟩
      by_contra freed
      exact absurd (inv.closed (Bool.eq_false_iff.mpr freed)) (by omega)
  | serve =>
      obtain ⟨serving, ⟨⟩⟩ := Option.ite_none_right_eq_some.mp taken
      refine .after halCall_finishes ⟨inv.toKept, inv.serving serving⟩ fun known => ?_
      cases known with
      | true => exact nofun
      | false => exact nofun
  | tearDown =>
      obtain ⟨-, ⟨⟩⟩ := Option.ite_none_right_eq_some.mp taken
      exact .after plex86TearDown_kept inv.toKept nofun

private theorem starts_inv {loop : ExecuteLoop World} (starts : loop.Starts) : ExecuteInv loop := by
  refine ⟨⟨?_, fun freed => ?_, ?_⟩, fun _ => starts.memAllocated⟩
  · rw [starts.freed, starts.memAllocated]
    rfl
  · rw [starts.memAllocated] at freed
    exact Bool.noConfusion freed
  · rw [starts.touched]
    exact fun touch member => absurd member List.not_mem_nil

/-- Guest memory is not used after it has been freed, and is freed once at most, as
long as no packets are looked for there once it is. -/
theorem freed_unused {past : List (Moment (ExecuteLoop World) (ExecuteEvent World))}
    {now : ExecuteLoop World} (run : Run ExecuteLoop.Starts (ExecuteStep host) past now)
    (safe : ∀ moment ∈ past, StepsSafely moment) :
    (∀ touch ∈ now.hal.touched, touch.allocated = true) ∧
      now.hal.freed = if now.hal.memAllocated then 0 else 1 := by
  have inv := run.guarded StepsSafely (fun _ starts => starts_inv starts)
    (fun _ _ _ inv taken safe => executeStep_inv inv taken safe) safe
  exact ⟨inv.live, inv.freed⟩

/-- A host that does what is asked of the VM device, and has neither images nor packets. -/
def deviceHost : HostCalls Unit where
  openFile _ world := (-1, world)
  lseek _ _ world := (-1, world)
  write _ _ world := (-1, world)
  read _ _ world := (.failed .eagain, world)
  close _ world := (0, world)
  ioctl _ _ world := (0, world)

/-- A machine with four megabytes. -/
def smallMachine : ExecuteLoop Unit where
  hal := {
    world := ()
    memSize := 0x400000
    plex86FD := 3
    memAllocated := true
    memRegistered := true
    fdTunTap := 4 }

private theorem smallMachine_starts : smallMachine.Starts where
  place := rfl
  plex86FD := by decide
  memAllocated := rfl
  memRegistered := rfl
  halNetDev _ := rfl
  halConDev _ := rfl
  touched := rfl
  freed := rfl

/-- The guest leaves the kernel with a call in EAX, EBX, ECX and EDX. -/
def guestCalls (eax ebx ecx edx : Bit32u) : List (ExecuteEvent Unit) :=
  let genReg := Function.update (Function.update (Function.update (Function.update (fun _ => 0)
    genRegEAX eax) genRegEBX ebx) genRegECX ecx) genRegEDX edx
  [.poll 1, .executed .halCall { genReg } (fun _ => 0) (), .serve]

/-- The guest registers its network device, and reads from a disk that there is not. -/
def registerThenFail : List (ExecuteEvent Unit) :=
  guestCalls halCallNetGuestRegDev 0 0x1000 sizeofHalNetGuestRxArea ++
    guestCalls halCallDiskRead 0x2000 0 4

/-- After the disk has failed, the kernel refuses to go on, and the machine is taken
down a second time. -/
theorem freed_unused_sample : ∃ past now, Run ExecuteLoop.Starts (ExecuteStep deviceHost) past now ∧
    (∀ touch ∈ now.hal.touched, touch.allocated = true) ∧ now.hal.freed = 1 := by
  let check (played : List (Moment (ExecuteLoop Unit) (ExecuteEvent Unit)) × ExecuteLoop Unit) :
      Bool :=
    played.1.all (fun moment => PollsSafely moment.before.hal) &&
      (played.2.hal.memAllocated = false : Bool)
  have checked : (playback (ExecuteLoop.step deviceHost) [] smallMachine
      (registerThenFail ++ [.poll 1, .refused (), .tearDown])).any check = true := by decide +kernel
  obtain ⟨past, now, run, found⟩ := playback_reaches (fun _ _ _ taken => taken)
    smallMachine_starts checked
  simp only [check, Bool.and_eq_true, decide_eq_true_eq, List.all_eq_true] at found
  obtain ⟨live, freed⟩ := freed_unused run fun moment member _ => found.1 moment member
  exact ⟨past, now, run, live, by simpa [found.2] using freed⟩

/-- After the disk has failed, a packet arrives, and the loop looks into the area
that the guest has registered. -/
theorem freed_used : ∃ past now, Run ExecuteLoop.Starts (ExecuteStep deviceHost) past now ∧
    ∃ touch ∈ now.hal.touched, touch.allocated = false := by
  let check (played : List (Moment (ExecuteLoop Unit) (ExecuteEvent Unit)) × ExecuteLoop Unit) :
      Bool := played.2.hal.touched.any fun touch => !touch.allocated
  have checked : (playback (ExecuteLoop.step deviceHost) [] smallMachine
      (registerThenFail ++ [.signal (), .poll 1])).any check = true := by decide +kernel
  obtain ⟨past, now, run, found⟩ := playback_reaches (fun _ _ _ taken => taken)
    smallMachine_starts checked
  simp only [check, List.any_eq_true, Bool.not_eq_true'] at found
  exact ⟨past, now, run, found⟩

end
end Plex86
