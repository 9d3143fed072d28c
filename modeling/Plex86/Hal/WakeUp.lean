import Mathlib.Data.List.Count
import Mathlib.Logic.Relation
import Plex86.Hal.Net
import Plex86.Logic.Run

/-! The main loop and the signal that tells it of packets: no packet is left
waiting without the loop knowing that there may be one. -/

namespace Plex86

open Logic

/-- Where the main loop is: at its test, inside `halNetReadPacketToGuest` on the
way to its next atomic step, or about to run the guest. -/
inductive LoopPc
  | test
  | entered
  | checkFull (area : Nat)
  | receive (area : Nat)
  | store (area : Nat) (bytes : List Bit8u)
  | drain
  | consumed
  | execute
deriving DecidableEq

/-- The process with its place in the main loop, and the signal pending for it. -/
structure LoopState (World : Type) where
  pc : LoopPc := .test
  hal : Hal World
  sigio : Bool := false

/-- What happens between two states of the main loop. -/
inductive LoopEvent
  | arrival
  | handler
  | mainLoop
  | incrementConsumerCount
deriving DecidableEq

/-- A packet has at least one byte. -/
abbrev Packet := { bytes : List Bit8u // bytes ≠ [] }

section
variable {World : Type}

/-- The TUN/TAP device, which is open under the descriptor `fd`, holds a queue of
packets. A read of a frame from it takes the first of them, as far as it fits, and finds
no data only where there is none. -/
structure ReadsQueue (host : HostCalls World) (queueOf : World → List Packet) (fd : Int) :
    Prop where
  packet : ∀ world packet rest, queueOf world = packet :: rest →
    (host.read fd maxEthernetFrameSize world).1 =
        .data (packet.1.take maxEthernetFrameSize) (List.length_take_le ..) ∧
      queueOf (host.read fd maxEthernetFrameSize world).2 = rest
  noData : ∀ world, queueOf world = [] →
    (∀ bytes fits, (host.read fd maxEthernetFrameSize world).1 = .data bytes fits → bytes = []) ∧
      queueOf (host.read fd maxEthernetFrameSize world).2 = []

namespace LoopState

/-- Where the loop goes with the answer of a read into the guest's area. -/
def received (area : Nat) : ReadAnswer maxEthernetFrameSize → LoopPc
  | .data bytes _ => if bytes = [] then .consumed else .store area bytes
  | .failed .eagain => .consumed
  | .failed _ => .execute

/-- Where the loop goes with the answer of a read that drains the queue. -/
def drained : ReadAnswer maxEthernetFrameSize → LoopPc
  | .data bytes _ => if bytes = [] then .consumed else .drain
  | .failed _ => .consumed

end LoopState

/-- The packet is stored in the area, and the guest is told of it. -/
def Hal.storePacket (hal : Hal World) (area : Nat) (bytes : List Bit8u) : Hal World :=
  Logic.ends (halNetPacketStored area bytes.length) (hal.put (area + rxBufferOffset) bytes)

/-- One atomic step of the main loop, of the signal handler, or of the network.
The producer count may be read at once, as the consumer count changes only here. -/
inductive LoopStep (host : HostCalls World) (queueOf : World → List Packet) :
    LoopState World → LoopEvent → LoopState World → Prop
  /-- A packet arrives, and raises a signal, which may be pending already. -/
  | arrival {pc : LoopPc} {hal : Hal World} {sigio : Bool} {world : World}
      (packet : Packet) : queueOf world = queueOf hal.world ++ [packet] →
      LoopStep host queueOf ⟨pc, hal, sigio⟩ .arrival ⟨pc, { hal with world }, true⟩
  | handler {pc : LoopPc} {hal : Hal World} :
      LoopStep host queueOf ⟨pc, hal, true⟩ .handler
        ⟨pc, Logic.ends tuntapDev0SigIO hal, false⟩
  | test {hal : Hal World} {sigio : Bool} :
      LoopStep host queueOf ⟨.test, hal, sigio⟩ .mainLoop
        ⟨if hal.halNetConsumerCount ≠ hal.halNetProducerCount then .entered else .execute,
          hal, sigio⟩
  | registered {hal : Hal World} {sigio : Bool} {area : Nat} :
      (hal.halNetDev 0).registered = true → (hal.halNetDev 0).guestArea = some area →
      LoopStep host queueOf ⟨.entered, hal, sigio⟩ .mainLoop ⟨.checkFull area, hal, sigio⟩
  | unregistered {hal : Hal World} {sigio : Bool} : (hal.halNetDev 0).registered = false →
      LoopStep host queueOf ⟨.entered, hal, sigio⟩ .mainLoop ⟨.drain, hal, sigio⟩
  | checkFull {hal : Hal World} {sigio : Bool} {area : Nat} :
      LoopStep host queueOf ⟨.checkFull area, hal, sigio⟩ .mainLoop
        ⟨if loadWord 32 hal.mem area = 0 then .receive area else .execute,
          hal.touch area 4, sigio⟩
  | receive {hal : Hal World} {sigio : Bool} {area : Nat} :
      LoopStep host queueOf ⟨.receive area, hal, sigio⟩ .mainLoop
        ⟨LoopState.received area (host.read hal.fdTunTap maxEthernetFrameSize hal.world).1,
          { hal with world := (host.read hal.fdTunTap maxEthernetFrameSize hal.world).2 }, sigio⟩
  | store {hal : Hal World} {sigio : Bool} {area : Nat} {bytes : List Bit8u} :
      LoopStep host queueOf ⟨.store area bytes, hal, sigio⟩ .mainLoop
        ⟨.execute, hal.storePacket area bytes, sigio⟩
  | drain {hal : Hal World} {sigio : Bool} :
      LoopStep host queueOf ⟨.drain, hal, sigio⟩ .mainLoop
        ⟨LoopState.drained (host.read hal.fdTunTap maxEthernetFrameSize hal.world).1,
          { hal with world := (host.read hal.fdTunTap maxEthernetFrameSize hal.world).2 }, sigio⟩
  | consumed {hal : Hal World} {sigio : Bool} :
      LoopStep host queueOf ⟨.consumed, hal, sigio⟩ .incrementConsumerCount
        ⟨.execute, Logic.ends allPacketsConsumed hal, sigio⟩
  /-- The guest runs and makes calls, which leave the counts, the queue and its
  descriptor alone. -/
  | execute {hal next : Hal World} {sigio : Bool} :
      next.halNetConsumerCount = hal.halNetConsumerCount →
      next.halNetProducerCount = hal.halNetProducerCount →
      queueOf next.world = queueOf hal.world → next.fdTunTap = hal.fdTunTap →
      LoopStep host queueOf ⟨.execute, hal, sigio⟩ .mainLoop ⟨.test, next, sigio⟩

/-- A packet is waiting, and no signal that will tell of it. -/
def LoopState.Waiting (queueOf : World → List Packet) (state : LoopState World) : Prop :=
  queueOf state.hal.world ≠ [] ∧ state.sigio = false

/-- The main loop starts before any packet is counted. -/
structure LoopStarts (queueOf : World → List Packet) (fd : Int) (state : LoopState World) :
    Prop where
  pc : state.pc = .test
  fdTunTap : state.hal.fdTunTap = fd
  consumer : state.hal.halNetConsumerCount = 0
  producer : state.hal.halNetProducerCount = 0
  signalled : ¬ state.Waiting queueOf

/-- How often something has happened. -/
def times (event : LoopEvent) (past : List (Moment (LoopState World) LoopEvent)) : Nat :=
  past.countP fun moment => decide (moment.event = event)

/-- How the counts stand to each other at each place of the loop. -/
def CountsAt (consumed produced : Nat) (waiting : Prop) : LoopPc → Prop
  | .test | .execute => consumed ≤ produced ∧ (waiting → consumed < produced)
  | .consumed => consumed < produced ∧ (waiting → consumed + 1 < produced)
  | .entered | .checkFull _ | .receive _ | .store _ _ | .drain => consumed < produced

/-- What holds in every state of the main loop. -/
structure LoopInv (queueOf : World → List Packet) (fd : Int)
    (past : List (Moment (LoopState World) LoopEvent)) (now : LoopState World) : Prop where
  fdTunTap : now.hal.fdTunTap = fd
  consumer : now.hal.halNetConsumerCount = BitVec.ofNat 32 (times .incrementConsumerCount past)
  producer : now.hal.halNetProducerCount = BitVec.ofNat 32 (times .handler past)
  counts : CountsAt (times .incrementConsumerCount past) (times .handler past)
    (now.Waiting queueOf) now.pc

theorem CountsAt.le {consumed produced : Nat} {waiting : Prop} {pc : LoopPc}
    (counts : CountsAt consumed produced waiting pc) : consumed ≤ produced := by
  cases pc with
  | test => exact counts.1
  | execute => exact counts.1
  | consumed => exact Nat.le_of_lt counts.1
  | entered => exact Nat.le_of_lt counts
  | checkFull area => exact Nat.le_of_lt counts
  | receive area => exact Nat.le_of_lt counts
  | store area bytes => exact Nat.le_of_lt counts
  | drain => exact Nat.le_of_lt counts

/-- Where no packet is waiting any more, nothing more is asked of the counts. -/
theorem CountsAt.signalled {consumed produced : Nat} {waiting later : Prop} {pc : LoopPc}
    (counts : CountsAt consumed produced waiting pc) (signalled : ¬ later) :
    CountsAt consumed produced later pc := by
  cases pc with
  | test => exact ⟨counts.1, fun holds => absurd holds signalled⟩
  | execute => exact ⟨counts.1, fun holds => absurd holds signalled⟩
  | consumed => exact ⟨counts.1, fun holds => absurd holds signalled⟩
  | entered => exact counts
  | checkFull area => exact counts
  | receive area => exact counts
  | store area bytes => exact counts
  | drain => exact counts

/-- The signal handler makes up for any packet that is waiting. -/
theorem CountsAt.handled {consumed produced : Nat} {waiting later : Prop} {pc : LoopPc}
    (counts : CountsAt consumed produced waiting pc) :
    CountsAt consumed (produced + 1) later pc := by
  have le := counts.le
  cases pc with
  | test => exact ⟨by omega, fun _ => by omega⟩
  | execute => exact ⟨by omega, fun _ => by omega⟩
  | consumed =>
      have lt := counts.1
      exact ⟨by omega, fun _ => by omega⟩
  | entered => exact Nat.lt_succ_of_le le
  | checkFull area => exact Nat.lt_succ_of_le le
  | receive area => exact Nat.lt_succ_of_le le
  | store area bytes => exact Nat.lt_succ_of_le le
  | drain => exact Nat.lt_succ_of_le le

private theorem times_same {event : LoopEvent} {now later : LoopState World}
    {past : List (Moment (LoopState World) LoopEvent)} :
    times event (⟨now, event, later⟩ :: past) = times event past + 1 := by
  simp [times]

private theorem times_other {event other : LoopEvent} {now later : LoopState World}
    {past : List (Moment (LoopState World) LoopEvent)} (differ : other ≠ event) :
    times event (⟨now, other, later⟩ :: past) = times event past := by
  simp [times, differ]

variable {host : HostCalls World} {queueOf : World → List Packet} {fd : Int}

/-- A read leads to the increment of the consumer count only if the queue is empty. -/
theorem read_leads (reads : ReadsQueue host queueOf fd) (world : World) :
    let answer := host.read fd maxEthernetFrameSize world
    queueOf answer.2 = [] ∨ ((∀ area, LoopState.received area answer.1 ≠ .consumed) ∧
      LoopState.drained answer.1 ≠ .consumed) := by
  intro answer
  cases queue : queueOf world with
  | nil => exact .inl (reads.noData world queue).2
  | cons packet rest =>
      obtain ⟨read, _⟩ := reads.packet world packet rest queue
      have some : packet.1.take maxEthernetFrameSize ≠ [] := by
        simp [packet.2, maxEthernetFrameSize]
      right
      rw [show answer.1 = _ from read]
      refine ⟨fun area => ?_, ?_⟩
      · rw [LoopState.received, if_neg some]
        exact LoopPc.noConfusion
      · rw [LoopState.drained, if_neg some]
        exact LoopPc.noConfusion

/-- The counts allow any place of the loop, except that of the increment while a
packet is waiting. -/
theorem countsAt_of_lt {consumed produced : Nat} {waiting : Prop} {pc : LoopPc}
    (lt : consumed < produced) (allowed : ¬ waiting ∨ pc ≠ .consumed) :
    CountsAt consumed produced waiting pc := by
  cases pc with
  | test => exact ⟨Nat.le_of_lt lt, fun _ => lt⟩
  | execute => exact ⟨Nat.le_of_lt lt, fun _ => lt⟩
  | consumed =>
      have signalled := allowed.resolve_right fun other => other rfl
      exact ⟨lt, fun holds => absurd holds signalled⟩
  | entered => exact lt
  | checkFull area => exact lt
  | receive area => exact lt
  | store area bytes => exact lt
  | drain => exact lt

/-- A step that counts nothing. -/
theorem LoopInv.quiet {past : List (Moment (LoopState World) LoopEvent)}
    {now later : LoopState World} {event : LoopEvent} (inv : LoopInv queueOf fd past now)
    (same : event = .mainLoop ∨ event = .arrival)
    (fdTunTap : later.hal.fdTunTap = now.hal.fdTunTap)
    (consumer : later.hal.halNetConsumerCount = now.hal.halNetConsumerCount)
    (producer : later.hal.halNetProducerCount = now.hal.halNetProducerCount)
    (counts : CountsAt (times .incrementConsumerCount past) (times .handler past)
      (later.Waiting queueOf) later.pc) :
    LoopInv queueOf fd (⟨now, event, later⟩ :: past) later := by
  have consumptions : times .incrementConsumerCount (⟨now, event, later⟩ :: past) =
      times .incrementConsumerCount past := by
    apply times_other
    rcases same with rfl | rfl <;> decide
  have productions : times .handler (⟨now, event, later⟩ :: past) =
      times .handler past := by
    apply times_other
    rcases same with rfl | rfl <;> decide
  refine ⟨fdTunTap.trans inv.fdTunTap, ?_, ?_, ?_⟩
  · rw [consumptions, consumer, inv.consumer]
  · rw [productions, producer, inv.producer]
  · rw [consumptions, productions]
    exact counts

/-- Every step keeps the invariant. -/
theorem loopInv_step (reads : ReadsQueue host queueOf fd)
    {past : List (Moment (LoopState World) LoopEvent)} {now later : LoopState World}
    {event : LoopEvent} (inv : LoopInv queueOf fd past now)
    (step : LoopStep host queueOf now event later) :
    LoopInv queueOf fd (⟨now, event, later⟩ :: past) later := by
  have counts := inv.counts
  cases step with
  | arrival packet queue =>
      exact inv.quiet (.inr rfl) rfl rfl rfl (counts.signalled fun waiting => Bool.noConfusion waiting.2)
  | @handler pc hal =>
      refine ⟨inv.fdTunTap, ?_, ?_, ?_⟩
      · rw [times_other (by decide)]
        exact inv.consumer
      · rw [times_same, BitVec.ofNat_add, ← inv.producer]
        rfl
      · rw [times_same, times_other (by decide)]
        exact counts.handled
  | @test hal sigio =>
      refine inv.quiet (.inl rfl) rfl rfl rfl ?_
      by_cases differ : hal.halNetConsumerCount ≠ hal.halNetProducerCount
      · have apart : times .incrementConsumerCount past ≠ times .handler past := by
          intro same
          rw [inv.consumer, inv.producer, same] at differ
          exact differ rfl
        have le := counts.le
        rw [if_pos differ]
        exact countsAt_of_lt (by omega) (.inr LoopPc.noConfusion)
      · rw [if_neg differ]
        exact counts
  | registered known shared => exact inv.quiet (.inl rfl) rfl rfl rfl counts
  | unregistered unknown => exact inv.quiet (.inl rfl) rfl rfl rfl counts
  | checkFull =>
      refine inv.quiet (.inl rfl) rfl rfl rfl (countsAt_of_lt counts (.inr ?_))
      split <;> exact LoopPc.noConfusion
  | @receive hal sigio area =>
      refine inv.quiet (.inl rfl) rfl rfl rfl (countsAt_of_lt counts ?_)
      rcases inv.fdTunTap ▸ read_leads reads hal.world with empty | elsewhere
      · exact .inl fun waiting => waiting.1 empty
      · exact .inr (elsewhere.1 area)
  | store => exact inv.quiet (.inl rfl) rfl rfl rfl (countsAt_of_lt counts (.inr LoopPc.noConfusion))
  | @drain hal sigio =>
      refine inv.quiet (.inl rfl) rfl rfl rfl (countsAt_of_lt counts ?_)
      rcases inv.fdTunTap ▸ read_leads reads hal.world with empty | elsewhere
      · exact .inl fun waiting => waiting.1 empty
      · exact .inr elsewhere.2
  | consumed =>
      refine ⟨inv.fdTunTap, ?_, ?_, ?_⟩
      · rw [times_same, BitVec.ofNat_add, ← inv.consumer]
        rfl
      · rw [times_other (by decide)]
        exact inv.producer
      · rw [times_same, times_other (by decide)]
        exact ⟨counts.1, counts.2⟩
  | execute consumer producer queue fdTunTap =>
      refine inv.quiet (.inl rfl) fdTunTap consumer producer ⟨counts.1, fun waiting => counts.2 ?_⟩
      exact ⟨by rw [← queue]; exact waiting.1, waiting.2⟩

/-- Whenever a packet is waiting and no signal is pending, the test of the main
loop finds the counts different; and the consumer count is never ahead. -/
theorem no_lost_wakeup (reads : ReadsQueue host queueOf fd)
    {past : List (Moment (LoopState World) LoopEvent)} {now : LoopState World}
    (run : Run (LoopStarts queueOf fd) (LoopStep host queueOf) past now)
    (drift : times .handler past < times .incrementConsumerCount past + 2 ^ 32) :
    times .incrementConsumerCount past ≤ times .handler past ∧
      (now.pc = .test → queueOf now.hal.world ≠ [] → now.sigio = false →
        now.hal.halNetConsumerCount ≠ now.hal.halNetProducerCount) := by
  have inv : LoopInv queueOf fd past now := by
    clear drift
    induction run with
    | start begun =>
        refine ⟨begun.fdTunTap, begun.consumer, begun.producer, ?_⟩
        rw [begun.pc]
        exact ⟨Nat.le_refl _, fun waiting => absurd waiting begun.signalled⟩
    | next earlier step inductionHypothesis => exact loopInv_step reads inductionHypothesis step
  refine ⟨inv.counts.le, fun atTest waiting unsignalled same => ?_⟩
  have counts := inv.counts
  rw [atTest] at counts
  have lt := counts.2 ⟨waiting, unsignalled⟩
  rw [inv.consumer, inv.producer] at same
  have numbers := congrArg BitVec.toNat same
  rw [BitVec.toNat_ofNat, BitVec.toNat_ofNat] at numbers
  omega

/-- A host whose descriptor 5 is a queue of packets, and on which all else fails. -/
def queueHost : HostCalls (List Packet) where
  openFile _ world := (-1, world)
  lseek _ _ world := (-1, world)
  write _ _ world := (-1, world)
  read fd size world :=
    if fd = 5 then
      match world with
      | [] => (.failed .eagain, [])
      | packet :: rest => (.data (packet.1.take size) (List.length_take_le ..), rest)
    else (.failed .other, world)
  close _ world := (-1, world)
  ioctl _ _ world := (-1, world)

private theorem queueHost_reads : ReadsQueue queueHost id 5 where
  packet world packet rest queue := by
    cases queue
    exact ⟨rfl, rfl⟩
  noData world queue := by
    cases queue
    refine ⟨fun bytes fits answer => ?_, rfl⟩
    cases answer

/-- Where there may be packets and the buffer in the guest's area is free, the loop
goes on to read one. -/
theorem test_receives {start : LoopState World → Prop}
    {past : List (Moment (LoopState World) LoopEvent)} {hal : Hal World} {sigio : Bool} {area : Nat}
    (run : Run start (LoopStep host queueOf) past ⟨.test, hal, sigio⟩)
    (differ : hal.halNetConsumerCount ≠ hal.halNetProducerCount)
    (known : (hal.halNetDev 0).registered = true) (shared : (hal.halNetDev 0).guestArea = some area)
    (free : loadWord 32 hal.mem area = 0) :
    Run start (LoopStep host queueOf)
      (⟨⟨.checkFull area, hal, sigio⟩, .mainLoop, ⟨.receive area, hal.touch area 4, sigio⟩⟩ ::
        ⟨⟨.entered, hal, sigio⟩, .mainLoop, ⟨.checkFull area, hal, sigio⟩⟩ ::
        ⟨⟨.test, hal, sigio⟩, .mainLoop, ⟨.entered, hal, sigio⟩⟩ :: past)
      ⟨.receive area, hal.touch area 4, sigio⟩ := by
  have tested : LoopStep host queueOf ⟨.test, hal, sigio⟩ .mainLoop _ := .test
  have checked : LoopStep host queueOf ⟨.checkFull area, hal, sigio⟩ .mainLoop _ := .checkFull
  rw [if_pos differ] at tested
  rw [if_pos free] at checked
  exact ((run.next tested).next (.registered known shared)).next checked

/-- A machine whose network device has its area at the start of memory. -/
def netStation (world : List Packet) (consumed produced : Bit32u) : Hal (List Packet) where
  world
  fdTunTap := 5
  halNetDev := fun _ => .register 0 1524
  halNetConsumerCount := consumed
  halNetProducerCount := produced

/-- A packet arrives after the read that finds no data and before the consumer count
is raised. -/
theorem no_lost_wakeup_sample : ∃ past now,
    Run (LoopStarts id 5) (LoopStep queueHost id) past now ∧ times .arrival past = 2 ∧
      times .incrementConsumerCount past = 1 ∧ now.pc = .test ∧ now.hal.world ≠ [] ∧
      now.sigio = false ∧ now.hal.halNetConsumerCount ≠ now.hal.halNetProducerCount := by
  let packet : Packet := ⟨[1], List.cons_ne_nil _ _⟩
  have begun : LoopStarts id 5 ⟨.test, netStation [] 0 0, false⟩ :=
    ⟨rfl, rfl, rfl, rfl, fun waiting => waiting.1 rfl⟩
  have arrived : LoopStep queueHost id ⟨.test, netStation [] 0 0, false⟩ .arrival
      ⟨.test, netStation [packet] 0 0, true⟩ := .arrival packet rfl
  have noted : LoopStep queueHost id ⟨.test, netStation [packet] 0 0, true⟩ .handler
      ⟨.test, netStation [packet] 0 1, false⟩ := .handler
  have fetching := test_receives (((Run.start begun).next arrived).next noted) (by decide) rfl rfl
    rfl
  have stored := (fetching.next .receive).next .store
  have emptied := stored.next (@LoopStep.execute _ _ _ _ (netStation [] 0 1) _ rfl rfl rfl rfl)
  have reading := (test_receives emptied (by decide) rfl rfl rfl).next .receive
  have late := reading.next (.arrival packet rfl)
  have raised := (late.next .consumed).next .handler
  have back := raised.next (@LoopStep.execute _ _ _ _ (netStation [packet] 1 2) _ rfl rfl rfl rfl)
  exact ⟨_, _, back, rfl, rfl, rfl, List.cons_ne_nil _ _, rfl,
    (no_lost_wakeup queueHost_reads back (by decide)).2 rfl (List.cons_ne_nil _ _) rfl⟩

/-- Steps of the main loop alone, with nothing in between. -/
def LoopSteps (host : HostCalls World) (queueOf : World → List Packet) :
    LoopState World → LoopState World → Prop :=
  Relation.ReflTransGen fun now later =>
    LoopStep host queueOf now .mainLoop later ∨
      LoopStep host queueOf now .incrementConsumerCount later

private theorem drain_steps (rounds : Nat) {hal next : Hal World} {sigio : Bool}
    (run : halNetDrain host rounds hal = .ok () next) :
    LoopSteps host queueOf ⟨.drain, hal, sigio⟩ ⟨.execute, next, sigio⟩ := by
  induction rounds generalizing hal with
  | zero => cases run
  | succ rounds inductionHypothesis =>
      let after : Hal World :=
        { hal with world := (host.read hal.fdTunTap maxEthernetFrameSize hal.world).2 }
      have first : LoopStep host queueOf ⟨.drain, hal, sigio⟩ .mainLoop ⟨_, after, sigio⟩ := .drain
      rw [halNetDrain, get_bind_apply, systemCall_bind_apply] at run
      have last (ended : allPacketsConsumed after = .ok () next) :
          LoopSteps host queueOf ⟨.consumed, after, sigio⟩ ⟨.execute, next, sigio⟩ := by
        cases ended
        exact .single (.inr .consumed)
      cases read : (host.read hal.fdTunTap maxEthernetFrameSize hal.world).1 with
      | data bytes fits =>
          rw [read] at run first
          by_cases empty : bytes = []
          · rw [LoopState.drained, if_pos empty] at first
            simp only [if_pos empty] at run
            exact .head (.inl first) (last run)
          · rw [LoopState.drained, if_neg empty] at first
            simp only [if_neg empty] at run
            exact .head (.inl first) (inductionHypothesis run)
      | failed errno =>
          rw [read] at run first
          exact .head (.inl first) (last run)

private theorem receive_steps {area : Nat} {hal next : Hal World} {sigio : Bool}
    (run : halNetReceive host area hal = .ok () next) :
    LoopSteps host queueOf ⟨.receive area, hal, sigio⟩ ⟨.execute, next, sigio⟩ := by
  let after : Hal World :=
    { hal with world := (host.read hal.fdTunTap maxEthernetFrameSize hal.world).2 }
  have first : LoopStep host queueOf ⟨.receive area, hal, sigio⟩ .mainLoop ⟨_, after, sigio⟩ :=
    .receive
  rw [halNetReceive, get_bind_apply, systemCall_bind_apply] at run
  have last (ended : allPacketsConsumed after = .ok () next) :
      LoopSteps host queueOf ⟨.consumed, after, sigio⟩ ⟨.execute, next, sigio⟩ := by
    cases ended
    exact .single (.inr .consumed)
  cases read : (host.read hal.fdTunTap maxEthernetFrameSize hal.world).1 with
  | data bytes fits =>
      rw [read] at run first
      by_cases empty : bytes = []
      · rw [LoopState.received, if_pos empty] at first
        simp only [if_pos empty] at run
        exact .head (.inl first) (last run)
      · rw [LoopState.received, if_neg empty] at first
        simp only [if_neg empty] at run
        cases run
        exact .head (.inl first) (.single (.inl .store))
  | failed errno =>
      rw [read] at run first
      cases errno with
      | eagain => exact .head (.inl first) (last run)
      | eintr =>
          cases run
          exact .single (.inl first)
      | other =>
          cases run
          exact .single (.inl first)

/-- What `halNetReadPacketToGuest` does is what the atomic steps do one after another. -/
theorem readPacket_steps {rounds : Nat} {hal next : Hal World} {sigio : Bool}
    (run : halNetReadPacketToGuest host rounds 0 hal = .ok () next) :
    LoopSteps host queueOf ⟨.entered, hal, sigio⟩ ⟨.execute, next, sigio⟩ := by
  rw [halNetReadPacketToGuest, get_bind_apply, Logic.ite_apply] at run
  cases known : (hal.halNetDev 0).registered with
  | false =>
      rw [known, if_neg (by decide)] at run
      exact .head (.inl (.unregistered known)) (drain_steps rounds run)
  | true =>
      rw [known, if_pos rfl] at run
      cases shared : (hal.halNetDev 0).guestArea with
      | none =>
          rw [shared] at run
          cases run
      | some area =>
          rw [shared, deref_some_bind] at run
          have word : readGuestWord area hal =
              .ok (loadWord 32 hal.mem area) (hal.touch area 4) := rfl
          rw [bind_apply, word] at run
          have test : LoopStep host queueOf ⟨.checkFull area, hal, sigio⟩ .mainLoop _ := .checkFull
          refine .head (.inl (.registered known shared)) (.head (.inl test) ?_)
          by_cases free : loadWord 32 hal.mem area = 0
          · simp only [if_pos free] at run
            rw [if_pos free]
            exact receive_steps run
          · simp only [if_neg free] at run
            cases run
            rw [if_neg free]

end
end Plex86
