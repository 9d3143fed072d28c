import Mathlib.Tactic.Common
import Plex86.Hal.State

/-! The guest's disk driver: a queue of requests, which it processes at once or,
in its other mode, one for each expiry of a timer. -/

namespace Plex86

namespace DiskDriver

inductive Command
  | read | write | other
deriving DecidableEq

/-- What is to be transferred next for a request of the queue. -/
structure Request where
  /-- `MINOR(req->rq_dev)` -/
  minor : BitVec 8
  cmd : Command
  sector : Bit32u
  currentNrSectors : Bit32u
deriving DecidableEq

/-- `struct hd_struct` -/
structure Partition where
  startSect : Bit32u := 0
  nrSects : Bit32u := 0

/-- The tables that the driver fills when it is loaded. -/
structure Tables where
  enabled : Fin halDiskMaxDisks → Bit32u
  partitions : BitVec 8 → Partition

/-- One sector asked of the host. -/
structure SectorCall where
  cmd : Command
  unit : Nat
  sector : Bit32u
deriving DecidableEq

/-- `DEVICE_NR(req->rq_dev)` -/
def Request.unit (request : Request) : Nat := (request.minor >>> 4).toNat

/-- The driver and its queue, with what it has done so far: the sectors it has asked
of the host, and what `end_request` was told of each request, oldest first. -/
structure Driver where
  queue : List Request
  busy : Bool := false
  calls : List SectorCall := []
  completions : List Bool := []

section
variable (tables : Tables)

/-- `halDisk_locate_device` finds the device. -/
def Known (request : Request) : Prop :=
  ∃ known : request.unit < halDiskMaxDisks, tables.enabled ⟨_, known⟩ ≠ 0

instance (request : Request) : Decidable (Known tables request) :=
  inferInstanceAs (Decidable (∃ _ : _ < _, _))

/-- The request does not go past the end of its partition. -/
def Fits (request : Request) : Prop :=
  request.sector + request.currentNrSectors ≤ (tables.partitions request.minor).nrSects

instance (request : Request) : Decidable (Fits tables request) :=
  inferInstanceAs (Decidable (_ ≤ _))

/-- The sectors of a request, from the start of its partition on. -/
def sectorCalls (request : Request) : List SectorCall :=
  (List.range request.currentNrSectors.toNat).map fun i =>
    { cmd := request.cmd
      unit := request.unit
      sector := (tables.partitions request.minor).startSect + request.sector + BitVec.ofNat 32 i }

def halDiskTransfer (driver : Driver) (request : Request) : Driver × Bool :=
  if ¬ Fits tables request then (driver, false)
  else if request.cmd = .read ∨ request.cmd = .write then
    ({ driver with calls := driver.calls ++ sectorCalls tables request }, true)
  else (driver, false) -- can't happen

/-- `end_request` completes the current request, and goes on to the next. -/
def endRequest (driver : Driver) (uptodate : Bool) : Driver :=
  { driver with
    queue := driver.queue.tail
    completions := driver.completions ++ [uptodate] }

/-- The loop of `halDisk_request`, which returns when the queue is empty. -/
def requestLoop : Nat → Driver → Driver
  | 0, driver => driver
  | rounds + 1, driver =>
      match driver.queue with
      | [] => driver
      | current :: _ =>
          if Known tables current then
            let (driver, status) := halDiskTransfer tables driver current
            requestLoop rounds (endRequest driver status)
          else requestLoop rounds (endRequest driver false)

def halDiskRequest (driver : Driver) : Driver := requestLoop tables driver.queue.length driver

/-- The loop of `halDisk_irqdriven_request`, which returns after a transfer too,
with the timer set. -/
def irqdrivenLoop : Nat → Driver → Driver
  | 0, driver => driver
  | rounds + 1, driver =>
      match driver.queue with
      | [] => driver
      | current :: _ =>
          if Known tables current then
            let (driver, _) := halDiskTransfer tables driver current
            { driver with busy := true }
          else irqdrivenLoop rounds (endRequest driver false)

def halDiskIrqdrivenRequest (driver : Driver) : Driver :=
  if driver.busy then driver else irqdrivenLoop tables driver.queue.length driver

/-- `halDisk_interrupt`: the timer has expired. -/
def halDiskInterrupt (driver : Driver) : Driver :=
  let driver := { endRequest driver true with busy := false }
  if driver.queue = [] then driver else halDiskIrqdrivenRequest tables driver

/-- The timer expires as often as it is set, up to a number of times. -/
def expireTimer : Nat → Driver → Driver
  | 0, driver => driver
  | times + 1, driver =>
      if driver.busy then expireTimer times (halDiskInterrupt tables driver) else driver

/-- The queue is processed by the timer. -/
def irqdriven (driver : Driver) : Driver :=
  expireTimer tables driver.queue.length (halDiskIrqdrivenRequest tables driver)

/-- The transfer is made. -/
def Transfers (request : Request) : Prop :=
  Fits tables request ∧ (request.cmd = .read ∨ request.cmd = .write)

instance (request : Request) : Decidable (Transfers tables request) :=
  inferInstanceAs (Decidable (_ ∧ _))

private theorem halDiskTransfer_status (driver : Driver) (request : Request) :
    (halDiskTransfer tables driver request).2 = decide (Transfers tables request) := by
  unfold halDiskTransfer Transfers
  split
  · next past => simp [past]
  split
  · next fits known => simp [not_not.mp fits, known]
  · next unknown => simp [unknown]

/-- A transfer leaves the queue and the completions alone. -/
theorem halDiskTransfer_frame (driver : Driver) (request : Request) :
    (halDiskTransfer tables driver request).1.queue = driver.queue ∧
      (halDiskTransfer tables driver request).1.completions = driver.completions := by
  unfold halDiskTransfer
  split
  · exact ⟨rfl, rfl⟩
  split <;> exact ⟨rfl, rfl⟩

/-- What `halDisk_request` reports of a request. -/
def status (request : Request) : Bool :=
  decide (Known tables request) && decide (Transfers tables request)

private theorem requestLoop_completes (queue : List Request) {driver : Driver}
    (here : driver.queue = queue) :
    (requestLoop tables queue.length driver).queue = [] ∧
      (requestLoop tables queue.length driver).completions =
        driver.completions ++ queue.map (status tables) := by
  induction queue generalizing driver with
  | nil => simp [requestLoop, here]
  | cons current rest inductionHypothesis =>
      rw [List.length_cons, requestLoop, here]
      dsimp only
      split
      · next known =>
        obtain ⟨queue, completions⟩ := halDiskTransfer_frame tables driver current
        have popped : (endRequest (halDiskTransfer tables driver current).1
            (halDiskTransfer tables driver current).2).queue = rest := by
          rw [endRequest, queue, here]
          rfl
        obtain ⟨empty, reported⟩ := inductionHypothesis popped
        refine ⟨empty, reported.trans ?_⟩
        simp [endRequest, completions, halDiskTransfer_status, status, known]
      · next unknown =>
        have popped : (endRequest driver false).queue = rest := by rw [endRequest, here]; rfl
        obtain ⟨empty, reported⟩ := inductionHypothesis popped
        refine ⟨empty, reported.trans ?_⟩
        simp [endRequest, status, unknown]

/-- The driver is idle with an empty queue, or it waits for the timer with a request
for a known device at the head of the queue. What it will have reported at the end
is what it has reported, and of the rest of the queue whether the device is known. -/
structure Awaits (all : List Bool) (driver : Driver) : Prop where
  idle : driver.busy = false → driver.queue = []
  known : driver.busy = true → ∃ current rest, driver.queue = current :: rest ∧
    Known tables current
  report : driver.completions ++ driver.queue.map (fun request => decide (Known tables request)) =
    all

private theorem irqdrivenLoop_awaits (queue : List Request) {driver : Driver} {all : List Bool}
    (here : driver.queue = queue) (idle : driver.busy = false)
    (report : driver.completions ++
      driver.queue.map (fun request => decide (Known tables request)) = all) :
    Awaits tables all (irqdrivenLoop tables queue.length driver) ∧
      (irqdrivenLoop tables queue.length driver).queue.length ≤ queue.length := by
  induction queue generalizing driver with
  | nil =>
      refine ⟨⟨fun _ => here, fun busy => ?_, report⟩, ?_⟩
      · rw [List.length_nil, irqdrivenLoop, idle] at busy
        exact Bool.noConfusion busy
      · rw [List.length_nil, irqdrivenLoop, here]
        exact Nat.le_refl _
  | cons current rest inductionHypothesis =>
      rw [List.length_cons, irqdrivenLoop, here]
      dsimp only
      split
      · next known =>
        obtain ⟨queue, completions⟩ := halDiskTransfer_frame tables driver current
        refine ⟨⟨fun no => Bool.noConfusion no, fun _ => ?_, ?_⟩, ?_⟩
        · exact ⟨current, rest, queue.trans here, known⟩
        · rw [← report]
          simp only [queue, completions]
        · simp only [queue, here, List.length_cons, Nat.le_refl]
      · next unknown =>
        have popped : (endRequest driver false).queue = rest := by rw [endRequest, here]; rfl
        have same : (endRequest driver false).completions ++
            (endRequest driver false).queue.map (fun request => decide (Known tables request)) =
              all := by
          rw [popped, ← report, here]
          simp [endRequest, unknown]
        obtain ⟨awaits, shorter⟩ := inductionHypothesis popped idle same
        exact ⟨awaits, Nat.le_succ_of_le shorter⟩

/-- An expiry of the timer completes one request. -/
theorem halDiskInterrupt_awaits {driver : Driver} {all : List Bool}
    (awaits : Awaits tables all driver) (busy : driver.busy = true) :
    Awaits tables all (halDiskInterrupt tables driver) ∧
      (halDiskInterrupt tables driver).queue.length + 1 ≤ driver.queue.length := by
  obtain ⟨current, rest, queue, known⟩ := awaits.known busy
  let ended : Driver := { endRequest driver true with busy := false }
  have popped : ended.queue = rest := by
    show driver.queue.tail = rest
    rw [queue]
    rfl
  have report : ended.completions ++
      ended.queue.map (fun request => decide (Known tables request)) = all := by
    rw [popped, ← awaits.report, queue]
    simp [ended, endRequest, known]
  rw [queue, List.length_cons]
  unfold halDiskInterrupt
  dsimp only
  split
  · next empty =>
    refine ⟨⟨fun _ => empty, fun no => Bool.noConfusion no, report⟩, ?_⟩
    rw [empty]
    simp
  · have idle : ended.busy = false := rfl
    obtain ⟨later, shorter⟩ := irqdrivenLoop_awaits tables ended.queue rfl idle report
    refine ⟨later, Nat.succ_le_succ (Nat.le_trans shorter ?_)⟩
    exact Nat.le_of_eq (congrArg List.length popped)

private theorem expireTimer_completes (times : Nat) {driver : Driver} {all : List Bool}
    (awaits : Awaits tables all driver) (enough : driver.queue.length ≤ times) :
    (expireTimer tables times driver).queue = [] ∧
      (expireTimer tables times driver).completions = all := by
  induction times generalizing driver with
  | zero =>
      have empty : driver.queue = [] := List.length_eq_zero_iff.mp (Nat.le_zero.mp enough)
      refine ⟨empty, ?_⟩
      have report := awaits.report
      rw [empty, List.map_nil, List.append_nil] at report
      exact report
  | succ times inductionHypothesis =>
      unfold expireTimer
      cases busy : driver.busy with
      | true =>
          obtain ⟨later, shorter⟩ := halDiskInterrupt_awaits tables awaits busy
          exact inductionHypothesis later (by omega)
      | false =>
          have empty := awaits.idle busy
          have report := awaits.report
          rw [empty, List.map_nil, List.append_nil] at report
          exact ⟨empty, report⟩

/-- The timer-driven mode reports of each request whether its device is known. -/
theorem irqdriven_completes (queue : List Request) :
    (irqdriven tables { queue }).queue = [] ∧
      (irqdriven tables { queue }).completions =
        queue.map fun request => decide (Known tables request) := by
  obtain ⟨awaits, shorter⟩ := irqdrivenLoop_awaits tables queue
    (rfl : ({ queue } : Driver).queue = queue) rfl rfl
  exact expireTimer_completes tables queue.length awaits shorter

/-- Both modes report the same of every request exactly when no transfer for a known
device is refused. -/
theorem modes_agree_iff (queue : List Request) :
    (halDiskRequest tables { queue }).completions = (irqdriven tables { queue }).completions ↔
      ∀ request ∈ queue, Known tables request → Transfers tables request := by
  have direct : (halDiskRequest tables { queue }).completions = queue.map (status tables) :=
    (requestLoop_completes tables queue rfl).2
  rw [direct, (irqdriven_completes tables queue).2, List.map_inj_left]
  constructor
  · intro same request member known
    have reported := same request member
    simpa [status, known] using reported
  · intro transfers request member
    by_cases known : Known tables request
    · simp [status, known, transfers request member known]
    · simp [status, known]

end

/-- Two sectors are written to the end of a partition of eight, and past it. -/
def pastEnd : Request := ⟨0, .write, 7, 2⟩

/-- The write that is refused is reported as done in the timer-driven mode. -/
theorem modes_disagree :
    let tables : Tables := ⟨fun _ => 1, fun _ => ⟨0, 8⟩⟩
    (halDiskRequest tables { queue := [pastEnd] }).completions = [false] ∧
      (irqdriven tables { queue := [pastEnd] }).completions = [true] ∧
      ¬ ∀ queue, (halDiskRequest tables { queue }).completions =
        (irqdriven tables { queue }).completions := by
  refine ⟨by decide, by decide, fun same => ?_⟩
  exact absurd (same [pastEnd]) (by decide)

end DiskDriver
end Plex86
