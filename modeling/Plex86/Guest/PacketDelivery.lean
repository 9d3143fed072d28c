import Plex86.Emulate.PicRun
import Plex86.Guest.NetDriver
import Plex86.Monitor.DeviceFrame

/-! A received packet on its way through user space, the monitor, the interrupt
controller and the guest's driver, which take turns in any order. -/

namespace Plex86

open Logic

/-- The start of `preGuestHal`, between CLI and STI: what was in the mailbox, which is
reset. -/
def sampleHalIrq : Mon (Option Bit32u) := do
  let vm ← get
  let irq := vm.guestCpu.halIrq
  if irq ≠ 0xffffffff#32 then
    modify fun vm => { vm with guestCpu := { vm.guestCpu with halIrq := 0xffffffff#32 } }
    panicWhen (irq ≠ 3) "preGuest: halIrq!=3.\n"
    return some irq
  else return none

/-- The monitor can be interrupted between sampling the mailbox and requesting the interrupt. -/
theorem preGuestHal_eq :
    preGuestHal = sampleHalIrq >>= fun irq => irq.elim (pure ()) picIrq := by
  funext vm
  rw [preGuestHal, sampleHalIrq, bind_assoc, get_bind_apply, get_bind_apply]
  by_cases empty : vm.guestCpu.halIrq = 0xffffffff#32
  · simp [empty]
  · simp [empty, bind_assoc]

private theorem sampleHalIrq_ok {vm next : Vm} {irq : Option Bit32u}
    (run : sampleHalIrq vm = .ok irq next) : next.picMaster = vm.picMaster ∧
      (irq = some 3 ∨ (next = vm ∧ vm.guestCpu.halIrq ≠ 3)) := by
  rw [sampleHalIrq, get_bind_apply, Logic.ite_apply] at run
  split at run
  · rw [modify_bind_apply, panicWhen_bind_apply] at run
    split at run
    · cases run
    · next three =>
      cases run
      exact ⟨rfl, .inl (congrArg some (not_not.mp three))⟩
  · next empty =>
    cases run
    refine ⟨rfl, .inr ⟨rfl, ?_⟩⟩
    rw [not_not.mp empty]
    decide

/-- An interrupt that is requested on a line of the master is waiting there. -/
theorem picIrq_requested {vm next : Vm} {irqNum : Bit32u} (master : irqNum ≤ 7)
    (run : picIrq irqNum vm = .ok () next) : next.picMaster.irr.getLsbD irqNum.toNat = true := by
  have low : irqNum.toNat < 32 := Nat.lt_of_le_of_lt (BitVec.le_def.mp master) (by decide)
  rw [picIrq, panicWhen_bind_apply, if_pos master] at run
  split at run
  · cases run
  rw [picIrqMaster, modify_apply] at run
  cases run
  simp only [Pic.request, irqBit, ne_eq, and_lineBit_eq_zero low]
  cases held : vm.picMaster.irr.getLsbD irqNum.toNat
  · simp [held, lineBit_getLsbD low]
  · simp [held]

/-- The parties to a packet's way, which share the guest's memory and its CPU area. -/
structure PacketPath (World : Type) where
  hal : Hal World
  vm : Vm
  /-- The interrupt that `preGuest` has found in the mailbox and not yet requested. -/
  sampled : Option Bit32u := none
  /-- How often the guest was interrupted for the device without its handler having run. -/
  pending : Nat := 0
  /-- The handler has begun to receive a packet. -/
  receiving : Bool := false
  driver : NetDriver := {}
  /-- The frames that were read from the network, oldest first. -/
  frames : List (List Bit8u) := []

namespace PacketPath

variable {World : Type}

/-- The monitor with the mailbox as user space has left it. -/
def seen (path : PacketPath World) : Vm :=
  { path.vm with guestCpu := { path.vm.guestCpu with halIrq := path.hal.guestCPU.halIrq } }

/-- User space finds the mailbox as the monitor has left it. -/
def left (path : PacketPath World) (vm : Vm) : PacketPath World :=
  { path with
    vm
    hal := { path.hal with guestCPU := { path.hal.guestCPU with halIrq := vm.guestCpu.halIrq } } }

def full (path : PacketPath World) (area : Nat) : Prop := rxBufferFull path.hal.mem area ≠ 0

instance (path : PacketPath World) (area : Nat) : Decidable (path.full area) :=
  inferInstanceAs (Decidable (_ ≠ _))

/-- The handler begins: it receives the packet, if there is one. -/
def beginHandler (path : PacketPath World) (area : Nat) (skb : Bool) : PacketPath World :=
  if path.full area then
    { path with
      pending := path.pending - 1
      receiving := true
      driver := snullRx path.driver (rxPacket path.hal.mem area) skb }
  else { path with pending := path.pending - 1 }

/-- The handler ends: clear buffer full flag, now that the packet has been received. -/
def endHandler (path : PacketPath World) (area : Nat) : PacketPath World :=
  { path with
    receiving := false
    hal := { path.hal with mem := storeWord path.hal.mem area (0 : Bit32u) } }

/-- What none of the parties' steps concerns is left to chance. -/
structure Elsewhere (area : Nat) (path other : PacketPath World) : Prop where
  mem : ∀ place, area ≤ place → place < area + sizeofHalNetGuestRxArea.toNat →
    other.hal.mem place = path.hal.mem place
  halIrq : other.hal.guestCPU.halIrq = path.hal.guestCPU.halIrq
  halNetDev : other.hal.halNetDev = path.hal.halNetDev
  picMaster : other.vm.picMaster = path.vm.picMaster
  sampled : other.sampled = path.sampled
  pending : other.pending = path.pending
  receiving : other.receiving = path.receiving
  driver : other.driver = path.driver
  frames : other.frames = path.frames

end PacketPath

inductive PacketEvent
  /-- User space reads from the network. -/
  | read (rounds : Nat)
  /-- `preGuest` samples the mailbox. -/
  | sample
  /-- `preGuest` requests the interrupt that it has found there. -/
  | request
  /-- Anything else done with the interrupt controllers, such as an acknowledgement. -/
  | pic (op : PicOp)
  /-- `snull_interrupt` begins, with memory for the packet or without. -/
  | handler (skb : Bool)
  /-- `snull_interrupt` ends. -/
  | handled
  | elsewhere

section Delivery

variable {World : Type} (host : HostCalls World) (area : Nat)

/-- One step of one party. -/
inductive PacketStep : PacketPath World → PacketEvent → PacketPath World → Prop
  | read {path : PacketPath World} {hal : Hal World} (rounds : Nat)
      (run : halNetReadPacketToGuest host rounds 0 path.hal = .ok () hal) :
      PacketStep path (.read rounds)
        { path with hal, frames := path.frames ++ frameRead host area path.hal }
  | sample {path : PacketPath World} {vm : Vm} {irq : Option Bit32u} (none : path.sampled = none)
      (run : sampleHalIrq path.seen = .ok irq vm) :
      PacketStep path .sample { path.left vm with sampled := irq }
  | request {path : PacketPath World} {vm : Vm} {irq : Bit32u} (found : path.sampled = some irq)
      (run : picIrq irq path.vm = .ok () vm) :
      PacketStep path .request { path with vm, sampled := none }
  | pic {path : PacketPath World} {vm : Vm} {op : PicOp} {vector : Option Bit32u}
      (run : op.run path.vm = .ok vector vm) (kept : ¬ op.Initialises) :
      PacketStep path (.pic op)
        { path with
          vm
          -- the guest is interrupted with the vector
          pending := path.pending +
            if vector = some (path.vm.picMaster.vectorOffset + halNet0Irq) then 1 else 0 }
  | handler {path : PacketPath World} (skb : Bool) (free : path.receiving = false) :
      PacketStep path (.handler skb) (path.beginHandler area skb)
  | handled {path : PacketPath World} (busy : path.receiving = true) :
      PacketStep path .handled (path.endHandler area)
  | elsewhere {path other : PacketPath World} (same : path.Elsewhere area other) :
      PacketStep path .elsewhere other

/-- The device has been registered with the area, and no packet has come in. -/
structure PacketStart (path : PacketPath World) : Prop where
  registered : (path.hal.halNetDev 0).registered = true
  shared : (path.hal.halNetDev 0).guestArea = some area
  free : rxBufferFull path.hal.mem area = 0
  receiving : path.receiving = false
  driver : path.driver = {}
  frames : path.frames = []

end Delivery

namespace PacketPath

variable {World : Type} {host : HostCalls World} {area : Nat} {path next : PacketPath World}

/-- Where the interrupt for a packet is. -/
inductive Coming (path : PacketPath World) : Prop
  | mailbox (halIrq : path.hal.guestCPU.halIrq = halNet0Irq)
  | sampled (irq : path.sampled = some halNet0Irq)
  | requested (irr : path.vm.picMaster.irr.getLsbD 3 = true)
  | pending (some_ : 0 < path.pending)
  | receiving (busy : path.receiving = true)

/-- The packet in the area that the handler has not begun to receive. -/
def waiting (path : PacketPath World) (area : Nat) : List (List Bit8u) :=
  if path.full area ∧ path.receiving = false then [rxPacket path.hal.mem area] else []

/-- The packets that the driver has taken. -/
def taken (path : PacketPath World) : List (List Bit8u) := path.driver.taken.map Prod.fst

/-- What holds of the parties throughout. -/
structure Sound (area : Nat) (path : PacketPath World) : Prop where
  registered : (path.hal.halNetDev 0).registered = true
  shared : (path.hal.halNetDev 0).guestArea = some area
  busy : path.receiving = true → path.full area
  ledger : List.Forall₂ Padded path.frames (path.taken ++ path.waiting area)
  coming : path.full area → path.Coming
  accounts : path.driver.Accounts

private theorem waiting_empty (empty : ¬ path.full area) : path.waiting area = [] :=
  if_neg fun both => empty both.1

private theorem waiting_receiving (busy : path.receiving = true) : path.waiting area = [] :=
  if_neg fun both => by simp [busy] at both

/-- What is there when the interrupt controller and the mailbox are what changes. -/
theorem Sound.monitor {path next : PacketPath World} (sound : path.Sound area)
    (mem : next.hal.mem = path.hal.mem) (halNetDev : next.hal.halNetDev = path.hal.halNetDev)
    (receiving : next.receiving = path.receiving) (driver : next.driver = path.driver)
    (frames : next.frames = path.frames) (coming : path.Coming → next.Coming) :
    next.Sound area := by
  have full : next.full area ↔ path.full area := by rw [PacketPath.full, mem, PacketPath.full]
  have waiting : next.waiting area = path.waiting area := by
    simp only [PacketPath.waiting, full, receiving, mem]
  constructor
  · rw [halNetDev]
    exact sound.registered
  · rw [halNetDev]
    exact sound.shared
  · intro busy
    exact full.mpr (sound.busy (receiving ▸ busy))
  · rw [frames, taken, driver, waiting]
    exact sound.ledger
  · exact fun here => coming (sound.coming (full.mp here))
  · rw [driver]
    exact sound.accounts

theorem Sound.read {hal : Hal World} (sound : path.Sound area)
    (receives : Receives host area path.hal hal) :
    Sound area { path with hal, frames := path.frames ++ frameRead host area path.hal } := by
  cases receives with
  | nothing none mem halIrq halNetDev =>
      rw [none, List.append_nil]
      refine sound.monitor mem halNetDev rfl rfl rfl fun coming => ?_
      cases coming with
      | mailbox here => exact .mailbox (halIrq.trans here)
      | sampled here => exact .sampled here
      | requested here => exact .requested here
      | pending here => exact .pending here
      | receiving here => exact .receiving here
  | frame bytes read free full padded halIrq halNetDev =>
      have empty : ¬ path.full area := fun here => here free
      have idle : path.receiving = false := by
        cases busy : path.receiving with
        | false => rfl
        | true => exact (empty (sound.busy busy)).elim
      have ledger := sound.ledger
      rw [waiting_empty empty, List.append_nil] at ledger
      have now : rxBufferFull hal.mem area ≠ 0 := by
        rw [full]
        decide
      constructor
      · rw [halNetDev]
        exact sound.registered
      · rw [halNetDev]
        exact sound.shared
      · intro busy
        exact now
      · rw [read, PacketPath.waiting, if_pos ⟨now, idle⟩]
        exact List.rel_append ledger (.cons padded .nil)
      · exact fun _ => .mailbox halIrq
      · exact sound.accounts

private theorem Sound.sample {vm : Vm} {irq : Option Bit32u} (sound : path.Sound area)
    (none : path.sampled = none) (run : sampleHalIrq path.seen = .ok irq vm) :
    Sound area { path.left vm with sampled := irq } := by
  obtain ⟨picMaster, found⟩ := sampleHalIrq_ok run
  refine sound.monitor rfl rfl rfl rfl rfl fun coming => ?_
  rcases found with rfl | ⟨rfl, other⟩
  · exact .sampled rfl
  · cases coming with
    | mailbox here => exact (other here).elim
    | sampled here => simp [none] at here
    | requested here => exact .requested here
    | pending here => exact .pending here
    | receiving here => exact .receiving here

theorem Sound.request {vm : Vm} {irq : Bit32u} (sound : path.Sound area)
    (found : path.sampled = some irq) (run : picIrq irq path.vm = .ok () vm) :
    Sound area { path with vm, sampled := none } := by
  refine sound.monitor rfl rfl rfl rfl rfl fun coming => ?_
  cases coming with
  | mailbox here => exact .mailbox here
  | sampled here =>
      have three : irq = halNet0Irq := Option.some.inj (found.symm.trans here)
      have waits := picIrq_requested (by rw [three]; decide) run
      rw [three] at waits
      exact .requested waits
  | requested here =>
      have step : PicStep path.vm (.irq irq) vm := ⟨none, bind_ok.mpr ⟨(), vm, run, rfl⟩⟩
      rcases (picStep_master step).kept here with held | ⟨_, init, -⟩ | ⟨taken, -⟩
      · exact .requested held
      · cases init
      · cases taken
  | pending here => exact .pending here
  | receiving here => exact .receiving here

theorem Sound.pic {vm : Vm} {op : PicOp} {vector : Option Bit32u} (sound : path.Sound area)
    (run : op.run path.vm = .ok vector vm) (kept : ¬ op.Initialises) :
    Sound area { path with
      vm
      pending := path.pending +
        if vector = some (path.vm.picMaster.vectorOffset + halNet0Irq) then 1 else 0 } := by
  refine sound.monitor rfl rfl rfl rfl rfl fun coming => ?_
  cases coming with
  | mailbox here => exact .mailbox here
  | sampled here => exact .sampled here
  | requested here =>
      rcases (picStep_master ⟨vector, run⟩).kept here with held | init | ⟨rfl, first⟩
      · exact .requested held
      · exact (kept init).elim
      · -- the interrupt is acknowledged, with the vector of its line
        obtain ⟨taken, _, acknowledged, rest⟩ := bind_ok.mp run
        cases rest
        obtain ⟨-, -, -, vector, -⟩ := picIAC_ok acknowledged
        rw [← first] at vector
        have counted : (if some taken = some (path.vm.picMaster.vectorOffset + halNet0Irq) then 1
            else 0) = 1 := if_pos (congrArg some vector)
        exact .pending (by rw [counted]; exact Nat.succ_pos _)
  | pending here => exact .pending (Nat.lt_of_lt_of_le here (Nat.le_add_right _ _))
  | receiving here => exact .receiving here

theorem Sound.handler (sound : path.Sound area) (free : path.receiving = false) (skb : Bool) :
    (path.beginHandler area skb).Sound area := by
  unfold beginHandler
  split
  · next full =>
    have ledger := sound.ledger
    rw [PacketPath.waiting, if_pos ⟨full, free⟩] at ledger
    refine ⟨sound.registered, sound.shared, fun _ => full, ?_, fun _ => .receiving rfl,
      sound.accounts.snullRx _ skb⟩
    have taken : (snullRx path.driver (rxPacket path.hal.mem area) skb).taken =
        path.driver.taken ++ [(rxPacket path.hal.mem area, skb)] := by
      cases skb <;> rfl
    rw [waiting_receiving rfl, List.append_nil, PacketPath.taken, taken, List.map_append]
    exact ledger
  · next empty =>
    have none : PacketPath.waiting { path with pending := path.pending - 1 } area =
        path.waiting area := rfl
    refine ⟨sound.registered, sound.shared, sound.busy, ?_, fun here => (empty here).elim,
      sound.accounts⟩
    rw [none]
    exact sound.ledger

theorem Sound.handled (sound : path.Sound area) (busy : path.receiving = true) :
    (path.endHandler area).Sound area := by
  have empty : ¬ (path.endHandler area).full area := by
    change ¬ rxBufferFull (storeWord path.hal.mem area (0 : Bit32u)) area ≠ 0
    rw [rxBufferFull, loadWord_storeWord_self (by decide)]
    exact not_not.mpr rfl
  have ledger := sound.ledger
  rw [waiting_receiving busy, List.append_nil] at ledger
  refine ⟨sound.registered, sound.shared, fun still => Bool.noConfusion still, ?_,
    fun here => (empty here).elim, sound.accounts⟩
  rw [waiting_empty empty, List.append_nil]
  exact ledger

theorem Elsewhere.full (same : path.Elsewhere area next) : next.full area ↔ path.full area := by
  have size : sizeofHalNetGuestRxArea.toNat = 1524 := rfl
  have word : rxBufferFull next.hal.mem area = rxBufferFull path.hal.mem area :=
    loadWord_congr fun place low high => same.mem place low (by omega)
  rw [PacketPath.full, word, PacketPath.full]

/-- A packet that is no longer than a frame may be is still there. -/
theorem Elsewhere.packet (same : path.Elsewhere area next)
    (fits : (rxPacket path.hal.mem area).length ≤ maxEthernetFrameSize) :
    rxPacket next.hal.mem area = rxPacket path.hal.mem area := by
  have size : sizeofHalNetGuestRxArea.toNat = 1524 := rfl
  have length : loadWord 32 next.hal.mem (area + rxBufferLenOffset) =
      loadWord 32 path.hal.mem (area + rxBufferLenOffset) :=
    loadWord_congr fun place low high => same.mem place
      (by unfold rxBufferLenOffset at low; omega) (by unfold rxBufferLenOffset at high; omega)
  rw [rxPacket, slice_length] at fits
  unfold maxEthernetFrameSize at fits
  rw [rxPacket, rxPacket, length]
  apply slice_congr
  intro place low high
  unfold rxBufferOffset at low high
  exact same.mem place (by omega) (by omega)

private theorem Sound.waiting_fits (sound : path.Sound area) :
    ∀ packet ∈ path.waiting area, packet.length ≤ maxEthernetFrameSize :=
  fun packet member => Padded.all_fit sound.ledger packet (List.mem_append_right _ member)

theorem Sound.elsewhere (sound : path.Sound area) (same : path.Elsewhere area next) :
    next.Sound area := by
  have waiting : next.waiting area = path.waiting area := by
    by_cases here : path.full area ∧ path.receiving = false
    · have member : rxPacket path.hal.mem area ∈ path.waiting area := by
        rw [PacketPath.waiting, if_pos here]
        exact List.mem_singleton_self _
      have there : next.full area ∧ next.receiving = false :=
        ⟨same.full.mpr here.1, same.receiving.trans here.2⟩
      rw [PacketPath.waiting, PacketPath.waiting, if_pos here, if_pos there,
        same.packet (sound.waiting_fits _ member)]
    · rw [PacketPath.waiting, PacketPath.waiting, if_neg here, if_neg]
      rwa [same.full, same.receiving]
  refine ⟨?_, ?_, ?_, ?_, ?_, ?_⟩
  · rw [same.halNetDev]
    exact sound.registered
  · rw [same.halNetDev]
    exact sound.shared
  · intro busy
    exact same.full.mpr (sound.busy (same.receiving ▸ busy))
  · rw [same.frames, taken, same.driver, waiting]
    exact sound.ledger
  · intro here
    cases sound.coming (same.full.mp here) with
    | mailbox halIrq => exact .mailbox (same.halIrq.trans halIrq)
    | sampled irq => exact .sampled (same.sampled.trans irq)
    | requested irr => exact .requested (same.picMaster ▸ irr)
    | pending some_ => exact .pending (same.pending ▸ some_)
    | receiving busy => exact .receiving (same.receiving.trans busy)
  · rw [same.driver]
    exact sound.accounts

theorem PacketStart.sound (start : PacketStart area path) : path.Sound area := by
  have empty : ¬ path.full area := fun here => here start.free
  refine ⟨start.registered, start.shared, ?_, ?_, fun here => (empty here).elim, ?_⟩
  · intro busy
    rw [start.receiving] at busy
    cases busy
  · rw [start.frames, taken, start.driver, waiting_empty empty]
    exact .nil
  · rw [start.driver]
    constructor <;> rfl

/-- Every step keeps it. -/
theorem Sound.step {event : PacketEvent} (sound : path.Sound area)
    (step : PacketStep host area path event next) : next.Sound area := by
  cases step with
  | read rounds run =>
      obtain ⟨hal, reads, receives⟩ :=
        halNetReadPacketToGuest_receives sound.registered sound.shared
      cases run.symm.trans reads
      exact sound.read receives
  | sample none run => exact sound.sample none run
  | request found run => exact sound.request found run
  | pic run kept => exact sound.pic run kept
  | handler skb free => exact sound.handler free skb
  | handled busy => exact sound.handled busy
  | elsewhere same => exact sound.elsewhere same

end PacketPath

/-- In whatever order the parties take their steps, the driver takes the frames read from
the network in their order, each once and none lost but the one that is still in the area,
whose interrupt is on its way. -/
theorem packets_delivered {World : Type} {host : HostCalls World} {area : Nat}
    {past : List (Moment (PacketPath World) PacketEvent)} {path : PacketPath World}
    (run : Run (PacketStart area) (PacketStep host area) past path) :
    List.Forall₂ Padded path.frames (path.taken ++ path.waiting area) ∧
      (path.full area → path.Coming) ∧ path.driver.Accounts := by
  have sound := run.invariant (fun _ start => PacketPath.PacketStart.sound start)
    fun _ _ _ sound step => PacketPath.Sound.step sound step
  exact ⟨sound.ledger, sound.coming, sound.accounts⟩

namespace Sample

/-- A network on which the same frame comes again and again. -/
def chatter : HostCalls Unit :=
  { HostCalls.failing with
    read := fun _ size world => (if fits : 3 ≤ size then .data [1, 2, 3] fits else .failed .other, world) }

/-- The device is registered, and the controller lets every interrupt through. -/
def listening : PacketPath Unit where
  hal :=
    { world := ()
      guestCPU := { halIrq := 0xffffffff }
      halNetDev := fun _ => .register 0x100 1524 }
  vm := { setup, picMaster := { vectorOffset := 0x20 } }

private theorem listening_start :
    PacketStart 0x100 listening := ⟨rfl, rfl, by decide, rfl, rfl, rfl⟩

private theorem firstDevice_lt : 0 < halNetMaxDevices := by decide

/-- The steps that a packet needs, as a function on states. -/
def packetNext (path : PacketPath Unit) : PacketEvent → Option (PacketPath Unit)
  | .read rounds => (leaves (halNetReadPacketToGuest chatter rounds ⟨0, firstDevice_lt⟩)
      path.hal).map fun hal =>
      { path with hal, frames := path.frames ++ frameRead chatter 0x100 path.hal }
  | .sample =>
      if path.sampled.isSome then none
      else match sampleHalIrq path.seen with
        | .ok irq vm => some { path.left vm with sampled := irq }
        | .error _ _ => none
  | .request => path.sampled.bind fun irq => (leaves (picIrq irq) path.vm).map fun vm =>
      { path with vm, sampled := none }
  | .pic .iac =>
      match PicOp.run .iac path.vm with
      | .ok vector vm => some { path with
          vm
          pending := path.pending +
            if vector = some (path.vm.picMaster.vectorOffset + halNet0Irq) then 1 else 0 }
      | .error _ _ => none
  | .handler skb => if path.receiving then none else some (path.beginHandler 0x100 skb)
  | .handled => if path.receiving then some (path.endHandler 0x100) else none
  | .pic _ | .elsewhere => none

private theorem packetNext_step (path : PacketPath Unit) (event : PacketEvent)
    (next : PacketPath Unit)
    (taken : packetNext path event = some next) : PacketStep chatter 0x100 path event next := by
  cases event with
  | read rounds =>
      obtain ⟨hal, run, rfl⟩ := Option.map_eq_some_iff.mp taken
      exact .read rounds (leaves_eq_some.mp run)
  | sample =>
      simp only [packetNext] at taken
      split at taken
      · cases taken
      · next empty =>
        cases run : sampleHalIrq path.seen with
        | ok irq vm =>
            rw [run] at taken
            cases taken
            exact .sample (Option.not_isSome_iff_eq_none.mp empty) run
        | error stop last =>
            rw [run] at taken
            cases taken
  | request =>
      obtain ⟨irq, found, taken⟩ := Option.bind_eq_some_iff.mp taken
      obtain ⟨vm, run, rfl⟩ := Option.map_eq_some_iff.mp taken
      exact .request found (leaves_eq_some.mp run)
  | pic op =>
      cases op with
      | iac =>
          simp only [packetNext] at taken
          cases run : PicOp.run .iac path.vm with
          | ok vector vm =>
              rw [run] at taken
              cases taken
              exact .pic run fun ⟨_, other, _⟩ => PicOp.noConfusion other
          | error stop last =>
              rw [run] at taken
              cases taken
      | irq _ | outp _ _ => cases taken
  | handler skb =>
      simp only [packetNext] at taken
      split at taken
      · cases taken
      · next free =>
        cases taken
        exact .handler skb (Bool.not_eq_true _ ▸ free)
  | handled =>
      simp only [packetNext] at taken
      split at taken
      · next busy =>
        cases taken
        exact .handled busy
      · cases taken
  | elsewhere => cases taken

end Sample

open Sample in
/-- A packet is received, and the next one is put into the area. -/
theorem packets_delivered_sample : ∃ past path,
    Run (PacketStart 0x100) (PacketStep chatter 0x100) past path ∧ path.frames.length = 2 ∧
      path.taken.length = 1 ∧ List.Forall₂ Padded path.frames (path.taken ++ path.waiting 0x100) := by
  let check (played : List (Moment (PacketPath Unit) PacketEvent) × PacketPath Unit) : Bool :=
    decide (played.2.frames.length = 2) && decide (played.2.taken.length = 1)
  have checked : (playback packetNext [] listening [.read 0, .sample, .request, .pic .iac,
      .handler true, .handled, .read 0]).any check = true := by decide +kernel
  obtain ⟨past, path, run, found⟩ := playback_reaches packetNext_step listening_start checked
  simp only [check, Bool.and_eq_true, decide_eq_true_eq] at found
  exact ⟨past, path, run, found.1, found.2, (packets_delivered run).1⟩

end Plex86
