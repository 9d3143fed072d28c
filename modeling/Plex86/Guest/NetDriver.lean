import Plex86.Hal.Net
import Plex86.Logic.Slices

namespace Plex86

open Logic

/-- `rxBufferFull` of the area. -/
def rxBufferFull (mem : Bytes) (area : Nat) : Bit32u := loadWord 32 mem area

/-- The packet in the area, which is `rxBufferLen` bytes long. -/
def rxPacket (mem : Bytes) (area : Nat) : List Bit8u :=
  slice mem (area + rxBufferOffset) (loadWord 32 mem (area + rxBufferLenOffset)).toNat

/-- The packet starts with the frame, is extended where that is too short, and is no longer
than a frame may be. -/
structure Padded (frame packet : List Bit8u) : Prop where
  leads : frame <+: packet
  length : packet.length = max frame.length 60
  fits : packet.length ≤ maxEthernetFrameSize

theorem Padded.all_fit {frames packets : List (List Bit8u)}
    (ledger : List.Forall₂ Padded frames packets) :
    ∀ packet ∈ packets, packet.length ≤ maxEthernetFrameSize := by
  induction ledger with
  | nil => exact fun _ member => absurd member List.not_mem_nil
  | cons padded _ inductionHypothesis =>
      exact List.forall_mem_cons.mpr ⟨padded.fits, inductionHypothesis⟩

/-- The receiving side of the driver. -/
structure NetDriver where
  -- `priv->stats`
  rxPackets : Bit32u := 0
  rxBytes : Bit32u := 0
  rxDropped : Bit32u := 0
  /-- The packets taken from the area, oldest first, and whether there was memory to pass
  them over to the upper levels. -/
  taken : List (List Bit8u × Bool) := []

/-- Receive a packet: retrieve, encapsulate and pass over to upper levels. `skb` tells
whether `dev_alloc_skb` has memory. -/
def snullRx (driver : NetDriver) (packet : List Bit8u) (skb : Bool) : NetDriver :=
  let driver := { driver with taken := driver.taken ++ [(packet, skb)] }
  if skb then
    { driver with
      rxPackets := driver.rxPackets + 1
      rxBytes := driver.rxBytes + BitVec.ofNat 32 packet.length }
  else { driver with rxDropped := driver.rxDropped + 1 } -- low on mem - packet dropped

/-- The statistics tell the packets that were taken. -/
structure NetDriver.Accounts (driver : NetDriver) : Prop where
  packets : driver.rxPackets = BitVec.ofNat 32 (driver.taken.filter Prod.snd).length
  bytes : driver.rxBytes =
    BitVec.ofNat 32 ((driver.taken.filter Prod.snd).map (List.length ∘ Prod.fst)).sum
  dropped : driver.rxDropped = BitVec.ofNat 32 (driver.taken.filter (!·.2)).length

theorem NetDriver.Accounts.snullRx {driver : NetDriver} (accounts : driver.Accounts)
    (packet : List Bit8u) (skb : Bool) : (snullRx driver packet skb).Accounts := by
  cases skb with
  | true =>
      constructor
      · simp [Plex86.snullRx, accounts.packets, BitVec.ofNat_add]
      · simp [Plex86.snullRx, accounts.bytes, BitVec.ofNat_add]
      · simp [Plex86.snullRx, accounts.dropped]
  | false =>
      constructor
      · simp [Plex86.snullRx, accounts.packets]
      · simp [Plex86.snullRx, accounts.bytes]
      · simp [Plex86.snullRx, accounts.dropped, BitVec.ofNat_add]

section Receive

variable {World : Type} {host : HostCalls World} {area : Nat} {hal next : Hal World}

/-- The frame that is read into the area, if any. -/
def frameRead (host : HostCalls World) (area : Nat) (hal : Hal World) : List (List Bit8u) :=
  if rxBufferFull hal.mem area = 0 then
    match (host.read hal.fdTunTap maxEthernetFrameSize hal.world).1 with
    | .data bytes _ => if bytes = [] then [] else [bytes]
    | .failed _ => []
  else []

/-- What reading from the network does to guest memory, the mailbox and the devices. -/
inductive Receives (host : HostCalls World) (area : Nat) (hal next : Hal World) : Prop
  | nothing (none : frameRead host area hal = []) (mem : next.mem = hal.mem)
      (halIrq : next.guestCPU.halIrq = hal.guestCPU.halIrq)
      (halNetDev : next.halNetDev = hal.halNetDev)
  | frame (bytes : List Bit8u) (read : frameRead host area hal = [bytes])
      (free : rxBufferFull hal.mem area = 0) (full : rxBufferFull next.mem area = 1)
      (padded : Padded bytes (rxPacket next.mem area)) (halIrq : next.guestCPU.halIrq = halNet0Irq)
      (halNetDev : next.halNetDev = hal.halNetDev)

/-- Guest memory once a frame has been put into the area. -/
def frameStored (mem : Bytes) (area : Nat) (bytes : List Bit8u) : Bytes :=
  storeWord (storeWord (splice mem (area + rxBufferOffset) bytes) area (1 : Bit32u))
    (area + rxBufferLenOffset) (BitVec.ofNat 32 (max bytes.length 60))

private theorem frameStored_full (mem : Bytes) (area : Nat) (bytes : List Bit8u) :
    rxBufferFull (frameStored mem area bytes) area = 1 := by
  rw [rxBufferFull, frameStored, loadWord_storeWord_disjoint (by unfold rxBufferLenOffset; omega),
    loadWord_storeWord_self (by decide)]

private theorem storeWord_slice {mem : Bytes} {offset place length : Nat} {word : Bit32u}
    (apart : offset + 4 ≤ place) : slice (storeWord mem offset word) place length =
      slice mem place length := by
  apply slice_congr
  intro byte low _
  rw [storeWord, store_outside (by omega)]

/-- The frame is found at the start of what is taken for the packet. -/
theorem frameStored_padded {mem : Bytes} {area : Nat} {bytes : List Bit8u}
    (fits : bytes.length ≤ maxEthernetFrameSize) :
    Padded bytes (rxPacket (frameStored mem area bytes) area) := by
  have small : bytes.length ≤ 1514 := fits
  have length : (loadWord 32 (frameStored mem area bytes) (area + rxBufferLenOffset)).toNat =
      max bytes.length 60 := by
    rw [frameStored, loadWord_storeWord_self (by decide), BitVec.toNat_ofNat]
    omega
  have packet : rxPacket (frameStored mem area bytes) area =
      slice (splice mem (area + rxBufferOffset) bytes) (area + rxBufferOffset)
        (max bytes.length 60) := by
    rw [rxPacket, length, frameStored,
      storeWord_slice (by unfold rxBufferLenOffset rxBufferOffset; omega),
      storeWord_slice (by unfold rxBufferOffset; omega)]
  constructor
  · have whole : bytes.length + (max bytes.length 60 - bytes.length) = max bytes.length 60 :=
      Nat.add_sub_cancel' (Nat.le_max_left _ _)
    rw [packet, ← whole, ← slice_append, slice_splice_self]
    exact List.prefix_append ..
  · rw [packet, slice_length]
  · rw [packet, slice_length]
    exact Nat.max_le.mpr ⟨fits, by decide⟩

private theorem allPacketsConsumed_receives (none : frameRead host area hal = [])
    (mem : next.mem = hal.mem) (halIrq : next.guestCPU.halIrq = hal.guestCPU.halIrq)
    (halNetDev : next.halNetDev = hal.halNetDev) :
    ∃ last, allPacketsConsumed next = .ok () last ∧ Receives host area hal last :=
  ⟨_, rfl, .nothing none mem halIrq halNetDev⟩

/-- Reading into an area whose buffer is free. -/
theorem halNetReceive_receives (free : rxBufferFull hal.mem area = 0) (noted : List Touch) :
    ∃ last, halNetReceive host area { hal with touched := noted } = .ok () last ∧
      Receives host area hal last := by
  unfold halNetReceive
  rw [get_bind_apply, systemCall_bind_apply]
  cases answer : (host.read hal.fdTunTap maxEthernetFrameSize hal.world).1 with
  | data bytes fits =>
      have read : frameRead host area hal = if bytes = [] then [] else [bytes] := by
        rw [frameRead, if_pos free, answer]
      simp only [Logic.ite_apply]
      split
      · next empty => exact allPacketsConsumed_receives (by rw [read, if_pos empty]) rfl rfl rfl
      · next data =>
        rw [if_neg data] at read
        refine ⟨_, rfl, .frame bytes read free ?_ ?_ rfl rfl⟩
        · exact frameStored_full hal.mem area bytes
        · exact frameStored_padded fits
  | failed errno =>
      have read : frameRead host area hal = [] := by
        rw [frameRead, if_pos free, answer]
      cases errno with
      | eagain => exact allPacketsConsumed_receives read rfl rfl rfl
      | eintr | other => exact ⟨_, rfl, .nothing read rfl rfl rfl⟩

/-- Whatever the network answers, reading from it for a registered device returns. -/
theorem halNetReadPacketToGuest_receives {rounds : Nat} {deviceNo : Fin halNetMaxDevices}
    (registered : (hal.halNetDev deviceNo).registered = true)
    (shared : (hal.halNetDev deviceNo).guestArea = some area) :
    ∃ last, halNetReadPacketToGuest host rounds deviceNo hal = .ok () last ∧
      Receives host area hal last := by
  rw [halNetReadPacketToGuest, get_bind_apply, if_pos registered, shared, deref_some_bind]
  have word : readGuestWord area hal =
      .ok (rxBufferFull hal.mem area) { hal with touched := ⟨area, 4, hal.memAllocated⟩ :: hal.touched } :=
    rfl
  rw [bind_apply, word]
  dsimp only
  rw [Logic.ite_apply]
  split
  · next free => exact halNetReceive_receives free _
  · next full => exact ⟨_, rfl, .nothing (by rw [frameRead, if_neg full]) rfl rfl rfl⟩

end Receive

end Plex86
