import Plex86.Hal.State

/-! The network devices: frames that the guest sends go to the TUN/TAP device,
and frames that arrive there are put into the area that the guest registered. -/

namespace Plex86

open Logic

def maxEthernetFrameSize : Nat := 1514

/-- `sizeof(halNetGuestRxArea_t)`, padded to whole words -/
def sizeofHalNetGuestRxArea : Bit32u := 1524

/-- `offsetof(halNetGuestRxArea_t, rxBufferLen)` -/
def rxBufferLenOffset : Nat := 4

/-- `offsetof(halNetGuestRxArea_t, rxBuffer)` -/
def rxBufferOffset : Nat := 8

def halNet0Irq : Bit32u := 3

section
variable {World : Type} (host : HostCalls World)

/-- `HalCallNetGuestRegDev` -/
def halNetGuestRegDev : HalM World Unit := do
  let hal ← get
  let rxAreaPAddr := hal.reg genRegECX
  let rxAreaLen := hal.reg genRegEDX
  if known : (hal.reg genRegEBX).toNat < halNetMaxDevices then
    let deviceNo : Fin halNetMaxDevices := ⟨_, known⟩
    if (hal.halNetDev deviceNo).Accepts hal.memSize sizeofHalNetGuestRxArea rxAreaPAddr rxAreaLen
    then do
      modify fun hal => { hal with
        halNetDev := Function.update hal.halNetDev deviceNo (.register rxAreaPAddr rxAreaLen) }
      halSuccess
    else halFailExit host
  else halFailExit host

/-- Write the guest's packet to the TUN/TAP interface. -/
def halNetSend (packetPAddr packetLen : Bit32u) : HalM World Unit := do
  let hal ← get
  let bytes ← readGuest packetPAddr.toNat packetLen.toNat
  let ret ← systemCall (host.write hal.fdTunTap bytes)
  if BitVec.ofInt 32 ret = packetLen then halSuccess else halFailExit host

/-- `HalCallNetGuestTx` -/
def halNetGuestTx : HalM World Unit := do
  let hal ← get
  let packetPAddr := hal.reg genRegECX
  let packetLen := hal.reg genRegEDX
  if known : (hal.reg genRegEBX).toNat < halNetMaxDevices then
    if (hal.halNetDev ⟨_, known⟩).registered = false then halFailExit host
    else if maxEthernetFrameSize < packetLen.toNat then halFailExit host
    else if hal.memSize - packetLen ≤ packetPAddr then halFailExit host
    else halNetSend host packetPAddr packetLen
  else halFailExit host

def halCallNetGuestTx : Bit32u := 1
def halCallNetGuestRegDev : Bit32u := 2

def halNetCall (callNo : Bit32u) : HalM World Unit :=
  if callNo = halCallNetGuestRegDev then halNetGuestRegDev host
  else if callNo = halCallNetGuestTx then halNetGuestTx host
  else halFailExit host

/-- `tuntapDev0SigIO`, the handler of SIGIO. -/
def tuntapDev0SigIO : HalM World Unit :=
  modify fun hal => { hal with halNetProducerCount := hal.halNetProducerCount + 1 }

/-- The exit `allPacketsConsumed`. -/
def allPacketsConsumed : HalM World Unit :=
  modify fun hal => { hal with halNetConsumerCount := hal.halNetConsumerCount + 1 }

/-- A packet has been read into the area: tell the guest. Short packets are
padded to the least size of an ethernet frame. -/
def halNetPacketStored (area packetLen : Nat) : HalM World Unit := do
  modify fun hal => hal.putWord area 1
  modify fun hal => hal.putWord (area + rxBufferLenOffset) (BitVec.ofNat 32 (max packetLen 60))
  modify fun hal => { hal with guestCPU := { hal.guestCPU with halIrq := halNet0Irq } }

/-- Read a packet into an area whose buffer is free. -/
def halNetReceive (area : Nat) : HalM World Unit := do
  let hal ← get
  match ← systemCall (host.read hal.fdTunTap maxEthernetFrameSize) with
  | .data bytes _ =>
      if bytes = [] then allPacketsConsumed
      else do
        modify fun hal => hal.put (area + rxBufferOffset) bytes
        halNetPacketStored area bytes.length
  | .failed .eagain => allPacketsConsumed
  | .failed _ => pure ()

/-- Drain the packets for a device that is not registered. -/
def halNetDrain : Nat → HalM World Unit
  | 0 => throw .running
  | rounds + 1 => do
      let hal ← get
      match ← systemCall (host.read hal.fdTunTap maxEthernetFrameSize) with
      | .data bytes _ => if bytes = [] then allPacketsConsumed else halNetDrain rounds
      | .failed _ => allPacketsConsumed

/-- `rounds` bounds the loop that drains packets. -/
def halNetReadPacketToGuest (rounds : Nat) (deviceNo : Fin halNetMaxDevices) :
    HalM World Unit := do
  let hal ← get
  if (hal.halNetDev deviceNo).registered then do
    let area ← deref (hal.halNetDev deviceNo).guestArea
    if (← readGuestWord area) = 0 then halNetReceive host area
    else pure () -- The packet is processed later, when the buffer empties.
  else halNetDrain host rounds

end
end Plex86
