import Plex86.Hal.Call

namespace Plex86

open Logic

section
variable {World : Type} (host : HostCalls World)

/-- The driver fills its transmit buffer. `area` is the physical address of the
page that it shares with the host. -/
def fillTxBuffer (area : Nat) (quantum : List Bit8u) : HalM World Unit :=
  modify fun hal => { hal with mem := splice hal.mem (area + txBufferOffset) quantum }

namespace ConsoleDriver

/-- `int $0xff` with the registers of `HalCallConGuestWrite`. -/
def halConGuestWrite (device len : Bit32u) : HalM World Unit := do
  modify fun hal =>
    ((hal.setReg genRegEAX halCallConGuestWrite).setReg genRegEBX device).setReg genRegEDX len
  let _ ← halCall host
  return ()

/-- One request. -/
def request (area : Nat) (quantum : List Bit8u) : HalM World Unit := do
  fillTxBuffer area quantum
  halConGuestWrite host 0 (BitVec.ofNat 32 quantum.length)

/-- The text cut into quanta of the size of the transmit buffer. -/
def quanta (text : List Bit8u) : List (List Bit8u) :=
  if text = [] then []
  else text.take maxConsoleFrameSize :: quanta (text.drop maxConsoleFrameSize)
termination_by text.length
decreasing_by
  have positive : 0 < text.length := List.length_pos_iff.mpr ‹_›
  rw [List.length_drop, maxConsoleFrameSize]
  omega

def halconPrint (area : Nat) (s : List Bit8u) : HalM World Unit :=
  forM (quanta s) (request host area)

/-- The low bytes hold the characters, the high bytes their attributes. -/
def halconPutcs (area : Nat) (s : List Bit16u) : HalM World Unit := do
  forM (quanta (s.map (·.setWidth 8))) (request host area)
  halconPrint host area [newlineChar]

end ConsoleDriver
end
end Plex86
