import Plex86.Hal.State

/-! The console: the host's side, which collects the characters into lines, and
the guest's driver, which sends them. -/

namespace Plex86

open Logic

/-- One extra, since a newline may come in a separate request after 80 characters. -/
def lineLen : Nat := 81

/-- `sizeof(halConLine)` -/
def halConLineSize : Nat := lineLen + 2

def maxConsoleFrameSize : Nat := 1024

/-- `offsetof(halConGuestRwArea_t, txBuffer)` -/
def txBufferOffset : Nat := 1032

/-- `sizeof(halConGuestRwArea_t)` -/
def sizeofHalConGuestRwArea : Bit32u := 2056

/-- `'\n'` -/
def newlineChar : Bit8u := 0x0a

/-- `"> "` -/
def prompt : List Bit8u := [0x3e, 0x20]

def isgraph (c : Bit8u) : Bool := decide (0x21#8 ≤ c ∧ c ≤ 0x7e#8)

namespace HalConLine

/-- `halConLine[halConLineI++] = c` -/
def store (con : HalConLine) (c : Bit8u) : HalConLine :=
  { con with line := Function.update con.line con.lineI c, lineI := con.lineI + 1 }

/-- The characters of the string in `halConLine`. -/
def cString (con : HalConLine) : List Bit8u :=
  ((List.range halConLineSize).map con.line).takeWhile (· ≠ 0)

/-- Print the line, and reset the index. -/
def print (con : HalConLine) : HalConLine :=
  { con with printed := con.printed ++ prompt ++ con.cString, lineI := 0 }

end HalConLine

section
variable {World : Type} (host : HostCalls World)

/-- Store a character in the line; nothing may be stored past its end. -/
def storeChar (c : Bit8u) : HalM World Unit := do
  let hal ← get
  if hal.halConLine.lineI < halConLineSize then
    modify fun hal => { hal with halConLine := hal.halConLine.store c }
  else throw .overrun

/-- Terminate the line with a newline and NULL, and print it. -/
def endLine : HalM World Unit := do
  storeChar newlineChar
  storeChar 0
  modify fun hal => { hal with halConLine := hal.halConLine.print }

/-- If previous characters filled the buffer, print them out first. -/
def endFullLine : HalM World Unit := do
  let hal ← get
  if lineLen ≤ hal.halConLine.lineI then endLine else pure ()

def halConChar (c : Bit8u) : HalM World Unit :=
  if c = newlineChar then endLine
  else if isgraph c then storeChar c -- Normal chars get passed through.
  else storeChar 0x20 -- Transformed others to a space.

/-- `halConDev[0].guestRwArea->txBuffer[bufferI]` -/
def txBufferChar (bufferI : Nat) : HalM World Bit8u := do
  let hal ← get
  let area ← deref (hal.halConDev 0).guestArea
  modify fun hal => hal.touch (area + txBufferOffset + bufferI) 1
  return hal.mem (area + txBufferOffset + bufferI)

/-- The loop over the rest of a request. -/
def halConWriteLoop (bufferI : Nat) : Nat → HalM World Unit
  | 0 => pure ()
  | writeLen + 1 => do
      endFullLine
      let c ← txBufferChar bufferI
      halConChar c
      halConWriteLoop (bufferI + 1) writeLen

/-- `HalCallConGuestWrite` -/
def halConGuestWrite : HalM World Unit := do
  let hal ← get
  let deviceNo := hal.reg genRegEBX
  let writeLen := hal.reg genRegEDX
  if halConMaxDevices ≤ deviceNo.toNat then halFailExit host
  else if maxConsoleFrameSize < writeLen.toNat then halFailExit host
  else do
    halConWriteLoop 0 writeLen.toNat
    halSuccess

/-- `HalCallConGuestRegDev` -/
def halConGuestRegDev : HalM World Unit := do
  let hal ← get
  let rwAreaPAddr := hal.reg genRegECX
  let rwAreaLen := hal.reg genRegEDX
  if known : (hal.reg genRegEBX).toNat < halConMaxDevices then
    let deviceNo : Fin halConMaxDevices := ⟨_, known⟩
    if (hal.halConDev deviceNo).Accepts hal.memSize sizeofHalConGuestRwArea rwAreaPAddr rwAreaLen
    then do
      modify fun hal => { hal with
        halConDev := Function.update hal.halConDev deviceNo (.register rwAreaPAddr rwAreaLen) }
      halSuccess
    else halFailExit host
  else halFailExit host

def halCallConGuestWrite : Bit32u := 3
def halCallConGuestRegDev : Bit32u := 4

def halConCall (callNo : Bit32u) : HalM World Unit :=
  if callNo = halCallConGuestRegDev then halConGuestRegDev host
  else if callNo = halCallConGuestWrite then halConGuestWrite host
  else halFailExit host

end
end Plex86
