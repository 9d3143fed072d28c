import Plex86.Hal.Console
import Plex86.Hal.Disk
import Plex86.Hal.Net

namespace Plex86

open Logic

section
variable {World : Type} (host : HostCalls World)

/-- Serve the call in the guest's registers; `false` where there is no such call. -/
def halCall : HalM World Bool := do
  let hal ← get
  let callNo := hal.reg genRegEAX
  if callNo = halCallNetGuestRegDev ∨ callNo = halCallNetGuestTx then do
    halNetCall host callNo
    return true
  else if callNo = halCallConGuestRegDev ∨ callNo = halCallConGuestWrite then do
    halConCall host callNo
    return true
  else if callNo = halCallDiskGetInfo ∨ callNo = halCallDiskWrite ∨ callNo = halCallDiskRead ∨
      callNo = halCallDiskCleanup then do
    halDiskCall host callNo
    return true
  else return false

/-- The guest's registers and memory when it makes a call. -/
structure GuestCall where
  genReg : Fin 8 → Bit32u
  mem : Bytes := fun _ => 0

/-- The guest has run up to its call. -/
def Hal.enter (hal : Hal World) (call : GuestCall) : Hal World :=
  { hal with mem := call.mem, guestCPU := { hal.guestCPU with genReg := call.genReg } }

end
end Plex86
