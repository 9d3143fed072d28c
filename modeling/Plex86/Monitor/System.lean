import Plex86.Host.Execute
import Plex86.Host.Startup
import Plex86.Monitor.FaultSpec
import Plex86.Paging.HeapRun

/-! The machine as a whole: user space enters the guest, the guest runs until it
faults or is interrupted, and the monitor handles that and resumes it. -/

namespace Plex86

open Logic Vm

/-- What user space may write while it has been given control: the page it
shares with the monitor, as far as it uses it, and the guest's memory. -/
structure UserVisit where
  genReg : Fin 8 → Bit32u
  intr : Bit32u
  halIrq : Bit32u
  mem : Bit32u → Bytes
  native : Bool

/-- A way out of the monitor through `hostIoctlExecute` to user space and back in. -/
def visitUser (request : MonReq) (visit : UserVisit) : Mon Unit := do
  modify fun vm =>
    { vm with
      monRequest := request
      guestCpu := { vm.guestCpu with
        genReg := if request = .halCall then vm.context.genRegs else vm.guestCpu.genReg
        intr := vm.intr } }
  modify fun vm =>
    { vm with
      guestCpu := { vm.guestCpu with
        genReg := visit.genReg, intr := visit.intr, halIrq := visit.halIrq }
      mem := visit.mem }
  hostIoctlExecute visit.native

/-- An access that the emulation code makes to guest memory. -/
inductive Access
  | translate (lAddr : Bit32u)
  | object (lAddr len : Bit32u) (small : len ≤ 0x1000#32)
  | dword (lAddr : Bit32u)
  | word (lAddr : Bit32u)
  | writeDWord (lAddr val : Bit32u)
  | descByLAddr (laddr : Bit32u)
  | descBySel (sel : Selector) (updateBusyBit : Bool)

def Access.run : Access → Mon Unit
  | .translate lAddr => do let _ ← translateLinToPhy lAddr
  | .object lAddr len _ => do let _ ← getObjectLAddr lAddr len
  | .dword lAddr => do let _ ← getGuestDWord lAddr
  | .word lAddr => do let _ ← getGuestWord lAddr
  | .writeDWord lAddr val => writeGuestDWord lAddr val
  | .descByLAddr laddr => do let _ ← fetchGuestDescByLAddr laddr
  | .descBySel sel updateBusyBit => do let _ ← fetchGuestDescBySel sel updateBusyBit

/-- What the monitor does about a fault of the guest. -/
inductive MonOp
  | pageFault (cr2 : Bit32u)
  | invalidate (laddr : Bit32u)
  | setCRx (crx val32 : Bit32u)
  | interrupt (vector intFlags errorCode : Bit32u)
  | iret (visit : UserVisit)
  | loadSegment (sreg : SReg) (selector : Selector)
  | sti (iLen : Bit32u)
  | halCall (visit : UserVisit)
  | access (request : Access)
  | pin (ppi : Bit32u)
  | other

def MonOp.run : MonOp → Mon Unit
  | .pageFault cr2 => guestPageFault cr2
  | .invalidate laddr => invalidateGuestLinAddr laddr
  | .setCRx crx val32 => Plex86.setCRx crx val32
  | .interrupt vector intFlags errorCode => doGuestInterrupt vector intFlags errorCode
  | .iret visit => do
      doIRET
      visitUser .bogus visit
  | .loadSegment sreg selector => loadGuestSegment sreg selector
  | .sti iLen => emulateSTI iLen
  | .halCall visit => visitUser .halCall visit
  | .access request => request.run
  | .pin ppi => do let _ ← getHostOSPinnedPage ppi
  | .other => return () -- an instruction that changes registers only

/-- What ended a stretch of native execution: a fault, or an interrupt for the
host, which may give control to user space. -/
inductive Cause
  | fault (op : MonOp)
  | int (visit : Option UserVisit)

/-- `handleInt` -/
def handleInt (cycles : BitVec 64) (visit : Option UserVisit) : Mon Unit := do
  modify fun vm => { vm.entered cycles with monRequest := .redirect }
  match visit with
  | none => modify fun vm => { vm with monRequest := .none } -- Request satisfied
  | some visit => visitUser .redirect visit

/-- A stretch of native execution: the machine the guest has left, and what ended it. -/
structure Trap where
  now : Vm
  cycles : BitVec 64
  cause : Cause

namespace Trap

/-- The handling of the trap, up to the resumption of the guest. -/
def handle (trap : Trap) : Mon Unit :=
  match trap.cause with
  | .fault op => do
      enterGuestFault trap.cycles
      op.run
  | .int visit => handleInt trap.cycles visit

def serve (trap : Trap) : Mon Unit := do
  trap.handle
  preGuest

end Trap

/-- What native execution may change: registers and memory, and whatever the
instructions change that are emulated without touching pages. Ring 3 with IOPL 0
cannot change IF, IOPL, VM and VIP, nor VIF outside PVI mode. -/
structure Native (vm now : Vm) : Prop where
  setup : now.setup = vm.setup
  guestCPL : now.guestCPL = vm.guestCPL
  monCr4 : now.monCr4 = vm.monCr4
  gdt : now.gdt = vm.gdt
  vmState : now.vmState = vm.vmState
  shadow : now.shadow = vm.shadow
  nexus : now.nexusPageTbl = vm.nexusPageTbl
  pins : now.pins = vm.pins
  calls : now.hostCalls = vm.hostCalls
  accesses : now.accesses = vm.accesses
  pg : now.guestCpu.pg = vm.guestCpu.pg
  wp : now.guestCpu.wp = vm.guestCpu.wp
  cr3 : now.guestCpu.cr3 = vm.guestCpu.cr3
  if_ : EFlags.if_ now.context.eflags = EFlags.if_ vm.context.eflags
  iopl : EFlags.iopl now.context.eflags = EFlags.iopl vm.context.eflags
  vm86 : EFlags.vm now.context.eflags = EFlags.vm vm.context.eflags
  vip : EFlags.vip now.context.eflags = EFlags.vip vm.context.eflags
  vif : vm.monCr4.getLsbD 1 = false →
    EFlags.vif now.context.eflags = EFlags.vif vm.context.eflags

/-- From one resumption of the guest to the next. -/
def Step (vm : Vm) (trap : Trap) (next : Vm) : Prop :=
  Native vm trap.now ∧ trap.serve trap.now = .ok () next

/-- The guest is resumed for the first time. -/
def Started (reg : Registration) (vm : Vm) : Prop :=
  ∃ boot native, reg.Registered boot ∧
    (hostIoctlExecute native >>= fun _ => preGuest) boot = .ok () vm

/-- The guest is resumed for the first time, from what user space has set up in `boot`. -/
def StartedBy (boot vm : Vm) : Prop :=
  ∃ native, (hostIoctlExecute native >>= fun _ => preGuest) boot = .ok () vm

theorem StartedBy.started {reg : Registration} {boot vm : Vm} (registered : reg.Registered boot)
    (started : StartedBy boot vm) : Started reg vm :=
  started.elim fun native run => ⟨boot, native, registered, run⟩

/-- The runs of a machine; the states reached are those the guest is resumed in. -/
abbrev GuestRun (reg : Registration) (past : List (Moment Vm Trap)) (vm : Vm) : Prop :=
  Run (Started reg) Step past vm

end Plex86
