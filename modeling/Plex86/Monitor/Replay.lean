import Plex86.Monitor.System

/-! Runs that are computed from a registration, the state user space sets up,
and what the guest does; and a small guest to compute them for. -/

namespace Plex86

open Logic Vm

/-- What happens between two resumptions: the guest stores to its memory, gets a
fault with an error code or is interrupted, and the monitor handles that. -/
structure Episode where
  cause : Cause
  error : Bit32u := 0
  store : (Bit32u → Bytes) → (Bit32u → Bytes) := id

def Episode.trap (episode : Episode) (vm : Vm) : Trap where
  now := { vm with
    context := { vm.context with error := episode.error }
    mem := episode.store vm.mem }
  cycles := 0
  cause := episode.cause

theorem Episode.native (episode : Episode) (vm : Vm) : Native vm (episode.trap vm).now := by
  constructor <;> intros <;> rfl

/-- Go on with a run by one episode after another. -/
def playOn (past : List (Moment Vm Trap)) (vm : Vm) :
    List Episode → Option (List (Moment Vm Trap) × Vm)
  | [] => some (past, vm)
  | episode :: rest =>
      let trap := episode.trap vm
      match leaves trap.serve trap.now with
      | some next => playOn (⟨vm, trap, next⟩ :: past) next rest
      | none => none

/-- The run that user space starts with `boot`, and the episodes after that. -/
def play (boot : Vm) (episodes : List Episode) : Option (List (Moment Vm Trap) × Vm) :=
  match leaves (hostIoctlExecute true >>= fun _ => preGuest) boot with
  | some first => playOn [] first episodes
  | none => none

private theorem playOn_run {start : Vm → Prop} {past later : List (Moment Vm Trap)} {vm last : Vm}
    {episodes : List Episode} (run : Run start Step past vm)
    (played : playOn past vm episodes = some (later, last)) : Run start Step later last := by
  induction episodes generalizing past vm with
  | nil =>
      cases played
      exact run
  | cons episode rest inductionHypothesis =>
      unfold playOn at played
      cases served : leaves (episode.trap vm).serve (episode.trap vm).now with
      | none => simp [served] at played
      | some next =>
          simp only [served] at played
          have step : Step vm (episode.trap vm) next :=
            ⟨episode.native vm, leaves_eq_some.mp served⟩
          exact inductionHypothesis (.next run step) played

/-- What is played is a run from the state that user space has set up. -/
theorem play_run {boot last : Vm} {later : List (Moment Vm Trap)} {episodes : List Episode}
    (played : play boot episodes = some (later, last)) : Run (StartedBy boot) Step later last := by
  unfold play at played
  cases started : leaves (hostIoctlExecute true >>= fun _ => preGuest) boot with
  | none => simp [started] at played
  | some first =>
      simp only [started] at played
      have begun : StartedBy boot first := ⟨true, leaves_eq_some.mp started⟩
      exact playOn_run (.start begun) played

/-- Where a check succeeds on the state played to, a run reaches such a state. -/
theorem play_reaches_by {boot : Vm} {episodes : List Episode}
    {check : List (Moment Vm Trap) × Vm → Bool}
    (checked : (play boot episodes).any check = true) :
    ∃ past vm, Run (StartedBy boot) Step past vm ∧ check (past, vm) = true := by
  cases played : play boot episodes with
  | none => simp [played] at checked
  | some reached =>
      refine ⟨reached.1, reached.2, play_run played, ?_⟩
      simpa [played] using checked

theorem play_reaches {reg : Registration} {boot : Vm} {episodes : List Episode}
    {check : List (Moment Vm Trap) × Vm → Bool} (registered : reg.Registered boot)
    (checked : (play boot episodes).any check = true) :
    ∃ past vm, GuestRun reg past vm ∧ check (past, vm) = true := by
  obtain ⟨past, vm, run, found⟩ := play_reaches_by checked
  exact ⟨past, vm, run.mono fun _ started => started.started registered, found⟩

/-- The page that a fault maps and the state it leaves, where it maps one. -/
def mapsPage (vm : Vm) (cr2 : Bit32u) : Option (Bit32u × Vm) :=
  match mapGuestLinAddr cr2 vm.faultAccess.1 vm.faultAccess.2 vm with
  | .ok (.ok page) next => some (page, next)
  | _ => none

theorem mapsPage_mapping {vm : Vm} {cr2 : Bit32u} (maps : (mapsPage vm cr2).isSome = true) :
    ∃ page next, mapGuestLinAddr cr2 vm.faultAccess.1 vm.faultAccess.2 vm = .ok (.ok page) next := by
  unfold mapsPage at maps
  split at maps
  · next page next mapping => exact ⟨page, next, mapping⟩
  · simp at maps

theorem mapsPage_eq {vm next : Vm} {cr2 page : Bit32u}
    (mapping : mapGuestLinAddr cr2 vm.faultAccess.1 vm.faultAccess.2 vm = .ok (.ok page) next) :
    mapsPage vm cr2 = some (page, next) := by
  rw [mapsPage, mapping]

/-- A page filled dword by dword. -/
def pageOf (dword : Nat → Bit32u) : Bytes := fun offset =>
  (dword (offset / 4)).extractLsb' (8 * (offset % 4)) 8

namespace Sample

def pages : VmPages where
  kernelModulePages := [0x100, 0x101]
  nexus := 0x102
  vm := [0x103]
  idt := [0x104]
  gdt := [0x105]
  ldt := [0x106]
  tss := [0x107]
  idtStubs := [0x108]
  monLogBuffer := 0x109
  pageDir := 0x10a
  nexusPageTbl := 0x10b
  pageTbl := (List.range 80).map fun index => 0x200 + BitVec.ofNat 20 index
  pageTblLaddrMap := 0x10c
  guestCpu := 0x10d
  guestPageInfo := [0x10e]
  userLogBuffer := [0x10f]

/-- A guest of four megabytes under Linux. -/
def reg : Registration where
  linuxVMMode := true
  nMegs := 4
  guestPhyMemVector := 0x40000000
  family := 6
  startOffsetPageAligned := 0
  pages
  os

theorem reg_valid : reg.Valid where
  tables := rfl
  distinct := by decide +kernel
  fits := by decide +kernel

/-- The guest's directory: four megabytes under one table. -/
def directory : Nat → Bit32u
  | 0 => 0x2007
  | _ => 0

/-- The guest's table: pages at their own addresses. Page 9 is for the kernel
only, and page 10 is read-only. -/
def table (index : Nat) : Bit32u :=
  if index = 9 then 0x9003
  else if index = 10 then 0xa005
  else (BitVec.ofNat 32 index <<< 12) ||| 7

/-- Interrupt gates into the kernel code segment, all with one handler. -/
def idt (index : Nat) : Bit32u := if index % 2 = 0 then 0x00107000 else 0x00008e00

/-- The segments of the Linux kernel and of its users. -/
def gdt : Nat → Bit32u
  | 4 | 6 | 8 | 10 => 0x0000ffff
  | 5 => 0x00cf9a00
  | 7 => 0x00cf9200
  | 9 => 0x00cffa00
  | 11 => 0x00cff200
  | _ => 0

/-- The task state: the kernel's stack. -/
def tss : Nat → Bit32u
  | 1 => 0x6f00
  | 2 => 0x18
  | _ => 0

/-- The kernel's stack, with a frame for a return to user code on it. -/
def stack : Nat → Bit32u
  | 0x380 => 0x8000
  | 0x381 => 0x23
  | 0x382 => 0x202
  | 0x383 => 0x8800
  | 0x384 => 0x2b
  | _ => 0

def memory (ppi : Bit32u) : Bytes :=
  if ppi = 1 then pageOf directory
  else if ppi = 2 then pageOf table
  else if ppi = 3 then pageOf idt
  else if ppi = 4 then pageOf gdt
  else if ppi = 5 then pageOf tss
  else if ppi = 6 then pageOf stack
  else fun _ => 0

/-- A flat segment at a ring. -/
def segment (sel : Bit16u) (raw : BitVec 64) : GuestSReg := ⟨⟨sel⟩, ⟨raw⟩, 1⟩

/-- The processor as it is handed over, in the kernel or in user code. -/
def cpu (user : Bool) : GuestCpu where
  genReg := fun register => if register = 4 then 0x6e00 else 0
  eflags := 0x202
  eip := 0x7000
  sreg := fun
    | .cs => if user then segment 0x23 0x00cffa000000ffff else segment 0x10 0x00cf9a000000ffff
    | .ss => if user then segment 0x2b 0x00cff2000000ffff else segment 0x18 0x00cf92000000ffff
    | _ => {}
  tr := segment 0x30 0x00008b0050000067
  gdtr := ⟨0xff, 0x4000⟩
  idtr := ⟨0x7ff, 0x3000⟩
  cr0 := 0x80000033
  cr3 := 0x1000
  halIrq := 0xffffffff

/-- The machine that user space has set up. -/
def boot (user : Bool) : Vm := { reg.machine with guestCpu := cpu user, mem := memory }

theorem boot_registered (user : Bool) : reg.Registered (boot user) :=
  ⟨reg_valid, cpu user, memory, 0, 0, rfl⟩

/-- A page fault of the guest. -/
def fault (cr2 error : Bit32u) : Episode := { cause := .fault (.pageFault cr2), error }

/-- A visit of user space that changes nothing. -/
def visit : UserVisit where
  genReg := fun _ => 0
  intr := 0
  halIrq := 0xffffffff
  mem := memory
  native := true

end Sample

end Plex86
