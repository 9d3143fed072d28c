import Plex86.Emulate.Control
import Plex86.Paging.Heap
import Plex86.Paging.WalkSpec

/-! How the host sets up a machine: the guest's physical memory, the table that
maps the monitor's own structures, and the directory entry over it. -/

namespace Plex86

open Logic

/-- `vm_pages_t`: the frames that the host has allocated for a machine, with
those of the kernel module. -/
structure VmPages where
  kernelModulePages : List Frame
  nexus : Frame
  vm : List Frame
  idt : List Frame
  gdt : List Frame
  ldt : List Frame
  tss : List Frame
  idtStubs : List Frame
  monLogBuffer : Frame
  pageDir : Frame
  nexusPageTbl : Frame
  pageTbl : List Frame
  pageTblLaddrMap : Frame
  guestCpu : Frame
  guestPageInfo : List Frame
  userLogBuffer : List Frame

/-- What a machine is registered with. -/
structure Registration where
  linuxVMMode : Bool
  nMegs : Bit32u
  guestPhyMemVector : Bit32u
  family : BitVec 4
  startOffsetPageAligned : Bit32u
  pages : VmPages
  os : HostOS

/-- The nexus page table while it is filled, and the next address to map at. -/
structure NexusMap where
  laddr : Bit32u := 0
  pageTable : Nat → PageEntry := fun _ => ⟨0⟩

namespace NexusMap

/-- `(laddr >> 12) & 0x3ff` -/
def slot (laddr : Bit32u) : Nat := ((laddr >>> 12) &&& 0x3ff#32).toNat

/-- The loop of `hostMapMonPages`. -/
def fill (pageTable : Nat → PageEntry) (pti : Nat) : List Frame → (Nat → PageEntry)
  | [] => pageTable
  | page :: rest =>
      if 1024 < pti then pageTable -- This should not happen!
      else
        -- Base/Avail=0/G=0/PS=0/D=0/A=0/PCD=0/PWT=0/US=0/RW=1/P=1
        fill (Function.update pageTable pti (.make page 3)) (pti + 1) rest

def hostMapMonPages (map : NexusMap) (pages : List Frame) : NexusMap where
  laddr := map.laddr + 4096 * BitVec.ofNat 32 pages.length
  pageTable := fill map.pageTable (slot map.laddr) pages

def hostMapBlankPage (map : NexusMap) : NexusMap where
  laddr := map.laddr + 4096
  pageTable := Function.update map.pageTable (slot map.laddr) ⟨0⟩

end NexusMap

namespace VmPages

/-- The regions that are each followed by a blank page, in the order of their mapping. -/
def regions (pages : VmPages) : List (List Frame) :=
  [pages.kernelModulePages, [pages.nexus], pages.vm, pages.idt, pages.gdt, pages.ldt, pages.tss,
    pages.idtStubs, [pages.monLogBuffer], [pages.pageDir], [pages.nexusPageTbl], pages.pageTbl,
    [pages.pageTblLaddrMap], [pages.guestCpu], pages.guestPageInfo, pages.userLogBuffer,
    [0]] -- the code page, whose frame is not yet established

/-- The map up to the two windows. -/
def beforeWindows (pages : VmPages) : NexusMap :=
  pages.regions.foldl (fun map region => (map.hostMapMonPages region).hostMapBlankPage) {}

/-- The map with the first window. -/
def firstWindow (pages : VmPages) : NexusMap := pages.beforeWindows.hostMapMonPages [0]

/-- The whole nexus page table. -/
def nexusMap (pages : VmPages) : NexusMap :=
  (pages.firstWindow.hostMapMonPages [0]).hostMapBlankPage

/-- The address that a region is mapped at, by its place among the regions. -/
def regionLaddr (pages : VmPages) (place : Nat) : Bit32u :=
  ((pages.regions.take place).foldl
    (fun map region => (map.hostMapMonPages region).hostMapBlankPage) ({} : NexusMap)).laddr

/-- How many slots of the nexus page table are used. -/
def slotsUsed (pages : VmPages) : Nat := (pages.regions.map fun region => region.length + 1).sum + 3

end VmPages

/-- `hostInitGuestPhyMem`: the attributes of a guest page. -/
def initialAttr (linuxVMMode : Bool) (guestNPages ppi : Bit32u) : PhyPageAttr where
  allocated := decide (ppi < guestNPages)
  -- the BIOS ROM area and the VGA BIOS ROM area
  ro := decide ((0xf0#32 ≤ ppi ∧ ppi ≤ 0xff#32) ∨ (0xc0#32 ≤ ppi ∧ ppi ≤ 0xc7#32))
  -- the VGA framebuffer area
  memMapIo := !linuxVMMode && decide (0xa0#32 ≤ ppi ∧ ppi ≤ 0xbf#32)

namespace Registration

def guestNPages (reg : Registration) : Bit32u := reg.nMegs * 256

/-- `vm->host.nexus_pde`: US=1, all of the US bits in the table under it are 0. -/
def nexusPDE (reg : Registration) : PageEntry := .make reg.pages.nexusPageTbl 7

/-- What registration fixes; the monitor's four megabytes lie at 0x70000000. -/
def setup (reg : Registration) : Setup where
  linuxVMMode := reg.linuxVMMode
  guestNPages := reg.guestNPages
  guestNBytes := reg.nMegs * 1024 * 1024
  guestPhyMemAddr := reg.guestPhyMemVector
  family := reg.family
  monPdi := 0x1c0
  monPdeMask := 0x70000000#32 &&& 0xffc00000#32
  startOffsetPageAligned := reg.startOffsetPageAligned
  -- addresses are relative to the base of the monitor's segments
  tmpPhyPage0 := reg.pages.beforeWindows.laddr - (0 - reg.startOffsetPageAligned)
  tmpPhyPage1 := reg.pages.firstWindow.laddr - (0 - reg.startOffsetPageAligned)
  pageTbl := fun index => reg.pages.pageTbl.getD index.toNat 0
  nexusPageTbl := reg.pages.nexusPageTbl
  cpuToPitRatio := 100
  os := reg.os

/-- The descriptors that `hostMapMonitor` puts into the monitor's GDT. -/
def monitorGdt (reg : Registration) : BitVec 13 → Descriptor :=
  let base := 0x70000000 - reg.startOffsetPageAligned
  let tss := reg.pages.regionLaddr 6 - (0 - reg.startOffsetPageAligned)
  let monitor := Function.update (Function.update (Function.update (fun _ => ⟨0⟩)
    vmMonCsSlot (setDescriptor base 0xfffff 1 1 0 1 0 0x1a))
    vmMonDsSlot (setDescriptor base 0xfffff 1 1 0 1 0 0x12))
    vmMonTssSlot (setDescriptor (base + tss) 103 0 0 0 1 0 0x09)
  -- the kernel data segment of Linux, whose values are known ahead of time
  let linux := setDescriptor 0 0xfffff 1 1 0 1 3 0x12
  if reg.linuxVMMode then
    Function.update (Function.update monitor linuxKernelDsSlot linux) linuxBootDsSlot linux
  else monitor

/-- The machine as `hostIoctlRegisterMem` leaves it. -/
def machine (reg : Registration) : Vm where
  setup := reg.setup
  vmState := 0xff#32
  gdt := reg.monitorGdt
  nexusPageTbl := reg.pages.nexusMap.pageTable
  shadow := { pageDir := Function.update (fun _ => ⟨0⟩) reg.setup.monPdi reg.nexusPDE }
  pins :=
    { guestPageInfo := fun ppi => { attr := initialAttr reg.linuxVMMode reg.guestNPages ppi } }
  picMaster := { imr := 0xff, vectorOffset := 0x20 }
  picSlave := { imr := 0xfb, vectorOffset := 0x28 }

/-- The host has a frame of its own for every table, and the monitor's
structures fit in the slots of the nexus page table. -/
structure Valid (reg : Registration) : Prop where
  tables : reg.pages.pageTbl.length = 80
  distinct : (reg.pages.nexusPageTbl :: reg.pages.pageTbl).Nodup
  fits : reg.pages.slotsUsed ≤ 1024

/-- A machine just registered: user space has loaded the guest into its memory
and set up the processor, perhaps after attempts that were turned down. -/
structure Registered (reg : Registration) (vm : Vm) : Prop where
  valid : reg.Valid
  machine : ∃ guestCpu mem guestCPL intr,
    vm = { reg.machine with guestCpu, mem, guestCPL, intr }

end Registration

namespace NexusMap

/-- No entry of the table lets user code through. -/
def Private (map : NexusMap) : Prop := ∀ pti, (map.pageTable pti).us = false

private theorem fill_us {pageTable : Nat → PageEntry} (hidden : ∀ pti, (pageTable pti).us = false)
    (pti : Nat) (pages : List Frame) : ∀ place, (fill pageTable pti pages place).us = false := by
  induction pages generalizing pageTable pti with
  | nil => exact hidden
  | cons page rest inductionHypothesis =>
      unfold fill
      split
      · exact hidden
      · refine inductionHypothesis (fun place => ?_) (pti + 1)
        simp only [Function.update_apply]
        split
        · simp
        · exact hidden place

theorem Private.hostMapMonPages {map : NexusMap} (hidden : map.Private) (pages : List Frame) :
    (map.hostMapMonPages pages).Private :=
  fill_us hidden (slot map.laddr) pages

theorem Private.hostMapBlankPage {map : NexusMap} (hidden : map.Private) :
    map.hostMapBlankPage.Private := by
  intro pti
  simp only [NexusMap.hostMapBlankPage, Function.update_apply]
  split
  · rfl
  · exact hidden pti

theorem Private.regions {map : NexusMap} (hidden : map.Private) (regions : List (List Frame)) :
    (regions.foldl (fun map region => (map.hostMapMonPages region).hostMapBlankPage) map).Private := by
  induction regions generalizing map with
  | nil => exact hidden
  | cons region rest inductionHypothesis =>
      rw [List.foldl_cons]
      exact inductionHypothesis (hidden.hostMapMonPages region).hostMapBlankPage

theorem slot_eq (laddr : Bit32u) : slot laddr = laddr.toNat / 4096 % 1024 := by
  have mask := Nat.and_two_pow_sub_one_eq_mod (laddr.toNat / 4096) 10
  rw [slot, BitVec.toNat_and, BitVec.toNat_ushiftRight, Nat.shiftRight_eq_div_pow]
  exact mask

/-- Neighbouring pages have different slots, also where the addresses wrap around. -/
theorem slot_succ_ne (laddr : Bit32u) : slot laddr ≠ slot (laddr + 4096) := by
  rw [slot_eq, slot_eq, BitVec.toNat_add]
  have small := laddr.isLt
  have page : (4096 : Bit32u).toNat = 4096 := rfl
  rw [page]
  omega

private theorem hostMapMonPages_one (map : NexusMap) (page : Frame) :
    (map.hostMapMonPages [page]).laddr = map.laddr + 4096 := by
  simp [hostMapMonPages]

end NexusMap

namespace Registration

theorem nexusMap_private (pages : VmPages) : pages.nexusMap.Private := by
  have empty : ({} : NexusMap).Private := by
    intro pti
    simp [PageEntry.us]
  exact (((empty.regions pages.regions).hostMapMonPages [0]).hostMapMonPages [0]).hostMapBlankPage

private theorem windowPti_eq (reg : Registration) (laddr : Bit32u) :
    reg.setup.windowPti (laddr - (0 - reg.startOffsetPageAligned)) = NexusMap.slot laddr := by
  have back : laddr - (0 - reg.startOffsetPageAligned) - reg.startOffsetPageAligned = laddr := by
    bv_omega
  have start : reg.setup.startOffsetPageAligned = reg.startOffsetPageAligned := rfl
  rw [Setup.windowPti, NexusMap.slot, start, back]

/-- The two windows lie in neighbouring slots. -/
theorem windowsApart (reg : Registration) : reg.setup.WindowsApart := by
  have first : reg.setup.windowPti reg.setup.tmpPhyPage0 =
      NexusMap.slot reg.pages.beforeWindows.laddr := reg.windowPti_eq _
  have second : reg.setup.windowPti reg.setup.tmpPhyPage1 =
      NexusMap.slot (reg.pages.beforeWindows.laddr + 4096) := by
    rw [← NexusMap.hostMapMonPages_one _ 0]
    exact reg.windowPti_eq _
  rw [Setup.WindowsApart, first, second]
  exact NexusMap.slot_succ_ne _

/-- No page is both read-only and memory mapped. -/
theorem initialAttr_apart (linuxVMMode : Bool) (guestNPages ppi : Bit32u)
    (readOnly : (initialAttr linuxVMMode guestNPages ppi).ro = true) :
    (initialAttr linuxVMMode guestNPages ppi).memMapIo = false := by
  simp only [initialAttr, decide_eq_true_eq] at readOnly
  have outside : ¬ (0xa0#32 ≤ ppi ∧ ppi ≤ 0xbf#32) := by
    simp only [BitVec.le_def] at readOnly ⊢
    simp at readOnly ⊢
    omega
  simp [initialAttr, outside]

private theorem nexusPDE_p (reg : Registration) : reg.nexusPDE.p = true := by
  simp [nexusPDE]

theorem nexusPDE_base (reg : Registration) : reg.nexusPDE.base = reg.pages.nexusPageTbl :=
  PageEntry.make_base _ _ (by decide)

theorem monitorMapped (reg : Registration) : MonitorMapped reg.setup reg.machine.shadow where
  present := by simp [machine, nexusPDE_p]
  mask := by
    change 0x70000000#32 &&& 0xffc00000#32 = (0x1c0#10).setWidth 32 <<< 22
    decide

theorem machine_own (reg : Registration) :
    reg.machine.shadow.pageDir reg.setup.monPdi = reg.nexusPDE := by
  simp [machine]

/-- User space touches neither the tables nor what is pinned. -/
theorem Registered.same {reg : Registration} {vm : Vm} (registered : reg.Registered vm) :
    vm.setup = reg.setup ∧ vm.pins = reg.machine.pins ∧
      vm.nexusPageTbl = reg.machine.nexusPageTbl ∧ vm.shadow = reg.machine.shadow := by
  obtain ⟨guestCpu, mem, guestCPL, intr, same⟩ := registered.machine
  rw [same]
  exact ⟨rfl, rfl, rfl, rfl⟩

theorem emptyQueue (reg : Registration) : EmptyQueue reg.machine :=
  ⟨rfl, rfl, fun _ => rfl⟩

end Registration
end Plex86
