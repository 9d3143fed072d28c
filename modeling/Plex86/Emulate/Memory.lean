import Plex86.Paging.PageTables

/-! How the emulation code reads and writes guest memory at linear addresses. -/

namespace Plex86

open Logic

/-- `LinAddrNotAvailable` -/
def linAddrNotAvailable : Bit32u := 0xffffffff#32

/-- The page offset of an address, `addr & 0xfff`. -/
def pageOffset (addr : Bit32u) : Nat := (addr &&& 0xfff#32).toNat

/-- The physical address of the entry for `lAddr` in the directory that `cr3` names. -/
def pdeAddrOf (cr3 lAddr : Bit32u) : Bit32u :=
  (cr3 &&& 0xfffff000#32) ||| ((lAddr &&& 0xffc00000#32) >>> 20)

/-- The physical address of the entry for `lAddr` in the table that `pde` names. -/
def pteAddrOf (pde lAddr : Bit32u) : Bit32u :=
  (pde &&& 0xfffff000#32) ||| ((lAddr &&& 0x003ff000#32) >>> 10)

def translateLinToPhy (lAddr : Bit32u) : Mon Bit32u := do
  let vm ← get
  let guestCpu := vm.guestCpu
  if ¬ guestCpu.pg then return lAddr -- Paging off, just return linear address as physical.
  else if guestCpu.cr4 &&& 0x30#32 ≠ 0 then return linAddrNotAvailable
  else
    -- 1st level lookup.
    let pdeAddr := pdeAddrOf guestCpu.cr3 lAddr
    if vm.setup.guestNBytes ≤ pdeAddr then return linAddrNotAvailable
    else
      let phyPagePtr ← openGuestPhyPage (pdeAddr >>> 12) vm.setup.tmpPhyPage0
      let pde ← readWord 32 phyPagePtr (pageOffset pdeAddr)
      if ¬ pde.getLsbD 0 then return linAddrNotAvailable
      else
        -- 2nd level lookup.
        let pteAddr := pteAddrOf pde lAddr
        if vm.setup.guestNBytes ≤ pteAddr then return linAddrNotAvailable
        else
          let phyPagePtr ← openGuestPhyPage (pteAddr >>> 12) vm.setup.tmpPhyPage0
          let pte ← readWord 32 phyPagePtr (pageOffset pteAddr)
          if ¬ pte.getLsbD 0 then return linAddrNotAvailable
          else return (pte &&& 0xfffff000#32) ||| (lAddr &&& 0xfff#32)

/-- Read bytes one after another through a window pointer. -/
def readBytes (page : OpenPage) (offset : Nat) : Nat → Mon (List Bit8u)
  | 0 => return []
  | count + 1 => do
      let byte ← readWord 8 page offset
      let rest ← readBytes page (offset + 1) count
      return byte :: rest

/-- The bytes of a dword in memory order. -/
def dwordBytes (val : Bit32u) : List Bit8u :=
  [val.extractLsb' 0 8, val.extractLsb' 8 8, val.extractLsb' 16 8, val.extractLsb' 24 8]

/-- The little-endian number that bytes in memory order stand for. -/
def numberOf (bytes : List Bit8u) : Nat :=
  bytes.foldr (fun byte rest => byte.toNat + 256 * rest) 0

/-- Get an object of arbitrary size (up to 4K) from linear memory. -/
def getObjectLAddr (lAddr0 len : Bit32u) : Mon (List Bit8u) := do
  let vm ← get
  let nBytes := vm.setup.guestNBytes
  let tmpPhyPage0 := vm.setup.tmpPhyPage0
  let pAddr0 ← translateLinToPhy lAddr0
  panicWhen (pAddr0 = linAddrNotAvailable)
    "getObjectLAddr:(1) lin-->phy translation failed (0x%x).\n" [lAddr0]
  let pOff := pAddr0 &&& 0xfff#32
  if pOff ≤ 0x1000#32 - len then
    -- Object contained within same page.
    panicWhen (nBytes - len < pAddr0) "getObjectLAddr: pAddr0 OOB (0x%x).\n" [pAddr0]
    let phyPagePtr ← openGuestPhyPage (pAddr0 >>> 12) tmpPhyPage0
    if len = 4 then
      let val ← readWord 32 phyPagePtr pOff.toNat
      return dwordBytes val
    else readBytes phyPagePtr pOff.toNat len.toNat
  else
    -- object crosses multiple pages.
    let page0Len := 0x1000#32 - pOff
    let page1Len := len - page0Len
    let pAddr1 ← translateLinToPhy (lAddr0 + page0Len)
    panicWhen (pAddr1 = linAddrNotAvailable)
      "getObjectLAddr:(2) lin-->phy translation failed (0x%x).\n" [lAddr0 + page0Len]
    panicWhen (nBytes - page0Len < pAddr0) "getObjectLAddr: pAddr0 OOB (0x%x).\n" [pAddr0]
    panicWhen (nBytes - page1Len < pAddr1) "getObjectLAddr: pAddr1 OOB (0x%x).\n" [pAddr1]
    let phyPagePtr ← openGuestPhyPage (pAddr0 >>> 12) tmpPhyPage0
    let first ← readBytes phyPagePtr pOff.toNat page0Len.toNat
    let phyPagePtr ← openGuestPhyPage (pAddr1 >>> 12) tmpPhyPage0
    let second ← readBytes phyPagePtr 0 page1Len.toNat
    return first ++ second

def getGuestDWord (lAddr : Bit32u) : Mon Bit32u := do
  let vm ← get
  if lAddr &&& 0xfff#32 ≤ 0x1000#32 - 4#32 then
    let pAddr ← translateLinToPhy lAddr
    panicWhen (pAddr = linAddrNotAvailable)
      "getGuestDWord: could not translate address 0x%x.\n" [lAddr]
    panicWhen (vm.setup.guestNBytes - 4 < pAddr) "getGuestDWord: pAddr OOB (0x%x).\n" [pAddr]
    -- dword contained within same page.
    let phyPagePtr ← openGuestPhyPage (pAddr >>> 12) vm.setup.tmpPhyPage0
    readWord 32 phyPagePtr (pageOffset lAddr)
  else
    let bytes ← getObjectLAddr lAddr 4
    return BitVec.ofNat 32 (numberOf bytes)

def getGuestWord (lAddr : Bit32u) : Mon Bit16u := do
  let vm ← get
  if lAddr &&& 0xfff#32 ≤ 0x1000#32 - 2#32 then
    let pAddr ← translateLinToPhy lAddr
    panicWhen (pAddr = linAddrNotAvailable)
      "getGuestWord: could not translate address 0x%x.\n" [lAddr]
    panicWhen (vm.setup.guestNBytes - 2 < pAddr) "getGuestWord: pAddr OOB (0x%x).\n" [pAddr]
    -- word contained within same page.
    let phyPagePtr ← openGuestPhyPage (pAddr >>> 12) vm.setup.tmpPhyPage0
    readWord 16 phyPagePtr (pageOffset lAddr)
  else
    let bytes ← getObjectLAddr lAddr 2
    return BitVec.ofNat 16 (numberOf bytes)

def writeGuestDWord (lAddr val : Bit32u) : Mon Unit := do
  let vm ← get
  let pAddr ← translateLinToPhy lAddr
  panicWhen (pAddr = linAddrNotAvailable) "writeGuestDWord: could not translate address.\n"
  panicWhen (vm.setup.guestNBytes - 3 ≤ pAddr) "writeGuestDWord: phy address OOB.\n"
  panicWhen (0xffd#32 ≤ pAddr &&& 0xfff#32) "writeGuestDWord: crosses page boundary.\n"
  let phyPagePtr ← openGuestPhyPage (pAddr >>> 12) vm.setup.tmpPhyPage0
  writeWord phyPagePtr (pageOffset pAddr) val

def fetchGuestDescByLAddr (laddr : Bit32u) : Mon Descriptor := do
  let vm ← get
  let descriptorPAddr ← translateLinToPhy laddr
  panicWhen (descriptorPAddr = linAddrNotAvailable)
    "fetchGuestDesc: could not translate descriptor addr.\n"
  panicWhen (descriptorPAddr &&& 7#32 ≠ 0) "fetchGuestDesc: descriptor not 8-byte aligned.\n"
  panicWhen (vm.setup.guestNBytes - 7 ≤ descriptorPAddr) "fetchGuestDesc: descriptor addr OOB.\n"
  let phyPagePtr ← openGuestPhyPage (descriptorPAddr >>> 12) vm.setup.tmpPhyPage0
  let raw ← readWord 64 phyPagePtr (pageOffset descriptorPAddr)
  return ⟨raw⟩

/-- `FetchDescUpdateBusyBit` is the only flag: set the busy bit in guest memory. -/
def fetchGuestDescBySel (sel : Selector) (updateBusyBit : Bool) : Mon Descriptor := do
  let vm ← get
  panicWhen (sel.ti = true) "fetchGuestDesc: selector.ti=1.\n"
  panicWhen (sel.isNull = true) "fetchGuestDesc: selector NULL.\n"
  let gdtOffset := sel.gdtOffset
  panicWhen (vm.guestCpu.gdtr.limit.setWidth 32 < gdtOffset + 7)
    "fetchGuestDesc: selector=0x%x OOB.\n" [sel.raw.setWidth 32]
  let descriptorPAddr ← translateLinToPhy (vm.guestCpu.gdtr.base + gdtOffset)
  panicWhen (descriptorPAddr = linAddrNotAvailable)
    "fetchGuestDesc: could not translate descriptor addr.\n"
  panicWhen (descriptorPAddr &&& 7#32 ≠ 0) "fetchGuestDesc: descriptor not 8-byte aligned.\n"
  panicWhen (vm.setup.guestNBytes - 7 ≤ descriptorPAddr) "fetchGuestDesc: descriptor addr OOB.\n"
  let phyPagePtr ← openGuestPhyPage (descriptorPAddr >>> 12) vm.setup.tmpPhyPage0
  let raw ← readWord 64 phyPagePtr (pageOffset descriptorPAddr)
  let desc : Descriptor := ⟨raw⟩
  panicWhen (desc.dpl ≠ sel.rpl) "fetchGuestDesc: descriptor.dpl(%u) != selector.rpl(%u).\n"
    [desc.dpl.setWidth 32, sel.rpl.setWidth 32]
  if updateBusyBit then
    -- the type field lies in byte 5 of the descriptor
    writeWord phyPagePtr (pageOffset descriptorPAddr + 5) (desc.setBusy.raw.extractLsb' 40 8)
  return desc

end Plex86
