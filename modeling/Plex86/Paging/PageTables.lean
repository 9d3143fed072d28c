import Plex86.Paging.Window

/-! The monitor's page tables: the heap they come from, their invalidation, and
the mapping of a guest linear page into them. -/

namespace Plex86

open Logic

/-- `MON_PAGE_TABLES` -/
def monPageTables : Bit32u := 80#32

/-- `if (cond) { monpanic(vm, ...); }` -/
def panicWhen (cond : Prop) [Decidable cond] (format : String) (args : List Bit32u := []) :
    Mon Unit :=
  if cond then monpanic format args else pure ()

theorem panicWhen_apply (cond : Prop) [Decidable cond] (format : String) (args : List Bit32u)
    (vm : Vm) :
    panicWhen cond format args vm =
      if cond then .error (.monpanic format args) vm else .ok () vm := by
  unfold panicWhen monpanic
  split <;> rfl

@[simp] theorem panicWhen_bind_apply {α : Type} (cond : Prop) [Decidable cond] (format : String)
    (args : List Bit32u) (rest : Unit → Mon α) (vm : Vm) :
    (panicWhen cond format args >>= rest) vm =
      if cond then .error (.monpanic format args) vm else rest () vm := by
  rw [bind_apply, panicWhen_apply]
  by_cases holds : cond <;> simp [holds]

theorem panicWhen_keeps {inv : Vm → Prop} {stopped : Halt → Vm → Prop} {cond : Prop}
    [Decidable cond] {format : String} {args : List Bit32u}
    (stops : ∀ vm, inv vm → stopped (.monpanic format args) vm) :
    Keeps inv stopped (panicWhen cond format args) :=
  .ite (fun _ => .throw stops) (fun _ => .pure)

/-- Past a check, the code may rely on what was checked. -/
theorem panicWhen_bind {α : Type} {before : Vm → Prop} {after : α → Vm → Prop}
    {stopped : Halt → Vm → Prop} {cond : Prop} [Decidable cond] {format : String}
    {args : List Bit32u} {rest : Unit → Mon α}
    (stops : ∀ vm, before vm → stopped (.monpanic format args) vm)
    (second : ¬ cond → Ensures before (rest ()) after stopped) :
    Ensures before (panicWhen cond format args >>= rest) after stopped := by
  intro vm holds
  by_cases failed : cond
  · simpa only [bind_apply, panicWhen, failed, if_true, monpanic, throw_apply]
      using stops vm holds
  · simpa only [bind_apply, panicWhen, failed, if_false, pure_apply]
      using second failed vm holds

/-- The directory index of a linear address, bits 22 to 31. -/
def pdiOf (laddr : Bit32u) : BitVec 10 := laddr.extractLsb' 22 10

/-- The table index of a linear address, bits 12 to 21. -/
def ptiOf (laddr : Bit32u) : BitVec 10 := laddr.extractLsb' 12 10

def getFreePageTable (pdi : BitVec 10) : Mon Bit32u := do
  let vm ← get
  let availIndex := vm.shadow.ptblLaddrMapI
  panicWhen (monPageTables ≤ availIndex) "getFreePageTable: out of page tables\n"
  panicWhen (vm.shadow.pageTblLaddrMap pdi ≠ noPageTable)
    "getFreePageTable: check failed,   pdi=0x%x, laddr_map=0x%x\n"
    [pdi.setWidth 32, vm.shadow.pageTblLaddrMap pdi]
  modify fun vm =>
    { vm with
      shadow := { vm.shadow with
        pageTblLaddrMap :=
          Function.update vm.shadow.pageTblLaddrMap pdi vm.shadow.ptblLaddrMapI
        ptblLaddrMapI := vm.shadow.ptblLaddrMapI + 1
        pageTbl := Function.update vm.shadow.pageTbl availIndex fun _ => ⟨0⟩ } }
  return availIndex

def getMonPTi (pdi : BitVec 10) (source : Bit32u) : Mon Bit32u := do
  let vm ← get
  let map_i := vm.shadow.pageTblLaddrMap pdi
  panicWhen (map_i = noPageTable)
    "getMonPTi: check failed, pdi=0x%x, map_i=0x%x, source=%u\n"
    [pdi.setWidth 32, map_i, source]
  panicWhen (monPageTables ≤ map_i) "getMonPTi: map_i OOB\n"
  return map_i

def getPageUsage (ppi : Bit32u) : Mon PhyPageAttr := do
  let vm ← get
  monAssert (decide (ppi < vm.setup.guestNPages)) "ppi < vm->pages.guest_n_pages"
  return (vm.pins.guestPageInfo ppi).attr

def setMonPDE (pdi : BitVec 10) (entry : PageEntry) : Mon Unit :=
  modify fun vm =>
    { vm with
      shadow := { vm.shadow with pageDir := Function.update vm.shadow.pageDir pdi entry } }

def setMonPTE (ptIndex : Bit32u) (pti : BitVec 10) (entry : PageEntry) : Mon Unit :=
  modify fun vm =>
    { vm with
      shadow := { vm.shadow with
        pageTbl := Function.update vm.shadow.pageTbl ptIndex
          (Function.update (vm.shadow.pageTbl ptIndex) pti entry) } }

/-- The address lies in the four megabytes the monitor keeps for itself. -/
def Setup.inMonitor (setup : Setup) (laddr : Bit32u) : Prop :=
  laddr &&& 0xffc00000#32 = setup.monPdeMask

instance (setup : Setup) (laddr : Bit32u) : Decidable (setup.inMonitor laddr) :=
  inferInstanceAs (Decidable (_ = _))

def invalidateGuestLinAddr (guestLinAddr : Bit32u) : Mon Unit := do
  let vm ← get
  panicWhen (vm.guestCpu.pg = false) "invGuestLinAddr: CR0.pg=0?\n"
  let pdi := pdiOf guestLinAddr
  let pti := ptiOf guestLinAddr
  if ¬ (vm.shadow.pageDir pdi).p then return () -- No (monitor) shadow PDE.
  else
    panicWhen (vm.setup.inMonitor guestLinAddr)
      "invGuestLinAddr: address(0x%x) conflicts with monitor.\n" [guestLinAddr]
    let ptIndex ← getMonPTi pdi 12
    if ¬ (vm.shadow.pageTbl ptIndex pti).p then return () -- No (monitor) shadow PTE.
    else setMonPTE ptIndex pti ⟨0⟩

def monInitShadowPaging : Mon Unit :=
  modify fun vm => { vm with shadow := vm.shadow.init vm.setup.monPdi }

/-- What mapping a linear page came to. -/
inductive MapLin
  | ok (guestPPI : Bit32u)
  | monConflict
  | alreadyMapped
  | pPageOOB
  | exception (error : Bit32u)
  | emulate
deriving DecidableEq

def readEntry (page : OpenPage) (index : BitVec 10) : Mon PageEntry := do
  let raw ← readWord 32 page (4 * index.toNat)
  return ⟨raw⟩

def writeEntry (page : OpenPage) (index : BitVec 10) (entry : PageEntry) : Mon Unit :=
  writeWord page (4 * index.toNat) entry.raw

/-- The guest's own entry forbids the access. -/
def PageEntry.denies (entry : PageEntry) (reqUs reqRw wp : Bool) : Bool :=
  (reqUs && !entry.us) || (reqRw && !entry.rw && (wp || reqUs))

/-- Update A bit of PDE memory image if not already. -/
def markPDE (guestPDir : OpenPage) (pdi : BitVec 10) (guestPDE : PageEntry) : Mon PageEntry :=
  if guestPDE.a then return guestPDE
  else do
    writeEntry guestPDir pdi guestPDE.setA
    return guestPDE.setA

/-- Update A and D bits of PTE memory image if not already. -/
def markPTE (guestPTbl : OpenPage) (pti : BitVec 10) (guestPTE : PageEntry) (reqRw : Bool) :
    Mon PageEntry :=
  if !guestPTE.a || (reqRw && !guestPTE.d) then do
    let marked := if reqRw then guestPTE.setA.setD else guestPTE.setA
    writeEntry guestPTbl pti marked
    return marked
  else return guestPTE

/-- The second level of the guest's page walk, with the first level's window still open. -/
def walkGuestPTbl (guestPDir : OpenPage) (pdi pti : BitVec 10) (guestPDE : PageEntry)
    (reqUs reqRw : Bool) : Mon (Except Bit32u (PageEntry × PageEntry)) := do
  let vm ← get
  let wp := vm.guestCpu.wp
  let ptblPPI := guestPDE.base.setWidth 32
  panicWhen (vm.setup.guestNPages ≤ ptblPPI) "mapGuestLinAddr: PG=1 guest PTE OOB\n"
  let guestPTbl ← openGuestPhyPage ptblPPI vm.setup.tmpPhyPage1
  let guestPTE ← readEntry guestPTbl pti
  if ¬ guestPTE.p then return .error 0
  else if guestPDE.denies reqUs reqRw wp then return .error 1
  else if guestPTE.denies reqUs reqRw wp then return .error 1
  else
    let guestPDE ← (if 6 ≤ vm.setup.family then markPDE guestPDir pdi guestPDE else pure guestPDE)
    let guestPTE ← markPTE guestPTbl pti guestPTE reqRw
    return .ok (guestPDE, guestPTE)

/-- Check out the guest's mapping of an address to see if it would allow for an
access, and mark its entries accessed and dirty if so. -/
def walkGuest (pdi pti : BitVec 10) (reqUs reqRw : Bool) :
    Mon (Except Bit32u (PageEntry × PageEntry)) := do
  let vm ← get
  let guestPDirPageIndex := vm.guestCpu.cr3 >>> 12
  panicWhen (vm.setup.guestNPages ≤ guestPDirPageIndex) "mapGuestLinAddr: PG=1 guest PDE OOB\n"
  let guestPDir ← openGuestPhyPage guestPDirPageIndex vm.setup.tmpPhyPage0
  let guestPDE ← readEntry guestPDir pdi
  if ¬ guestPDE.p then return .error 0
  else
    -- Earlier processors update the A bit early, before the page walk completes.
    let guestPDE ← (if vm.setup.family < 6 then markPDE guestPDir pdi guestPDE else pure guestPDE)
    walkGuestPTbl guestPDir pdi pti guestPDE reqUs reqRw

/-- The US and RW bits under which ring 3 gets the rights the guest has at its
own privilege level: (us, rw). -/
def shadowRights (guestCPL : BitVec 2) (wp : Bool) (entry : PageEntry) : Bool × Bool :=
  if guestCPL = 3 then (entry.us, entry.rw)
  else if wp then (true, entry.rw)
  else (true, true)

theorem shadowRights_user (wp : Bool) (entry : PageEntry) :
    shadowRights 3 wp entry = (entry.us, entry.rw) := rfl

theorem shadowRights_kernel {guestCPL : BitVec 2} (kernel : guestCPL ≠ 3) (wp : Bool)
    (entry : PageEntry) : shadowRights guestCPL wp entry = (true, entry.rw || !wp) := by
  rw [shadowRights, if_neg kernel]
  cases wp <;> simp

/-- The directory entry for a newly allocated page table. `guestPDE` is the
guest's own entry where guest paging is on. -/
def newMonPDE (vm : Vm) (ptIndex : Bit32u) : Option PageEntry → PageEntry
  | some guestPDE =>
      let (us, rw) := shadowRights vm.guestCPL vm.guestCpu.wp guestPDE
      -- Base/Avail=0/G=0/PS=0/D=d/A=a/PCD=0/PWT=0/US=us/RW=rw/P=1
      .make (vm.setup.pageTbl ptIndex)
        ((guestPDE.raw &&& 0x60) ||| (bit us <<< 2) ||| (bit rw <<< 1) ||| 1)
  | none => .make (vm.setup.pageTbl ptIndex) 7

/-- The RW bit of a new page table entry. -/
def newMonRw (vm : Vm) (usage : PhyPageAttr) : Option PageEntry → Bool
  | some guestPTE =>
      (shadowRights vm.guestCPL vm.guestCpu.wp guestPTE).2 && !usage.ro
  | none => !usage.ro -- Paging off is effectively RW

/-- The page table entry for a guest page pinned at `base`. -/
def newMonPTE (base : Frame) (rw : Bool) : Option PageEntry → PageEntry
  -- Base/Avail=0/G=0/PS=0/D=d/A=a/PCD=0/PWT=0/US=1/RW=rw/P=1
  | some guestPTE => .make base ((guestPTE.raw &&& 0x60) ||| 5 ||| (bit rw <<< 1))
  | none => .make base (5 ||| (bit rw <<< 1))

/-- A guest page table must not lie in a page with special attributes. -/
def checkPDEUsage : Option PageEntry → Mon Unit
  | some guestPDE => do
      let pdeUsage ← getPageUsage (guestPDE.base.setWidth 32)
      panicWhen (pdeUsage.badUsage4PTbl = true) "PDE->PDir hack.\n"
  | none => return ()

/-- Check monitor PDE: allocate a page table under it, or find the one there is. -/
def mapPDE (guestLAddr : Bit32u) (guestPDE : Option PageEntry) : Mon (Except MapLin Bit32u) := do
  let vm ← get
  let pdi := pdiOf guestLAddr
  if ¬ (vm.shadow.pageDir pdi).p then
    checkPDEUsage guestPDE
    let ptIndex ← getFreePageTable pdi
    setMonPDE pdi (newMonPDE vm ptIndex guestPDE)
    return .ok ptIndex
  else if vm.setup.inMonitor guestLAddr then return .error .monConflict
  else
    let ptIndex ← getMonPTi pdi 12
    return .ok ptIndex

/-- Check monitor PTE, and make it. -/
def mapPTE (ptIndex guestLAddr guestPPI : Bit32u) (usage : PhyPageAttr)
    (guestPTE : Option PageEntry) (reqRw : Bool) : Mon MapLin := do
  let vm ← get
  let pti := ptiOf guestLAddr
  if (vm.shadow.pageTbl ptIndex pti).p then return .alreadyMapped
  else if usage.ro && reqRw then return .emulate
  else if !usage.ro && usage.memMapIo then return .emulate
  else
    let rw := newMonRw vm usage guestPTE
    let base ← getHostOSPinnedPage guestPPI
    setMonPTE ptIndex pti (newMonPTE base rw guestPTE)
    return .ok guestPPI

/-- The guest's paging system (if enabled) would allow for this access. See about
mapping it into the monitor linear address space. -/
def mapIntoMonitor (guestLAddr guestPPI : Bit32u) (entries : Option (PageEntry × PageEntry))
    (reqRw : Bool) : Mon MapLin := do
  let vm ← get
  if vm.setup.guestNPages ≤ guestPPI then return .pPageOOB
  else
    let usage ← getPageUsage guestPPI
    match ← mapPDE guestLAddr (entries.map (·.1)) with
    | .error refused => return refused
    | .ok ptIndex => mapPTE ptIndex guestLAddr guestPPI usage (entries.map (·.2)) reqRw

def mapGuestLinAddr (guestLAddr : Bit32u) (reqUs reqRw : Bool) : Mon MapLin := do
  let vm ← get
  if vm.guestCpu.pg then
    match ← walkGuest (pdiOf guestLAddr) (ptiOf guestLAddr) reqUs reqRw with
    | .error error => return .exception (error ||| (bit reqUs <<< 2) ||| (bit reqRw <<< 1))
    | .ok entries =>
        mapIntoMonitor guestLAddr (entries.2.base.setWidth 32) (some entries) reqRw
  else mapIntoMonitor guestLAddr (guestLAddr >>> 12) none reqRw

end Plex86
