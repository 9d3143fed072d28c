import Plex86.Paging.Heap
import Plex86.Paging.Settled

namespace Plex86

open Logic Vm

private theorem getPageUsage_ok {ppi : Bit32u} {usage : PhyPageAttr} {vm next : Vm}
    (run : getPageUsage ppi vm = .ok usage next) :
    ppi < vm.setup.guestNPages ∧ usage = (vm.pins.guestPageInfo ppi).attr ∧ next = vm := by
  simp only [getPageUsage, get_bind_apply, bind_ok, pure_apply, EStateM.Result.ok.injEq] at run
  obtain ⟨_, _, bounded, rfl, rfl⟩ := run
  obtain ⟨inBounds, rfl⟩ := monAssert_ok bounded
  exact ⟨by simpa using inBounds, rfl, rfl⟩

/-- Looking up how a page is used changes nothing. -/
theorem getPageUsage_still (ppi : Bit32u) (vm : Vm) :
    Ensures (· = vm) (getPageUsage ppi) (fun _ next => next = vm)
      (fun stop last => stop.heapCheck = false ∧ last = vm) :=
  .get_bind fun _ _ => .bind (monAssert_keeps fun _ same => ⟨rfl, same.trans ‹_ = vm›⟩)
    fun _ => .pure fun _ same => same.trans ‹_ = vm›

private theorem checkPDEUsage_still (guestPDE : Option PageEntry) (vm : Vm) :
    Ensures (· = vm) (checkPDEUsage guestPDE) (fun _ next => next = vm)
      (fun stop last => stop.heapCheck = false ∧ last = vm) := by
  cases guestPDE with
  | none => exact .pure fun _ same => same
  | some entry =>
      exact .bind (getPageUsage_still _ vm) fun usage =>
        panicWhen_keeps fun _ same => ⟨rfl, same⟩

/-- What looking after the directory entry of an address came to. -/
inductive MapPDESpec (vm : Vm) (laddr : Bit32u) (guestPDE : Option PageEntry) :
    Except MapLin Bit32u → Vm → Prop
  | conflict (own : pdiOf laddr = vm.setup.monPdi) :
      MapPDESpec vm laddr guestPDE (.error .monConflict) vm
  | found (other : pdiOf laddr ≠ vm.setup.monPdi)
      (present : (vm.shadow.pageDir (pdiOf laddr)).p = true) :
      MapPDESpec vm laddr guestPDE (.ok (vm.shadow.pageTblLaddrMap (pdiOf laddr))) vm
  | made (other : pdiOf laddr ≠ vm.setup.monPdi)
      (absent : (vm.shadow.pageDir (pdiOf laddr)).p = false)
      (room : vm.shadow.ptblLaddrMapI < monPageTables) :
      MapPDESpec vm laddr guestPDE (.ok vm.shadow.ptblLaddrMapI)
        { vm with
          shadow := vm.shadow.allocate (pdiOf laddr)
            (newMonPDE vm vm.shadow.ptblLaddrMapI guestPDE) }

theorem mapPDE_spec {vm : Vm} (heap : HeapOk vm.setup vm.shadow)
    (monitor : MonitorMapped vm.setup vm.shadow) (laddr : Bit32u)
    (guestPDE : Option PageEntry) :
    Ensures (· = vm) (mapPDE laddr guestPDE) (MapPDESpec vm laddr guestPDE)
      (fun stop last => stop.heapCheck = false ∧ last = vm) := by
  refine .get_bind fun now here => ?_
  obtain rfl := here.symm
  refine .ite (fun missing => ?_) fun held => .ite (fun inside => ?_) fun outside => ?_
  case refine_1 =>
    have absent : (vm.shadow.pageDir (pdiOf laddr)).p = false := by simpa using missing
    have other : pdiOf laddr ≠ vm.setup.monPdi := fun same => by
      rw [same, monitor.present] at absent
      exact Bool.noConfusion absent
    refine Ensures.bind (checkPDEUsage_still guestPDE vm) fun _ => Ensures.exactly ?_
    rw [bind_apply, getFreePageTable_absent heap other absent]
    by_cases full : monPageTables ≤ vm.shadow.ptblLaddrMapI
    · simp only [full, if_true]
      exact ⟨rfl, trivial⟩
    · simp only [full, if_false]
      exact .made other absent (BitVec.not_le.mp full)
  case refine_2 => exact Ensures.exactly (.conflict ((monitor.inMonitor_iff laddr).mp inside))
  case refine_3 =>
    have present : (vm.shadow.pageDir (pdiOf laddr)).p = true := by simpa using held
    have other : pdiOf laddr ≠ vm.setup.monPdi := fun same =>
      outside ((monitor.inMonitor_iff laddr).mpr same)
    refine Ensures.exactly ?_
    rw [bind_apply, getMonPTi_present heap other present]
    exact .found other present

/-- What making the table entry of an address came to. -/
inductive MapPTESpec (vm : Vm) (ptIndex laddr guestPPI : Bit32u) (usage : PhyPageAttr)
    (guestPTE : Option PageEntry) (reqRw : Bool) : MapLin → Vm → Prop
  | refused {result : MapLin} (notOk : ∀ ppi, result ≠ .ok ppi)
      (noFault : ∀ code, result ≠ .exception code) :
      MapPTESpec vm ptIndex laddr guestPPI usage guestPTE reqRw result vm
  | made {pinned : Vm} (absent : (vm.shadow.pageTbl ptIndex (ptiOf laddr)).p = false)
      (writable : usage.ro = true → reqRw = false)
      (memory : usage.ro = true ∨ usage.memMapIo = false) (pin : PinSpec guestPPI vm pinned)
      (nexus : pinned.nexusPageTbl = vm.nexusPageTbl) :
      MapPTESpec vm ptIndex laddr guestPPI usage guestPTE reqRw (.ok guestPPI)
        { pinned with
          shadow := pinned.shadow.setPTE ptIndex (ptiOf laddr)
            (newMonPTE (pinned.pins.hostPPI guestPPI) (newMonRw vm usage guestPTE) guestPTE) }

private theorem mapPTE_ok {ptIndex laddr guestPPI : Bit32u} {usage : PhyPageAttr}
    {guestPTE : Option PageEntry} {reqRw : Bool} {result : MapLin} {vm next : Vm}
    (run : mapPTE ptIndex laddr guestPPI usage guestPTE reqRw vm = .ok result next) :
    MapPTESpec vm ptIndex laddr guestPPI usage guestPTE reqRw result next := by
  simp only [mapPTE, get_bind_apply, Logic.ite_apply, pure_apply] at run
  split at run
  · cases run
    exact .refused (by simp) (by simp)
  split at run
  · cases run
    exact .refused (by simp) (by simp)
  split at run
  · cases run
    exact .refused (by simp) (by simp)
  next missing writable memory =>
    obtain ⟨base, pinned, held, rest⟩ := bind_ok.mp run
    obtain ⟨_, _, set, same⟩ := bind_ok.mp rest
    obtain ⟨pin, rfl, nexus⟩ := getHostOSPinnedPage_ok held
    cases set
    cases same
    refine .made (by simpa using missing) ?_ ?_ pin nexus
    · intro ro
      simpa [ro] using writable
    · cases ro : usage.ro
      · simpa [ro] using memory
      · exact .inl rfl

/-- What entering a guest page into the monitor's tables came to. -/
inductive MapSpec (vm : Vm) (laddr guestPPI : Bit32u) (entries : Option (PageEntry × PageEntry))
    (reqRw : Bool) : MapLin → Vm → Prop
  | outside : MapSpec vm laddr guestPPI entries reqRw .pPageOOB vm
  | conflict (own : pdiOf laddr = vm.setup.monPdi) :
      MapSpec vm laddr guestPPI entries reqRw .monConflict vm
  | entered {ptIndex : Bit32u} {middle next : Vm} {result : MapLin}
      (pde : MapPDESpec vm laddr (entries.map (·.1)) (.ok ptIndex) middle)
      (pte : MapPTESpec middle ptIndex laddr guestPPI (vm.pins.guestPageInfo guestPPI).attr
        (entries.map (·.2)) reqRw result next) :
      MapSpec vm laddr guestPPI entries reqRw result next

theorem mapIntoMonitor_ok {vm : Vm} (heap : HeapOk vm.setup vm.shadow)
    (monitor : MonitorMapped vm.setup vm.shadow) {laddr guestPPI : Bit32u}
    {entries : Option (PageEntry × PageEntry)} {reqRw : Bool} {result : MapLin} {next : Vm}
    (run : mapIntoMonitor laddr guestPPI entries reqRw vm = .ok result next) :
    MapSpec vm laddr guestPPI entries reqRw result next := by
  simp only [mapIntoMonitor, get_bind_apply, Logic.ite_apply, pure_apply] at run
  split at run
  · cases run
    exact .outside
  obtain ⟨usage, _, looked, rest⟩ := bind_ok.mp run
  obtain ⟨-, rfl, rfl⟩ := getPageUsage_ok looked
  obtain ⟨found, middle, walked, rest⟩ := bind_ok.mp rest
  have pde := (mapPDE_spec heap monitor laddr _).returns rfl walked
  cases found with
  | error refused =>
      cases pde with
      | conflict own =>
          cases rest
          exact .conflict own
  | ok ptIndex => exact .entered pde (mapPTE_ok rest)

end Plex86
