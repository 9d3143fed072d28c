import Plex86.Paging.PageWalk

namespace Plex86

open Logic Vm

/-- The pages of `rom` hold what they held. -/
def Vm.Spared (rom : Bit32u → Prop) (before after : Vm) : Prop :=
  ∀ ppi, rom ppi → after.mem ppi = before.mem ppi

namespace Vm.Spared

variable {rom : Bit32u → Prop} {before middle after : Vm}

theorem of_mem (same : after.mem = before.mem) : Spared rom before after :=
  fun ppi _ => congrFun same ppi

theorem trans (first : Spared rom before middle) (second : Spared rom middle after) :
    Spared rom before after :=
  fun ppi kept => (second ppi kept).trans (first ppi kept)

/-- A store into a page that is none of them. -/
theorem update {ppi : Bit32u} {bytes : Bytes} (other : ¬ rom ppi)
    (stored : after.mem = Function.update before.mem ppi bytes) : Spared rom before after := by
  intro page kept
  rw [stored, Function.update_of_ne]
  rintro rfl
  exact other kept

end Vm.Spared

/-- An entry stored through an open window goes into the page of the window. -/
theorem writeEntry_open {page : OpenPage} {vm : Vm} (index : BitVec 10) (entry : PageEntry)
    (shows : vm.WindowOpen page) : ∃ accesses, writeEntry page index entry vm =
      .ok () { vm with mem := putEntry vm.mem page.ppi index entry, accesses } := by
  have target : vm.windowTarget page = some page.ppi := if_pos shows
  refine ⟨vm.windowAccess page (4 * index.toNat) (32 / 8) (some entry.raw.toNat) :: vm.accesses, ?_⟩
  rw [writeEntry, writeWord, modify_apply, target]
  rfl

/-- The marking of a directory entry stores it where it has not been accessed. -/
theorem markPDE_stored {page : OpenPage} {pdi : BitVec 10} {entry : PageEntry} {vm : Vm}
    (shows : entry.a = false → vm.WindowOpen page) : ∃ accesses,
      markPDE page pdi entry vm = .ok entry.setA
        { vm with
          mem := if entry.a then vm.mem else putEntry vm.mem page.ppi pdi entry.setA
          accesses } := by
  unfold markPDE
  cases accessed : entry.a with
  | true =>
      refine ⟨vm.accesses, ?_⟩
      rw [PageEntry.setA_of_a accessed]
      rfl
  | false =>
      obtain ⟨accesses, run⟩ := writeEntry_open pdi entry.setA (shows accessed)
      refine ⟨accesses, ?_⟩
      simp only [Bool.false_eq_true, if_false]
      rw [bind_apply, run]
      rfl

/-- Marking a table entry gives it a bit it has not got. -/
def PageEntry.Unmarked (entry : PageEntry) (reqRw : Bool) : Prop :=
  entry.a = false ∨ (reqRw = true ∧ entry.d = false)

instance (entry : PageEntry) (reqRw : Bool) : Decidable (entry.Unmarked reqRw) :=
  inferInstanceAs (Decidable (_ ∨ _))

private theorem markPTE_stored {page : OpenPage} {pti : BitVec 10} {entry : PageEntry}
    {reqRw : Bool}
    {vm : Vm} (shows : vm.WindowOpen page) : ∃ accesses,
      markPTE page pti entry reqRw vm = .ok (entry.marked reqRw)
        { vm with
          mem := if entry.Unmarked reqRw then putEntry vm.mem page.ppi pti (entry.marked reqRw)
            else vm.mem
          accesses } := by
  have asks : (!entry.a || (reqRw && !entry.d)) = decide (entry.Unmarked reqRw) := by
    apply Bool.eq_iff_iff.mpr
    rw [decide_eq_true_iff]
    simp [PageEntry.Unmarked]
  unfold markPTE
  rw [asks]
  by_cases stores : entry.Unmarked reqRw
  · obtain ⟨accesses, run⟩ := writeEntry_open pti (entry.marked reqRw) shows
    refine ⟨accesses, ?_⟩
    rw [if_pos (decide_eq_true stores), if_pos stores]
    change (writeEntry page pti (entry.marked reqRw) >>= fun _ => pure (entry.marked reqRw)) vm = _
    rw [bind_apply, run]
    rfl
  · refine ⟨vm.accesses, ?_⟩
    rw [if_neg (by simpa using stores), if_neg stores]
    have marked : entry.marked reqRw = entry := by
      apply PageEntry.marked_of_marks
      · exact (Bool.not_eq_false _).mp fun none => stores (.inl none)
      · exact fun write => (Bool.not_eq_false _).mp fun none => stores (.inr ⟨write, none⟩)
    rw [marked]
    rfl

namespace Vm

/-- The access is one that the guest's tables allow. -/
def Allows (vm : Vm) (pdi pti : BitVec 10) (reqUs reqRw : Bool) : Prop :=
  guestFault vm.guestCpu.wp (vm.tables pdi pti) reqUs reqRw = none

instance (vm : Vm) (pdi pti : BitVec 10) (reqUs reqRw : Bool) :
    Decidable (vm.Allows pdi pti reqUs reqRw) :=
  inferInstanceAs (Decidable (_ = _))

/-- The walk leaves the marks that it makes outside of `rom`: the directory entry's,
which earlier processors make before they know whether the access is allowed, and
the table entry's. Nor does it make one through a window that has lost its page. -/
structure WalkSpares (rom : Bit32u → Prop) (vm : Vm) (pdi pti : BitVec 10) (reqUs reqRw : Bool) :
    Prop where
  directory : (vm.tables pdi pti).1.p = true → (vm.tables pdi pti).1.a = false →
    vm.setup.family < 6 ∨ vm.Allows pdi pti reqUs reqRw → ¬ rom vm.pageDirectory
  table : vm.Allows pdi pti reqUs reqRw → (vm.tables pdi pti).2.Unmarked reqRw →
    ¬ rom (vm.tables pdi pti).1.table
  fresh : ¬ vm.LateStale pdi pti reqUs reqRw

/-- Memory as a refused walk leaves it: earlier processors have marked the
directory entry by then. -/
def refusedMem (vm : Vm) (pdi pti : BitVec 10) : Bit32u → Bytes :=
  if vm.setup.family < 6 ∧ (vm.tables pdi pti).1.p = true ∧ (vm.tables pdi pti).1.a = false then
    putEntry vm.mem vm.pageDirectory pdi (vm.tables pdi pti).1.setA
  else vm.mem

end Vm

section Walk

variable {rom : Bit32u → Prop}

/-- The marking of both entries stays outside of `rom`. -/
theorem marks_spared {guestPDir guestPTbl : OpenPage} {pdi pti : BitVec 10}
    {guestPDE guestPTE : PageEntry} {reqRw : Bool} {vm next : Vm}
    {result : Except Bit32u (PageEntry × PageEntry)} {family : BitVec 4}
    (run : ((if 6 ≤ family then markPDE guestPDir pdi guestPDE else pure guestPDE) >>=
      fun guestPDE => markPTE guestPTbl pti guestPTE reqRw >>= fun guestPTE =>
        pure (Except.ok (guestPDE, guestPTE)) : Mon _) vm = .ok result next)
    (late : 6 ≤ family → guestPDE.a = false → vm.WindowOpen guestPDir ∧ ¬ rom guestPDir.ppi)
    (shows : vm.WindowOpen guestPTbl) (table : guestPTE.Unmarked reqRw → ¬ rom guestPTbl.ppi) :
    vm.Spared rom next := by
  obtain ⟨markedPDE, middle, first, rest⟩ := bind_ok.mp run
  obtain ⟨markedPTE, last, second, returned⟩ := bind_ok.mp rest
  cases returned
  have directory : ∃ mem accesses, middle = { vm with mem, accesses } ∧ vm.Spared rom middle := by
    by_cases modern : 6 ≤ family
    · rw [if_pos modern] at first
      obtain ⟨accesses, stored⟩ := markPDE_stored fun missing => (late modern missing).1
      cases first.symm.trans stored
      refine ⟨_, accesses, rfl, ?_⟩
      split
      · exact .of_mem rfl
      · next missing => exact .update (late modern (by simpa using missing)).2 rfl
    · rw [if_neg modern] at first
      cases first
      exact ⟨vm.mem, vm.accesses, rfl, .of_mem rfl⟩
  obtain ⟨mem, accesses, rfl, spared⟩ := directory
  have still : Vm.WindowOpen { vm with mem, accesses } guestPTbl := shows
  obtain ⟨accesses', stored⟩ := markPTE_stored still
  cases second.symm.trans stored
  refine spared.trans ?_
  split
  · next unmarked => exact .update (table unmarked) rfl
  · exact .of_mem rfl

/-- The second level of a walk stays outside of `rom`. -/
theorem walkGuestPTbl_spared {guestPDir : OpenPage} {pdi pti : BitVec 10} {guestPDE : PageEntry}
    {reqUs reqRw : Bool} {vm next : Vm} {result : Except Bit32u (PageEntry × PageEntry)}
    (present : guestPDE.p = true) (early : vm.setup.family < 6 → guestPDE.a = true)
    (late : MarksLate vm guestPDE →
      guestFault vm.guestCpu.wp (guestPDE, entryAt vm.mem guestPDE.table pti) reqUs reqRw = none →
        LateSafe vm guestPDir guestPDE ∧ ¬ rom guestPDir.ppi)
    (table : guestFault vm.guestCpu.wp (guestPDE, entryAt vm.mem guestPDE.table pti) reqUs reqRw =
      none → (entryAt vm.mem guestPDE.table pti).Unmarked reqRw → ¬ rom guestPDE.table)
    (run : walkGuestPTbl guestPDir pdi pti guestPDE reqUs reqRw vm = .ok result next) :
    (∀ code, result = .error code → next.mem = vm.mem) ∧ vm.Spared rom next := by
  have spec := walkGuestPTbl_ok early run
  refine ⟨fun code refused => (spec.refused code refused present).2.1, ?_⟩
  cases result with
  | error code => exact .of_mem (spec.refused code rfl present).2.1
  | ok entries =>
      obtain ⟨allowed, -⟩ := spec.allowed entries rfl present
      simp only [walkGuestPTbl, get_bind_apply, panicWhen_bind_apply] at run
      split at run
      · cases run
      obtain ⟨guestPTbl, opened, open1, run⟩ := bind_ok.mp run
      obtain ⟨rfl, openSpec⟩ := openGuestPhyPage_ok open1
      obtain ⟨log, read, -⟩ := readEntry_open pti openSpec.window
      rw [bind_apply, read] at run
      have mem := openSpec.pin.mem
      have setup := openSpec.pin.cpu.setup
      simp only [Logic.ite_apply] at run
      split at run
      · cases run
      split at run
      · cases run
      split at run
      · cases run
      have found : entryAt opened.mem guestPDE.table pti = entryAt vm.mem guestPDE.table pti := by
        rw [mem]
      have marked : Vm.Spared rom { opened with accesses := log } next := by
        refine marks_spared run (fun modern missing => ?_) openSpec.window fun unmarked => ?_
        · obtain ⟨safe, other⟩ := late ⟨modern, missing⟩ allowed
          exact ⟨openSpec.stays safe.shows safe.apart safe.kept, other⟩
        · have unmarked : (entryAt opened.mem guestPDE.table pti).Unmarked reqRw := unmarked
          rw [found] at unmarked
          exact table allowed unmarked
      have begun : vm.Spared rom { opened with accesses := log } := .of_mem mem
      exact begun.trans marked

/-- The early mark of earlier processors. -/
theorem markEarly_stored {page : OpenPage} {pdi : BitVec 10} {entry marked : PageEntry}
    {vm next : Vm} {family : BitVec 4}
    (run : (if family < 6 then markPDE page pdi entry else pure entry) vm = .ok marked next)
    (shows : vm.WindowOpen page) :
    next.mem = if family < 6 ∧ entry.a = false then putEntry vm.mem page.ppi pdi entry.setA
      else vm.mem := by
  by_cases old : family < 6
  · rw [if_pos old] at run
    have open0 : entry.a = false → vm.WindowOpen page := fun _ => shows
    obtain ⟨accesses, stored⟩ := markPDE_stored open0
    cases run.symm.trans stored
    change (if entry.a = true then vm.mem else _) = _
    by_cases accessed : entry.a = true
    · rw [if_pos accessed, if_neg fun both => Bool.noConfusion (accessed.symm.trans both.2)]
    · rw [if_neg accessed, if_pos ⟨old, (Bool.not_eq_true _).mp accessed⟩]
  · rw [if_neg old] at run
    cases run
    rw [if_neg fun both => old both.1]

/-- The early mark gives at most one entry its A bit. -/
theorem markEarly_entries {page : OpenPage} {pdi : BitVec 10} {entry marked : PageEntry}
    {vm next : Vm} {family : BitVec 4}
    (run : (if family < 6 then markPDE page pdi entry else pure entry) vm = .ok marked next)
    (shows : vm.WindowOpen page) (there : entryAt vm.mem page.ppi pdi = entry)
    (other : Bit32u) (place : BitVec 10) :
    entryAt next.mem other place = entryAt vm.mem other place ∨
      entryAt next.mem other place = (entryAt vm.mem other place).setA := by
  rw [markEarly_stored run shows]
  split
  · rw [entryAt_putEntry]
    split
    · next same => exact .inr (by rw [same.1, same.2, there])
    · exact .inl rfl
  · exact .inl rfl

private theorem PageEntry.Unmarked.of_setA {entry : PageEntry} {reqRw : Bool}
    (unmarked : entry.setA.Unmarked reqRw) : entry.Unmarked reqRw := by
  rcases unmarked with missing | ⟨write, clean⟩
  · rw [PageEntry.setA_a] at missing
    exact Bool.noConfusion missing
  · rw [PageEntry.setA_d] at clean
    exact .inr ⟨write, clean⟩

/-- What a refused walk leaves in memory. -/
theorem walkGuest_refused {pdi pti : BitVec 10} {reqUs reqRw : Bool} {vm next : Vm} {code : Bit32u}
    (run : walkGuest pdi pti reqUs reqRw vm = .ok (.error code) next) :
    next.mem = vm.refusedMem pdi pti := by
  simp only [walkGuest, get_bind_apply, panicWhen_bind_apply] at run
  split at run
  · cases run
  obtain ⟨guestPDir, opened, open0, run⟩ := bind_ok.mp run
  obtain ⟨rfl, spec⟩ := openGuestPhyPage_ok open0
  obtain ⟨log, read, -⟩ := readEntry_open pdi spec.window
  rw [bind_apply, read] at run
  have mem := spec.pin.mem
  have setup := spec.pin.cpu.setup
  generalize entry : entryAt opened.mem _ pdi = guestPDE at run
  have found : (vm.tables pdi pti).1 = guestPDE := by
    rw [← entry, mem]
    rfl
  simp only [Logic.ite_apply] at run
  split at run
  · next missing =>
      cases run
      have absent : guestPDE.p = false := by simpa using missing
      rw [refusedMem, found, absent, if_neg fun all => Bool.noConfusion all.2.1]
      exact mem
  next present =>
  have present : guestPDE.p = true := by simpa using present
  obtain ⟨marked, middle, early, run⟩ := bind_ok.mp run
  have stored := markEarly_stored early spec.window
  obtain ⟨mem1, log1, rfl, -, mapping, old, -⟩ := markEarly_exact early spec.window entry
  have tbl := walkGuestPTbl_ok (by rw [setup]; exact old) run
  have same : next.mem = mem1 := (tbl.refused code rfl (mapping.p.trans present)).2.1
  have stored : mem1 = _ := stored
  rw [same, stored, refusedMem, found, present]
  simp only [true_and, mem]
  rfl

/-- A walk whose marks are no business of `rom` leaves it alone. -/
theorem walkGuest_spared {pdi pti : BitVec 10} {reqUs reqRw : Bool} {vm next : Vm}
    {result : Except Bit32u (PageEntry × PageEntry)} {records : List PinRecord}
    (holds : vm.pins.Holds records) (apart : vm.setup.WindowsApart)
    (spares : vm.WalkSpares rom pdi pti reqUs reqRw)
    (run : walkGuest pdi pti reqUs reqRw vm = .ok result next) : vm.Spared rom next := by
  simp only [walkGuest, get_bind_apply, panicWhen_bind_apply] at run
  split at run
  · cases run
  obtain ⟨guestPDir, opened, open0, run⟩ := bind_ok.mp run
  obtain ⟨rfl, spec⟩ := openGuestPhyPage_ok open0
  obtain ⟨log, read, -⟩ := readEntry_open pdi spec.window
  rw [bind_apply, read] at run
  have mem := spec.pin.mem
  have setup := spec.pin.cpu.setup
  have cpu := spec.pin.cpu.guestCpu
  have begun : vm.Spared rom opened := .of_mem mem
  generalize entry : entryAt opened.mem _ pdi = guestPDE at run
  have found : (vm.tables pdi pti).1 = guestPDE := by
    rw [← entry, mem]
    rfl
  simp only [Logic.ite_apply] at run
  split at run
  · cases run
    exact begun
  next present =>
  have present : guestPDE.p = true := by simpa using present
  obtain ⟨marked, middle, early, run⟩ := bind_ok.mp run
  have stored := markEarly_stored early spec.window
  have entries := markEarly_entries early spec.window entry
  obtain ⟨mem1, log1, rfl, -, mapping, old, modern, -⟩ :=
    markEarly_exact early spec.window entry
  have spared : opened.Spared rom { opened with accesses := log1, mem := mem1 } := by
    split at stored
    · next stores =>
        refine .update (spares.directory ?_ ?_ (.inl stores.1)) stored
        · rw [found]; exact present
        · rw [found]; exact stores.2
    · exact .of_mem stored
  have table : marked.table = guestPDE.table := by rw [PageEntry.table, mapping.base]; rfl
  have second : (vm.tables pdi pti).2 = entryAt opened.mem guestPDE.table pti := by
    rw [mem, ← found]
    rfl
  have fault : guestFault opened.guestCpu.wp (marked, entryAt mem1 marked.table pti) reqUs reqRw =
      guestFault vm.guestCpu.wp (vm.tables pdi pti) reqUs reqRw := by
    rw [cpu]
    refine guestFault_sameMapping (found ▸ mapping) ?_ _ _ _
    rw [second, table]
    rcases entries guestPDE.table pti with same | same
    · have same : entryAt mem1 guestPDE.table pti = _ := same
      rw [same]
      exact .refl _
    · have same : entryAt mem1 guestPDE.table pti = _ := same
      rw [same]
      exact PageEntry.setA_sameMapping _
  refine begun.trans (spared.trans ?_)
  refine (walkGuestPTbl_spared (mapping.p.trans present) (by rw [setup]; exact old) ?_ ?_ run).2
  · -- the A bit is stored late only where it was not stored early
    intro late allowed
    have new : 6 ≤ vm.setup.family := by
      have new := late.1
      rwa [setup] at new
    obtain rfl := (modern new).2
    have allows : vm.Allows pdi pti reqUs reqRw := fault.symm.trans allowed
    have absent : (vm.tables pdi pti).1.a = false := by
      rw [found]
      exact late.2
    refine ⟨⟨spec.window, by rw [setup]; exact apart, fun drops => spares.fresh ?_⟩, ?_⟩
    · obtain ⟨pinned, dropped⟩ := spec.pin.drops holds drops
      exact ⟨⟨new, absent⟩, allows, pinned, by rw [found]; exact dropped⟩
    · exact spares.directory (by rw [found]; exact present) absent (.inr allows)
  · intro allowed unmarked
    rw [table, ← found]
    apply spares.table (fault.symm.trans allowed)
    rw [second]
    have unmarked : (entryAt mem1 marked.table pti).Unmarked reqRw := unmarked
    rw [table] at unmarked
    rcases entries guestPDE.table pti with same | same
    · have same : entryAt mem1 guestPDE.table pti = _ := same
      rwa [same] at unmarked
    · have same : entryAt mem1 guestPDE.table pti = _ := same
      rw [same] at unmarked
      exact unmarked.of_setA

/-- Mapping an address stores nothing but the marks of its walk. -/
theorem mapGuestLinAddr_spared {laddr : Bit32u} {reqUs reqRw : Bool} {vm next : Vm}
    {result : MapLin} {records : List PinRecord} (holds : vm.pins.Holds records)
    (apart : vm.setup.WindowsApart)
    (spares : vm.guestCpu.pg = true → vm.WalkSpares rom (pdiOf laddr) (ptiOf laddr) reqUs reqRw)
    (run : mapGuestLinAddr laddr reqUs reqRw vm = .ok result next) : vm.Spared rom next := by
  simp only [mapGuestLinAddr, get_bind_apply, Logic.ite_apply] at run
  split at run
  · next paged =>
    obtain ⟨answer, walked, walk, rest⟩ := bind_ok.mp run
    have spared := walkGuest_spared holds apart (spares paged) walk
    cases answer with
    | error code =>
        cases rest
        exact spared
    | ok entries =>
        have entered := (mapIntoMonitor_leaves laddr _ (some entries) reqRw).returns
          (.refl walked) rest
        exact spared.trans (.of_mem entered.2.mem)
  · have entered := (mapIntoMonitor_leaves laddr _ none reqRw).returns (.refl vm) run
    exact .of_mem entered.2.mem

/-- The memory that an address is refused with. -/
theorem mapGuestLinAddr_refused {laddr code : Bit32u} {reqUs reqRw : Bool} {vm next : Vm}
    (run : mapGuestLinAddr laddr reqUs reqRw vm = .ok (.exception code) next) :
    next.mem = vm.refusedMem (pdiOf laddr) (ptiOf laddr) := by
  simp only [mapGuestLinAddr, get_bind_apply, Logic.ite_apply] at run
  split at run
  · obtain ⟨answer, walked, walk, rest⟩ := bind_ok.mp run
    cases answer with
    | error low =>
        cases rest
        exact walkGuest_refused walk
    | ok entries =>
        have entered := (mapIntoMonitor_leaves laddr _ (some entries) reqRw).returns
          (.refl walked) rest
        exact (entered.1 code rfl).elim
  · have entered := (mapIntoMonitor_leaves laddr _ none reqRw).returns (.refl vm) run
    exact (entered.1 code rfl).elim

end Walk
end Plex86
