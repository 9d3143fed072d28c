import Plex86.Paging.MapLinSpec

namespace Plex86

open Logic Vm

namespace PageEntry

/-- A bit that is set can be set again. -/
private theorem or_lineBit {word : Bit32u} {line : Nat} (low : line < 32)
    (set : word.getLsbD line = true) : word ||| (1#32 <<< line) = word := by
  apply BitVec.eq_of_getLsbD_eq
  intro index small
  rw [BitVec.getLsbD_or, lineBit_getLsbD low]
  by_cases here : index = line
  · rw [here, set, Bool.true_or]
  · rw [decide_eq_false here, Bool.or_false]

theorem setA_of_a {entry : PageEntry} (accessed : entry.a = true) : entry.setA = entry :=
  congrArg PageEntry.mk (or_lineBit (by decide : 5 < 32) accessed)

private theorem setD_of_d {entry : PageEntry} (dirty : entry.d = true) : entry.setD = entry :=
  congrArg PageEntry.mk (or_lineBit (by decide : 6 < 32) dirty)

@[simp] theorem setA_setA (entry : PageEntry) : entry.setA.setA = entry.setA := setA_of_a entry.setA_a

@[simp] theorem setA_marked (entry : PageEntry) (reqRw : Bool) :
    entry.setA.marked reqRw = entry.marked reqRw := by
  rw [marked, marked, setA_setA]

/-- Marks that are there already change nothing. -/
theorem marked_of_marks {entry : PageEntry} {reqRw : Bool} (accessed : entry.a = true)
    (dirty : reqRw = true → entry.d = true) : entry.marked reqRw = entry := by
  cases reqRw with
  | false => exact setA_of_a accessed
  | true =>
      have set : entry.setA.setD = entry := by
        rw [setA_of_a accessed, setD_of_d (dirty rfl)]
      exact set

end PageEntry

/-- A walk's marks, and nothing else: A in the directory entry, A in the table entry,
and D there for a write. -/
def WalkStores (before after : Bit32u → Bytes) (pdir : Bit32u) (pdi : BitVec 10) (ptbl : Bit32u)
    (pti : BitVec 10) (reqRw : Bool) : Prop :=
  ∀ page index, entryAt after page index =
    if page = ptbl ∧ index = pti then (entryAt before ptbl pti).marked reqRw
    else if page = pdir ∧ index = pdi then (entryAt before pdir pdi).setA
    else entryAt before page index

/-- At most the directory entry's A bit has been set. -/
def AtMostAccessed (before after : Bit32u → Bytes) (pdir : Bit32u) (pdi : BitVec 10) : Prop :=
  ∀ page index, entryAt after page index = entryAt before page index ∨
    (page = pdir ∧ index = pdi ∧ entryAt after page index = (entryAt before pdir pdi).setA)

/-- Storing an entry, or leaving one that would be stored as it is. -/
theorem markPDE_exact (page : OpenPage) (pdi : BitVec 10) (entry : PageEntry) (vm : Vm) :
    ∃ mem accesses, markPDE page pdi entry vm = .ok entry.setA { vm with mem, accesses } ∧
      (vm.WindowOpen page → entryAt vm.mem page.ppi pdi = entry →
        EntrySet vm.mem mem page.ppi pdi entry.setA) := by
  unfold markPDE
  split
  · next accessed =>
      refine ⟨vm.mem, vm.accesses, ?_, fun _ there => ?_⟩
      · rw [PageEntry.setA_of_a accessed]
        rfl
      · rw [PageEntry.setA_of_a accessed]
        exact .already there
  · obtain ⟨mem, accesses, run, opened⟩ := writeEntry_spec page pdi entry.setA vm
    refine ⟨mem, accesses, ?_, fun shows _ => (opened shows).2⟩
    rw [bind_apply, run]
    rfl

private theorem markPTE_exact (page : OpenPage) (pti : BitVec 10) (entry : PageEntry) (reqRw : Bool)
    (vm : Vm) : ∃ mem accesses,
      markPTE page pti entry reqRw vm = .ok (entry.marked reqRw) { vm with mem, accesses } ∧
      (vm.WindowOpen page → (entry.a = true → entryAt vm.mem page.ppi pti = entry) →
        EntrySet vm.mem mem page.ppi pti (entry.marked reqRw)) := by
  unfold markPTE
  split
  · obtain ⟨mem, accesses, run, opened⟩ := writeEntry_spec page pti (entry.marked reqRw) vm
    refine ⟨mem, accesses, ?_, fun shows _ => (opened shows).2⟩
    change (writeEntry page pti (entry.marked reqRw) >>= fun _ => pure (entry.marked reqRw)) vm = _
    rw [bind_apply, run]
    rfl
  · next marked =>
      simp only [Bool.or_eq_true, Bool.not_eq_true', Bool.and_eq_true, not_or, not_and,
        Bool.not_eq_false] at marked
      obtain ⟨accessed, dirty⟩ := marked
      refine ⟨vm.mem, vm.accesses, ?_, fun _ there => ?_⟩
      · rw [PageEntry.marked_of_marks accessed dirty]
        rfl
      · rw [PageEntry.marked_of_marks accessed dirty]
        exact .already (there accessed)

/-- Opening a page that unpins none keeps the windows that are open elsewhere. -/
theorem Vm.OpenSpec.quiet {page : OpenPage} {before after : Vm} (spec : OpenSpec page before after)
    (quiet : after.unpins = before.unpins) :
    NoEviction before after ∧ ∀ victim, ¬ before.Drops page.ppi victim := by
  have room : ¬ before.MustEvict page.ppi := fun must => by
    rw [(spec.pin.evicts must).unpins] at quiet
    omega
  exact ⟨spec.pin.keeps room, fun _ drops => room drops.1⟩

/-- Reaching into guest memory never takes an unpinning back. -/
theorem Vm.Settled.unpins_le {before after : Vm} (settled : Settled before after) :
    before.unpins ≤ after.unpins := by
  rcases settled.pages.shadow with kept | flushed
  · exact kept.unpins.ge
  · exact Nat.le_of_lt flushed.unpins

/-- All that the second level of a walk does where nothing is unpinned. -/
structure TblExact (vm : Vm) (guestPDir : OpenPage) (pdi pti : BitVec 10) (guestPDE : PageEntry)
    (reqRw : Bool) (result : Except Bit32u (PageEntry × PageEntry)) (next : Vm) : Prop where
  inside : guestPDE.table < vm.setup.guestNPages
  kept : NoEviction vm next
  pinned : next.pins.pinned guestPDE.table = true
  cpu : SameCpu vm next
  refused : ∀ code, result = .error code → next.mem = vm.mem
  allowed : ∀ entries, result = .ok entries →
    WalkStores vm.mem next.mem guestPDir.ppi pdi guestPDE.table pti reqRw

/-- The two stores of a walk, one after the other. -/
theorem WalkStores.of_sets {before middle after : Bit32u → Bytes} {pdir ptbl : Bit32u}
    {pdi pti : BitVec 10} {reqRw : Bool}
    (first : EntrySet before middle pdir pdi (entryAt before pdir pdi).setA)
    (second : EntrySet middle after ptbl pti ((entryAt before ptbl pti).marked reqRw)) :
    WalkStores before after pdir pdi ptbl pti reqRw := by
  intro page index
  rw [second page index]
  split
  · rfl
  · rw [first page index]

/-- The first store may come before the table entry is read. -/
theorem WalkStores.of_early {before middle after : Bit32u → Bytes} {pdir ptbl : Bit32u}
    {pdi pti : BitVec 10} {reqRw : Bool}
    (first : EntrySet before middle pdir pdi (entryAt before pdir pdi).setA)
    (rest : WalkStores middle after pdir pdi ptbl pti reqRw) :
    WalkStores before after pdir pdi ptbl pti reqRw := by
  have directory : entryAt middle pdir pdi = (entryAt before pdir pdi).setA := by
    rw [first pdir pdi, if_pos ⟨rfl, rfl⟩]
  have table : (entryAt middle ptbl pti).marked reqRw = (entryAt before ptbl pti).marked reqRw := by
    rw [first ptbl pti]
    split
    · next same => rw [same.1, same.2, PageEntry.setA_marked]
    · rfl
  intro page index
  rw [rest page index, directory, table, PageEntry.setA_setA]
  split
  · rfl
  split
  · rfl
  · next other => rw [first page index, if_neg other]

/-- The marking of both entries, entry by entry. -/
theorem marks_exact {guestPDir guestPTbl : OpenPage} {pdi pti : BitVec 10}
    {guestPDE guestPTE : PageEntry} {reqRw : Bool} {vm next : Vm}
    {result : Except Bit32u (PageEntry × PageEntry)} {family : BitVec 4}
    (run : ((if 6 ≤ family then markPDE guestPDir pdi guestPDE else pure guestPDE) >>=
      fun guestPDE => markPTE guestPTbl pti guestPTE reqRw >>= fun guestPTE =>
        pure (Except.ok (guestPDE, guestPTE)) : Mon _) vm = .ok result next)
    (early : family < 6 → guestPDE.a = true) :
    ∃ entries mem accesses, result = .ok entries ∧ next = { vm with mem, accesses } ∧
      (vm.WindowOpen guestPDir → vm.WindowOpen guestPTbl →
        entryAt vm.mem guestPDir.ppi pdi = guestPDE →
        entryAt vm.mem guestPTbl.ppi pti = guestPTE →
        WalkStores vm.mem mem guestPDir.ppi pdi guestPTbl.ppi pti reqRw) := by
  obtain ⟨markedPDE, middle, first, rest⟩ := bind_ok.mp run
  obtain ⟨markedPTE, last, second, returned⟩ := bind_ok.mp rest
  cases returned
  have directory : ∃ mem accesses, middle = { vm with mem, accesses } ∧
      (vm.WindowOpen guestPDir → entryAt vm.mem guestPDir.ppi pdi = guestPDE →
        EntrySet vm.mem mem guestPDir.ppi pdi guestPDE.setA) := by
    by_cases modern : 6 ≤ family
    · rw [if_pos modern] at first
      obtain ⟨mem, accesses, stored, set⟩ := markPDE_exact guestPDir pdi guestPDE vm
      cases first.symm.trans stored
      exact ⟨mem, accesses, rfl, set⟩
    · rw [if_neg modern] at first
      cases first
      refine ⟨vm.mem, vm.accesses, rfl, fun _ there => ?_⟩
      rw [PageEntry.setA_of_a (early (BitVec.not_le.mp modern))]
      exact .already there
  obtain ⟨mem1, accesses1, rfl, set1⟩ := directory
  obtain ⟨mem2, accesses2, stored, set2⟩ :=
    markPTE_exact guestPTbl pti guestPTE reqRw { vm with mem := mem1, accesses := accesses1 }
  cases second.symm.trans stored
  refine ⟨_, mem2, accesses2, rfl, rfl, fun showsPDir showsPTbl there found => ?_⟩
  have set1 := set1 showsPDir there
  refine .of_sets (there.symm ▸ set1) (found.symm ▸ set2 showsPTbl fun accessed => ?_)
  -- one entry may serve as both, and then has no mark to gain
  rw [set1 guestPTbl.ppi pti]
  split
  · next same =>
      have one : guestPDE = guestPTE := by rw [← there, ← found, same.1, same.2]
      rw [one, PageEntry.setA_of_a accessed]
  · exact found

private theorem walkGuestPTbl_exact {guestPDir : OpenPage} {pdi pti : BitVec 10}
    {guestPDE : PageEntry}
    {reqUs reqRw : Bool} {vm next : Vm} {result : Except Bit32u (PageEntry × PageEntry)}
    (early : vm.setup.family < 6 → guestPDE.a = true) (shows : vm.WindowOpen guestPDir)
    (apart : vm.setup.windowPti guestPDir.monOffset ≠ vm.setup.windowPti vm.setup.tmpPhyPage1)
    (there : entryAt vm.mem guestPDir.ppi pdi = guestPDE) (quiet : next.unpins = vm.unpins)
    (run : walkGuestPTbl guestPDir pdi pti guestPDE reqUs reqRw vm = .ok result next) :
    TblExact vm guestPDir pdi pti guestPDE reqRw result next := by
  simp only [walkGuestPTbl, get_bind_apply, panicWhen_bind_apply] at run
  split at run
  · cases run
  next inBounds =>
  obtain ⟨guestPTbl, opened, open1, run⟩ := bind_ok.mp run
  obtain ⟨rfl, spec⟩ := openGuestPhyPage_ok open1
  obtain ⟨log, read, -⟩ := readEntry_open pti spec.window
  rw [bind_apply, read] at run
  have inside : guestPDE.table < vm.setup.guestNPages := BitVec.not_le.mp inBounds
  have mem := spec.pin.mem
  -- what remains is done to memory, through the two windows
  have finish : ∀ mem accesses, next = { opened with mem, accesses } →
      NoEviction vm next ∧ next.pins.pinned guestPDE.table = true ∧ SameCpu vm next ∧
        opened.WindowOpen guestPDir := by
    rintro mem accesses rfl
    obtain ⟨kept, noDrop⟩ := spec.quiet quiet
    refine ⟨⟨kept.shadow, quiet, kept.kept⟩, spec.pin.pinned, ?_, spec.stays shows apart (noDrop _)⟩
    exact spec.pin.cpu.trans (by constructor <;> rfl)
  have refuse : ∀ code, (Except.error code : Except Bit32u (PageEntry × PageEntry)) = result →
      { opened with accesses := log } = next → TblExact vm guestPDir pdi pti guestPDE reqRw result
        next := by
    rintro code rfl same
    obtain ⟨kept, pinned, cpu, -⟩ := finish opened.mem log same.symm
    exact ⟨inside, kept, pinned, cpu, fun _ _ => same ▸ mem, fun _ impossible => by cases impossible⟩
  generalize entry : entryAt opened.mem _ pti = guestPTE at run
  simp only [Logic.ite_apply] at run
  split at run
  · cases run
    exact refuse _ rfl rfl
  split at run
  · cases run
    exact refuse _ rfl rfl
  split at run
  · cases run
    exact refuse _ rfl rfl
  obtain ⟨entries, mem', accesses, rfl, same, stores⟩ := marks_exact run early
  obtain ⟨kept, pinned, cpu, showsPDir⟩ := finish mem' accesses same
  refine ⟨inside, kept, pinned, cpu, (fun _ impossible => by cases impossible), fun _ _ => ?_⟩
  have there' : entryAt opened.mem guestPDir.ppi pdi = guestPDE := by rw [mem, there]
  have stored := stores showsPDir spec.window there' entry
  rw [same]
  rwa [← mem]

/-- All that a walk does where nothing is unpinned. -/
structure WalkExact (vm : Vm) (pdi pti : BitVec 10) (reqRw : Bool)
    (result : Except Bit32u (PageEntry × PageEntry)) (next : Vm) : Prop where
  directory : vm.pageDirectory < vm.setup.guestNPages
  kept : NoEviction vm next
  pinned : next.pins.pinned vm.pageDirectory = true
  cpu : SameCpu vm next
  table : (vm.tables pdi pti).1.p = true →
    (vm.tables pdi pti).1.table < vm.setup.guestNPages ∧
      next.pins.pinned (vm.tables pdi pti).1.table = true
  refused : ∀ code, result = .error code → (6 ≤ vm.setup.family → next.mem = vm.mem) ∧
    AtMostAccessed vm.mem next.mem vm.pageDirectory pdi
  allowed : ∀ entries, result = .ok entries → WalkStores vm.mem next.mem vm.pageDirectory pdi
    (vm.tables pdi pti).1.table pti reqRw

private theorem AtMostAccessed.of_set {before after : Bit32u → Bytes} {pdir : Bit32u}
    {pdi : BitVec 10}
    (set : EntrySet before after pdir pdi (entryAt before pdir pdi).setA) :
    AtMostAccessed before after pdir pdi := by
  intro page index
  by_cases here : page = pdir ∧ index = pdi
  · right
    refine ⟨here.1, here.2, ?_⟩
    rw [set page index, if_pos here]
  · left
    rw [set page index, if_neg here]

theorem AtMostAccessed.refl (mem : Bit32u → Bytes) (pdir : Bit32u) (pdi : BitVec 10) :
    AtMostAccessed mem mem pdir pdi := fun _ _ => .inl rfl

/-- The early mark of earlier processors, entry by entry. -/
theorem markEarly_exact {page : OpenPage} {pdi : BitVec 10} {entry marked : PageEntry}
    {vm next : Vm} {family : BitVec 4}
    (run : (if family < 6 then markPDE page pdi entry else pure entry) vm = .ok marked next)
    (shows : vm.WindowOpen page) (there : entryAt vm.mem page.ppi pdi = entry) :
    ∃ mem accesses, next = { vm with mem, accesses } ∧ entryAt mem page.ppi pdi = marked ∧
      marked.SameMapping entry ∧ (family < 6 → marked.a = true) ∧
      (6 ≤ family → mem = vm.mem ∧ marked = entry) ∧
      (family < 6 → EntrySet vm.mem mem page.ppi pdi (entryAt vm.mem page.ppi pdi).setA) := by
  by_cases old : family < 6
  · rw [if_pos old] at run
    obtain ⟨mem, accesses, stored, set⟩ := markPDE_exact page pdi entry vm
    cases run.symm.trans stored
    have set := set shows there
    refine ⟨mem, accesses, rfl, ?_, entry.setA_sameMapping, fun _ => entry.setA_a,
      fun new => absurd old (BitVec.not_lt.mpr new), fun _ => there.symm ▸ set⟩
    rw [set page.ppi pdi, if_pos ⟨rfl, rfl⟩]
  · rw [if_neg old] at run
    cases run
    exact ⟨vm.mem, vm.accesses, rfl, there, .refl entry, fun yes => absurd yes old,
      fun _ => ⟨rfl, rfl⟩, fun yes => absurd yes old⟩

theorem walkGuest_exact {pdi pti : BitVec 10} {reqUs reqRw : Bool} {vm next : Vm}
    {result : Except Bit32u (PageEntry × PageEntry)} (apart : vm.setup.WindowsApart)
    (quiet : next.unpins = vm.unpins)
    (run : walkGuest pdi pti reqUs reqRw vm = .ok result next) :
    WalkExact vm pdi pti reqRw result next := by
  simp only [walkGuest, get_bind_apply, panicWhen_bind_apply] at run
  split at run
  · cases run
  next inBounds =>
  obtain ⟨guestPDir, opened, open0, run⟩ := bind_ok.mp run
  obtain ⟨rfl, spec⟩ := openGuestPhyPage_ok open0
  obtain ⟨log, read, -⟩ := readEntry_open pdi spec.window
  rw [bind_apply, read] at run
  have inside : vm.pageDirectory < vm.setup.guestNPages := BitVec.not_le.mp inBounds
  have mem := spec.pin.mem
  have setup := spec.pin.cpu.setup
  generalize entry : entryAt opened.mem _ pdi = guestPDE at run
  have found : (vm.tables pdi pti).1 = guestPDE := by
    rw [← entry, mem]
    rfl
  simp only [Logic.ite_apply] at run
  split at run
  · next missing =>
      cases run
      have absent : guestPDE.p = false := by simpa using missing
      obtain ⟨kept, -⟩ := spec.quiet quiet
      refine ⟨inside, ⟨kept.shadow, quiet, kept.kept⟩, spec.pin.pinned, ?_, ?_, ?_,
        fun _ impossible => by cases impossible⟩
      · exact spec.pin.cpu.trans (by constructor <;> rfl)
      · intro present
        rw [found, absent] at present
        cases present
      · intro _ _
        change (_ → opened.mem = vm.mem) ∧ AtMostAccessed vm.mem opened.mem _ _
        rw [mem]
        exact ⟨fun _ => rfl, .refl _ _ _⟩
  next present =>
  have present : guestPDE.p = true := by simpa using present
  obtain ⟨marked, middle, early, run⟩ := bind_ok.mp run
  obtain ⟨mem1, log1, rfl, there, mapping, old, modern, set⟩ :=
    markEarly_exact early spec.window entry
  let middle : Vm := { opened with mem := mem1, accesses := log1 }
  have table : marked.table = guestPDE.table := by rw [PageEntry.table, mapping.base]; rfl
  -- the two openings together unpin nothing, so neither does
  have early' : middle.setup.family < 6 → marked.a = true := by
    change opened.setup.family < 6 → _
    rw [setup]
    exact old
  have later : middle.unpins ≤ next.unpins := (walkGuestPTbl_ok early' run).settled.unpins_le
  have quiet1 : opened.unpins = vm.unpins :=
    Nat.le_antisymm (later.trans quiet.le) spec.settled.unpins_le
  have quiet2 : next.unpins = middle.unpins := quiet.trans quiet1.symm
  have apart' : opened.setup.WindowsApart := by
    rw [setup]
    exact apart
  have own : middle.setup.windowPti vm.setup.tmpPhyPage0 ≠
      middle.setup.windowPti middle.setup.tmpPhyPage1 := by
    rw [← setup]
    exact apart'
  have tbl : TblExact middle ⟨vm.setup.tmpPhyPage0, vm.guestCpu.cr3 >>> 12⟩ pdi pti marked reqRw
      result next := walkGuestPTbl_exact early' spec.window own there quiet2 run
  obtain ⟨kept, -⟩ := spec.quiet quiet1
  have keptMiddle : NoEviction vm middle := ⟨kept.shadow, quiet1, kept.kept⟩
  refine ⟨inside, keptMiddle.trans tbl.kept, ?_, ?_, ?_, ?_, ?_⟩
  · exact (tbl.kept.kept _ spec.pin.pinned).1
  · exact (spec.pin.cpu.trans (by constructor <;> rfl : SameCpu opened middle)).trans tbl.cpu
  · intro _
    rw [found, ← table, ← setup]
    exact ⟨tbl.inside, tbl.pinned⟩
  · intro code refused
    rw [tbl.refused code refused]
    change (_ → mem1 = vm.mem) ∧ AtMostAccessed vm.mem mem1 _ _
    by_cases new : 6 ≤ vm.setup.family
    · rw [(modern new).1, mem]
      exact ⟨fun _ => rfl, .refl _ _ _⟩
    · refine ⟨fun yes => absurd yes new, ?_⟩
      have set := set (BitVec.not_le.mp new)
      rw [mem] at set
      exact .of_set set
  · intro entries allowed
    have stores := tbl.allowed entries allowed
    rw [found, ← table]
    by_cases new : 6 ≤ vm.setup.family
    · have same : middle.mem = vm.mem := (modern new).1.trans mem
      rwa [same] at stores
    · have set := set (BitVec.not_le.mp new)
      rw [mem] at set
      exact .of_early set stores

/-- Two levels of tables deny an access: an entry is not present, user code needs
one that is the supervisor's, or a write finds a read-only one, which stops the
supervisor only where WP is set. -/
def Denied (wp : Bool) (tables : PageEntry × PageEntry) (reqUs reqRw : Bool) : Prop :=
  tables.1.p = false ∨ tables.2.p = false ∨
    (reqUs = true ∧ (tables.1.us = false ∨ tables.2.us = false)) ∨
    (reqRw = true ∧ (tables.1.rw = false ∨ tables.2.rw = false) ∧ (wp = true ∨ reqUs = true))

/-- The error code of a page fault: P, W/R and U/S. -/
def faultCode (tables : PageEntry × PageEntry) (reqUs reqRw : Bool) : Bit32u :=
  bit (tables.1.p && tables.2.p) ||| (bit reqUs <<< 2) ||| (bit reqRw <<< 1)

private theorem guestFault_none_iff (wp : Bool) (tables : PageEntry × PageEntry)
    (reqUs reqRw : Bool) :
    guestFault wp tables reqUs reqRw = none ↔ ¬ Denied wp tables reqUs reqRw := by
  rw [guestFault_eq_none, PageEntry.denies_eq_false, PageEntry.denies_eq_false]
  unfold Denied
  cases tables.1.p <;> cases tables.2.p <;> cases reqUs <;> cases reqRw <;> cases wp <;> simp <;>
    tauto

theorem guestFault_code {wp : Bool} {tables : PageEntry × PageEntry} {reqUs reqRw : Bool}
    {code : Bit32u} (fault : guestFault wp tables reqUs reqRw = some code) :
    code = bit (tables.1.p && tables.2.p) := by
  unfold guestFault at fault
  cases present : tables.1.p && tables.2.p with
  | false =>
      rw [present] at fault
      cases fault
      rfl
  | true =>
      rw [present] at fault
      simp only [Bool.not_true, Bool.false_eq_true, if_false] at fault
      split at fault
      · cases fault
        rfl
      · cases fault

/-- The guest's own state is what it was, and no page is unpinned silently. -/
structure Vm.SameGuest (before after : Vm) : Prop where
  cpu : SameCpu before after
  mem : after.mem = before.mem
  pages : (after.unpins = before.unpins ∧
    ∀ ppi, before.pins.pinned ppi = true → after.pins.pinned ppi = true) ∨
      before.unpins < after.unpins

theorem Vm.SameGuest.refl (vm : Vm) : vm.SameGuest vm := ⟨.refl vm, rfl, .inl ⟨rfl, fun _ kept => kept⟩⟩

section Frame

variable {start : Vm}

/-- Code that leaves the guest alone, however it ends. -/
private abbrev Leaves {α : Type} (start : Vm) (program : Mon α) : Prop :=
  Keeps (Vm.SameGuest start) (fun _ _ => True) program

private theorem panicWhen_leaves {cond : Prop} [Decidable cond] {format : String}
    {args : List Bit32u} : Leaves start (panicWhen cond format args) :=
  panicWhen_keeps fun _ _ => trivial

/-- A change of the shadow tables is none of the guest's. -/
private theorem shadow_leaves (change : Vm → Shadow) :
    Leaves start (modify fun vm => { vm with shadow := change vm }) :=
  .modify fun _ same => ⟨same.cpu.trans (by constructor <;> rfl), same.mem, same.pages⟩

private theorem getPageUsage_leaves (ppi : Bit32u) : Leaves start (getPageUsage ppi) :=
  .get_bind fun _ _ => .bind (monAssert_keeps fun _ _ => trivial) fun _ => .pure

private theorem getHostOSPinnedPage_leaves (ppi : Bit32u) :
    Leaves start (getHostOSPinnedPage ppi) := by
  intro vm same
  cases run : getHostOSPinnedPage ppi vm with
  | ok frame next =>
      obtain ⟨pin, -, -⟩ := getHostOSPinnedPage_ok run
      refine ⟨same.cpu.trans pin.cpu, pin.mem.trans same.mem, ?_⟩
      by_cases must : vm.MustEvict ppi
      · have more : next.unpins = vm.unpins + 1 := (pin.evicts must).unpins
        rcases same.pages with ⟨still, -⟩ | fewer
        · exact .inr (by omega)
        · exact .inr (by omega)
      · have kept := pin.keeps must
        rcases same.pages with ⟨still, pinned⟩ | fewer
        · exact .inl ⟨kept.unpins.trans still, fun page held => (kept.kept page (pinned page held)).1⟩
        · exact .inr (kept.unpins ▸ fewer)
  | error stop last => trivial

private theorem mapPDE_leaves (laddr : Bit32u) (guestPDE : Option PageEntry) :
    Ensures (Vm.SameGuest start) (mapPDE laddr guestPDE)
      (fun result vm => (result = .error .monConflict ∨ ∃ ptIndex, result = .ok ptIndex) ∧
        Vm.SameGuest start vm) (fun _ _ => True) := by
  have usage : Leaves start (checkPDEUsage guestPDE) := by
    cases guestPDE with
    | none => exact .pure
    | some entry =>
        apply Keeps.bind (getPageUsage_leaves _)
        intro attr
        exact panicWhen_leaves
  have free : Leaves start (getFreePageTable (pdiOf laddr)) := by
    apply Keeps.get_bind
    intro now same
    apply Keeps.bind panicWhen_leaves
    intro _
    apply Keeps.bind panicWhen_leaves
    intro _
    apply Keeps.bind (shadow_leaves _)
    intro _
    exact .pure
  have found : Leaves start (getMonPTi (pdiOf laddr) 12) := by
    apply Keeps.get_bind
    intro now same
    apply Keeps.bind panicWhen_leaves
    intro _
    apply Keeps.bind panicWhen_leaves
    intro _
    exact .pure
  apply Ensures.look_bind
  intro now same
  apply Ensures.ite
  · intro absent
    apply Ensures.bind usage
    intro _
    apply Ensures.bind free
    intro ptIndex
    apply Ensures.bind (shadow_leaves _)
    intro _
    exact .pure fun _ same => ⟨.inr ⟨ptIndex, rfl⟩, same⟩
  · intro present
    apply Ensures.ite
    · intro own
      exact .pure fun _ same => ⟨.inl rfl, same⟩
    · intro other
      apply Ensures.bind found
      intro ptIndex
      exact .pure fun _ same => ⟨.inr ⟨ptIndex, rfl⟩, same⟩

/-- Entering a page into the monitor's tables changes nothing of the guest's, and
never ends in a fault for it. -/
theorem mapIntoMonitor_leaves (laddr guestPPI : Bit32u)
    (entries : Option (PageEntry × PageEntry)) (reqRw : Bool) :
    Ensures (Vm.SameGuest start) (mapIntoMonitor laddr guestPPI entries reqRw)
      (fun result vm => (∀ code, result ≠ .exception code) ∧ Vm.SameGuest start vm)
      (fun _ _ => True) := by
  have entered (ptIndex : Bit32u) (usage : PhyPageAttr) : Ensures (Vm.SameGuest start)
      (mapPTE ptIndex laddr guestPPI usage (entries.map (·.2)) reqRw)
      (fun result vm => (∀ code, result ≠ .exception code) ∧ Vm.SameGuest start vm)
      (fun _ _ => True) := by
    apply Ensures.look_bind
    intro now same
    apply Ensures.ite (fun mapped => .pure fun _ same => ⟨by simp, same⟩)
    intro unmapped
    apply Ensures.ite (fun readOnly => .pure fun _ same => ⟨by simp, same⟩)
    intro writable
    apply Ensures.ite (fun memMapIo => .pure fun _ same => ⟨by simp, same⟩)
    intro ordinary
    apply Ensures.bind (getHostOSPinnedPage_leaves _)
    intro base
    apply Ensures.bind (shadow_leaves _)
    intro _
    exact .pure fun _ same => ⟨by simp, same⟩
  apply Ensures.look_bind
  intro now same
  apply Ensures.ite (fun outside => .pure fun _ same => ⟨by simp, same⟩)
  intro inside
  apply Ensures.bind (getPageUsage_leaves _)
  intro usage
  apply Ensures.bind (mapPDE_leaves _ _)
  intro found vm answered
  obtain ⟨rfl | ⟨ptIndex, rfl⟩, same⟩ := answered
  · exact ⟨by simp, same⟩
  · exact entered ptIndex usage vm same

end Frame

/-- Finding the guest's page for an address unpins none. -/
def Vm.QuietWalk (vm : Vm) (laddr : Bit32u) (reqUs reqRw : Bool) : Prop :=
  ∀ result walked, walkGuest (pdiOf laddr) (ptiOf laddr) reqUs reqRw vm = .ok result walked →
    walked.unpins = vm.unpins

/-- Whether a walk is quiet can be found by running it. -/
theorem Vm.quietWalk_of_run {vm : Vm} {laddr : Bit32u} {reqUs reqRw : Bool}
    (ran : (leaves (walkGuest (pdiOf laddr) (ptiOf laddr) reqUs reqRw) vm).all
      (fun walked => walked.unpins = vm.unpins) = true) : vm.QuietWalk laddr reqUs reqRw := by
  intro result walked run
  have left : leaves (walkGuest (pdiOf laddr) (ptiOf laddr) reqUs reqRw) vm = some walked := by
    rw [leaves, run]
  rw [left] at ran
  simpa using ran

/-- The rule of the processor for an access that goes through two tables, kept by
what `mapGuestLinAddr` answers and by what it leaves in guest memory. -/
structure PageWalkRule (vm : Vm) (laddr : Bit32u) (reqUs reqRw : Bool) (result : MapLin)
    (next : Vm) : Prop where
  denied : (∃ code, result = .exception code) ↔
    Denied vm.guestCpu.wp (vm.tables (pdiOf laddr) (ptiOf laddr)) reqUs reqRw
  code : ∀ code, result = .exception code →
    code = faultCode (vm.tables (pdiOf laddr) (ptiOf laddr)) reqUs reqRw
  granted : (∀ code, result ≠ .exception code) →
    WalkStores vm.mem next.mem vm.pageDirectory (pdiOf laddr)
      (vm.tables (pdiOf laddr) (ptiOf laddr)).1.table (ptiOf laddr) reqRw
  unchanged : 6 ≤ vm.setup.family → (∃ code, result = .exception code) → next.mem = vm.mem
  accessed : (∃ code, result = .exception code) →
    AtMostAccessed vm.mem next.mem vm.pageDirectory (pdiOf laddr)

/-- With paging on, an address whose page is found without unpinning any is mapped
by the processor's rule. -/
theorem mapGuestLinAddr_rule {vm next : Vm} {laddr : Bit32u} {reqUs reqRw : Bool}
    {result : MapLin} (paging : vm.guestCpu.pg = true) (apart : vm.setup.WindowsApart)
    (quiet : vm.QuietWalk laddr reqUs reqRw)
    (run : mapGuestLinAddr laddr reqUs reqRw vm = .ok result next) :
    PageWalkRule vm laddr reqUs reqRw result next := by
  rw [mapGuestLinAddr, get_bind_apply, if_pos paging] at run
  obtain ⟨answer, walked, walk, rest⟩ := bind_ok.mp run
  have exact := walkGuest_exact apart (quiet answer walked walk) walk
  have spec := walkGuest_ok walk
  cases answer with
  | error error =>
      cases rest
      obtain ⟨fault, -⟩ := spec.refused error rfl
      obtain ⟨same, accessed⟩ := exact.refused error rfl
      refine ⟨⟨fun _ => ?_, fun _ => ⟨_, rfl⟩⟩, ?_, fun none => absurd rfl (none _),
        fun new _ => same new, fun _ => accessed⟩
      · by_contra granted
        rw [(guestFault_none_iff _ _ _ _).mpr granted] at fault
        cases fault
      · rintro code ⟨⟩
        rw [guestFault_code fault]
        rfl
  | ok entries =>
      have entered := (mapIntoMonitor_leaves laddr _ (some entries) reqRw).returns
        (.refl walked) rest
      obtain ⟨noFault, same⟩ := entered
      have none : ¬ ∃ code, result = .exception code := fun ⟨code, same⟩ => noFault code same
      have stores := exact.allowed entries rfl
      refine ⟨⟨fun fault => absurd fault none, fun denied => ?_⟩,
        fun code same => absurd same (noFault code), fun _ => same.mem.symm ▸ stores,
        fun _ fault => absurd fault none, fun fault => absurd fault none⟩
      exact absurd denied ((guestFault_none_iff _ _ _ _).mp (spec.allowed entries rfl).1)

/-- A write through a directory that maps itself: its one entry serves at both levels. -/
theorem mapGuestLinAddr_rule_sample : ∃ vm next : Vm, vm.pageDirectory = 1 ∧
    entryAt vm.mem 1 0 = ⟨0x1007⟩ ∧ mapGuestLinAddr 0 false true vm = .ok (.ok 1) next ∧
    entryAt next.mem 1 0 = ⟨0x1067⟩ ∧ PageWalkRule vm 0 false true (.ok 1) next := by
  let shadow : Shadow := { pageDir := Function.update (fun _ => ⟨0⟩) 0x1c0 (.make 0x10b 7) }
  let vm : Vm :=
    { setup := Sample.setup, shadow := shadow.init 0x1c0
      guestCpu := { cr0 := 0x80000000, cr3 := 0x1000 }
      mem := putEntry (fun _ _ => 0) 1 0 ⟨0x1007⟩ }
  let check (next : Vm) : Bool := decide (entryAt next.mem 1 0 = ⟨0x1067⟩)
  let maps : Mon Unit := do
    let result ← mapGuestLinAddr 0 false true
    if result = .ok 1 then return () else throw .monpanicNomess
  have checked : (leaves maps vm).any check = true := by decide +kernel
  have quiet : vm.QuietWalk 0 false true := quietWalk_of_run (by decide +kernel)
  cases mapped : leaves maps vm with
  | none => simp [mapped] at checked
  | some next =>
      rw [mapped] at checked
      obtain ⟨result, last, run, kept⟩ := bind_ok.mp (leaves_eq_some.mp mapped)
      rw [Logic.ite_apply] at kept
      split at kept
      · next same =>
          cases kept
          rw [same] at run
          have apart : vm.setup.WindowsApart := by
            unfold Setup.WindowsApart
            decide
          have paging : vm.guestCpu.pg = true := by decide
          exact ⟨vm, next, by decide, by decide +kernel, run, of_decide_eq_true checked,
            mapGuestLinAddr_rule paging apart quiet run⟩
      · cases kept

end Plex86
