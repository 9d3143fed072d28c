import Plex86.Paging.GuestTables
import Plex86.Paging.Settled

namespace Plex86

open Logic Vm

/-- An entry and the same entry after an access. -/
structure PageEntry.MarkOf (marked entry : PageEntry) (reqRw : Bool) : Prop where
  mapping : marked.SameMapping entry
  a : marked.a = true
  d : marked.d = (reqRw || entry.d)

theorem PageEntry.MarkOf.marked (entry : PageEntry) (reqRw : Bool) :
    (entry.marked reqRw).MarkOf entry reqRw :=
  ⟨entry.marked_sameMapping reqRw, entry.marked_a reqRw, entry.marked_d reqRw⟩

private theorem readEntry_apply (page : OpenPage) (index : BitVec 10) (vm : Vm) :
    readEntry page index vm = .ok ⟨loadWord 32 (vm.windowBytes page) (4 * index.toNat)⟩
      { vm with accesses := vm.windowAccess page (4 * index.toNat) 4 none :: vm.accesses } := rfl

namespace Vm

theorem windowBytes_open {vm : Vm} {page : OpenPage} (shows : vm.WindowOpen page) :
    vm.windowBytes page = vm.mem page.ppi := by
  simp [windowBytes, windowTarget, shows]

theorem Careful.one {vm : Vm} {page : OpenPage} (shows : vm.WindowOpen page) (index : BitVec 10)
    (stored : Option Nat) (mem : Bit32u → Bytes) :
    Careful vm { vm with
      mem
      accesses := vm.windowAccess page (4 * index.toNat) 4 stored :: vm.accesses } := by
  refine ⟨[_], rfl, ?_⟩
  have inside : 4 * index.toNat + 4 ≤ 4096 := by omega
  simpa using windowAccess_valid shows inside stored

end Vm

/-- Reading through an open window reads the page it was opened for. -/
theorem readEntry_open {page : OpenPage} {vm : Vm} (index : BitVec 10)
    (shows : vm.WindowOpen page) : ∃ accesses,
      readEntry page index vm = .ok (entryAt vm.mem page.ppi index) { vm with accesses } ∧
        Careful vm { vm with accesses } := by
  refine ⟨_, ?_, Careful.one shows index none vm.mem⟩
  rw [readEntry_apply, windowBytes_open shows]
  rfl

/-- Storing an entry changes memory and the log only; through an open window it
sets that entry. -/
theorem writeEntry_spec (page : OpenPage) (index : BitVec 10) (entry : PageEntry) (vm : Vm) :
    ∃ mem accesses, writeEntry page index entry vm = .ok () { vm with mem, accesses } ∧
      (vm.WindowOpen page → Careful vm { vm with mem, accesses } ∧
        EntrySet vm.mem mem page.ppi index entry) := by
  refine ⟨_, _, rfl, fun shows => ⟨Careful.one shows index (some entry.raw.toNat) _, ?_⟩⟩
  simp only [windowTarget, shows, if_true]
  exact EntrySet.put vm.mem page.ppi index entry

/-- What marking an entry does: the marked entry, and the memory it is in. -/
def Marks (page : OpenPage) (index : BitVec 10) (entry : PageEntry) (reqRw : Bool) (vm : Vm)
    (outcome : EStateM.Result Halt Vm PageEntry) : Prop :=
  ∃ marked mem accesses, outcome = .ok marked { vm with mem, accesses } ∧
    marked.MarkOf entry reqRw ∧
    (vm.WindowOpen page → Careful vm { vm with mem, accesses } ∧
      ((entry.a = true → entryAt vm.mem page.ppi index = entry) →
        EntrySet vm.mem mem page.ppi index marked))

/-- An entry that is marked already is left alone. -/
theorem Marks.none {page : OpenPage} {index : BitVec 10} {entry : PageEntry} {reqRw : Bool}
    {vm : Vm} (accessed : entry.a = true) (dirty : reqRw = true → entry.d = true) :
    Marks page index entry reqRw vm (.ok entry vm) := by
  refine ⟨entry, vm.mem, vm.accesses, rfl, ⟨.refl entry, accessed, ?_⟩, fun _ => ⟨.refl vm,
    fun there => .already (there accessed)⟩⟩
  cases reqRw
  · rfl
  · simp [dirty rfl]

theorem Marks.store (page : OpenPage) (index : BitVec 10) (entry : PageEntry) (reqRw : Bool)
    (vm : Vm) : Marks page index entry reqRw vm
      ((writeEntry page index (entry.marked reqRw) >>= fun _ => pure (entry.marked reqRw)) vm) := by
  obtain ⟨mem, accesses, run, opened⟩ := writeEntry_spec page index (entry.marked reqRw) vm
  refine ⟨entry.marked reqRw, mem, accesses, ?_, .marked entry reqRw, fun shows => ?_⟩
  · rw [bind_apply, run]
    rfl
  · exact ⟨(opened shows).1, fun _ => (opened shows).2⟩

private theorem markPDE_marks (page : OpenPage) (pdi : BitVec 10) (guestPDE : PageEntry) (vm : Vm) :
    Marks page pdi guestPDE false vm (markPDE page pdi guestPDE vm) := by
  unfold markPDE
  split
  · next accessed => exact .none accessed (by simp)
  · exact .store page pdi guestPDE false vm

private theorem markPTE_marks (page : OpenPage) (pti : BitVec 10) (guestPTE : PageEntry)
    (reqRw : Bool)
    (vm : Vm) : Marks page pti guestPTE reqRw vm (markPTE page pti guestPTE reqRw vm) := by
  unfold markPTE
  split
  · exact .store page pti guestPTE reqRw vm
  · next marked =>
      simp only [Bool.or_eq_true, Bool.not_eq_true', Bool.and_eq_true, not_or, not_and,
        Bool.not_eq_false] at marked
      exact .none marked.1 marked.2

/-- The guest page that a directory entry names as its page table. -/
def PageEntry.table (guestPDE : PageEntry) : Bit32u := guestPDE.base.setWidth 32

theorem Vm.OpenSpec.careful {page : OpenPage} {before after : Vm} (spec : OpenSpec page before after) :
    Careful before after :=
  ⟨[], by simpa using spec.pin.accesses, by simp⟩

/-- The store that marks the directory entry comes after the page table is opened. -/
def MarksLate (vm : Vm) (guestPDE : PageEntry) : Prop :=
  6 ≤ vm.setup.family ∧ guestPDE.a = false

instance (vm : Vm) (guestPDE : PageEntry) : Decidable (MarksLate vm guestPDE) :=
  inferInstanceAs (Decidable (_ ∧ _))

/-- The window of the page directory survives the opening of the page table. -/
structure LateSafe (vm : Vm) (guestPDir : OpenPage) (guestPDE : PageEntry) : Prop where
  shows : vm.WindowOpen guestPDir
  apart : vm.setup.windowPti guestPDir.monOffset ≠ vm.setup.windowPti vm.setup.tmpPhyPage1
  kept : ¬ vm.Drops guestPDE.table guestPDir.ppi

/-- What a walk leaves in memory: the directory entry marked, the table entry marked. -/
structure WalkMarks (before after : Bit32u → Bytes) (pdir : Bit32u) (pdi : BitVec 10)
    (ptbl : Bit32u) (pti : BitVec 10) (guestPDE guestPTE : PageEntry) (reqRw : Bool) : Prop where
  directory : (entryAt after pdir pdi).SameMapping guestPDE
  directoryA : (entryAt after pdir pdi).a = true
  table : (entryAt after ptbl pti).MarkOf guestPTE reqRw

theorem WalkMarks.of_sets {before middle after : Bit32u → Bytes} {pdir ptbl : Bit32u}
    {pdi pti : BitVec 10} {guestPDE guestPTE markedPDE markedPTE : PageEntry} {reqRw : Bool}
    (first : EntrySet before middle pdir pdi markedPDE)
    (second : EntrySet middle after ptbl pti markedPTE) (there : entryAt before pdir pdi = guestPDE)
    (found : entryAt before ptbl pti = guestPTE) (directory : markedPDE.MarkOf guestPDE false)
    (table : markedPTE.MarkOf guestPTE reqRw) :
    WalkMarks before after pdir pdi ptbl pti guestPDE guestPTE reqRw := by
  have last : entryAt after ptbl pti = markedPTE := by simp [second ptbl pti]
  have other : ¬ (pdir = ptbl ∧ pdi = pti) → entryAt after pdir pdi = markedPDE := fun differs => by
    rw [second pdir pdi, if_neg differs, first pdir pdi]
    simp
  -- a directory may be its own page table, and one entry may serve as both
  by_cases one : pdir = ptbl ∧ pdi = pti
  · obtain ⟨rfl, rfl⟩ := one
    have same : guestPTE = guestPDE := found.symm.trans there
    exact ⟨last ▸ same ▸ table.mapping, last ▸ table.a, last ▸ table⟩
  · exact ⟨other one ▸ directory.mapping, other one ▸ directory.a, last ▸ table⟩

theorem WalkMarks.tables {before after : Bit32u → Bytes} {cr3 : Bit32u} {pdi pti : BitVec 10}
    {guestPDE guestPTE : PageEntry} {reqRw : Bool} {tables : PageEntry × PageEntry}
    (marks : WalkMarks before after (cr3 >>> 12) pdi guestPDE.table pti guestPDE guestPTE reqRw)
    (directory : guestPDE.SameMapping tables.1) (table : guestPTE.SameMapping tables.2)
    (dirty : guestPTE.d = tables.2.d) : TablesMarked after cr3 pdi pti reqRw tables := by
  have second : (guestTables after cr3 pdi pti).2 = entryAt after guestPDE.table pti := by
    simp only [guestTables, marks.directory.base]
    rfl
  refine ⟨marks.directory.trans directory, ?_, marks.directoryA, ?_, fun either => ?_⟩
  · rw [second]
    exact marks.table.mapping.trans table
  · rw [second]
    exact marks.table.a
  · rw [second, marks.table.d, dirty]
    rcases either with write | already
    · simp [write]
    · simp [already]

/-- What the second level of the walk came to. -/
structure TblSpec (vm : Vm) (guestPDir : OpenPage) (pdi pti : BitVec 10) (guestPDE : PageEntry)
    (reqUs reqRw : Bool) (result : Except Bit32u (PageEntry × PageEntry)) (next : Vm) : Prop where
  settled : Settled vm next
  asked : ∀ records, vm.pins.Holds records → Asked [guestPDE.table] vm next
  refused : ∀ code, result = .error code →
    guestPDE.p = true → Careful vm next ∧ next.mem = vm.mem ∧
      guestFault vm.guestCpu.wp (guestPDE, entryAt vm.mem guestPDE.table pti) reqUs reqRw = some code
  allowed : ∀ entries, result = .ok entries → guestPDE.p = true →
    guestFault vm.guestCpu.wp (guestPDE, entryAt vm.mem guestPDE.table pti) reqUs reqRw = none ∧
      entries.1.SameMapping guestPDE ∧
      entries.2.SameMapping (entryAt vm.mem guestPDE.table pti) ∧
      ((MarksLate vm guestPDE → LateSafe vm guestPDir guestPDE) → Careful vm next ∧
        (entryAt vm.mem guestPDir.ppi pdi = guestPDE →
          (vm.setup.family < 6 → guestPDE.a = true) →
          WalkMarks vm.mem next.mem guestPDir.ppi pdi guestPDE.table pti guestPDE
            (entryAt vm.mem guestPDE.table pti) reqRw))

/-- The marking of both entries, once the access is allowed. -/
theorem marks_ok {guestPDir guestPTbl : OpenPage} {pdi pti : BitVec 10}
    {guestPDE guestPTE : PageEntry} {reqRw : Bool} {vm next : Vm}
    {result : Except Bit32u (PageEntry × PageEntry)} {family : BitVec 4}
    (run : ((if 6 ≤ family then markPDE guestPDir pdi guestPDE else pure guestPDE) >>=
      fun guestPDE => markPTE guestPTbl pti guestPTE reqRw >>= fun guestPTE =>
        pure (Except.ok (guestPDE, guestPTE)) : Mon _) vm = .ok result next)
    (same : vm.setup.family = family) (early : family < 6 → guestPDE.a = true)
    (shows : vm.WindowOpen guestPTbl)
    (found : entryAt vm.mem guestPTbl.ppi pti = guestPTE) :
    ∃ entries mem accesses, result = .ok entries ∧ next = { vm with mem, accesses } ∧
      entries.1.SameMapping guestPDE ∧ entries.2.SameMapping guestPTE ∧
      ((MarksLate vm guestPDE → vm.WindowOpen guestPDir) → Careful vm { vm with mem, accesses } ∧
        (entryAt vm.mem guestPDir.ppi pdi = guestPDE →
          WalkMarks vm.mem mem guestPDir.ppi pdi guestPTbl.ppi pti guestPDE guestPTE reqRw)) := by
  obtain ⟨markedPDE, middle, first, rest⟩ := bind_ok.mp run
  obtain ⟨markedPTE, last, second, returned⟩ := bind_ok.mp rest
  cases returned
  by_cases accessed : guestPDE.a = true
  · -- no store into the directory, neither early nor late
    have still : markPDE guestPDir pdi guestPDE = pure guestPDE := if_pos accessed
    rw [still, ite_self] at first
    cases first
    obtain ⟨markedPTE', mem, accesses, stored, mark, opened⟩ :=
      markPTE_marks guestPTbl pti guestPTE reqRw vm
    cases second.symm.trans stored
    refine ⟨_, mem, accesses, rfl, rfl, .refl guestPDE, mark.mapping, fun _ =>
      ⟨(opened shows).1, fun there => ?_⟩⟩
    exact .of_sets (.already there) ((opened shows).2 fun _ => found) there found
      ⟨.refl guestPDE, accessed, rfl⟩ mark
  · have unmarked : guestPDE.a = false := by simpa using accessed
    have modern : 6 ≤ family := by
      by_contra old
      exact accessed (early (BitVec.not_le.mp old))
    rw [if_pos modern] at first
    obtain ⟨markedPDE', mem1, accesses1, stored1, mark1, opened1⟩ :=
      markPDE_marks guestPDir pdi guestPDE vm
    cases first.symm.trans stored1
    obtain ⟨markedPTE', mem2, accesses2, stored2, mark2, opened2⟩ :=
      markPTE_marks guestPTbl pti guestPTE reqRw { vm with mem := mem1, accesses := accesses1 }
    cases second.symm.trans stored2
    refine ⟨_, mem2, accesses2, rfl, rfl, mark1.mapping, mark2.mapping, fun safe => ?_⟩
    obtain ⟨careful1, set1⟩ := opened1 (safe ⟨same ▸ modern, unmarked⟩)
    obtain ⟨careful2, set2⟩ := opened2 shows
    refine ⟨careful1.trans careful2, fun there => ?_⟩
    have set1 := set1 fun yes => (accessed yes).elim
    refine .of_sets set1 (set2 fun yes => ?_) there found mark1 mark2
    -- an accessed table entry is not the directory entry just marked
    rw [set1 guestPTbl.ppi pti, if_neg, found]
    rintro ⟨page, slot⟩
    rw [← found, page, slot, there] at yes
    exact accessed yes

theorem walkGuestPTbl_ok {guestPDir : OpenPage} {pdi pti : BitVec 10} {guestPDE : PageEntry}
    {reqUs reqRw : Bool} {vm next : Vm} {result : Except Bit32u (PageEntry × PageEntry)}
    (early : vm.setup.family < 6 → guestPDE.a = true)
    (run : walkGuestPTbl guestPDir pdi pti guestPDE reqUs reqRw vm = .ok result next) :
    TblSpec vm guestPDir pdi pti guestPDE reqUs reqRw result next := by
  simp only [walkGuestPTbl, get_bind_apply, panicWhen_bind_apply] at run
  split at run
  · cases run
  obtain ⟨guestPTbl, opened, open1, run⟩ := bind_ok.mp run
  obtain ⟨rfl, spec⟩ := openGuestPhyPage_ok open1
  obtain ⟨log, read, readCareful⟩ := readEntry_open pti spec.window
  rw [bind_apply, read] at run
  have mem := spec.pin.mem
  have setup := spec.pin.cpu.setup
  have asked : ∀ next : Vm, next.pins = opened.pins → next.shadow = opened.shadow →
      next.hostCalls = opened.hostCalls → ∀ records, vm.pins.Holds records →
        Asked [guestPDE.table] vm next :=
    fun _ pins shadow calls _ holds => (spec.pin.asked holds).same pins shadow calls
  have readSettled : Settled vm { opened with accesses := log } :=
    spec.settled.trans (Settled.memory opened opened.mem log)
  have careful : Careful vm { opened with accesses := log } := spec.careful.trans readCareful
  generalize entry : entryAt opened.mem _ pti = guestPTE at run
  have found : entryAt vm.mem guestPDE.table pti = guestPTE := by rw [← mem]; exact entry
  simp only [Logic.ite_apply] at run
  split at run
  · next missing =>
      cases run
      refine ⟨readSettled, asked _ rfl rfl rfl, ?_, by simp⟩
      rintro code ⟨⟩ present
      exact ⟨careful, mem, by simp [guestFault, found, missing]⟩
  next present =>
  split at run
  · next denied =>
      cases run
      refine ⟨readSettled, asked _ rfl rfl rfl, ?_, by simp⟩
      rintro code ⟨⟩ here
      exact ⟨careful, mem, by simp_all [guestFault]⟩
  next grantedPDE =>
  split at run
  · next denied =>
      cases run
      refine ⟨readSettled, asked _ rfl rfl rfl, ?_, by simp⟩
      rintro code ⟨⟩ here
      exact ⟨careful, mem, by simp_all [guestFault]⟩
  next grantedPTE =>
  obtain ⟨entries, mem', accesses, rfl, rfl, mappingPDE, mappingPTE, safe⟩ :=
    marks_ok run (congrArg Setup.family setup) early spec.window entry
  refine ⟨readSettled.trans (Settled.memory _ mem' accesses),
    asked _ rfl rfl rfl, by simp, ?_⟩
  rintro entries' ⟨⟩ here
  rw [found]
  refine ⟨by simp_all [guestFault], mappingPDE, mappingPTE, fun ready => ?_⟩
  obtain ⟨valid, marks⟩ := safe fun late => by
    rw [MarksLate, setup] at late
    have := ready late
    exact spec.stays this.shows this.apart this.kept
  refine ⟨careful.trans valid, fun there _ => ?_⟩
  rw [← mem] at there ⊢
  exact marks there

/-- Marking one entry changes no mapping and no other D bit anywhere. -/
theorem EntrySet.marked {mem mem' : Bit32u → Bytes} {ppi : Bit32u} {index : BitVec 10}
    {entry marked : PageEntry} (set : EntrySet mem mem' ppi index marked)
    (there : entryAt mem ppi index = entry) (mark : marked.MarkOf entry false)
    (other : Bit32u) (place : BitVec 10) :
    (entryAt mem' other place).SameMapping (entryAt mem other place) ∧
      (entryAt mem' other place).d = (entryAt mem other place).d := by
  rw [set other place]
  split
  · next same =>
      rw [same.1, same.2, there]
      exact ⟨mark.mapping, by simp [mark.d]⟩
  · exact ⟨.refl _, rfl⟩

/-- The two windows a walk uses have slots of their own. -/
def Setup.WindowsApart (setup : Setup) : Prop :=
  setup.windowPti setup.tmpPhyPage0 ≠ setup.windowPti setup.tmpPhyPage1

namespace Vm

/-- The guest's own entries for a directory and a table index. -/
def tables (vm : Vm) (pdi pti : BitVec 10) : PageEntry × PageEntry :=
  guestTables vm.mem vm.guestCpu.cr3 pdi pti

/-- The guest page that holds the page directory. -/
def pageDirectory (vm : Vm) : Bit32u := vm.guestCpu.cr3 >>> 12

/-- The pages that a walk opens. -/
def walkPages (vm : Vm) (pdi pti : BitVec 10) : List Bit32u :=
  vm.pageDirectory :: if (vm.tables pdi pti).1.p then [(vm.tables pdi pti).1.table] else []

/-- The walk stores the directory entry's A bit through a window whose page it
has unpinned by opening the page table. -/
structure LateStale (vm : Vm) (pdi pti : BitVec 10) (reqUs reqRw : Bool) : Prop where
  late : MarksLate vm (vm.tables pdi pti).1
  allowed : guestFault vm.guestCpu.wp (vm.tables pdi pti) reqUs reqRw = none
  pinned : vm.pins.pinned vm.pageDirectory = true
  drops : vm.Drops (vm.tables pdi pti).1.table vm.pageDirectory

private theorem lateStale_iff {vm : Vm} {pdi pti : BitVec 10} {reqUs reqRw : Bool} :
    vm.LateStale pdi pti reqUs reqRw ↔ MarksLate vm (vm.tables pdi pti).1 ∧
      guestFault vm.guestCpu.wp (vm.tables pdi pti) reqUs reqRw = none ∧
      vm.pins.pinned vm.pageDirectory = true ∧
      vm.Drops (vm.tables pdi pti).1.table vm.pageDirectory :=
  ⟨fun stale => ⟨stale.late, stale.allowed, stale.pinned, stale.drops⟩,
    fun ⟨late, allowed, pinned, drops⟩ => ⟨late, allowed, pinned, drops⟩⟩

instance (vm : Vm) (pdi pti : BitVec 10) (reqUs reqRw : Bool) :
    Decidable (vm.LateStale pdi pti reqUs reqRw) :=
  decidable_of_iff _ lateStale_iff.symm

end Vm

/-- What a walk of the guest's tables came to. -/
structure WalkSpec (vm : Vm) (pdi pti : BitVec 10) (reqUs reqRw : Bool)
    (result : Except Bit32u (PageEntry × PageEntry)) (next : Vm) : Prop where
  settled : Settled vm next
  asked : ∀ records, vm.pins.Holds records → Asked (vm.walkPages pdi pti) vm next
  refused : ∀ code, result = .error code →
    guestFault vm.guestCpu.wp (vm.tables pdi pti) reqUs reqRw = some code ∧ Careful vm next
  allowed : ∀ entries, result = .ok entries →
    guestFault vm.guestCpu.wp (vm.tables pdi pti) reqUs reqRw = none ∧
      entries.1.SameMapping (vm.tables pdi pti).1 ∧
      entries.2.SameMapping (vm.tables pdi pti).2
  marked : ∀ entries, result = .ok entries → ∀ records, vm.pins.Holds records →
    vm.setup.WindowsApart → ¬ vm.LateStale pdi pti reqUs reqRw →
      Careful vm next ∧
        TablesMarked next.mem vm.guestCpu.cr3 pdi pti reqRw (vm.tables pdi pti)

/-- The first mark, made before the page table is opened on earlier processors. -/
theorem markEarly_ok {page : OpenPage} {pdi : BitVec 10} {entry marked : PageEntry} {vm next : Vm}
    {family : BitVec 4}
    (run : (if family < 6 then markPDE page pdi entry else pure entry) vm = .ok marked next)
    (shows : vm.WindowOpen page) (there : entryAt vm.mem page.ppi pdi = entry) :
    ∃ mem accesses, next = { vm with mem, accesses } ∧ Careful vm { vm with mem, accesses } ∧
      marked.SameMapping entry ∧ (family < 6 → marked.a = true) ∧ (6 ≤ family → marked = entry) ∧
      entryAt mem page.ppi pdi = marked ∧
      ∀ other place, (entryAt mem other place).SameMapping (entryAt vm.mem other place) ∧
        (entryAt mem other place).d = (entryAt vm.mem other place).d := by
  by_cases old : family < 6
  · rw [if_pos old] at run
    obtain ⟨marked', mem, accesses, stored, mark, opened⟩ := markPDE_marks page pdi entry vm
    cases run.symm.trans stored
    obtain ⟨careful, set⟩ := opened shows
    have set := set fun _ => there
    exact ⟨mem, accesses, rfl, careful, mark.mapping, fun _ => mark.a,
      fun new => absurd old (BitVec.not_lt.mpr new), by simp [set page.ppi pdi],
      set.marked there mark⟩
  · rw [if_neg old] at run
    cases run
    exact ⟨vm.mem, vm.accesses, rfl, .refl vm, .refl entry, fun yes => absurd yes old,
      fun _ => rfl, there, fun _ _ => ⟨.refl _, rfl⟩⟩

theorem walkGuest_ok {pdi pti : BitVec 10} {reqUs reqRw : Bool} {vm next : Vm}
    {result : Except Bit32u (PageEntry × PageEntry)}
    (run : walkGuest pdi pti reqUs reqRw vm = .ok result next) :
    WalkSpec vm pdi pti reqUs reqRw result next := by
  simp only [walkGuest, get_bind_apply, panicWhen_bind_apply] at run
  split at run
  · cases run
  obtain ⟨guestPDir, opened, open0, run⟩ := bind_ok.mp run
  obtain ⟨rfl, spec⟩ := openGuestPhyPage_ok open0
  obtain ⟨log, read, readCareful⟩ := readEntry_open pdi spec.window
  rw [bind_apply, read] at run
  have mem := spec.pin.mem
  have setup := spec.pin.cpu.setup
  have cpu := spec.pin.cpu.guestCpu
  have asked : ∀ next : Vm, next.pins = opened.pins → next.shadow = opened.shadow →
      next.hostCalls = opened.hostCalls → ∀ records, vm.pins.Holds records →
        Asked [vm.pageDirectory] vm next :=
    fun _ pins shadow calls _ holds => (spec.pin.asked holds).same pins shadow calls
  have readSettled : Settled vm { opened with accesses := log } :=
    spec.settled.trans (Settled.memory opened opened.mem log)
  have careful : Careful vm { opened with accesses := log } := spec.careful.trans readCareful
  generalize entry : entryAt opened.mem _ pdi = guestPDE at run
  have found : (vm.tables pdi pti).1 = guestPDE := by
    rw [← entry, mem]
    rfl
  simp only [Logic.ite_apply] at run
  split at run
  · next missing =>
      cases run
      have absent : guestPDE.p = false := by simpa using missing
      refine ⟨readSettled, ?_, ?_, by simp, by simp⟩
      · simpa [walkPages, found, absent] using
          asked { opened with accesses := log } rfl rfl rfl
      rintro code ⟨⟩
      exact ⟨by simp [guestFault, found, absent], careful⟩
  next present =>
  have present : guestPDE.p = true := by simpa using present
  obtain ⟨marked, middle, early, run⟩ := bind_ok.mp run
  obtain ⟨mem1, log1, rfl, careful1, mapping, old, modern, there, kept⟩ :=
    markEarly_ok early spec.window entry
  have table : marked.table = guestPDE.table := by rw [PageEntry.table, mapping.base]; rfl
  have tbl := walkGuestPTbl_ok (by rw [setup]; exact old) run
  have second : (vm.tables pdi pti).2 = entryAt opened.mem guestPDE.table pti := by
    rw [mem, ← found]
    rfl
  have fault : guestFault opened.guestCpu.wp (marked, entryAt mem1 marked.table pti) reqUs reqRw =
      guestFault vm.guestCpu.wp (vm.tables pdi pti) reqUs reqRw := by
    rw [cpu]
    refine guestFault_sameMapping (found ▸ mapping) ?_ _ _ _
    rw [second, table]
    exact (kept guestPDE.table pti).1
  have carefully : Careful vm { opened with mem := mem1, accesses := log1 } :=
    careful.trans careful1
  have here : marked.p = true := mapping.p.trans present
  refine ⟨?_, ?_, ?_, ?_, ?_⟩
  · exact (readSettled.trans (Settled.memory _ mem1 log1)).trans tbl.settled
  · intro records holds
    obtain ⟨records', holds'⟩ := spec.pin.holds records holds
    rw [walkPages, if_pos (by rw [found]; exact present), found, ← table]
    change Asked ([vm.pageDirectory] ++ [marked.table]) vm next
    refine Asked.append ?_ ?_ (tbl.asked records' holds')
    · exact setup
    · exact asked _ rfl rfl rfl records holds
  · intro code same
    obtain ⟨valid, _, answer⟩ := tbl.refused code same here
    exact ⟨fault.symm.trans answer, carefully.trans valid⟩
  · intro entries same
    obtain ⟨answer, first, other, _⟩ := tbl.allowed entries same here
    rw [table] at other
    exact ⟨fault.symm.trans answer, found ▸ first.trans mapping,
      second ▸ other.trans (kept guestPDE.table pti).1⟩
  · intro entries same records holds apart notStale
    obtain ⟨answer, first, other, safe⟩ := tbl.allowed entries same here
    have allowed := fault.symm.trans answer
    obtain ⟨valid, marks⟩ := safe fun late => by
      -- the A bit is stored late only where it was not stored early
      have new : 6 ≤ vm.setup.family := by
        have := late.1
        rwa [setup] at this
      obtain rfl := modern new
      refine ⟨spec.window, by rw [setup]; exact apart, fun drops => notStale ?_⟩
      obtain ⟨pinned, dropped⟩ := spec.pin.drops holds drops
      refine ⟨⟨new, ?_⟩, allowed, pinned, ?_⟩
      · rw [found]; exact late.2
      · rw [found]; exact dropped
    have marks := marks there (by rw [setup]; exact old)
    refine ⟨carefully.trans valid, marks.tables (found ▸ mapping) ?_ ?_⟩ <;>
      rw [second, table]
    · exact (kept guestPDE.table pti).1
    · exact (kept guestPDE.table pti).2

section Stops

variable {start : Vm}

private theorem readEntry_window {page : OpenPage} {index : BitVec 10} :
    Ensures (fun vm => Reaches start vm ∧ vm.WindowOpen page) (readEntry page index)
      (fun _ vm => Reaches start vm ∧ vm.WindowOpen page) (ReachedStop start) :=
  .bind (readWord_accessor (by omega)) fun _ => .pure fun _ holds => holds

private theorem markPDE_window {page : OpenPage} {pdi : BitVec 10} {guestPDE : PageEntry} :
    Ensures (fun vm => Reaches start vm ∧ vm.WindowOpen page) (markPDE page pdi guestPDE)
      (fun _ vm => Reaches start vm ∧ vm.WindowOpen page) (ReachedStop start) :=
  .ite (fun _ => .pure fun _ holds => holds) fun _ =>
    .bind (writeWord_accessor (by omega)) fun _ => .pure fun _ holds => holds

/-- The marks themselves never stop the monitor. -/
theorem markPDE_returns {before : Vm → Prop} {stopped : Halt → Vm → Prop} {page : OpenPage}
    {pdi : BitVec 10} {guestPDE : PageEntry} :
    Ensures before (markPDE page pdi guestPDE) (fun _ _ => True) stopped := by
  intro vm _
  obtain ⟨_, _, _, run, _⟩ := markPDE_marks page pdi guestPDE vm
  rw [run]
  trivial

private theorem markPTE_returns {before : Vm → Prop} {stopped : Halt → Vm → Prop} {page : OpenPage}
    {pti : BitVec 10} {guestPTE : PageEntry} {reqRw : Bool} :
    Ensures before (markPTE page pti guestPTE reqRw) (fun _ _ => True) stopped := by
  intro vm _
  obtain ⟨_, _, _, run, _⟩ := markPTE_marks page pti guestPTE reqRw vm
  rw [run]
  trivial

private theorem readEntry_opened {page opened : OpenPage} {index : BitVec 10} :
    Ensures (fun vm => Reaches start vm ∧ vm.WindowOpen page ∧ page = opened)
      (readEntry page index) (fun _ vm => Reaches start vm ∧ vm.WindowOpen page)
      (ReachedStop start) :=
  Ensures.weaken readEntry_window (fun _ holds => ⟨holds.1, holds.2.1⟩) (fun _ _ after => after)
    (fun _ _ stop => stop)

private theorem walkGuestPTbl_stops {guestPDir : OpenPage} {pdi pti : BitVec 10}
    {guestPDE : PageEntry} {reqUs reqRw : Bool} :
    Ensures (Reaches start) (walkGuestPTbl guestPDir pdi pti guestPDE reqUs reqRw)
      (fun _ _ => True) (ReachedStop start) := by
  apply Ensures.look_bind
  intro now _
  apply panicWhen_bind (fun _ reached => ⟨rfl, reached.2⟩)
  intro inside
  apply Ensures.bind (openGuestPhyPage_accessor _ _)
  intro guestPTbl
  apply Ensures.bind readEntry_opened
  intro guestPTE
  apply Ensures.ite (fun absent => .pure fun _ _ => trivial)
  intro present
  apply Ensures.ite (fun directoryDenies => .pure fun _ _ => trivial)
  intro directoryAllows
  apply Ensures.ite (fun tableDenies => .pure fun _ _ => trivial)
  intro tableAllows
  -- only the marks are left, which never stop the monitor
  apply Ensures.bind
  · exact .ite (fun _ => markPDE_returns) fun _ => .pure fun _ _ => trivial
  · intro marked
    exact .bind markPTE_returns fun _ => .pure fun _ _ => trivial

/-- A walk that stops has made valid accesses only: the late store comes after
everything that may stop it. -/
theorem walkGuest_stops {pdi pti : BitVec 10} {reqUs reqRw : Bool} :
    Ensures (Reaches start) (walkGuest pdi pti reqUs reqRw) (fun _ _ => True)
      (ReachedStop start) := by
  apply Ensures.look_bind
  intro now _
  apply panicWhen_bind (fun _ reached => ⟨rfl, reached.2⟩)
  intro inside
  apply Ensures.bind (openGuestPhyPage_accessor _ _)
  intro guestPDir
  apply Ensures.bind readEntry_opened
  intro guestPDE
  apply Ensures.ite (fun absent => .pure fun _ _ => trivial)
  intro present
  apply Ensures.bind
  · exact .ite (fun early => markPDE_window) fun late => .pure fun _ holds => holds
  · intro marked
    exact Ensures.weaken walkGuestPTbl_stops (fun _ holds => holds.1) (fun _ _ _ => trivial)
      (fun _ _ stop => stop)

end Stops
end Plex86
