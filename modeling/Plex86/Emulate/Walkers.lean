import Plex86.Emulate.Accessors
import Plex86.Paging.PageWalk

namespace Plex86

open Logic Vm

/-- Ten bits of an address pick an entry, at four bytes an entry. -/
theorem entryBits (lAddr : Bit32u) {mask : Bit32u} {place : Nat} (low : 2 ≤ place)
    (fits : place ≤ 22)
    (bits : ∀ index < 32, mask.getLsbD index = decide (place ≤ index ∧ index < place + 10)) :
    (lAddr &&& mask) >>> (place - 2) = (lAddr.extractLsb' place 10).setWidth 32 <<< 2 := by
  apply BitVec.eq_of_getLsbD_eq
  intro index small
  rw [BitVec.getLsbD_ushiftRight, BitVec.getLsbD_and, BitVec.getLsbD_shiftLeft,
    BitVec.getLsbD_setWidth, BitVec.getLsbD_extractLsb']
  by_cases below : index < 2
  · rw [bits _ (by omega), decide_eq_false (by omega), decide_eq_true below, Bool.and_false]
    simp
  have same : place - 2 + index = place + (index - 2) := by omega
  rw [same, decide_eq_true small, decide_eq_false below, decide_eq_true (by omega : index - 2 < 32)]
  by_cases inside : place + (index - 2) < 32
  · rw [bits _ inside]
    by_cases field : index - 2 < 10
    · rw [decide_eq_true field, decide_eq_true (by omega)]
      simp
    · rw [decide_eq_false field, decide_eq_false (by omega)]
      simp
  · have none : lAddr.getLsbD (place + (index - 2)) = false := BitVec.getLsbD_of_ge _ _ (by omega)
    rw [none]
    simp

private theorem directoryBits (lAddr : Bit32u) :
    (lAddr &&& 0xffc00000#32) >>> 20 = (pdiOf lAddr).setWidth 32 <<< 2 :=
  entryBits lAddr (by decide : 2 ≤ 22) (by decide) (by decide)

private theorem tableBits (lAddr : Bit32u) :
    (lAddr &&& 0x003ff000#32) >>> 10 = (ptiOf lAddr).setWidth 32 <<< 2 :=
  entryBits lAddr (by decide : 2 ≤ 12) (by decide) (by decide)

/-- The place of an entry, four bytes for each one before it. -/
def entryOffset (index : BitVec 10) : Bit32u := index.setWidth 32 <<< 2

private theorem entryOffset_toNat (index : BitVec 10) :
    (entryOffset index).toNat = 4 * index.toNat := by
  have small := index.isLt
  rw [entryOffset, BitVec.toNat_shiftLeft, Nat.shiftLeft_eq, BitVec.toNat_setWidth]
  omega

private theorem entryOffset_low (index : BitVec 10) :
    entryOffset index &&& 0xfff#32 = entryOffset index := by
  apply BitVec.eq_of_toNat_eq
  rw [and_fff_toNat, pageOffset_eq, entryOffset_toNat]
  have small := index.isLt
  omega

private theorem entryOffset_pageOffset (index : BitVec 10) :
    pageOffset (entryOffset index) = 4 * index.toNat := by
  rw [← and_fff_toNat, entryOffset_low, entryOffset_toNat]

/-- The address of a directory entry is its page and its index. -/
theorem pdeAddrOf_eq (cr3 lAddr : Bit32u) :
    pdeAddrOf cr3 lAddr = atPage (cr3 >>> 12) (entryOffset (pdiOf lAddr)) := by
  rw [pdeAddrOf, atPage, frame_eq, directoryBits, entryOffset_low]
  rfl

theorem pteAddrOf_eq (pde lAddr : Bit32u) :
    pteAddrOf pde lAddr = atPage (pde >>> 12) (entryOffset (ptiOf lAddr)) := by
  rw [pteAddrOf, atPage, frame_eq, tableBits, entryOffset_low]
  rfl

/-- The base field of an entry, as a page number. -/
theorem PageEntry.base_eq (entry : PageEntry) : entry.base.setWidth 32 = entry.raw >>> 12 := by
  apply BitVec.eq_of_getLsbD_eq
  intro index small
  rw [BitVec.getLsbD_setWidth, base, BitVec.getLsbD_extractLsb', BitVec.getLsbD_ushiftRight]
  by_cases inside : index < 20
  · simp [inside, small]
  · have none : entry.raw.getLsbD (12 + index) = false := BitVec.getLsbD_of_ge _ _ (by omega)
    simp [none]

/-- The page that a directory and two entries lead to, in a guest of so many pages. -/
def pageFound (nPages pdir : Bit32u) (tables : PageEntry × PageEntry) : Option Bit32u :=
  if nPages ≤ pdir ∨ tables.1.p = false then none
  else if nPages ≤ tables.1.table ∨ tables.2.p = false then none
  else some (tables.2.base.setWidth 32)

private theorem pageFound_sameMapping {first second : PageEntry × PageEntry}
    (directory : first.1.SameMapping second.1) (table : first.2.SameMapping second.2)
    (nPages pdir : Bit32u) : pageFound nPages pdir first = pageFound nPages pdir second := by
  have next : first.1.table = second.1.table := congrArg (BitVec.setWidth 32) directory.base
  rw [pageFound, pageFound, directory.p, table.p, table.base, next]

namespace Vm

variable {vm : Vm}

/-- What is read at an entry's address is the entry. -/
theorem physWord_entry (vm : Vm) {ppi : Bit32u} (small : ppi.toNat < 2 ^ 20) (index : BitVec 10) :
    vm.physWord 32 (atPage ppi (entryOffset index)) = (entryAt vm.mem ppi index).raw := by
  rw [physWord, atPage_page _ small, atPage_offset _ small, entryOffset_pageOffset]
  rfl

/-- The two tests for the end of memory agree, in bytes and in pages. -/
theorem beyond_iff (paged : vm.setup.Paged) {ppi : Bit32u} (small : ppi.toNat < 2 ^ 20)
    (index : BitVec 10) : vm.setup.guestNBytes ≤ atPage ppi (entryOffset index) ↔
      vm.setup.guestNPages ≤ ppi := by
  have bytes := paged.bytes
  have fits := index.isLt
  rw [BitVec.le_def, BitVec.le_def, bytes, atPage_toNat _ small, entryOffset_pageOffset]
  omega

/-- The page that `translateLinToPhy` finds, in the words of `mapGuestLinAddr`. -/
theorem pageOf_tables (paged : vm.setup.Paged) (paging : vm.guestCpu.pg = true)
    (plain : vm.guestCpu.cr4 &&& 0x30#32 = 0#32) (lAddr : Bit32u) :
    vm.pageOf lAddr = pageFound vm.setup.guestNPages vm.pageDirectory
      (vm.tables (pdiOf lAddr) (ptiOf lAddr)) := by
  have directory : vm.physWord 32 (pdeAddrOf vm.guestCpu.cr3 lAddr) =
      (vm.tables (pdiOf lAddr) (ptiOf lAddr)).1.raw := by
    rw [pdeAddrOf_eq, vm.physWord_entry (page_small _)]
    rfl
  have table : vm.physWord 32 (pteAddrOf (vm.tables (pdiOf lAddr) (ptiOf lAddr)).1.raw lAddr) =
      (vm.tables (pdiOf lAddr) (ptiOf lAddr)).2.raw := by
    rw [pteAddrOf_eq, vm.physWord_entry (page_small _), ← PageEntry.base_eq]
    rfl
  have pde : vm.setup.guestNBytes ≤ pdeAddrOf vm.guestCpu.cr3 lAddr ↔
      vm.setup.guestNPages ≤ vm.pageDirectory := by
    rw [pdeAddrOf_eq]
    exact beyond_iff paged (page_small _) _
  have pte : vm.setup.guestNBytes ≤
      pteAddrOf (vm.tables (pdiOf lAddr) (ptiOf lAddr)).1.raw lAddr ↔
      vm.setup.guestNPages ≤ (vm.tables (pdiOf lAddr) (ptiOf lAddr)).1.table := by
    rw [pteAddrOf_eq, ← PageEntry.base_eq]
    refine beyond_iff paged ?_ _
    rw [PageEntry.base_eq]
    exact page_small _
  have present : ∀ entry : PageEntry, (¬ entry.raw.getLsbD 0 = true) ↔ entry.p = false :=
    fun entry => Bool.not_eq_true _ ▸ Iff.rfl
  have narrow : ¬ vm.guestCpu.cr4 &&& 0x30#32 ≠ 0 := not_not.mpr plain
  rw [pageOf, if_neg (not_not.mpr paging), if_neg narrow]
  simp only [directory, table, pde, pte, PageEntry.base_eq, present, pageFound]

end Vm

/-- The entries of memory map what they mapped, whatever their marks. -/
def SameMappings (before after : Bit32u → Bytes) : Prop :=
  ∀ page index, (entryAt after page index).SameMapping (entryAt before page index)

private theorem WalkStores.sameMappings {before after : Bit32u → Bytes} {pdir ptbl : Bit32u}
    {pdi pti : BitVec 10} {reqRw : Bool}
    (stores : WalkStores before after pdir pdi ptbl pti reqRw) : SameMappings before after := by
  intro page index
  rw [stores page index]
  split
  · next same =>
      rw [same.1, same.2]
      exact PageEntry.marked_sameMapping _ _
  split
  · next same =>
      rw [same.1, same.2]
      exact PageEntry.setA_sameMapping _
  · exact .refl _

private theorem AtMostAccessed.sameMappings {before after : Bit32u → Bytes} {pdir : Bit32u}
    {pdi : BitVec 10} (accessed : AtMostAccessed before after pdir pdi) :
    SameMappings before after := by
  intro page index
  rcases accessed page index with same | ⟨rfl, rfl, marked⟩
  · rw [same]
    exact .refl _
  · rw [marked]
    exact PageEntry.setA_sameMapping _

theorem SameMappings.tables {before after : Bit32u → Bytes} (same : SameMappings before after)
    (cr3 : Bit32u) (pdi pti : BitVec 10) :
    (guestTables after cr3 pdi pti).1.SameMapping (guestTables before cr3 pdi pti).1 ∧
      (guestTables after cr3 pdi pti).2.SameMapping (guestTables before cr3 pdi pti).2 := by
  have directory := same (cr3 >>> 12) pdi
  refine ⟨directory, ?_⟩
  simp only [guestTables, directory.base]
  exact same _ _

section Walk

variable {vm walked final : Vm} {laddr guestPPI : Bit32u} {reqUs reqRw : Bool}

/-- Marks in the tables make no difference to the page that is found. -/
theorem Vm.translated_sameMappings (paged : vm.setup.Paged) (setup : walked.setup = vm.setup)
    (cpu : walked.guestCpu = vm.guestCpu) (plain : vm.guestCpu.cr4 &&& 0x30#32 = 0#32)
    (same : SameMappings vm.mem walked.mem) (laddr : Bit32u) :
    walked.translated laddr = vm.translated laddr := by
  have page : walked.pageOf laddr = vm.pageOf laddr := by
    by_cases paging : vm.guestCpu.pg = true
    · obtain ⟨directory, table⟩ := same.tables vm.guestCpu.cr3 (pdiOf laddr) (ptiOf laddr)
      have paged' : walked.setup.Paged := by
        rw [setup]
        exact paged
      rw [pageOf_tables paged' (by rw [cpu]; exact paging) (by rw [cpu]; exact plain),
        pageOf_tables paged paging plain, pageDirectory, tables, setup, cpu]
      exact pageFound_sameMapping directory table _ _
    · rw [pageOf, pageOf, cpu, if_pos paging, if_pos paging]
  rw [translated_eq, translated_eq, page]

/-- `mapGuestLinAddr` has found the guest's page for an address, with the leave of
the guest's tables where there are any, and goes on from here. -/
def Vm.GetsPast (vm : Vm) (laddr : Bit32u) (reqUs reqRw : Bool) (guestPPI : Bit32u) (walked : Vm) :
    Prop :=
  if vm.guestCpu.pg then
    ∃ entries, walkGuest (pdiOf laddr) (ptiOf laddr) reqUs reqRw vm = .ok (.ok entries) walked ∧
      guestPPI = entries.2.base.setWidth 32
  else walked = vm ∧ guestPPI = laddr >>> 12

/-- The guest physical address at an offset in a page. -/
theorem atPage_eq {ppi : Bit32u} (small : ppi.toNat < 2 ^ 20) (addr : Bit32u) :
    atPage ppi addr = ppi * 4096#32 + (addr &&& 0xfff#32) := by
  have low := pageOffset_lt addr
  apply BitVec.eq_of_toNat_eq
  rw [atPage_toNat _ small, BitVec.toNat_add, BitVec.toNat_mul, and_fff_toNat]
  change _ = (ppi.toNat * 4096 % 2 ^ 32 + _) % 2 ^ 32
  rw [Nat.mod_eq_of_lt (by omega), Nat.mod_eq_of_lt (by omega)]

/-- Two present entries inside the guest's memory lead to a page. -/
theorem Vm.pageOf_present (paged : vm.setup.Paged) (paging : vm.guestCpu.pg = true)
    (plain : vm.guestCpu.cr4 &&& 0x30#32 = 0#32) {reqRw : Bool}
    {answer : Except Bit32u (PageEntry × PageEntry)}
    (exact : WalkExact vm (pdiOf laddr) (ptiOf laddr) reqRw answer walked)
    (pde : (vm.tables (pdiOf laddr) (ptiOf laddr)).1.p = true)
    (pte : (vm.tables (pdiOf laddr) (ptiOf laddr)).2.p = true) :
    vm.pageOf laddr = some ((vm.tables (pdiOf laddr) (ptiOf laddr)).2.base.setWidth 32) := by
  have outer : ¬ (vm.setup.guestNPages ≤ vm.pageDirectory ∨
      (vm.tables (pdiOf laddr) (ptiOf laddr)).1.p = false) := by
    simp [BitVec.not_le.mpr exact.directory, pde]
  have inner : ¬ (vm.setup.guestNPages ≤ (vm.tables (pdiOf laddr) (ptiOf laddr)).1.table ∨
      (vm.tables (pdiOf laddr) (ptiOf laddr)).2.p = false) := by
    simp [BitVec.not_le.mpr (exact.table pde).1, pte]
  rw [pageOf_tables paged paging plain, pageFound, if_neg outer, if_neg inner]

/-- Both walkers lead to the same place. -/
theorem Vm.GetsPast.translated (past : vm.GetsPast laddr reqUs reqRw guestPPI walked)
    (paged : vm.setup.Paged) (apart : vm.setup.WindowsApart)
    (plain : vm.guestCpu.cr4 &&& 0x30#32 = 0#32) (quiet : vm.QuietWalk laddr reqUs reqRw) :
    vm.translated laddr = guestPPI * 4096#32 + (laddr &&& 0xfff#32) := by
  have page : vm.pageOf laddr = some guestPPI := by
    unfold GetsPast at past
    split at past
    · next paging =>
        obtain ⟨entries, walk, rfl⟩ := past
        have exact := walkGuest_exact apart (quiet _ _ walk) walk
        obtain ⟨fault, -, table⟩ := (walkGuest_ok walk).allowed entries rfl
        obtain ⟨⟨pde, pte⟩, -⟩ := guestFault_eq_none.mp fault
        rw [pageOf_present paged paging plain exact pde pte, table.base]
    · next paging =>
        rw [past.2, pageOf, if_pos paging]
  rw [translated_some page, atPage_eq (pageOf_small page)]

/-- A call that comes to an answer has got past the tables, or ends in the fault they ask for. -/
theorem mapGuestLinAddr_split {result : MapLin}
    (run : mapGuestLinAddr laddr reqUs reqRw vm = .ok result final) :
    (∃ guestPPI walked, vm.GetsPast laddr reqUs reqRw guestPPI walked ∧ walked.SameGuest final ∧
      ∀ code, result ≠ .exception code) ∨
    (vm.guestCpu.pg = true ∧ ∃ error,
      walkGuest (pdiOf laddr) (ptiOf laddr) reqUs reqRw vm = .ok (.error error) final ∧
      result = .exception (error ||| (bit reqUs <<< 2) ||| (bit reqRw <<< 1))) := by
  rw [mapGuestLinAddr, get_bind_apply] at run
  by_cases paging : vm.guestCpu.pg = true
  · rw [if_pos paging] at run
    obtain ⟨answer, walked, walk, rest⟩ := bind_ok.mp run
    cases answer with
    | error error =>
        cases rest
        exact .inr ⟨paging, error, walk, rfl⟩
    | ok entries =>
        have entered := (mapIntoMonitor_leaves laddr _ (some entries) reqRw).returns
          (.refl walked) rest
        have past : vm.GetsPast laddr reqUs reqRw (entries.2.base.setWidth 32) walked := by
          rw [GetsPast, if_pos paging]
          exact ⟨entries, walk, rfl⟩
        exact .inl ⟨_, walked, past, entered.2, entered.1⟩
  · rw [if_neg paging] at run
    have entered := (mapIntoMonitor_leaves laddr _ none reqRw).returns (.refl vm) run
    have past : vm.GetsPast laddr reqUs reqRw (laddr >>> 12) vm := by
      rw [GetsPast, if_neg paging]
      exact ⟨rfl, rfl⟩
    exact .inl ⟨_, vm, past, entered.2, entered.1⟩

/-- The first walker leaves what the second one finds. -/
theorem Vm.GetsPast.translated_walked (past : vm.GetsPast laddr reqUs reqRw guestPPI walked)
    (paged : vm.setup.Paged) (apart : vm.setup.WindowsApart)
    (plain : vm.guestCpu.cr4 &&& 0x30#32 = 0#32) (quiet : vm.QuietWalk laddr reqUs reqRw) :
    walked.translated laddr = vm.translated laddr := by
  unfold GetsPast at past
  split at past
  · obtain ⟨entries, walk, -⟩ := past
    have exact := walkGuest_exact apart (quiet _ _ walk) walk
    exact translated_sameMappings paged exact.cpu.setup exact.cpu.guestCpu plain
      (exact.allowed entries rfl).sameMappings laddr
  · rw [past.1]

theorem Vm.SameGuest.translated (same : walked.SameGuest final) (laddr : Bit32u) :
    final.translated laddr = walked.translated laddr := by
  have core : final.core = walked.core := same.cpu.core same.mem
  change final.core.translated laddr = walked.core.translated laddr
  rw [core]

/-- The whole call leaves it. -/
theorem mapGuestLinAddr_translated {result : MapLin} (paged : vm.setup.Paged)
    (apart : vm.setup.WindowsApart) (plain : vm.guestCpu.cr4 &&& 0x30#32 = 0#32)
    (quiet : vm.QuietWalk laddr reqUs reqRw)
    (run : mapGuestLinAddr laddr reqUs reqRw vm = .ok result final) :
    final.setup = vm.setup ∧ final.translated laddr = vm.translated laddr := by
  rcases mapGuestLinAddr_split run with ⟨_, walked, past, same, -⟩ | ⟨-, error, walk, -⟩
  · refine ⟨?_, (same.translated laddr).trans (past.translated_walked paged apart plain quiet)⟩
    rw [same.cpu.setup]
    unfold GetsPast at past
    split at past
    · obtain ⟨entries, walk, -⟩ := past
      exact (walkGuest_exact apart (quiet _ _ walk) walk).cpu.setup
    · rw [past.1]
  · have exact := walkGuest_exact apart (quiet _ _ walk) walk
    exact ⟨exact.cpu.setup, translated_sameMappings paged exact.cpu.setup exact.cpu.guestCpu plain
      (exact.refused error rfl).2.sameMappings laddr⟩

end Walk

section HeldGuest

variable {guest : Vm} {pins : Pins}

/-- The guest is as given, and so are the pinned pages. -/
private def HeldGuest (guest : Vm) (pins : Pins) (vm : Vm) : Prop := vm.core = guest ∧ vm.pins = pins

/-- A page that is pinned already is opened without asking the host. -/
theorem openGuestPhyPage_pinned {ppi : Bit32u} {vm : Vm} (monOffset : Bit32u)
    (inside : ppi < vm.setup.guestNPages) (pinned : vm.pins.pinned ppi = true) :
    ∃ next, openGuestPhyPage ppi monOffset vm = .ok ⟨monOffset, ppi⟩ next ∧ next.core = vm.core ∧
      next.pins = vm.pins := by
  have bounded : decide (ppi < vm.setup.guestNPages) = true := decide_eq_true inside
  have held : getHostOSPinnedPage ppi vm = .ok (vm.pins.hostPPI ppi) vm := by
    rw [getHostOSPinnedPage, get_bind_apply, bounded, pinned]
    rfl
  rw [openGuestPhyPage, get_bind_apply, bounded]
  exact ⟨_, bind_ok.mpr ⟨(), vm, rfl, bind_ok.mpr ⟨_, vm, held, rfl⟩⟩, rfl, rfl⟩

private theorem open_read_held {α : Type} {width offset : Nat} {ppi monOffset : Bit32u}
    {rest : BitVec width → Mon α} {after : α → Vm → Prop} {stopped : Halt → Vm → Prop}
    (inside : ppi < guest.setup.guestNPages) (pinned : pins.pinned ppi = true)
    (second : Ensures (HeldGuest guest pins) (rest (loadWord width (guest.mem ppi) offset)) after stopped) :
    Ensures (HeldGuest guest pins)
      (openGuestPhyPage ppi monOffset >>= fun page => readWord width page offset >>= rest) after
      stopped := by
  have opens : Ensures (HeldGuest guest pins) (openGuestPhyPage ppi monOffset)
      (fun page vm => page = ⟨monOffset, ppi⟩ ∧ vm.WindowOpen page ∧ HeldGuest guest pins vm) stopped := by
    rintro vm ⟨rfl, rfl⟩
    have inside : ppi < vm.setup.guestNPages := inside
    obtain ⟨opened, run, core, same⟩ := openGuestPhyPage_pinned monOffset inside pinned
    rw [run]
    exact ⟨rfl, (openGuestPhyPage_ok run).2.window, core, same⟩
  have reads : ∀ page, Ensures
      (fun vm => page = ⟨monOffset, ppi⟩ ∧ vm.WindowOpen page ∧ HeldGuest guest pins vm)
      (readWord width page offset)
      (fun word vm => word = loadWord width (guest.mem ppi) offset ∧ HeldGuest guest pins vm) stopped := by
    rintro page vm ⟨rfl, shows, rfl, rfl⟩
    rw [readWord_open shows]
    exact ⟨rfl, rfl, rfl⟩
  refine .bind opens fun page => .bind (reads page) fun word => ?_
  rintro vm ⟨rfl, held⟩
  exact second vm held

private theorem get_bind_held {α : Type} {rest : Vm → Mon α} {after : α → Vm → Prop}
    {stopped : Halt → Vm → Prop} (uses : ∀ state : Vm, rest state = rest state.core)
    (second : Ensures (HeldGuest guest pins) (rest guest) after stopped) :
    Ensures (HeldGuest guest pins) (get >>= rest) after stopped := by
  intro vm held
  have reached := second vm held
  rw [get_bind_apply, uses, held.1]
  exact reached

/-- With the pages of both tables pinned, the second walker cannot stop. -/
theorem translateLinToPhy_pinned {vm : Vm} (paged : vm.setup.Paged) (lAddr : Bit32u)
    (directory : vm.guestCpu.pg = true →
      vm.pins.pinned (pdeAddrOf vm.guestCpu.cr3 lAddr >>> 12) = true)
    (table : vm.guestCpu.pg = true → vm.pins.pinned
      (pteAddrOf (vm.physWord 32 (pdeAddrOf vm.guestCpu.cr3 lAddr)) lAddr >>> 12) = true) :
    ∃ next, translateLinToPhy lAddr vm = .ok (vm.translated lAddr) next := by
  have never : Ensures (HeldGuest vm.core vm.pins) (translateLinToPhy lAddr) (fun _ _ => True)
      fun _ _ => False := by
    refine get_bind_held (fun _ => rfl) ?_
    refine .ite (fun _ => .pure fun _ _ => trivial) fun paging => .ite (fun _ => .pure fun _ _ => trivial)
      fun _ => .ite (fun _ => .pure fun _ _ => trivial) fun inside => ?_
    have paging : vm.guestCpu.pg = true := not_not.mp paging
    refine open_read_held (paged.inside (BitVec.not_le.mp inside)) (directory paging) ?_
    refine .ite (fun _ => .pure fun _ _ => trivial) fun _ => .ite (fun _ => .pure fun _ _ => trivial)
      fun inside => ?_
    refine open_read_held (paged.inside (BitVec.not_le.mp inside)) (table paging) ?_
    exact .ite (fun _ => .pure fun _ _ => trivial) fun _ => .pure fun _ _ => trivial
  cases run : translateLinToPhy lAddr vm with
  | ok found next =>
      obtain ⟨-, same, -⟩ := (translateLinToPhy_does lAddr vm.core).ok run
      exact ⟨next, congrArg (fun addr => EStateM.Result.ok addr next) same⟩
  | error stop last => exact (never.stops ⟨rfl, rfl⟩ run).elim

end HeldGuest

/-- The guest's own tables, or the address itself without them, lead there. -/
def Vm.TablesLeadTo (vm : Vm) (laddr pAddr : Bit32u) : Prop :=
  if vm.guestCpu.pg then
    let tables := vm.tables (pdiOf laddr) (ptiOf laddr)
    tables.1.p = true ∧ tables.2.p = true ∧
      pAddr = tables.2.base.setWidth 32 * 4096#32 + (laddr &&& 0xfff#32)
  else pAddr = laddr

/-- Where the second walker finds nothing, the first one ends in a fault for a page
that is not present, unless the tables do lead to the address that means nothing. -/
theorem unavailable_notPresent {vm final : Vm} {laddr : Bit32u} {reqUs reqRw : Bool}
    {result : MapLin} (paged : vm.setup.Paged) (apart : vm.setup.WindowsApart)
    (plain : vm.guestCpu.cr4 &&& 0x30#32 = 0#32) (quiet : vm.QuietWalk laddr reqUs reqRw)
    (other : ¬ vm.TablesLeadTo laddr linAddrNotAvailable)
    (nowhere : vm.translated laddr = linAddrNotAvailable)
    (run : mapGuestLinAddr laddr reqUs reqRw vm = .ok result final) :
    ∃ code, result = .exception code ∧ code.getLsbD 0 = false := by
  rcases mapGuestLinAddr_split run with ⟨guestPPI, walked, past, -, -⟩ | ⟨paging, error, walk, rfl⟩
  · have found := past.translated paged apart plain quiet
    rw [nowhere] at found
    refine absurd ?_ other
    unfold TablesLeadTo
    unfold GetsPast at past
    split at past
    · next paging =>
        obtain ⟨entries, walk, rfl⟩ := past
        obtain ⟨fault, -, table⟩ := (walkGuest_ok walk).allowed entries rfl
        obtain ⟨⟨pde, pte⟩, -⟩ := guestFault_eq_none.mp fault
        rw [if_pos paging]
        exact ⟨pde, pte, table.base ▸ found⟩
    · next unpaged =>
        rw [if_neg unpaged, found, past.2, ← atPage_eq (page_small laddr), atPage_self]
  · have exact := walkGuest_exact apart (quiet _ _ walk) walk
    obtain ⟨fault, -⟩ := (walkGuest_ok walk).refused error rfl
    refine ⟨_, rfl, ?_⟩
    have missing : ¬ ((vm.tables (pdiOf laddr) (ptiOf laddr)).1.p = true ∧
        (vm.tables (pdiOf laddr) (ptiOf laddr)).2.p = true) := by
      rintro ⟨pde, pte⟩
      have page := pageOf_present paged paging plain exact pde pte
      rw [translated_some page, atPage_eq (pageOf_small page)] at nowhere
      refine other ?_
      rw [TablesLeadTo, if_pos paging]
      exact ⟨pde, pte, nowhere.symm⟩
    have absent : ((vm.tables (pdiOf laddr) (ptiOf laddr)).1.p &&
        (vm.tables (pdiOf laddr) (ptiOf laddr)).2.p) = false := by
      rw [← Bool.not_eq_true, Bool.and_eq_true]
      exact missing
    rw [guestFault_code fault, absent]
    cases reqUs <;> cases reqRw <;> decide

/-- Past the first walker the pages of the tables are pinned, so the second one needs
nothing of the host. -/
theorem Vm.GetsPast.translate {vm walked state : Vm} {laddr guestPPI : Bit32u}
    {reqUs reqRw : Bool} (past : vm.GetsPast laddr reqUs reqRw guestPPI walked)
    (paged : vm.setup.Paged) (apart : vm.setup.WindowsApart) (quiet : vm.QuietWalk laddr reqUs reqRw)
    (core : state.core = walked.core)
    (kept : ∀ ppi, walked.pins.pinned ppi = true → state.pins.pinned ppi = true) :
    ∃ next, translateLinToPhy laddr state = .ok (state.translated laddr) next := by
  have setup : state.setup = walked.setup := congrArg (fun vm => vm.setup) core
  have guestCpu : state.guestCpu = walked.guestCpu := congrArg (fun vm => vm.guestCpu) core
  have mem : state.mem = walked.mem := congrArg (fun vm => vm.mem) core
  unfold GetsPast at past
  split at past
  · next paging =>
      obtain ⟨entries, walk, -⟩ := past
      have exact := walkGuest_exact apart (quiet _ _ walk) walk
      obtain ⟨fault, -⟩ := (walkGuest_ok walk).allowed entries rfl
      obtain ⟨⟨pde, -⟩, -⟩ := guestFault_eq_none.mp fault
      have cr3 : state.guestCpu.cr3 = vm.guestCpu.cr3 := by rw [guestCpu, exact.cpu.guestCpu]
      have directory : pdeAddrOf state.guestCpu.cr3 laddr >>> 12 = vm.pageDirectory := by
        rw [cr3, pdeAddrOf_eq, atPage_page _ (page_small _)]
        rfl
      have word : state.physWord 32 (pdeAddrOf state.guestCpu.cr3 laddr) =
          (entryAt walked.mem vm.pageDirectory (pdiOf laddr)).raw := by
        rw [cr3, pdeAddrOf_eq, state.physWord_entry (page_small _), mem]
        rfl
      have base := ((exact.allowed entries rfl).sameMappings vm.pageDirectory (pdiOf laddr)).base
      have table : pteAddrOf (state.physWord 32 (pdeAddrOf state.guestCpu.cr3 laddr)) laddr >>> 12 =
          (vm.tables (pdiOf laddr) (ptiOf laddr)).1.table := by
        rw [word, pteAddrOf_eq, atPage_page _ (page_small _), ← PageEntry.base_eq, base]
        rfl
      have paged' : state.setup.Paged := by
        rw [setup, exact.cpu.setup]
        exact paged
      exact translateLinToPhy_pinned paged' laddr
        (fun _ => directory.symm ▸ kept _ exact.pinned)
        (fun _ => table.symm ▸ kept _ (exact.table pde).2)
  · next unpaged =>
      obtain ⟨rfl, -⟩ := past
      have off : ¬ state.guestCpu.pg = true := by rwa [guestCpu]
      have paged' : state.setup.Paged := by rwa [setup]
      exact translateLinToPhy_pinned paged' laddr (fun on => absurd on off) fun on => absurd on off

/-- A call that unpins nothing leaves every page pinned that its walk has pinned. -/
theorem Vm.GetsPast.kept {vm walked final : Vm} {laddr guestPPI : Bit32u} {reqUs reqRw : Bool}
    (past : vm.GetsPast laddr reqUs reqRw guestPPI walked) (quiet : vm.QuietWalk laddr reqUs reqRw)
    (same : walked.SameGuest final) (still : final.unpins = vm.unpins) (ppi : Bit32u)
    (held : walked.pins.pinned ppi = true) : final.pins.pinned ppi = true := by
  have walk : walked.unpins = vm.unpins := by
    unfold GetsPast at past
    split at past
    · obtain ⟨entries, run, -⟩ := past
      exact quiet _ _ run
    · rw [past.1]
  rcases same.pages with ⟨-, kept⟩ | fewer
  · exact kept ppi held
  · omega

/-- The two walkers find the same page for an address, whichever of them comes first. -/
structure WalkersAgree (vm : Vm) (laddr : Bit32u) (reqUs reqRw : Bool) : Prop where
  /-- The second walker has just come here, and the first one gets past the tables. -/
  before : ∀ begun pAddr guestPPI walked, translateLinToPhy laddr begun = .ok pAddr vm →
    vm.GetsPast laddr reqUs reqRw guestPPI walked →
    pAddr = guestPPI * 4096#32 + (laddr &&& 0xfff#32)
  /-- The second walker starts where the first one has got past the tables. -/
  past : ∀ guestPPI walked, vm.GetsPast laddr reqUs reqRw guestPPI walked →
    ∃ next, translateLinToPhy laddr walked =
      .ok (guestPPI * 4096#32 + (laddr &&& 0xfff#32)) next
  /-- The second walker starts where the whole call has ended; only after the call has
  unpinned a page may the host have a say in it again. -/
  after : ∀ guestPPI walked result final, vm.GetsPast laddr reqUs reqRw guestPPI walked →
    mapGuestLinAddr laddr reqUs reqRw vm = .ok result final →
    final.Fetches laddr 0 (guestPPI * 4096#32 + (laddr &&& 0xfff#32))
      (translateLinToPhy laddr final) ∧
    (final.unpins = vm.unpins → ∃ next, translateLinToPhy laddr final =
      .ok (guestPPI * 4096#32 + (laddr &&& 0xfff#32)) next)
  /-- Where the second walker finds nothing, now or after the call, the call ends in a
  fault for a page that is not present. -/
  unavailable : ¬ vm.TablesLeadTo laddr linAddrNotAvailable → ∀ result final,
    mapGuestLinAddr laddr reqUs reqRw vm = .ok result final →
    (∃ begun, translateLinToPhy laddr begun = .ok linAddrNotAvailable vm) ∨
      (∃ next, translateLinToPhy laddr final = .ok linAddrNotAvailable next) →
    ∃ code, result = .exception code ∧ code.getLsbD 0 = false

theorem walkers_agree {vm : Vm} {laddr : Bit32u} {reqUs reqRw : Bool} (paged : vm.setup.Paged)
    (apart : vm.setup.WindowsApart) (plain : vm.guestCpu.cr4 &&& 0x30#32 = 0#32)
    (quiet : vm.QuietWalk laddr reqUs reqRw) : WalkersAgree vm laddr reqUs reqRw := by
  have begins : ∀ begun pAddr, translateLinToPhy laddr begun = .ok pAddr vm →
      pAddr = vm.translated laddr := by
    intro begun pAddr run
    obtain ⟨-, rfl, core⟩ := (translateLinToPhy_does laddr begun.core).ok run
    change begun.core.translated laddr = vm.core.translated laddr
    rw [core]
  constructor
  case before =>
    intro begun pAddr guestPPI walked run past
    rw [begins begun pAddr run]
    exact past.translated paged apart plain quiet
  case past =>
    intro guestPPI walked past
    obtain ⟨next, run⟩ := past.translate paged apart quiet rfl fun _ held => held
    rw [past.translated_walked paged apart plain quiet,
      past.translated paged apart plain quiet] at run
    exact ⟨next, run⟩
  case after =>
    intro guestPPI walked result final past run
    obtain ⟨setup, same⟩ := mapGuestLinAddr_translated paged apart plain quiet run
    have found := same.trans (past.translated paged apart plain quiet)
    have paged' : final.setup.Paged := by rwa [setup]
    refine ⟨found ▸ translateLinToPhy_fetches paged' laddr, fun still => ?_⟩
    rcases mapGuestLinAddr_split run with ⟨_, passed, past', guest, -⟩ | ⟨paging, error, walk, -⟩
    · have pinned := past'.kept quiet guest still
      obtain ⟨next, back⟩ :=
        past'.translate paged apart quiet (guest.cpu.core guest.mem) pinned
      exact ⟨next, found ▸ back⟩
    · -- the tables have not refused the access
      rw [GetsPast, if_pos paging] at past
      obtain ⟨entries, allowed, -⟩ := past
      cases walk.symm.trans allowed
  case unavailable =>
    intro other result final run nowhere
    refine unavailable_notPresent paged apart plain quiet other ?_ run
    rcases nowhere with ⟨begun, nothing⟩ | ⟨next, nothing⟩
    · exact (begins begun _ nothing).symm
    · obtain ⟨-, same⟩ := mapGuestLinAddr_translated paged apart plain quiet run
      obtain ⟨-, found, -⟩ := (translateLinToPhy_does laddr final.core).ok nothing
      exact same.symm.trans found.symm

theorem walkers_agree_sample : ∃ walked, Sample.swapped.GetsPast 0x3ffc true true 6 walked ∧
    Sample.swapped.translated 0x3ffc = 0x6ffc ∧ WalkersAgree Sample.swapped 0x3ffc true true := by
  let finds : Mon Unit := do
    match ← walkGuest (pdiOf 0x3ffc) (ptiOf 0x3ffc) true true with
    | .ok entries => if entries.2.base.setWidth 32 = 6#32 then return () else throw .monpanicNomess
    | .error _ => throw .monpanicNomess
  have checked : (leaves finds Sample.swapped).isSome = true := by decide +kernel
  obtain ⟨walked, left⟩ := Option.isSome_iff_exists.mp checked
  obtain ⟨answer, next, walk, rest⟩ := bind_ok.mp (leaves_eq_some.mp left)
  have paged : Sample.swapped.setup.Paged := ⟨rfl, by decide⟩
  have apart : Sample.swapped.setup.WindowsApart := by
    unfold Setup.WindowsApart
    decide
  have quiet : Sample.swapped.QuietWalk 0x3ffc true true := quietWalk_of_run (by decide +kernel)
  have agree := walkers_agree paged apart (by decide) quiet
  cases answer with
  | error error => cases rest
  | ok entries =>
      dsimp only at rest
      by_cases page : entries.2.base.setWidth 32 = 6#32
      · rw [if_pos page] at rest
        cases rest
        refine ⟨walked, ?_, by decide +kernel, agree⟩
        have paging : Sample.swapped.guestCpu.pg = true := by decide
        rw [GetsPast, if_pos paging]
        exact ⟨entries, walk, page.symm⟩
      · rw [if_neg page] at rest
        cases rest

end Plex86
