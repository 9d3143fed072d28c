import Mathlib.Data.List.GetD
import Plex86.Host.RegisterCheck
import Plex86.Host.Startup
import Plex86.Logic.Allotment

namespace Plex86

open Logic

/-- What `hostInitMonitor` maps: a structure by its frames, or a blank page. -/
inductive Mapping
  | pages (frames : List Frame)
  | blank

namespace Mapping

def size : Mapping → Nat
  | pages frames => frames.length
  | blank => 1

def entries : Mapping → List PageEntry
  | pages frames => frames.map (.make · 3)
  | blank => [⟨0⟩]

@[simp] theorem entries_length (mapping : Mapping) : mapping.entries.length = mapping.size := by
  cases mapping <;> simp [entries, size]

end Mapping

namespace NexusMap

def put (map : NexusMap) : Mapping → NexusMap
  | .pages frames => map.hostMapMonPages frames
  | .blank => map.hostMapBlankPage

/-- The slots that are written for a structure: none behind the one behind the last. -/
def written (map : NexusMap) (mapping : Mapping) : List Nat :=
  (List.range' (slot map.laddr) mapping.size).filter (· ≤ 1024)

/-- The slots that are written for one structure after another. -/
def allWritten (map : NexusMap) : List Mapping → List Nat
  | [] => []
  | mapping :: rest => map.written mapping ++ (map.put mapping).allWritten rest

private theorem slot_lt (laddr : Bit32u) : slot laddr < 1024 := by
  rw [slot_eq]
  exact Nat.mod_lt _ (by decide)

/-- The loop writes the slots from its first one on, up to the one behind the last. -/
theorem fill_apply (pageTable : Nat → PageEntry) (pti : Nat) (pages : List Frame) (place : Nat) :
    fill pageTable pti pages place =
      if place ∈ (List.range' pti pages.length).filter (· ≤ 1024) then
        (pages.map (PageEntry.make · 3)).getD (place - pti) ⟨0⟩
      else pageTable place := by
  induction pages generalizing pageTable pti with
  | nil => rfl
  | cons page rest inductionHypothesis =>
      rw [fill]
      by_cases behind : 1024 < pti
      · rw [if_pos behind, if_neg]
        simp only [List.mem_filter, List.mem_range'_1, decide_eq_true_eq, not_and]
        omega
      · rw [if_neg behind, inductionHypothesis]
        by_cases first : place = pti
        · subst first
          have here : place ∈ (List.range' place (page :: rest).length).filter (· ≤ 1024) := by
            simp only [List.mem_filter, List.mem_range'_1, List.length_cons, decide_eq_true_eq]
            omega
          have later : place ∉ (List.range' (place + 1) rest.length).filter (· ≤ 1024) := by
            simp only [List.mem_filter, List.mem_range'_1, not_and]
            omega
          rw [if_pos here, if_neg later]
          simp
        · have same : place ∈ (List.range' (pti + 1) rest.length).filter (· ≤ 1024) ↔
              place ∈ (List.range' pti (page :: rest).length).filter (· ≤ 1024) := by
            simp only [List.mem_filter, List.mem_range'_1, List.length_cons, decide_eq_true_eq]
            omega
          rw [Function.update_of_ne first]
          by_cases member : place ∈ (List.range' (pti + 1) rest.length).filter (· ≤ 1024)
          · have above : pti + 1 ≤ place := by
              exact (List.mem_range'_1.mp (List.mem_of_mem_filter member)).1
            obtain ⟨offset, rfl⟩ := Nat.exists_eq_add_of_le above
            have shift : pti + 1 + offset - pti = offset + 1 := by omega
            rw [if_pos member, if_pos (same.mp member), Nat.add_sub_cancel_left, shift,
              List.map_cons, List.getD_cons_succ]
          · rw [if_neg member, if_neg (mt same.mpr member)]

/-- What is written for a structure is its entries, in their order. -/
theorem put_pageTable (map : NexusMap) (mapping : Mapping) (place : Nat) :
    (map.put mapping).pageTable place =
      if place ∈ map.written mapping then mapping.entries.getD (place - slot map.laddr) ⟨0⟩
      else map.pageTable place := by
  cases mapping with
  | pages frames => exact fill_apply map.pageTable (slot map.laddr) frames place
  | blank =>
      have low := slot_lt map.laddr
      have only : place ∈ map.written .blank ↔ place = slot map.laddr := by
        simp only [written, Mapping.size, List.mem_filter, List.mem_range'_1, decide_eq_true_eq]
        omega
      change Function.update map.pageTable (slot map.laddr) ⟨0⟩ place = _
      rw [Function.update_apply]
      by_cases here : place = slot map.laddr
      · rw [if_pos here, if_pos (only.mpr here), here]
        simp [Mapping.entries]
      · rw [if_neg here, if_neg (mt only.mp here)]

private theorem put_laddr (map : NexusMap) (mapping : Mapping) :
    (map.put mapping).laddr = map.laddr + 4096 * BitVec.ofNat 32 mapping.size := by
  cases mapping <;> rfl

/-- The cursor counts pages, and is reduced for each structure. -/
theorem slot_pages (count : Nat) : slot (4096 * BitVec.ofNat 32 count) = count % 1024 := by
  rw [slot_eq, BitVec.toNat_mul, BitVec.toNat_ofNat]
  have page : (4096 : Bit32u).toNat = 4096 := rfl
  rw [page]
  omega

private theorem put_cursor {map : NexusMap} {cursor : Nat}
    (reached : map.laddr = 4096 * BitVec.ofNat 32 cursor)
    (mapping : Mapping) :
    (map.put mapping).laddr = 4096 * BitVec.ofNat 32 (cursor + mapping.size) := by
  rw [put_laddr, reached, BitVec.ofNat_add, BitVec.mul_add]

/-- The slots written are those handed out, but for what is broken off. -/
theorem allWritten_eq {map : NexusMap} {cursor : Nat}
    (reached : map.laddr = 4096 * BitVec.ofNat 32 cursor) (mappings : List Mapping) :
    map.allWritten mappings =
      (handedOut 1024 cursor (mappings.map Mapping.size)).filter (· ≤ 1024) := by
  induction mappings generalizing map cursor with
  | nil => rfl
  | cons mapping rest inductionHypothesis =>
      rw [allWritten, List.map_cons, handedOut, List.filter_append,
        inductionHypothesis (put_cursor reached mapping), written, reached, slot_pages]

/-- The table is filled from its first slot on, with nothing behind it. -/
structure Filled (map : NexusMap) (entries : List PageEntry) : Prop where
  laddr : map.laddr = 4096 * BitVec.ofNat 32 entries.length
  pageTable : ∀ place, map.pageTable place = entries.getD place ⟨0⟩

theorem Filled.put {map : NexusMap} {entries : List PageEntry} (filled : map.Filled entries)
    {mapping : Mapping} (fits : entries.length + mapping.size ≤ 1024) :
    (map.put mapping).Filled (entries ++ mapping.entries) := by
  constructor
  · rw [put_cursor filled.laddr, List.length_append, Mapping.entries_length]
  · intro place
    have start : slot map.laddr = entries.length % 1024 := by rw [filled.laddr, slot_pages]
    rw [put_pageTable, filled.pageTable, written, start]
    by_cases empty : mapping.size = 0
    · have none : mapping.entries = [] := List.eq_nil_of_length_eq_zero (by simp [empty])
      rw [if_neg (by simp [empty]), none, List.append_nil]
    have here : entries.length % 1024 = entries.length := Nat.mod_eq_of_lt (by omega)
    rw [here]
    by_cases member : place ∈ (List.range' entries.length mapping.size).filter (· ≤ 1024)
    · have above := (List.mem_range'_1.mp (List.mem_of_mem_filter member)).1
      rw [if_pos member, List.getD_append_right _ _ _ _ above]
    · rw [if_neg member]
      rw [List.mem_filter, List.mem_range'_1, decide_eq_true_eq] at member
      rcases Nat.lt_or_ge place entries.length with before | behind
      · rw [List.getD_append _ _ _ _ before]
      · have past : entries.length + mapping.size ≤ place := by omega
        rw [List.getD_eq_default _ _ behind, List.getD_eq_default]
        rw [List.length_append, Mapping.entries_length]
        exact past

private theorem Filled.puts {map : NexusMap} {entries : List PageEntry}
    (filled : map.Filled entries)
    {mappings : List Mapping}
    (fits : entries.length + (mappings.map Mapping.size).sum ≤ 1024) :
    (mappings.foldl NexusMap.put map).Filled (entries ++ mappings.flatMap Mapping.entries) := by
  induction mappings generalizing map entries with
  | nil => rwa [List.flatMap_nil, List.append_nil]
  | cons mapping rest inductionHypothesis =>
      rw [List.map_cons, List.sum_cons] at fits
      rw [List.foldl_cons, List.flatMap_cons, ← List.append_assoc]
      apply inductionHypothesis (filled.put (by omega))
      rw [List.length_append, Mapping.entries_length]
      omega

private theorem empty_filled : ({} : NexusMap).Filled [] := ⟨rfl, fun _ => rfl⟩

end NexusMap

namespace VmPages

variable {pages : VmPages}

/-- A structure with the blank page behind it. -/
def guarded (region : List Frame) : List Mapping := [.pages region, .blank]

/-- All that `hostInitMonitor` maps, in its order. -/
def mappings (pages : VmPages) : List Mapping :=
  pages.regions.flatMap guarded ++ [.pages [0], .pages [0], .blank]

private theorem regions_foldl (map : NexusMap) (regions : List (List Frame)) :
    regions.foldl (fun map region => (map.hostMapMonPages region).hostMapBlankPage) map =
      (regions.flatMap guarded).foldl NexusMap.put map := by
  induction regions generalizing map with
  | nil => rfl
  | cons region rest inductionHypothesis =>
      rw [List.foldl_cons, inductionHypothesis, List.flatMap_cons, List.foldl_append]
      simp only [guarded, List.foldl_cons, List.foldl_nil, NexusMap.put]

private theorem nexusMap_eq : pages.nexusMap = pages.mappings.foldl NexusMap.put {} := by
  rw [mappings, List.foldl_append, ← regions_foldl]
  rfl

private theorem guarded_sizes (regions : List (List Frame)) :
    ((regions.flatMap guarded).map Mapping.size).sum =
      (regions.map fun region => region.length + 1).sum := by
  induction regions with
  | nil => rfl
  | cons region rest inductionHypothesis =>
      rw [List.flatMap_cons, List.map_append, List.sum_append, inductionHypothesis, List.map_cons,
        List.sum_cons]
      rfl

private theorem mappings_sizes : (pages.mappings.map Mapping.size).sum = pages.slotsUsed := by
  rw [mappings, List.map_append, List.sum_append, guarded_sizes, slotsUsed]
  simp [Mapping.size]

private theorem nexusMap_filled (fits : pages.slotsUsed ≤ 1024) :
    pages.nexusMap.Filled (pages.mappings.flatMap Mapping.entries) := by
  rw [nexusMap_eq, ← List.nil_append (pages.mappings.flatMap _)]
  apply NexusMap.empty_filled.puts
  rw [mappings_sizes]
  simpa using fits

/-- The slots that `hostInitMonitor` writes. -/
def slotsWritten (pages : VmPages) : List Nat := ({} : NexusMap).allWritten pages.mappings

/-- What is mapped before a structure. -/
def before (pages : VmPages) (place : Nat) : List Mapping :=
  (pages.regions.take place).flatMap guarded

/-- How many slots that takes. -/
def slotsBefore (pages : VmPages) (place : Nat) : Nat :=
  ((pages.before place).map Mapping.size).sum

private theorem puts_cursor (mappings : List Mapping) {map : NexusMap} {cursor : Nat}
    (reached : map.laddr = 4096 * BitVec.ofNat 32 cursor) :
    (mappings.foldl NexusMap.put map).laddr =
      4096 * BitVec.ofNat 32 (cursor + (mappings.map Mapping.size).sum) := by
  induction mappings generalizing map cursor with
  | nil => exact reached
  | cons mapping rest inductionHypothesis =>
      rw [List.foldl_cons, inductionHypothesis (NexusMap.put_cursor reached mapping),
        List.map_cons, List.sum_cons, Nat.add_assoc]

private theorem slot_regionLaddr (place : Nat) :
    NexusMap.slot (pages.regionLaddr place) = pages.slotsBefore place % 1024 := by
  have cursor := @puts_cursor (pages.before place) {} 0 rfl
  rw [Nat.zero_add] at cursor
  rw [regionLaddr, regions_foldl, ← before, cursor, NexusMap.slot_pages, slotsBefore]

private theorem mappings_at {place : Nat} {region : List Frame}
    (here : pages.regions[place]? = some region) :
    ∃ rest, pages.mappings = pages.before place ++ .pages region :: .blank :: rest := by
  obtain ⟨inside, rfl⟩ := List.getElem?_eq_some_iff.mp here
  refine ⟨(pages.regions.drop (place + 1)).flatMap guarded ++ [.pages [0], .pages [0], .blank], ?_⟩
  have split : pages.regions =
      pages.regions.take place ++ pages.regions[place] :: pages.regions.drop (place + 1) := by
    rw [List.getElem_cons_drop, List.take_append_drop]
  rw [mappings, before]
  conv => lhs; rw [split]
  rw [List.flatMap_append, List.flatMap_cons, List.append_assoc, guarded, List.append_assoc]
  rfl

/-- Every structure has slots of its own inside the nexus page table, where it is found, and a
page that is not present behind it. -/
structure LaidOut (pages : VmPages) : Prop where
  inside : ∀ slot ∈ pages.slotsWritten, slot < 1024
  once : pages.slotsWritten.Nodup
  found : ∀ place region, pages.regions[place]? = some region → ∀ offset frame,
    region[offset]? = some frame →
      pages.nexusMap.pageTable (NexusMap.slot (pages.regionLaddr place) + offset) = .make frame 3
  guarded : ∀ place region, pages.regions[place]? = some region →
    pages.nexusMap.pageTable (NexusMap.slot (pages.regionLaddr place) + region.length) = ⟨0⟩

private theorem entry_at (fits : pages.slotsUsed ≤ 1024) {place : Nat} {region : List Frame}
    (here : pages.regions[place]? = some region) {offset : Nat} (near : offset ≤ region.length) :
    pages.nexusMap.pageTable (NexusMap.slot (pages.regionLaddr place) + offset) =
      (region.map (PageEntry.make · 3) ++ [(⟨0⟩ : PageEntry)]).getD offset ⟨0⟩ := by
  obtain ⟨rest, split⟩ := mappings_at here
  have total := @mappings_sizes pages
  rw [split, List.map_append, List.sum_append, List.map_cons, List.map_cons, List.sum_cons,
    List.sum_cons] at total
  have blank : Mapping.blank.size = 1 := rfl
  have early : pages.slotsBefore place < 1024 := by
    rw [slotsBefore]
    omega
  have length : ((pages.before place).flatMap Mapping.entries).length = pages.slotsBefore place := by
    rw [slotsBefore, List.length_flatMap]
    simp only [Mapping.entries_length]
  rw [(nexusMap_filled fits).pageTable, slot_regionLaddr, Nat.mod_eq_of_lt early, split,
    List.flatMap_append, List.flatMap_cons, List.flatMap_cons]
  rw [List.getD_append_right _ _ _ _ (by omega), length, Nat.add_sub_cancel_left,
    ← List.append_assoc, List.getD_append]
  · rfl
  · simpa [Mapping.entries] using Nat.lt_succ_of_le near

/-- There has to be room for all of it, and that is enough. -/
theorem laidOut_iff_fits : pages.LaidOut ↔ pages.slotsUsed ≤ 1024 := by
  have slots : pages.slotsWritten =
      (handedOut 1024 0 (pages.mappings.map Mapping.size)).filter (· ≤ 1024) :=
    NexusMap.allWritten_eq rfl pages.mappings
  have apart := @handedOut_apart_iff 1024 (pages.mappings.map Mapping.size) (by decide)
  rw [← slots, mappings_sizes] at apart
  constructor
  · intro laidOut
    exact apart.mp ⟨laidOut.inside, laidOut.once⟩
  · intro fits
    obtain ⟨inside, once⟩ := apart.mpr fits
    refine ⟨inside, once, fun place region here offset frame found => ?_,
      fun place region here => ?_⟩
    · have near := (List.getElem?_eq_some_iff.mp found).1
      rw [entry_at fits here (Nat.le_of_lt near), List.getD_append _ _ _ _ (by simpa using near),
        List.getD_eq_getElem?_getD, List.getElem?_map, found]
      rfl
    · have length : (region.map (PageEntry.make · 3)).length = region.length := List.length_map _
      rw [entry_at fits here (Nat.le_refl _), List.getD_append_right _ _ _ _ (Nat.le_of_eq length),
        length, Nat.sub_self]
      rfl

/-- `BytesToPages` -/
def bytesToPages (bytes : Bit32u) : Nat := ((bytes + 4095) >>> 12).toNat

/-- `sizeof(phyPageInfo_t)` -/
def sizeofPhyPageInfo : Bit32u := 16

/-- `MON_PAGE_TABLES` -/
def monPageTables : Nat := 10 * ((32 + 3) >>> 2)

/-- The structures have the sizes that they are mapped with, for a guest of this memory. -/
structure Sized (pages : VmPages) (nMegs : Bit32u) : Prop where
  idt : pages.idt.length = bytesToPages (8 * 256)
  gdt : pages.gdt.length = bytesToPages (8 * 512)
  ldt : pages.ldt.length = bytesToPages (8 * 1)
  tss : pages.tss.length = bytesToPages 104
  idtStubs : pages.idtStubs.length = bytesToPages (15 * 256)
  pageTbl : pages.pageTbl.length = monPageTables
  guestPageInfo : pages.guestPageInfo.length = bytesToPages (sizeofPhyPageInfo * (nMegs * 256))
  userLogBuffer : pages.userLogBuffer.length = 1

/-- A megabyte of the guest takes a page of information. -/
theorem bytesToPages_info (nMegs : Bit32u) :
    bytesToPages (sizeofPhyPageInfo * (nMegs * 256)) = nMegs.toNat % 2 ^ 20 := by
  have size : sizeofPhyPageInfo.toNat = 16 := rfl
  have pages : (256 : Bit32u).toNat = 256 := rfl
  have round : (4095 : Bit32u).toNat = 4095 := rfl
  rw [bytesToPages, BitVec.toNat_ushiftRight, Nat.shiftRight_eq_div_pow, BitVec.toNat_add,
    BitVec.toNat_mul, BitVec.toNat_mul, size, pages, round]
  omega

/-- Whatever multiple of four megabytes is asked for, a registration can pass its checks. -/
private theorem check_passes {nMegs : Bit32u} (fours : nMegs &&& 3 = 0) :
    ∃ msg : RegisterMem, msg.nMegs = nMegs ∧ RegisterMem.check vmStateFDOpened 0 msg = none := by
  let msg : RegisterMem := ⟨nMegs, 0x10000000, 0x40000000, 0x40001000⟩
  have apart : msg.regionsOverlap = false := by
    simp only [msg, RegisterMem.regionsOverlap, RegisterMem.compared, RegisterMem.userRegion,
      List.any_cons, List.any_nil]
    decide
  have whole : ¬ msg.nMegs &&& 3 ≠ 0 := fun part => part fours
  refine ⟨msg, rfl, ?_⟩
  rw [RegisterMem.check, if_neg (by decide), if_neg (by decide), if_neg whole, apart]
  simp [msg]

/-- The monitor's structures get slots of their own in the nexus page table exactly
where the pages of the kernel module, those of the VM structure and the megabytes of
the guest come to 911 at most; but requests for any multiple of four megabytes pass
the checks of a registration. -/
theorem laidOut_iff {nMegs : Bit32u} (sized : pages.Sized nMegs) :
    (pages.LaidOut ↔
      pages.kernelModulePages.length + pages.vm.length + nMegs.toNat % 2 ^ 20 ≤ 911) ∧
    (nMegs &&& 3 = 0 → ∃ msg : RegisterMem,
      msg.nMegs = nMegs ∧ RegisterMem.check vmStateFDOpened 0 msg = none) := by
  have used : pages.slotsUsed =
      pages.kernelModulePages.length + pages.vm.length + nMegs.toNat % 2 ^ 20 + 113 := by
    simp only [slotsUsed, regions, List.map_cons, List.map_nil, List.sum_cons, List.sum_nil,
      List.length_cons, List.length_nil, sized.idt, sized.gdt, sized.ldt, sized.tss, sized.idtStubs,
      sized.pageTbl, sized.guestPageInfo, sized.userLogBuffer, bytesToPages_info]
    change pages.kernelModulePages.length + 1 + (2 + (pages.vm.length + 1 + (2 + (2 + (2 + (2 +
      (2 + (2 + (2 + (2 + (81 + (2 + (2 + (nMegs.toNat % 2 ^ 20 + 1 + (2 + 2)))))))))))))))
        + 3 = _
    omega
  refine ⟨?_, check_passes⟩
  rw [laidOut_iff_fits, used]
  omega

/-- The pages of a guest of eight megabytes. -/
def eightMegs : VmPages where
  kernelModulePages := List.replicate 20 0x100
  nexus := 0x102
  vm := List.replicate 3 0x103
  idt := [0x104]
  gdt := [0x105]
  ldt := [0x106]
  tss := [0x107]
  idtStubs := [0x108]
  monLogBuffer := 0x109
  pageDir := 0x10a
  nexusPageTbl := 0x10b
  pageTbl := List.replicate 80 0x10c
  pageTblLaddrMap := 0x10d
  guestCpu := 0x10e
  guestPageInfo := List.replicate 8 0x10f
  userLogBuffer := [0x110]

theorem laidOut_iff_sample : eightMegs.Sized 8 ∧ eightMegs.LaidOut := by
  have sized : eightMegs.Sized 8 := by constructor <;> rfl
  refine ⟨sized, (laidOut_iff sized).1.mpr ?_⟩
  decide

end VmPages
end Plex86
