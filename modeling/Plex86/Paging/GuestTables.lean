import Plex86.Paging.PageTables

/-! The guest's own page tables: the entries in its memory, what they say about
an access, and the marks that a walk leaves in them. -/

namespace Plex86

open Logic

/-- The entry at an index of the table in a page of guest memory. -/
def entryAt (mem : Bit32u → Bytes) (ppi : Bit32u) (index : BitVec 10) : PageEntry :=
  ⟨loadWord 32 (mem ppi) (4 * index.toNat)⟩

def putEntry (mem : Bit32u → Bytes) (ppi : Bit32u) (index : BitVec 10) (entry : PageEntry) :
    Bit32u → Bytes :=
  Function.update mem ppi (storeWord (mem ppi) (4 * index.toNat) entry.raw)

theorem entryAt_putEntry (mem : Bit32u → Bytes) (ppi other : Bit32u) (index place : BitVec 10)
    (entry : PageEntry) :
    entryAt (putEntry mem ppi index entry) other place =
      if other = ppi ∧ place = index then entry else entryAt mem other place := by
  simp only [entryAt, putEntry]
  by_cases page : other = ppi
  · subst page
    by_cases slot : place = index
    · subst slot
      simp [loadWord_storeWord_self]
    · have differs : place.toNat ≠ index.toNat := fun same => slot (BitVec.eq_of_toNat_eq same)
      have apart : 4 * place.toNat + 32 / 8 ≤ 4 * index.toNat ∨
          4 * index.toNat + 32 / 8 ≤ 4 * place.toNat := by omega
      simp [slot, loadWord_storeWord_disjoint apart]
  · simp [page]

namespace PageEntry

/-- Two entries map the same page with the same rights, whatever their marks. -/
structure SameMapping (first second : PageEntry) : Prop where
  p : first.p = second.p
  us : first.us = second.us
  rw : first.rw = second.rw
  base : first.base = second.base

theorem SameMapping.refl (entry : PageEntry) : SameMapping entry entry := ⟨rfl, rfl, rfl, rfl⟩

theorem SameMapping.trans {first second third : PageEntry} (left : SameMapping first second)
    (right : SameMapping second third) : SameMapping first third :=
  ⟨left.p.trans right.p, left.us.trans right.us, left.rw.trans right.rw,
    left.base.trans right.base⟩

@[simp] theorem setD_p (entry : PageEntry) : entry.setD.p = entry.p := by
  simp [setD, p]
@[simp] theorem setD_rw (entry : PageEntry) : entry.setD.rw = entry.rw := by
  simp [setD, rw]
@[simp] theorem setD_us (entry : PageEntry) : entry.setD.us = entry.us := by
  simp [setD, us]
@[simp] theorem setD_base (entry : PageEntry) : entry.setD.base = entry.base := by
  simp [setD, base, BitVec.extractLsb'_or]

theorem setA_sameMapping (entry : PageEntry) : SameMapping entry.setA entry :=
  ⟨setA_p entry, setA_us entry, setA_rw entry, setA_base entry⟩

private theorem setD_sameMapping (entry : PageEntry) : SameMapping entry.setD entry :=
  ⟨setD_p entry, setD_us entry, setD_rw entry, setD_base entry⟩

/-- The entry as an access leaves it: accessed, and dirty after a write. -/
def marked (entry : PageEntry) (reqRw : Bool) : PageEntry :=
  if reqRw then entry.setA.setD else entry.setA

theorem marked_sameMapping (entry : PageEntry) (reqRw : Bool) :
    SameMapping (entry.marked reqRw) entry := by
  unfold marked
  split
  · exact (setD_sameMapping _).trans (setA_sameMapping _)
  · exact setA_sameMapping entry

@[simp] theorem marked_a (entry : PageEntry) (reqRw : Bool) : (entry.marked reqRw).a = true := by
  unfold marked
  split <;> simp

@[simp] theorem marked_d (entry : PageEntry) (reqRw : Bool) :
    (entry.marked reqRw).d = (reqRw || entry.d) := by
  unfold marked
  split <;> simp [*]

theorem SameMapping.denies {first second : PageEntry} (same : SameMapping first second)
    (reqUs reqRw wp : Bool) : first.denies reqUs reqRw wp = second.denies reqUs reqRw wp := by
  simp only [PageEntry.denies, same.us, same.rw]

end PageEntry

/-- The guest's directory entry and table entry for an address. -/
def guestTables (mem : Bit32u → Bytes) (cr3 : Bit32u) (pdi pti : BitVec 10) :
    PageEntry × PageEntry :=
  let guestPDE := entryAt mem (cr3 >>> 12) pdi
  (guestPDE, entryAt mem (guestPDE.base.setWidth 32) pti)

/-- What the guest's entries make of an access: the low bit of the fault's error
code, or no fault. -/
def guestFault (wp : Bool) (tables : PageEntry × PageEntry) (reqUs reqRw : Bool) :
    Option Bit32u :=
  if !(tables.1.p && tables.2.p) then some 0
  else if tables.1.denies reqUs reqRw wp || tables.2.denies reqUs reqRw wp then some 1
  else none

theorem guestFault_sameMapping {first second : PageEntry × PageEntry}
    (directory : first.1.SameMapping second.1) (table : first.2.SameMapping second.2)
    (wp reqUs reqRw : Bool) :
    guestFault wp first reqUs reqRw = guestFault wp second reqUs reqRw := by
  simp only [guestFault, directory.p, table.p, directory.denies, table.denies]

theorem guestFault_eq_none {wp : Bool} {tables : PageEntry × PageEntry} {reqUs reqRw : Bool} :
    guestFault wp tables reqUs reqRw = none ↔
      (tables.1.p = true ∧ tables.2.p = true) ∧
        tables.1.denies reqUs reqRw wp = false ∧ tables.2.denies reqUs reqRw wp = false := by
  unfold guestFault
  cases tables.1.p <;> cases tables.2.p <;> simp

theorem PageEntry.denies_eq_false {entry : PageEntry} {reqUs reqRw wp : Bool} :
    entry.denies reqUs reqRw wp = false ↔
      (reqUs = true → entry.us = true) ∧
        (reqRw = true → wp = true ∨ reqUs = true → entry.rw = true) := by
  cases reqUs <;> cases reqRw <;> cases wp <;> simp [PageEntry.denies]

/-- Both entries carry the marks an access leaves, and map what they mapped before. -/
structure TablesMarked (mem : Bit32u → Bytes) (cr3 : Bit32u) (pdi pti : BitVec 10)
    (reqRw : Bool) (tables : PageEntry × PageEntry) : Prop where
  directory : (guestTables mem cr3 pdi pti).1.SameMapping tables.1
  table : (guestTables mem cr3 pdi pti).2.SameMapping tables.2
  directoryA : (guestTables mem cr3 pdi pti).1.a = true
  tableA : (guestTables mem cr3 pdi pti).2.a = true
  tableD : reqRw = true ∨ tables.2.d = true → (guestTables mem cr3 pdi pti).2.d = true

/-- The memory differs in one entry only. -/
def EntrySet (mem mem' : Bit32u → Bytes) (ppi : Bit32u) (index : BitVec 10)
    (entry : PageEntry) : Prop :=
  ∀ other place, entryAt mem' other place =
    if other = ppi ∧ place = index then entry else entryAt mem other place

theorem EntrySet.put (mem : Bit32u → Bytes) (ppi : Bit32u) (index : BitVec 10)
    (entry : PageEntry) : EntrySet mem (putEntry mem ppi index entry) ppi index entry :=
  fun other place => entryAt_putEntry mem ppi other index place entry

/-- An entry that is there already need not be stored. -/
theorem EntrySet.already {mem : Bit32u → Bytes} {ppi : Bit32u} {index : BitVec 10}
    {entry : PageEntry} (there : entryAt mem ppi index = entry) :
    EntrySet mem mem ppi index entry := by
  intro other place
  split
  · next same => rw [same.1, same.2, there]
  · rfl

end Plex86
