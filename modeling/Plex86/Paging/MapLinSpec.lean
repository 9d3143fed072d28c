import Plex86.Paging.Entries

namespace Plex86

open Logic Vm

@[simp] theorem newMonPDE_us (vm : Vm) (ptIndex : Bit32u) (guestPDE : PageEntry) :
    (newMonPDE vm ptIndex (some guestPDE)).us =
      (shadowRights vm.guestCPL vm.guestCpu.wp guestPDE).1 := by
  cases us : (shadowRights vm.guestCPL vm.guestCpu.wp guestPDE).1 <;>
    cases rw' : (shadowRights vm.guestCPL vm.guestCpu.wp guestPDE).2 <;>
      simp [newMonPDE, us, rw', bit]

@[simp] theorem newMonPDE_rw (vm : Vm) (ptIndex : Bit32u) (guestPDE : PageEntry) :
    (newMonPDE vm ptIndex (some guestPDE)).rw =
      (shadowRights vm.guestCPL vm.guestCpu.wp guestPDE).2 := by
  cases us : (shadowRights vm.guestCPL vm.guestCpu.wp guestPDE).1 <;>
    cases rw' : (shadowRights vm.guestCPL vm.guestCpu.wp guestPDE).2 <;>
      simp [newMonPDE, us, rw', bit]

@[simp] theorem newMonPTE_p (base : Frame) (rw : Bool) (guestPTE : Option PageEntry) :
    (newMonPTE base rw guestPTE).p = true := by
  cases guestPTE <;> cases rw <;> simp [newMonPTE, bit]

@[simp] theorem newMonPTE_us (base : Frame) (rw : Bool) (guestPTE : Option PageEntry) :
    (newMonPTE base rw guestPTE).us = true := by
  cases guestPTE <;> cases rw <;> simp [newMonPTE, bit]

@[simp] theorem newMonPTE_rw (base : Frame) (rw : Bool) (guestPTE : Option PageEntry) :
    (newMonPTE base rw guestPTE).rw = rw := by
  cases guestPTE <;> cases rw <;> simp [newMonPTE, bit]

@[simp] theorem newMonPTE_base (base : Frame) (rw : Bool) (guestPTE : Option PageEntry) :
    (newMonPTE base rw guestPTE).base = base := by
  cases guestPTE with
  | none => cases rw <;> exact PageEntry.make_base _ _ (by decide)
  | some entry =>
      apply PageEntry.make_base
      exact PageEntry.low_or (PageEntry.low_or entry.marks_low rfl) (PageEntry.bit_low _ 1)

namespace Vm

/-- Nothing has been unpinned, and no pinned page has moved. -/
structure Quiet (before after : Vm) : Prop where
  unpins : after.unpins = before.unpins
  kept : ∀ ppi, before.pins.pinned ppi = true →
    after.pins.pinned ppi = true ∧ after.pins.hostPPI ppi = before.pins.hostPPI ppi

theorem NoEviction.quiet {before after : Vm} (still : NoEviction before after) :
    Quiet before after := ⟨still.unpins, still.kept⟩

theorem Quiet.refl (vm : Vm) : Quiet vm vm := ⟨rfl, fun _ pinned => ⟨pinned, rfl⟩⟩

theorem Quiet.trans {before middle after : Vm} (first : Quiet before middle)
    (second : Quiet middle after) : Quiet before after where
  unpins := second.unpins.trans first.unpins
  kept := fun ppi pinned =>
    have ⟨still, same⟩ := first.kept ppi pinned
    have ⟨later, unmoved⟩ := second.kept ppi still
    ⟨later, unmoved.trans same⟩

/-- What a change of the shadow tables leaves alone. -/
structure MapFrame (before after : Vm) : Prop where
  cpu : SameCpu before after
  mem : after.mem = before.mem
  accesses : after.accesses = before.accesses
  readOnly : ∀ page, (after.pins.guestPageInfo page).attr.ro =
    (before.pins.guestPageInfo page).attr.ro
  memMapIo : ∀ page, (after.pins.guestPageInfo page).attr.memMapIo =
    (before.pins.guestPageInfo page).attr.memMapIo
  user : ∀ pti, (after.nexusPageTbl pti).us = (before.nexusPageTbl pti).us

theorem MapFrame.refl (vm : Vm) : MapFrame vm vm :=
  ⟨.refl vm, rfl, rfl, fun _ => rfl, fun _ => rfl, fun _ => rfl⟩

end Vm

/-- The entry that mapping a page into the shadow tables makes. -/
structure EntryMade (vm : Vm) (laddr guestPPI : Bit32u) (entries : Option (PageEntry × PageEntry))
    (reqRw : Bool) (next : Vm) (pde pte : PageEntry) : Prop where
  writable : (vm.pins.guestPageInfo guestPPI).attr.ro = true → reqRw = false
  memory : (vm.pins.guestPageInfo guestPPI).attr.ro = true ∨
    (vm.pins.guestPageInfo guestPPI).attr.memMapIo = false
  pinned : next.pins.pinned guestPPI = true
  base : pte.base = next.pins.hostPPI guestPPI
  us : pte.us = true
  rw : pte.rw = newMonRw vm (vm.pins.guestPageInfo guestPPI).attr (entries.map (·.2))
  found : (vm.shadow.pageDir (pdiOf laddr)).p = true → pde = vm.shadow.pageDir (pdiOf laddr)
  made : (vm.shadow.pageDir (pdiOf laddr)).p = false →
    ∃ ptIndex, pde = newMonPDE vm ptIndex (entries.map (·.1))

/-- A directory entry was there before, or it was made for this address. -/
def Vm.DirectoryFrom (vm : Vm) (laddr : Bit32u) (guestPDE : Option PageEntry) (next : Vm) : Prop :=
  ∀ pdi, (next.shadow.pageDir pdi).p = true →
    next.shadow.pageDir pdi = vm.shadow.pageDir pdi ∨
      (pdi = pdiOf laddr ∧ ∃ ptIndex, next.shadow.pageDir pdi = newMonPDE vm ptIndex guestPDE)

/-- What entering a page changes. -/
structure Entering (vm : Vm) (laddr guestPPI : Bit32u)
    (entries : Option (PageEntry × PageEntry)) (reqRw : Bool) (result : MapLin)
    (next : Vm) : Prop where
  frame : MapFrame vm next
  sound : next.Sound
  traced : ∀ pdi pti pde pte, next.Live pdi pti pde pte →
    (vm.Live pdi pti pde pte ∧ Quiet vm next) ∨
      (result = .ok guestPPI ∧ pdi = pdiOf laddr ∧ pti = ptiOf laddr ∧
        EntryMade vm laddr guestPPI entries reqRw next pde pte)
  target : ∀ ppi, result = .ok ppi → ppi = guestPPI ∧ pdiOf laddr ≠ vm.setup.monPdi
  entered : ∀ ppi, result = .ok ppi → ¬ vm.MustEvict guestPPI →
    ∃ pde pte, next.Live (pdiOf laddr) (ptiOf laddr) pde pte ∧
      EntryMade vm laddr guestPPI entries reqRw next pde pte
  lost : ∀ ppi, result = .ok ppi → vm.MustEvict guestPPI →
    (next.shadow.pageDir (pdiOf laddr)).p = false
  directory : vm.DirectoryFrom laddr (entries.map (·.1)) next

/-- Where no entry is made, the tables hold no more entries than before. -/
theorem Entering.refused {vm next : Vm} {laddr guestPPI : Bit32u}
    {entries : Option (PageEntry × PageEntry)} {reqRw : Bool} {result : MapLin}
    (frame : MapFrame vm next) (sound : next.Sound) (quiet : Quiet vm next)
    (fewer : ∀ pdi pti pde pte, next.Live pdi pti pde pte → vm.Live pdi pti pde pte)
    (directory : vm.DirectoryFrom laddr (entries.map (·.1)) next)
    (notOk : ∀ ppi, result ≠ .ok ppi) :
    Entering vm laddr guestPPI entries reqRw result next where
  frame := frame
  directory := directory
  sound := sound
  traced := fun pdi pti pde pte live => .inl ⟨fewer pdi pti pde pte live, quiet⟩
  target := fun ppi same => (notOk ppi same).elim
  entered := fun ppi same => (notOk ppi same).elim
  lost := fun ppi same => (notOk ppi same).elim

/-- The directory entry and the table index under which a page is entered. -/
structure TableReady (vm : Vm) (laddr : Bit32u) (guestPDE : Option PageEntry) (ptIndex : Bit32u)
    (middle : Vm) : Prop where
  frame : MapFrame vm middle
  pins : middle.pins = vm.pins
  calls : middle.hostCalls = vm.hostCalls
  sound : middle.Sound
  other : pdiOf laddr ≠ vm.setup.monPdi
  present : (middle.shadow.pageDir (pdiOf laddr)).p = true
  index : middle.shadow.pageTblLaddrMap (pdiOf laddr) = ptIndex
  fewer : ∀ pdi pti pde pte, middle.Live pdi pti pde pte → vm.Live pdi pti pde pte
  found : (vm.shadow.pageDir (pdiOf laddr)).p = true →
    middle.shadow.pageDir (pdiOf laddr) = vm.shadow.pageDir (pdiOf laddr)
  made : (vm.shadow.pageDir (pdiOf laddr)).p = false →
    ∃ ptIndex, middle.shadow.pageDir (pdiOf laddr) = newMonPDE vm ptIndex guestPDE
  directory : vm.DirectoryFrom laddr guestPDE middle

theorem MapPDESpec.ready {vm middle : Vm} {laddr : Bit32u} {guestPDE : Option PageEntry}
    {ptIndex : Bit32u} (sound : vm.Sound)
    (spec : MapPDESpec vm laddr guestPDE (.ok ptIndex) middle) :
    TableReady vm laddr guestPDE ptIndex middle := by
  cases spec with
  | found other present =>
      exact ⟨.refl vm, rfl, rfl, sound, other, present, rfl, fun _ _ _ _ live => live, fun _ => rfl,
        fun absent => by simp [absent] at present, fun _ _ => .inl rfl⟩
  | made other absent room =>
      have made : MapPDESpec vm laddr guestPDE _ _ := .made other absent room
      have kept := HeapKept.mapPDE ⟨rfl, sound.heap, sound.monitor, rfl⟩ made
      refine ⟨⟨by constructor <;> rfl, rfl, rfl, fun _ => rfl, fun _ => rfl, fun _ => rfl⟩, rfl, rfl,
        ⟨kept.heap, kept.monitor, sound.holds⟩, other, ?_, ?_, ?_, ?_, ?_, ?_⟩
      · simp [Shadow.allocate]
      · simp [Shadow.allocate]
      · exact fun _ _ _ _ live => (Shadow.Live.of_allocate sound.heap live).2
      · exact fun present => by simp [absent] at present
      · exact fun _ => ⟨vm.shadow.ptblLaddrMapI, by simp [Shadow.allocate]⟩
      · intro pdi _
        by_cases here : pdi = pdiOf laddr
        · exact .inr ⟨here, vm.shadow.ptblLaddrMapI, by simp [Shadow.allocate, here]⟩
        · exact .inl (by simp [Shadow.allocate, here])

theorem Vm.PinSpec.settled {ppi : Bit32u} {before after : Vm} (spec : PinSpec ppi before after)
    (nexus : after.nexusPageTbl = before.nexusPageTbl) : PagesSettled before after where
  setup := spec.cpu.setup
  cr0 := by rw [spec.cpu.guestCpu]
  cr3 := by rw [spec.cpu.guestCpu]
  readOnly := spec.readOnly
  memMapIo := spec.memMapIo
  user := fun _ => by rw [nexus]
  holds := spec.holds
  shadow := spec.shadow_cases

/-- The state after a page table entry has been made for a page just pinned. -/
def Vm.withPTE (vm : Vm) (ptIndex : Bit32u) (pti : BitVec 10) (entry : PageEntry) : Vm :=
  { vm with shadow := vm.shadow.setPTE ptIndex pti entry }

theorem Vm.Sound.withPTE {vm : Vm} (sound : vm.Sound) (ptIndex : Bit32u) (pti : BitVec 10)
    (entry : PageEntry) : (vm.withPTE ptIndex pti entry).Sound :=
  ⟨sound.heap.setPTE ptIndex pti entry, ⟨sound.monitor.present, sound.monitor.mask⟩, sound.holds⟩

private theorem newMonRw_congr {first second : Vm} (cpu : SameCpu first second)
    (usage : PhyPageAttr)
    (guestPTE : Option PageEntry) : newMonRw second usage guestPTE = newMonRw first usage guestPTE := by
  simp only [newMonRw, cpu.guestCPL, cpu.guestCpu]

/-- Making the entry itself, in a table that is ready for it. -/
theorem TableReady.enter {vm middle pinned : Vm} {laddr guestPPI ptIndex : Bit32u}
    {entries : Option (PageEntry × PageEntry)} {reqRw : Bool}
    (ready : TableReady vm laddr (entries.map (·.1)) ptIndex middle)
    (writable : (vm.pins.guestPageInfo guestPPI).attr.ro = true → reqRw = false)
    (memory : (vm.pins.guestPageInfo guestPPI).attr.ro = true ∨
      (vm.pins.guestPageInfo guestPPI).attr.memMapIo = false)
    (pin : PinSpec guestPPI middle pinned) (nexus : pinned.nexusPageTbl = middle.nexusPageTbl) :
    Entering vm laddr guestPPI entries reqRw (.ok guestPPI)
      (pinned.withPTE ptIndex (ptiOf laddr) (newMonPTE (pinned.pins.hostPPI guestPPI)
        (newMonRw middle (vm.pins.guestPageInfo guestPPI).attr (entries.map (·.2)))
        (entries.map (·.2)))) := by
  have must : vm.MustEvict guestPPI ↔ middle.MustEvict guestPPI := by
    simp only [MustEvict, ready.pins]
  have cpu := ready.frame.cpu.trans pin.cpu
  have sound := ready.sound.settled (pin.settled nexus)
  generalize entry : newMonPTE _ _ (entries.map (·.2)) = pte
  have made : ∀ next : Vm, next.pins = pinned.pins →
      EntryMade vm laddr guestPPI entries reqRw next (middle.shadow.pageDir (pdiOf laddr)) pte := by
    intro next pins
    refine ⟨writable, memory, by rw [pins]; exact pin.pinned, by rw [← entry, pins]; simp,
      by rw [← entry]; simp, ?_, ready.found, ready.made⟩
    rw [← entry, newMonPTE_rw, newMonRw_congr ready.frame.cpu]
  constructor
  case frame =>
    refine ⟨?_, ?_, ?_, ?_, ?_, ?_⟩
    · exact ⟨cpu.setup, cpu.guestCpu, cpu.context, cpu.guestCPL, cpu.monCr0, cpu.monCr4, cpu.gdt,
        cpu.intr, cpu.cyclesElapsed, cpu.picMaster, cpu.picSlave, cpu.pit, cpu.vmState⟩
    · exact pin.mem.trans ready.frame.mem
    · exact pin.accesses.trans ready.frame.accesses
    · exact fun page => (pin.readOnly page).trans (ready.frame.readOnly page)
    · exact fun page => (pin.memMapIo page).trans (ready.frame.memMapIo page)
    · intro pti
      rw [← ready.frame.user pti, ← nexus]
      rfl
  case sound => exact sound.withPTE _ _ _
  case traced =>
    intro pdi pti pde pte' live
    have setup : pinned.setup = vm.setup := cpu.setup
    by_cases evicts : middle.MustEvict guestPPI
    · have flushed := (pin.evicts evicts).shadow
      have live : (pinned.shadow.setPTE ptIndex (ptiOf laddr) pte).Live pinned.setup pdi pti pde pte' :=
        live
      rw [flushed, pin.cpu.setup] at live
      exact live.init_setPTE_false.elim
    · have quiet := pin.keeps evicts
      have live : (pinned.shadow.setPTE ptIndex (ptiOf laddr) pte).Live pinned.setup pdi pti pde pte' :=
        live
      rw [quiet.shadow, pin.cpu.setup, ← ready.index] at live
      have here : pdiOf laddr ≠ middle.setup.monPdi := by rw [ready.frame.cpu.setup]; exact ready.other
      rcases live.of_setPTE ready.sound.heap here ready.present with ⟨rfl, rfl, rfl⟩ | old
      · refine .inr ⟨rfl, rfl, rfl, ?_⟩
        rw [← live.directory]
        exact made _ rfl
      · refine .inl ⟨ready.fewer pdi pti pde pte' old, ?_, ?_⟩
        · rw [← show middle.unpins = vm.unpins by rw [unpins, ready.calls, unpins], ← quiet.unpins]
          rfl
        · rw [← ready.pins]
          exact quiet.kept
  case target => exact fun ppi same => by cases same; exact ⟨rfl, ready.other⟩
  case entered =>
    intro ppi same stays
    have quiet := pin.keeps (fun evicts => stays (must.mpr evicts))
    refine ⟨_, pte, ?_, made _ rfl⟩
    have here : pdiOf laddr ≠ pinned.setup.monPdi := by rw [cpu.setup]; exact ready.other
    refine ⟨here, ?_, ready.present, ?_, by rw [← entry]; simp⟩
    · simp [withPTE, Shadow.setPTE, quiet.shadow]
    · simp [withPTE, Shadow.setPTE, quiet.shadow, ready.index]
  case lost =>
    intro ppi same evicts
    have flushed := (pin.evicts (must.mp evicts)).shadow
    have here : pdiOf laddr ≠ middle.setup.monPdi := by rw [ready.frame.cpu.setup]; exact ready.other
    simp [withPTE, Shadow.setPTE, flushed, Shadow.init, here]
  case directory =>
    intro pdi present
    have present : (pinned.shadow.pageDir pdi).p = true := present
    have same : pinned.shadow.pageDir pdi = middle.shadow.pageDir pdi := by
      by_cases evicts : middle.MustEvict guestPPI
      · rw [(pin.evicts evicts).shadow] at present ⊢
        by_cases own : pdi = middle.setup.monPdi <;> simp_all [Shadow.init]
      · rw [(pin.keeps evicts).shadow]
    have entry : (pinned.withPTE ptIndex (ptiOf laddr) pte).shadow.pageDir pdi =
        middle.shadow.pageDir pdi := same
    rw [entry]
    exact ready.directory pdi (same ▸ present)

theorem MapSpec.entering {vm next : Vm} {laddr guestPPI : Bit32u}
    {entries : Option (PageEntry × PageEntry)} {reqRw : Bool} {result : MapLin}
    (sound : vm.Sound) (spec : MapSpec vm laddr guestPPI entries reqRw result next) :
    Entering vm laddr guestPPI entries reqRw result next := by
  cases spec with
  | outside =>
      exact .refused (.refl vm) sound (.refl vm) (fun _ _ _ _ live => live)
        (fun _ _ => .inl rfl) (by simp)
  | conflict own =>
      exact .refused (.refl vm) sound (.refl vm) (fun _ _ _ _ live => live)
        (fun _ _ => .inl rfl) (by simp)
  | entered pde pte =>
      have ready := pde.ready sound
      cases pte with
      | refused notOk noFault =>
          refine .refused ready.frame ready.sound ⟨?_, fun ppi pinned => ?_⟩ ready.fewer
            ready.directory notOk
          · rw [unpins, ready.calls, unpins]
          · rw [ready.pins]
            exact ⟨pinned, rfl⟩
      | made absent writable memory pin nexus => exact ready.enter writable memory pin nexus

end Plex86
