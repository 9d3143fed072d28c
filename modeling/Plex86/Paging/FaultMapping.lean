import Plex86.Paging.MapLinSpec

/-! What `mapGuestLinAddr` comes to, told from the state it starts in: the page
an address leads to, what is unpinned on the way, and the rights the page gets. -/

namespace Plex86

open Logic Vm

namespace Vm

/-- The guest page that an address leads to. -/
def guestPage (vm : Vm) (laddr : Bit32u) : Bit32u :=
  if vm.guestCpu.pg then (vm.tables (pdiOf laddr) (ptiOf laddr)).2.base.setWidth 32
  else laddr >>> 12

/-- The pages that are opened to find it. -/
def walkedPages (vm : Vm) (laddr : Bit32u) : List Bit32u :=
  if vm.guestCpu.pg then vm.walkPages (pdiOf laddr) (ptiOf laddr) else []

/-- Opening them unpins a page. -/
def walkEvicts (vm : Vm) (laddr : Bit32u) : Bool :=
  overflow maxPhyPagesPinned vm.pins.live (vm.walkedPages laddr)

/-- Pinning the page itself, after them, unpins a page. -/
def targetEvicts (vm : Vm) (laddr : Bit32u) : Bool :=
  overflows maxPhyPagesPinned (vm.guestPage laddr)
    (requests maxPhyPagesPinned vm.pins.live (vm.walkedPages laddr))

/-- The directory entry of the address is still there when its page is entered. -/
def directoryStands (vm : Vm) (laddr : Bit32u) : Bool :=
  (vm.shadow.pageDir (pdiOf laddr)).p && !vm.walkEvicts laddr

/-- The rights (us, rw) that a new entry gets for an entry of the guest. -/
def grantedRights (vm : Vm) (entry : PageEntry) : Bool × Bool :=
  if vm.guestCpu.pg then shadowRights vm.guestCPL vm.guestCpu.wp entry else (true, true)

/-- The rights (us, rw) of the directory entry that the page is entered under. -/
def directoryRights (vm : Vm) (laddr : Bit32u) : Bool × Bool :=
  if vm.directoryStands laddr then
    ((vm.shadow.pageDir (pdiOf laddr)).us, (vm.shadow.pageDir (pdiOf laddr)).rw)
  else vm.grantedRights (vm.tables (pdiOf laddr) (ptiOf laddr)).1

/-- The RW bit of the new entry itself. -/
def pageWritable (vm : Vm) (laddr : Bit32u) : Bool :=
  (vm.grantedRights (vm.tables (pdiOf laddr) (ptiOf laddr)).2).2 &&
    !(vm.pins.guestPageInfo (vm.guestPage laddr)).attr.ro

/-- What the guest's own tables make of an access, where it pages. -/
def tablesFault (vm : Vm) (laddr : Bit32u) (reqUs reqRw : Bool) : Option Bit32u :=
  if vm.guestCpu.pg then
    guestFault vm.guestCpu.wp (vm.tables (pdiOf laddr) (ptiOf laddr)) reqUs reqRw
  else none

/-- The fault makes the walk store through a window whose page it has unpinned. -/
def StaleStore (vm : Vm) (laddr : Bit32u) (reqUs reqRw : Bool) : Prop :=
  vm.guestCpu.pg = true ∧ vm.LateStale (pdiOf laddr) (ptiOf laddr) reqUs reqRw

instance (vm : Vm) (laddr : Bit32u) (reqUs reqRw : Bool) :
    Decidable (vm.StaleStore laddr reqUs reqRw) :=
  inferInstanceAs (Decidable (_ ∧ _))

end Vm

private theorem shadowRights_sameMapping {first second : PageEntry}
    (same : first.SameMapping second)
    (guestCPL : BitVec 2) (wp : Bool) :
    shadowRights guestCPL wp first = shadowRights guestCPL wp second := by
  simp only [shadowRights, same.us, same.rw]

@[simp] theorem newMonPDE_none_us (vm : Vm) (ptIndex : Bit32u) :
    (newMonPDE vm ptIndex none).us = true := by
  simp [newMonPDE]

@[simp] theorem newMonPDE_none_rw (vm : Vm) (ptIndex : Bit32u) :
    (newMonPDE vm ptIndex none).rw = true := by
  simp [newMonPDE]

/-- The guest's tables, where it pages, have allowed the access. -/
structure Walked (vm : Vm) (laddr : Bit32u) (reqUs reqRw : Bool)
    (entries : Option (PageEntry × PageEntry)) (walked : Vm) : Prop where
  settled : Settled vm walked
  asked : ∀ records, vm.pins.Holds records → Asked (vm.walkedPages laddr) vm walked
  allowed : vm.tablesFault laddr reqUs reqRw = none
  unpaged : entries = none → vm.guestCpu.pg = false
  paged : ∀ found, entries = some found → vm.guestCpu.pg = true ∧
    found.1.SameMapping (vm.tables (pdiOf laddr) (ptiOf laddr)).1 ∧
    found.2.SameMapping (vm.tables (pdiOf laddr) (ptiOf laddr)).2
  marked : ∀ records, vm.pins.Holds records → vm.setup.WindowsApart →
    ¬ vm.StaleStore laddr reqUs reqRw → Careful vm walked ∧
      (vm.guestCpu.pg = true → TablesMarked walked.mem vm.guestCpu.cr3 (pdiOf laddr) (ptiOf laddr)
        reqRw (vm.tables (pdiOf laddr) (ptiOf laddr)))

/-- What mapping a linear address came to. -/
inductive MapLinSpec (vm : Vm) (laddr : Bit32u) (reqUs reqRw : Bool) : MapLin → Vm → Prop
  | refused {code : Bit32u} {next : Vm} (settled : Settled vm next) (careful : Careful vm next)
      (fault : vm.tablesFault laddr reqUs reqRw = some code) :
      MapLinSpec vm laddr reqUs reqRw
        (.exception (code ||| (bit reqUs <<< 2) ||| (bit reqRw <<< 1))) next
  | entered {entries : Option (PageEntry × PageEntry)} {walked next : Vm} {result : MapLin}
      (walk : Walked vm laddr reqUs reqRw entries walked)
      (entering : Entering walked laddr (vm.guestPage laddr) entries reqRw result next)
      (answer : ∀ code, result ≠ .exception code) :
      MapLinSpec vm laddr reqUs reqRw result next

/-- Entering a page never ends in a fault for the guest. -/
theorem MapSpec.answer {vm next : Vm} {laddr guestPPI : Bit32u}
    {entries : Option (PageEntry × PageEntry)} {reqRw : Bool} {result : MapLin}
    (spec : MapSpec vm laddr guestPPI entries reqRw result next) (code : Bit32u) :
    result ≠ .exception code := by
  cases spec with
  | outside => simp
  | conflict own => simp
  | entered pde pte =>
      cases pte with
      | refused notOk noFault => exact noFault code
      | made => simp

theorem mapGuestLinAddr_ok {vm next : Vm} (sound : vm.Sound) {laddr : Bit32u}
    {reqUs reqRw : Bool} {result : MapLin}
    (run : mapGuestLinAddr laddr reqUs reqRw vm = .ok result next) :
    MapLinSpec vm laddr reqUs reqRw result next := by
  simp only [mapGuestLinAddr, get_bind_apply, Logic.ite_apply] at run
  split at run
  · next paged =>
    obtain ⟨answer, walked, walk, rest⟩ := bind_ok.mp run
    have spec := walkGuest_ok walk
    cases answer with
    | error code =>
        cases rest
        obtain ⟨fault, careful⟩ := spec.refused code rfl
        exact .refused spec.settled careful (by simpa [tablesFault, paged] using fault)
    | ok entries =>
        obtain ⟨allowed, directory, table⟩ := spec.allowed entries rfl
        have page : vm.guestPage laddr = entries.2.base.setWidth 32 := by
          simp [guestPage, paged, table.base]
        have soundWalked := sound.settled spec.settled.pages
        have mapped := mapIntoMonitor_ok soundWalked.heap soundWalked.monitor rest
        rw [← page] at mapped
        suffices walk : Walked vm laddr reqUs reqRw (some entries) walked from
          .entered walk (mapped.entering soundWalked) mapped.answer
        refine ⟨spec.settled, ?_, by simpa [tablesFault, paged] using allowed, by simp, ?_, ?_⟩
        · simpa [walkedPages, paged] using spec.asked
        · rintro found ⟨⟩
          exact ⟨paged, directory, table⟩
        · intro records holds apart notStale
          obtain ⟨careful, marked⟩ := spec.marked entries rfl records holds apart fun stale =>
            notStale ⟨paged, stale⟩
          exact ⟨careful, fun _ => marked⟩
  · next unpaged =>
    have off : vm.guestCpu.pg = false := by simpa using unpaged
    have mapped := mapIntoMonitor_ok sound.heap sound.monitor run
    have page : vm.guestPage laddr = laddr >>> 12 := by simp [guestPage, off]
    rw [← page] at mapped
    suffices walk : Walked vm laddr reqUs reqRw none vm from
      .entered walk (mapped.entering sound) mapped.answer
    refine ⟨.refl vm, fun records holds => ?_, by simp [tablesFault, off], fun _ => off, by simp, ?_⟩
    · simpa [walkedPages, off] using Asked.refl vm
    · exact fun _ _ _ _ => ⟨.refl vm, fun paged => by simp [off] at paged⟩

/-- Entering a page never ends in a fault for the guest, whatever the tables are like. -/
theorem mapIntoMonitor_answer (laddr guestPPI : Bit32u) (entries : Option (PageEntry × PageEntry))
    (reqRw : Bool) :
    Ensures (fun _ => True) (mapIntoMonitor laddr guestPPI entries reqRw)
      (fun result _ => ∀ code, result ≠ .exception code) fun _ _ => True := by
  have any {α : Type} (program : Mon α) :
      Ensures (fun _ => True) program (fun _ _ => True) fun _ _ => True := by
    intro vm _
    cases program vm <;> trivial
  have refusal : Ensures (fun _ => True) (mapPDE laddr (entries.map (·.1)))
      (fun found _ => ∀ refused, found = .error refused → ∀ code, refused ≠ .exception code)
      fun _ _ => True := by
    apply Ensures.look_bind
    intro now _
    apply Ensures.ite
    · intro absent
      apply Ensures.bind (any _)
      intro _
      apply Ensures.bind (any _)
      intro ptIndex
      apply Ensures.bind (any _)
      intro _
      exact .pure fun _ _ refused impossible => by cases impossible
    · intro present
      apply Ensures.ite
      · intro own
        exact .pure fun _ _ refused conflict => by cases conflict; simp
      · intro other
        apply Ensures.bind (any _)
        intro ptIndex
        exact .pure fun _ _ refused impossible => by cases impossible
  have entered (ptIndex : Bit32u) (usage : PhyPageAttr) : Ensures (fun _ => True)
      (mapPTE ptIndex laddr guestPPI usage (entries.map (·.2)) reqRw)
      (fun result _ => ∀ code, result ≠ .exception code) fun _ _ => True := by
    apply Ensures.look_bind
    intro now _
    apply Ensures.ite (fun mapped => .pure fun _ _ code => by simp)
    intro unmapped
    apply Ensures.ite (fun readOnly => .pure fun _ _ code => by simp)
    intro writable
    apply Ensures.ite (fun memMapIo => .pure fun _ _ code => by simp)
    intro ordinary
    apply Ensures.bind (any _)
    intro base
    apply Ensures.bind (any _)
    intro _
    exact .pure fun _ _ code => by simp
  apply Ensures.look_bind
  intro now _
  apply Ensures.ite (fun outside => .pure fun _ _ code => by simp)
  intro inside
  apply Ensures.bind (any _)
  intro usage
  apply Ensures.bind refusal
  intro found
  cases found with
  | error refused => exact .pure fun _ known => known refused rfl
  | ok ptIndex => exact fun vm _ => entered ptIndex usage vm trivial

/-- A fault for the guest comes from its own tables, and leaves the processor alone. -/
theorem mapGuestLinAddr_exception {vm next : Vm} {laddr code : Bit32u} {reqUs reqRw : Bool}
    (run : mapGuestLinAddr laddr reqUs reqRw vm = .ok (.exception code) next) :
    vm.guestCpu.pg = true ∧ SameCpu vm next ∧ ∃ low,
      guestFault vm.guestCpu.wp (vm.tables (pdiOf laddr) (ptiOf laddr)) reqUs reqRw = some low ∧
        code = low ||| (bit reqUs <<< 2) ||| (bit reqRw <<< 1) := by
  simp only [mapGuestLinAddr, get_bind_apply, Logic.ite_apply] at run
  split at run
  · next paged =>
    obtain ⟨answer, walked, walk, rest⟩ := bind_ok.mp run
    have spec := walkGuest_ok walk
    cases answer with
    | error low =>
        cases rest
        exact ⟨paged, spec.settled.cpu, low, (spec.refused low rfl).1, rfl⟩
    | ok entries => exact ((mapIntoMonitor_answer _ _ _ _).returns trivial rest code rfl).elim
  · exact ((mapIntoMonitor_answer _ _ _ _).returns trivial run code rfl).elim

/-- The entry that a fault has made for an address, told from the state it found. -/
structure EntryGiven (vm : Vm) (laddr : Bit32u) (reqRw : Bool) (next : Vm)
    (pde pte : PageEntry) : Prop where
  pinned : next.pins.pinned (vm.guestPage laddr) = true
  base : pte.base = next.pins.hostPPI (vm.guestPage laddr)
  us : pte.us = true
  rw : pte.rw = vm.pageWritable laddr
  directory : (pde.us, pde.rw) = vm.directoryRights laddr
  writable : (vm.pins.guestPageInfo (vm.guestPage laddr)).attr.ro = true → reqRw = false
  memory : (vm.pins.guestPageInfo (vm.guestPage laddr)).attr.ro = true ∨
    (vm.pins.guestPageInfo (vm.guestPage laddr)).attr.memMapIo = false

namespace Walked

variable {vm walked : Vm} {laddr : Bit32u} {reqUs reqRw : Bool}
variable {entries : Option (PageEntry × PageEntry)}

/-- A new directory entry has the rights that the guest's own entry grants. -/
theorem newMonPDE_rights (walk : Walked vm laddr reqUs reqRw entries walked) (ptIndex : Bit32u) :
    ((newMonPDE walked ptIndex (entries.map (·.1))).us,
      (newMonPDE walked ptIndex (entries.map (·.1))).rw) =
        vm.grantedRights (vm.tables (pdiOf laddr) (ptiOf laddr)).1 := by
  have cpu := walk.settled.cpu
  cases entries with
  | none => simp [grantedRights, walk.unpaged rfl]
  | some found =>
      obtain ⟨paged, directory, -⟩ := walk.paged found rfl
      simp [grantedRights, paged, cpu.guestCPL, cpu.guestCpu,
        shadowRights_sameMapping directory]

private theorem newMonRw_eq (walk : Walked vm laddr reqUs reqRw entries walked) :
    newMonRw walked (walked.pins.guestPageInfo (vm.guestPage laddr)).attr (entries.map (·.2)) =
      vm.pageWritable laddr := by
  have cpu := walk.settled.cpu
  have readOnly := walk.settled.pages.readOnly (vm.guestPage laddr)
  cases entries with
  | none => simp [newMonRw, pageWritable, grantedRights, walk.unpaged rfl, readOnly]
  | some found =>
      obtain ⟨paged, -, table⟩ := walk.paged found rfl
      simp [newMonRw, pageWritable, grantedRights, paged, cpu.guestCPL, cpu.guestCpu, readOnly,
        shadowRights_sameMapping table]

/-- The walk either emptied the shadow tables or left them alone. -/
theorem shadow_eq (walk : Walked vm laddr reqUs reqRw entries walked) (sound : vm.Sound) :
    walked.shadow =
      if vm.walkEvicts laddr then vm.shadow.init vm.setup.monPdi else vm.shadow := by
  obtain ⟨records, holds⟩ := sound.holds
  have asked := walk.asked records holds
  cases evicts : vm.walkEvicts laddr
  · simpa using (asked.quiet evicts).shadow
  · simpa using (asked.flushes evicts).shadow

private theorem directory_p (walk : Walked vm laddr reqUs reqRw entries walked) (sound : vm.Sound)
    (other : pdiOf laddr ≠ vm.setup.monPdi) :
    (walked.shadow.pageDir (pdiOf laddr)).p = vm.directoryStands laddr := by
  rw [walk.shadow_eq sound, directoryStands]
  cases vm.walkEvicts laddr <;> simp [Shadow.init, other]

private theorem mustEvict (walk : Walked vm laddr reqUs reqRw entries walked) (sound : vm.Sound) :
    walked.MustEvict (vm.guestPage laddr) ↔ vm.targetEvicts laddr = true := by
  obtain ⟨records, holds⟩ := sound.holds
  obtain ⟨records', holds'⟩ := walk.settled.pages.holds records holds
  rw [mustEvict_iff holds', (walk.asked records holds).live]
  rfl

theorem given (walk : Walked vm laddr reqUs reqRw entries walked) (sound : vm.Sound)
    (other : pdiOf laddr ≠ vm.setup.monPdi) {next : Vm} {pde pte : PageEntry}
    (made : EntryMade walked laddr (vm.guestPage laddr) entries reqRw next pde pte) :
    EntryGiven vm laddr reqRw next pde pte where
  pinned := made.pinned
  base := made.base
  us := made.us
  rw := made.rw.trans walk.newMonRw_eq
  directory := by
    have present := walk.directory_p sound other
    rw [directoryRights]
    cases stands : vm.directoryStands laddr
    · obtain ⟨ptIndex, rfl⟩ := made.made (present.trans stands)
      simpa using walk.newMonPDE_rights ptIndex
    · obtain rfl := made.found (present.trans stands)
      have quiet : vm.walkEvicts laddr = false := by
        simp only [directoryStands, Bool.and_eq_true, Bool.not_eq_true'] at stands
        exact stands.2
      simp [walk.shadow_eq sound, quiet]
  writable := by
    rw [← walk.settled.pages.readOnly]
    exact made.writable
  memory := by
    rw [← walk.settled.pages.readOnly, ← walk.settled.pages.memMapIo]
    exact made.memory

end Walked

/-- What a fault that maps a page does to the machine. -/
structure Mapped (vm : Vm) (laddr : Bit32u) (reqUs reqRw : Bool) (ppi : Bit32u) (next : Vm) :
    Prop where
  page : ppi = vm.guestPage laddr
  other : pdiOf laddr ≠ vm.setup.monPdi
  cpu : SameCpu vm next
  readOnly : ∀ page, (next.pins.guestPageInfo page).attr.ro =
    (vm.pins.guestPageInfo page).attr.ro
  memMapIo : ∀ page, (next.pins.guestPageInfo page).attr.memMapIo =
    (vm.pins.guestPageInfo page).attr.memMapIo
  user : ∀ pti, (next.nexusPageTbl pti).us = (vm.nexusPageTbl pti).us
  sound : next.Sound
  allowed : vm.tablesFault laddr reqUs reqRw = none
  traced : ∀ pdi pti pde pte, next.Live pdi pti pde pte →
    (vm.Live pdi pti pde pte ∧ Quiet vm next) ∨
      (pdi = pdiOf laddr ∧ pti = ptiOf laddr ∧ EntryGiven vm laddr reqRw next pde pte)
  entered : vm.targetEvicts laddr = false →
    ∃ pde pte, next.Live (pdiOf laddr) (ptiOf laddr) pde pte ∧
      EntryGiven vm laddr reqRw next pde pte
  lost : vm.targetEvicts laddr = true → (next.shadow.pageDir (pdiOf laddr)).p = false
  directory : ∀ pdi, (next.shadow.pageDir pdi).p = true →
    next.shadow.pageDir pdi = vm.shadow.pageDir pdi ∨
      (pdi = pdiOf laddr ∧ ((next.shadow.pageDir pdi).us, (next.shadow.pageDir pdi).rw) =
        vm.grantedRights (vm.tables (pdiOf laddr) (ptiOf laddr)).1)
  marked : vm.setup.WindowsApart → ¬ vm.StaleStore laddr reqUs reqRw →
    vm.guestCpu.pg = true → TablesMarked next.mem vm.guestCpu.cr3 (pdiOf laddr) (ptiOf laddr)
      reqRw (vm.tables (pdiOf laddr) (ptiOf laddr))

theorem MapLinSpec.mapped {vm next : Vm} (sound : vm.Sound) {laddr ppi : Bit32u}
    {reqUs reqRw : Bool} (spec : MapLinSpec vm laddr reqUs reqRw (.ok ppi) next) :
    Mapped vm laddr reqUs reqRw ppi next := by
  cases spec with
  | @entered entries walked next result walk entering answer =>
  obtain ⟨page, other⟩ := entering.target ppi rfl
  have pages := walk.settled.pages
  rw [pages.setup] at other
  constructor
  case page => exact page
  case other => exact other
  case cpu => exact walk.settled.cpu.trans entering.frame.cpu
  case readOnly => exact fun place => (entering.frame.readOnly place).trans (pages.readOnly place)
  case memMapIo => exact fun place => (entering.frame.memMapIo place).trans (pages.memMapIo place)
  case user => exact fun pti => (entering.frame.user pti).trans (pages.user pti)
  case sound => exact entering.sound
  case allowed => exact walk.allowed
  case traced =>
    intro pdi pti pde pte live
    rcases entering.traced pdi pti pde pte live with ⟨old, quiet⟩ | ⟨-, rfl, rfl, made⟩
    · obtain ⟨older, still⟩ := pages.live old
      exact .inl ⟨older, still.quiet.trans quiet⟩
    · exact .inr ⟨rfl, rfl, walk.given sound other made⟩
  case entered =>
    intro stays
    obtain ⟨pde, pte, live, made⟩ := entering.entered ppi rfl fun must => by
      simp [(walk.mustEvict sound).mp must] at stays
    exact ⟨pde, pte, live, walk.given sound other made⟩
  case lost => exact fun evicts => entering.lost ppi rfl ((walk.mustEvict sound).mpr evicts)
  case directory =>
    intro pdi present
    rcases entering.directory pdi present with same | ⟨rfl, ptIndex, made⟩
    · refine .inl ?_
      rw [same, walk.shadow_eq sound]
      rw [same, walk.shadow_eq sound] at present
      by_cases own : pdi = vm.setup.monPdi <;> cases evicts : vm.walkEvicts laddr <;>
        simp_all [Shadow.init]
    · exact .inr ⟨rfl, by rw [made]; exact walk.newMonPDE_rights ptIndex⟩
  case marked =>
    intro apart notStale paged
    obtain ⟨records, holds⟩ := sound.holds
    rw [entering.frame.mem]
    exact (walk.marked records holds apart notStale).2 paged

/-- Whatever it comes to, the mapping has made valid accesses only. -/
theorem MapLinSpec.careful {vm next : Vm} (sound : vm.Sound) {laddr : Bit32u}
    {reqUs reqRw : Bool} {result : MapLin} (spec : MapLinSpec vm laddr reqUs reqRw result next)
    (apart : vm.setup.WindowsApart) (notStale : ¬ vm.StaleStore laddr reqUs reqRw) :
    Careful vm next := by
  cases spec with
  | refused settled careful fault => exact careful
  | entered walk entering answer =>
      obtain ⟨records, holds⟩ := sound.holds
      refine (walk.marked records holds apart notStale).1.trans ⟨[], ?_, by simp⟩
      simpa using entering.frame.accesses

section Stops

variable (log : List WindowAccess)

/-- Code that makes no access through a window, also where it stops. -/
abbrev KeepsLog {α : Type} (program : Mon α) : Prop :=
  Keeps (fun vm => vm.accesses = log) (fun _ last => last.accesses = log) program

private theorem getPageUsage_log (ppi : Bit32u) : KeepsLog log (getPageUsage ppi) :=
  .get_bind fun _ _ => .bind (monAssert_keeps fun _ same => same) fun _ => .pure

private theorem mapPDE_log (laddr : Bit32u) (guestPDE : Option PageEntry) :
    KeepsLog log (mapPDE laddr guestPDE) := by
  have silent {cond : Prop} [Decidable cond] {format : String} {args : List Bit32u} :
      KeepsLog log (panicWhen cond format args) := panicWhen_keeps fun _ same => same
  have usage : KeepsLog log (checkPDEUsage guestPDE) := by
    cases guestPDE with
    | none => exact .pure
    | some entry =>
        apply Keeps.bind (getPageUsage_log log _)
        intro attr
        exact silent
  have free : KeepsLog log (getFreePageTable (pdiOf laddr)) := by
    apply Keeps.get_bind
    intro now same
    apply Keeps.bind silent
    intro _
    apply Keeps.bind silent
    intro _
    exact .bind (.modify fun _ same => same) fun _ => .pure
  have found : KeepsLog log (getMonPTi (pdiOf laddr) 12) := by
    apply Keeps.get_bind
    intro now same
    apply Keeps.bind silent
    intro _
    apply Keeps.bind silent
    intro _
    exact .pure
  apply Keeps.get_bind
  intro now same
  apply Keeps.ite
  · intro absent
    apply Keeps.bind usage
    intro _
    apply Keeps.bind free
    intro ptIndex
    exact .bind (.modify fun _ same => same) fun _ => .pure
  · intro present
    apply Keeps.ite (fun own => .pure)
    intro other
    apply Keeps.bind found
    intro ptIndex
    exact .pure

private theorem mapPTE_log (ptIndex laddr guestPPI : Bit32u) (usage : PhyPageAttr)
    (guestPTE : Option PageEntry) (reqRw : Bool) :
    KeepsLog log (mapPTE ptIndex laddr guestPPI usage guestPTE reqRw) := by
  have pinned : KeepsLog log (getHostOSPinnedPage guestPPI) :=
    Ensures.weaken (getHostOSPinnedPage_log log guestPPI) (fun _ same => same)
      (fun _ _ same => same) (fun _ _ kept => kept.2)
  apply Keeps.get_bind
  intro now same
  apply Keeps.ite (fun mapped => .pure)
  intro unmapped
  apply Keeps.ite (fun readOnly => .pure)
  intro writable
  apply Keeps.ite (fun memMapIo => .pure)
  intro ordinary
  apply Keeps.bind pinned
  intro base
  exact .bind (.modify fun _ same => same) fun _ => .pure

private theorem mapIntoMonitor_log (laddr guestPPI : Bit32u)
    (entries : Option (PageEntry × PageEntry))
    (reqRw : Bool) : KeepsLog log (mapIntoMonitor laddr guestPPI entries reqRw) := by
  apply Keeps.get_bind
  intro now same
  apply Keeps.ite (fun outside => .pure)
  intro inside
  apply Keeps.bind (getPageUsage_log log _)
  intro usage
  apply Keeps.bind (mapPDE_log log _ _)
  intro found
  cases found with
  | error refused => exact .pure
  | ok ptIndex => exact mapPTE_log log _ _ _ _ _ _

end Stops

/-- Where the mapping stops the monitor, it has made valid accesses only too. -/
theorem mapGuestLinAddr_stops {vm last : Vm} (sound : vm.Sound) {laddr : Bit32u}
    {reqUs reqRw : Bool} {stop : Halt} (apart : vm.setup.WindowsApart)
    (notStale : ¬ vm.StaleStore laddr reqUs reqRw)
    (run : mapGuestLinAddr laddr reqUs reqRw vm = .error stop last) : Careful vm last := by
  have quietly : ∀ {walked : Vm} {ppi : Bit32u} {entries : Option (PageEntry × PageEntry)},
      mapIntoMonitor laddr ppi entries reqRw walked = .error stop last →
        Careful walked last := fun stopped =>
    ⟨[], by simpa using (mapIntoMonitor_log _ _ _ _ _).stops rfl stopped, by simp⟩
  simp only [mapGuestLinAddr, get_bind_apply, Logic.ite_apply] at run
  split at run
  · next paged =>
    rcases bind_error.mp run with stopped | ⟨answer, walked, walk, rest⟩
    · exact (walkGuest_stops.stops ⟨.refl vm, .refl vm⟩ stopped).2
    · cases answer with
      | error code => cases rest
      | ok entries =>
          obtain ⟨records, holds⟩ := sound.holds
          have careful := ((walkGuest_ok walk).marked entries rfl records holds apart fun stale =>
            notStale ⟨paged, stale⟩).1
          exact careful.trans (quietly rest)
  · exact quietly run

end Plex86
