import Plex86.Paging.PageTables
import Plex86.Paging.WindowSpec

namespace Plex86

open Logic

/-- A panic that the sanity checks of the page table heap raise. -/
def Halt.heapCheck : Halt → Bool
  | .monpanic format _ =>
      format = "getFreePageTable: check failed,   pdi=0x%x, laddr_map=0x%x\n" ||
      format = "getMonPTi: check failed, pdi=0x%x, map_i=0x%x, source=%u\n" ||
      format = "getMonPTi: map_i OOB\n"
  | _ => false

namespace Vm

/-- What pinning pages, any number of times, does to pages and shadow tables. -/
structure PagesSettled (before after : Vm) : Prop where
  setup : after.setup = before.setup
  cr0 : after.guestCpu.cr0 = before.guestCpu.cr0
  cr3 : after.guestCpu.cr3 = before.guestCpu.cr3
  readOnly : ∀ page, (after.pins.guestPageInfo page).attr.ro =
    (before.pins.guestPageInfo page).attr.ro
  memMapIo : ∀ page, (after.pins.guestPageInfo page).attr.memMapIo =
    (before.pins.guestPageInfo page).attr.memMapIo
  user : ∀ pti, (after.nexusPageTbl pti).us = (before.nexusPageTbl pti).us
  holds : ∀ records, before.pins.Holds records → ∃ records', after.pins.Holds records'
  shadow : NoEviction before after ∨ Flushed before after

/-- All that reaching into guest memory, any number of times, does beyond the
memory itself. -/
structure Settled (before after : Vm) : Prop where
  cpu : SameCpu before after
  pages : PagesSettled before after

end Vm

@[simp] theorem Shadow.init_init (shadow : Shadow) (monPdi : BitVec 10) :
    (shadow.init monPdi).init monPdi = shadow.init monPdi := by
  simp only [Shadow.init, Shadow.mk.injEq, and_true]
  funext pdi
  split <;> simp_all

namespace Vm

theorem PagesSettled.refl (vm : Vm) : PagesSettled vm vm where
  setup := rfl
  cr0 := rfl
  cr3 := rfl
  readOnly := fun _ => rfl
  memMapIo := fun _ => rfl
  user := fun _ => rfl
  holds := fun records holds => ⟨records, holds⟩
  shadow := .inl (NoEviction.refl vm)

theorem PagesSettled.trans {before middle after : Vm} (first : PagesSettled before middle)
    (second : PagesSettled middle after) : PagesSettled before after where
  setup := second.setup.trans first.setup
  cr0 := second.cr0.trans first.cr0
  cr3 := second.cr3.trans first.cr3
  readOnly := fun page => (second.readOnly page).trans (first.readOnly page)
  memMapIo := fun page => (second.memMapIo page).trans (first.memMapIo page)
  user := fun pti => (second.user pti).trans (first.user pti)
  holds := fun records holds => by
    obtain ⟨records', holds'⟩ := first.holds records holds
    exact second.holds records' holds'
  shadow := by
    have setup := first.setup
    rcases first.shadow with quiet | ⟨flushed, fewer⟩ <;>
      rcases second.shadow with quiet' | ⟨flushed', fewer'⟩
    · exact .inl (quiet.trans quiet')
    · exact .inr ⟨by rw [flushed', setup, quiet.shadow], by rw [← quiet.unpins]; exact fewer'⟩
    · exact .inr ⟨by rw [quiet'.shadow, flushed], by rw [quiet'.unpins]; exact fewer⟩
    · exact .inr ⟨by rw [flushed', setup, flushed, Shadow.init_init], fewer.trans fewer'⟩

theorem Asked.append {first second : List Bit32u} {before middle after : Vm}
    (setup : middle.setup = before.setup) (earlier : Asked first before middle)
    (later : Asked second middle after) : Asked (first ++ second) before after where
  live := by rw [later.live, earlier.live, requests_append]
  flushes := fun exceeds => by
    rw [overflow_append, ← earlier.live] at exceeds
    cases one : overflow maxPhyPagesPinned before.pins.live first <;>
      cases two : overflow maxPhyPagesPinned middle.pins.live second
    · simp [one, two] at exceeds
    · have flushed := later.flushes two
      have quiet := earlier.quiet one
      exact ⟨by rw [flushed.shadow, setup, quiet.shadow], by rw [← quiet.unpins]; exact flushed.unpins⟩
    · have flushed := earlier.flushes one
      have quiet := later.quiet two
      exact ⟨by rw [quiet.shadow, flushed.shadow], by rw [quiet.unpins]; exact flushed.unpins⟩
    · have flushed := earlier.flushes one
      have again := later.flushes two
      exact ⟨by rw [again.shadow, setup, flushed.shadow, Shadow.init_init],
        flushed.unpins.trans again.unpins⟩
  quiet := fun room => by
    rw [overflow_append, Bool.or_eq_false_iff, ← earlier.live] at room
    exact (earlier.quiet room.1).trans (later.quiet room.2)

/-- Reading and writing memory asks for nothing. -/
theorem Asked.same {pages : List Bit32u} {before middle after : Vm}
    (asked : Asked pages before middle) (pins : after.pins = middle.pins)
    (shadow : after.shadow = middle.shadow) (calls : after.hostCalls = middle.hostCalls) :
    Asked pages before after where
  live := by rw [pins]; exact asked.live
  flushes := fun exceeds =>
    have flushed := asked.flushes exceeds
    ⟨by rw [shadow]; exact flushed.shadow, by rw [unpins, unpins, calls]; exact flushed.unpins⟩
  quiet := fun room =>
    have quiet := asked.quiet room
    ⟨by rw [shadow]; exact quiet.shadow, by rw [unpins, unpins, calls]; exact quiet.unpins,
      fun ppi pinned => by rw [pins]; exact quiet.kept ppi pinned⟩

theorem Settled.refl (vm : Vm) : Settled vm vm := ⟨.refl vm, .refl vm⟩

theorem Settled.trans {before middle after : Vm} (first : Settled before middle)
    (second : Settled middle after) : Settled before after :=
  ⟨first.cpu.trans second.cpu, first.pages.trans second.pages⟩

theorem PinSpec.shadow_cases {ppi : Bit32u} {before after : Vm}
    (spec : PinSpec ppi before after) : NoEviction before after ∨ Flushed before after := by
  by_cases must : before.MustEvict ppi
  · have evicted := spec.evicts must
    exact .inr ⟨evicted.shadow, by rw [evicted.unpins]; exact Nat.lt_succ_self _⟩
  · exact .inl (spec.keeps must)

theorem OpenSpec.settled {page : OpenPage} {before after : Vm}
    (spec : OpenSpec page before after) : Settled before after where
  cpu := spec.pin.cpu
  pages :=
    { setup := spec.pin.cpu.setup
      cr0 := by rw [spec.pin.cpu.guestCpu]
      cr3 := by rw [spec.pin.cpu.guestCpu]
      readOnly := spec.pin.readOnly
      memMapIo := spec.pin.memMapIo
      user := spec.user
      holds := spec.pin.holds
      shadow := spec.pin.shadow_cases }

/-- A change of anything but pages and tables. -/
theorem PagesSettled.same {before after : Vm} (setup : after.setup = before.setup)
    (cr0 : after.guestCpu.cr0 = before.guestCpu.cr0)
    (cr3 : after.guestCpu.cr3 = before.guestCpu.cr3) (pins : after.pins = before.pins)
    (nexus : after.nexusPageTbl = before.nexusPageTbl) (shadow : after.shadow = before.shadow)
    (calls : after.hostCalls = before.hostCalls) : PagesSettled before after where
  setup := setup
  cr0 := cr0
  cr3 := cr3
  readOnly := fun _ => by rw [pins]
  memMapIo := fun _ => by rw [pins]
  user := fun _ => by rw [nexus]
  holds := fun records holds => ⟨records, by rw [pins]; exact holds⟩
  shadow := .inl ⟨shadow, by rw [unpins, calls]; rfl, fun _ pinned => by rw [pins]; exact ⟨pinned, rfl⟩⟩

/-- Reading and writing guest memory disturbs neither pages nor shadow tables. -/
theorem Settled.memory (vm : Vm) (mem : Bit32u → Bytes) (accesses : List WindowAccess) :
    Settled vm { vm with mem, accesses } where
  cpu := by constructor <;> rfl
  pages := .same rfl rfl rfl rfl rfl rfl rfl

/-- Every access made since was a valid one. -/
def Careful (before after : Vm) : Prop :=
  ∃ made, after.accesses = made ++ before.accesses ∧ ∀ access ∈ made, access.Valid

theorem Careful.refl (vm : Vm) : Careful vm vm := ⟨[], rfl, by simp⟩

theorem Careful.trans {before middle after : Vm} (first : Careful before middle)
    (second : Careful middle after) : Careful before after := by
  obtain ⟨made, log, valid⟩ := first
  obtain ⟨made', log', valid'⟩ := second
  refine ⟨made' ++ made, by rw [log', log, List.append_assoc], ?_⟩
  intro access member
  rcases List.mem_append.mp member with later | earlier
  · exact valid' access later
  · exact valid access earlier

/-- An access through a window that shows its page, inside that page, is valid. -/
theorem windowAccess_valid {vm : Vm} {page : OpenPage} {offset length : Nat}
    (shows : vm.WindowOpen page) (inside : offset + length ≤ 4096) (stored : Option Nat) :
    (vm.windowAccess page offset length stored).Valid :=
  ⟨shows.2, shows.1, inside⟩

end Vm

open Vm

/-- A stop that is no heap check and has left the log of accesses alone. -/
def LogKept (log : List WindowAccess) (stop : Halt) (last : Vm) : Prop :=
  stop.heapCheck = false ∧ last.accesses = log

theorem monAssert_keeps {inv : Vm → Prop} {stopped : Halt → Vm → Prop} {holds : Bool}
    {expression : String} (stops : ∀ vm, inv vm → stopped (.assertion expression) vm) :
    Keeps inv stopped (monAssert holds expression) := by
  unfold monAssert
  split
  · exact .pure
  · exact .throw stops

private theorem hostHandlePagePinRequest_log (log : List WindowAccess) (ppi : Bit32u) :
    Keeps (fun vm => vm.accesses = log) (LogKept log) (hostHandlePagePinRequest ppi) := by
  intro vm same
  have room := vm.withRoom_same.2.1
  rw [hostHandlePagePinRequest_apply]
  cases vm.setup.os.getAndPinUserPage vm.withRoom.hostCalls.length (vm.setup.userAddr ppi) <;>
    simpa [room] using same

theorem getHostOSPinnedPage_log (log : List WindowAccess) (ppi : Bit32u) :
    Keeps (fun vm => vm.accesses = log) (LogKept log) (getHostOSPinnedPage ppi) := by
  have asserted {holds : Bool} {expression : String} :
      Keeps (fun vm => vm.accesses = log) (LogKept log) (monAssert holds expression) :=
    monAssert_keeps fun vm same => ⟨rfl, same⟩
  have requested : Keeps (fun vm => vm.accesses = log) (LogKept log) (toHostPinUserPage ppi) := by
    apply Keeps.bind
    · exact .modify fun vm same => same
    intro _
    apply Keeps.bind (hostHandlePagePinRequest_log log ppi)
    intro served
    apply Keeps.ite (fun granted => .pure)
    intro refused
    apply Keeps.bind
    · exact .modify fun vm same => same
    intro _
    exact .throw fun vm same => ⟨rfl, same⟩
  apply Keeps.get_bind
  intro now here
  apply Keeps.bind asserted
  intro _
  apply Keeps.ite (fun pinned => .pure)
  intro unpinned
  apply Keeps.bind requested
  intro _
  apply Keeps.get_bind
  intro later same
  apply Keeps.bind asserted
  intro _
  exact .pure

private theorem openGuestPhyPage_log (log : List WindowAccess) (ppi monOffset : Bit32u) :
    Keeps (fun vm => vm.accesses = log) (LogKept log) (openGuestPhyPage ppi monOffset) := by
  unfold openGuestPhyPage
  exact .get_bind fun now here => .bind (monAssert_keeps fun vm same => ⟨rfl, same⟩) fun _ =>
    .bind (getHostOSPinnedPage_log log ppi) fun base =>
      .bind (.modify fun vm same => same) fun _ => .pure

/-- What code that reaches into guest memory through fresh windows leaves behind. -/
def Reaches (start vm : Vm) : Prop := Settled start vm ∧ Careful start vm

/-- Where such code stops, no heap check has failed and every access was valid. -/
def ReachedStop (start : Vm) (stop : Halt) (last : Vm) : Prop :=
  stop.heapCheck = false ∧ Careful start last

/-- Code that only reaches into guest memory through fresh windows. -/
abbrev Accessor {α : Type} (start : Vm) (program : Mon α) : Prop :=
  Keeps (Reaches start) (ReachedStop start) program

theorem Accessor.panic_bind {α : Type} {start : Vm} {cond : Prop} [Decidable cond]
    {format : String} {args : List Bit32u} {rest : Unit → Mon α}
    (other : (Halt.monpanic format args).heapCheck = false)
    (second : ¬ cond → Accessor start (rest ())) :
    Accessor start (panicWhen cond format args >>= rest) :=
  panicWhen_bind (fun _ reached => ⟨other, reached.2⟩) second

/-- A freshly opened window shows its page until another one is opened. -/
theorem openGuestPhyPage_accessor {start : Vm} (ppi monOffset : Bit32u) :
    Ensures (Reaches start) (openGuestPhyPage ppi monOffset)
      (fun page vm => Reaches start vm ∧ vm.WindowOpen page ∧ page = ⟨monOffset, ppi⟩)
      (ReachedStop start) := by
  intro vm reached
  have logged := openGuestPhyPage_log vm.accesses ppi monOffset vm rfl
  cases run : openGuestPhyPage ppi monOffset vm with
  | ok page next =>
      rw [run] at logged
      obtain ⟨same, spec⟩ := openGuestPhyPage_ok run
      exact ⟨⟨reached.1.trans spec.settled, reached.2.trans ⟨[], logged, by simp⟩⟩,
        spec.window, same⟩
  | error stop last =>
      rw [run] at logged
      exact ⟨logged.1, reached.2.trans ⟨[], logged.2, by simp⟩⟩

theorem readWord_accessor {start : Vm} {width offset : Nat} {page : OpenPage}
    (inside : offset + width / 8 ≤ 4096) :
    Ensures (fun vm => Reaches start vm ∧ vm.WindowOpen page) (readWord width page offset)
      (fun _ vm => Reaches start vm ∧ vm.WindowOpen page) (ReachedStop start) := by
  rintro vm ⟨reached, shows⟩
  refine ⟨⟨reached.1.trans (Settled.memory vm _ _), reached.2.trans ⟨[_], rfl, ?_⟩⟩, shows⟩
  simpa using windowAccess_valid shows inside none

theorem writeWord_accessor {start : Vm} {width offset : Nat} {page : OpenPage}
    {word : BitVec width} (inside : offset + width / 8 ≤ 4096) :
    Ensures (fun vm => Reaches start vm ∧ vm.WindowOpen page) (writeWord page offset word)
      (fun _ vm => Reaches start vm ∧ vm.WindowOpen page) (ReachedStop start) := by
  rintro vm ⟨reached, shows⟩
  refine ⟨⟨reached.1.trans (Settled.memory vm _ _), reached.2.trans ⟨[_], rfl, ?_⟩⟩, shows⟩
  simpa using windowAccess_valid shows inside (some word.toNat)

/-- What code that also changes the processor's state leaves behind. -/
def Handles (start vm : Vm) : Prop := PagesSettled start vm ∧ Careful start vm

/-- Code that reaches into guest memory through fresh windows only, whatever it
does to the processor. -/
abbrev Handler {α : Type} (start : Vm) (program : Mon α) : Prop :=
  Keeps (Handles start) (ReachedStop start) program

theorem ReachedStop.trans {start middle last : Vm} {stop : Halt} (first : Careful start middle)
    (second : ReachedStop middle stop last) : ReachedStop start stop last :=
  ⟨second.1, first.trans second.2⟩

theorem accessor_ok {α : Type} {program : Mon α} (accessor : ∀ start, Accessor start program)
    {vm next : Vm} {value : α} (run : program vm = .ok value next) : Reaches vm next :=
  (accessor vm).returns ⟨.refl vm, .refl vm⟩ run

theorem accessor_handler {α : Type} {program : Mon α} (accessor : ∀ start, Accessor start program)
    {start : Vm} : Handler start program := by
  intro vm handled
  have result := accessor vm vm ⟨.refl vm, .refl vm⟩
  cases run : program vm with
  | ok value next =>
      rw [run] at result
      exact ⟨handled.1.trans result.1.pages, handled.2.trans result.2⟩
  | error stop last =>
      rw [run] at result
      exact ReachedStop.trans handled.2 result

/-- What pages and tables are made of, and what they depend on. -/
def Vm.pageState (vm : Vm) : Setup × Bit32u × Bit32u × Pins × (Nat → PageEntry) × Shadow ×
    List HostCall × List WindowAccess :=
  (vm.setup, vm.guestCpu.cr0, vm.guestCpu.cr3, vm.pins, vm.nexusPageTbl, vm.shadow, vm.hostCalls,
    vm.accesses)

/-- A change of the processor's state alone: the context, the privilege level, the
monitor's control registers, its GDT or the interrupt hardware. -/
theorem modify_handler {start : Vm} {change : Vm → Vm}
    (same : ∀ vm, (change vm).pageState = vm.pageState) :
    Handler start (modify change : Mon Unit) := by
  intro vm handled
  have unchanged := same vm
  simp only [Vm.pageState, Prod.mk.injEq] at unchanged
  obtain ⟨setup, cr0, cr3, pins, nexus, shadow, calls, accesses⟩ := unchanged
  exact ⟨handled.1.trans (.same setup cr0 cr3 pins nexus shadow calls),
    handled.2.trans ⟨[], by simpa using accesses, by simp⟩⟩

/-- Code that starts with a window it may read and write through. -/
abbrev WindowUser {α : Type} (start : Vm) (page : OpenPage) (program : Mon α) : Prop :=
  Ensures (fun vm => Reaches start vm ∧ vm.WindowOpen page) program
    (fun _ => Reaches start) (ReachedStop start)

theorem Accessor.open_bind {α : Type} {start : Vm} {ppi monOffset : Bit32u}
    {rest : OpenPage → Mon α}
    (second : WindowUser start ⟨monOffset, ppi⟩ (rest ⟨monOffset, ppi⟩)) :
    Accessor start (openGuestPhyPage ppi monOffset >>= rest) :=
  Ensures.bind (openGuestPhyPage_accessor ppi monOffset) fun page vm ⟨reached, shows, same⟩ => by
    subst same
    exact second vm ⟨reached, shows⟩

namespace WindowUser

variable {α : Type} {start : Vm} {page : OpenPage}

theorem read_bind {width offset : Nat} {rest : BitVec width → Mon α}
    (inside : offset + width / 8 ≤ 4096) (second : ∀ word, WindowUser start page (rest word)) :
    WindowUser start page (readWord width page offset >>= rest) :=
  Ensures.bind (readWord_accessor inside) second

theorem read {width offset : Nat} (inside : offset + width / 8 ≤ 4096) :
    WindowUser start page (readWord width page offset) :=
  Ensures.weaken (readWord_accessor inside) (fun _ holds => holds) (fun _ _ after => after.1)
    (fun _ _ stopped => stopped)

theorem write {width offset : Nat} {word : BitVec width} (inside : offset + width / 8 ≤ 4096) :
    WindowUser start page (writeWord page offset word) :=
  Ensures.weaken (writeWord_accessor inside) (fun _ holds => holds) (fun _ _ after => after.1)
    (fun _ _ stopped => stopped)

theorem panic_bind {cond : Prop} [Decidable cond] {format : String} {args : List Bit32u}
    {rest : Unit → Mon α} (other : (Halt.monpanic format args).heapCheck = false)
    (second : ¬ cond → WindowUser start page (rest ())) :
    WindowUser start page (panicWhen cond format args >>= rest) :=
  panicWhen_bind (fun _ reached => ⟨other, reached.1.2⟩) second

/-- Once the window is not used any more, the code is an accessor like any other. -/
theorem done {program : Mon α} (accessor : Accessor start program) :
    WindowUser start page program :=
  Ensures.weaken accessor (fun _ holds => holds.1) (fun _ _ after => after)
    (fun _ _ stopped => stopped)

end WindowUser

end Plex86
