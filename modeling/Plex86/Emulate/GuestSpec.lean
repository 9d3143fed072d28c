import Plex86.Emulate.Guest
import Plex86.Emulate.MemorySpec
import Plex86.Logic.Behaviour
import Plex86.Paging.WalkSpec

namespace Plex86

open Logic Vm

/-- The guest's pages cover its memory, which has at least one, and the host pins
whatever it is asked for. -/
structure Vm.Ready (vm : Vm) : Prop where
  sized : ∀ pAddr, pAddr < vm.setup.guestNBytes → pAddr >>> 12 < vm.setup.guestNPages
  large : 0x1000#32 ≤ vm.setup.guestNBytes
  willing : ∀ served userAddr, (vm.setup.os.getAndPinUserPage served userAddr).isSome = true

theorem Vm.Ready.same {vm other : Vm} (ready : vm.Ready) (setup : other.setup = vm.setup) :
    other.Ready := by
  refine ⟨?_, ?_, ?_⟩ <;> rw [setup]
  · exact ready.sized
  · exact ready.large
  · exact ready.willing

/-- What monitor code does to the guest. -/
abbrev Does {α : Type} (program : Mon α) (before : Vm) (able : Prop) (value : α) (after : Vm) :
    Prop :=
  Behaves Vm.core Vm.Ready program before able value after

theorem Vm.SameCpu.core {before after : Vm} (same : SameCpu before after)
    (mem : after.mem = before.mem) : after.core = before.core := by
  simp only [Vm.core, same.setup, same.guestCpu, same.context, same.guestCPL, same.monCr0,
    same.monCr4, same.gdt, same.intr, same.cyclesElapsed, same.picMaster, same.picSlave, same.pit,
    same.vmState, mem]

private theorem toHostPinUserPage_returns {vm : Vm} (ready : vm.Ready) (ppi : Bit32u) :
    ∃ page, toHostPinUserPage ppi vm = .ok () (vm.afterPin ppi page) := by
  let asking : Vm := { vm with monRequest := .pinUserPage, pinReqPPI := ppi }
  obtain ⟨page, answer⟩ := Option.isSome_iff_exists.mp
    (ready.willing asking.withRoom.hostCalls.length (vm.setup.userAddr ppi))
  have served : hostHandlePagePinRequest ppi asking = .ok true { asking.withRoom with
      hostCalls := .pinned (vm.setup.userAddr ppi) page :: asking.withRoom.hostCalls
      pins := asking.pinsAfter ppi page } := by
    rw [hostHandlePagePinRequest_apply]
    simp only [asking, answer, pinsAfter]
  have run : toHostPinUserPage ppi vm = .ok () { asking.withRoom with
      hostCalls := .pinned (vm.setup.userAddr ppi) page :: asking.withRoom.hostCalls
      pins := asking.pinsAfter ppi page } := by
    rw [toHostPinUserPage, modify_bind_apply, bind_apply, served]
    rfl
  obtain ⟨same, returned⟩ := toHostPinUserPage_ok run
  exact ⟨same, by rw [run, returned]⟩

/-- A willing host has every page pinned that the guest has. -/
theorem getHostOSPinnedPage_returns {vm : Vm} {ppi : Bit32u} (ready : vm.Ready)
    (inside : ppi < vm.setup.guestNPages) :
    ∃ frame next, getHostOSPinnedPage ppi vm = .ok frame next := by
  have bounded : decide (ppi < vm.setup.guestNPages) = true := decide_eq_true inside
  rw [getHostOSPinnedPage, get_bind_apply, bounded]
  change ∃ frame next, (if vm.pins.pinned ppi then _ else _ : Mon Frame) vm = .ok frame next
  rw [Logic.ite_apply]
  split
  · exact ⟨_, _, rfl⟩
  · next fresh =>
      obtain ⟨page, run⟩ := toHostPinUserPage_returns ready ppi
      have pinned : (vm.afterPin ppi page).pins.pinned ppi = true :=
        (afterPin_spec inside (by simpa using fresh)).pinned
      refine ⟨(vm.afterPin ppi page).pins.hostPPI ppi, vm.afterPin ppi page,
        bind_ok.mpr ⟨(), vm.afterPin ppi page, run, ?_⟩⟩
      rw [get_bind_apply, pinned]
      rfl

private theorem openGuestPhyPage_returns {ppi : Bit32u} {vm : Vm} (ready : vm.Ready)
    (inside : ppi < vm.setup.guestNPages) (monOffset : Bit32u) :
    ∃ page next, openGuestPhyPage ppi monOffset vm = .ok page next := by
  obtain ⟨frame, next, run⟩ := getHostOSPinnedPage_returns ready inside
  have bounded : decide (ppi < vm.setup.guestNPages) = true := decide_eq_true inside
  refine ⟨⟨monOffset, ppi⟩, { next with
    nexusPageTbl := Function.update next.nexusPageTbl (next.setup.windowPti monOffset)
      ((next.nexusPageTbl (next.setup.windowPti monOffset)).setBase frame) }, ?_⟩
  rw [openGuestPhyPage, get_bind_apply, bounded]
  exact bind_ok.mpr ⟨(), vm, rfl, bind_ok.mpr ⟨frame, next, run, rfl⟩⟩

/-- What code does with a window just opened, it does to the guest's page. -/
theorem Does.open_bind {α : Type} {ppi monOffset : Bit32u} {use : OpenPage → Mon α}
    {before after : Vm} {value : α} (stays : after.setup = before.setup)
    (uses : ∀ state, state.core = before → state.WindowOpen ⟨monOffset, ppi⟩ →
      ∃ next, use ⟨monOffset, ppi⟩ state = .ok value next ∧ next.core = after) :
    Does (openGuestPhyPage ppi monOffset >>= use) before (ppi < before.setup.guestNPages) value
      after where
  returned := by
    rintro state result last rfl run
    obtain ⟨page, opened, first, rest⟩ := bind_ok.mp run
    obtain ⟨rfl, spec⟩ := openGuestPhyPage_ok first
    obtain ⟨next, used, seen⟩ := uses opened (spec.pin.cpu.core spec.pin.mem) spec.window
    rw [used] at rest
    cases rest
    exact ⟨spec.pin.inBounds, rfl, seen⟩
  returns := by
    rintro ready inside state rfl
    have stateReady : state.Ready := ready.same rfl
    obtain ⟨page, opened, first⟩ := openGuestPhyPage_returns stateReady inside monOffset
    obtain ⟨rfl, spec⟩ := openGuestPhyPage_ok first
    obtain ⟨next, used, seen⟩ := uses opened (spec.pin.cpu.core spec.pin.mem) spec.window
    exact ⟨ready.same stays, value, next, bind_ok.mpr ⟨_, opened, first, used⟩⟩

theorem readWord_open {width : Nat} {page : OpenPage} {vm : Vm} (shows : vm.WindowOpen page)
    (offset : Nat) : readWord width page offset vm =
      .ok (loadWord width (vm.mem page.ppi) offset)
        { vm with accesses := vm.windowAccess page offset (width / 8) none :: vm.accesses } := by
  rw [← windowBytes_open shows]
  rfl

/-- Reading a word through a window just opened. -/
theorem Does.open_read {width offset : Nat} {ppi monOffset : Bit32u} {before : Vm} :
    Does (openGuestPhyPage ppi monOffset >>= fun page => readWord width page offset) before
      (ppi < before.setup.guestNPages) (loadWord width (before.mem ppi) offset) before := by
  refine Does.open_bind rfl fun state seen shows => ?_
  subst seen
  exact ⟨_, readWord_open shows offset, rfl⟩

theorem Does.open_read_bind {α : Type} {width offset : Nat} {ppi monOffset : Bit32u}
    {rest : BitVec width → Mon α} {before after : Vm} {able : Prop} {value : α}
    (second : Does (rest (loadWord width (before.mem ppi) offset)) before able value after) :
    Does (openGuestPhyPage ppi monOffset >>= fun page => readWord width page offset >>= rest) before
      (ppi < before.setup.guestNPages ∧ able) value after := by
  have first : Does (openGuestPhyPage ppi monOffset >>= fun page => readWord width page offset)
      before (ppi < before.setup.guestNPages) (loadWord width (before.mem ppi) offset) before :=
    Does.open_read
  have whole := first.bind fun _ => second
  rwa [bind_assoc] at whole

/-- Reading bytes through a window just opened. -/
theorem readBytes_open {page : OpenPage} {vm : Vm} (shows : vm.WindowOpen page)
    (offset count : Nat) : ∃ next, readBytes page offset count vm =
      .ok (bytesFrom (vm.mem page.ppi) offset count) next ∧ next.core = vm.core := by
  induction count generalizing offset vm with
  | zero => exact ⟨vm, rfl, rfl⟩
  | succ count inductionHypothesis =>
      let read : Vm := { vm with accesses := vm.windowAccess page offset 1 none :: vm.accesses }
      have still : read.WindowOpen page := shows
      obtain ⟨next, run, seen⟩ := inductionHypothesis still (offset + 1)
      refine ⟨next, ?_, seen⟩
      rw [readBytes, bind_apply, readWord_open shows offset]
      exact bind_ok.mpr ⟨_, next, run, rfl⟩

theorem Does.open_readBytes {offset count : Nat} {ppi monOffset : Bit32u} {before : Vm} :
    Does (openGuestPhyPage ppi monOffset >>= fun page => readBytes page offset count) before
      (ppi < before.setup.guestNPages) (bytesFrom (before.mem ppi) offset count) before := by
  refine Does.open_bind rfl fun state seen shows => ?_
  subst seen
  exact readBytes_open shows offset count

theorem Does.open_readBytes_bind {α : Type} {offset count : Nat} {ppi monOffset : Bit32u}
    {rest : List Bit8u → Mon α} {before after : Vm} {able : Prop} {value : α}
    (second : Does (rest (bytesFrom (before.mem ppi) offset count)) before able value after) :
    Does (openGuestPhyPage ppi monOffset >>= fun page => readBytes page offset count >>= rest) before
      (ppi < before.setup.guestNPages ∧ able) value after := by
  have first : Does (openGuestPhyPage ppi monOffset >>= fun page => readBytes page offset count)
      before (ppi < before.setup.guestNPages) (bytesFrom (before.mem ppi) offset count) before :=
    Does.open_readBytes
  have whole := first.bind fun _ => second
  rwa [bind_assoc] at whole

/-- Storing a word through a window just opened. -/
theorem Does.open_write {width offset : Nat} {ppi monOffset : Bit32u} {word : BitVec width}
    {before : Vm} :
    Does (openGuestPhyPage ppi monOffset >>= fun page => writeWord page offset word) before
      (ppi < before.setup.guestNPages) ()
      { before with
        mem := Function.update before.mem ppi (storeWord (before.mem ppi) offset word) } := by
  refine Does.open_bind rfl fun state seen shows => ?_
  subst seen
  refine ⟨_, rfl, ?_⟩
  simp only [Vm.core, windowTarget, shows, if_true]

theorem Does.panic_bind {α : Type} {cond : Prop} [Decidable cond] {format : String}
    {args : List Bit32u} {rest : Unit → Mon α} {before after : Vm} {able : Prop} {value : α}
    (second : ¬ cond → Does (rest ()) before able value after) :
    Does (panicWhen cond format args >>= rest) before (¬ cond ∧ able) value after :=
  Behaves.bind Behaves.guard second

/-- The last of the checks. -/
theorem Does.panic_last {α : Type} {cond : Prop} [Decidable cond] {format : String}
    {args : List Bit32u} {rest : Unit → Mon α} {before after : Vm} {value : α}
    (second : ¬ cond → Does (rest ()) before True value after) :
    Does (panicWhen cond format args >>= rest) before (¬ cond) value after :=
  (Does.panic_bind second).congr (by simp)

/-- Code that reads the state, but nothing that is not seen of the guest. -/
theorem Does.get_bind {α : Type} {rest : Vm → Mon α} {before after : Vm} {able : Prop} {value : α}
    (uses : ∀ state : Vm, rest state = rest state.core)
    (second : Does (rest before) before able value after) :
    Does (get >>= rest) before able value after := by
  refine Behaves.get_bind fun state seen => ?_
  rw [uses, seen]
  exact second

/-- A change of what is seen of the guest. -/
theorem Does.change {change : Vm → Vm} {before : Vm}
    (seen : ∀ state : Vm, (change state).core = change state.core)
    (setup : ∀ state : Vm, (change state).setup = state.setup) :
    Does (modify change) before True () (change before) :=
  Behaves.modify (fun state here => here ▸ seen state) fun ready => ready.same (setup before)

/-- The walk of the guest's tables finds what they say, and can always be made. -/
theorem translateLinToPhy_does (lAddr : Bit32u) (before : Vm) :
    Does (translateLinToPhy lAddr) before True (before.translated lAddr) before := by
  refine .get_bind (fun _ => rfl) ?_
  refine .answer (fun _ => .pure _ _) fun _ => .answer (fun _ => .pure _ _) fun _ =>
    .answer (fun _ => .pure _ _) fun inside => ?_
  refine Behaves.surely (Does.open_read_bind ?_) fun ready =>
    ⟨ready.sized _ (BitVec.not_le.mp inside), trivial⟩
  refine .answer (fun _ => .pure _ _) fun _ => .answer (fun _ => .pure _ _) fun inside => ?_
  refine Behaves.surely (Does.open_read_bind ?_) fun ready =>
    ⟨ready.sized _ (BitVec.not_le.mp inside), trivial⟩
  exact .answer (fun _ => .pure _ _) fun _ => .pure _ _

/-- A mapped address lies in a page of the guest. -/
theorem Vm.Mapped.page {vm : Vm} {lAddr room : Bit32u} (mapped : vm.Mapped lAddr room)
    (ready : vm.Ready) (some : 0#32 < room) (small : room ≤ 0x1000#32) :
    vm.translated lAddr >>> 12 < vm.setup.guestNPages := by
  have large := ready.large
  have fits := mapped.2
  refine ready.sized _ ?_
  bv_omega

/-- The part of an object in the page it starts in, and the rest. -/
theorem Vm.headLen_split {vm : Vm} {lAddr len : Bit32u} (small : len ≤ 0x1000#32)
    (crosses : ¬ vm.translated lAddr &&& 0xfff#32 ≤ 0x1000#32 - len) :
    0#32 < vm.headLen lAddr ∧ vm.headLen lAddr ≤ 0x1000#32 ∧ 0#32 < len - vm.headLen lAddr ∧
      len - vm.headLen lAddr ≤ 0x1000#32 := by
  have low : vm.translated lAddr &&& 0xfff#32 ≤ 0xfff#32 := by
    rw [BitVec.le_def, BitVec.toNat_and]
    exact Nat.and_le_right
  unfold headLen
  revert low crosses
  generalize vm.translated lAddr &&& 0xfff#32 = offset
  intro crosses low
  refine ⟨?_, ?_, ?_, ?_⟩ <;> bv_omega

theorem getObjectLAddr_does {lAddr len : Bit32u} (before : Vm) (some : 0#32 < len)
    (small : len ≤ 0x1000#32) :
    Does (getObjectLAddr lAddr len) before (before.ObjectMapped lAddr len)
      (before.objectAt lAddr len) before := by
  refine .get_bind (fun _ => rfl) ?_
  refine Behaves.seq (translateLinToPhy_does lAddr _) ?_
  refine Behaves.congr (Does.panic_bind fun available => Behaves.select
    (fun _ => Does.panic_last fun fits => ?inside) fun crosses =>
      Behaves.seq (translateLinToPhy_does _ _) (Does.panic_bind fun available' =>
        Does.panic_bind fun fits => Does.panic_last fun fits' => ?across)) ?same
  case inside =>
    have mapped : before.Mapped lAddr len := ⟨available, fits⟩
    split
    · next dword =>
        refine Behaves.surely (Does.open_read_bind ?_) fun ready =>
          ⟨mapped.page ready some small, trivial⟩
        exact .pure _ _
    · exact Does.open_readBytes.surely fun ready => mapped.page ready some small
  case across =>
    have first : before.Mapped lAddr (before.headLen lAddr) := ⟨available, fits⟩
    have second : before.Mapped (lAddr + before.headLen lAddr)
        (len - before.headLen lAddr) := ⟨available', fits'⟩
    obtain ⟨some', small', some'', small''⟩ := headLen_split small crosses
    refine Behaves.surely (Does.open_readBytes_bind (Does.open_readBytes_bind ?_)) fun ready =>
      ⟨first.page ready some' small', second.page ready some'' small'', trivial⟩
    exact .pure _ _
  case same =>
    unfold ObjectMapped
    by_cases within : before.translated lAddr &&& 0xfff#32 ≤ 0x1000#32 - len
    · rw [if_pos within, if_pos within]
      exact Iff.rfl
    · rw [if_neg within, if_neg within]
      exact ⟨fun ⟨available, available', fits, fits'⟩ => ⟨⟨available, fits⟩, available', fits'⟩,
        fun ⟨⟨available, fits⟩, available', fits'⟩ => ⟨available, available', fits, fits'⟩⟩

theorem getGuestDWord_does (lAddr : Bit32u) (before : Vm) :
    Does (getGuestDWord lAddr) before (before.WordMapped lAddr 4) (before.wordAt 32 lAddr 4)
      before := by
  refine .get_bind (fun _ => rfl) ?_
  refine .select (fun _ => ?_) fun _ => ?_
  · refine Behaves.seq (translateLinToPhy_does lAddr _) (Does.panic_bind fun available =>
      Does.panic_last fun fits => Does.open_read.surely fun ready => ?_)
    have mapped : before.Mapped lAddr 4 := ⟨available, fits⟩
    exact mapped.page ready (by decide) (by decide)
  · refine Behaves.congr (Behaves.bind (getObjectLAddr_does _ (by decide) (by decide)) fun _ =>
      Behaves.pure _ _) (by simp)

theorem getGuestWord_does (lAddr : Bit32u) (before : Vm) :
    Does (getGuestWord lAddr) before (before.WordMapped lAddr 2) (before.wordAt 16 lAddr 2)
      before := by
  refine .get_bind (fun _ => rfl) ?_
  refine .select (fun _ => ?_) fun _ => ?_
  · refine Behaves.seq (translateLinToPhy_does lAddr _) (Does.panic_bind fun available =>
      Does.panic_last fun fits => Does.open_read.surely fun ready => ?_)
    have mapped : before.Mapped lAddr 2 := ⟨available, fits⟩
    exact mapped.page ready (by decide) (by decide)
  · refine Behaves.congr (Behaves.bind (getObjectLAddr_does _ (by decide) (by decide)) fun _ =>
      Behaves.pure _ _) (by simp)

/-- An address some way before the end of memory lies in a page of the guest. -/
theorem Vm.Ready.below {vm : Vm} (ready : vm.Ready) {pAddr room : Bit32u}
    (fits : ¬ vm.setup.guestNBytes - room ≤ pAddr) (small : room ≤ 0x1000#32) :
    pAddr >>> 12 < vm.setup.guestNPages := by
  have large := ready.large
  refine ready.sized _ ?_
  bv_omega

theorem writeGuestDWord_does (lAddr val : Bit32u) (before : Vm) :
    Does (writeGuestDWord lAddr val) before (before.Storable lAddr) ()
      (before.stored lAddr val) := by
  refine .get_bind (fun _ => rfl) ?_
  exact Behaves.seq (translateLinToPhy_does lAddr _) (Does.panic_bind fun _ =>
    Does.panic_bind fun fits => Does.panic_last fun _ => Does.open_write.surely fun ready =>
      ready.below fits (by decide))

theorem fetchGuestDescByLAddr_does (laddr : Bit32u) (before : Vm) :
    Does (fetchGuestDescByLAddr laddr) before (before.DescMapped laddr) (before.descAt laddr)
      before := by
  refine .get_bind (fun _ => rfl) ?_
  refine Behaves.seq (translateLinToPhy_does laddr _) (Does.panic_bind fun _ =>
    Does.panic_bind fun _ => Does.panic_last fun fits =>
      Behaves.surely (Does.open_read_bind ?_) fun ready => ⟨ready.below fits (by decide), trivial⟩)
  exact .pure _ _

/-- A descriptor that is only read, not marked busy. -/
theorem fetchGuestDescBySel_does (sel : Selector) (before : Vm) :
    Does (fetchGuestDescBySel sel false) before (before.DescOK sel) (before.descOf sel) before := by
  refine .get_bind (fun _ => rfl) ?_
  simp only [Bool.false_eq_true, if_false]
  refine Behaves.congr (Does.panic_bind fun _ => Does.panic_bind fun _ => Does.panic_bind fun _ =>
    Behaves.seq (translateLinToPhy_does _ _) (Does.panic_bind fun _ => Does.panic_bind fun _ =>
      Does.panic_bind fun fits => Behaves.given (Does.open_read_bind (Does.panic_last fun _ =>
        ?read)) fun ready => ready.below fits (by decide))) ?same
  case read => exact .pure _ _
  case same =>
    constructor
    · rintro ⟨table, notNull, inside, available, aligned, fits, level⟩
      exact ⟨by simpa using table, by simpa using notNull, inside, ⟨available, aligned, fits⟩,
        not_not.mp level⟩
    · rintro ⟨table, notNull, inside, ⟨available, aligned, fits⟩, level⟩
      exact ⟨by simp [table], by simp [notNull], inside, available, aligned, fits,
        not_not.mpr level⟩

theorem checkGuestDesc_does (segno : SReg) (sel : Selector) (desc : Descriptor) (before : Vm) :
    Does (checkGuestDesc segno sel desc) before (before.SegmentAllowed segno sel desc) () before := by
  refine .get_bind (fun _ => rfl) ?_
  refine Behaves.congr (Behaves.permit (fun _ => Does.panic_bind fun _ => Does.panic_bind fun _ =>
    Behaves.guard) fun _ => Does.panic_bind fun _ => Behaves.guard) ?_
  unfold SegmentAllowed
  by_cases linux : before.setup.linuxVMMode = true
  · simp only [if_pos linux, ne_eq, not_not, not_and_or, Bool.not_eq_false]
  · simp only [if_neg linux, ne_eq, not_or, not_not, Bool.not_eq_false, and_assoc]

/-- Where the selector is not passed over, its descriptor goes into the monitor's GDT. -/
theorem guestSelectorUpdated_does (segno : SReg) (sel : Selector) (before : Vm) :
    Does (guestSelectorUpdated segno sel) before (Loads segno sel → before.SegmentOK segno sel) ()
      (before.withSegment segno sel) := by
  by_cases loads : Loads segno sel
  · have kept : segno = .cs ∨ sel.isNull = false := loads
    rw [guestSelectorUpdated, if_pos kept, withSegment, if_pos loads]
    refine .get_bind (fun _ => rfl) ?_
    refine Behaves.congr (Does.panic_bind fun _ => Does.panic_bind fun _ =>
      (fetchGuestDescByLAddr_does _ _).bind fun _ => (checkGuestDesc_does _ _ _ _).bind fun _ =>
        Does.change (fun _ => rfl) fun _ => rfl) ?same
    case same =>
      constructor
      · rintro ⟨valid, inside, mapped, allowed, -⟩ -
        exact ⟨by simpa using valid, inside, mapped, allowed⟩
      · intro holds
        obtain ⟨valid, inside, mapped, allowed⟩ := holds loads
        exact ⟨by simpa using valid, inside, mapped, allowed, trivial⟩
  · have passed : ¬ (segno = .cs ∨ sel.isNull = false) := loads
    rw [guestSelectorUpdated, if_neg passed, withSegment, if_neg loads]
    exact (Behaves.pure _ _).congr (by simp [loads])

end Plex86
