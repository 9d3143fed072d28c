import Plex86.Emulate.GuestBytes

namespace Plex86

open Logic Vm

/-- The host has just refused to pin a page, and the machine is given up for it. -/
def PinRefused (stop : Halt) (last : Vm) : Prop :=
  stop = .ioctlExecute 108 ∧ ∃ userAddr earlier, last.hostCalls = .refused userAddr :: earlier

/-- Able to go on, the code stops only where the host refuses a page. -/
abbrev Serves {α : Type} (program : Mon α) (before : Vm) (able : Prop) : Prop :=
  StopsFor Vm.core PinRefused program before able

private theorem toHostPinUserPage_stops {ppi : Bit32u} {vm last : Vm} {stop : Halt}
    (run : toHostPinUserPage ppi vm = .error stop last) : PinRefused stop last := by
  rw [toHostPinUserPage, modify_bind_apply, bind_apply, hostHandlePagePinRequest_apply] at run
  split at run
  · next served next request =>
      split at request
      · cases request
        cases run
        exact ⟨rfl, _, _, rfl⟩
      · cases request
        cases run
  · next request =>
      split at request <;> cases request

private theorem getHostOSPinnedPage_stops {ppi : Bit32u} {vm last : Vm} {stop : Halt}
    (inside : ppi < vm.setup.guestNPages)
    (run : getHostOSPinnedPage ppi vm = .error stop last) : PinRefused stop last := by
  have bounded : decide (ppi < vm.setup.guestNPages) = true := decide_eq_true inside
  rw [getHostOSPinnedPage, get_bind_apply, bounded] at run
  change (if vm.pins.pinned ppi then _ else _ : Mon Frame) vm = .error stop last at run
  rw [Logic.ite_apply] at run
  split at run
  · cases run
  · next fresh =>
      rcases bind_error.mp run with stopped | ⟨_, next, asked, stopped⟩
      · exact toHostPinUserPage_stops stopped
      · -- a page that the host has pinned is marked so
        obtain ⟨page, rfl⟩ := toHostPinUserPage_ok asked
        have pinned : (vm.afterPin ppi page).pins.pinned ppi = true :=
          (afterPin_spec inside (by simpa using fresh)).pinned
        rw [get_bind_apply, pinned] at stopped
        cases stopped

private theorem openGuestPhyPage_stops {ppi monOffset : Bit32u} {vm last : Vm} {stop : Halt}
    (inside : ppi < vm.setup.guestNPages)
    (run : openGuestPhyPage ppi monOffset vm = .error stop last) : PinRefused stop last := by
  have bounded : decide (ppi < vm.setup.guestNPages) = true := decide_eq_true inside
  rw [openGuestPhyPage, get_bind_apply, bounded] at run
  change (getHostOSPinnedPage ppi >>= _ : Mon OpenPage) vm = .error stop last at run
  rcases bind_error.mp run with stopped | ⟨frame, next, pinned, stopped⟩
  · exact getHostOSPinnedPage_stops inside stopped
  · cases stopped

section Windows

variable {α : Type} {ppi monOffset : Bit32u} {before : Vm} {able : Prop}

/-- Code that cannot stop once its window is open. -/
theorem Serves.open_bind {use : OpenPage → Mon α} (inside : able → ppi < before.setup.guestNPages)
    (uses : ∀ state, state.core = before → state.WindowOpen ⟨monOffset, ppi⟩ →
      ∃ value next, use ⟨monOffset, ppi⟩ state = .ok value next) :
    Serves (openGuestPhyPage ppi monOffset >>= use) before able := by
  rintro state stop last rfl can run
  rcases bind_error.mp run with stopped | ⟨page, opened, first, stopped⟩
  · have here : ppi < state.setup.guestNPages := inside can
    exact openGuestPhyPage_stops here stopped
  · obtain ⟨rfl, spec⟩ := openGuestPhyPage_ok first
    obtain ⟨value, next, used⟩ := uses opened (spec.pin.cpu.core spec.pin.mem) spec.window
    rw [used] at stopped
    cases stopped

theorem Serves.open_read {width offset : Nat} (inside : able → ppi < before.setup.guestNPages) :
    Serves (openGuestPhyPage ppi monOffset >>= fun page => readWord width page offset) before able :=
  .open_bind inside fun _ _ _ => ⟨_, _, rfl⟩

theorem Serves.open_read_bind {width offset : Nat} {rest : BitVec width → Mon α}
    (inside : able → ppi < before.setup.guestNPages)
    (second : Serves (rest (loadWord width (before.mem ppi) offset)) before able) :
    Serves (openGuestPhyPage ppi monOffset >>= fun page => readWord width page offset >>= rest)
      before able := by
  have first : Serves (openGuestPhyPage ppi monOffset >>= fun page => readWord width page offset)
      before able := .open_read inside
  have whole := first.bind Does.open_read second
  rwa [bind_assoc] at whole

theorem Serves.open_readBytes {offset count : Nat} (inside : able → ppi < before.setup.guestNPages) :
    Serves (openGuestPhyPage ppi monOffset >>= fun page => readBytes page offset count) before
      able :=
  .open_bind inside fun _ _ shows =>
    have ⟨next, run, _⟩ := readBytes_open shows offset count
    ⟨_, next, run⟩

theorem Serves.open_readBytes_bind {offset count : Nat} {rest : List Bit8u → Mon α}
    (inside : able → ppi < before.setup.guestNPages)
    (second : Serves (rest (bytesFrom (before.mem ppi) offset count)) before able) :
    Serves (openGuestPhyPage ppi monOffset >>= fun page => readBytes page offset count >>= rest)
      before able := by
  have first : Serves (openGuestPhyPage ppi monOffset >>= fun page => readBytes page offset count)
      before able := .open_readBytes inside
  have whole := first.bind Does.open_readBytes second
  rwa [bind_assoc] at whole

/-- Code that reads the state, but nothing that is not seen of the guest. -/
theorem Serves.get_bind {rest : Vm → Mon α} (uses : ∀ state : Vm, rest state = rest state.core)
    (second : Serves (rest before) before able) : Serves (get >>= rest) before able := by
  refine StopsFor.get_bind fun state seen => ?_
  rw [uses, seen]
  exact second

theorem Serves.panic_bind {cond : Prop} [Decidable cond] {format : String} {args : List Bit32u}
    {rest : Unit → Mon α} (passes : able → ¬ cond)
    (second : ¬ cond → Serves (rest ()) before able) :
    Serves (panicWhen cond format args >>= rest) before able := by
  by_cases failed : cond
  · exact fun _ _ _ _ can => absurd failed (passes can)
  · have checks : Does (panicWhen cond format args) before (¬ cond) .unit before := Behaves.guard
    exact StopsFor.bind (.guard passes) checks (second failed)

end Windows

/-- The pages of the guest cover its memory. -/
theorem Setup.Paged.inside {setup : Setup} (paged : setup.Paged) {pAddr : Bit32u}
    (below : pAddr < setup.guestNBytes) : pAddr >>> 12 < setup.guestNPages := by
  have bytes := paged.bytes
  have bound := BitVec.lt_def.mp below
  rw [BitVec.lt_def, BitVec.toNat_ushiftRight, Nat.shiftRight_eq_div_pow]
  omega

theorem Setup.Paged.large {setup : Setup} (paged : setup.Paged) :
    4096 ≤ setup.guestNBytes.toNat := by
  have bytes := paged.bytes
  have pages := paged.pages
  omega

private theorem translateLinToPhy_serves (lAddr : Bit32u) (before : Vm) :
    Serves (translateLinToPhy lAddr) before before.setup.Paged := by
  refine Serves.get_bind (fun _ => rfl) ?_
  refine .ite (fun _ => .pure) fun _ => .ite (fun _ => .pure) fun _ =>
    .ite (fun _ => .pure) fun inside => ?_
  refine Serves.open_read_bind (fun paged => paged.inside (BitVec.not_le.mp inside)) ?_
  refine .ite (fun _ => .pure) fun _ => .ite (fun _ => .pure) fun inside => ?_
  refine Serves.open_read_bind (fun paged => paged.inside (BitVec.not_le.mp inside)) ?_
  exact .ite (fun _ => .pure) fun _ => .pure

/-- What is mapped with room to spare is in memory. -/
theorem Vm.Mapped.below {vm : Vm} {lAddr room : Bit32u} (mapped : vm.Mapped lAddr room)
    (paged : vm.setup.Paged) (nonempty : 0#32 < room) (small : room ≤ 0x1000#32) :
    vm.translated lAddr < vm.setup.guestNBytes := by
  have large := paged.large
  have fits := mapped.2
  have enough : room ≤ vm.setup.guestNBytes := by
    rw [BitVec.le_def] at small ⊢
    exact Nat.le_trans small large
  bv_omega

/-- The object can be fetched, and the page it begins in can be reached. -/
structure Vm.Fetchable (vm : Vm) (lAddr len : Bit32u) : Prop where
  paged : vm.setup.Paged
  mapped : vm.ObjectMapped lAddr len
  first : vm.translated lAddr < vm.setup.guestNBytes

private theorem getObjectLAddr_serves {lAddr len : Bit32u} (before : Vm) (small : len ≤ 0x1000#32) :
    Serves (getObjectLAddr lAddr len) before (before.Fetchable lAddr len) := by
  refine Serves.get_bind (fun _ => rfl) ?_
  refine ((translateLinToPhy_serves lAddr before).mono Fetchable.paged).bind
    (translateLinToPhy_does lAddr before) ?_
  have available : before.Fetchable lAddr len → before.translated lAddr ≠ linAddrNotAvailable := by
    intro can missing
    have mapped := can.mapped
    unfold ObjectMapped at mapped
    split at mapped
    · exact mapped.1 missing
    · exact mapped.1.1 missing
  refine Serves.panic_bind (fun can => available can) fun _ => .ite (fun within => ?_) fun crosses => ?_
  · -- the object lies in one page
    have here : before.Fetchable lAddr len → before.Mapped lAddr len := fun can => by
      have mapped := can.mapped
      rwa [ObjectMapped, if_pos within] at mapped
    refine Serves.panic_bind (fun can => (here can).2) fun _ => ?_
    have inside : before.Fetchable lAddr len →
        before.translated lAddr >>> 12 < before.setup.guestNPages :=
      fun can => can.paged.inside can.first
    split
    · exact Serves.open_read_bind inside .pure
    · exact Serves.open_readBytes inside
  · -- it goes on in the next page
    obtain ⟨nonempty, fits, nonempty', fits'⟩ := headLen_split small crosses
    have both : before.Fetchable lAddr len → before.Mapped lAddr (before.headLen lAddr) ∧
        before.Mapped (lAddr + before.headLen lAddr) (len - before.headLen lAddr) := fun can => by
      have mapped := can.mapped
      rwa [ObjectMapped, if_neg crosses] at mapped
    refine ((translateLinToPhy_serves _ before).mono Fetchable.paged).bind
      (translateLinToPhy_does _ before) ?_
    refine Serves.panic_bind (fun can => (both can).2.1) fun _ =>
      Serves.panic_bind (fun can => (both can).1.2) fun _ =>
        Serves.panic_bind (fun can => (both can).2.2) fun _ => ?_
    refine Serves.open_readBytes_bind (fun can => can.paged.inside can.first)
      (Serves.open_readBytes_bind (fun can => can.paged.inside ?_) .pure)
    exact (both can).2.below can.paged nonempty' fits'

/-- An object that is there, byte by byte, can be fetched. -/
theorem Vm.fetchable_of {vm : Vm} {lAddr len : Bit32u} (paged : vm.setup.Paged)
    (small : len.toNat ≤ 4096)
    (all : ∀ index < max len.toNat 1, vm.Available (lAddr + BitVec.ofNat 32 index)) :
    vm.Fetchable lAddr len := by
  have first := all 0 (by omega)
  rw [add_zero_offset] at first
  refine ⟨paged, ?_, first.2⟩
  by_cases nonempty : 0 < len.toNat
  · rw [objectMapped_iff paged.large nonempty small]
    exact fun index below => all index (by omega)
  · obtain rfl : len = 0#32 := BitVec.eq_of_toNat_eq (by simp; omega)
    have within : vm.translated lAddr &&& 0xfff#32 ≤ 0x1000#32 - 0#32 :=
      (inPage_iff (by decide)).mpr (Nat.le_of_lt (pageOffset_lt _))
    rw [ObjectMapped, if_pos within, Mapped, BitVec.sub_zero]
    exact ⟨first.1, fun beyond => absurd (BitVec.lt_def.mp beyond)
      (Nat.not_lt_of_gt (BitVec.lt_def.mp first.2))⟩

section Words

variable {lAddr len window : Bit32u} {width offset : Nat} {before : Vm}

/-- The part of the word accessors for a word in one page. -/
theorem Serves.word_inPage {format format' : String} {args : List Bit32u}
    {args' : Bit32u → List Bit32u} (inside : InPage lAddr len) (nonempty : 0#32 < len)
    (small : len ≤ 0x1000#32) :
    Serves (translateLinToPhy lAddr >>= fun pAddr =>
      panicWhen (pAddr = linAddrNotAvailable) format args >>= fun _ =>
        panicWhen (before.setup.guestNBytes - len < pAddr) format' (args' pAddr) >>= fun _ =>
          openGuestPhyPage (pAddr >>> 12) window >>= fun page => readWord width page offset) before
      (before.setup.Paged ∧ before.WordMapped lAddr len) := by
  have mapped : before.setup.Paged ∧ before.WordMapped lAddr len → before.Mapped lAddr len := by
    rintro ⟨-, word⟩
    rwa [WordMapped, if_pos inside] at word
  refine ((translateLinToPhy_serves lAddr before).mono And.left).bind
    (translateLinToPhy_does lAddr before) ?_
  refine Serves.panic_bind (fun can => (mapped can).1) fun _ =>
    Serves.panic_bind (fun can => (mapped can).2) fun _ => Serves.open_read fun can => ?_
  exact can.1.inside ((mapped can).below can.1 nonempty small)

/-- Their part for a word in two pages. -/
theorem Serves.word_across {read : List Bit8u → BitVec width} (crosses : ¬ InPage lAddr len)
    (nonempty : 0#32 < len) (small : len ≤ 0x1000#32) :
    Serves (getObjectLAddr lAddr len >>= fun bytes => pure (read bytes)) before
      (before.setup.Paged ∧ before.WordMapped lAddr len) := by
  refine ((getObjectLAddr_serves before small).mono ?_).bind
    (getObjectLAddr_does before nonempty small) .pure
  rintro ⟨paged, word⟩
  have some : 0 < len.toNat := BitVec.lt_def.mp nonempty
  have fits : len.toNat ≤ 4096 := BitVec.le_def.mp small
  rw [WordMapped, if_neg crosses, objectMapped_iff paged.large some fits] at word
  exact fetchable_of paged fits fun index below => word index (by omega)

end Words

private theorem getGuestDWord_serves (lAddr : Bit32u) (before : Vm) :
    Serves (getGuestDWord lAddr) before (before.setup.Paged ∧ before.WordMapped lAddr 4) :=
  Serves.get_bind (fun _ => rfl)
    (.ite (fun inside => Serves.word_inPage inside (by decide) (by decide)) fun crosses =>
      Serves.word_across crosses (by decide) (by decide))

private theorem getGuestWord_serves (lAddr : Bit32u) (before : Vm) :
    Serves (getGuestWord lAddr) before (before.setup.Paged ∧ before.WordMapped lAddr 2) :=
  Serves.get_bind (fun _ => rfl)
    (.ite (fun inside => Serves.word_inPage inside (by decide) (by decide)) fun crosses =>
      Serves.word_across crosses (by decide) (by decide))

/-- An empty object is fetched where the byte at its address could be. -/
theorem emptyObject_does {before : Vm} (paged : before.setup.Paged) (lAddr : Bit32u) :
    Does (getObjectLAddr lAddr 0#32) before (before.Available lAddr) [] before := by
  have within : before.translated lAddr &&& 0xfff#32 ≤ 0x1000#32 - 0#32 :=
    (inPage_iff (by decide)).mpr (Nat.le_of_lt (pageOffset_lt _))
  refine Does.get_bind (fun _ => rfl) ?_
  refine Behaves.seq (translateLinToPhy_does lAddr _) ?_
  dsimp only
  rw [if_pos within]
  refine Behaves.congr (Does.panic_bind fun _ => Does.panic_bind fun _ => Does.open_readBytes) ?_
  constructor
  · rintro ⟨available, -, page⟩
    refine ⟨available, ?_⟩
    have bytes := paged.bytes
    have here := page_offset_toNat (before.translated lAddr)
    have low := pageOffset_lt (before.translated lAddr)
    have bound := BitVec.lt_def.mp page
    rw [BitVec.lt_def]
    omega
  · intro available
    refine ⟨available.1, ?_, paged.inside available.2⟩
    rw [BitVec.sub_zero, BitVec.not_lt]
    exact BitVec.le_of_lt available.2

/-- What fetching a value of some bytes from an address comes to. -/
def Vm.Fetches {α : Type} (vm : Vm) (lAddr : Bit32u) (count : Nat) (value : α) :
    EStateM.Result Halt Vm α → Prop
  | .ok found next => (∀ index < count, vm.Available (lAddr + BitVec.ofNat 32 index)) ∧
      found = value ∧ next.core = vm.core
  | .error stop last =>
      (∃ index < count, ¬ vm.Available (lAddr + BitVec.ofNat 32 index)) ∨ PinRefused stop last

private theorem Vm.fetches_of {α : Type} {program : Mon α} {vm : Vm} {lAddr : Bit32u} {count : Nat}
    {able able' : Prop} {value value' : α} (does : Does program vm.core able value vm.core)
    (serves : Serves program vm.core able')
    (all : able → ∀ index < count, vm.Available (lAddr + BitVec.ofNat 32 index))
    (enough : (∀ index < count, vm.Available (lAddr + BitVec.ofNat 32 index)) → able')
    (shows : able → value = value') : vm.Fetches lAddr count value' (program vm) := by
  cases run : program vm with
  | ok found next =>
      obtain ⟨can, same, seen⟩ := does.returned vm found next rfl run
      exact ⟨all can, same.trans (shows can), seen⟩
  | error stop last =>
      by_cases there : ∀ index < count, vm.Available (lAddr + BitVec.ofNat 32 index)
      · exact .inr (serves vm stop last rfl (enough there) run)
      · exact .inl (by simpa using there)

section Fetch

variable {vm : Vm} (paged : vm.setup.Paged) (lAddr : Bit32u)
include paged

theorem translateLinToPhy_fetches :
    vm.Fetches lAddr 0 (vm.translated lAddr) (translateLinToPhy lAddr vm) := by
  have serves : Serves (translateLinToPhy lAddr) vm.core True :=
    (translateLinToPhy_serves lAddr vm.core).mono fun _ => paged
  exact fetches_of (translateLinToPhy_does lAddr vm.core) serves (fun _ => nofun)
    (fun _ => trivial) fun _ => rfl

private theorem getObjectLAddr_fetches {len : Bit32u} (small : len.toNat ≤ 4096) :
    vm.Fetches lAddr (max len.toNat 1) (vm.bytesAt lAddr len.toNat) (getObjectLAddr lAddr len vm) := by
  have enough : (∀ index < max len.toNat 1, vm.Available (lAddr + BitVec.ofNat 32 index)) →
      vm.Fetchable lAddr len := fetchable_of paged small
  have serves : Serves (getObjectLAddr lAddr len) vm.core (vm.Fetchable lAddr len) :=
    (getObjectLAddr_serves vm.core small).mono fun can => ⟨can.paged, can.mapped, can.first⟩
  by_cases nonempty : 0 < len.toNat
  · have most : max len.toNat 1 = len.toNat := by omega
    have mapped : vm.ObjectMapped lAddr len ↔ _ := objectMapped_iff paged.large nonempty small
    rw [most] at enough ⊢
    exact fetches_of (getObjectLAddr_does vm.core (BitVec.lt_def.mpr nonempty) small) serves
      mapped.mp enough (objectAt_eq small)
  · obtain rfl : len = 0#32 := BitVec.eq_of_toNat_eq (by simp; omega)
    have corePaged : vm.core.setup.Paged := paged
    have does : Does (getObjectLAddr lAddr 0#32) vm.core (vm.Available lAddr) [] vm.core :=
      emptyObject_does corePaged lAddr
    refine fetches_of does serves ?_ enough fun _ => rfl
    intro available index below
    obtain rfl : index = 0 := by simp at below; exact below
    rw [add_zero_offset]
    exact available

private theorem word_fetches {width : Nat} {len : Bit32u} {program : Mon (BitVec width)}
    (bytes : len.toNat = width / 8) (nonempty : 0 < len.toNat) (small : len.toNat ≤ 4096)
    (does : Does program vm.core (vm.WordMapped lAddr len) (vm.wordAt width lAddr len) vm.core)
    (serves : Serves program vm.core (vm.setup.Paged ∧ vm.WordMapped lAddr len)) :
    vm.Fetches lAddr len.toNat (BitVec.ofNat width (numberOf (vm.bytesAt lAddr len.toNat)))
      (program vm) := by
  have mapped : vm.WordMapped lAddr len ↔ _ := wordMapped_iff paged.large nonempty small
  exact fetches_of does serves mapped.mp (fun all => ⟨paged, mapped.mpr all⟩) (wordAt_eq small bytes)

private theorem getGuestDWord_fetches : vm.Fetches lAddr 4
    (BitVec.ofNat 32 (numberOf (vm.bytesAt lAddr 4))) (getGuestDWord lAddr vm) := by
  have four : (4#32).toNat = 32 / 8 := rfl
  exact word_fetches paged lAddr four (by decide) (by decide)
    (getGuestDWord_does lAddr vm.core) (getGuestDWord_serves lAddr vm.core)

private theorem getGuestWord_fetches : vm.Fetches lAddr 2
    (BitVec.ofNat 16 (numberOf (vm.bytesAt lAddr 2))) (getGuestWord lAddr vm) := by
  have two : (2#32).toNat = 16 / 8 := rfl
  exact word_fetches paged lAddr two (by decide) (by decide)
    (getGuestWord_does lAddr vm.core) (getGuestWord_serves lAddr vm.core)

end Fetch

/-- The four bytes of a dword have been stored, and nothing else has changed. -/
structure Vm.DwordStored (vm : Vm) (lAddr val : Bit32u) (next : Vm) : Prop where
  bytes : ∀ index < 4, next.mem (vm.place (lAddr + BitVec.ofNat 32 index)).1
    (vm.place (lAddr + BitVec.ofNat 32 index)).2 = val.extractLsb' (8 * index) 8
  others : ∀ page offset, (∀ index < 4, vm.place (lAddr + BitVec.ofNat 32 index) ≠ (page, offset)) →
    next.mem page offset = vm.mem page offset
  rest : next.core = { vm with mem := next.mem }.core

private theorem storeWord_byte (bytes : Bytes) (offset : Nat) (val : Bit32u) {index : Nat}
    (below : index < 4) : storeWord bytes offset val (offset + index) = val.extractLsb' (8 * index) 8 := by
  have power : 256 ^ index = 2 ^ (8 * index) := by
    rw [Nat.pow_mul]
  have shift : offset + index - offset = index := by omega
  rw [storeWord, store, if_pos (by omega), shift, power]
  apply BitVec.eq_of_toNat_eq
  rw [BitVec.toNat_ofNat, BitVec.extractLsb'_toNat, Nat.shiftRight_eq_div_pow]

/-- What storing makes of memory, said of the bytes. -/
theorem Vm.stored_dwordStored {vm next : Vm} {lAddr val ppi : Bit32u}
    (found : vm.pageOf lAddr = some ppi) (within : pageOffset lAddr + 4 ≤ 4096)
    (after : next.core = (vm.stored lAddr val).core) : vm.DwordStored lAddr val next := by
  have small := pageOf_small found
  have page : vm.translated lAddr >>> 12 = ppi := by
    rw [translated_some found, atPage_page _ small]
  have offset : pageOffset (vm.translated lAddr) = pageOffset lAddr := by
    rw [translated_some found, atPage_offset _ small]
  have mem : next.mem = Function.update vm.mem ppi (storeWord (vm.mem ppi) (pageOffset lAddr) val) := by
    have same := congrArg Vm.mem after
    change next.mem = (vm.stored lAddr val).mem at same
    rw [same, stored]
    dsimp only
    rw [page, offset]
  refine ⟨fun index below => ?_, fun other place apart => ?_, ?_⟩
  · rw [place_offset found (by omega), mem, Function.update_self]
    exact storeWord_byte _ _ _ below
  · rw [mem]
    by_cases here : other = ppi
    · subst here
      rw [Function.update_self, storeWord, store_outside]
      by_contra between
      have near : place - pageOffset lAddr < 4 := by omega
      refine apart _ near ?_
      rw [place_offset found (by omega)]
      exact Prod.ext rfl (by dsimp only; omega)
    · rw [Function.update_of_ne here]
  · have same := congrArg Vm.mem after
    change next.mem = (vm.stored lAddr val).mem at same
    rw [after, same]
    rfl

/-- A byte of the two table entries that the walk for an address reads. -/
def Vm.Walked (vm : Vm) (lAddr : Bit32u) (byte : Bit32u × Nat) : Prop :=
  let pdeAddr := pdeAddrOf vm.guestCpu.cr3 lAddr
  let pteAddr := pteAddrOf (vm.physWord 32 pdeAddr) lAddr
  vm.guestCpu.pg = true ∧ ∃ index < 4,
    byte = (pdeAddr >>> 12, pageOffset pdeAddr + index) ∨
      byte = (pteAddr >>> 12, pageOffset pteAddr + index)

section Stored

variable {vm next : Vm} {lAddr val : Bit32u}

theorem Vm.DwordStored.setup (stored : vm.DwordStored lAddr val next) : next.setup = vm.setup := by
  change next.core.setup = vm.setup
  rw [stored.rest]
  rfl

theorem Vm.DwordStored.guestCpu (stored : vm.DwordStored lAddr val next) :
    next.guestCpu = vm.guestCpu := by
  change next.core.guestCpu = vm.guestCpu
  rw [stored.rest]
  rfl

/-- A word of memory that shares no byte with a dword that is stored. -/
theorem Vm.DwordStored.physWord_eq (stored : vm.DwordStored lAddr val next) {pAddr : Bit32u}
    (apart : ∀ index < 4, ∀ other < 4, vm.place (lAddr + BitVec.ofNat 32 index) ≠
      (pAddr >>> 12, pageOffset pAddr + other)) : next.physWord 32 pAddr = vm.physWord 32 pAddr := by
  unfold physWord
  apply loadWord_congr
  intro place low high
  apply stored.others
  intro index below same
  refine apart index below (place - pageOffset pAddr) (by omega) ?_
  rw [same, show pageOffset pAddr + (place - pageOffset pAddr) = place by omega]

/-- Where it shares none with the entries of its own walk, the tables say what they said. -/
theorem Vm.DwordStored.pageOf_eq (stored : vm.DwordStored lAddr val next)
    (apart : ∀ index < 4, ¬ vm.Walked lAddr (vm.place (lAddr + BitVec.ofNat 32 index))) :
    next.pageOf lAddr = vm.pageOf lAddr := by
  unfold pageOf
  rw [stored.guestCpu, stored.setup]
  by_cases paging : vm.guestCpu.pg = true
  · let pdeAddr := pdeAddrOf vm.guestCpu.cr3 lAddr
    have directory : next.physWord 32 pdeAddr = vm.physWord 32 pdeAddr :=
      stored.physWord_eq fun index below other small same =>
        apart index below ⟨paging, other, small, .inl same⟩
    let pteAddr := pteAddrOf (vm.physWord 32 pdeAddr) lAddr
    have table : next.physWord 32 pteAddr = vm.physWord 32 pteAddr :=
      stored.physWord_eq fun index below other small same =>
        apart index below ⟨paging, other, small, .inr same⟩
    simp only [pdeAddr] at directory
    simp only [pteAddr, pdeAddr] at table
    simp only [directory, table]
  · rw [if_pos paging, if_pos paging]

theorem Vm.DwordStored.translated_eq (stored : vm.DwordStored lAddr val next)
    (apart : ∀ index < 4, ¬ vm.Walked lAddr (vm.place (lAddr + BitVec.ofNat 32 index)))
    (within : pageOffset lAddr + 4 ≤ 4096) {index : Nat} (below : index < 4) :
    next.translated (lAddr + BitVec.ofNat 32 index) =
      vm.translated (lAddr + BitVec.ofNat 32 index) := by
  have page : (lAddr + BitVec.ofNat 32 index) >>> 12 = lAddr >>> 12 := offset_page (by omega)
  rw [Vm.translated_eq next, Vm.translated_eq vm, next.pageOf_congr page, vm.pageOf_congr page,
    stored.pageOf_eq apart]

private theorem numberOf_dwordBytes (val : Bit32u) :
    BitVec.ofNat 32 (numberOf (dwordBytes val)) = val := by
  have small := val.isLt
  apply BitVec.eq_of_toNat_eq
  simp only [numberOf, dwordBytes, List.foldr, BitVec.extractLsb'_toNat, BitVec.toNat_ofNat,
    Nat.shiftRight_eq_div_pow, Nat.reducePow]
  omega

/-- The dword stored is the dword that is there. -/
theorem Vm.DwordStored.bytesAt_eq (stored : vm.DwordStored lAddr val next)
    (apart : ∀ index < 4, ¬ vm.Walked lAddr (vm.place (lAddr + BitVec.ofNat 32 index)))
    (within : pageOffset lAddr + 4 ≤ 4096) : next.bytesAt lAddr 4 = dwordBytes val := by
  have byte : ∀ index < 4, next.byteAt (lAddr + BitVec.ofNat 32 index) =
      val.extractLsb' (8 * index) 8 := by
    intro index below
    rw [byteAt, place, stored.translated_eq apart within below]
    exact stored.bytes index below
  have all : next.bytesAt lAddr 4 =
      (List.range 4).map fun index => val.extractLsb' (8 * index) 8 :=
    List.map_congr_left fun index member => byte index (List.mem_range.mp member)
  rw [all]
  rfl

end Stored

private theorem writeGuestDWord_stores {vm next : Vm} {lAddr val : Bit32u} (paged : vm.setup.Paged)
    (run : writeGuestDWord lAddr val vm = .ok () next) :
    pageOffset lAddr + 4 ≤ 4096 ∧ (∀ index < 4, vm.Available (lAddr + BitVec.ofNat 32 index)) ∧
      vm.DwordStored lAddr val next := by
  obtain ⟨can, -, after⟩ := (writeGuestDWord_does lAddr val vm.core).ok run
  obtain ⟨within, available⟩ : _ ∧ ∀ index < 4, vm.Available (lAddr + BitVec.ofNat 32 index) :=
    (storable_iff paged.large).mp can
  refine ⟨within, available, ?_⟩
  cases found : vm.pageOf lAddr with
  | none => exact absurd (translated_none found) can.1
  | some ppi => exact stored_dwordStored found within after

/-- What was stored is read back. -/
theorem getGuestDWord_readsBack {vm next : Vm} {lAddr val : Bit32u} (paged : vm.setup.Paged)
    (run : writeGuestDWord lAddr val vm = .ok () next)
    (apart : ∀ index < 4, ¬ vm.Walked lAddr (vm.place (lAddr + BitVec.ofNat 32 index))) :
    (∀ index < 4, next.Available (lAddr + BitVec.ofNat 32 index)) ∧
      next.Fetches lAddr 4 val (getGuestDWord lAddr next) := by
  obtain ⟨within, available, stored⟩ := writeGuestDWord_stores paged run
  refine ⟨fun index below => ?_, ?_⟩
  · rw [Available, stored.translated_eq apart within below, stored.setup]
    exact available index below
  · have still : next.setup.Paged := by
      rw [stored.setup]
      exact paged
    have fetches := getGuestDWord_fetches still lAddr
    rwa [stored.bytesAt_eq apart within, numberOf_dwordBytes] at fetches

/-- What the accessors have to do with the bytes at the addresses they are given. -/
structure Vm.AccessorsExact (vm : Vm) (lAddr : Bit32u) : Prop where
  /-- `translateLinToPhy` finds the address that every byte is spoken of at. -/
  translation : vm.Fetches lAddr 0 (vm.translated lAddr) (translateLinToPhy lAddr vm)
  object : ∀ len : Bit32u, len.toNat ≤ 15 → vm.Fetches lAddr (max len.toNat 1)
    (vm.bytesAt lAddr len.toNat) (getObjectLAddr lAddr len vm)
  dword : vm.Fetches lAddr 4 (BitVec.ofNat 32 (numberOf (vm.bytesAt lAddr 4)))
    (getGuestDWord lAddr vm)
  word : vm.Fetches lAddr 2 (BitVec.ofNat 16 (numberOf (vm.bytesAt lAddr 2)))
    (getGuestWord lAddr vm)
  store : ∀ val next, writeGuestDWord lAddr val vm = .ok () next → vm.DwordStored lAddr val next
  readBack : ∀ val next, writeGuestDWord lAddr val vm = .ok () next →
    (∀ index < 4, ¬ vm.Walked lAddr (vm.place (lAddr + BitVec.ofNat 32 index))) →
    (∀ index < 4, next.Available (lAddr + BitVec.ofNat 32 index)) ∧
      next.Fetches lAddr 4 val (getGuestDWord lAddr next)

/-- The accessors fetch and store the guest's bytes, page by page or not, and stop
only where a byte is missing, or a page cannot be pinned. Even an object of no
bytes wants the one at its address to be there. -/
theorem Vm.accessors_exact {vm : Vm} (paged : vm.setup.Paged) (lAddr : Bit32u) :
    vm.AccessorsExact lAddr := by
  constructor
  case translation => exact translateLinToPhy_fetches paged lAddr
  case object => exact fun len short => getObjectLAddr_fetches paged lAddr (by omega)
  case dword => exact getGuestDWord_fetches paged lAddr
  case word => exact getGuestWord_fetches paged lAddr
  case store => exact fun val next run => (writeGuestDWord_stores paged run).2.2
  case readBack => exact fun val next run => getGuestDWord_readsBack paged run

/-- A guest whose tables put two neighbouring pages at pages 6 and 5. -/
def Sample.swapped : Vm :=
  let directory := storeWord (fun _ => 0#8) 0 0x2007#32
  let table := storeWord (storeWord (fun _ => 0#8) 12 0x6007#32) 16 0x5007#32
  { setup := Sample.setup
    guestCpu := { cr0 := 0x80000000, cr3 := 0x1000 }
    mem := fun ppi => if ppi = 1 then directory else if ppi = 2 then table else fun _ => 0 }

theorem Vm.accessors_exact_sample : ∃ lAddr next, pageOffset lAddr + 4 = 4096 ∧
    Sample.swapped.translated lAddr = 0x6ffc ∧ Sample.swapped.translated (lAddr + 4) = 0x5000 ∧
    writeGuestDWord lAddr 0x11223344 Sample.swapped = .ok () next ∧ Sample.swapped.AccessorsExact lAddr := by
  have paged : Sample.swapped.setup.Paged := ⟨rfl, by decide⟩
  have checked : (leaves (writeGuestDWord 0x3ffc 0x11223344) Sample.swapped).isSome = true := by
    decide +kernel
  obtain ⟨next, left⟩ := Option.isSome_iff_exists.mp checked
  exact ⟨0x3ffc, next, by decide +kernel, by decide +kernel, by decide +kernel,
    leaves_eq_some.mp left, accessors_exact paged 0x3ffc⟩

/-- With no bytes to fetch, none of them is missing; the object is not fetched all
the same where its address is not mapped. -/
theorem emptyObject_unmapped : ¬ ∀ (vm : Vm) (lAddr len : Bit32u), vm.setup.Paged → len.toNat ≤ 15 →
    vm.Fetches lAddr len.toNat (vm.bytesAt lAddr len.toNat) (getObjectLAddr lAddr len vm) := by
  intro claimed
  let stops (result : EStateM.Result Halt Vm (List Bit8u)) : Bool := match result with
    | .ok _ _ => false
    | .error stop _ => decide (stop ≠ .ioctlExecute 108)
  have checked : stops (getObjectLAddr 0 0 Sample.swapped) = true := by decide +kernel
  have fetches := claimed Sample.swapped 0 0 ⟨rfl, by decide⟩ (by decide)
  cases run : getObjectLAddr 0 0 Sample.swapped with
  | ok found next =>
      rw [run] at checked
      exact absurd checked (by simp [stops])
  | error stop last =>
      rw [run] at fetches checked
      rcases fetches with ⟨_, none, _⟩ | refused
      · exact absurd none (Nat.not_lt_zero _)
      · simp [stops, refused.1] at checked

end Plex86
