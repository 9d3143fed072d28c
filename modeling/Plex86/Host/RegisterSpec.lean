import Plex86.Host.Register

namespace Plex86

open Logic

namespace HostVm

variable {answers : Answers} {msg : RegisterMem} {inv stopped : HostVm → Prop}
variable {place : Nat} {vm next last : HostVm}

/-- The machine once the host has answered a request for memory. -/
def afterAlloc (vm : HostVm) (block : Block) (ptr : HostPtr) : HostVm :=
  if ptr ≠ 0 then { vm with served := .allocated block ptr :: vm.served } else vm

private theorem serveAlloc_apply (block : Block) (ptr : HostPtr) (vm : HostVm) :
    serveAlloc block ptr vm = .ok () (vm.afterAlloc block ptr) := by
  unfold serveAlloc afterAlloc
  split <;> rfl

theorem oopsWhen_apply (cond : Prop) [Decidable cond] (vm : HostVm) :
    oopsWhen cond vm = if cond then .error .oops vm else .ok () vm := by
  unfold oopsWhen
  split <;> rfl

theorem allocZeroedPage_apply (answers : Answers) (block : Block) (vm : HostVm) :
    hostOSAllocZeroedPage answers block vm =
      .ok (answers.alloc block) (vm.afterAlloc block (answers.alloc block)) := by
  rw [hostOSAllocZeroedPage, bind_apply, serveAlloc_apply]
  rfl

theorem allocZeroedMem_apply (answers : Answers) (block : Block) (size : Bit32u) (vm : HostVm) :
    hostOSAllocZeroedMem answers block size vm =
      if answers.alloc block &&& 0xfff ≠ 0 then
        .ok 0 (vm.afterAlloc block (answers.alloc block))
      else if answers.alloc block = 0 ∧ size ≠ 0 then
        .error .oops (vm.afterAlloc block (answers.alloc block))
      else .ok (answers.alloc block) (vm.afterAlloc block (answers.alloc block)) := by
  rw [hostOSAllocZeroedMem, bind_apply, serveAlloc_apply]
  simp only [Logic.ite_apply, bind_apply, oopsWhen_apply, pure_apply]
  split
  · rfl
  · by_cases crash : answers.alloc block = 0 ∧ size ≠ 0
    · simp only [if_pos crash]
    · simp only [if_neg crash]

theorem keepBlock_apply (block : Block) (ptr : HostPtr) (vm : HostVm) :
    keepBlock block ptr vm =
      if ptr = 0 then .error .error (vm.withBlock block ptr)
      else .ok () (vm.withBlock block ptr) := by
  rw [keepBlock, modify_bind_apply, Logic.ite_apply]
  rfl

/-- What the allocation of single blocks does keeps `inv`, and leaves `stopped` where it stops. -/
structure Plain (answers : Answers) (inv stopped : HostVm → Prop) : Prop where
  stop : ∀ vm, inv vm → stopped vm
  block : ∀ vm block, inv vm → answers.alloc block ≠ 0 →
    inv ((vm.afterAlloc block (answers.alloc block)).withBlock block (answers.alloc block))
  refused : ∀ vm block, inv vm →
    stopped ((vm.afterAlloc block (answers.alloc block)).withBlock block 0)
  frames : ∀ vm frames vmFrames, inv vm →
    inv { vm with pages := { vm.pages with frames := frames, vm := vmFrames } }

namespace Plain

theorem keepPage (plain : Plain answers inv stopped) (block : Block) :
    Keeps inv (fun _ => stopped) (keepPage answers block) := by
  intro vm holds
  rw [HostVm.keepPage, bind_apply, allocZeroedPage_apply]
  simp only [keepBlock_apply]
  by_cases absent : answers.alloc block = 0
  · have refused := plain.refused vm block holds
    rw [absent] at refused
    simpa only [absent, if_true] using refused
  · simpa only [if_neg absent] using plain.block vm block holds absent

theorem keepMem (plain : Plain answers inv stopped) (block : Block) (size : Bit32u) :
    Keeps inv (fun _ => stopped) (keepMem answers block size) := by
  intro vm holds
  rw [HostVm.keepMem, bind_apply, allocZeroedMem_apply]
  simp only [keepBlock_apply]
  by_cases aligned : answers.alloc block &&& 0xfff = 0
  · by_cases absent : answers.alloc block = 0
    · have untouched : vm.afterAlloc block (answers.alloc block) = vm := by
        simp [afterAlloc, absent]
      by_cases empty : size = 0
      · have refused := plain.refused vm block holds
        rw [if_neg (not_not.mpr aligned), if_neg (fun crash => crash.2 empty)]
        simpa only [absent, if_true] using refused
      · rw [if_neg (not_not.mpr aligned), if_pos ⟨absent, empty⟩, untouched]
        exact plain.stop vm holds
    · simpa only [aligned, absent, ne_eq, not_true_eq_false, if_false, false_and] using
        plain.block vm block holds absent
  · simpa only [aligned, ne_eq, not_false_eq_true, if_true] using plain.refused vm block holds

theorem keepFrames (plain : Plain answers inv stopped) (block : Block) :
    Keeps inv (fun _ => stopped) (keepFrames answers block) := by
  unfold HostVm.keepFrames
  split
  · exact Keeps.throw plain.stop
  · exact Keeps.modify fun vm holds => plain.frames vm _ vm.pages.vm holds

theorem keepVmFrames (plain : Plain answers inv stopped) :
    Keeps inv (fun _ => stopped) (keepVmFrames answers) := by
  unfold HostVm.keepVmFrames
  split
  · exact Keeps.throw plain.stop
  · exact Keeps.modify fun vm holds => plain.frames vm vm.pages.frames _ holds

theorem allocPage (plain : Plain answers inv stopped) (block : Block) :
    Keeps inv (fun _ => stopped) (allocPage answers block) :=
  Keeps.bind (plain.keepPage _) fun _ => plain.keepFrames _

theorem allocMem (plain : Plain answers inv stopped) (block : Block) (size : Bit32u) :
    Keeps inv (fun _ => stopped) (allocMem answers block size) :=
  Keeps.bind (plain.keepMem _ _) fun _ => plain.keepFrames _

theorem allocInfo (plain : Plain answers inv stopped) (info list : Block) (bytes : Bit32u) :
    Keeps inv (fun _ => stopped) (allocInfo answers info list bytes) :=
  Keeps.bind (plain.keepMem _ _) fun _ =>
    Keeps.bind (plain.keepMem _ _) fun _ => plain.keepFrames _

/-- Each step after the user's pages are pinned keeps what single blocks keep. -/
theorem steps (plain : Plain answers inv stopped) (msg : RegisterMem) :
    ∀ step ∈ (allocRest answers msg).tail, Keeps inv (fun _ => stopped) step := by
  simp only [HostVm.allocRest, List.tail_cons, List.forall_mem_cons, List.not_mem_nil, false_implies,
    implies_true, and_true]
  exact ⟨plain.allocPage _, plain.allocPage _, plain.allocMem _ _, plain.allocPage _,
    plain.allocPage _, plain.allocPage _, plain.allocPage _, plain.allocMem _ _, plain.allocMem _ _,
    plain.allocMem _ _, plain.allocMem _ _, plain.allocMem _ _, plain.allocInfo _ _ _,
    plain.allocInfo _ _ _, plain.keepVmFrames⟩

end Plain

/-- What single steps of an allocation do keeps `inv`, and leaves `stopped` where one stops. -/
structure Stable (answers : Answers) (inv stopped : HostVm → Prop) : Prop where
  stop : ∀ vm, inv vm → stopped vm
  block : ∀ vm block, inv vm → answers.alloc block ≠ 0 →
    inv ((vm.afterAlloc block (answers.alloc block)).withBlock block (answers.alloc block))
  refused : ∀ vm block, inv vm →
    stopped ((vm.afterAlloc block (answers.alloc block)).withBlock block 0)
  frames : ∀ vm frames vmFrames, inv vm →
    inv { vm with pages := { vm.pages with frames := frames, vm := vmFrames } }
  shared : ∀ vm shared page bit, inv vm → answers.pin shared = some page →
    inv (vm.withShared shared page bit)

namespace Stable

theorem plain (stable : Stable answers inv stopped) : Plain answers inv stopped :=
  ⟨stable.stop, stable.block, stable.refused, stable.frames⟩

theorem pinShared (stable : Stable answers inv stopped) (shared : SharedPage) (bit : Bit32u) :
    Keeps inv (fun _ => stopped) (pinShared answers shared bit) := by
  unfold HostVm.pinShared
  split
  · exact Keeps.throw stable.stop
  · next page given => exact Keeps.modify fun vm holds => stable.shared vm _ page _ holds given

theorem inOrder {steps : List (Host Unit)}
    (each : ∀ step ∈ steps, Keeps inv (fun _ => stopped) step) :
    Keeps inv (fun _ => stopped) (inOrder steps) := by
  induction steps with
  | nil => exact Keeps.pure
  | cons step rest inductionHypothesis =>
      obtain ⟨first, others⟩ := List.forall_mem_cons.mp each
      exact Keeps.bind first fun _ => inductionHypothesis others

/-- Each step of an allocation keeps what single steps keep. -/
theorem steps (stable : Stable answers inv stopped) (msg : RegisterMem) :
    ∀ step ∈ allocRest answers msg, Keeps inv (fun _ => stopped) step :=
  List.forall_mem_cons.mpr ⟨stable.pinShared _ _, stable.plain.steps msg⟩

theorem allocRest (stable : Stable answers inv stopped) (msg : RegisterMem) :
    Keeps inv (fun _ => stopped) (HostVm.inOrder (HostVm.allocRest answers msg)) :=
  inOrder (stable.steps msg)

end Stable

/-- A bit of `vmState` is set. -/
def Has (place : Nat) (vm : HostVm) : Prop := vm.vmState.getLsbD place = true

theorem Has.set (has : vm.Has place) (more : Bit32u) :
    (vm.vmState ||| more).getLsbD place = true := by
  have same : vm.vmState.getLsbD place = true := has
  rw [BitVec.getLsbD_or, same, Bool.true_or]

theorem Has.clear (has : vm.Has place) (notPhyMem : place ≠ 3) :
    (vm.vmState &&& ~~~vmStateRegisteredPhyMem).getLsbD place = true := by
  have same : vm.vmState.getLsbD place = true := has
  have small := BitVec.lt_of_getLsbD same
  have other : vmStateRegisteredPhyMem.getLsbD place = false := by
    rw [show vmStateRegisteredPhyMem = BitVec.twoPow 32 3 from rfl, BitVec.getLsbD_twoPow]
    simp only [Bool.and_eq_false_iff, decide_eq_false_iff_not]
    omega
  rw [BitVec.getLsbD_and, BitVec.getLsbD_not, same, other]
  simp [small]

/-- A set bit stays set whatever is allocated. -/
theorem Has.stable (answers : Answers) (place : Nat) :
    Stable answers (Has place) (Has place) where
  stop _ has := has
  block vm block has given := by
    unfold afterAlloc
    split <;> exact has
  refused vm block has := by
    unfold afterAlloc
    split <;> exact has
  frames _ _ _ has := has
  shared _ _ _ bit has _ := has.set bit

/-- Where the bit is set, the code leaves it set, also if it stops. -/
def Leaves {α : Type} (place : Nat) (program : Host α) : Prop :=
  Keeps (Has place) (fun _ => Has place) program

theorem Leaves.oopsWhen (cond : Prop) [Decidable cond] : Leaves place (oopsWhen cond) :=
  Keeps.ite (fun _ => .throw fun _ has => has) fun _ => .pure

theorem Leaves.serve (service : HostService) : Leaves place (serve service) :=
  Keeps.modify fun _ has => has

private theorem Leaves.unpinUserPage (hostOSPtr : HostPtr) :
    Leaves place (HostVm.hostOSUnpinUserPage hostOSPtr) :=
  Keeps.bind (Leaves.oopsWhen _) fun _ => Leaves.serve _

theorem Leaves.releaseGuestPages (ppi : Bit32u) (pages : Nat) :
    Leaves place (releaseGuestPages ppi pages) := by
  induction pages generalizing ppi with
  | zero => exact Keeps.pure
  | succ pages inductionHypothesis =>
      refine Keeps.bind ?_ fun _ => inductionHypothesis (ppi + 1)
      refine Keeps.get_bind fun now _ => Keeps.bind (Leaves.oopsWhen _) fun _ => ?_
      refine Keeps.ite (fun _ => ?_) fun _ => .pure
      exact Keeps.get_bind fun now _ => Keeps.bind (Leaves.oopsWhen _) fun _ =>
        Keeps.bind (Leaves.unpinUserPage _) fun _ => Keeps.modify fun _ has => has

theorem Leaves.releaseGuestMemory : Leaves place releaseGuestMemory := by
  refine Keeps.get_bind fun now _ => Keeps.ite (fun _ => ?_) fun _ => .pure
  refine Keeps.bind ?_ fun _ => Keeps.modify fun _ has => has
  exact Keeps.get_bind fun now _ => Keeps.bind (Leaves.releaseGuestPages _ _) fun _ =>
    Keeps.bind (Leaves.unpinUserPage _) fun _ => Leaves.unpinUserPage _

theorem Leaves.freeBlocks (blocks : List Block) : Leaves place (freeBlocks blocks) := by
  induction blocks with
  | nil => exact Keeps.pure
  | cons block rest inductionHypothesis =>
      refine Keeps.get_bind fun now _ => Keeps.bind ?_ fun _ => inductionHypothesis
      exact Keeps.ite (fun _ => Leaves.serve _) fun _ => .pure

private theorem Leaves.unallocVmPages (notPhyMem : place ≠ 3) : Leaves place hostUnallocVmPages :=
  Keeps.bind Leaves.releaseGuestMemory fun _ =>
    Keeps.bind (Keeps.modify fun _ has => has.clear notPhyMem) fun _ =>
      Keeps.bind (Leaves.freeBlocks _) fun _ => Keeps.modify fun _ has => has

/-- From every state, the code returns exactly when this is granted. -/
def Succeeds (program : Host Unit) (granted : Prop) : Prop :=
  ∀ vm, (∃ next, program vm = .ok () next) ↔ granted

theorem Succeeds.bind {first second : Host Unit} {granted granted' : Prop}
    (before : Succeeds first granted) (after : Succeeds second granted') :
    Succeeds (do first; second) (granted ∧ granted') := by
  intro vm
  rw [← before vm]
  constructor
  · rintro ⟨last, run⟩
    obtain ⟨value, next, ran, rest⟩ := bind_ok.mp run
    exact ⟨⟨next, ran⟩, (after next).mp ⟨last, rest⟩⟩
  · rintro ⟨⟨next, ran⟩, also⟩
    obtain ⟨last, rest⟩ := (after next).mpr also
    exact ⟨last, bind_ok.mpr ⟨(), next, ran, rest⟩⟩

theorem Succeeds.inOrder {steps : List (Host Unit)} {grants : List Prop}
    (each : List.Forall₂ Succeeds steps grants) :
    Succeeds (HostVm.inOrder steps) (∀ granted ∈ grants, granted) := by
  induction each with
  | nil =>
      intro vm
      simp [HostVm.inOrder]
  | cons first _ inductionHypothesis =>
      rw [List.forall_mem_cons]
      exact Succeeds.bind first inductionHypothesis

private theorem keepFrames_succeeds (answers : Answers) (block : Block) :
    Succeeds (keepFrames answers block) (answers.frames block).isSome := by
  intro vm
  unfold keepFrames
  cases answers.frames block <;> simp

private theorem keepVmFrames_succeeds (answers : Answers) :
    Succeeds (keepVmFrames answers) answers.vmFrames.isSome := by
  intro vm
  unfold keepVmFrames
  cases answers.vmFrames <;> simp

private theorem pinShared_succeeds (answers : Answers) (shared : SharedPage) (bit : Bit32u) :
    Succeeds (pinShared answers shared bit) (answers.pin shared).isSome := by
  intro vm
  unfold pinShared
  cases answers.pin shared <;> simp

/-- A page is kept when there is one. -/
theorem keepPage_succeeds (answers : Answers) (block : Block) :
    Succeeds (keepPage answers block) (answers.alloc block ≠ 0) := by
  intro vm
  rw [keepPage, bind_apply, allocZeroedPage_apply]
  simp only [keepBlock_apply]
  split
  · next absent => exact iff_of_false (by simp) (not_not.mpr absent)
  · next given => exact iff_of_true ⟨_, rfl⟩ given

/-- Memory is kept when there is some, in whole pages. -/
theorem keepMem_succeeds (answers : Answers) (block : Block) (size : Bit32u) :
    Succeeds (keepMem answers block size)
      (answers.alloc block ≠ 0 ∧ answers.alloc block &&& 0xfff = 0) := by
  intro vm
  rw [keepMem, bind_apply, allocZeroedMem_apply]
  by_cases aligned : answers.alloc block &&& 0xfff = 0
  · rw [if_neg (not_not.mpr aligned)]
    by_cases absent : answers.alloc block = 0
    · refine iff_of_false ?_ fun given => given.1 absent
      by_cases empty : size = 0
      · rw [if_neg (fun crash => crash.2 empty)]
        simp only [keepBlock_apply, if_pos absent]
        simp
      · rw [if_pos ⟨absent, empty⟩]
        simp
    · rw [if_neg (fun crash => absent crash.1)]
      simp only [keepBlock_apply, if_neg absent]
      exact iff_of_true ⟨_, rfl⟩ ⟨absent, aligned⟩
  · rw [if_pos aligned]
    exact iff_of_false (by simp [keepBlock_apply]) fun given => aligned given.2

private theorem allocPage_succeeds (answers : Answers) (block : Block) :
    Succeeds (allocPage answers block)
      (answers.alloc block ≠ 0 ∧ (answers.frames block).isSome) :=
  Succeeds.bind (keepPage_succeeds answers block) (keepFrames_succeeds answers block)

private theorem allocMem_succeeds (answers : Answers) (block : Block) (size : Bit32u) :
    Succeeds (allocMem answers block size)
      ((answers.alloc block ≠ 0 ∧ answers.alloc block &&& 0xfff = 0) ∧
        (answers.frames block).isSome) :=
  Succeeds.bind (keepMem_succeeds answers block size) (keepFrames_succeeds answers block)

private theorem allocInfo_succeeds (answers : Answers) (info list : Block) (bytes : Bit32u) :
    Succeeds (allocInfo answers info list bytes)
      ((answers.alloc info ≠ 0 ∧ answers.alloc info &&& 0xfff = 0) ∧
        (answers.alloc list ≠ 0 ∧ answers.alloc list &&& 0xfff = 0) ∧
          (answers.frames info).isSome) :=
  Succeeds.bind (keepMem_succeeds answers info _)
    (Succeeds.bind (keepMem_succeeds answers list _) (keepFrames_succeeds answers info))

private theorem modify_succeeds (change : HostVm → HostVm) : Succeeds (modify change) True :=
  fun vm => iff_of_true ⟨change vm, rfl⟩ trivial

/-- Everything is allocated exactly when the host grants every call. -/
theorem allocSteps_succeeds (answers : Answers) (msg : RegisterMem) :
    Succeeds (allocSteps answers msg) answers.Grant := by
  have rest : Succeeds (inOrder (allocRest answers msg)) _ := Succeeds.inOrder
    (.cons (pinShared_succeeds _ _ _) <| .cons (allocPage_succeeds _ _) <|
      .cons (allocPage_succeeds _ _) <| .cons (allocMem_succeeds _ _ _) <|
      .cons (allocPage_succeeds _ _) <| .cons (allocPage_succeeds _ _) <|
      .cons (allocPage_succeeds _ _) <| .cons (allocPage_succeeds _ _) <|
      .cons (allocMem_succeeds _ _ _) <| .cons (allocMem_succeeds _ _ _) <|
      .cons (allocMem_succeeds _ _ _) <| .cons (allocMem_succeeds _ _ _) <|
      .cons (allocMem_succeeds _ _ _) <| .cons (allocInfo_succeeds _ _ _ _) <|
      .cons (allocInfo_succeeds _ _ _ _) <| .cons (keepVmFrames_succeeds _) .nil)
  have all : Succeeds (allocSteps answers msg) _ := Succeeds.bind (modify_succeeds (beginAlloc msg))
    (Succeeds.bind (pinShared_succeeds answers .guestCpu vmStateRegisteredGuestCPU)
      (Succeeds.bind rest (modify_succeeds _)))
  intro vm
  refine (all vm).trans ?_
  simp only [List.forall_mem_cons, List.not_mem_nil, false_implies, implies_true, and_true,
    true_and]
  constructor
  · rintro ⟨cpu, log, p1, p2, m1, p3, p4, p5, p6, m2, m3, m4, m5, m6, i1, i2, vmFrames⟩
    refine ⟨fun shared => ?_, fun block => ?_, fun block mem => ?_, fun block array => ?_, vmFrames⟩
    · cases shared with
      | guestCpu => exact cpu
      | userLogBuffer => exact log
    · cases block
      exacts [p1.1, p2.1, m1.1.1, p3.1, p4.1, p5.1, p6.1, m2.1.1, m3.1.1, m4.1.1, m5.1.1, m6.1.1,
        i1.1.1, i1.2.1.1, i2.1.1, i2.2.1.1]
    · cases block <;> first | exact absurd mem (by decide) | skip
      exacts [m1.1.2, m2.1.2, m3.1.2, m4.1.2, m5.1.2, m6.1.2, i1.1.2, i1.2.1.2, i2.1.2, i2.2.1.2]
    · cases block <;> first | exact absurd array (by decide) | skip
      exacts [p1.2, p2.2, m1.2, p3.2, p4.2, p5.2, p6.2, m2.2, m3.2, m4.2, m5.2, m6.2, i1.2.2, i2.2.2]
  · rintro ⟨pin, alloc, aligned, frames, vmFrames⟩
    have page : ∀ block, block.isList = false →
        answers.alloc block ≠ 0 ∧ (answers.frames block).isSome :=
      fun block array => ⟨alloc block, frames block array⟩
    have mem : ∀ block, block.isPage = false →
        answers.alloc block ≠ 0 ∧ answers.alloc block &&& 0xfff = 0 :=
      fun block whole => ⟨alloc block, aligned block whole⟩
    exact ⟨pin _, pin _, page _ rfl, page _ rfl, ⟨mem _ rfl, frames _ rfl⟩, page _ rfl, page _ rfl,
      page _ rfl, page _ rfl, ⟨mem _ rfl, frames _ rfl⟩, ⟨mem _ rfl, frames _ rfl⟩,
      ⟨mem _ rfl, frames _ rfl⟩, ⟨mem _ rfl, frames _ rfl⟩, ⟨mem _ rfl, frames _ rfl⟩,
      ⟨mem _ rfl, mem _ rfl, frames _ rfl⟩, ⟨mem _ rfl, mem _ rfl, frames _ rfl⟩, vmFrames⟩

/-- The machine has this block. -/
def HasBlock (block : Block) (vm : HostVm) : Prop := vm.addr.block block ≠ 0

instance (block : Block) (vm : HostVm) : Decidable (HasBlock block vm) :=
  inferInstanceAs (Decidable (_ ≠ _))

private theorem withBlock_hasBlock {block other : Block} {ptr : HostPtr} (given : ptr ≠ 0)
    (has : other = block ∨ vm.HasBlock other) : (vm.withBlock block ptr).HasBlock other := by
  change Function.update vm.addr.block block ptr other ≠ 0
  rw [Function.update_apply]
  split
  · exact given
  · next different => exact has.resolve_left different

/-- No step of an allocation that returns loses a block. -/
theorem HasBlock.stable (answers : Answers) (block : Block) :
    Stable answers (HasBlock block) (fun _ => True) where
  stop _ _ := trivial
  block vm other has given := by
    refine withBlock_hasBlock given (.inr ?_)
    unfold afterAlloc
    split <;> exact has
  refused _ _ _ := trivial
  frames _ _ _ has := has
  shared _ _ _ _ has _ := has

private theorem keepMem_makes (answers : Answers) (block : Block) (size : Bit32u) :
    Ensures (fun _ => True) (keepMem answers block size) (fun _ => HasBlock block)
      fun _ _ => True := by
  refine Ensures.bind Ensures.anything fun ptr vm _ => ?_
  rw [keepBlock_apply]
  by_cases absent : ptr = 0
  · rw [if_pos absent]
    trivial
  · rw [if_neg absent]
    exact withBlock_hasBlock absent (.inl rfl)

/-- What one of the steps makes and the others keep is there when all are done. -/
theorem inOrder_makes {steps : List (Host Unit)} {step : Host Unit} (member : step ∈ steps)
    (makes : Ensures (fun _ => True) step (fun _ => inv) fun _ _ => True)
    (each : ∀ other ∈ steps, Keeps inv (fun _ _ => True) other) :
    Ensures (fun _ => True) (inOrder steps) (fun _ => inv) fun _ _ => True := by
  induction steps with
  | nil => cases member
  | cons first rest inductionHypothesis =>
      obtain ⟨_, others⟩ := List.forall_mem_cons.mp each
      rcases List.mem_cons.mp member with rfl | later
      · exact Ensures.bind makes fun _ => Stable.inOrder others
      · exact Ensures.bind Ensures.anything fun _ => inductionHypothesis later others

/-- Once everything is allocated there is information about guest pages. -/
theorem allocSteps_hasInfo (run : allocSteps answers msg vm = .ok () next) :
    next.HasBlock .guestPageInfo := by
  have stable := HasBlock.stable answers .guestPageInfo
  have makes : Ensures (fun _ => True) (inOrder (allocRest answers msg))
      (fun _ => HasBlock .guestPageInfo) fun _ _ => True := by
    have member : allocInfo answers .guestPageInfo .guestPageInfoPages
        (sizeofPhyPageInfo * (msg.nMegs <<< 8)) ∈ allocRest answers msg := by
      simp [allocRest]
    refine inOrder_makes member ?_ (stable.steps msg)
    exact Ensures.bind (keepMem_makes _ _ _) fun _ =>
      Keeps.bind (stable.plain.keepMem _ _) fun _ => stable.plain.keepFrames _
  simp only [allocSteps, modify_bind_apply, bind_ok] at run
  obtain ⟨_, _, _, _, now, rest, done⟩ := run
  have reached : now.HasBlock .guestPageInfo := makes.returns trivial rest
  cases done
  exact reached

private theorem hostInitGuestPhyMem_ok (info : vm.HasBlock .guestPageInfo) :
    ∃ next, hostInitGuestPhyMem vm = .ok true next := by
  rw [hostInitGuestPhyMem, get_bind_apply, Logic.ite_apply, if_neg info]
  exact ⟨_, rfl⟩

private theorem setUpMonitor_apply (answers : Answers) (vm : HostVm) :
    if 4096 < answers.nexusSize then setUpMonitor answers vm = .ok false vm
    else ∃ next, setUpMonitor answers vm = .ok true next := by
  split
  · next large =>
      rw [setUpMonitor, bind_apply, hostInitMonitor, if_pos large]
      rfl
  · next fits =>
      rw [setUpMonitor, bind_apply, hostInitMonitor, if_neg fits]
      exact ⟨_, rfl⟩

private theorem failWith_fails {errno : Errno} : failWith errno vm ≠ .ok none next := by
  intro run
  obtain ⟨_, _, _, rest⟩ := bind_ok.mp run
  cases rest

/-- With information about guest pages the rest succeeds when the monitor's code fits. -/
theorem initialise_ok (info : vm.HasBlock .guestPageInfo) :
    (∃ next, initialise answers vm = .ok none next) ↔ answers.nexusSize ≤ 4096 := by
  obtain ⟨now, ready⟩ := hostInitGuestPhyMem_ok info
  have monitor := setUpMonitor_apply answers now
  simp only [initialise, bind_apply, ready, if_true]
  split at monitor
  · next large =>
      simp only [monitor, Bool.false_eq_true, if_false]
      exact iff_of_false (fun ⟨_, run⟩ => failWith_fails run) (BitVec.not_le.mpr large)
  · next fits =>
      obtain ⟨last, done⟩ := monitor
      simp only [done, if_true]
      exact iff_of_true ⟨_, rfl⟩ (BitVec.not_lt.mp fits)

/-- A request that passes the checks is the allocation, and then the initialisation. -/
theorem hostIoctlRegisterMem_passed (passed : msg.check vm.vmState vm.pages.guestNMegs = none) :
    hostIoctlRegisterMem answers msg vm =
      match allocSteps answers msg vm with
      | .ok _ next => initialise answers next
      | .error .error last => failWith .enomem last
      | .error stop last => .error stop last := by
  rw [hostIoctlRegisterMem, get_bind_apply, passed]
  simp only [bind_apply, hostAllocVmPages]
  cases allocSteps answers msg vm with
  | ok value next => rfl
  | error stop last =>
      cases stop with
      | oops | running => rfl
      | error =>
          simp only [bind_apply, failWith]
          cases hostUnallocVmPages last <;> rfl

/-- A request that passes the checks succeeds exactly when the host grants every
call and the monitor's code fits on its page. -/
theorem hostIoctlRegisterMem_ok (passed : msg.check vm.vmState vm.pages.guestNMegs = none) :
    (∃ next, hostIoctlRegisterMem answers msg vm = .ok none next) ↔
      answers.Grant ∧ answers.nexusSize ≤ 4096 := by
  rw [← allocSteps_succeeds answers msg vm, hostIoctlRegisterMem_passed passed]
  cases run : allocSteps answers msg vm with
  | ok value next =>
      simp only [initialise_ok (allocSteps_hasInfo run)]
      simp
  | error stop last =>
      refine iff_of_false ?_ (by simp)
      rintro ⟨next, done⟩
      cases stop with
      | oops | running => cases done
      | error => exact failWith_fails done

theorem Leaves.failWith (notPhyMem : place ≠ 3) (errno : Errno) :
    Leaves place (failWith errno) :=
  Keeps.bind (Leaves.unallocVmPages notPhyMem) fun _ => .pure

theorem Leaves.initialise (notPhyMem : place ≠ 3) (answers : Answers) :
    Leaves place (initialise answers) := by
  refine Keeps.bind ?_ fun _ => Keeps.ite (fun _ => ?_) fun _ => Leaves.failWith notPhyMem _
  · exact Keeps.get_bind fun _ _ => Keeps.ite (fun _ => .pure) fun _ =>
      Keeps.bind (Keeps.modify fun _ has => has) fun _ => .pure
  refine Keeps.bind (Keeps.bind ?_ fun _ => ?_) fun _ =>
    Keeps.ite (fun _ => .pure) fun _ => Leaves.failWith notPhyMem _
  · exact Keeps.ite (fun _ => .pure) fun _ =>
      Keeps.bind (Keeps.modify fun _ has => has.set _) fun _ => .pure
  · exact Keeps.ite (fun _ => Keeps.bind (Keeps.modify fun _ has => has.set _) fun _ => .pure)
      fun _ => .pure

/-- The place of `VMStateRegisteredGuestCPU`. -/
def guestCPUPlace : Nat := 5

/-- Once the guest CPU area is pinned its bit is never taken back. -/
theorem hostIoctlRegisterMem_leavesBit {page : UserPage}
    (passed : msg.check vm.vmState vm.pages.guestNMegs = none)
    (pinned : answers.pin .guestCpu = some page) {errno : Option Errno}
    (run : hostIoctlRegisterMem answers msg vm = .ok errno next) : next.Has guestCPUPlace := by
  have steps : Ensures (fun _ => True) (allocSteps answers msg) (fun _ => Has guestCPUPlace)
      fun _ => Has guestCPUPlace := by
    have first : Ensures (fun _ => True)
        (pinShared answers .guestCpu vmStateRegisteredGuestCPU) (fun _ => Has guestCPUPlace)
        fun _ => Has guestCPUPlace := by
      rw [pinShared, pinned]
      refine Ensures.modify fun now _ => ?_
      simp [Has, withShared, guestCPUPlace, vmStateRegisteredGuestCPU]
    have begun : Ensures (fun _ => True) (modify (beginAlloc msg) : Host Unit) (fun _ _ => True)
        fun _ => Has guestCPUPlace := Ensures.modify fun _ _ => trivial
    exact Ensures.bind begun fun _ => Ensures.bind first fun _ =>
      Keeps.bind ((Has.stable answers guestCPUPlace).allocRest msg) fun _ =>
        Keeps.modify fun _ has => has.set _
  have allocated := steps vm trivial
  rw [hostIoctlRegisterMem_passed passed] at run
  cases ran : allocSteps answers msg vm with
  | ok value now =>
      rw [ran] at run allocated
      exact (Leaves.initialise (by decide) answers).returns allocated run
  | error stop now =>
      rw [ran] at run allocated
      cases stop with
      | oops | running => cases run
      | error => exact (Leaves.failWith (by decide) .enomem).returns allocated run

/-- What is freed of some blocks. -/
def freedOf (addr : HostAddr) (blocks : List Block) : List HostService :=
  blocks.filterMap fun block =>
    if addr.block block = 0 then none else some (.freed (addr.block block))

theorem freeBlocks_apply (blocks : List Block) (vm : HostVm) :
    freeBlocks blocks vm =
      .ok () { vm with served := (freedOf vm.addr blocks).reverse ++ vm.served } := by
  induction blocks generalizing vm with
  | nil => rfl
  | cons block rest inductionHypothesis =>
      rw [freeBlocks, get_bind_apply, bind_apply, hostOSFree, Logic.ite_apply]
      by_cases absent : vm.addr.block block = 0
      · rw [if_neg (not_not.mpr absent), pure_apply]
        simp only [inductionHypothesis, freedOf, List.filterMap_cons, absent, if_true]
      · rw [if_pos absent, serve, modify_apply]
        simp only [inductionHypothesis, freedOf, List.filterMap_cons, absent, if_false,
          List.reverse_cons, List.append_assoc, List.singleton_append]

private theorem freeBlocks_nothing (blocks : List Block)
    (nothing : ∀ block, vm.addr.block block = 0) :
    freeBlocks blocks vm = .ok () vm := by
  have none : freedOf vm.addr blocks = [] := by simp [freedOf, nothing]
  rw [freeBlocks_apply, none]
  rfl

/-- Without information about guest pages, and with no page pinned, pages are not released. -/
theorem hostReleasePinnedUserPages_oops (noInfo : vm.addr.block .guestPageInfo = 0)
    (noCpu : vm.pages.sharedHostOSPtr .guestCpu = 0) :
    hostReleasePinnedUserPages vm = .error .oops vm := by
  rw [hostReleasePinnedUserPages, get_bind_apply, bind_apply]
  cases vm.pages.guestNPages.toNat with
  | zero => simp [releaseGuestPages, hostOSUnpinUserPage, oopsWhen_apply, bind_apply, noCpu]
  | succ pages =>
      simp [releaseGuestPages, releaseGuestPage, oopsWhen_apply, bind_apply, noInfo]

/-- Nothing is given back where nothing is there. -/
theorem hostUnallocVmPages_nothing (noMemory : vm.guestPhyMemAddr = 0)
    (nothing : ∀ block, vm.addr.block block = 0) :
    hostUnallocVmPages vm = .ok () { vm with
      vmState := vm.vmState &&& ~~~vmStateRegisteredPhyMem, pages := {}, addr := {} } := by
  have released : releaseGuestMemory vm = .ok () vm := by
    rw [releaseGuestMemory, get_bind_apply, Logic.ite_apply, if_neg (not_not.mpr noMemory)]
    rfl
  rw [hostUnallocVmPages, bind_apply, released]
  simp only [modify_bind_apply]
  rw [bind_apply, freeBlocks_nothing]
  · rfl
  · exact nothing

/-- Memory is not given back before there is information about its pages. -/
theorem hostUnallocVmPages_oops (memory : vm.guestPhyMemAddr ≠ 0)
    (noInfo : vm.addr.block .guestPageInfo = 0)
    (noCpu : vm.pages.sharedHostOSPtr .guestCpu = 0) :
    hostUnallocVmPages vm = .error .oops vm := by
  have released : releaseGuestMemory vm = .error .oops vm := by
    rw [releaseGuestMemory, get_bind_apply, Logic.ite_apply, if_pos memory, bind_apply,
      hostReleasePinnedUserPages_oops noInfo noCpu]
  rw [hostUnallocVmPages, bind_apply, released]

theorem hostIoctlRegisterMem_notPinned
    (passed : msg.check vm.vmState vm.pages.guestNMegs = none)
    (refused : answers.pin .guestCpu = none) :
    hostIoctlRegisterMem answers msg vm = failWith .enomem (beginAlloc msg vm) := by
  have stopped : allocSteps answers msg vm = .error .error (beginAlloc msg vm) := by
    rw [allocSteps, modify_bind_apply, bind_apply, pinShared, refused]
    rfl
  rw [hostIoctlRegisterMem_passed passed, stopped]

end HostVm
end Plex86
