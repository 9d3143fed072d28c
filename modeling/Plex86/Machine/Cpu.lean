import Plex86.Machine.PageEntry

/-! The processor state of the guest: flags, selectors, descriptors, the page
shared with user space, and the context saved on the monitor stack. -/

namespace Plex86

namespace EFlags

def maskID : Bit32u := 1#32 <<< 21
def maskVIP : Bit32u := 1#32 <<< 20
def maskVIF : Bit32u := 1#32 <<< 19
def maskAC : Bit32u := 1#32 <<< 18
def maskVM : Bit32u := 1#32 <<< 17
def maskRF : Bit32u := 1#32 <<< 16
def maskNT : Bit32u := 1#32 <<< 14
def maskOF : Bit32u := 1#32 <<< 11
def maskDF : Bit32u := 1#32 <<< 10
def maskIF : Bit32u := 1#32 <<< 9
def maskTF : Bit32u := 1#32 <<< 8
def maskSF : Bit32u := 1#32 <<< 7
def maskZF : Bit32u := 1#32 <<< 6
def maskAF : Bit32u := 1#32 <<< 4
def maskPF : Bit32u := 1#32 <<< 2
def maskCF : Bit32u := 1#32 <<< 0

def if_ (raw : Bit32u) : Bool := raw.getLsbD 9
def iopl (raw : Bit32u) : BitVec 2 := raw.extractLsb' 12 2
def nt (raw : Bit32u) : Bool := raw.getLsbD 14
def vm (raw : Bit32u) : Bool := raw.getLsbD 17
def vif (raw : Bit32u) : Bool := raw.getLsbD 19
def vip (raw : Bit32u) : Bool := raw.getLsbD 20

/-- Assign a one-bit field. -/
def assign (mask : Bit32u) (value : Bool) (raw : Bit32u) : Bit32u :=
  if value then raw ||| mask else raw &&& ~~~mask

theorem assign_getLsbD (mask raw : Bit32u) (value : Bool) (index : Nat) :
    (assign mask value raw).getLsbD index =
      if mask.getLsbD index then value && decide (index < 32) else raw.getLsbD index := by
  by_cases inside : index < 32
  · cases value <;> cases masked : mask[index] <;> simp [assign, inside, masked]
  · have outside : 32 ≤ index := by omega
    simp [BitVec.getLsbD_of_ge _ _ outside]

theorem and_not_getLsbD (raw mask : Bit32u) (index : Nat) :
    (raw &&& ~~~mask).getLsbD index = (raw.getLsbD index && !mask.getLsbD index) := by
  rw [BitVec.getLsbD_and, BitVec.getLsbD_not]
  by_cases inside : index < 32
  · rw [decide_eq_true inside, Bool.true_and]
  · rw [BitVec.getLsbD_of_ge _ _ (Nat.le_of_not_lt inside)]
    rfl

theorem iopl_eq {first second : Bit32u} (low : first.getLsbD 12 = second.getLsbD 12)
    (high : first.getLsbD 13 = second.getLsbD 13) : iopl first = iopl second := by
  refine BitVec.eq_of_getLsbD_eq fun index small => ?_
  rw [iopl, iopl, BitVec.getLsbD_extractLsb', BitVec.getLsbD_extractLsb']
  have : index = 0 ∨ index = 1 := by omega
  rcases this with rfl | rfl
  · rw [low]
  · rw [high]

end EFlags

/-- `selector_t` -/
structure Selector where
  raw : Bit16u
deriving DecidableEq

namespace Selector

def rpl (sel : Selector) : BitVec 2 := sel.raw.extractLsb' 0 2
def ti (sel : Selector) : Bool := sel.raw.getLsbD 2
def index (sel : Selector) : BitVec 13 := sel.raw.extractLsb' 3 13

/-- `(sel.raw & 0xfffc) == 0` -/
def isNull (sel : Selector) : Bool := sel.raw &&& 0xfffc#16 == 0

/-- The byte offset of the descriptor in its table, `sel.raw & ~7`. -/
def gdtOffset (sel : Selector) : Bit32u := (sel.raw &&& 0xfff8#16).setWidth 32

/-- The selector as the monitor loads it, pushed down to ring 3. -/
def pushedDown (sel : Selector) : Bit32u := (sel.raw ||| 3#16).setWidth 32

end Selector

/-- `descriptor_t`: the eight bytes of a segment descriptor. -/
structure Descriptor where
  raw : BitVec 64
deriving DecidableEq

namespace Descriptor

def limitLow (desc : Descriptor) : Bit32u := (desc.raw.extractLsb' 0 16).setWidth 32
def baseLow (desc : Descriptor) : Bit32u := (desc.raw.extractLsb' 16 16).setWidth 32
def baseMed (desc : Descriptor) : Bit32u := (desc.raw.extractLsb' 32 8).setWidth 32
def type (desc : Descriptor) : BitVec 5 := desc.raw.extractLsb' 40 5
def dpl (desc : Descriptor) : BitVec 2 := desc.raw.extractLsb' 45 2
def p (desc : Descriptor) : Bool := desc.raw.getLsbD 47
def limitHigh (desc : Descriptor) : Bit32u := (desc.raw.extractLsb' 48 4).setWidth 32
def g (desc : Descriptor) : Bool := desc.raw.getLsbD 55
def baseHigh (desc : Descriptor) : Bit32u := (desc.raw.extractLsb' 56 8).setWidth 32

def setDpl (desc : Descriptor) (dpl : BitVec 2) : Descriptor :=
  ⟨(desc.raw &&& ~~~(3#64 <<< 45)) ||| (dpl.setWidth 64 <<< 45)⟩

/-- Set the busy bit of a TSS descriptor, `type |= 2`. -/
def setBusy (desc : Descriptor) : Descriptor := ⟨desc.raw ||| (2#64 <<< 40)⟩

end Descriptor

/-- `SET_DESCRIPTOR` -/
def setDescriptor (base limit : Bit32u) (g db avl p : BitVec 1) (dpl : BitVec 2)
    (type : BitVec 5) : Descriptor where
  raw := base.extractLsb' 24 8 ++ g ++ db ++ 0#1 ++ avl ++ limit.extractLsb' 16 4 ++ p ++ dpl ++
    type ++ base.extractLsb' 16 8 ++ base.extractLsb' 0 16 ++ limit.extractLsb' 0 16

/-- `gate_t`: the eight bytes of an IDT gate. -/
structure Gate where
  raw : BitVec 64
deriving DecidableEq

namespace Gate

def offsetLow (gate : Gate) : Bit32u := (gate.raw.extractLsb' 0 16).setWidth 32
def selector (gate : Gate) : Selector := ⟨gate.raw.extractLsb' 16 16⟩
def type (gate : Gate) : BitVec 5 := gate.raw.extractLsb' 40 5
def dpl (gate : Gate) : BitVec 2 := gate.raw.extractLsb' 45 2
def p (gate : Gate) : Bool := gate.raw.getLsbD 47
def offsetHigh (gate : Gate) : Bit32u := (gate.raw.extractLsb' 48 16).setWidth 32

/-- The handler's entry point. -/
def offset (gate : Gate) : Bit32u := (gate.offsetHigh <<< 16) ||| gate.offsetLow

end Gate

/-- The segment registers, in the order of the `SReg` numbers. -/
inductive SReg
  | es | cs | ss | ds | fs | gs
deriving DecidableEq

/-- `guest_sreg_t` -/
structure GuestSReg where
  sel : Selector := ⟨0⟩
  des : Descriptor := ⟨0⟩
  valid : Bit32u := 0

/-- `gdt_info_t` -/
structure GdtInfo where
  limit : Bit16u := 0
  base : Bit32u := 0

instance neZero_three : NeZero 3 := ⟨by decide⟩
instance neZero_four : NeZero 4 := ⟨by decide⟩
instance neZero_eight : NeZero 8 := ⟨by decide⟩

-- Indices of the general registers
def genRegEAX : Fin 8 := 0
def genRegECX : Fin 8 := 1
def genRegEDX : Fin 8 := 2
def genRegEBX : Fin 8 := 3
def genRegESP : Fin 8 := 4
def genRegEBP : Fin 8 := 5
def genRegESI : Fin 8 := 6
def genRegEDI : Fin 8 := 7

/-- `guest_cpu_t`: the page of processor state shared with user space. -/
structure GuestCpu where
  genReg : Fin 8 → Bit32u := fun _ => 0
  eflags : Bit32u := 0
  eip : Bit32u := 0
  sreg : SReg → GuestSReg := fun _ => {}
  tr : GuestSReg := {}
  gdtr : GdtInfo := {}
  idtr : GdtInfo := {}
  cr0 : Bit32u := 0
  cr2 : Bit32u := 0
  cr3 : Bit32u := 0
  cr4 : Bit32u := 0
  intr : Bit32u := 0
  halIrq : Bit32u := 0

namespace GuestCpu

def pg (cpu : GuestCpu) : Bool := cpu.cr0.getLsbD 31
def wp (cpu : GuestCpu) : Bool := cpu.cr0.getLsbD 16

end GuestCpu

/-- `guestStackContext_t`: the guest registers saved on the monitor stack. -/
structure GuestStackContext where
  gs : Bit32u := 0
  fs : Bit32u := 0
  ds : Bit32u := 0
  es : Bit32u := 0
  edi : Bit32u := 0
  esi : Bit32u := 0
  ebp : Bit32u := 0
  dummyEsp : Bit32u := 0
  ebx : Bit32u := 0
  edx : Bit32u := 0
  ecx : Bit32u := 0
  eax : Bit32u := 0
  vector : Bit32u := 0
  error : Bit32u := 0
  eip : Bit32u := 0
  cs : Bit32u := 0
  eflags : Bit32u := 0
  esp : Bit32u := 0
  ss : Bit32u := 0

namespace GuestStackContext

/-- A segment register of the context. -/
def seg (context : GuestStackContext) : SReg → Bit32u
  | .es => context.es
  | .cs => context.cs
  | .ss => context.ss
  | .ds => context.ds
  | .fs => context.fs
  | .gs => context.gs

def setSeg (context : GuestStackContext) (raw : Bit32u) : SReg → GuestStackContext
  | .es => { context with es := raw }
  | .cs => { context with cs := raw }
  | .ss => { context with ss := raw }
  | .ds => { context with ds := raw }
  | .fs => { context with fs := raw }
  | .gs => { context with gs := raw }

theorem setSeg_seg (context : GuestStackContext) (raw : Bit32u) (sreg : SReg) :
    (context.setSeg raw sreg).seg = Function.update context.seg sreg raw := by
  funext other
  cases sreg <;> cases other <;> rfl

theorem setSeg_eflags (context : GuestStackContext) (raw : Bit32u) (sreg : SReg) :
    (context.setSeg raw sreg).eflags = context.eflags := by
  cases sreg <;> rfl

end GuestStackContext
end Plex86
