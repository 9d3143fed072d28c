import Plex86.Emulate.MemorySpec
import Plex86.Monitor.DeviceFrame
import Plex86.Monitor.Instruction

namespace Plex86

open Logic Vm

/-- Code that leaves the guest's EIP alone, wherever it returns. -/
abbrev KeepsEip {Value : Type} (eip : Bit32u) (program : Mon Value) : Prop :=
  Keeps (fun vm => vm.context.eip = eip) (fun _ _ => True) program

section Effects

variable {eip : Bit32u}

private theorem panicWhen_eip {cond : Prop} [Decidable cond] {format : String}
    {args : List Bit32u} :
    KeepsEip eip (panicWhen cond format args) :=
  panicWhen_keeps fun _ _ => trivial

private theorem monpanic_eip {Value : Type} {format : String} {args : List Bit32u} :
    KeepsEip eip (monpanic format args : Mon Value) :=
  .throw fun _ _ => trivial

/-- Reaching into guest memory leaves the registers alone. -/
theorem accessor_eip {Value : Type} {program : Mon Value}
    (accessor : ∀ start, Accessor start program) : KeepsEip eip program := by
  intro vm same
  cases run : program vm with
  | ok value next =>
      have settled := (accessor_ok accessor run).1
      change next.context.eip = eip
      rw [settled.cpu.context]
      exact same
  | error stop last => trivial

private theorem checkGuestDesc_eip (segno : SReg) (sel : Selector) (desc : Descriptor) :
    KeepsEip eip (checkGuestDesc segno sel desc) := by
  refine .get_bind fun vm _ => .ite (fun _ => ?_) fun _ => ?_
  · exact .bind panicWhen_eip fun _ => .bind panicWhen_eip fun _ => panicWhen_eip
  · exact .bind panicWhen_eip fun _ => panicWhen_eip

private theorem guestSelectorUpdated_eip (segno : SReg) (sel : Selector) :
    KeepsEip eip (guestSelectorUpdated segno sel) := by
  refine .ite (fun _ => .get_bind fun vm _ => .bind panicWhen_eip fun _ =>
    .bind panicWhen_eip fun _ => ?_) fun _ => .pure
  exact .bind (accessor_eip fun start => fetchGuestDescByLAddr_accessor start _) fun desc =>
    .bind (checkGuestDesc_eip segno sel desc) fun _ => .modify fun _ same => same

private theorem setSeg_eip (context : GuestStackContext) (raw : Bit32u) (sreg : SReg) :
    (context.setSeg raw sreg).eip = context.eip := by
  cases sreg <;> rfl

theorem loadGuestSegment_eip (sreg : SReg) (selector : Selector) :
    KeepsEip eip (loadGuestSegment sreg selector) := by
  refine .bind (accessor_eip fun start => fetchGuestDescBySel_accessor start _ _) fun desc =>
    .bind panicWhen_eip fun _ => .bind ?_ fun _ => guestSelectorUpdated_eip sreg selector
  refine .modify fun vm same => ?_
  exact (setSeg_eip vm.context selector.pushedDown sreg).trans same

theorem setCRx_eip (crx val32 : Bit32u) : KeepsEip eip (setCRx crx val32) := by
  refine .bind (.modify fun _ same => same) fun _ => .ite (fun _ => ?_) fun _ =>
    .ite (fun _ => ?_) fun _ => .ite (fun _ => ?_) fun _ => monpanic_eip
  · exact .bind (.modify fun _ same => same) fun _ => .bind panicWhen_eip fun _ =>
      .modify fun _ same => same
  · exact .bind (.modify fun _ same => same) fun _ => .modify fun _ same => same
  · exact .bind panicWhen_eip fun _ => .modify fun _ same => same

private theorem getMonPTi_eip (pdi : BitVec 10) (source : Bit32u) :
    KeepsEip eip (getMonPTi pdi source) :=
  .get_bind fun _ _ => .bind panicWhen_eip fun _ => .bind panicWhen_eip fun _ => .pure

theorem invalidateGuestLinAddr_eip (laddr : Bit32u) :
    KeepsEip eip (invalidateGuestLinAddr laddr) := by
  refine .get_bind fun vm _ => .bind panicWhen_eip fun _ => .ite (fun _ => .pure) fun _ =>
    .bind panicWhen_eip fun _ => .bind (getMonPTi_eip _ _) fun _ => ?_
  exact .ite (fun _ => .pure) fun _ => .modify fun _ same => same

/-- The devices have nothing to do with the guest's EIP. -/
theorem devices_eip {Value : Type} {program : Mon Value}
    (devices : ∀ off, DevicesOnly off program) : KeepsEip eip program :=
  DevicesOnly.keeps devices (fun _ => rfl) eip

theorem picOutp_eip (port val : Bit32u) : KeepsEip eip (picOutp port val) :=
  devices_eip fun _ => picOutp_devices port val

theorem pitOutp_eip (port val : Bit32u) : KeepsEip eip (pitOutp port val) :=
  devices_eip fun _ => pitOutp_devices port val

theorem picInp_eip (port : Bit32u) : KeepsEip eip (picInp port) :=
  devices_eip fun _ => picInp_devices port

theorem pitInp_eip (port : Bit32u) : KeepsEip eip (pitInp port) :=
  devices_eip fun _ => pitInp_devices port

theorem hltLoop_eip (iterations : Nat) : KeepsEip eip (hltLoop iterations) :=
  devices_eip fun _ => hltLoop_devices iterations

end Effects
end Plex86
