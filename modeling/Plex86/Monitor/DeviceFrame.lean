import Plex86.Emulate.Ticks
import Plex86.Monitor.Fault
import Plex86.Paging.Settled

namespace Plex86

open Logic

/-- The machine without its clock, its interrupt controllers and the mailbox for
interrupts from user space. -/
def Vm.offDevices (vm : Vm) : Vm :=
  { vm with
    picMaster := {}, picSlave := {}, pit := {}, intr := 0, cyclesElapsed := 0
    guestCpu := { vm.guestCpu with halIrq := 0 } }

/-- The program works on those only. -/
abbrev DevicesOnly {α : Type} (off : Vm) (program : Mon α) : Prop :=
  Keeps (fun vm => vm.offDevices = off) (fun _ _ => True) program

/-- What is not about the devices is kept. -/
theorem DevicesOnly.keeps {α β : Type} {program : Mon α} (only : ∀ off, DevicesOnly off program)
    {view : Vm → β} (blind : ∀ vm, view vm.offDevices = view vm) (now : β) :
    Keeps (fun vm => view vm = now) (fun _ _ => True) program :=
  Keeps.hidden only blind now

section Devices

variable {off : Vm}

private theorem panicWhen_devices {cond : Prop} [Decidable cond] {format : String}
    {args : List Bit32u} :
    DevicesOnly off (panicWhen cond format args) :=
  panicWhen_keeps fun _ _ => trivial

private theorem monpanic_devices {α : Type} {format : String} {args : List Bit32u} :
    DevicesOnly off (monpanic format args : Mon α) :=
  .throw fun _ _ => trivial

private theorem setTimer_devices (pitID : Fin 3) (timer : PitTimer) :
    DevicesOnly off (setTimer pitID timer) :=
  .modify fun _ same => same

private theorem picIrq_devices (irqNum : Bit32u) : DevicesOnly off (picIrq irqNum) :=
  Keeps.hidden (fun _ => picIrq_pic irqNum) (fun _ => rfl) off

theorem picIAC_devices : DevicesOnly off picIAC :=
  Keeps.hidden (fun _ => picIAC_pic) (fun _ => rfl) off

theorem picOutp_devices (port val : Bit32u) : DevicesOnly off (picOutp port val) :=
  Keeps.hidden (fun _ => picOutp_pic port val) (fun _ => rfl) off

private theorem pitExpireTimer_devices (pitClocks : Bit32u) (pitID : Fin 3) :
    DevicesOnly off (pitExpireTimer pitClocks pitID) := by
  apply Keeps.get_bind
  intro vm _
  apply Keeps.bind panicWhen_devices
  intro _
  apply Keeps.bind
  · exact .modify fun _ same => same
  · intro _
    exact .ite (fun expired => picIrq_devices 0) fun counting => .pure

private theorem pitExpireClocks_devices (pitClocks : Bit32u) :
    DevicesOnly off (pitExpireClocks pitClocks) := by
  apply Keeps.bind (pitExpireTimer_devices pitClocks 0)
  intro _
  apply Keeps.bind (pitExpireTimer_devices pitClocks 1)
  intro _
  exact pitExpireTimer_devices pitClocks 2

theorem preGuestClock_devices : DevicesOnly off preGuestClock := by
  apply Keeps.bind
  · exact .modify fun _ same => same
  · intro _
    apply Keeps.get_bind
    intro vm _
    apply Keeps.ite ?_ fun early => .pure
    intro passed
    exact .bind (.modify fun _ same => same) fun _ => pitExpireClocks_devices _

theorem preGuestHal_devices : DevicesOnly off preGuestHal := by
  apply Keeps.get_bind
  intro vm _
  apply Keeps.ite ?_ fun empty => .pure
  intro mail
  apply Keeps.bind
  · exact .modify fun _ same => same
  · intro _
    exact .bind panicWhen_devices fun _ => picIrq_devices _

theorem preGuestSample_devices : DevicesOnly off (preGuestClock >>= fun _ => preGuestHal) :=
  .bind preGuestClock_devices fun _ => preGuestHal_devices

theorem hltLoop_devices (iterations : Nat) : DevicesOnly off (hltLoop iterations) := by
  induction iterations with
  | zero => exact .get_bind fun _ _ => .pure
  | succ iterations inductionHypothesis =>
      apply Keeps.get_bind
      intro vm _
      apply Keeps.ite (fun raised => .pure)
      intro low
      exact .bind (pitExpireClocks_devices 1) fun _ => inductionHypothesis

private theorem pitOutpCount_devices (pitID : Fin 3) (val : Bit32u) :
    DevicesOnly off (pitOutpCount pitID val) := by
  apply Keeps.get_bind
  intro vm _
  apply Keeps.bind panicWhen_devices
  intro _
  apply Keeps.bind (setTimer_devices _ _)
  intro _
  apply Keeps.ite ?_ fun half => .pure
  intro complete
  refine .bind (setTimer_devices _ _) fun _ => ?_
  apply Keeps.ite (fun timeout => setTimer_devices _ _)
  intro other
  apply Keeps.ite ?_ fun unsupported => monpanic_devices
  intro rate
  exact .bind panicWhen_devices fun _ => setTimer_devices _ _

private theorem pitOutpCommand_devices (pitID : Fin 3) (rw mode bcd : Bit32u) :
    DevicesOnly off (pitOutpCommand pitID rw mode bcd) := by
  apply Keeps.get_bind
  intro vm _
  apply Keeps.bind panicWhen_devices
  intro _
  apply Keeps.bind panicWhen_devices
  intro _
  apply Keeps.ite
  · intro latch
    exact .bind panicWhen_devices fun _ => setTimer_devices _ _
  · intro program
    apply Keeps.bind panicWhen_devices
    intro _
    exact .bind panicWhen_devices fun _ => setTimer_devices _ _

private theorem pitOutpControl_devices (val : Bit32u) : DevicesOnly off (pitOutpControl val) := by
  unfold pitOutpControl
  dsimp only
  split
  · exact pitOutpCommand_devices _ _ _ _
  · exact monpanic_devices

private theorem pitOutpGate_devices (val : Bit32u) : DevicesOnly off (pitOutpGate val) := by
  apply Keeps.bind
  · exact .modify fun _ same => same
  · intro _
    apply Keeps.get_bind
    intro vm _
    apply Keeps.ite (fun same => .pure)
    intro changed
    exact .bind (setTimer_devices _ _) fun _ => monpanic_devices

theorem pitOutp_devices (port val : Bit32u) : DevicesOnly off (pitOutp port val) := by
  apply Keeps.ite (fun timer0 => pitOutpCount_devices 0 val)
  intro _
  apply Keeps.ite (fun timer1 => pitOutpCount_devices 1 val)
  intro _
  apply Keeps.ite (fun timer2 => pitOutpCount_devices 2 val)
  intro _
  apply Keeps.ite (fun control => pitOutpControl_devices val)
  intro _
  apply Keeps.ite (fun gate => pitOutpGate_devices val)
  intro _
  exact monpanic_devices

theorem picInp_devices (port : Bit32u) : DevicesOnly off (picInp port) :=
  .get_bind fun _ _ => .ite (fun _ => .pure) fun _ => monpanic_devices

private theorem pitInpCount_devices : DevicesOnly off pitInpCount := by
  apply Keeps.get_bind
  intro vm _
  apply Keeps.bind panicWhen_devices
  intro _
  apply Keeps.ite
  · intro lowByte
    exact .bind (setTimer_devices _ _) fun _ => .pure
  · intro highByte
    exact .bind (setTimer_devices _ _) fun _ => .pure

theorem pitInp_devices (port : Bit32u) : DevicesOnly off (pitInp port) := by
  apply Keeps.ite (fun count => pitInpCount_devices)
  intro _
  apply Keeps.ite ?_ fun other => monpanic_devices
  intro speaker
  exact .bind (.modify fun _ same => same) fun _ => .get_bind fun _ _ => .pure

end Devices

end Plex86
