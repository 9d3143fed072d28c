import Plex86.Hal.Uses
import Plex86.Logic.Run

namespace Plex86

open Logic

section
variable {World : Type} {host : HostCalls World} {start : Hal World}

/-- The devices are as they were, and only guest memory has been used. -/
structure Calm (start hal : Hal World) : Prop where
  memSize : hal.memSize = start.memSize
  halNetDev : hal.halNetDev = start.halNetDev
  halConDev : hal.halConDev = start.halConDev
  inside : ∀ place, hal.Touches place → place < start.memSize.toNat

namespace Calm

variable {hal next : Hal World}

theorem quiet (calm : Calm start hal) (size : next.memSize = hal.memSize)
    (net : next.halNetDev = hal.halNetDev) (con : next.halConDev = hal.halConDev)
    (touched : next.touched = hal.touched) : Calm start next := by
  refine ⟨size.trans calm.memSize, net.trans calm.halNetDev, con.trans calm.halConDev, ?_⟩
  intro place used
  unfold Hal.Touches at used
  rw [touched] at used
  exact calm.inside place used

theorem touch (calm : Calm start hal) (offset length : Nat)
    (fits : ∀ place, Stretch offset length place → place < start.memSize.toNat) :
    Calm start (hal.touch offset length) := by
  refine ⟨calm.memSize, calm.halNetDev, calm.halConDev, ?_⟩
  intro place used
  rcases (hal.touch_touches offset length place).mp used with now | before
  · exact fits place now
  · exact calm.inside place before

end Calm

/-- The program stays calm, and does not follow a null pointer. -/
def KeepsCalm {Value : Type} (start : Hal World) (program : HalM World Value) : Prop :=
  Keeps (Calm start) (fun stop hal => stop ≠ .nullDeref ∧ Calm start hal) program

private theorem systemCall_calm {Answer : Type} (call : World → Answer × World) :
    KeepsCalm start (systemCall call) :=
  fun _ calm => calm.quiet rfl rfl rfl rfl

private theorem halSuccess_calm : KeepsCalm start halSuccess :=
  Keeps.modify fun _ calm => calm.quiet rfl rfl rfl rfl

private theorem halFail_calm (host : HostCalls World) : KeepsCalm start (halFail host) := by
  intro hal calm
  obtain ⟨world, plex86FD, memAllocated, memRegistered, freed, run, _⟩ := halFail_apply host hal
  rw [run]
  exact calm.quiet rfl rfl rfl rfl

private theorem halFailExit_calm (host : HostCalls World) : KeepsCalm start (halFailExit host) := by
  refine Keeps.bind (halFail_calm host) fun _ => Keeps.throw fun hal calm => ⟨?_, calm⟩
  exact HalStop.noConfusion

private theorem readGuest_calm {offset length : Nat}
    (fits : ∀ place, Stretch offset length place → place < start.memSize.toNat) :
    KeepsCalm start (readGuest offset length) := by
  refine Keeps.bind (Keeps.modify fun _ calm => calm.touch offset _ fits) fun _ => ?_
  exact Keeps.get_bind fun _ _ => Keeps.pure

private theorem readGuestWord_calm {offset : Nat}
    (fits : ∀ place, Stretch offset 4 place → place < start.memSize.toNat) :
    KeepsCalm start (readGuestWord offset) := by
  refine Keeps.bind (Keeps.modify fun _ calm => calm.touch offset _ fits) fun _ => ?_
  exact Keeps.get_bind fun _ _ => Keeps.pure

private theorem storeChar_calm (c : Bit8u) : KeepsCalm start (storeChar c) := by
  refine Keeps.get_bind fun hal _ => Keeps.ite (fun _ => ?_) fun _ => ?_
  · exact Keeps.modify fun _ calm => calm.quiet rfl rfl rfl rfl
  · exact Keeps.throw fun _ calm => ⟨HalStop.noConfusion, calm⟩

private theorem endLine_calm : KeepsCalm start endLine := by
  refine Keeps.bind (storeChar_calm newlineChar) fun _ => ?_
  refine Keeps.bind (storeChar_calm 0) fun _ => ?_
  exact Keeps.modify fun _ calm => calm.quiet rfl rfl rfl rfl

private theorem endFullLine_calm : KeepsCalm start endFullLine :=
  Keeps.get_bind fun _ _ => Keeps.ite (fun _ => endLine_calm) fun _ => Keeps.pure

private theorem halConChar_calm (c : Bit8u) : KeepsCalm start (halConChar c) := by
  refine Keeps.ite (fun _ => endLine_calm) fun _ => ?_
  exact Keeps.ite (fun _ => storeChar_calm c) fun _ => storeChar_calm 0x20

/-- A registered area lies inside guest memory. -/
def AreaInside (hal : Hal World) (dev : HalDev) (size : Bit32u) : Prop :=
  ∃ area, dev.guestArea = some area ∧ area + size.toNat ≤ hal.memSize.toNat

private theorem txBufferChar_calm {bufferI : Nat} (small : bufferI < maxConsoleFrameSize)
    (registered : AreaInside start (start.halConDev 0) sizeofHalConGuestRwArea) :
    KeepsCalm start (txBufferChar bufferI) := by
  obtain ⟨area, shared, inside⟩ := registered
  refine Keeps.get_bind fun hal calm => ?_
  rw [calm.halConDev, shared, deref_some_bind]
  refine Keeps.bind (Keeps.modify fun _ calm => calm.touch _ _ ?_) fun _ => Keeps.pure
  intro place used
  have size : sizeofHalConGuestRwArea.toNat = 2056 := rfl
  unfold Stretch txBufferOffset at used
  unfold maxConsoleFrameSize at small
  omega

private theorem halConWriteLoop_calm
    (registered : AreaInside start (start.halConDev 0) sizeofHalConGuestRwArea)
    (bufferI writeLen : Nat) (fits : bufferI + writeLen ≤ maxConsoleFrameSize) :
    KeepsCalm start (halConWriteLoop bufferI writeLen) := by
  induction writeLen generalizing bufferI with
  | zero => exact Keeps.pure
  | succ writeLen inductionHypothesis =>
      refine Keeps.bind endFullLine_calm fun _ => ?_
      refine Keeps.bind (txBufferChar_calm (by omega) registered) fun c => ?_
      refine Keeps.bind (halConChar_calm c) fun _ => ?_
      exact inductionHypothesis (bufferI + 1) (by omega)

private theorem halNetSend_calm {packetPAddr packetLen : Bit32u}
    (fits : ∀ place, Stretch packetPAddr.toNat packetLen.toNat place →
      place < start.memSize.toNat) :
    KeepsCalm start (halNetSend host packetPAddr packetLen) := by
  refine Keeps.get_bind fun hal _ => ?_
  refine Keeps.bind (readGuest_calm fits) fun bytes => ?_
  refine Keeps.bind (systemCall_calm _) fun ret => ?_
  exact Keeps.ite (fun _ => halSuccess_calm) fun _ => halFailExit_calm host

private theorem allPacketsConsumed_calm : KeepsCalm start allPacketsConsumed :=
  Keeps.modify fun _ calm => calm.quiet rfl rfl rfl rfl

private theorem halNetPacketStored_calm {area packetLen : Nat}
    (inside : area + sizeofHalNetGuestRxArea.toNat ≤ start.memSize.toNat) :
    KeepsCalm start (halNetPacketStored area packetLen) := by
  have size : sizeofHalNetGuestRxArea.toNat = 1524 := rfl
  have word (offset : Nat) (low : offset + 4 ≤ area + 1524) (value : Bit32u) :
      KeepsCalm start (modify fun hal => hal.putWord offset value) := by
    refine Keeps.modify fun hal calm => ?_
    have touched := calm.touch offset 4 fun place used => by
      unfold Stretch at used
      omega
    exact touched.quiet rfl rfl rfl rfl
  refine Keeps.bind (word area (by omega) 1) fun _ => ?_
  refine Keeps.bind (word (area + rxBufferLenOffset) (by unfold rxBufferLenOffset; omega) _)
    fun _ => ?_
  exact Keeps.modify fun _ calm => calm.quiet rfl rfl rfl rfl

private theorem halNetReceive_calm {area : Nat}
    (inside : area + sizeofHalNetGuestRxArea.toNat ≤ start.memSize.toNat) :
    KeepsCalm start (halNetReceive host area) := by
  have size : sizeofHalNetGuestRxArea.toNat = 1524 := rfl
  refine Keeps.get_bind fun hal _ => Keeps.bind (systemCall_calm _) fun answer => ?_
  cases answer with
  | data bytes fits =>
      refine Keeps.ite (fun _ => allPacketsConsumed_calm) fun _ => ?_
      refine Keeps.bind (Keeps.modify fun hal calm => ?_) fun _ => halNetPacketStored_calm inside
      have touched := calm.touch (area + rxBufferOffset) bytes.length
        fun place used => by
          unfold Stretch rxBufferOffset at used
          unfold maxEthernetFrameSize at fits
          omega
      exact touched.quiet rfl rfl rfl rfl
  | failed errno =>
      cases errno with
      | eagain => exact allPacketsConsumed_calm
      | eintr => exact Keeps.pure
      | other => exact Keeps.pure

private theorem halNetDrain_calm (rounds : Nat) : KeepsCalm start (halNetDrain host rounds) := by
  induction rounds with
  | zero => exact Keeps.throw fun _ calm => ⟨HalStop.noConfusion, calm⟩
  | succ rounds inductionHypothesis =>
      refine Keeps.get_bind fun hal _ => Keeps.bind (systemCall_calm _) fun answer => ?_
      cases answer with
      | data bytes fits =>
          exact Keeps.ite (fun _ => allPacketsConsumed_calm) fun _ => inductionHypothesis
      | failed errno => exact allPacketsConsumed_calm

private theorem halNetReadPacketToGuest_calm {rounds : Nat} {deviceNo : Fin halNetMaxDevices}
    (registered : (start.halNetDev deviceNo).registered = true →
      AreaInside start (start.halNetDev deviceNo) sizeofHalNetGuestRxArea) :
    KeepsCalm start (halNetReadPacketToGuest host rounds deviceNo) := by
  refine Keeps.get_bind fun hal calm => ?_
  rw [calm.halNetDev]
  refine Keeps.ite (fun known => ?_) fun _ => halNetDrain_calm rounds
  obtain ⟨area, shared, inside⟩ := registered known
  rw [shared, deref_some_bind]
  refine Keeps.bind (readGuestWord_calm fun place used => ?_) fun full => ?_
  · have size : sizeofHalNetGuestRxArea.toNat = 1524 := rfl
    unfold Stretch at used
    omega
  · exact Keeps.ite (fun _ => halNetReceive_calm inside) fun _ => Keeps.pure

/-- A registration lies inside guest memory. -/
def RegistrationFits (hal : Hal World) (dev : HalDev) (size : Bit32u) : Prop :=
  dev.Accepts hal.memSize size (hal.reg genRegECX) (hal.reg genRegEDX) →
    (hal.reg genRegECX).toNat + size.toNat ≤ hal.memSize.toNat

/-- The checks of a registration are right wherever the area fits at all. -/
theorem registration_fits {hal : Hal World} {dev : HalDev} {size : Bit32u}
    (large : size.toNat ≤ hal.memSize.toNat) : RegistrationFits hal dev size := by
  intro accepted
  have below := BitVec.lt_def.mp accepted.2.2
  have := hal.memSize.isLt
  rw [BitVec.toNat_sub] at below
  omega

/-- The calls of the network and the console that do what the guest's drivers
may expect of them. -/
structure ChannelCallFits (hal : Hal World) : Prop where
  /-- A write to the console that is not refused comes after a registration. -/
  conWrite : hal.reg genRegEAX = halCallConGuestWrite →
    (hal.halConDev 0).registered = true ∨ halConMaxDevices ≤ (hal.reg genRegEBX).toNat ∨
      maxConsoleFrameSize < (hal.reg genRegEDX).toNat ∨ hal.reg genRegEDX = 0
  conRegDev : hal.reg genRegEAX = halCallConGuestRegDev →
    ∀ deviceNo : Fin halConMaxDevices, (hal.reg genRegEBX).toNat = deviceNo →
      RegistrationFits hal (hal.halConDev deviceNo) sizeofHalConGuestRwArea
  netRegDev : hal.reg genRegEAX = halCallNetGuestRegDev →
    ∀ deviceNo : Fin halNetMaxDevices, (hal.reg genRegEBX).toNat = deviceNo →
      RegistrationFits hal (hal.halNetDev deviceNo) sizeofHalNetGuestRxArea
  netTx : hal.reg genRegEAX = halCallNetGuestTx →
    (hal.reg genRegEDX).toNat ≤ maxEthernetFrameSize →
      hal.reg genRegECX < hal.memSize - hal.reg genRegEDX →
        (hal.reg genRegECX).toNat + (hal.reg genRegEDX).toNat ≤ hal.memSize.toNat

/-- The process, and what has ended it if it is no longer there. -/
structure HalProcess (World : Type) where
  hal : Hal World
  ended : Option HalStop := none

/-- The process after a program has run. -/
def HalProcess.after {Value : Type} (result : EStateM.Result HalStop (Hal World) Value) :
    HalProcess World :=
  match result with
  | .ok _ hal => { hal }
  | .error stop hal => { hal, ended := some stop }

/-- What happens to the network and the console: a call of the guest, or an
event of the network while the guest has left its memory in some state. -/
inductive ChannelEvent
  | call (call : GuestCall)
  | packet (mem : Bytes) (rounds : Nat) (deviceNo : Fin halNetMaxDevices)

def channelCalls : List Bit32u :=
  [halCallNetGuestRegDev, halCallNetGuestTx, halCallConGuestRegDev, halCallConGuestWrite]

inductive ChannelStep (host : HostCalls World) :
    HalProcess World → ChannelEvent → HalProcess World → Prop
  | call {hal : Hal World} {call : GuestCall} :
      call.genReg genRegEAX ∈ channelCalls →
        ChannelStep host { hal } (.call call) (.after (halCall host (hal.enter call)))
  | packet {hal : Hal World} {mem : Bytes} {rounds : Nat} {deviceNo : Fin halNetMaxDevices} :
      ChannelStep host { hal } (.packet mem rounds deviceNo)
        (.after (halNetReadPacketToGuest host rounds deviceNo { hal with mem }))

/-- A call that registers a device has succeeded. -/
def Registers (callNo : Bit32u) (deviceNo : Nat)
    (moment : Moment (HalProcess World) ChannelEvent) : Prop :=
  ∃ call, moment.event = .call call ∧ call.genReg genRegEAX = callNo ∧
    (call.genReg genRegEBX).toNat = deviceNo ∧ moment.after.ended = none ∧
      moment.after.hal.reg genRegEAX = 1

/-- Registered areas lie inside guest memory, and no byte outside has been used. -/
structure ChannelsInv (hal : Hal World) : Prop where
  inside : ∀ place, hal.Touches place → place < hal.memSize.toNat
  net : ∀ deviceNo, (hal.halNetDev deviceNo).registered = true →
    AreaInside hal (hal.halNetDev deviceNo) sizeofHalNetGuestRxArea
  con : ∀ deviceNo, (hal.halConDev deviceNo).registered = true →
    AreaInside hal (hal.halConDev deviceNo) sizeofHalConGuestRwArea

/-- What a step leaves behind. -/
structure Leads (before : Hal World) (event : ChannelEvent) (after : HalProcess World) :
    Prop where
  inv : ChannelsInv after.hal
  notNull : after.ended ≠ some .nullDeref
  net : ∀ deviceNo, after.hal.halNetDev deviceNo = before.halNetDev deviceNo ∨
    Registers halCallNetGuestRegDev deviceNo ⟨{ hal := before }, event, after⟩
  con : ∀ deviceNo, after.hal.halConDev deviceNo = before.halConDev deviceNo ∨
    Registers halCallConGuestRegDev deviceNo ⟨{ hal := before }, event, after⟩

theorem ChannelsInv.calm {hal next : Hal World} (inv : ChannelsInv hal) (calm : Calm hal next) :
    ChannelsInv next := by
  refine ⟨?_, ?_, ?_⟩
  · rw [calm.memSize]
    exact calm.inside
  · intro deviceNo registered
    rw [calm.halNetDev] at registered ⊢
    obtain ⟨area, shared, fits⟩ := inv.net deviceNo registered
    exact ⟨area, shared, by rwa [calm.memSize]⟩
  · intro deviceNo registered
    rw [calm.halConDev] at registered ⊢
    obtain ⟨area, shared, fits⟩ := inv.con deviceNo registered
    exact ⟨area, shared, by rwa [calm.memSize]⟩

/-- A program that stays calm leads to a state like the one before. -/
theorem leads_of_calm {Value : Type} {program : HalM World Value} {before hal : Hal World}
    {event : ChannelEvent} (keeps : KeepsCalm hal program) (inv : ChannelsInv hal)
    (net : hal.halNetDev = before.halNetDev) (con : hal.halConDev = before.halConDev) :
    Leads before event (.after (program hal)) := by
  have reached := keeps hal ⟨rfl, rfl, rfl, inv.inside⟩
  unfold HalProcess.after
  cases run : program hal with
  | ok value next =>
      rw [run] at reached
      have calm : Calm hal next := reached
      exact ⟨inv.calm calm, by simp, fun _ => .inl (by rw [calm.halNetDev, net]),
        fun _ => .inl (by rw [calm.halConDev, con])⟩
  | error stop next =>
      rw [run] at reached
      have calm : Calm hal next := reached.2
      exact ⟨inv.calm calm, by simpa using reached.1, fun _ => .inl (by rw [calm.halNetDev, net]),
        fun _ => .inl (by rw [calm.halConDev, con])⟩

private theorem after_map {Value Next : Type} (program : HalM World Value) (result : Next)
    (hal : Hal World) :
    HalProcess.after ((program >>= fun _ => pure result) hal) = .after (program hal) := by
  rw [bind_apply]
  cases program hal with
  | ok value next => rfl
  | error stop next => rfl

private theorem halCall_net {hal : Hal World} (net : hal.reg genRegEAX = halCallNetGuestRegDev ∨
    hal.reg genRegEAX = halCallNetGuestTx) :
    HalProcess.after (halCall host hal) = .after (halNetCall host (hal.reg genRegEAX) hal) := by
  rw [halCall, get_bind_apply, if_pos net, after_map]

private theorem halCall_con {hal : Hal World} (con : hal.reg genRegEAX = halCallConGuestRegDev ∨
    hal.reg genRegEAX = halCallConGuestWrite) :
    HalProcess.after (halCall host hal) = .after (halConCall host (hal.reg genRegEAX) hal) := by
  have net : ¬ (hal.reg genRegEAX = halCallNetGuestRegDev ∨
      hal.reg genRegEAX = halCallNetGuestTx) := by
    rcases con with same | same <;> rw [same] <;> decide
  rw [halCall, get_bind_apply, if_neg net, if_pos con, after_map]

private theorem register_inside {hal : Hal World} {dev : HalDev} {size : Bit32u}
    (fits : RegistrationFits hal dev size)
    (accepted : dev.Accepts hal.memSize size (hal.reg genRegECX) (hal.reg genRegEDX)) :
    AreaInside hal (.register (hal.reg genRegECX) (hal.reg genRegEDX)) size :=
  ⟨_, rfl, fits accepted⟩

section
variable {before : Hal World} {call : GuestCall}

private theorem halNetGuestTx_leads (inv : ChannelsInv (before.enter call))
    (fits : ChannelCallFits (before.enter call))
    (number : call.genReg genRegEAX = halCallNetGuestTx) :
    Leads before (.call call) (.after (halNetGuestTx host (before.enter call))) := by
  rw [halNetGuestTx, get_bind_apply]
  have fails : Leads before (.call call) (.after (halFailExit host (before.enter call))) :=
    leads_of_calm (halFailExit_calm host) inv rfl rfl
  split
  · next known =>
    simp only [Logic.ite_apply]
    split
    · exact fails
    split
    · exact fails
    split
    · exact fails
    · next short near =>
      have inside := fits.netTx number (Nat.le_of_not_lt short) (BitVec.not_le.mp near)
      refine leads_of_calm (halNetSend_calm fun place used => ?_) inv rfl rfl
      unfold Stretch at used
      omega
  · exact fails

private theorem halNetGuestRegDev_leads (inv : ChannelsInv (before.enter call))
    (fits : ChannelCallFits (before.enter call))
    (number : call.genReg genRegEAX = halCallNetGuestRegDev) :
    Leads before (.call call) (.after (halNetGuestRegDev host (before.enter call))) := by
  rw [halNetGuestRegDev, get_bind_apply]
  split
  · next known =>
    dsimp only
    split
    · next accepted =>
      have registered := register_inside (fits.netRegDev number ⟨_, known⟩ rfl) accepted
      refine ⟨⟨inv.inside, ?_, inv.con⟩, by rintro ⟨⟩, ?_, fun _ => .inl rfl⟩
      · intro deviceNo
        show (Function.update before.halNetDev _ _ deviceNo).registered = true →
          AreaInside _ (Function.update before.halNetDev _ _ deviceNo) _
        by_cases same : deviceNo = ⟨_, known⟩
        · subst same
          rw [Function.update_self]
          exact fun _ => registered
        · rw [Function.update_of_ne same]
          exact inv.net deviceNo
      · intro deviceNo
        by_cases same : deviceNo = ⟨_, known⟩
        · subst same
          exact .inr ⟨call, rfl, number, rfl, rfl, Hal.setReg_reg ..⟩
        · exact .inl (Function.update_of_ne same _ _)
    · exact leads_of_calm (halFailExit_calm host) inv rfl rfl
  · exact leads_of_calm (halFailExit_calm host) inv rfl rfl

private theorem halConGuestRegDev_leads (inv : ChannelsInv (before.enter call))
    (fits : ChannelCallFits (before.enter call))
    (number : call.genReg genRegEAX = halCallConGuestRegDev) :
    Leads before (.call call) (.after (halConGuestRegDev host (before.enter call))) := by
  rw [halConGuestRegDev, get_bind_apply]
  split
  · next known =>
    dsimp only
    split
    · next accepted =>
      have registered := register_inside (fits.conRegDev number ⟨_, known⟩ rfl) accepted
      refine ⟨⟨inv.inside, inv.net, ?_⟩, by rintro ⟨⟩, fun _ => .inl rfl, ?_⟩
      · intro deviceNo
        show (Function.update before.halConDev _ _ deviceNo).registered = true →
          AreaInside _ (Function.update before.halConDev _ _ deviceNo) _
        by_cases same : deviceNo = ⟨_, known⟩
        · subst same
          rw [Function.update_self]
          exact fun _ => registered
        · rw [Function.update_of_ne same]
          exact inv.con deviceNo
      · intro deviceNo
        by_cases same : deviceNo = ⟨_, known⟩
        · subst same
          exact .inr ⟨call, rfl, number, rfl, rfl, Hal.setReg_reg ..⟩
        · exact .inl (Function.update_of_ne same _ _)
    · exact leads_of_calm (halFailExit_calm host) inv rfl rfl
  · exact leads_of_calm (halFailExit_calm host) inv rfl rfl

private theorem halConGuestWrite_leads (inv : ChannelsInv (before.enter call))
    (fits : ChannelCallFits (before.enter call))
    (number : call.genReg genRegEAX = halCallConGuestWrite) :
    Leads before (.call call) (.after (halConGuestWrite host (before.enter call))) := by
  have fails : Leads before (.call call) (.after (halFailExit host (before.enter call))) :=
    leads_of_calm (halFailExit_calm host) inv rfl rfl
  rw [halConGuestWrite, get_bind_apply]
  simp only [Logic.ite_apply]
  split
  · exact fails
  split
  · exact fails
  · next known short =>
    refine leads_of_calm (Keeps.bind ?_ fun _ => halSuccess_calm) inv rfl rfl
    rcases fits.conWrite number with registered | unknown | long | empty
    · exact halConWriteLoop_calm (inv.con 0 registered) 0 _ (by omega)
    · exact absurd unknown known
    · exact absurd long short
    · rw [empty]
      exact Keeps.pure

end

/-- A step that fits keeps the invariant. -/
theorem channelStep_leads {before : HalProcess World} {event : ChannelEvent}
    {after : HalProcess World} (step : ChannelStep host before event after)
    (inv : ChannelsInv before.hal)
    (fits : ∀ call, event = .call call → ChannelCallFits (before.hal.enter call)) :
    before.ended = none ∧ Leads before.hal event after := by
  cases step with
  | @packet hal mem rounds deviceNo =>
      refine ⟨rfl, leads_of_calm (halNetReadPacketToGuest_calm fun registered => ?_) ?_ rfl rfl⟩
      · exact inv.net deviceNo registered
      · exact ⟨inv.inside, inv.net, inv.con⟩
  | @call hal call known =>
      have entered : ChannelsInv (hal.enter call) := ⟨inv.inside, inv.net, inv.con⟩
      have expected := fits call rfl
      have number : (hal.enter call).reg genRegEAX = halCallNetGuestRegDev ∨
          (hal.enter call).reg genRegEAX = halCallNetGuestTx ∨
          (hal.enter call).reg genRegEAX = halCallConGuestRegDev ∨
          (hal.enter call).reg genRegEAX = halCallConGuestWrite := by
        have known : (hal.enter call).reg genRegEAX ∈ channelCalls := known
        simpa [channelCalls] using known
      refine ⟨rfl, ?_⟩
      rcases number with same | same | same | same
      · rw [halCall_net (.inl same), same]
        exact halNetGuestRegDev_leads entered expected same
      · rw [halCall_net (.inr same), same]
        exact halNetGuestTx_leads entered expected same
      · rw [halCall_con (.inl same), same]
        exact halConGuestRegDev_leads entered expected same
      · rw [halCall_con (.inr same), same]
        exact halConGuestWrite_leads entered expected same

/-- What may be expected of the channels after some steps. -/
structure ChannelsSafe (past : List (Moment (HalProcess World) ChannelEvent))
    (now : HalProcess World) : Prop where
  /-- Every byte used as guest memory lies inside. -/
  inside : ∀ place, now.hal.Touches place → place < now.hal.memSize.toNat
  /-- No null pointer has been followed. -/
  notNull : now.ended ≠ some .nullDeref
  /-- The pointer to an area was set by a registration. -/
  net : ∀ deviceNo, (now.hal.halNetDev deviceNo).guestArea ≠ none →
    ∃ moment ∈ past, Registers halCallNetGuestRegDev deviceNo moment
  con : ∀ deviceNo, (now.hal.halConDev deviceNo).guestArea ≠ none →
    ∃ moment ∈ past, Registers halCallConGuestRegDev deviceNo moment

/-- The process before any device is registered. -/
structure Unregistered (process : HalProcess World) : Prop where
  running : process.ended = none
  untouched : process.hal.touched = []
  net : process.hal.halNetDev = fun _ => {}
  con : process.hal.halConDev = fun _ => {}

/-- The calls of a run all fit. -/
def AllFit (past : List (Moment (HalProcess World) ChannelEvent)) : Prop :=
  ∀ moment ∈ past, ∀ call, moment.event = .call call →
    ChannelCallFits (moment.before.hal.enter call)

/-- As long as the guest writes to the console only once that is registered,
areas are used only once registered, and inside guest memory. -/
theorem channels_safe {past : List (Moment (HalProcess World) ChannelEvent)}
    {now : HalProcess World} (run : Run Unregistered (ChannelStep host) past now)
    (fit : AllFit past) : ChannelsSafe past now := by
  suffices both : ChannelsInv now.hal ∧ ChannelsSafe past now from both.2
  induction run with
  | @start now fresh =>
      have inside : ∀ place, now.hal.Touches place → place < now.hal.memSize.toNat := by
        rintro place ⟨touch, member, _⟩
        rw [fresh.untouched] at member
        simp at member
      refine ⟨⟨inside, ?_, ?_⟩, inside, by simp [fresh.running], ?_, ?_⟩
      · simp [fresh.net]
      · simp [fresh.con]
      · simp [fresh.net]
      · simp [fresh.con]
  | @next past before after event earlier step inductionHypothesis =>
      obtain ⟨inv, safe⟩ := inductionHypothesis fun moment member =>
        fit moment (List.mem_cons_of_mem _ member)
      obtain ⟨running, leads⟩ :=
        channelStep_leads step inv (fit _ List.mem_cons_self)
      obtain ⟨hal, ended⟩ := before
      subst running
      refine ⟨leads.inv, leads.inv.inside, leads.notNull, ?_, ?_⟩
      · intro deviceNo shared
        rcases leads.net deviceNo with same | registered
        · rw [same] at shared
          obtain ⟨moment, member, made⟩ := safe.net deviceNo shared
          exact ⟨moment, List.mem_cons_of_mem _ member, made⟩
        · exact ⟨_, List.mem_cons_self, registered⟩
      · intro deviceNo shared
        rcases leads.con deviceNo with same | registered
        · rw [same] at shared
          obtain ⟨moment, member, made⟩ := safe.con deviceNo shared
          exact ⟨moment, List.mem_cons_of_mem _ member, made⟩
        · exact ⟨_, List.mem_cons_self, registered⟩

/-- A call with its three arguments. -/
def channelCall (callNo deviceNo paddr len : Bit32u) : GuestCall where
  genReg number :=
    if number = genRegEAX then callNo
    else if number = genRegEBX then deviceNo
    else if number = genRegECX then paddr
    else if number = genRegEDX then len
    else 0

/-- A machine with four megabytes. -/
def freshHal : Hal Unit where
  world := ()
  memSize := 0x400000

def registerCall : GuestCall := channelCall halCallConGuestRegDev 0 0x1000 2056

def writeCall : GuestCall := channelCall halCallConGuestWrite 0 0 1

def registeredHal : Hal Unit := Logic.ends (halCall .failing) (freshHal.enter registerCall)

private theorem registeredHal_step :
    ChannelStep .failing { hal := freshHal } (.call registerCall) { hal := registeredHal } := by
  have reached : HalProcess.after (halCall .failing (freshHal.enter registerCall)) =
      { hal := registeredHal } := rfl
  rw [← reached]
  exact .call (by decide)

/-- A console is registered, and a character is written to it. -/
theorem channels_safe_sample :
    let written := HalProcess.after (halCall .failing (registeredHal.enter writeCall))
    (∀ place, written.hal.Touches place → place < written.hal.memSize.toNat) ∧
      written.ended ≠ some .nullDeref := by
  intro written
  have known : writeCall.genReg genRegEAX ∈ channelCalls := by decide
  have run : Run Unregistered (ChannelStep .failing)
      [⟨{ hal := registeredHal }, .call writeCall, written⟩,
        ⟨{ hal := freshHal }, .call registerCall, { hal := registeredHal }⟩] written :=
    .next (.next (.start ⟨rfl, rfl, rfl, rfl⟩) registeredHal_step) (.call known)
  have safe := channels_safe run ?_
  · exact ⟨safe.inside, safe.notNull⟩
  intro moment member call made
  rcases List.mem_cons.mp member with rfl | member
  · cases made
    refine ⟨fun _ => .inl rfl, fun other => ?_, fun other => ?_, fun other => ?_⟩
    · exact absurd other (by decide)
    · exact absurd other (by decide)
    · exact absurd other (by decide)
  · rw [List.mem_singleton.mp member] at made ⊢
    cases made
    refine ⟨fun other => ?_, fun _ _ _ => registration_fits (by decide), fun other => ?_,
      fun other => ?_⟩
    · exact absurd other (by decide)
    · exact absurd other (by decide)
    · exact absurd other (by decide)

/-- Writing to the console is not refused before it is registered. -/
theorem conWrite_unregistered :
    ∃ past now, Run Unregistered (ChannelStep .failing) past now ∧
      now.ended = some .nullDeref := by
  have known : writeCall.genReg genRegEAX ∈ channelCalls := by decide
  have step : ChannelStep .failing { hal := freshHal } (.call writeCall) _ := .call known
  exact ⟨_, _, .next (.start ⟨rfl, rfl, rfl, rfl⟩) step, rfl⟩

end
end Plex86
