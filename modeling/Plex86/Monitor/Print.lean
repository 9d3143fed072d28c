import Plex86.Host.RegisterCheck
import Plex86.Logic.Run
import Plex86.Nexus.FormatRun

/-! The monitor's log: requests to print are formatted into one buffer, which the
host hands on to the user program. -/

namespace Plex86

open Logic

/-- `monLogBufferInfo`, the buffer it is about, and the user program's copy. -/
structure Log where
  locked : Bit32u := 0
  offset : Bit32u := 0
  error : Bit32u := 0
  monLogBuffer : Bytes := fun _ => 0
  userLogBuffer : Bytes := fun _ => 0
  /-- What the user program was given to print, newest first. -/
  flushed : List (List Bit8u) := []

/-- The part of the buffer in use. -/
def Log.contents (log : Log) : List Bit8u := (List.range log.offset.toNat).map log.monLogBuffer

abbrev Printer := EStateM Overrun Log

/-- The request of the host to flush the buffer, which it serves at once. -/
def toHostFlushPrintBuf : Printer Unit := modify fun log =>
  if log.offset ≥ 4096 then log -- "offset>4k" is all the host has to say.
  else
    { log with
      -- Null terminate string.
      userLogBuffer := fun place =>
        if place < log.offset.toNat then log.monLogBuffer place
        else if place = log.offset.toNat then 0 else log.userLogBuffer place
      flushed := log.contents :: log.flushed }

/-- `monLogBuffer[place] = 0` -/
def terminate (place : Nat) : Printer Unit := modify fun log =>
  { log with monLogBuffer := Function.update log.monLogBuffer place 0 }

def resetPrintBuf : Printer Unit := do
  modify fun log => { log with offset := 0, error := 0 }
  terminate 0

def unlock : Printer Unit := modify fun log => { log with locked := 0 }

/-- Format into the buffer from `offset` on. -/
def formatAt (offset remaining : Bit32u) (fmt : CString) (args : VaList) : Printer Bit32u := do
  let log ← get
  match nexusVsnprintf log.monLogBuffer ⟨offset.toNat, remaining⟩ fmt args with
  | .ok (ret, now) => do
      set { log with monLogBuffer := now.buffer }
      pure ret
  | .error memory => throw memory

/-- The way out of `mon_vprint` where formatting worked. -/
def printed (ret : Bit32u) : Printer Bit32u := do
  modify fun log => { log with offset := log.offset + ret }
  toHostFlushPrintBuf
  resetPrintBuf
  unlock
  pure ret

/-- Print request did not fit: dump buffer contents and try again using whole buffer. -/
def retried (offset : Bit32u) (fmt : CString) (args : VaList) : Printer Bit32u := do
  terminate offset.toNat
  toHostFlushPrintBuf
  resetPrintBuf
  let ret ← formatAt 0 logBuffSize fmt args
  if ret = -1 then do
    resetPrintBuf -- We have serious problems.
    pure 0
  else printed ret

def monVprint (fmt : CString) (args : VaList) : Printer Bit32u := do
  let log ← get
  if log.locked ≠ 0 then pure 0
  else do
    modify fun log => { log with locked := 1 }
    if log.offset ≥ logBuffSize then do -- Sanity check
      resetPrintBuf
      unlock
      pure 0
    else do
      let ret ← formatAt log.offset (logBuffSize - log.offset) fmt args
      if ret = -1 then retried log.offset fmt args else printed ret

namespace Log

/-- A further request is accepted. -/
structure Ready (log : Log) : Prop where
  unlocked : log.locked = 0
  offset : log.offset < logBuffSize

/-- The text of a format is in what was flushed last. -/
def Flushed (log : Log) (fmt : CString) (args : VaList) : Prop :=
  ∃ bytes ∈ log.flushed.head?, (fmt.steps args).reduceOption <:+: bytes

section Calls

variable {log : Log} {fmt : CString} {args : VaList} {remaining : Bit32u}

private theorem formatAt_fits (some : 0 < remaining.toNat) (fits : fmt.FitsIn args remaining.toNat)
    (log : Log) (offset : Bit32u) :
    ∃ ret now, formatAt offset remaining fmt args log =
        .ok ret { log with monLogBuffer := now.buffer } ∧
      CString.Output ⟨offset.toNat, remaining⟩ log.monLogBuffer fmt args ret now := by
  obtain ⟨ret, now, run, output⟩ :=
    @CString.FitsIn.output ⟨offset.toNat, remaining⟩ fmt args fits some log.monLogBuffer
  refine ⟨ret, now, ?_, output⟩
  rw [formatAt, get_bind_apply, run]
  rfl

private theorem formatAt_refused (unfit : ¬ fmt.FitsIn args remaining.toNat) (log : Log)
    (offset : Bit32u) :
    ∃ buffer, formatAt offset remaining fmt args log =
      .ok (-1) { log with monLogBuffer := buffer } := by
  obtain ⟨now, run, -⟩ :=
    @CString.refused ⟨offset.toNat, remaining⟩ fmt args unfit log.monLogBuffer
  refine ⟨now.buffer, ?_⟩
  rw [formatAt, get_bind_apply, run]
  rfl

private theorem range_part {first length total : Nat} (inside : first + length ≤ total) :
    List.range' first length <:+: List.range total := by
  have front : List.range' 0 first ++ List.range' first length = List.range' 0 (first + length) := by
    simpa using @List.range'_append_1 0 first length
  have whole := @List.range'_append_1 0 (first + length) (total - (first + length))
  rw [Nat.zero_add, Nat.add_sub_cancel' inside, ← front] at whole
  exact ⟨_, _, whole.trans List.range_eq_range'.symm⟩

/-- What was formatted is in the buffer, within what was counted. -/
theorem text_infix {area : PrintArea} {buffer : Bytes} {ret : Bit32u} {now : Printing}
    (output : CString.Output area buffer fmt args ret now) :
    (fmt.steps args).reduceOption <:+: (List.range (area.start + ret.toNat)).map now.buffer := by
  have fewer := List.reduceOption_length_le (fmt.steps args)
  have str := output.str
  have count := output.count
  rw [← output.text]
  exact (range_part (by omega)).map now.buffer

/-- The log when formatting worked, before it is flushed. -/
def written (log : Log) (now : Printing) : Log := { log with monLogBuffer := now.buffer }

/-- A text that was formatted is flushed, and the log is ready again. -/
theorem printed_ready {ret : Bit32u} {now : Printing} (fits : fmt.FitsIn args remaining.toNat)
    (some : 0 < remaining.toNat) (inside : log.offset.toNat + remaining.toNat ≤ 4096)
    (output : CString.Output ⟨log.offset.toNat, remaining⟩ log.monLogBuffer fmt args ret now) :
    ∃ after, printed ret (log.written now) = .ok ret after ∧ after.Ready ∧
      after.Flushed fmt args := by
  have count := output.count
  have room := fits.2
  have place : (log.offset + ret).toNat = log.offset.toNat + ret.toNat := by
    rw [BitVec.toNat_add]
    exact Nat.mod_eq_of_lt (by omega)
  have small : ¬ log.offset + ret ≥ 4096 := by
    rw [ge_iff_le, BitVec.le_def, place, show (4096 : Bit32u).toNat = 4096 by rfl]
    omega
  have text := text_infix output
  rw [← place] at text
  refine ⟨_, rfl, ⟨rfl, (by decide : (0 : Bit32u) < logBuffSize)⟩, _, ?_, text⟩
  rw [written]
  simp only [if_neg small]
  rfl

/-- A log that is ready is locked, and the request formatted. -/
theorem Ready.monVprint_eq (ready : log.Ready) :
    monVprint fmt args log =
      (formatAt log.offset (logBuffSize - log.offset) fmt args >>= fun ret =>
        if ret = -1 then retried log.offset fmt args else printed ret) { log with locked := 1 } := by
  have below : ¬ log.offset ≥ logBuffSize := BitVec.not_le.mpr ready.offset
  rw [monVprint, get_bind_apply, if_neg (not_not_intro ready.unlocked), modify_bind_apply,
    if_neg below]

theorem Ready.inside (ready : log.Ready) : log.offset.toNat < 4096 := ready.offset

private theorem Ready.remaining_eq (ready : log.Ready) :
    (logBuffSize - log.offset).toNat = 4096 - log.offset.toNat :=
  BitVec.toNat_sub_of_le (BitVec.le_of_lt ready.offset)

/-- The state of the log in which a request is tried again. -/
def emptied (log : Log) (offset : Bit32u) : Log :=
  ends (do
    terminate offset.toNat
    toHostFlushPrintBuf
    resetPrintBuf) log

private theorem emptied_locked (log : Log) (offset : Bit32u) :
    (log.emptied offset).locked = log.locked := by
  change (if log.offset ≥ 4096 then _ else _ : Log).locked = _
  split
  · rfl
  · rfl

private theorem retried_eq (log : Log) (offset : Bit32u) :
    retried offset fmt args log = (formatAt 0 logBuffSize fmt args >>= fun ret =>
      if ret = -1 then (do
        resetPrintBuf
        pure 0)
      else printed ret) (log.emptied offset) := rfl

/-- A request that fits is printed, if need be after the buffer was flushed. -/
theorem Ready.prints (ready : log.Ready) (fits : fmt.FitsIn args 4096) :
    ∃ ret after, monVprint fmt args log = .ok ret after ∧ after.Ready ∧ after.Flushed fmt args := by
  have inside := ready.inside
  have rest := ready.remaining_eq
  rw [ready.monVprint_eq]
  by_cases room : fmt.FitsIn args (logBuffSize - log.offset).toNat
  · obtain ⟨ret, now, run, output⟩ :=
      formatAt_fits (by omega) room { log with locked := 1 } log.offset
    obtain ⟨after, done, next, flushed⟩ := @printed_ready { log with locked := 1 } fmt args
      (logBuffSize - log.offset) ret now room (by omega) (by change log.offset.toNat + _ ≤ _; omega)
      output
    refine ⟨ret, after, bind_ok.mpr ⟨ret, _, run, ?_⟩, next, flushed⟩
    rw [if_neg output.returned]
    exact done
  · obtain ⟨buffer, refused⟩ := formatAt_refused room { log with locked := 1 } log.offset
    generalize { log with locked := 1, monLogBuffer := buffer : Log } = full at refused
    have whole : logBuffSize.toNat = 4096 := rfl
    obtain ⟨ret, now, run, output⟩ := formatAt_fits (by omega) (whole ▸ fits)
      (full.emptied log.offset) 0
    obtain ⟨after, done, next, flushed⟩ := @printed_ready (full.emptied log.offset) fmt args
      logBuffSize ret now (whole ▸ fits) (by omega) (Nat.le_refl 4096) output
    refine ⟨ret, after, bind_ok.mpr ⟨-1, full, refused, ?_⟩, next, flushed⟩
    rw [if_pos rfl, retried_eq]
    refine bind_ok.mpr ⟨ret, _, run, ?_⟩
    rw [if_neg output.returned]
    exact done

/-- A request that does not fit leaves the log locked. -/
theorem Ready.locks (ready : log.Ready) (unfit : ¬ fmt.FitsIn args 4096) :
    ∃ after, monVprint fmt args log = .ok 0 after ∧ after.locked = 1 := by
  have inside := ready.inside
  have rest := ready.remaining_eq
  have less : ¬ fmt.FitsIn args (logBuffSize - log.offset).toNat := fun fits => by
    refine unfit ⟨fits.1, ?_⟩
    have := fits.2
    omega
  obtain ⟨buffer, refused⟩ := formatAt_refused less { log with locked := 1 } log.offset
  have locked : ({ log with locked := 1, monLogBuffer := buffer } : Log).locked = 1 := rfl
  generalize { log with locked := 1, monLogBuffer := buffer : Log } = full at refused locked
  have whole : logBuffSize.toNat = 4096 := rfl
  obtain ⟨other, again⟩ := formatAt_refused (whole ▸ unfit) (full.emptied log.offset) 0
  rw [ready.monVprint_eq]
  refine ⟨ends resetPrintBuf { full.emptied log.offset with monLogBuffer := other },
    bind_ok.mpr ⟨-1, full, refused, ?run⟩, (full.emptied_locked log.offset).trans locked⟩
  case run =>
    rw [if_pos rfl, retried_eq]
    refine bind_ok.mpr ⟨-1, _, again, ?_⟩
    rw [if_pos rfl]
    rfl

end Calls
end Log

/-- A request to print. -/
structure PrintRequest where
  fmt : CString
  args : VaList

/-- What fits the whole buffer is supported, and leaves two bytes of it. -/
def PrintRequest.Fits (request : PrintRequest) : Prop := request.fmt.FitsIn request.args 4096

/-- A call of `mon_vprint`. -/
def Log.Prints (log : Log) (request : PrintRequest) (after : Log) : Prop :=
  ∃ ret, monVprint request.fmt request.args log = .ok ret after

/-- One request that fits, from a log that is ready. -/
theorem Log.Prints.flushed {before after : Log} {request : PrintRequest}
    (prints : before.Prints request after) (ready : before.Ready) (fits : request.Fits) :
    after.Ready ∧ after.Flushed request.fmt request.args := by
  obtain ⟨ret, called⟩ := prints
  obtain ⟨other, reached, again, next, flushed⟩ := ready.prints fits
  rw [called] at again
  cases again
  exact ⟨next, flushed⟩

private theorem run_flushed {past : List (Moment Log PrintRequest)} {now : Log}
    (run : Run Log.Ready Log.Prints past now) (fit : ∀ moment ∈ past, moment.event.Fits) :
    now.Ready ∧ ∀ moment ∈ past, moment.after.Flushed moment.event.fmt moment.event.args := by
  induction run with
  | start begun => exact ⟨begun, by simp⟩
  | next earlier taken inductionHypothesis =>
      obtain ⟨ready, flushed⟩ := inductionHypothesis fun moment member =>
        fit moment (List.mem_cons_of_mem _ member)
      obtain ⟨next, last⟩ := taken.flushed ready (fit _ List.mem_cons_self)
      exact ⟨next, List.forall_mem_cons.mpr ⟨last, flushed⟩⟩

/-- After requests that fit, all of them flushed, the log is unlocked and not overfull, and
the next request leaves it so exactly if it fits as well. -/
theorem monVprint_ready {past : List (Moment Log PrintRequest)} {now : Log}
    (run : Run Log.Ready Log.Prints past now) (fit : ∀ moment ∈ past, moment.event.Fits) :
    now.Ready ∧
      (∀ moment ∈ past, moment.after.Flushed moment.event.fmt moment.event.args) ∧
      ∀ request : PrintRequest, ∃ ret after, monVprint request.fmt request.args now = .ok ret after ∧
        (after.Ready ↔ request.Fits) := by
  obtain ⟨ready, flushed⟩ := run_flushed run fit
  refine ⟨ready, flushed, fun request => ?_⟩
  by_cases fits : request.Fits
  · obtain ⟨ret, after, called, next, -⟩ := ready.prints fits
    exact ⟨ret, after, called, fun _ => fits, fun _ => next⟩
  · obtain ⟨after, called, locked⟩ := ready.locks fits
    refine ⟨0, after, called, fun next => ?_, fun holds => absurd holds fits⟩
    have unlocked := next.unlocked
    rw [locked] at unlocked
    cases unlocked

namespace Sample

def noArguments : VaList := ⟨fun _ => 0, fun _ => ⟨[], by simp⟩⟩

def hello : PrintRequest := ⟨⟨[ascii 'h', ascii 'i'], by decide⟩, noArguments⟩

/-- A conversion that is not supported. -/
def signed : PrintRequest := ⟨⟨[ascii '%', ascii 'd'], by decide⟩, noArguments⟩

private theorem hello_fits : hello.Fits := ⟨by decide, by decide⟩

end Sample

/-- A request printed by a new log. -/
theorem monVprint_ready_hello : ∃ after, (∃ ret, monVprint Sample.hello.fmt Sample.hello.args {} =
      .ok ret after) ∧ after.Ready ∧
    (∀ moment ∈ [(⟨{}, Sample.hello, after⟩ : Moment Log PrintRequest)],
      moment.after.Flushed moment.event.fmt moment.event.args) ∧
    ∀ request : PrintRequest, ∃ ret next, monVprint request.fmt request.args after = .ok ret next ∧
      (next.Ready ↔ request.Fits) := by
  have fresh : Log.Ready {} := ⟨rfl, by decide⟩
  obtain ⟨ret, after, called, -⟩ := fresh.prints Sample.hello_fits
  have run : Run Log.Ready Log.Prints [⟨{}, Sample.hello, after⟩] after :=
    .next (.start fresh) ⟨ret, called⟩
  have fit : ∀ moment ∈ [(⟨{}, Sample.hello, after⟩ : Moment Log PrintRequest)],
      moment.event.Fits := by
    intro moment member
    rw [List.mem_singleton.mp member]
    exact Sample.hello_fits
  exact ⟨after, ⟨ret, called⟩, monVprint_ready run fit⟩

/-- After a request that is not supported, nothing is printed any more. -/
theorem monVprint_locks : ∃ after, monVprint Sample.signed.fmt Sample.signed.args {} = .ok 0 after ∧
    after.locked = 1 ∧ monVprint Sample.hello.fmt Sample.hello.args after = .ok 0 after ∧
    ¬ after.Flushed Sample.hello.fmt Sample.hello.args := by
  refine ⟨_, rfl, rfl, rfl, ?_⟩
  rintro ⟨bytes, member, text⟩
  cases member
  have short := text.length_le
  revert short
  decide

end Plex86
