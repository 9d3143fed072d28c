import Plex86.Guest.ConsoleDriver
import Plex86.Logic.Terminal

namespace Plex86

open Logic

/-- How the console shows a character. -/
def shownChar (c : Bit8u) : Bit8u := if c = newlineChar ∨ isgraph c = true then c else 0x20

namespace HalConLine

/-- The console's lines are those of a terminal: the complete ones are printed
behind a prompt each, the other is held. -/
structure Displays (con : HalConLine) (term : Terminal Bit8u) : Prop where
  printed : con.printed = (term.lines.map (prompt ++ ·)).flatten
  held : term.held = (List.range con.lineI).map con.line
  room : con.lineI ≤ lineLen
  clean : ∀ c ∈ term.held, c ≠ 0 ∧ c ≠ newlineChar

private theorem displays_empty : Displays {} {} := by
  refine ⟨rfl, rfl, by decide, ?_⟩
  intro c member
  simp at member

namespace Displays

variable {con : HalConLine} {term : Terminal Bit8u}

private theorem held_length (displays : con.Displays term) : term.held.length = con.lineI := by
  rw [displays.held]
  simp

end Displays

private theorem store_line (con : HalConLine) (c : Bit8u) {index : Nat}
    (below : index < con.lineI) :
    (con.store c).line index = con.line index :=
  Function.update_of_ne (by omega) _ _

/-- The characters before the index, once one more is stored. -/
theorem store_chars (con : HalConLine) (c : Bit8u) :
    (List.range (con.store c).lineI).map (con.store c).line =
      (List.range con.lineI).map con.line ++ [c] := by
  have last : (con.store c).line con.lineI = c := Function.update_self ..
  have earlier : (List.range con.lineI).map (con.store c).line =
      (List.range con.lineI).map con.line := by
    apply List.map_congr_left
    intro index member
    exact con.store_line c (List.mem_range.mp member)
  rw [show (con.store c).lineI = con.lineI + 1 from rfl, List.range_succ, List.map_append, earlier]
  simp [last]

/-- A string ends at its first null character. -/
theorem cString_eq {con : HalConLine} {length : Nat} (inside : length < halConLineSize)
    (null : con.line length = 0)
    (chars : ∀ c ∈ (List.range length).map con.line, c ≠ 0) :
    con.cString = (List.range length).map con.line := by
  obtain ⟨rest, split⟩ : ∃ rest, halConLineSize = length + (rest + 1) :=
    ⟨halConLineSize - length - 1, by omega⟩
  have stops : (List.map con.line (List.map (length + ·) (List.range (rest + 1)))).takeWhile
      (· ≠ 0) = [] := by
    rw [List.range_succ_eq_map]
    simp [null]
  rw [cString, split, List.range_add, List.map_append,
    List.takeWhile_append_of_pos (by simpa using chars), stops, List.append_nil]

/-- The line, terminated and printed. -/
def ended (con : HalConLine) : HalConLine := ((con.store newlineChar).store 0).print

private theorem ended_displays {con : HalConLine} {term : Terminal Bit8u}
    (displays : con.Displays term) :
    con.ended.Displays (term.finish newlineChar) := by
  have chars := con.store_chars newlineChar
  rw [← displays.held] at chars
  have kept : (List.range (con.lineI + 1)).map ((con.store newlineChar).store 0).line =
      term.held ++ [newlineChar] := by
    rw [← chars]
    apply List.map_congr_left
    intro index member
    exact (con.store newlineChar).store_line 0 (List.mem_range.mp member)
  have string : ((con.store newlineChar).store 0).cString = term.held ++ [newlineChar] := by
    have room := displays.room
    rw [← kept]
    apply cString_eq
    · unfold lineLen at room
      unfold halConLineSize lineLen
      omega
    · exact Function.update_self ..
    · intro c member
      rw [kept] at member
      rcases List.mem_append.mp member with held | last
      · exact (displays.clean c held).1
      · rw [List.mem_singleton.mp last]
        decide
  constructor
  · have before : ((con.store newlineChar).store 0).printed = con.printed := rfl
    rw [ended, print, string, before, displays.printed]
    simp [Terminal.finish]
  · rfl
  · exact Nat.zero_le _
  · intro c member
    simp at member

private theorem store_displays {con : HalConLine} {term : Terminal Bit8u} {c : Bit8u}
    (displays : con.Displays term) (room : con.lineI < lineLen) (character : c ≠ 0)
    (inLine : c ≠ newlineChar) : (con.store c).Displays (term.add newlineChar c) := by
  rw [Terminal.add, if_neg inLine]
  refine ⟨displays.printed, ?_, room, ?_⟩
  · rw [store_chars, ← displays.held]
  · intro other member
    rcases List.mem_append.mp member with held | last
    · exact displays.clean other held
    · rw [List.mem_singleton.mp last]
      exact ⟨character, inLine⟩

end HalConLine

section
variable {World : Type} {host : HostCalls World} {hal : Hal World} {term : Terminal Bit8u}

private theorem storeChar_apply (hal : Hal World) (c : Bit8u)
    (inside : hal.halConLine.lineI < halConLineSize) :
    storeChar c hal = .ok () { hal with halConLine := hal.halConLine.store c } := by
  rw [storeChar, get_bind_apply, if_pos inside, modify_apply]

private theorem endLine_apply (room : hal.halConLine.lineI ≤ lineLen) :
    endLine hal = .ok () { hal with halConLine := hal.halConLine.ended } := by
  unfold lineLen at room
  have first := storeChar_apply hal newlineChar (by unfold halConLineSize lineLen; omega)
  have second := storeChar_apply
    { hal with halConLine := hal.halConLine.store newlineChar } 0
    (by show hal.halConLine.lineI + 1 < _; unfold halConLineSize lineLen; omega)
  rw [endLine, bind_apply, first]
  simp only [bind_apply, second, modify_apply]
  rfl

private theorem endFullLine_displays (displays : hal.halConLine.Displays term) :
    ∃ con, endFullLine hal = .ok () { hal with halConLine := con } ∧
      con.Displays (term.makeRoom lineLen newlineChar) ∧ con.lineI < lineLen := by
  rw [endFullLine, get_bind_apply, Terminal.makeRoom, displays.held_length]
  by_cases full : lineLen ≤ hal.halConLine.lineI
  · rw [if_pos full, if_pos full, endLine_apply displays.room]
    exact ⟨_, rfl, HalConLine.ended_displays displays, Nat.succ_pos 80⟩
  · rw [if_neg full, if_neg full]
    exact ⟨_, rfl, displays, Nat.lt_of_not_le full⟩

private theorem halConChar_displays (hal : Hal World) (c : Bit8u)
    (displays : hal.halConLine.Displays term)
    (room : hal.halConLine.lineI < lineLen) :
    ∃ con, halConChar c hal = .ok () { hal with halConLine := con } ∧
      con.Displays (term.add newlineChar (shownChar c)) := by
  have inside : hal.halConLine.lineI < halConLineSize := by
    unfold halConLineSize
    omega
  unfold halConChar shownChar
  by_cases newline : c = newlineChar
  · rw [if_pos newline, if_pos (.inl newline), endLine_apply displays.room, Terminal.add,
      if_pos newline]
    exact ⟨_, rfl, HalConLine.ended_displays displays⟩
  rw [if_neg newline]
  by_cases graphic : isgraph c = true
  · have character : c ≠ 0 := by
      rintro rfl
      exact absurd graphic (by decide)
    rw [if_pos graphic, if_pos (.inr graphic), storeChar_apply hal c inside]
    exact ⟨_, rfl, HalConLine.store_displays displays room character newline⟩
  · rw [if_neg graphic, if_neg (not_or.mpr ⟨newline, graphic⟩), storeChar_apply hal _ inside]
    exact ⟨_, rfl, HalConLine.store_displays displays room (by decide) (by decide)⟩

/-- The loop puts the characters of the transmit buffer on the terminal. -/
theorem halConWriteLoop_displays (hal : Hal World) {area : Nat}
    (shared : (hal.halConDev 0).guestArea = some area)
    (displays : hal.halConLine.Displays term) (bufferI writeLen : Nat) :
    ∃ con touched, halConWriteLoop bufferI writeLen hal =
        .ok () { hal with halConLine := con, touched } ∧
      con.Displays (term.feed lineLen newlineChar
        ((slice hal.mem (area + txBufferOffset + bufferI) writeLen).map shownChar)) := by
  induction writeLen generalizing hal term bufferI with
  | zero => exact ⟨_, _, rfl, displays⟩
  | succ writeLen inductionHypothesis =>
      obtain ⟨free, ended, roomy, room⟩ := endFullLine_displays displays
      let c := hal.mem (area + txBufferOffset + bufferI)
      let fetched : Hal World :=
        Hal.touch { hal with halConLine := free } (area + txBufferOffset + bufferI) 1
      have fetch : txBufferChar bufferI { hal with halConLine := free } = .ok c fetched := by
        unfold txBufferChar
        simp only [get_bind_apply, shared, deref]
        rfl
      obtain ⟨con, stored, added⟩ := halConChar_displays fetched c roomy room
      obtain ⟨last, touched, rest, shown⟩ := inductionHypothesis
        { fetched with halConLine := con } shared added (bufferI + 1)
      refine ⟨last, touched, ?_, ?_⟩
      · simp only [halConWriteLoop, bind_apply, ended, fetch, stored, rest]
        rfl
      · have first : slice hal.mem (area + txBufferOffset + bufferI) (writeLen + 1) =
            c :: slice hal.mem (area + txBufferOffset + (bufferI + 1)) writeLen := by
          rw [slice, List.range_succ_eq_map, List.map_cons, List.map_map]
          refine congrArg₂ List.cons rfl (List.map_congr_left fun index _ => ?_)
          exact congrArg hal.mem (show _ + (index + 1) = _ by omega)
        rw [first, List.map_cons]
        exact shown

namespace ConsoleDriver

/-- A request puts its characters on the terminal. -/
theorem request_displays (host : HostCalls World) (hal : Hal World) {area : Nat}
    (shared : (hal.halConDev 0).guestArea = some area)
    (displays : hal.halConLine.Displays term) {quantum : List Bit8u}
    (fits : quantum.length ≤ maxConsoleFrameSize) :
    ∃ next, request host area quantum hal = .ok () next ∧
      next.halConDev = hal.halConDev ∧
      next.halConLine.Displays (term.feed lineLen newlineChar (quantum.map shownChar)) := by
  have len : (BitVec.ofNat 32 quantum.length).toNat = quantum.length := by
    rw [BitVec.toNat_ofNat]
    unfold maxConsoleFrameSize at fits
    omega
  let filled : Hal World :=
    { hal with mem := splice hal.mem (area + txBufferOffset) quantum }
  let called := ((filled.setReg genRegEAX halCallConGuestWrite).setReg genRegEBX 0).setReg genRegEDX
    (BitVec.ofNat 32 quantum.length)
  obtain ⟨con, touched, loop, shown⟩ :=
    halConWriteLoop_displays called shared displays 0 quantum.length
  have buffer : slice called.mem (area + txBufferOffset + 0) quantum.length = quantum :=
    slice_splice_self
  rw [buffer] at shown
  let served : Hal World :=
    Hal.setReg { called with halConLine := con, touched } genRegEAX 1
  have number : called.reg genRegEAX = halCallConGuestWrite := rfl
  have device : (called.reg genRegEBX).toNat = 0 := rfl
  have length : (called.reg genRegEDX).toNat = quantum.length := len
  have write : Plex86.halConGuestWrite host called = .ok () served := by
    rw [Plex86.halConGuestWrite, get_bind_apply, if_neg (by rw [device]; decide),
      if_neg (by rw [length]; omega), length, bind_apply, loop]
    rfl
  have call : halCall host called = .ok true served := by
    rw [halCall, get_bind_apply, number, if_neg (by decide), if_pos (by decide), bind_apply,
      halConCall, if_neg (by decide), if_pos rfl, write]
    rfl
  refine ⟨served, ?_, rfl, shown⟩
  show halConGuestWrite host 0 (BitVec.ofNat 32 quantum.length) filled = _
  rw [halConGuestWrite, modify_bind_apply, bind_apply, call]
  rfl

/-- So do requests one after another. -/
theorem requests_displays (host : HostCalls World) (hal : Hal World) {area : Nat}
    (shared : (hal.halConDev 0).guestArea = some area)
    (displays : hal.halConLine.Displays term) {requests : List (List Bit8u)}
    (fit : ∀ quantum ∈ requests, quantum.length ≤ maxConsoleFrameSize) :
    ∃ next, forM requests (request host area) hal = .ok () next ∧
      next.halConDev = hal.halConDev ∧
      next.halConLine.Displays
        (term.feed lineLen newlineChar (requests.flatten.map shownChar)) := by
  induction requests generalizing hal term with
  | nil => exact ⟨hal, rfl, rfl, displays⟩
  | cons quantum rest inductionHypothesis =>
      obtain ⟨middle, first, same, shown⟩ :=
        request_displays host hal shared displays (fit quantum List.mem_cons_self)
      obtain ⟨next, others, still, all⟩ := inductionHypothesis middle
        (by rw [same]; exact shared) shown
        fun other member => fit other (List.mem_cons_of_mem _ member)
      refine ⟨next, ?_, still.trans same, ?_⟩
      · rw [List.forM_cons, bind_apply, first]
        exact others
      · rw [List.flatten_cons, List.map_append, Terminal.feed_append]
        exact all

private theorem quanta_flatten (text : List Bit8u) : (quanta text).flatten = text := by
  fun_induction quanta text with
  | case1 => rfl
  | case2 text some inductionHypothesis =>
      rw [List.flatten_cons, inductionHypothesis, List.take_append_drop]

private theorem quanta_fit (text : List Bit8u) :
    ∀ quantum ∈ quanta text, quantum.length ≤ maxConsoleFrameSize := by
  fun_induction quanta text with
  | case1 => simp
  | case2 text some inductionHypothesis =>
      intro quantum member
      rcases List.mem_cons.mp member with rfl | later
      · rw [List.length_take]
        exact Nat.min_le_left ..
      · exact inductionHypothesis quantum later

/-- What the guest asks its driver to write. -/
inductive GuestWrite
  | putcs (s : List Bit16u)
  | print (s : List Bit8u)

namespace GuestWrite

/-- The characters of a write; `halcon_putcs` ends each text with a newline. -/
def characters : GuestWrite → List Bit8u
  | putcs s => s.map (·.setWidth 8) ++ [newlineChar]
  | print s => s

def run (host : HostCalls World) (area : Nat) : GuestWrite → HalM World Unit
  | putcs s => halconPutcs host area s
  | print s => halconPrint host area s

/-- The requests that a write is cut into. -/
def requests : GuestWrite → List (List Bit8u)
  | putcs s => quanta (s.map (·.setWidth 8)) ++ quanta [newlineChar]
  | print s => quanta s

private theorem run_requests (host : HostCalls World) (area : Nat) (write : GuestWrite) :
    write.run host area = forM write.requests (request host area) := by
  cases write with
  | putcs s =>
      rw [requests, List.forM_append]
      rfl
  | print s => rfl

private theorem requests_flatten (write : GuestWrite) :
    write.requests.flatten = write.characters := by
  cases write with
  | putcs s => rw [requests, List.flatten_append, quanta_flatten, quanta_flatten, characters]
  | print s => exact quanta_flatten s

private theorem requests_fit (write : GuestWrite) :
    ∀ quantum ∈ write.requests, quantum.length ≤ maxConsoleFrameSize := by
  intro quantum member
  cases write with
  | putcs s =>
      rcases List.mem_append.mp member with text | newline
      · exact quanta_fit _ quantum text
      · exact quanta_fit _ quantum newline
  | print s => exact quanta_fit _ quantum member

private theorem runs_requests (host : HostCalls World) (area : Nat) (writes : List GuestWrite) :
    forM writes (run host area) = forM (writes.flatMap requests) (request host area) := by
  induction writes with
  | nil => rfl
  | cons write rest inductionHypothesis =>
      rw [List.forM_cons, run_requests, inductionHypothesis, List.flatMap_cons, List.forM_append]

end GuestWrite
end ConsoleDriver

open ConsoleDriver

/-- However a stream of characters is cut into requests, the console shows it
with its non-graphic characters replaced and its lines broken. -/
theorem console_stream (host : HostCalls World) (hal : Hal World) {area : Nat}
    (shared : (hal.halConDev 0).guestArea = some area)
    (displays : hal.halConLine.Displays term) :
    (∀ requests : List (List Bit8u), (∀ quantum ∈ requests, quantum.length ≤ maxConsoleFrameSize) →
      ∃ next, forM requests (request host area) hal = .ok () next ∧
        next.halConLine.Displays
          (term.feed lineLen newlineChar (requests.flatten.map shownChar))) ∧
    (∀ writes : List GuestWrite, ∃ next, forM writes (GuestWrite.run host area) hal = .ok () next ∧
      next.halConLine.Displays (term.feed lineLen newlineChar
        ((writes.flatMap GuestWrite.characters).map shownChar))) ∧
    ∀ stream : List Bit8u,
      (term.feed lineLen newlineChar stream).text =
          term.text ++ wrap lineLen newlineChar term.held.length stream ∧
        (wrap lineLen newlineChar term.held.length stream).filter (· ≠ newlineChar) =
          stream.filter (· ≠ newlineChar) := by
  refine ⟨?_, ?_, ?_⟩
  · intro requests fit
    obtain ⟨next, run, _, shown⟩ := requests_displays host hal shared displays fit
    exact ⟨next, run, shown⟩
  · intro writes
    have fit : ∀ quantum ∈ writes.flatMap GuestWrite.requests,
        quantum.length ≤ maxConsoleFrameSize := by
      intro quantum member
      obtain ⟨write, _, inside⟩ := List.mem_flatMap.mp member
      exact write.requests_fit quantum inside
    have stream : (writes.flatMap GuestWrite.requests).flatten =
        writes.flatMap GuestWrite.characters := by
      rw [List.flatMap_def, List.flatten_flatten, List.map_map, List.flatMap_def]
      exact congrArg List.flatten (List.map_congr_left fun write _ => write.requests_flatten)
    obtain ⟨next, run, _, shown⟩ := requests_displays host hal shared displays fit
    rw [stream] at shown
    rw [GuestWrite.runs_requests]
    exact ⟨next, run, shown⟩
  · intro stream
    exact ⟨Terminal.feed_text term stream, wrap_keeps ..⟩

/-- A guest that writes a line on the console it has just registered. -/
theorem console_stream_sample :
    let hal : Hal Unit := { world := (), halConDev := fun _ => .register 0x1000 2056 }
    let line : List Bit8u := [0x48, 0x61, 0x6c, 0x07, 0x0a]
    ∃ next, forM [GuestWrite.print line] (GuestWrite.run .failing 0x1000) hal = .ok () next ∧
      next.halConLine.Displays { lines := [[0x48, 0x61, 0x6c, 0x20, 0x0a]] } :=
  (console_stream .failing { world := (), halConDev := fun _ => .register 0x1000 2056 } rfl
    HalConLine.displays_empty).2.1
    [.print [0x48, 0x61, 0x6c, 0x07, 0x0a]]

end
end Plex86
