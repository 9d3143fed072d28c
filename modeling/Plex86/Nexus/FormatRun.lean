import Plex86.Nexus.FormatSpec

namespace Plex86

open Logic

/-- The characters output so far. -/
def Printing.text (area : PrintArea) (now : Printing) : List Bit8u :=
  (List.range' area.start (now.str - area.start)).map now.buffer

/-- The output after one more step. -/
def Printing.emitted (now : Printing) : Emission → Printing
  | some char =>
      { buffer := Function.update now.buffer now.str char, str := now.str + 1,
        count := now.count + 1 }
  | none => { now with count := now.count + 1 }

namespace Print

variable {area : PrintArea} {before : Bytes} {now : Printing}

/-- Formatting has kept to its area, where as much of it is used as was counted. -/
structure Within (area : PrintArea) (before : Bytes) (now : Printing) : Prop where
  low : area.start ≤ now.str
  behind : now.str ≤ area.start + now.count.toNat
  spare : now.count = 0 ∨ now.count.toNat + 2 ≤ area.size.toNat
  outside : ∀ place, ¬ area.Contains place → now.buffer place = before place

/-- There is room to count so many steps more. -/
def Fits (area : PrintArea) (now : Printing) (steps : Nat) : Prop :=
  steps = 0 ∨ now.count.toNat + steps + 1 < area.size.toNat

private theorem store_inside (contains : area.Contains now.str) {char : Bit8u} :
    store area char now =
      .ok () { now with buffer := Function.update now.buffer now.str char } := by
  rw [store, get_bind_apply, if_pos contains]
  rfl

theorem store_outside (outside : ¬ area.Contains now.str) {char : Bit8u} :
    store area char now = .error (.overrun .buffer) now := by
  rw [store, get_bind_apply, if_neg outside]
  rfl

namespace Within

private theorem count_add_two (within : Within area before now) :
    (now.count + 2).toNat = now.count.toNat + 2 := by
  have bound := area.size.isLt
  rw [BitVec.toNat_add, show (2 : Bit32u).toNat = 2 by rfl, Nat.mod_eq_of_lt]
  rcases within.spare with zero | room
  · rw [zero]
    decide
  · omega

private theorem room_eq (within : Within area before now) :
    room area now =
      if now.count.toNat + 2 < area.size.toNat then .ok () now else .error .error now := by
  have full : now.count + 2 ≥ area.size ↔ ¬ now.count.toNat + 2 < area.size.toNat := by
    rw [ge_iff_le, BitVec.le_def, within.count_add_two]
    omega
  rw [room, get_bind_apply]
  by_cases fits : now.count.toNat + 2 < area.size.toNat
  · rw [if_neg fun above => full.mp above fits, if_pos fits]
    rfl
  · rw [if_pos (full.mpr fits), if_neg fits]
    rfl

/-- There is no room left for a step of the output. -/
theorem emit_full (within : Within area before now) {emission : Emission}
    (full : ¬ now.count.toNat + 2 < area.size.toNat) :
    emit area emission now = .error .error now := by
  cases emission with
  | none => rw [emit, bind_apply, within.room_eq, if_neg full]
  | some char => rw [emit, put, bind_apply, within.room_eq, if_neg full]

private theorem emit_fits (within : Within area before now) (emission : Emission)
    (fits : now.count.toNat + 2 < area.size.toNat) :
    emit area emission now = .ok () (now.emitted emission) := by
  cases emission with
  | none =>
      rw [emit, bind_apply, within.room_eq, if_pos fits]
      rfl
  | some char =>
      have contains : area.Contains now.str :=
        ⟨within.low, by have := within.behind; omega⟩
      rw [emit, put, bind_apply, within.room_eq, if_pos fits]
      simp only [bind_apply, store_inside contains]
      rfl

private theorem emitted_count (fits : now.count.toNat + 2 < area.size.toNat) (emission : Emission) :
    (now.emitted emission).count.toNat = now.count.toNat + 1 := by
  have bound := area.size.isLt
  have step : (now.count + 1).toNat = now.count.toNat + 1 := by
    rw [BitVec.toNat_add]
    exact Nat.mod_eq_of_lt (by simp; omega)
  cases emission with
  | none => exact step
  | some char => exact step

private theorem emitted (within : Within area before now) (emission : Emission)
    (fits : now.count.toNat + 2 < area.size.toNat) :
    Within area before (now.emitted emission) := by
  have count := emitted_count fits emission
  have behind := within.behind
  refine { low := ?low, behind := ?behind, spare := .inr (by omega), outside := ?outside }
  case low =>
    cases emission with
    | none => exact within.low
    | some char => exact Nat.le_succ_of_le within.low
  case behind =>
    rw [count]
    cases emission with
    | none => exact Nat.le_succ_of_le behind
    | some char => exact Nat.succ_le_succ behind
  case outside =>
    intro place outside
    cases emission with
    | none => exact within.outside place outside
    | some char =>
        have other : place ≠ now.str := by
          rintro rfl
          exact outside ⟨within.low, by omega⟩
        exact (Function.update_of_ne other _ _).trans (within.outside place outside)

end Within

/-- Output that fits is all made. -/
theorem emitAll_fits {list : List Emission} (within : Within area before now)
    (fits : Fits area now list.length) :
    emitAll area list now = .ok () (list.foldl Printing.emitted now) ∧
      Within area before (list.foldl Printing.emitted now) := by
  induction list generalizing now with
  | nil => exact ⟨rfl, within⟩
  | cons head rest inductionHypothesis =>
      rw [Fits, List.length_cons] at fits
      have first : now.count.toNat + 2 < area.size.toNat := by omega
      have count := Within.emitted_count first head
      have rest := inductionHypothesis (within.emitted head first) (.inr (by omega))
      rw [emitAll, bind_apply, within.emit_fits head first]
      exact rest

/-- Output that does not fit is given up, within the area. -/
theorem emitAll_full {list : List Emission} (within : Within area before now)
    (full : ¬ Fits area now list.length) :
    ∃ last, emitAll area list now = .error .error last ∧ Within area before last := by
  induction list generalizing now with
  | nil => exact absurd (.inl rfl) full
  | cons head rest inductionHypothesis =>
      rw [emitAll, bind_apply]
      by_cases first : now.count.toNat + 2 < area.size.toNat
      · have count := Within.emitted_count first head
        have later : ¬ Fits area (now.emitted head) rest.length := by
          rw [Fits, List.length_cons] at full
          rw [Fits]
          omega
        rw [within.emit_fits head first]
        exact inductionHypothesis (within.emitted head first) later
      · exact ⟨now, by rw [within.emit_full first], within⟩

private theorem text_emitted (low : area.start ≤ now.str) (emission : Emission) :
    (now.emitted emission).text area = now.text area ++ emission.toList := by
  cases emission with
  | none => exact (List.append_nil _).symm
  | some char =>
      have same : ∀ place ∈ List.range' area.start (now.str - area.start),
          Function.update now.buffer now.str char place = now.buffer place := by
        intro place member
        have other : place ≠ now.str := by
          have := (List.mem_range'_1.mp member).2
          omega
        exact Function.update_of_ne other _ _
      have last : area.start + (now.str - area.start) = now.str := Nat.add_sub_cancel' low
      rw [Printing.text, Printing.emitted, Nat.succ_sub low, List.range'_1_concat, List.map_append,
        List.map_congr_left same, last]
      simp [Printing.text]

private theorem low_emitted (low : area.start ≤ now.str) (emission : Emission) :
    area.start ≤ (now.emitted emission).str := by
  cases emission with
  | none => exact low
  | some char => exact Nat.le_succ_of_le low

/-- The text output is the characters among the steps. -/
theorem text_foldl (list : List Emission) (low : area.start ≤ now.str) :
    (list.foldl Printing.emitted now).text area = now.text area ++ list.reduceOption := by
  induction list generalizing now with
  | nil => simp
  | cons head rest inductionHypothesis =>
      rw [List.foldl_cons, inductionHypothesis (low_emitted low head), text_emitted low]
      cases head with
      | none => simp
      | some char => simp

private theorem str_foldl (list : List Emission) :
    (list.foldl Printing.emitted now).str = now.str + list.reduceOption.length := by
  induction list generalizing now with
  | nil => rfl
  | cons head rest inductionHypothesis =>
      rw [List.foldl_cons, inductionHypothesis]
      cases head with
      | none => rfl
      | some char =>
          rw [List.reduceOption_cons_of_some, List.length_cons]
          exact Nat.add_right_comm _ _ _

private theorem count_foldl (list : List Emission) (fits : Fits area now list.length) :
    (list.foldl Printing.emitted now).count.toNat = now.count.toNat + list.length := by
  induction list generalizing now with
  | nil => rfl
  | cons head rest inductionHypothesis =>
      rw [Fits, List.length_cons] at fits
      have first : now.count.toNat + 2 < area.size.toNat := by omega
      have count := Within.emitted_count first head
      rw [List.foldl_cons, inductionHypothesis (.inr (by omega)), count, List.length_cons]
      omega

end Print

namespace CString

variable {area : PrintArea} {buffer : Bytes} {fmt : CString} {args : VaList}

/-- The steps in which a format is output. -/
def steps (fmt : CString) (args : VaList) : List Emission := emissions args 0 (pieces fmt.chars)

/-- The format is supported, and its output and a null character fit. -/
def FitsIn (fmt : CString) (args : VaList) (size : Nat) : Prop :=
  fmt.Supported ∧ ((fmt.steps args).length = 0 ∨ (fmt.steps args).length + 2 ≤ size)

/-- How memory looks when a format was output. -/
structure Output (area : PrintArea) (buffer : Bytes) (fmt : CString) (args : VaList)
    (ret : Bit32u) (now : Printing) : Prop where
  text : now.text area = (fmt.steps args).reduceOption
  str : now.str = area.start + (fmt.steps args).reduceOption.length
  count : ret.toNat = (fmt.steps args).length
  returned : ret ≠ -1
  null : now.buffer now.str = 0
  inside : area.Contains now.str
  outside : ∀ place, ¬ area.Contains place → now.buffer place = buffer place

/-- Where formatting starts. -/
def start (area : PrintArea) (buffer : Bytes) : Printing := { buffer, str := area.start }

theorem begins (area : PrintArea) (buffer : Bytes) : Print.Within area buffer (start area buffer) where
  low := Nat.le_refl _
  behind := Nat.le_add_right _ _
  spare := .inl rfl
  outside := fun _ _ => rfl

private theorem start_fits {length : Nat} :
    Print.Fits area (start area buffer) length ↔ length = 0 ∨ length + 2 ≤ area.size.toNat := by
  have none : (start area buffer).count.toNat = 0 := rfl
  rw [Print.Fits, none]
  omega

theorem completed_eq (area : PrintArea) (fmt : CString) (args : VaList) :
    Print.completed area fmt args = (do
      Print.emitAll area (fmt.steps args)
      Print.ending (pieces fmt.chars)
      Print.store area 0
      let now ← get
      pure now.count) := by
  rw [Print.completed, bytes, (Print.formatted_eq args 0 fmt.chars fmt.nonzero).1, steps, bind_assoc]

/-- What fits is output. -/
theorem FitsIn.output (fits : fmt.FitsIn args area.size.toNat) (some : 0 < area.size.toNat)
    (buffer : Bytes) :
    ∃ ret now, nexusVsnprintf buffer area fmt args = .ok (ret, now) ∧
      Output area buffer fmt args ret now := by
  obtain ⟨supported, small⟩ := fits
  have room := (@start_fits area buffer _).mpr small
  obtain ⟨run, within⟩ := Print.emitAll_fits (begins area buffer) room
  have count := Print.count_foldl _ room
  have text := Print.text_foldl (fmt.steps args) (begins area buffer).low
  have str := @Print.str_foldl (start area buffer) (fmt.steps args)
  generalize (fmt.steps args).foldl Printing.emitted (start area buffer) = last
    at run within count text str
  have counted : last.count.toNat = (fmt.steps args).length := by
    rw [count]
    exact Nat.zero_add _
  have inside : area.Contains last.str := by
    have behind := within.behind
    exact ⟨within.low, by omega⟩
  have ended : Print.ending (pieces fmt.chars) last = .ok () last := by
    rw [Print.ending_supported supported]
    rfl
  have completed : Print.completed area fmt args (start area buffer) =
      .ok last.count { last with buffer := Function.update last.buffer last.str 0 } := by
    rw [completed_eq]
    exact bind_ok.mpr ⟨(), last, run, bind_ok.mpr ⟨(), last, ended,
      bind_ok.mpr ⟨(), _, Print.store_inside inside, rfl⟩⟩⟩
  refine ⟨last.count, { last with buffer := Function.update last.buffer last.str 0 }, ?run, ?out⟩
  case run =>
    rw [nexusVsnprintf, ← start, completed]
  case out =>
    have bound := area.size.isLt
    have null : Function.update last.buffer last.str 0 last.str = 0 := Function.update_self _ _ _
    refine ⟨?text, str, counted, ?returned, null, inside, ?outside⟩
    case text =>
      have same : ∀ place ∈ List.range' area.start (last.str - area.start),
          Function.update last.buffer last.str 0 place = last.buffer place := by
        intro place member
        have other : place ≠ last.str := by
          have := (List.mem_range'_1.mp member).2
          have := inside.1
          omega
        exact Function.update_of_ne other _ _
      have none : (start area buffer).text area = [] := by
        simp [Printing.text, start]
      rw [none, List.nil_append] at text
      rw [← text]
      exact List.map_congr_left same
    case returned =>
      intro error
      rw [error] at counted
      have minus : (-1 : Bit32u).toNat = 2 ^ 32 - 1 := rfl
      omega
    case outside =>
      intro place outside
      have other : place ≠ last.str := by
        rintro rfl
        exact outside inside
      exact (Function.update_of_ne other _ _).trans (within.outside place outside)

/-- What does not fit, or is not supported, is refused within the area. -/
theorem refused (unfit : ¬ fmt.FitsIn args area.size.toNat) (buffer : Bytes) :
    ∃ now, nexusVsnprintf buffer area fmt args = .ok (-1, now) ∧
      ∀ place, ¬ area.Contains place → now.buffer place = buffer place := by
  obtain ⟨last, completed, within⟩ : ∃ last,
      Print.completed area fmt args (start area buffer) = .error .error last ∧
        Print.Within area buffer last := by
    rw [completed_eq]
    by_cases room : Print.Fits area (start area buffer) (fmt.steps args).length
    · have unsupported : ¬ (pieces fmt.chars).all Piece.supported = true :=
        fun supported => unfit ⟨supported, start_fits.mp room⟩
      obtain ⟨run, within⟩ := Print.emitAll_fits (begins area buffer) room
      have ended : ∀ now, Print.ending (pieces fmt.chars) now = .error .error now := by
        intro now
        rw [Print.ending_unsupported unsupported]
        rfl
      exact ⟨_, bind_error.mpr (.inr ⟨(), _, run, bind_error.mpr (.inl (ended _))⟩), within⟩
    · obtain ⟨last, run, within⟩ := Print.emitAll_full (begins area buffer) room
      exact ⟨last, bind_error.mpr (.inl run), within⟩
  exact ⟨last, by rw [nexusVsnprintf, ← start, completed], within.outside⟩

end CString

/-- Formatting accesses the format only up to its null character and memory only in its area.
Unless it fails it ends its output there with a null character, whatever memory held. -/
theorem nexusVsnprintf_contained (area : PrintArea) (some : 1 ≤ area.size.toNat) (fmt : CString)
    (args : VaList) :
    ∃ ret last, ∀ buffer, ∃ now, nexusVsnprintf buffer area fmt args = .ok (ret, now) ∧
      (∀ place, ¬ area.Contains place → now.buffer place = buffer place) ∧
      (ret ≠ -1 → area.Contains last ∧ now.buffer last = 0) := by
  by_cases fits : fmt.FitsIn args area.size.toNat
  · refine ⟨BitVec.ofNat 32 (fmt.steps args).length,
      area.start + (fmt.steps args).reduceOption.length, fun buffer => ?_⟩
    obtain ⟨ret, now, run, output⟩ := fits.output some buffer
    have count : ret = BitVec.ofNat 32 (fmt.steps args).length := by
      rw [← output.count, BitVec.ofNat_toNat, BitVec.setWidth_eq]
    refine ⟨now, by rw [run, count], output.outside, fun _ => ?_⟩
    rw [← output.str]
    exact ⟨output.inside, output.null⟩
  · refine ⟨-1, 0, fun buffer => ?_⟩
    obtain ⟨now, run, outside⟩ := CString.refused fits buffer
    exact ⟨now, run, outside, fun returned => absurd rfl returned⟩

/-- A format that ends inside a conversion, formatted into a buffer of one byte. -/
theorem nexusVsnprintf_contained_one :
    1 ≤ (PrintArea.mk 7 1).size.toNat ∧ ∃ ret last, ∀ buffer, ∃ now,
      nexusVsnprintf buffer ⟨7, 1⟩ ⟨[ascii '%', ascii '4'], by decide⟩ ⟨fun _ => 0, fun _ => ⟨[], by simp⟩⟩ =
        .ok (ret, now) ∧
      (∀ place, ¬ (PrintArea.mk 7 1).Contains place → now.buffer place = buffer place) ∧
      (ret ≠ -1 → (PrintArea.mk 7 1).Contains last ∧ now.buffer last = 0) :=
  ⟨by decide, nexusVsnprintf_contained ⟨7, 1⟩ (by decide) _ _⟩

end Plex86
