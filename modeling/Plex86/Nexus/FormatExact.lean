import Plex86.Nexus.FormatRun

namespace Plex86

open Logic

/-- Taken modulo the size of a word, the width still pads as far. -/
def WidthKept (base places width number : Nat) : Prop :=
  min width places ≤ max (max 1 (min (width % 2 ^ 32) places)) (Nat.digits base number).length

/-- A conversion that is output, and counted, as it should be. -/
def Conversion.Exact (width : Nat) (val : Bit32u) : Conversion → Prop
  | hexadecimal => WidthKept 16 8 width val.toNat
  | decimal => WidthKept 10 10 width val.toNat
  | binary => WidthKept 2 32 width val.toNat
  | character => True
  | string => False

def PiecesExact (args : VaList) : Nat → List Piece → Prop
  | _, [] => True
  | taken, .char _ :: rest => PiecesExact args taken rest
  | taken, .conversion kind width :: rest =>
      kind.Exact width (args.word taken) ∧ PiecesExact args (taken + 1) rest
  | _, .unsupported :: _ => True

/-- The format has no strings, and no widths that a word loses. -/
def CString.Exact (fmt : CString) (args : VaList) : Prop := PiecesExact args 0 (pieces fmt.chars)

private theorem numeral_length (base places width number : Nat) :
    (numeral base places width number).length =
      max (max 1 (min width places)) (Nat.digits base number).length := by
  rw [numeral, List.length_map, paddedDigits_length]

/-- Numerals differ in the padding only. -/
theorem numeral_congr {base places width other number : Nat}
    (same : (numeral base places width number).length = (numeral base places other number).length) :
    numeral base places width number = numeral base places other number := by
  rw [numeral_length, numeral_length] at same
  have zeros : max 1 (min width places) - (Nat.digits base number).length =
      max 1 (min other places) - (Nat.digits base number).length := by omega
  simp only [numeral, paddedDigits, List.leftpad, List.length_reverse, zeros]

private theorem numeral_mod_length (base places width number : Nat) :
    (numeral base places (width % 2 ^ 32) number).length ≤
      (numeral base places width number).length := by
  have less : width % 2 ^ 32 ≤ width := Nat.mod_le _ _
  rw [numeral_length, numeral_length]
  omega

private theorem numeral_mod_eq {base places width number : Nat} :
    numeral base places (width % 2 ^ 32) number = numeral base places width number ↔
      WidthKept base places width number := by
  have shorter := numeral_mod_length base places width number
  constructor
  · intro same
    have lengths := congrArg List.length same
    rw [numeral_length, numeral_length] at lengths
    rw [WidthKept]
    omega
  · intro kept
    apply numeral_congr
    rw [WidthKept] at kept
    rw [numeral_length, numeral_length] at shorter ⊢
    omega

namespace Conversion

variable (args : VaList) (width : Nat) (val : Bit32u) (kind : Conversion)

private theorem text_mod_length :
    (kind.text args (width % 2 ^ 32) val).length ≤ (kind.text args width val).length := by
  cases kind with
  | hexadecimal => exact numeral_mod_length _ _ _ _
  | decimal => exact numeral_mod_length _ _ _ _
  | binary => exact numeral_mod_length _ _ _ _
  | character => exact Nat.le_refl _
  | string => exact Nat.le_refl _

private theorem reduceOption_emissions (text : List Bit8u) :
    (kind.emissions text).reduceOption = text := by
  have plain : (text.map some).reduceOption = text := by simp [List.reduceOption]
  cases kind with
  | string => exact plain
  | _ => exact plain

private theorem length_emissions (text : List Bit8u) :
    text.length ≤ (kind.emissions text).length := by
  cases kind with
  | string => simp [emissions]
  | _ => simp [emissions]

/-- A conversion is output as it should be exactly where it is counted so. -/
theorem exact_iff :
    kind.text args (width % 2 ^ 32) val = kind.text args width val ∧
        (kind.emissions (kind.text args (width % 2 ^ 32) val)).length =
          (kind.text args (width % 2 ^ 32) val).length ↔
      kind.Exact width val := by
  cases kind with
  | hexadecimal => simpa [text, emissions, Exact] using numeral_mod_eq
  | decimal => simpa [text, emissions, Exact] using numeral_mod_eq
  | binary => simpa [text, emissions, Exact] using numeral_mod_eq
  | character => simp [text, emissions, Exact]
  | string => simp [text, emissions, Exact]

end Conversion

section Expansion

variable (args : VaList)

private theorem reduceOption_emissions (taken : Nat) (list : List Piece) :
    (emissions args taken list).reduceOption = expansion (· % 2 ^ 32) args taken list := by
  induction list generalizing taken with
  | nil => rfl
  | cons head rest inductionHypothesis =>
      cases head with
      | char char =>
          rw [emissions, List.reduceOption_cons_of_some, inductionHypothesis, expansion]
      | conversion kind width =>
          rw [emissions, List.reduceOption_append, kind.reduceOption_emissions,
            inductionHypothesis, expansion]
      | unsupported => rfl

private theorem expansion_mod_length (taken : Nat) (list : List Piece) :
    (expansion (· % 2 ^ 32) args taken list).length ≤ (expansion id args taken list).length := by
  induction list generalizing taken with
  | nil => exact Nat.le_refl _
  | cons head rest inductionHypothesis =>
      cases head with
      | char char => exact Nat.succ_le_succ (inductionHypothesis taken)
      | conversion kind width =>
          rw [expansion, expansion, List.length_append, List.length_append]
          exact Nat.add_le_add (kind.text_mod_length args width _) (inductionHypothesis _)
      | unsupported => exact Nat.le_refl _

private theorem length_emissions (taken : Nat) (list : List Piece) :
    (expansion (· % 2 ^ 32) args taken list).length ≤ (emissions args taken list).length := by
  induction list generalizing taken with
  | nil => exact Nat.le_refl _
  | cons head rest inductionHypothesis =>
      cases head with
      | char char => exact Nat.succ_le_succ (inductionHypothesis taken)
      | conversion kind width =>
          rw [expansion, emissions, List.length_append, List.length_append]
          exact Nat.add_le_add (kind.length_emissions _) (inductionHypothesis _)
      | unsupported => exact Nat.le_refl _

/-- The output is the expansion, counted character by character, exactly where every
conversion is. -/
theorem expansion_exact (taken : Nat) (list : List Piece) :
    expansion (· % 2 ^ 32) args taken list = expansion id args taken list ∧
        (emissions args taken list).length = (expansion (· % 2 ^ 32) args taken list).length ↔
      PiecesExact args taken list := by
  induction list generalizing taken with
  | nil => simp [expansion, emissions, PiecesExact]
  | cons head rest inductionHypothesis =>
      cases head with
      | char char => simp [expansion, emissions, PiecesExact, ← inductionHypothesis]
      | unsupported => simp [expansion, emissions, PiecesExact]
      | conversion kind width =>
          rw [PiecesExact, ← inductionHypothesis, ← kind.exact_iff args]
          have shorter := kind.text_mod_length args width (args.word taken)
          have fewer := kind.length_emissions (kind.text args (width % 2 ^ 32) (args.word taken))
          have shorterRest := expansion_mod_length args (taken + 1) rest
          have fewerRest := length_emissions args (taken + 1) rest
          rw [expansion, expansion, emissions]
          simp only [List.length_append, id]
          constructor
          · rintro ⟨same, count⟩
            have lengths := congrArg List.length same
            simp only [List.length_append] at lengths
            obtain ⟨first, last⟩ := List.append_inj same (by omega)
            exact ⟨⟨first, by omega⟩, last, by omega⟩
          · rintro ⟨⟨first, count⟩, last, counts⟩
            exact ⟨by rw [first, last], by omega⟩

end Expansion

namespace CString

variable {area : PrintArea} {buffer : Bytes} {fmt : CString} {args : VaList}
variable {ret : Bit32u} {now : Printing}

/-- There is no room for a null character in an empty area. -/
theorem FitsIn.overruns (fits : fmt.FitsIn args area.size.toNat) (none : area.size.toNat = 0) :
    Print.completed area fmt args (start area buffer) =
      .error (.overrun .buffer) (start area buffer) := by
  have nothing : fmt.steps args = [] := by
    apply List.eq_nil_of_length_eq_zero
    have := fits.2
    omega
  have outside : ¬ area.Contains (start area buffer).str := fun inside => by
    have := inside.1
    have := inside.2
    omega
  rw [completed_eq, nothing, Print.emitAll, pure_bind, Print.ending_supported fits.1, pure_bind]
  exact bind_error.mpr (.inl (Print.store_outside outside))

/-- Formatting that did not fail has output the whole format. -/
theorem output_of_returned (run : nexusVsnprintf buffer area fmt args = .ok (ret, now))
    (returned : ret ≠ -1) : Output area buffer fmt args ret now := by
  by_cases fits : fmt.FitsIn args area.size.toNat
  · rcases Nat.eq_zero_or_pos area.size.toNat with none | some
    · rw [nexusVsnprintf, ← start, fits.overruns none] at run
      cases run
    · obtain ⟨found, last, other, output⟩ := fits.output some buffer
      rw [run] at other
      cases other
      exact output
  · obtain ⟨last, other, -⟩ := refused fits buffer
    rw [run] at other
    cases other
    exact absurd rfl returned

end CString

/-- Formatting that did not fail has output the expansion of its format and returns its length
exactly where the format holds no string and no width that a word loses. -/
theorem nexusVsnprintf_exact {area : PrintArea} {buffer : Bytes} {fmt : CString} {args : VaList}
    {ret : Bit32u} {now : Printing} (run : nexusVsnprintf buffer area fmt args = .ok (ret, now))
    (returned : ret ≠ -1) :
    (now.text area = fmt.expanded args ∧ now.buffer now.str = 0 ∧
      ret.toNat = (fmt.expanded args).length) ↔ fmt.Exact args := by
  have output := CString.output_of_returned run returned
  have code : (fmt.steps args).reduceOption = expansion (· % 2 ^ 32) args 0 (pieces fmt.chars) :=
    reduceOption_emissions args 0 _
  rw [CString.Exact, ← expansion_exact, output.text, code, output.count, CString.expanded]
  constructor
  · rintro ⟨same, -, count⟩
    exact ⟨same, by rw [same]; exact count⟩
  · rintro ⟨same, count⟩
    exact ⟨same, output.null, by rw [← same]; exact count⟩

namespace Sample

/-- A format of one conversion, with arguments that are all the word 43, which as a
pointer is to a string of two letters. -/
def conversion (c : Bit8u) (nonzero : c ≠ 0) : CString :=
  ⟨[ascii '%', c], by simpa using ⟨by decide, nonzero⟩⟩

def letters : VaList := ⟨fun _ => 43, fun _ => ⟨[ascii 'o', ascii 'k'], by decide⟩⟩

end Sample

/-- A number is output as it should be. -/
theorem nexusVsnprintf_exact_number : ∃ ret now,
    nexusVsnprintf (fun _ => 0) ⟨5, 20⟩ (Sample.conversion (ascii 'x') (by decide)) Sample.letters =
        .ok (ret, now) ∧ ret ≠ -1 ∧
      ((now.text ⟨5, 20⟩ =
          (Sample.conversion (ascii 'x') (by decide)).expanded Sample.letters ∧
        now.buffer now.str = 0 ∧
        ret.toNat = ((Sample.conversion (ascii 'x') (by decide)).expanded Sample.letters).length) ↔
      (Sample.conversion (ascii 'x') (by decide)).Exact Sample.letters) := by
  have fits : (Sample.conversion (ascii 'x') (by decide)).FitsIn Sample.letters 20 :=
    ⟨by decide, by decide⟩
  obtain ⟨ret, now, run, output⟩ := @CString.FitsIn.output ⟨5, 20⟩ _ _ fits (by decide) fun _ => 0
  exact ⟨ret, now, run, output.returned, nexusVsnprintf_exact run output.returned⟩

/-- A string of two letters is counted as three. -/
theorem nexusVsnprintf_counts_three : ∃ ret now,
    nexusVsnprintf (fun _ => 0) ⟨5, 20⟩ (Sample.conversion (ascii 's') (by decide)) Sample.letters =
        .ok (ret, now) ∧ ret ≠ -1 ∧ ret.toNat = 3 ∧
      now.text ⟨5, 20⟩ = [ascii 'o', ascii 'k'] ∧
      (Sample.conversion (ascii 's') (by decide)).expanded Sample.letters = [ascii 'o', ascii 'k'] := by
  have fits : (Sample.conversion (ascii 's') (by decide)).FitsIn Sample.letters 20 :=
    ⟨by decide, by decide⟩
  obtain ⟨ret, now, run, output⟩ := @CString.FitsIn.output ⟨5, 20⟩ _ _ fits (by decide) fun _ => 0
  exact ⟨ret, now, run, output.returned, output.count, output.text, by decide⟩

end Plex86
