import Mathlib.Data.List.ReduceOption
import Plex86.Logic.Numerals
import Plex86.Nexus.Format

/-! What a format string asks for, and that `nexusVsnprintf` is a plain sequence
of output steps. -/

namespace Plex86

open Logic

/-- The conversions of a format. -/
inductive Conversion
  | hexadecimal | decimal | binary | character | string
deriving DecidableEq

def Conversion.ofChar (c : Bit8u) : Option Conversion :=
  if c = ascii 'x' then some .hexadecimal
  else if c = ascii 'c' then some .character
  else if c = ascii 's' then some .string
  else if c = ascii 'u' then some .decimal
  else if c = ascii 'b' then some .binary
  else none

/-- A format string taken apart. -/
inductive Piece
  | char (char : Bit8u)
  | conversion (kind : Conversion) (width : Nat)
  | unsupported

mutual

def pieces : List Bit8u → List Piece
  | [] => []
  | char :: fmt => if char = ascii '%' then conversionPieces 0 fmt else .char char :: pieces fmt

/-- Inside a conversion, with the width so far. -/
def conversionPieces (width : Nat) : List Bit8u → List Piece
  | [] => [.unsupported]
  | c :: fmt =>
      if ascii '0' ≤ c ∧ c ≤ ascii '9' then
        conversionPieces (width * 10 + (c.toNat - (ascii '0').toNat)) fmt
      else match Conversion.ofChar c with
        | some kind => .conversion kind width :: pieces fmt
        | none => [.unsupported]

end

/-- The character for a digit, in upper case. -/
def digitByte (digit : Nat) : Bit8u := ascii digit.digitChar.toUpper

def numeral (base places width number : Nat) : List Bit8u :=
  (paddedDigits base (min width places) number).map digitByte

namespace Conversion

/-- The text that replaces the conversion of an argument. -/
def text (args : VaList) (width : Nat) (val : Bit32u) : Conversion → List Bit8u
  | hexadecimal => numeral 16 8 width val.toNat
  | decimal => numeral 10 10 width val.toNat
  | binary => numeral 2 32 width val.toNat
  | character => [val.setWidth 8]
  | string => (args.string val).chars

end Conversion

/-- The text a format stands for, where `asked` tells which width is taken for a width. -/
def expansion (asked : Nat → Nat) (args : VaList) : Nat → List Piece → List Bit8u
  | _, [] => []
  | taken, .char char :: rest => char :: expansion asked args taken rest
  | taken, .conversion kind width :: rest =>
      kind.text args (asked width) (args.word taken) ++ expansion asked args (taken + 1) rest
  | _, .unsupported :: _ => []

/-- The reference expansion of a format. -/
def CString.expanded (fmt : CString) (args : VaList) : List Bit8u :=
  expansion id args 0 (pieces fmt.chars)

def Piece.supported : Piece → Bool
  | .unsupported => false
  | _ => true

/-- Every conversion of the format is one there is. -/
def CString.Supported (fmt : CString) : Prop := (pieces fmt.chars).all Piece.supported = true

instance (fmt : CString) : Decidable fmt.Supported := inferInstanceAs (Decidable (_ = true))

/-- One step of the output: a character, or only its being counted. -/
abbrev Emission := Option Bit8u

/-- A string is counted once more than it has characters. -/
def Conversion.emissions (kind : Conversion) (text : List Bit8u) : List Emission :=
  match kind with
  | string => none :: text.map some
  | _ => text.map some

/-- What is output, one step after the other, up to what is not supported. -/
def emissions (args : VaList) : Nat → List Piece → List Emission
  | _, [] => []
  | taken, .char char :: rest => some char :: emissions args taken rest
  | taken, .conversion kind width :: rest =>
      kind.emissions (kind.text args (width % 2 ^ 32) (args.word taken)) ++
        emissions args (taken + 1) rest
  | _, .unsupported :: _ => []

namespace Print

variable {area : PrintArea}

section Steps

variable (area)

def emit : Emission → Print Unit
  | some char => put area char
  | none => do
      room area
      counted

def emitAll : List Emission → Print Unit
  | [] => pure ()
  | first :: rest => do
      emit area first
      emitAll rest

end Steps

private theorem emitAll_append (first second : List Emission) :
    emitAll area (first ++ second) = (emitAll area first >>= fun _ => emitAll area second) := by
  induction first with
  | nil => rfl
  | cons head rest inductionHypothesis =>
      rw [List.cons_append, emitAll, inductionHypothesis, emitAll, bind_assoc]

private theorem copied_eq (text : List Bit8u) :
    copied area text = emitAll area (text.map some) := by
  induction text with
  | nil => rfl
  | cons char rest inductionHypothesis =>
      rw [copied, inductionHypothesis]
      rfl

/-- A radix takes numbers apart to a base: of `number`, the digits below `places`
are still to come. -/
structure Radix.Lawful (radix : Radix) (base : Nat) (left : Bit32u → Nat → Nat → Prop) : Prop where
  large : 1 < base
  begins : ∀ val, left val radix.places val.toNat
  small : ∀ val places number, left val places number → number < base ^ places
  zero : ∀ val j number, left val (j + 1) number → (radix.zero val j = true ↔ number < base ^ j)
  skipped : ∀ val j number, left val (j + 1) number → number < base ^ j → left val j number
  rest : ∀ val j number, left val (j + 1) number →
    left (radix.rest val j) j (number % base ^ j)
  char : ∀ val j number, left val (j + 1) number →
    radix.char (radix.digit val j) = digitByte (number / base ^ j)

private theorem skips_eq_true {formatWidth : Bit32u} {zero : Bool} {j : Nat} (inRange : j < 32) :
    skips formatWidth zero j = true ↔
      zero = true ∧ j ≠ 0 ∧ (formatWidth.toNat = 0 ∨ formatWidth.toNat ≤ j) := by
  have place : (BitVec.ofNat 32 (j + 1)).toNat = j + 1 := by
    rw [BitVec.toNat_ofNat]
    omega
  have none : formatWidth = 0 ↔ formatWidth.toNat = 0 := by
    rw [← BitVec.toNat_inj]
    rfl
  cases zero with
  | false => simp [skips]
  | true =>
      rw [skips]
      simp only [Bool.or_eq_true, Bool.and_eq_true, bne_iff_ne, ne_eq, beq_iff_eq,
        decide_eq_true_eq, GT.gt, BitVec.lt_def, place, none, and_true, true_and]
      omega

section Digits

variable {radix : Radix} {base : Nat} {left : Bit32u → Nat → Nat → Prop}

/-- Once a digit was shown, every further one is. -/
theorem digits_shown (lawful : radix.Lawful base left) (formatWidth : Bit32u) {places : Nat}
    {val : Bit32u} {number : Nat} (remains : left val places number) :
    digits area radix formatWidth val false places =
      emitAll area ((fixedDigits base places number).map (some ∘ digitByte)) := by
  induction places generalizing val number with
  | zero => rfl
  | succ j inductionHypothesis =>
      rw [digits, Bool.false_and, if_neg Bool.false_ne_true, lawful.char val j number remains,
        inductionHypothesis (lawful.rest val j number remains)]
      rfl

/-- The numeral that a loop over the digits comes to. -/
theorem digits_eq (lawful : radix.Lawful base left) {formatWidth : Bit32u} {places : Nat}
    {val : Bit32u} {number : Nat} (some : 0 < places) (inRange : places ≤ 32)
    (remains : left val places number) :
    digits area radix formatWidth val true places = emitAll area
      ((paddedDigits base (min formatWidth.toNat places) number).map (Option.some ∘ digitByte)) := by
  induction places with
  | zero => exact absurd some (by decide)
  | succ j inductionHypothesis =>
      have small := lawful.small val (j + 1) number remains
      rw [digits, Bool.true_and]
      by_cases skip : skips formatWidth (radix.zero val j) j = true
      · obtain ⟨zero, more, narrow⟩ := (skips_eq_true inRange).mp skip
        have below := (lawful.zero val j number remains).mp zero
        have width : max 1 (min formatWidth.toNat (j + 1)) = max 1 (min formatWidth.toNat j) := by
          omega
        rw [if_pos skip, inductionHypothesis (by omega) (by omega)
          (lawful.skipped val j number remains below)]
        simp only [paddedDigits, width]
      · have shown : j = 0 ∨ j < formatWidth.toNat ∨ base ^ j ≤ number := by
          by_contra hidden
          apply skip
          have zero := (lawful.zero val j number remains).mpr (by omega)
          exact (skips_eq_true inRange).mpr ⟨zero, by omega, by omega⟩
        rw [if_neg skip, ← fixedDigits_padded lawful.large small shown,
          ← digits_shown lawful formatWidth remains, digits, Bool.false_and,
          if_neg Bool.false_ne_true]

end Digits

section Radices

variable {radix : Radix} {base : Nat}

/-- Some `places` digits, which are those of the value, are still to come. -/
def Lower (radix : Radix) (base : Nat) (val : Bit32u) (places number : Nat) : Prop :=
  places ≤ radix.places ∧ number = val.toNat % base ^ places

/-- A radix that cuts each digit out of the whole value. -/
theorem lawful_of_cut (large : 1 < base) (holds : 2 ^ 32 ≤ base ^ radix.places)
    (zero : ∀ val j, radix.zero val j = (radix.digit val j == 0))
    (cut : ∀ val j, (radix.digit val j).toNat = val.toNat / base ^ j % base)
    (rest : ∀ val j, radix.rest val j = val)
    (char : ∀ digit : Bit32u, digit.toNat < base → radix.char digit = digitByte digit.toNat) :
    radix.Lawful base (Lower radix base) := by
  have first : ∀ val j number, Lower radix base val (j + 1) number →
      (radix.digit val j).toNat = number / base ^ j := by
    rintro val j number ⟨-, rfl⟩
    rw [cut, Nat.pow_succ, Nat.mod_mul_right_div_self]
  have power : ∀ places, 0 < base ^ places := fun places => Nat.pow_pos (by omega)
  constructor
  · exact large
  · intro val
    exact ⟨Nat.le_refl _, (Nat.mod_eq_of_lt (Nat.lt_of_lt_of_le val.isLt holds)).symm⟩
  · rintro val places number ⟨-, rfl⟩
    exact Nat.mod_lt _ (power places)
  · intro val j number lower
    rw [zero, beq_iff_eq, ← BitVec.toNat_inj, first val j number lower]
    exact Nat.div_eq_zero_iff_lt (power j)
  · rintro val j number ⟨inRange, rfl⟩ below
    rw [← Nat.mod_eq_of_lt below, Nat.mod_mod_of_dvd _ (Nat.pow_dvd_pow base (Nat.le_succ j))]
    exact ⟨Nat.le_of_succ_le inRange, rfl⟩
  · rintro val j number ⟨inRange, rfl⟩
    rw [rest, Nat.mod_mod_of_dvd _ (Nat.pow_dvd_pow base (Nat.le_succ j))]
    exact ⟨Nat.le_of_succ_le inRange, rfl⟩
  · intro val j number lower
    have small : (radix.digit val j).toNat < base := by
      rw [cut]
      exact Nat.mod_lt _ (by omega)
    rw [char _ small, first val j number lower]

private theorem decimalChar_eq : ∀ digit : Bit32u, digit.toNat < 10 →
    decimalChar digit = digitByte digit.toNat := by
  have table : ∀ digit : Fin 10, decimalChar (BitVec.ofNat 32 digit) = digitByte digit := by decide
  intro digit small
  simpa using table ⟨digit.toNat, small⟩

private theorem nibbleChar_eq : ∀ digit : Bit32u, digit.toNat < 16 →
    nibbleChar digit = digitByte digit.toNat := by
  have table : ∀ digit : Fin 16, nibbleChar (BitVec.ofNat 32 digit) = digitByte digit := by decide
  intro digit small
  simpa using table ⟨digit.toNat, small⟩

private theorem hexadecimal_lawful : hexadecimal.Lawful 16 (Lower hexadecimal 16) := by
  apply lawful_of_cut (by decide) (by decide) (fun _ _ => rfl) _ (fun _ _ => rfl) nibbleChar_eq
  intro val j
  have nibble : (15#32).toNat = 2 ^ 4 - 1 := rfl
  rw [hexadecimal, BitVec.toNat_and, BitVec.toNat_ushiftRight, Nat.shiftRight_eq_div_pow, Nat.pow_mul]
  exact Nat.and_two_pow_sub_one_eq_mod _ 4

private theorem binary_lawful : binary.Lawful 2 (Lower binary 2) := by
  apply lawful_of_cut (by decide) (by decide) (fun _ _ => rfl) _ (fun _ _ => rfl)
  · intro digit small
    exact decimalChar_eq digit (by omega)
  · intro val j
    rw [binary, BitVec.toNat_and, BitVec.toNat_ushiftRight, Nat.shiftRight_eq_div_pow]
    exact Nat.and_two_pow_sub_one_eq_mod _ 1

/-- What remains of the value once its higher digits were taken away. -/
def Remaining (val : Bit32u) (places number : Nat) : Prop :=
  places ≤ 10 ∧ number = val.toNat ∧ number < 10 ^ places

private theorem powerOfTen_eq : ∀ j < 10, (powerOfTen.getD j 0).toNat = 10 ^ j := by
  decide

private theorem decimal_lawful : decimal.Lawful 10 Remaining := by
  have power : ∀ {val : Bit32u} {j number : Nat}, Remaining val (j + 1) number →
      (powerOfTen.getD j 0).toNat = 10 ^ j := fun remaining => powerOfTen_eq _ (by
    have := remaining.1
    omega)
  constructor
  · decide
  · intro val
    exact ⟨Nat.le_refl _, rfl, Nat.lt_trans val.isLt (by decide)⟩
  · exact fun _ _ _ remaining => remaining.2.2
  · intro val j number remaining
    have weight := power remaining
    obtain ⟨-, rfl, -⟩ := remaining
    rw [decimal, decide_eq_true_eq, BitVec.lt_def, weight]
  · rintro val j number ⟨inRange, same, -⟩ below
    exact ⟨Nat.le_of_succ_le inRange, same, below⟩
  · intro val j number remaining
    have weight := power remaining
    obtain ⟨inRange, rfl, -⟩ := remaining
    have whole : val.toNat / 10 ^ j * 10 ^ j ≤ val.toNat := Nat.div_mul_le_self _ _
    have product : (val / powerOfTen.getD j 0 * powerOfTen.getD j 0).toNat =
        val.toNat / 10 ^ j * 10 ^ j := by
      rw [BitVec.toNat_mul, BitVec.toNat_udiv, weight]
      exact Nat.mod_eq_of_lt (Nat.lt_of_le_of_lt whole val.isLt)
    have taken : (decimal.rest val j).toNat = val.toNat % 10 ^ j := by
      rw [decimal, BitVec.toNat_sub_of_le (by rw [BitVec.le_def, product]; exact whole), product]
      rw [Nat.mul_comm, ← Nat.mod_eq_sub_mul_div]
    refine ⟨Nat.le_of_succ_le inRange, taken.symm, Nat.mod_lt _ (Nat.pow_pos (by decide))⟩
  · intro val j number remaining
    have weight := power remaining
    obtain ⟨-, rfl, small⟩ := remaining
    have first : (decimal.digit val j).toNat = val.toNat / 10 ^ j := by
      rw [decimal, BitVec.toNat_udiv, weight]
    rw [← first]
    apply decimalChar_eq
    rw [first, Nat.div_lt_iff_lt_mul (Nat.pow_pos (by decide)), Nat.mul_comm, ← Nat.pow_succ]
    exact small

end Radices

section Formats

variable (args : VaList)

/-- How a format ends, after its output. -/
def ending (pieces : List Piece) : Print Unit :=
  if pieces.all Piece.supported then pure () else throw .error

theorem ending_supported {list : List Piece} (supported : list.all Piece.supported = true) :
    ending list = pure () :=
  if_pos supported

theorem ending_unsupported {list : List Piece} (unsupported : ¬ list.all Piece.supported = true) :
    ending list = throw .error :=
  if_neg unsupported

/-- A number is output one character after the other. -/
theorem emissions_numeral (base places width number : Nat) :
    (numeral base places width number).map some =
      (paddedDigits base (min width places) number).map (some ∘ digitByte) := by
  rw [numeral, List.map_map]

private theorem convert_eq (width : Nat) (c : Bit8u) (val : Bit32u) :
    convert area (BitVec.ofNat 32 width) c args val =
      match Conversion.ofChar c with
      | some kind => emitAll area (kind.emissions (kind.text args (width % 2 ^ 32) val))
      | none => throw .error := by
  have asked : (BitVec.ofNat 32 width).toNat = width % 2 ^ 32 := BitVec.toNat_ofNat _ _
  rw [convert, Conversion.ofChar]
  by_cases x : c = ascii 'x'
  · rw [if_pos x, if_pos x,
      digits_eq hexadecimal_lawful (by decide) (by decide) (hexadecimal_lawful.begins val), asked]
    simp only [Conversion.emissions, Conversion.text, emissions_numeral]
    rfl
  rw [if_neg x, if_neg x]
  by_cases character : c = ascii 'c'
  · rw [if_pos character, if_pos character]
    exact (bind_pure (put area (val.setWidth 8))).symm
  rw [if_neg character, if_neg character]
  by_cases string : c = ascii 's'
  · rw [if_pos string, if_pos string, copied_eq]
    simp only [Conversion.emissions, Conversion.text, emitAll, emit, bind_assoc]
  rw [if_neg string, if_neg string]
  by_cases u : c = ascii 'u'
  · rw [if_pos u, if_pos u,
      digits_eq decimal_lawful (by decide) (by decide) (decimal_lawful.begins val), asked]
    simp only [Conversion.emissions, Conversion.text, emissions_numeral]
    rfl
  rw [if_neg u, if_neg u]
  by_cases b : c = ascii 'b'
  · rw [if_pos b, if_pos b,
      digits_eq binary_lawful (by decide) (by decide) (binary_lawful.begins val), asked]
    simp only [Conversion.emissions, Conversion.text, emissions_numeral]
    rfl
  · rw [if_neg b, if_neg b]

/-- The width as the code computes it, after one more digit. -/
theorem width_step (width : Nat) {c : Bit8u} (digit : ascii '0' ≤ c) :
    BitVec.ofNat 32 width * 10 + (c - ascii '0').setWidth 32 =
      BitVec.ofNat 32 (width * 10 + (c.toNat - (ascii '0').toNat)) := by
  have weight : (c - ascii '0').setWidth 32 = BitVec.ofNat 32 (c.toNat - (ascii '0').toNat) := by
    apply BitVec.eq_of_toNat_eq
    rw [BitVec.toNat_setWidth, BitVec.toNat_sub_of_le digit, BitVec.toNat_ofNat]
  rw [BitVec.ofNat_add, BitVec.ofNat_mul, weight]
  rfl

/-- Formatting outputs what the format asks for, as far as it is supported, also
from within a conversion. -/
theorem formatted_eq (taken : Nat) (chars : List Bit8u) (nonzero : ∀ char ∈ chars, char ≠ 0) :
    formatted area args taken (chars ++ [0]) =
        (emitAll area (emissions args taken (pieces chars)) >>= fun _ => ending (pieces chars)) ∧
      ∀ width, converted area args taken (BitVec.ofNat 32 width) (chars ++ [0]) =
        (emitAll area (emissions args taken (conversionPieces width chars)) >>= fun _ =>
          ending (conversionPieces width chars)) := by
  induction chars generalizing taken with
  | nil =>
      refine ⟨rfl, fun width => ?_⟩
      rw [List.nil_append, converted, if_neg (by decide), convert_eq]
      rfl
  | cons char fmt inductionHypothesis =>
      have begins : char ≠ 0 := nonzero char List.mem_cons_self
      have rest (now : Nat) := inductionHypothesis now fun other member =>
        nonzero other (List.mem_cons_of_mem _ member)
      constructor
      · rw [List.cons_append, formatted, if_neg begins, pieces]
        by_cases percent : char = ascii '%'
        · rw [if_pos percent, if_pos percent]
          exact (rest taken).2 0
        · rw [if_neg percent, if_neg percent, (rest taken).1, emissions, emitAll, bind_assoc]
          rfl
      · intro width
        rw [List.cons_append, converted, conversionPieces]
        by_cases digit : ascii '0' ≤ char ∧ char ≤ ascii '9'
        · rw [if_pos digit, if_pos digit, width_step width digit.1]
          exact (rest taken).2 _
        · rw [if_neg digit, if_neg digit, convert_eq, (rest (taken + 1)).1]
          cases Conversion.ofChar char with
          | none => rfl
          | some kind =>
              simp only [emissions]
              rw [emitAll_append, bind_assoc]
              rfl

end Formats

end Print
end Plex86
