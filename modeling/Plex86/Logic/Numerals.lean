import Mathlib.Data.Nat.Digits.Lemmas
import Mathlib.Tactic.Common

/-! Numerals that are read, or written, one character after the other. Nothing here
depends on what is computed from the characters, or which base the numerals are in. -/

namespace Plex86.Logic

universe u
variable {Value : Type u} {base : Nat}

/-- What holds of every digit holds of every character of a numeral. -/
theorem toDigits_forall {holds : Char → Prop} (large : 1 < base)
    (digits : ∀ digit < base, holds digit.digitChar) (number : Nat) :
    ∀ char ∈ Nat.toDigits base number, holds char := by
  induction number using Nat.strongRecOn with
  | ind number inductionHypothesis =>
      rcases Nat.lt_or_ge number base with small | more
      · rw [Nat.toDigits_of_lt_base small]
        simpa using digits number small
      · rw [Nat.toDigits_of_base_le large more]
        intro char member
        rcases List.mem_append.mp member with front | last
        · exact inductionHypothesis _ (Nat.div_lt_self (by omega) large) char front
        · rw [List.mem_singleton.mp last]
          exact digits _ (Nat.mod_lt _ (by omega))

/-- A reader that takes each digit into account as the base demands computes the number. -/
theorem foldlM_toDigits {step : Value → Char → Option Value} {value : Nat → Value}
    (large : 1 < base)
    (digits : ∀ number digit, digit < base →
      step (value number) digit.digitChar = some (value (base * number + digit)))
    (number : Nat) : (Nat.toDigits base number).foldlM step (value 0) = some (value number) := by
  induction number using Nat.strongRecOn with
  | ind number inductionHypothesis =>
      rcases Nat.lt_or_ge number base with small | more
      · rw [Nat.toDigits_of_lt_base small]
        simpa using digits 0 number small
      · have rest := inductionHypothesis _ (Nat.div_lt_self (by omega) large)
        have last := digits (number / base) (number % base) (Nat.mod_lt _ (by omega))
        rw [Nat.div_add_mod] at last
        rw [Nat.toDigits_of_base_le large more, List.foldlM_append, rest]
        simpa using last

/-- The lower `places` digits of a number, the most significant first. -/
def fixedDigits (base : Nat) : Nat → Nat → List Nat
  | 0, _ => []
  | places + 1, number =>
      number / base ^ places :: fixedDigits base places (number % base ^ places)

/-- A number as it is usually written, padded with zeros to the width asked for. -/
def paddedDigits (base width number : Nat) : List Nat :=
  (Nat.digits base number).reverse.leftpad (max 1 width) 0

theorem paddedDigits_length (base width number : Nat) :
    (paddedDigits base width number).length = max (max 1 width) (Nat.digits base number).length := by
  rw [paddedDigits, List.length_leftpad, List.length_reverse]

theorem leftpad_short {Digit : Type u} {list : List Digit} {zero : Digit} {places : Nat}
    (short : list.length ≤ places) :
    list.leftpad (places + 1) zero = zero :: list.leftpad places zero := by
  rw [List.leftpad, List.leftpad, Nat.succ_sub short, List.replicate_succ, List.cons_append]

theorem leftpad_full {Digit : Type u} {list : List Digit} {zero : Digit} {places : Nat}
    (full : places ≤ list.length) : list.leftpad places zero = list := by
  rw [List.leftpad, Nat.sub_eq_zero_of_le full, List.replicate_zero, List.nil_append]

/-- A number with more digits than `places`, taken apart at its first digit. -/
theorem digits_reverse_cons (large : 1 < base) {places number : Nat}
    (small : number < base ^ (places + 1)) (leading : base ^ places ≤ number) :
    (Nat.digits base number).reverse =
      number / base ^ places :: (Nat.digits base (number % base ^ places)).reverse.leftpad places 0 := by
  have positive : 0 < base ^ places := Nat.pow_pos (by omega)
  have low : (Nat.digits base (number % base ^ places)).length ≤ places :=
    (Nat.digits_length_le_iff large _).mpr (Nat.mod_lt _ positive)
  have first : 0 < number / base ^ places := Nat.div_pos leading positive
  have last : number / base ^ places < base := by
    rw [Nat.div_lt_iff_lt_mul positive, Nat.mul_comm]
    exact small
  have split := Nat.digits_append_zeroes_append_digits (n := number % base ^ places)
    (k := places - (Nat.digits base (number % base ^ places)).length) large first
  rw [Nat.add_sub_cancel' low, Nat.mod_add_div, Nat.digits_of_lt _ _ (by omega) last] at split
  rw [← split]
  simp [List.leftpad]

theorem fixedDigits_eq (large : 1 < base) {places number : Nat}
    (small : number < base ^ places) :
    fixedDigits base places number = (Nat.digits base number).reverse.leftpad places 0 := by
  induction places generalizing number with
  | zero =>
      have nothing : number = 0 := by simpa using small
      rw [nothing, fixedDigits, Nat.digits_zero]
      rfl
  | succ places inductionHypothesis =>
      rw [fixedDigits, inductionHypothesis (Nat.mod_lt _ (Nat.pow_pos (by omega)))]
      rcases Nat.lt_or_ge number (base ^ places) with zero | leading
      · have short : (Nat.digits base number).reverse.length ≤ places := by
          rw [List.length_reverse]
          exact (Nat.digits_length_le_iff large _).mpr zero
        rw [Nat.div_eq_of_lt zero, Nat.mod_eq_of_lt zero, leftpad_short short]
      · rw [← digits_reverse_cons large small leading, leftpad_full]
        rw [List.length_reverse]
        exact (Nat.lt_digits_length_iff large _).mpr leading

/-- A digit that is no leading zero, or within the width, begins the numeral. -/
theorem fixedDigits_padded (large : 1 < base) {places width number : Nat}
    (small : number < base ^ (places + 1))
    (shown : places = 0 ∨ places < width ∨ base ^ places ≤ number) :
    fixedDigits base (places + 1) number = paddedDigits base (min width (places + 1)) number := by
  rw [fixedDigits_eq large small, paddedDigits]
  rcases shown with rfl | wide | leading
  · rw [show max 1 (min width (0 + 1)) = 0 + 1 by omega]
  · rw [show max 1 (min width (places + 1)) = places + 1 by omega]
  · have long : places < (Nat.digits base number).reverse.length := by
      rw [List.length_reverse]
      exact (Nat.lt_digits_length_iff large _).mpr leading
    rw [leftpad_full long, leftpad_full (by omega)]

end Plex86.Logic
