import Mathlib.Algebra.GroupWithZero.Nat
import Mathlib.Data.List.Nodup
import Mathlib.Data.List.Perm.Subperm
import Mathlib.Data.List.Range
import Mathlib.Tactic.Common

/-! Runs of slots that are handed out one after another, by a cursor that is reduced
modulo the number of slots at the start of each run. -/

namespace Plex86.Logic

variable {capacity cursor slot : Nat} {sizes : List Nat}

/-- The slots of runs of these sizes. -/
def handedOut (capacity : Nat) : Nat → List Nat → List Nat
  | _, [] => []
  | cursor, size :: rest =>
      List.range' (cursor % capacity) size ++ handedOut capacity (cursor + size) rest

theorem handedOut_length : (handedOut capacity cursor sizes).length = sizes.sum := by
  induction sizes generalizing cursor with
  | nil => rfl
  | cons size rest inductionHypothesis =>
      rw [handedOut, List.length_append, List.length_range', inductionHypothesis, List.sum_cons]

/-- Where there are slots enough the runs follow each other. -/
theorem handedOut_eq (fits : cursor + sizes.sum ≤ capacity) :
    handedOut capacity cursor sizes = List.range' cursor sizes.sum := by
  induction sizes generalizing cursor with
  | nil => rfl
  | cons size rest inductionHypothesis =>
      rw [List.sum_cons] at fits ⊢
      have later := @inductionHypothesis (cursor + size) (by omega)
      rw [handedOut, later]
      rcases Nat.eq_zero_or_pos size with rfl | positive
      · simp
      · have start : cursor % capacity = cursor := Nat.mod_eq_of_lt (by omega)
        rw [start, List.range'_append_1]

/-- A run that goes past the last slot has the one behind it. -/
theorem behind_mem_handedOut (room : 0 < capacity) (past : capacity ≤ slot)
    (member : slot ∈ handedOut capacity cursor sizes) :
    capacity ∈ handedOut capacity cursor sizes := by
  induction sizes generalizing cursor with
  | nil => exact absurd member List.not_mem_nil
  | cons size rest inductionHypothesis =>
      rw [handedOut] at member ⊢
      rcases List.mem_append.mp member with here | later
      · apply List.mem_append_left
        rw [List.mem_range'_1] at here ⊢
        have start := Nat.mod_lt cursor room
        omega
      · exact List.mem_append_right _ (inductionHypothesis later)

/-- Runs that are broken off behind the last slot keep to the slots and to themselves
exactly where there are slots enough. -/
theorem handedOut_apart_iff (room : 0 < capacity) :
    ((∀ slot ∈ (handedOut capacity 0 sizes).filter (· ≤ capacity), slot < capacity) ∧
        ((handedOut capacity 0 sizes).filter (· ≤ capacity)).Nodup) ↔ sizes.sum ≤ capacity := by
  constructor
  · rintro ⟨inside, once⟩
    have below : ∀ slot ∈ handedOut capacity 0 sizes, slot < capacity := by
      intro slot member
      by_contra past
      have behind := behind_mem_handedOut room (Nat.le_of_not_lt past) member
      have broken := inside capacity (List.mem_filter.mpr ⟨behind, by simp⟩)
      exact Nat.lt_irrefl _ broken
    have whole : (handedOut capacity 0 sizes).filter (· ≤ capacity) = handedOut capacity 0 sizes :=
      List.filter_eq_self.mpr fun slot member => by
        simpa using Nat.le_of_lt (below slot member)
    rw [whole] at once
    have length := (List.subperm_of_subset once fun slot member =>
      List.mem_range.mpr (below slot member)).length_le
    rwa [handedOut_length, List.length_range] at length
  · intro fits
    have runs : handedOut capacity 0 sizes = List.range' 0 sizes.sum := handedOut_eq (by omega)
    rw [runs]
    constructor
    · intro slot member
      have here := List.mem_range'_1.mp (List.mem_of_mem_filter member)
      omega
    · exact List.Nodup.filter _ List.nodup_range'

end Plex86.Logic
