import Plex86.Logic.Bytes

namespace Plex86.Logic

/-- The `length` bytes from `offset` on. -/
def slice (bytes : Bytes) (offset length : Nat) : List (BitVec 8) :=
  (List.range length).map fun index => bytes (offset + index)

/-- Put bytes into memory from `offset` on. -/
def splice (bytes : Bytes) (offset : Nat) (data : List (BitVec 8)) : Bytes := fun place =>
  if offset ≤ place then data.getD (place - offset) (bytes place) else bytes place

variable {bytes other : Bytes} {offset place length : Nat} {data : List (BitVec 8)}

@[simp] theorem slice_length : (slice bytes offset length).length = length := by
  simp [slice]

theorem slice_append {more : Nat} : slice bytes offset length ++ slice bytes (offset + length) more =
    slice bytes offset (length + more) := by
  simp only [slice, List.range_add, List.map_append, List.map_map, Function.comp_def, Nat.add_assoc]

theorem slice_congr
    (same : ∀ place, offset ≤ place → place < offset + length → bytes place = other place) :
    slice bytes offset length = slice other offset length := by
  apply List.map_congr_left
  intro index member
  have inside : index < length := List.mem_range.mp member
  exact same _ (by omega) (by omega)

theorem splice_inside {index : Nat} (inside : index < data.length) :
    splice bytes offset data (offset + index) = data[index] := by
  rw [splice, if_pos (by omega), Nat.add_sub_cancel_left, List.getD_eq_getElem?_getD,
    List.getElem?_eq_getElem inside, Option.getD_some]

theorem splice_outside (outside : place < offset ∨ offset + data.length ≤ place) :
    splice bytes offset data place = bytes place := by
  unfold splice
  split
  · next above =>
    have past : data.length ≤ place - offset := by omega
    rw [List.getD_eq_getElem?_getD, List.getElem?_eq_none past, Option.getD_none]
  · rfl

/-- What was put in is read back. -/
theorem slice_splice_self : slice (splice bytes offset data) offset data.length = data := by
  apply List.ext_getElem
  · rw [slice_length]
  · intro index first second
    simp only [slice, List.getElem_map, List.getElem_range]
    exact splice_inside second

/-- Bytes that are put elsewhere leave a stretch alone. -/
theorem slice_splice_disjoint
    (apart : place + length ≤ offset ∨ offset + data.length ≤ place) :
    slice (splice bytes offset data) place length = slice bytes place length :=
  slice_congr fun _ low high => splice_outside (by omega)

end Plex86.Logic
