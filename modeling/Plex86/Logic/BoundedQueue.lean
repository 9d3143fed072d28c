import Mathlib.Data.List.DropRight
import Mathlib.Data.List.Nodup
import Mathlib.Logic.Function.Basic
import Mathlib.Tactic.Common

/-! A queue of bounded length that makes room by dropping its oldest item, and
the ring of slots that stores it. -/

namespace Plex86.Logic

universe u v
variable {α : Type u} {β : Type v}

/-- Add an item behind the others; a full queue drops its oldest item first. -/
def push (capacity : Nat) (item : α) (queue : List α) : List α :=
  if queue.length < capacity then queue ++ [item] else queue.tail ++ [item]

theorem push_of_lt {capacity : Nat} {item : α} {queue : List α}
    (room : queue.length < capacity) : push capacity item queue = queue ++ [item] :=
  if_pos room

theorem push_of_full {capacity : Nat} {item : α} {queue : List α}
    (full : ¬ queue.length < capacity) : push capacity item queue = queue.tail ++ [item] :=
  if_neg full

theorem mem_of_mem_push {capacity : Nat} {item other : α} {queue : List α}
    (member : other ∈ push capacity item queue) : other ∈ queue ∨ other = item := by
  unfold push at member
  split at member
  · simpa using member
  · rcases List.mem_append.mp member with kept | added
    · exact .inl (List.mem_of_mem_tail kept)
    · exact .inr (by simpa using added)

theorem push_nodup {capacity : Nat} {item : α} {queue : List α} (distinct : queue.Nodup)
    (fresh : item ∉ queue) : (push capacity item queue).Nodup := by
  unfold push
  split
  · exact distinct.append (List.nodup_singleton item) (by simpa using fresh)
  · have kept : item ∉ queue.tail := fun member => fresh (List.mem_of_mem_tail member)
    exact (distinct.sublist (List.tail_sublist queue)).append (List.nodup_singleton item)
      (by simpa using kept)

/-- In a queue of more than one item, the item pushed last is not the first. -/
theorem push_head_ne {capacity : Nat} {item : α} {queue : List α} (fresh : item ∉ queue)
    (long : 1 < (push capacity item queue).length) :
    (push capacity item queue).head? ≠ some item := by
  intro head
  by_cases room : queue.length < capacity
  · rw [push_of_lt room] at long head
    cases queue with
    | nil => simp at long
    | cons first rest => simp_all
  · rw [push_of_full room] at long head
    match queue with
    | [] => simp at long
    | [_] => simp at long
    | _ :: second :: rest => simp_all

theorem push_map (capacity : Nat) (item : α) (queue : List α) (label : α → β) :
    (push capacity item queue).map label = push capacity (label item) (queue.map label) := by
  by_cases room : queue.length < capacity
  · rw [push_of_lt room, push_of_lt (by simpa using room)]
    simp
  · rw [push_of_full room, push_of_full (by simpa using room)]
    simp [List.map_tail]

/-- Pushing onto the last items of a list leaves the last items of the longer list. -/
theorem push_rtake {capacity : Nat} (positive : 0 < capacity) (item : α) (items : List α) :
    push capacity item (items.rtake capacity) = (items ++ [item]).rtake capacity := by
  simp only [List.rtake, push, List.length_drop, List.length_append, List.length_singleton]
  by_cases room : items.length < capacity
  · have first : items.length - capacity = 0 := by omega
    have second : items.length + 1 - capacity = 0 := by omega
    simp [first, second, room]
  · have longer : items.length + 1 - capacity = items.length - capacity + 1 := by omega
    have full : ¬ items.length - (items.length - capacity) < capacity := by omega
    rw [if_neg full, longer, List.drop_append_of_le_length (by omega), List.tail_drop]

theorem rtake_reverse (capacity : Nat) (items : List α) :
    items.reverse.rtake capacity = (items.take capacity).reverse := by
  rw [List.rtake_eq_reverse_take_reverse, List.reverse_reverse]

/-- In a list kept newest first, the oldest of the last `capacity` items. -/
theorem take_split {capacity : Nat} (positive : 0 < capacity) {items : List α}
    (long : capacity ≤ items.length) :
    ∃ newer oldest older, items = newer ++ oldest :: older ∧
      newer.length = capacity - 1 ∧ items.take capacity = newer ++ [oldest] := by
  obtain ⟨size, rfl⟩ : ∃ size, capacity = size + 1 := ⟨capacity - 1, by omega⟩
  refine ⟨items.take size, items[size], items.drop (size + 1), ?_, by simp; omega, ?_⟩
  · rw [← List.drop_eq_getElem_cons, List.take_append_drop]
  · rw [List.take_succ_eq_append_getElem]

/-- Ask for an item: one that is queued already stays where it is. -/
def request [DecidableEq α] (capacity : Nat) (item : α) (queue : List α) : List α :=
  if item ∈ queue then queue else push capacity item queue

/-- Ask for items one after another. -/
def requests [DecidableEq α] (capacity : Nat) (queue items : List α) : List α :=
  items.foldl (fun queue item => request capacity item queue) queue

/-- Asking for an item drops another one. -/
def overflows [DecidableEq α] (capacity : Nat) (item : α) (queue : List α) : Bool :=
  decide (item ∉ queue ∧ ¬ queue.length < capacity)

/-- Asking for items one after another drops an item at some point. -/
def overflow [DecidableEq α] (capacity : Nat) : List α → List α → Bool
  | _, [] => false
  | queue, item :: rest =>
      overflows capacity item queue || overflow capacity (request capacity item queue) rest

theorem requests_append [DecidableEq α] (capacity : Nat) (queue first second : List α) :
    requests capacity queue (first ++ second) =
      requests capacity (requests capacity queue first) second :=
  List.foldl_append

theorem overflow_append [DecidableEq α] (capacity : Nat) (queue first second : List α) :
    overflow capacity queue (first ++ second) =
      (overflow capacity queue first ||
        overflow capacity (requests capacity queue first) second) := by
  induction first generalizing queue with
  | nil => rfl
  | cons item rest inductionHypothesis =>
      rw [List.cons_append, overflow, overflow, inductionHypothesis, Bool.or_assoc]
      rfl

/-- The queue held by a ring of slots, oldest item first. While the ring fills
up the slots are used in order; after that `tail` is the oldest slot. -/
def ringList (capacity entries tail : Nat) (slots : Nat → α) : List α :=
  if entries < capacity then (List.range entries).map slots
  else (List.range capacity).map fun index => slots ((tail + index) % capacity)

/-- The two indices of a ring agree on how full it is. -/
structure RingOk (capacity entries tail : Nat) : Prop where
  bounded : entries ≤ capacity
  filling : entries < capacity → tail = entries
  inside : tail < capacity

theorem ringList_length {capacity entries tail : Nat} (slots : Nat → α)
    (valid : RingOk capacity entries tail) :
    (ringList capacity entries tail slots).length = entries := by
  have bounded := valid.bounded
  unfold ringList
  split <;> simp
  omega

theorem ringList_head {capacity entries tail : Nat} (slots : Nat → α)
    (valid : RingOk capacity entries tail) (full : ¬ entries < capacity) :
    (ringList capacity entries tail slots).head? = some (slots tail) := by
  have inside := valid.inside
  have positive : 0 < capacity := by omega
  obtain ⟨size, rfl⟩ : ∃ size, capacity = size + 1 := ⟨capacity - 1, by omega⟩
  simp [ringList, full, List.range_succ_eq_map, Nat.mod_eq_of_lt inside]

/-- Filling the next slot of a ring with room pushes the item. -/
theorem ringList_fill {capacity entries tail : Nat} {slots : Nat → α} {item : α}
    (valid : RingOk capacity entries tail) (room : entries < capacity) :
    ringList capacity (entries + 1) ((entries + 1) % capacity)
      (Function.update slots entries item) =
        push capacity item (ringList capacity entries tail slots) := by
  rw [push_of_lt (by rw [ringList_length slots valid]; exact room)]
  have same : (List.range entries).map (Function.update slots entries item) =
      (List.range entries).map slots := by
    apply List.map_congr_left
    intro index member
    have below := List.mem_range.mp member
    have differs : index ≠ entries := by omega
    exact Function.update_of_ne differs item slots
  by_cases more : entries + 1 < capacity
  · rw [Nat.mod_eq_of_lt more]
    simp [ringList, more, room, List.range_succ, same]
  · -- the ring becomes full, and its oldest slot is slot 0
    have exactly : entries + 1 = capacity := by omega
    subst exactly
    have slotsInOrder : (List.range (entries + 1)).map (fun index =>
        Function.update slots entries item ((0 + index) % (entries + 1))) =
        (List.range (entries + 1)).map (Function.update slots entries item) := by
      apply List.map_congr_left
      intro index member
      have below := List.mem_range.mp member
      simp [Nat.mod_eq_of_lt below]
    simp only [ringList, lt_irrefl, if_false, Nat.mod_self, room, if_true]
    rw [slotsInOrder, List.range_succ, List.map_append, same]
    simp

/-- Overwriting the oldest slot of a full ring pushes the item. -/
theorem ringList_overwrite {capacity tail : Nat} {slots : Nat → α} {item : α}
    (valid : RingOk capacity capacity tail) :
    ringList capacity capacity ((tail + 1) % capacity) (Function.update slots tail item) =
      push capacity item (ringList capacity capacity tail slots) := by
  have inside := valid.inside
  rw [push_of_full (by rw [ringList_length slots valid]; omega)]
  apply List.ext_getElem
  · simp [ringList]; omega
  · intro index firstBound secondBound
    have small : index < capacity := by simpa [ringList] using firstBound
    simp only [ringList, lt_irrefl, if_false, List.getElem_map, List.getElem_range]
    have slot : ((tail + 1) % capacity + index) % capacity = (tail + 1 + index) % capacity := by
      simp [Nat.add_mod]
    rw [slot]
    by_cases last : index + 1 = capacity
    · have wrapped : (tail + 1 + index) % capacity = tail := by
        rw [show tail + 1 + index = tail + capacity by omega]
        simp [Nat.mod_eq_of_lt inside]
      rw [wrapped, Function.update_self,
        List.getElem_append_right (by simp; omega)]
      simp
    · have moved : (tail + 1 + index) % capacity ≠ tail := by
        by_cases below : tail + 1 + index < capacity
        · rw [Nat.mod_eq_of_lt below]; omega
        · rw [Nat.mod_eq_sub_mod (by omega), Nat.mod_eq_of_lt (by omega)]; omega
      rw [Function.update_of_ne moved,
        List.getElem_append_left (by simp; omega)]
      simp only [List.getElem_tail, List.getElem_map, List.getElem_range]
      rw [show tail + 1 + index = tail + (index + 1) by omega]

end Plex86.Logic
