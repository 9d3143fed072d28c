import Mathlib.Data.Multiset.Count
import Mathlib.Data.Multiset.AddSub
import Mathlib.Data.List.Nodup
import Mathlib.Tactic.Common

/-! A ledger of what is obtained and given back, and tables that say where what is
held is kept. -/

namespace Plex86.Logic

universe u v
variable {Resource : Type u} {Place : Type v}

inductive Deal (Resource : Type u)
  | obtained (resource : Resource)
  | returned (resource : Resource)
deriving DecidableEq

/-- What is held after some deals, the newest of them first. Nothing but what is held
is returned. -/
inductive Holding : List (Deal Resource) → Multiset Resource → Prop
  | start : Holding [] 0
  | obtain {deals : List (Deal Resource)} {held : Multiset Resource} {resource : Resource} :
      Holding deals held → Holding (.obtained resource :: deals) (resource ::ₘ held)
  | give {deals : List (Deal Resource)} {held : Multiset Resource} {resource : Resource} :
      Holding deals (resource ::ₘ held) → Holding (.returned resource :: deals) held

namespace Holding

variable {deals newer older : List (Deal Resource)} {held : Multiset Resource}
variable {resource : Resource}

/-- What was obtained was returned or is held. -/
theorem count [DecidableEq Resource] (holding : Holding deals held) (resource : Resource) :
    deals.count (.obtained resource) = deals.count (.returned resource) + held.count resource := by
  induction holding with
  | start => rfl
  | @obtain _ _ other _ inductionHypothesis =>
      by_cases same : other = resource
      · subst same
        simp [inductionHypothesis]
        omega
      · have different : resource ≠ other := Ne.symm same
        simp [same, different, inductionHypothesis]
  | @give _ _ other _ inductionHypothesis =>
      by_cases same : other = resource
      · subst same
        simp at inductionHypothesis
        simp
        omega
      · have different : resource ≠ other := Ne.symm same
        simpa [same, different] using inductionHypothesis

/-- Every return was of something held then. -/
theorem held_before (holding : Holding (newer ++ .returned resource :: older) held) :
    ∃ before, Holding older (resource ::ₘ before) := by
  induction newer generalizing held with
  | nil =>
      cases holding with
      | give before => exact ⟨held, before⟩
  | cons deal rest inductionHypothesis =>
      cases holding with
      | obtain earlier => exact inductionHypothesis earlier
      | give earlier => exact inductionHypothesis earlier

end Holding

/-- Everything obtained was returned as often as it was obtained, and never before. -/
structure Settled [DecidableEq Resource] (deals : List (Deal Resource)) : Prop where
  returned : ∀ resource, deals.count (.returned resource) = deals.count (.obtained resource)
  held : ∀ newer resource older, deals = newer ++ .returned resource :: older →
    older.count (.returned resource) < older.count (.obtained resource)

/-- Deals after which nothing is held are settled. -/
theorem Holding.settled [DecidableEq Resource] {deals : List (Deal Resource)}
    (holding : Holding deals 0) : Settled deals where
  returned resource := by
    have counted := holding.count resource
    rw [Multiset.count_zero, Nat.add_zero] at counted
    exact counted.symm
  held newer resource older split := by
    subst split
    obtain ⟨before, earlier⟩ := holding.held_before
    have counted := earlier.count resource
    rw [Multiset.count_cons_self] at counted
    omega

/-- What is kept in some places. -/
def kept (places : List Place) (table : Place → Option Resource) : Multiset Resource :=
  ↑(places.filterMap table)

section Kept

variable {places : List Place} {place : Place} {resource : Resource}
variable {table other : Place → Option Resource}

@[simp] theorem kept_nil : kept [] table = 0 := rfl

theorem kept_cons_none (empty : table place = none) :
    kept (place :: places) table = kept places table := by
  rw [kept, kept, List.filterMap_cons_none empty]

theorem kept_cons_some (full : table place = some resource) :
    kept (place :: places) table = resource ::ₘ kept places table := by
  rw [kept, kept, List.filterMap_cons_some full]
  rfl

theorem kept_congr (same : ∀ place ∈ places, table place = other place) :
    kept places table = kept places other := by
  rw [kept, kept, List.filterMap_congr same]

/-- Nothing is kept where all places are empty. -/
theorem kept_empty (empty : ∀ place ∈ places, table place = none) : kept places table = 0 := by
  rw [kept, List.filterMap_eq_nil_iff.mpr empty]
  rfl

variable [DecidableEq Place]

/-- What is put in an empty place is kept in addition. -/
theorem kept_put (distinct : places.Nodup) (member : place ∈ places)
    (empty : table place = none) :
    kept places (Function.update table place (some resource)) =
      resource ::ₘ kept places table := by
  obtain ⟨before, after, rfl⟩ := List.append_of_mem member
  have apart := List.nodup_middle.mp distinct
  have elsewhere : ∀ place' ∈ before ++ after,
      Function.update table place (some resource) place' = table place' := by
    intro place' there
    refine Function.update_of_ne ?_ _ _
    rintro rfl
    exact (List.nodup_cons.mp apart).1 there
  have perm : kept (before ++ place :: after) (Function.update table place (some resource)) =
      kept (place :: (before ++ after)) (Function.update table place (some resource)) :=
    Multiset.coe_eq_coe.mpr (List.perm_middle.filterMap _)
  have perm' : kept (before ++ place :: after) table = kept (place :: (before ++ after)) table :=
    Multiset.coe_eq_coe.mpr (List.perm_middle.filterMap _)
  rw [perm, perm', kept_cons_some (Function.update_self place _ table), kept_cons_none empty,
    kept_congr elsewhere]

/-- What is taken out of its place is no longer kept. -/
theorem kept_take (distinct : places.Nodup) (member : place ∈ places)
    (full : table place = some resource) :
    kept places table = resource ::ₘ kept places (Function.update table place none) := by
  rw [← kept_put distinct member (Function.update_self place none table), Function.update_idem,
    ← full, Function.update_eq_self]

end Kept

end Plex86.Logic
