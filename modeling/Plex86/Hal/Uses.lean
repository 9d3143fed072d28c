import Plex86.Hal.Call

namespace Plex86

open Logic

/-- The bytes from `offset` on. -/
def Stretch (offset length place : Nat) : Prop := offset ≤ place ∧ place < offset + length

/-- No byte at all. -/
def Nothing (_place : Nat) : Prop := False

theorem stretch_empty (offset place : Nat) : Stretch offset 0 place ↔ Nothing place := by
  refine ⟨fun inside => ?_, False.elim⟩
  unfold Stretch at inside
  omega

/-- Two stretches, one right behind the other. -/
theorem stretch_append (offset first second place : Nat) :
    Stretch offset (first + second) place ↔
      Stretch offset first place ∨ Stretch (offset + first) second place := by
  unfold Stretch
  omega

/-- A stretch that is not empty lies below a bound when its end does. -/
theorem stretch_below (offset length bound : Nat) :
    (∀ place, Stretch offset length place → place < bound) ↔
      length = 0 ∨ offset + length ≤ bound := by
  unfold Stretch
  constructor
  · intro below
    by_cases empty : length = 0
    · exact .inl empty
    · have last := below (offset + length - 1) (by omega)
      right
      omega
  · intro fits place inside
    omega

section
variable {World : Type}

namespace Hal

/-- A byte of guest memory has been read or written. -/
def Touches (hal : Hal World) (place : Nat) : Prop :=
  ∃ touch ∈ hal.touched, Stretch touch.offset touch.length place

theorem touch_touches (hal : Hal World) (offset length place : Nat) :
    (hal.touch offset length).Touches place ↔
      Stretch offset length place ∨ hal.Touches place := by
  simp [Touches, touch]

/-- The process has used a region of guest memory between two states. -/
structure Uses (hal next : Hal World) (region : Nat → Prop) : Prop where
  memSize : next.memSize = hal.memSize
  touches : ∀ place, next.Touches place ↔ region place ∨ hal.Touches place

namespace Uses

variable {hal middle next : Hal World} {region first second : Nat → Prop}

theorem nothing (size : next.memSize = hal.memSize) (touched : next.touched = hal.touched) :
    Uses hal next Nothing := by
  refine ⟨size, fun place => ?_⟩
  unfold Touches Nothing
  rw [touched, false_or]

theorem trans (begun : Uses hal middle first) (finished : Uses middle next second) :
    Uses hal next (fun place => first place ∨ second place) := by
  refine ⟨finished.memSize.trans begun.memSize, fun place => ?_⟩
  rw [finished.touches, begun.touches]
  exact or_left_comm.trans or_assoc.symm

theorem congr (uses : Uses hal next first) (same : ∀ place, first place ↔ second place) :
    Uses hal next second :=
  ⟨uses.memSize, fun place => by rw [uses.touches, same]⟩

/-- A region, and nothing more after it. -/
theorem quiet (uses : Uses hal middle region) (size : next.memSize = middle.memSize)
    (touched : next.touched = middle.touched) : Uses hal next region :=
  (uses.trans (.nothing size touched)).congr fun place => by simp [Nothing]

/-- A stretch, and the one right behind it. -/
theorem append {offset before behind : Nat} (begun : Uses hal middle (Stretch offset before))
    (finished : Uses middle next (Stretch (offset + before) behind)) :
    Uses hal next (Stretch offset (before + behind)) :=
  (begun.trans finished).congr fun _ => (stretch_append ..).symm

/-- What the process has used stays inside guest memory as long as it uses nothing outside. -/
theorem below (uses : Uses hal next region) (bound : Nat) :
    (∀ place, next.Touches place → place < bound) ↔
      (∀ place, region place → place < bound) ∧ ∀ place, hal.Touches place → place < bound := by
  constructor
  · intro all
    exact ⟨fun place used => all place ((uses.touches place).mpr (.inl used)),
      fun place used => all place ((uses.touches place).mpr (.inr used))⟩
  · intro both place used
    rcases (uses.touches place).mp used with now | before
    · exact both.1 place now
    · exact both.2 place before

end Uses

theorem touch_uses (hal : Hal World) (offset length : Nat) :
    Uses hal (hal.touch offset length) (Stretch offset length) :=
  ⟨rfl, hal.touch_touches offset length⟩

theorem put_uses (hal : Hal World) (offset : Nat) (bytes : List Bit8u) :
    Uses hal (hal.put offset bytes) (Stretch offset bytes.length) :=
  ⟨rfl, hal.touch_touches offset bytes.length⟩

theorem putWord_uses (hal : Hal World) (offset : Nat) (word : Bit32u) :
    Uses hal (hal.putWord offset word) (Stretch offset 4) :=
  ⟨rfl, hal.touch_touches offset 4⟩

end Hal

/-- A failing call uses no guest memory. -/
theorem halFail_uses (host : HostCalls World) (hal : Hal World) :
    ∃ next, halFail host hal = .ok () next ∧ hal.Uses next Nothing := by
  obtain ⟨world, plex86FD, memAllocated, memRegistered, freed, run, _⟩ := halFail_apply host hal
  exact ⟨_, run, .nothing rfl rfl⟩

end
end Plex86
