import Plex86.Logic.Outcome

/-! Programs seen through part of their state: what a program answers, what it
makes of that part, and when it has an answer at all. Whatever else it does to
the state, and why it stops, is left open. -/

namespace Plex86.Logic

universe u v
variable {Stop State Value Next : Type u} {View : Type v}

/-- Seen through `view` from `before`, the program returns only where it is `able`
to, and then returns `value` and leaves `after`. From a `ready` start it does
return, and leaves the state ready. -/
structure Behaves (view : State → View) (ready : View → Prop)
    (program : EStateM Stop State Value) (before : View) (able : Prop) (value : Value)
    (after : View) : Prop where
  returned : ∀ state result next, view state = before → program state = .ok result next →
    able ∧ result = value ∧ view next = after
  returns : ready before → able → ∀ state, view state = before →
    ready after ∧ ∃ result next, program state = .ok result next

namespace Behaves

variable {view : State → View} {ready : View → Prop} {program : EStateM Stop State Value}
variable {before middle after : View} {able able' : Prop} {value : Value}

/-- What a run of the program from a state comes to. -/
theorem ok {state next : State} {result : Value}
    (behaves : Behaves view ready program (view state) able value after)
    (run : program state = .ok result next) : able ∧ result = value ∧ view next = after :=
  behaves.returned state result next rfl run

/-- From a ready state there is a run. -/
theorem run {state : State} (behaves : Behaves view ready program (view state) able value after)
    (begins : ready (view state)) (can : able) :
    ready after ∧ ∃ next, program state = .ok value next ∧ view next = after := by
  obtain ⟨stays, result, next, run⟩ := behaves.returns begins can state rfl
  obtain ⟨-, rfl, seen⟩ := behaves.ok run
  exact ⟨stays, next, run, seen⟩

theorem pure (value : Value) (before : View) :
    Behaves view ready (Pure.pure value : EStateM Stop State Value) before True value before where
  returned := by
    rintro state result next seen run
    cases run
    exact ⟨trivial, rfl, seen⟩
  returns := fun begins _ state _ => ⟨begins, value, state, rfl⟩

theorem throw (stop : Stop) (value : Value) (before after : View) :
    Behaves view ready (MonadExcept.throw stop : EStateM Stop State Value) before False value
      after where
  returned := fun _ _ _ _ run => nomatch run
  returns := fun _ can => can.elim

/-- The program may be asked for less where a ready start makes sure of the rest. -/
theorem assume (behaves : Behaves view ready program before able value after)
    (less : able → able') (more : ready before → able' → able) :
    Behaves view ready program before able' value after where
  returned := fun state result next seen run =>
    have ⟨can, rest⟩ := behaves.returned state result next seen run
    ⟨less can, rest⟩
  returns := fun begins can => behaves.returns begins (more begins can)

/-- Where a ready start is enough, nothing else is asked for. -/
theorem surely (behaves : Behaves view ready program before able value after)
    (sure : ready before → able) : Behaves view ready program before True value after :=
  behaves.assume (fun _ => trivial) fun begins _ => sure begins

/-- What a ready start makes sure of goes without saying. -/
theorem given {sure : Prop}
    (behaves : Behaves view ready program before (sure ∧ able) value after)
    (holds : ready before → sure) : Behaves view ready program before able value after :=
  behaves.assume And.right fun begins can => ⟨holds begins, can⟩

/-- Another way to say when the program is able to return. -/
theorem congr (behaves : Behaves view ready program before able value after)
    (same : able ↔ able') : Behaves view ready program before able' value after :=
  behaves.assume same.mp fun _ => same.mpr

theorem bind {rest : Value → EStateM Stop State Next} {result : Next}
    (first : Behaves view ready program before able value middle)
    (second : able → Behaves view ready (rest value) middle able' result after) :
    Behaves view ready (program >>= rest) before (able ∧ able') result after where
  returned := by
    intro state answer last seen run
    obtain ⟨found, next, begun, ended⟩ := bind_ok.mp run
    obtain ⟨can, rfl, reached⟩ := first.returned state found next seen begun
    obtain ⟨can', same, final⟩ := (second can).returned next answer last reached ended
    exact ⟨⟨can, can'⟩, same, final⟩
  returns := by
    rintro begins ⟨can, can'⟩ state seen
    obtain ⟨stays, found, next, begun⟩ := first.returns begins can state seen
    obtain ⟨-, rfl, reached⟩ := first.returned state found next seen begun
    obtain ⟨still, answer, last, ended⟩ := (second can).returns stays can' next reached
    exact ⟨still, answer, last, bind_ok.mpr ⟨found, next, begun, ended⟩⟩

/-- A first half that can always return asks for nothing. -/
theorem seq {rest : Value → EStateM Stop State Next} {result : Next}
    (first : Behaves view ready program before True value middle)
    (second : Behaves view ready (rest value) middle able result after) :
    Behaves view ready (program >>= rest) before able result after :=
  (first.bind fun _ => second).congr (iff_of_eq (true_and able))

/-- The state a program reads is one that is seen so. -/
theorem get_bind {rest : State → EStateM Stop State Value}
    (second : ∀ state, view state = before →
      Behaves view ready (rest state) before able value after) :
    Behaves view ready (get >>= rest) before able value after where
  returned := fun state result next seen run =>
    (second state seen).returned state result next seen run
  returns := fun begins can state seen => (second state seen).returns begins can state seen

theorem modify {change : State → State}
    (seen : ∀ state, view state = before → view (change state) = after)
    (stays : ready before → ready after) :
    Behaves view ready (modify change : EStateM Stop State PUnit) before True .unit
      after where
  returned := by
    rintro state result next here run
    cases run
    exact ⟨trivial, rfl, seen state here⟩
  returns := fun begins _ state _ => ⟨stays begins, .unit, change state, rfl⟩

/-- A choice that the view decides, between answers. -/
theorem answer {cond : Prop} [Decidable cond] {yes no : EStateM Stop State Value} {value' : Value}
    (whenTrue : cond → Behaves view ready yes before able value after)
    (whenFalse : ¬ cond → Behaves view ready no before able value' after) :
    Behaves view ready (if cond then yes else no) before able (if cond then value else value')
      after := by
  split
  · exact whenTrue ‹_›
  · exact whenFalse ‹_›

/-- A choice between answers that can be given under different conditions. -/
theorem select {cond : Prop} [Decidable cond] {yes no : EStateM Stop State Value} {value' : Value}
    (whenTrue : cond → Behaves view ready yes before able value after)
    (whenFalse : ¬ cond → Behaves view ready no before able' value' after) :
    Behaves view ready (if cond then yes else no) before (if cond then able else able')
      (if cond then value else value') after := by
  split
  · exact whenTrue ‹_›
  · exact whenFalse ‹_›

/-- A choice between different conditions. -/
theorem permit {cond : Prop} [Decidable cond] {yes no : EStateM Stop State Value}
    (whenTrue : cond → Behaves view ready yes before able value after)
    (whenFalse : ¬ cond → Behaves view ready no before able' value after) :
    Behaves view ready (if cond then yes else no) before (if cond then able else able') value
      after := by
  split
  · exact whenTrue ‹_›
  · exact whenFalse ‹_›

/-- A choice between different things to do. -/
theorem branch {cond : Prop} [Decidable cond] {yes no : EStateM Stop State Value} {after' : View}
    (whenTrue : cond → Behaves view ready yes before able value after)
    (whenFalse : ¬ cond → Behaves view ready no before able' value after') :
    Behaves view ready (if cond then yes else no) before (if cond then able else able') value
      (if cond then after else after') := by
  split
  · exact whenTrue ‹_›
  · exact whenFalse ‹_›

/-- A check that stops the program. -/
theorem guard {cond : Prop} [Decidable cond] {stop : Stop} :
    Behaves view ready (if cond then MonadExcept.throw stop else Pure.pure .unit :
      EStateM Stop State PUnit) before (¬ cond) .unit before := by
  split
  · next failed => exact (throw stop _ _ _).congr (by simp [failed])
  · next passed => exact (pure _ _).congr (by simp [passed])

end Behaves

/-- Seen so, and able to go on, the program stops only with an excuse. -/
def StopsFor (view : State → View) (excuse : Stop → State → Prop) (program : EStateM Stop State Value)
    (before : View) (able : Prop) : Prop :=
  ∀ state stop next, view state = before → able → program state = .error stop next →
    excuse stop next

namespace StopsFor

variable {view : State → View} {ready : View → Prop} {excuse : Stop → State → Prop}
variable {program : EStateM Stop State Value} {before middle : View} {able able' : Prop}
variable {value : Value}

theorem pure : StopsFor view excuse (Pure.pure value : EStateM Stop State Value) before able :=
  fun _ _ _ _ _ run => nomatch run

/-- Where more is known, no more excuses are needed. -/
theorem mono (stops : StopsFor view excuse program before able) (more : able' → able) :
    StopsFor view excuse program before able' :=
  fun state stop next seen can run => stops state stop next seen (more can) run

theorem bind {rest : Value → EStateM Stop State Next} {done : Prop}
    (first : StopsFor view excuse program before able)
    (does : Behaves view ready program before done value middle)
    (second : StopsFor view excuse (rest value) middle able) :
    StopsFor view excuse (program >>= rest) before able := by
  intro state stop last seen can run
  rcases bind_error.mp run with stopped | ⟨found, next, begun, stopped⟩
  · exact first state stop last seen can stopped
  · obtain ⟨-, rfl, reached⟩ := does.returned state found next seen begun
    exact second next stop last reached can stopped

theorem get_bind {rest : State → EStateM Stop State Value}
    (second : ∀ state, view state = before → StopsFor view excuse (rest state) before able) :
    StopsFor view excuse (get >>= rest) before able :=
  fun state stop next seen can run => second state seen state stop next seen can run

theorem ite {cond : Prop} [Decidable cond] {yes no : EStateM Stop State Value}
    (whenTrue : cond → StopsFor view excuse yes before able)
    (whenFalse : ¬ cond → StopsFor view excuse no before able) :
    StopsFor view excuse (if cond then yes else no) before able := by
  split
  · exact whenTrue ‹_›
  · exact whenFalse ‹_›

/-- A check that does not stop whoever is able to go on. -/
theorem guard {cond : Prop} [Decidable cond] {stop : Stop} (passes : able → ¬ cond) :
    StopsFor view excuse (if cond then MonadExcept.throw stop else Pure.pure .unit :
      EStateM Stop State PUnit) before able := by
  intro state halt next seen can run
  rw [if_neg (passes can)] at run
  cases run

end StopsFor
end Plex86.Logic
