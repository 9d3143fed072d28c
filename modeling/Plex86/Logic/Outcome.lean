import Mathlib.Tactic.Common

/-! Pre- and postconditions for stateful programs that may stop. A stopped
program keeps the state it stopped in, so what happened before the stop can be
spoken of. Nothing here depends on what the state or the stop is. -/

namespace Plex86.Logic

universe u
variable {Stop State Value Next : Type u}

/-- From every state satisfying `before`, a returned value satisfies `after`
and a stop satisfies `stopped`. -/
def Ensures (before : State → Prop) (program : EStateM Stop State Value)
    (after : Value → State → Prop) (stopped : Stop → State → Prop) : Prop :=
  ∀ state, before state → match program state with
    | .ok value next => after value next
    | .error stop last => stopped stop last

/-- The program preserves `inv`, and ends in `stopped` where it stops. -/
def Keeps (inv : State → Prop) (stopped : Stop → State → Prop)
    (program : EStateM Stop State Value) : Prop :=
  Ensures inv program (fun _ => inv) stopped

theorem bind_apply (program : EStateM Stop State Value)
    (rest : Value → EStateM Stop State Next) (state : State) :
    (program >>= rest) state = match program state with
      | .ok value next => rest value next
      | .error stop last => .error stop last := rfl

@[simp] theorem pure_apply (value : Value) (state : State) :
    (pure value : EStateM Stop State Value) state = .ok value state := rfl

@[simp] theorem get_apply (state : State) :
    (get : EStateM Stop State State) state = .ok state state := rfl

@[simp] theorem modify_apply (change : State → State) (state : State) :
    (modify change : EStateM Stop State PUnit) state = .ok .unit (change state) := rfl

@[simp] theorem throw_apply (stop : Stop) (state : State) :
    (throw stop : EStateM Stop State Value) state = .error stop state := rfl

@[simp] theorem get_bind_apply (rest : State → EStateM Stop State Next) (state : State) :
    (get >>= rest) state = rest state state := rfl

@[simp] theorem modify_bind_apply (change : State → State)
    (rest : PUnit → EStateM Stop State Next) (state : State) :
    (modify change >>= rest) state = rest .unit (change state) := rfl

@[simp] theorem throw_bind_apply (stop : Stop) (rest : Value → EStateM Stop State Next)
    (state : State) :
    ((throw stop : EStateM Stop State Value) >>= rest) state = .error stop state := rfl

@[simp] theorem map_apply (change : Value → Next) (program : EStateM Stop State Value)
    (state : State) :
    (change <$> program) state = match program state with
      | .ok value next => .ok (change value) next
      | .error stop last => .error stop last := rfl

theorem ite_apply (cond : Prop) [Decidable cond] (yes no : EStateM Stop State Value)
    (state : State) :
    (if cond then yes else no) state = if cond then yes state else no state := by
  split <;> rfl

/-- A sequence returns exactly when both halves do. -/
theorem bind_ok {program : EStateM Stop State Value}
    {rest : Value → EStateM Stop State Next} {state last : State} {result : Next} :
    (program >>= rest) state = .ok result last ↔
      ∃ value next, program state = .ok value next ∧ rest value next = .ok result last := by
  rw [bind_apply]
  cases program state with
  | ok value next => simp
  | error stop last => simp

/-- A sequence stops where its first half does, or in its second half. -/
theorem bind_error {program : EStateM Stop State Value}
    {rest : Value → EStateM Stop State Next} {state last : State} {stop : Stop} :
    (program >>= rest) state = .error stop last ↔
      program state = .error stop last ∨
        ∃ value next, program state = .ok value next ∧ rest value next = .error stop last := by
  rw [bind_apply]
  cases program state with
  | ok value next => simp
  | error stop last => simp

/-- The state a program leaves behind, where it returns. -/
def leaves (program : EStateM Stop State Value) (state : State) : Option State :=
  match program state with
  | .ok _ next => some next
  | .error _ _ => none

theorem leaves_eq_some {program : EStateM Stop State PUnit} {state next : State} :
    leaves program state = some next ↔ program state = .ok .unit next := by
  unfold leaves
  cases program state with
  | ok value last => simp
  | error stop last => simp

/-- The state a program ends in, whether it returns or stops. -/
def ends (program : EStateM Stop State Value) (state : State) : State :=
  match program state with
  | .ok _ next => next
  | .error _ last => last

theorem ends_of_ok {program : EStateM Stop State Value} {state next : State} {value : Value}
    (run : program state = .ok value next) : ends program state = next := by
  simp [ends, run]

namespace Ensures

variable {before before' : State → Prop} {program : EStateM Stop State Value}
variable {after after' : Value → State → Prop} {stopped stopped' : Stop → State → Prop}
variable {state next last : State} {value : Value} {stop : Stop}

theorem returns (spec : Ensures before program after stopped) (holds : before state)
    (run : program state = .ok value next) : after value next := by
  have result := spec state holds
  rwa [run] at result

theorem stops (spec : Ensures before program after stopped) (holds : before state)
    (run : program state = .error stop last) : stopped stop last := by
  have result := spec state holds
  rwa [run] at result

/-- What holds whether the program returns or stops holds where it ends. -/
theorem ends {result : State → Prop}
    (spec : Ensures before program (fun _ => result) fun _ => result) (holds : before state) :
    result (ends program state) := by
  have reached := spec state holds
  unfold Logic.ends
  cases run : program state with
  | ok value next => rwa [run] at reached
  | error stop last => rwa [run] at reached

/-- From one given state, the program is what it is there. -/
theorem exactly (result : match program state with
      | .ok value next => after value next
      | .error stop last => stopped stop last) :
    Ensures (· = state) program after stopped := by
  rintro _ rfl
  exact result

theorem weaken (spec : Ensures before program after stopped)
    (stronger : ∀ state, before' state → before state)
    (weaker : ∀ value state, after value state → after' value state)
    (weakerStop : ∀ stop state, stopped stop state → stopped' stop state) :
    Ensures before' program after' stopped' := by
  intro state holds
  have result := spec state (stronger state holds)
  cases run : program state with
  | ok value next => rw [run] at result; exact weaker value next result
  | error stop last => rw [run] at result; exact weakerStop stop last result

/-- What is known in two ways is known together. -/
theorem both (first : Ensures before program after stopped)
    (second : Ensures before program after' stopped') :
    Ensures before program (fun value next => after value next ∧ after' value next)
      fun stop last => stopped stop last ∧ stopped' stop last := by
  intro state holds
  have one := first state holds
  have other := second state holds
  cases run : program state with
  | ok value next =>
      rw [run] at one other
      exact ⟨one, other⟩
  | error stop last =>
      rw [run] at one other
      exact ⟨one, other⟩

/-- Nothing is said about where the program ends. -/
theorem anything : Ensures before program (fun _ _ => True) fun _ _ => True := by
  intro state _
  cases program state with
  | ok value next => trivial
  | error stop last => trivial

theorem pure (holds : ∀ state, before state → after value state) :
    Ensures before (Pure.pure value : EStateM Stop State Value) after stopped :=
  fun state here => holds state here

theorem throw (holds : ∀ state, before state → stopped stop state) :
    Ensures before (MonadExcept.throw stop : EStateM Stop State Value) after stopped :=
  fun state here => holds state here

theorem bind {middle : Value → State → Prop} {rest : Value → EStateM Stop State Next}
    {final : Next → State → Prop} (first : Ensures before program middle stopped)
    (second : ∀ value, Ensures (middle value) (rest value) final stopped) :
    Ensures before (program >>= rest) final stopped := by
  intro state holds
  have reached := first state holds
  rw [bind_apply]
  cases run : program state with
  | ok value next => rw [run] at reached; exact second value next reached
  | error stop last => rw [run] at reached; exact reached

/-- What is known of the state that does not depend on it may be assumed. -/
theorem assuming {fact : Prop} (spec : fact → Ensures before program after stopped) :
    Ensures (fun state => before state ∧ fact) program after stopped :=
  fun state holds => spec holds.2 state holds.1

/-- Reading the state tells the rest of the program which state it starts in. -/
theorem get_bind {rest : State → EStateM Stop State Next} {final : Next → State → Prop}
    (second : ∀ now, before now → Ensures (· = now) (rest now) final stopped) :
    Ensures before (get >>= rest) final stopped :=
  fun state holds => second state holds state rfl

/-- What is read was true of the state, also while the rest changes it. -/
theorem look_bind {rest : State → EStateM Stop State Next} {final : Next → State → Prop}
    (second : ∀ now, before now → Ensures before (rest now) final stopped) :
    Ensures before (get >>= rest) final stopped :=
  fun state holds => second state holds state holds

theorem modify {change : State → State} {final : PUnit → State → Prop}
    (holds : ∀ state, before state → final .unit (change state)) :
    Ensures before (modify change : EStateM Stop State PUnit) final stopped :=
  fun state here => holds state here

theorem ite {cond : Prop} [Decidable cond] {yes no : EStateM Stop State Value}
    (whenTrue : cond → Ensures before yes after stopped)
    (whenFalse : ¬ cond → Ensures before no after stopped) :
    Ensures before (if cond then yes else no) after stopped := by
  split
  · exact whenTrue ‹_›
  · exact whenFalse ‹_›

end Ensures

namespace Keeps

variable {inv : State → Prop} {stopped : Stop → State → Prop}
variable {program : EStateM Stop State Value} {state next : State} {value : Value} {stop : Stop}

theorem returns (keeps : Keeps inv stopped program) (holds : inv state)
    (run : program state = .ok value next) : inv next :=
  Ensures.returns keeps holds run

theorem stops (keeps : Keeps inv stopped program) (holds : inv state)
    (run : program state = .error stop next) : stopped stop next :=
  Ensures.stops keeps holds run

theorem pure : Keeps inv stopped (Pure.pure value : EStateM Stop State Value) :=
  Ensures.pure fun _ holds => holds

theorem throw (holds : ∀ state, inv state → stopped stop state) :
    Keeps inv stopped (MonadExcept.throw stop : EStateM Stop State Value) :=
  Ensures.throw holds

theorem bind {rest : Value → EStateM Stop State Next} (first : Keeps inv stopped program)
    (second : ∀ value, Keeps inv stopped (rest value)) :
    Keeps inv stopped (program >>= rest) :=
  Ensures.bind first second

theorem get_bind {rest : State → EStateM Stop State Next}
    (second : ∀ now, inv now → Keeps inv stopped (rest now)) :
    Keeps inv stopped (get >>= rest) :=
  Ensures.look_bind second

theorem modify {change : State → State} (holds : ∀ state, inv state → inv (change state)) :
    Keeps inv stopped (modify change : EStateM Stop State PUnit) :=
  Ensures.modify holds

theorem ite {cond : Prop} [Decidable cond] {yes no : EStateM Stop State Value}
    (whenTrue : cond → Keeps inv stopped yes) (whenFalse : ¬ cond → Keeps inv stopped no) :
    Keeps inv stopped (if cond then yes else no) :=
  Ensures.ite whenTrue whenFalse

/-- A program that keeps all of the state but what `hide` hides keeps every view that
does not see that. -/
theorem hidden {View : Type*} {hide : State → State} {view : State → View}
    (keeps : ∀ kept, Keeps (fun state => hide state = kept) stopped program)
    (sees : ∀ state, view (hide state) = view state) (now : View) :
    Keeps (fun state => view state = now) (fun _ _ => True) program := by
  intro state here
  cases run : program state with
  | ok value next =>
      have same := (keeps (hide state)).returns rfl run
      exact (sees next).symm.trans ((congrArg view same).trans ((sees state).trans here))
  | error stop last => trivial

end Keeps
end Plex86.Logic
