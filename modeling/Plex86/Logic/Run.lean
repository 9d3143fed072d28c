import Mathlib.Tactic.Common

/-! Runs of a system that takes one labelled step after another, with the
moments of the run kept newest first. Nothing here depends on what the states
and the events are. -/

namespace Plex86.Logic

universe u v w
variable {State : Type u} {Event : Type v} {Item : Type w}

/-- One step of a run: the state it left, what happened, the state it reached. -/
structure Moment (State : Type u) (Event : Type v) where
  before : State
  event : Event
  after : State

/-- The states reached from a `start` state by `step`s, with the moments passed. -/
inductive Run (start : State → Prop) (step : State → Event → State → Prop) :
    List (Moment State Event) → State → Prop
  | start {state : State} : start state → Run start step [] state
  | next {past : List (Moment State Event)} {now later : State} {event : Event} :
      Run start step past now → step now event later →
        Run start step (⟨now, event, later⟩ :: past) later

namespace Run

variable {start : State → Prop} {step : State → Event → State → Prop}
variable {past : List (Moment State Event)} {now : State}

/-- What holds at the start and survives every step allowed in the run holds at its end. -/
theorem guarded {inv : State → Prop} (allowed : Moment State Event → Prop)
    (initially : ∀ state, start state → inv state)
    (preserved : ∀ before event after, inv before → step before event after →
      allowed ⟨before, event, after⟩ → inv after)
    (run : Run start step past now) (all : ∀ moment ∈ past, allowed moment) : inv now := by
  induction run with
  | start begun => exact initially _ begun
  | next earlier taken inductionHypothesis =>
      have reached := inductionHypothesis fun moment member =>
        all moment (List.mem_cons_of_mem _ member)
      exact preserved _ _ _ reached taken (all _ List.mem_cons_self)

/-- What holds at the start and survives every step holds in every state reached. -/
theorem invariant {inv : State → Prop} (initially : ∀ state, start state → inv state)
    (preserved : ∀ before event after, inv before → step before event after → inv after)
    (run : Run start step past now) : inv now :=
  run.guarded (fun _ => True) initially
    (fun before event after holds taken _ => preserved before event after holds taken)
    (fun _ _ => trivial)

/-- A run from some of the starts is a run. -/
theorem mono {start' : State → Prop} (wider : ∀ state, start state → start' state)
    (run : Run start step past now) : Run start' step past now := by
  induction run with
  | start begun => exact .start (wider _ begun)
  | next _ taken inductionHypothesis => exact .next inductionHypothesis taken

/-- Every moment of a run left a state the run had reached, by one step. -/
theorem moment_reached (run : Run start step past now) {moment : Moment State Event}
    (member : moment ∈ past) :
    (∃ older, Run start step older moment.before) ∧
      step moment.before moment.event moment.after := by
  induction run with
  | start begun => simp at member
  | next earlier taken inductionHypothesis =>
      rcases List.mem_cons.mp member with rfl | older
      · exact ⟨⟨_, earlier⟩, taken⟩
      · exact inductionHypothesis older

/-- The state that a run began in. -/
def first (past : List (Moment State Event)) (now : State) : State :=
  (past.getLast?.map Moment.before).getD now

theorem first_next (past : List (Moment State Event)) (now later : State) (event : Event) :
    first (⟨now, event, later⟩ :: past) later = first past now := by
  cases past with
  | nil => rfl
  | cons moment older =>
      rw [first, first, List.getLast?_cons_cons]
      cases last : (moment :: older).getLast? with
      | none => simp at last
      | some oldest => rfl

/-- What every step allowed keeps of the state before it, a run keeps of the state
that it began in. -/
theorem kept {same : State → State → Prop} (allowed : Moment State Event → Prop)
    (refl : ∀ state, same state state)
    (trans : ∀ one two three, same one two → same two three → same one three)
    (steps : ∀ older before event after, Run start step older before → step before event after →
      allowed ⟨before, event, after⟩ → same before after)
    (run : Run start step past now) (all : ∀ moment ∈ past, allowed moment) :
    same (first past now) now := by
  induction run with
  | start begun => exact refl _
  | @next older before after event earlier taken inductionHypothesis =>
      have reached := inductionHypothesis fun moment member =>
        all moment (List.mem_cons_of_mem _ member)
      rw [first_next]
      exact trans _ _ _ reached (steps _ _ _ _ earlier taken (all _ List.mem_cons_self))

/-- What was absent after a moment and is present now was brought about since. -/
theorem brought_about {holds : State → Prop} (cause : Moment State Event → Prop)
    (steps : ∀ before event after, step before event after → ¬ holds before → holds after →
      cause ⟨before, event, after⟩)
    {newer older : List (Moment State Event)} {moment : Moment State Event}
    (run : Run start step (newer ++ moment :: older) now) (absent : ¬ holds moment.after)
    (present : holds now) : ∃ maker ∈ newer, cause maker := by
  induction newer generalizing now with
  | nil =>
      cases run with
      | next earlier taken => exact (absent present).elim
  | cons last rest inductionHypothesis =>
      cases run with
      | @next _ before _ event earlier taken =>
          by_cases already : holds before
          · obtain ⟨maker, member, caused⟩ := inductionHypothesis earlier already
            exact ⟨maker, List.mem_cons_of_mem _ member, caused⟩
          · exact ⟨_, List.mem_cons_self, steps _ _ _ taken already present⟩

/-- A run up to a moment of it is a run. -/
theorem prefix_run {newer older : List (Moment State Event)} {moment : Moment State Event}
    (run : Run start step (newer ++ moment :: older) now) :
    Run start step older moment.before ∧ step moment.before moment.event moment.after := by
  induction newer generalizing now with
  | nil =>
      cases run with
      | next earlier taken => exact ⟨earlier, taken⟩
  | cons last rest inductionHypothesis =>
      cases run with
      | next earlier taken => exact inductionHypothesis earlier

/-- Where a step either makes an item or finds it already there and leaves it
alone, every item now there was made at some moment and left alone since. What
is `marked` of the item at its making and survives every such step still holds. -/
theorem origin {inv : State → Prop} {there : State → Item → Prop}
    {made kept : Moment State Event → Item → Prop}
    {marked : Moment State Event → State → Item → Prop}
    (initially : ∀ state, start state → inv state ∧ ∀ item, ¬ there state item)
    (preserved : ∀ before event after, inv before → step before event after → inv after)
    (traced : ∀ before event after item, inv before → step before event after →
      there after item →
        (made ⟨before, event, after⟩ item ∧ marked ⟨before, event, after⟩ after item) ∨
        (there before item ∧ kept ⟨before, event, after⟩ item ∧
          ∀ maker, marked maker before item → marked maker after item))
    (run : Run start step past now) {item : Item} (present : there now item) :
    ∃ newer maker older, past = newer ++ maker :: older ∧ made maker item ∧
      marked maker now item ∧ ∀ moment ∈ newer, kept moment item := by
  induction run with
  | start begun => exact ((initially _ begun).2 item present).elim
  | @next past before after event earlier taken inductionHypothesis =>
      have sound : inv before := earlier.invariant (fun state begun => (initially state begun).1)
        preserved
      rcases traced _ _ _ item sound taken present with ⟨created, fresh⟩ | ⟨already, left, stays⟩
      · exact ⟨[], _, past, rfl, created, fresh, by simp⟩
      · obtain ⟨newer, maker, older, split, created, still, since⟩ := inductionHypothesis already
        refine ⟨⟨before, event, after⟩ :: newer, maker, older, by simp [split], created,
          stays maker still, ?_⟩
        intro moment member
        rcases List.mem_cons.mp member with rfl | later
        · exact left
        · exact since moment later

/-- What did not hold at the start and holds now was made at some moment and kept since. -/
theorem since {holds : State → Prop} {made kept : Moment State Event → Prop}
    (initially : ∀ state, start state → ¬ holds state)
    (steps : ∀ before event after, step before event after → holds after →
      made ⟨before, event, after⟩ ∨ (holds before ∧ kept ⟨before, event, after⟩))
    (run : Run start step past now) (present : holds now) :
    ∃ newer maker older, past = newer ++ maker :: older ∧ made maker ∧
      ∀ moment ∈ newer, kept moment := by
  induction run with
  | start begun => exact (initially _ begun present).elim
  | @next past before after event earlier taken inductionHypothesis =>
      rcases steps _ _ _ taken present with created | ⟨already, left⟩
      · exact ⟨[], _, past, rfl, created, fun _ member => by cases member⟩
      · obtain ⟨newer, maker, older, rfl, created, since⟩ := inductionHypothesis already
        exact ⟨⟨before, event, after⟩ :: newer, maker, older, rfl, created,
          List.forall_mem_cons.mpr ⟨left, since⟩⟩

end Run

/-- Go on with a run by one event after another, where the step is a function. -/
def playback (next : State → Event → Option State) (past : List (Moment State Event))
    (now : State) : List Event → Option (List (Moment State Event) × State)
  | [] => some (past, now)
  | event :: rest =>
      match next now event with
      | some later => playback next (⟨now, event, later⟩ :: past) later rest
      | none => none

/-- What is played back is a run. -/
theorem playback_run {start : State → Prop} {step : State → Event → State → Prop}
    {next : State → Event → Option State}
    (sound : ∀ before event after, next before event = some after → step before event after)
    {events : List Event} {past later : List (Moment State Event)} {now last : State}
    (run : Run start step past now)
    (played : playback next past now events = some (later, last)) :
    Run start step later last := by
  induction events generalizing past now with
  | nil =>
      cases played
      exact run
  | cons event rest inductionHypothesis =>
      unfold playback at played
      cases taken : next now event with
      | none => simp [taken] at played
      | some after =>
          simp only [taken] at played
          exact inductionHypothesis (.next run (sound _ _ _ taken)) played

/-- Where a check succeeds on what is played back, a run reaches such a state. -/
theorem playback_reaches {start : State → Prop} {step : State → Event → State → Prop}
    {next : State → Event → Option State}
    (sound : ∀ before event after, next before event = some after → step before event after)
    {events : List Event} {begun : State} {check : List (Moment State Event) × State → Bool}
    (starts : start begun) (checked : (playback next [] begun events).any check = true) :
    ∃ past now, Run start step past now ∧ check (past, now) = true := by
  cases played : playback next [] begun events with
  | none => simp [played] at checked
  | some reached =>
      refine ⟨reached.1, reached.2, playback_run sound (.start starts) played, ?_⟩
      simpa [played] using checked

end Plex86.Logic
