import Mathlib.Data.List.Basic

/-! Runs of a transition system, the history they leave, and the rule for proving invariants. -/

namespace Snolc

/-- A transition system whose steps are total and leave a list of observations behind. -/
structure System (σ ε ω : Type) where
  /-- One step from a state on an event. -/
  step : σ → ε → σ × List ω

namespace System

variable {σ ε ω : Type}

/--
The runs of a system from an initial state, with the history they have left so far.

A step is taken only where the guard admits the event in the state the step starts from.
-/
inductive Run (system : System σ ε ω) (initial : σ → Prop) (guard : List ω → σ → ε → Prop) :
    List ω → σ → Prop
  | start {state : σ} (begins : initial state) : Run system initial guard [] state
  | step {history : List ω} {state : σ} {event : ε}
      (before : Run system initial guard history state) (admitted : guard history state event) :
      Run system initial guard (history ++ (system.step state event).2)
        (system.step state event).1

variable {system : System σ ε ω} {initial : σ → Prop} {guard : List ω → σ → ε → Prop}

/-- What holds at the start and survives every admitted step holds along the whole run. -/
theorem Run.invariant {holds : List ω → σ → Prop}
    (base : ∀ state, initial state → holds [] state)
    (preserved : ∀ history state event, holds history state → guard history state event →
      holds (history ++ (system.step state event).2) (system.step state event).1)
    {history : List ω} {state : σ} (run : Run system initial guard history state) :
    holds history state := by
  -- The induction is on the run, one admitted step at a time.
  induction run with
  | start begins => exact base _ begins
  | step _ admitted ih => exact preserved _ _ _ ih admitted

variable {state : σ}

/-- A property of the state alone that holds at the start and survives every admitted step. -/
theorem Run.stateInvariant (holds : σ → Prop) (base : ∀ state, initial state → holds state)
    (preserved : ∀ history state event, holds state → guard history state event →
      holds (system.step state event).1)
    {history : List ω} (run : Run system initial guard history state) : holds state := by
  induction run with
  | start begins => exact base _ begins
  | step _ admitted ih => exact preserved _ _ _ ih admitted

variable {other : List ω → σ → ε → Prop}

/-- A weaker guard admits at least the same runs. -/
theorem Run.weaken
    (weaker : ∀ history state event, guard history state event → other history state event)
    {history : List ω} (run : Run system initial guard history state) :
    Run system initial other history state := by
  induction run with
  | start begins => exact .start begins
  | step _ admitted ih => exact .step ih (weaker _ _ _ admitted)

/-- A run that goes on from where another one has ended. -/
theorem Run.append {history : List ω}
    (run : Run system initial (fun _ _ _ => True) history state) {after : List ω} {last : σ}
    (later : Run system (· = state) other after last) :
    Run system initial (fun _ _ _ => True) (history ++ after) last := by
  induction later with
  | start begins => simpa [begins] using run
  | step _ _ ih =>
    rw [← List.append_assoc]
    exact .step ih trivial

/-- The history and the state after a list of events. -/
def execute (system : System σ ε ω) : List ω × σ → List ε → List ω × σ
  | reached, [] => reached
  | (history, state), event :: events =>
    execute system (history ++ (system.step state event).2, (system.step state event).1) events

/-- Events one after another. -/
theorem execute_append (system : System σ ε ω) (reached : List ω × σ) (first second : List ε) :
    system.execute reached (first ++ second) =
      system.execute (system.execute reached first) second := by
  induction first generalizing reached with
  | nil => rfl
  | cons event events ih => exact ih _

/-- A list of events adds to the history that is there. -/
theorem execute_history (system : System σ ε ω) (history : List ω) (state : σ) (events : List ε) :
    system.execute (history, state) events =
      (history ++ (system.execute ([], state) events).1,
        (system.execute ([], state) events).2) := by
  induction events generalizing history state with
  | nil => simp [execute]
  | cons event events ih =>
    simp only [execute, List.nil_append]
    rw [ih, ih (system.step state event).2, List.append_assoc]

/-- What every step preserves, a list of events preserves. -/
theorem execute_invariant {holds : List ω → σ → Prop}
    (preserved : ∀ history state event, holds history state →
      holds (history ++ (system.step state event).2) (system.step state event).1)
    {history : List ω} (now : holds history state) (events : List ε) :
    holds (system.execute (history, state) events).1
      (system.execute (history, state) events).2 := by
  induction events generalizing history state with
  | nil => exact now
  | cons event events ih => exact ih (preserved _ _ event now)

/-- Where every event is admitted, a list of events extends a run. -/
theorem Run.unguarded {history : List ω}
    (run : Run system initial (fun _ _ _ => True) history state) (events : List ε) :
    Run system initial (fun _ _ _ => True) (system.execute (history, state) events).1
      (system.execute (history, state) events).2 := by
  induction events generalizing history state with
  | nil => exact run
  | cons event events ih => exact ih (.step run trivial)

/-- Whether the guard admits every event of a list where it is taken. -/
def admits (system : System σ ε ω) (guard : List ω → σ → ε → Prop)
    [∀ history state event, Decidable (guard history state event)] :
    List ω × σ → List ε → Bool
  | _, [] => true
  | (history, state), event :: events =>
    decide (guard history state event) &&
      admits system guard
        (history ++ (system.step state event).2, (system.step state event).1) events

/-- Events that are admitted one after another extend a run. -/
theorem Run.replay [∀ history state event, Decidable (guard history state event)]
    {history : List ω} (run : Run system initial guard history state)
    {events : List ε} (admitted : system.admits guard (history, state) events = true) :
    Run system initial guard (system.execute (history, state) events).1
      (system.execute (history, state) events).2 := by
  -- Each event moves the starting point, so the run reached so far stays quantified over.
  induction events generalizing history state with
  | nil => exact run
  | cons event events ih =>
    rw [admits, Bool.and_eq_true, decide_eq_true_eq] at admitted
    exact ih (.step run admitted.1) admitted.2

/-- Events that are admitted one after another from an initial state are a run. -/
theorem Run.reached [∀ history state event, Decidable (guard history state event)]
    (begins : initial state) {events : List ε}
    (admitted : system.admits guard ([], state) events = true) :
    Run system initial guard (system.execute ([], state) events).1
      (system.execute ([], state) events).2 :=
  .replay (.start begins) admitted

end System

/-- An item of a longer list is the last one, or one of the shorter list. -/
theorem snoc_eq_append_cons {ω : Type} {history before after : List ω} {last item : ω}
    (split : history ++ [last] = before ++ item :: after) :
    after = [] ∧ last = item ∧ history = before ∨
      ∃ rest, after = rest ++ [last] ∧ history = before ++ item :: rest := by
  rcases List.eq_nil_or_concat after with rfl | ⟨rest, other, rfl⟩
  · obtain ⟨same, here⟩ := List.append_inj' split rfl
    simp only [List.cons.injEq, and_true] at here
    exact .inl ⟨rfl, here, same⟩
  · rw [List.concat_eq_append, ← List.cons_append, ← List.append_assoc] at split
    obtain ⟨same, here⟩ := List.append_inj' split rfl
    simp only [List.cons.injEq, and_true] at here
    exact .inr ⟨rest, by rw [List.concat_eq_append, here], same⟩

/-- An item of two lists one after the other is one of the first or one of the second. -/
theorem append_eq_append_cons {ω : Type} {history obs before after : List ω} {item : ω}
    (split : history ++ obs = before ++ item :: after) :
    (∃ rest, history = before ++ item :: rest ∧ after = rest ++ obs) ∨
      ∃ rest, before = history ++ rest ∧ obs = rest ++ item :: after := by
  rcases List.append_eq_append_iff.mp split with ⟨rest, earlier, later⟩ | ⟨rest, earlier, later⟩
  · exact .inr ⟨rest, earlier, later⟩
  · cases rest with
    | nil => exact .inr ⟨[], by simpa using earlier.symm, by simpa using later.symm⟩
    | cons first rest =>
      rw [List.cons_append, List.cons.injEq] at later
      exact .inl ⟨rest, by rw [earlier, later.1], later.2⟩

/-- What each step makes true of its observations is true of every observation of a run. -/
theorem System.Run.occurrences {σ ε ω : Type} {system : System σ ε ω} {initial : σ → Prop}
    {guard : List ω → σ → ε → Prop} {history : List ω} {state : σ}
    (run : system.Run initial guard history state) (holds : List ω → ω → Prop)
    (step : ∀ history state event before item after, system.Run initial guard history state →
      guard history state event → (system.step state event).2 = before ++ item :: after →
        holds (history ++ before) item)
    {early late : List ω} {item : ω} (split : history = early ++ item :: late) :
    holds early item := by
  -- By induction on the run: only the last step can bring a new observation.
  induction run generalizing late with
  | start => simp at split
  | step run admitted ih =>
    rcases append_eq_append_cons split with ⟨rest, before, _⟩ | ⟨before, rfl, now⟩
    · exact ih before
    · exact step _ _ _ _ _ _ run admitted now

end Snolc
