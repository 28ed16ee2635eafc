import Snolc.Lib.Run

/-! Two runs of a system, one of which skips some of the events. -/

namespace Snolc.System

variable {σ ε ω : Type} {system : System σ ε ω} {guard : List ω → σ → ε → Prop}
  [∀ history state event, Decidable (guard history state event)]

/--
A run that skips events stays related to the full one, and observes what the full one does, apart
from what the skipped events leave behind.
-/
theorem execute_skip {related : σ → σ → Prop} {keeps : ε → Bool} {about : ω → Bool}
    (taken : ∀ history full short event, related full short → guard history full event →
      keeps event = true → related (system.step full event).1 (system.step short event).1 ∧
        (system.step full event).2 = (system.step short event).2 ∧
        ∀ item ∈ (system.step full event).2, about item = true)
    (skipped : ∀ history full short event, related full short → guard history full event →
      keeps event = false → related (system.step full event).1 short ∧
        ∀ item ∈ (system.step full event).2, about item = false)
    {history : List ω} {full short : σ} {events : List ε} (start : related full short)
    (admitted : system.admits guard (history, full) events = true) :
    related (system.execute (history, full) events).2
        (system.execute (history.filter about, short) (events.filter keeps)).2 ∧
      (system.execute (history, full) events).1.filter about =
        (system.execute (history.filter about, short) (events.filter keeps)).1 := by
  -- By induction on the events: both runs take the next one, or only the full one does.
  induction events generalizing history full short with
  | nil => exact ⟨start, rfl⟩
  | cons event events ih =>
    rw [admits, Bool.and_eq_true, decide_eq_true_eq] at admitted
    cases kept : keeps event with
    | true =>
      obtain ⟨next, same, all⟩ := taken history full short event start admitted.1 kept
      have rest := ih next admitted.2
      have whole : (system.step full event).2.filter about = (system.step short event).2 :=
        (List.filter_eq_self.mpr all).trans same
      rw [List.filter_append, whole] at rest
      rw [List.filter_cons_of_pos kept]
      exact rest
    | false =>
      obtain ⟨next, none_⟩ := skipped history full short event start admitted.1 kept
      have rest := ih next admitted.2
      have nothing : (system.step full event).2.filter about = [] :=
        List.filter_eq_nil_iff.mpr fun item among => by simp [none_ item among]
      rw [List.filter_append, nothing, List.append_nil] at rest
      rw [List.filter_cons_of_neg (by simp [kept])]
      exact rest

end Snolc.System
