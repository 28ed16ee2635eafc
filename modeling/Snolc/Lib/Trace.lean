import Mathlib.Data.List.Basic

/-! Observations that an automaton can follow from one state to another. -/

namespace Snolc

variable {σ ω : Type}

/-- An automaton follows a list of observations from one state to another. -/
inductive Follows (next : σ → ω → σ → Prop) : σ → List ω → σ → Prop
  | nil (state : σ) : Follows next state [] state
  | cons {first second last : σ} {item : ω} {items : List ω} (one : next first item second)
      (rest : Follows next second items last) : Follows next first (item :: items) last

namespace Follows

variable {next : σ → ω → σ → Prop} {first last : σ} {items more : List ω}

/-- What is followed can be cut anywhere. -/
theorem append_iff : Follows next first (items ++ more) last ↔
    ∃ middle, Follows next first items middle ∧ Follows next middle more last := by
  induction items generalizing first with
  | nil =>
    constructor
    · intro rest
      exact ⟨first, .nil first, rest⟩
    · rintro ⟨middle, none, rest⟩
      cases none
      exact rest
  | cons item items ih =>
    constructor
    · intro whole
      cases whole with
      | cons one rest =>
        obtain ⟨middle, before, after⟩ := ih.mp rest
        exact ⟨middle, .cons one before, after⟩
    · rintro ⟨middle, before, after⟩
      cases before with
      | cons one rest => exact .cons one (ih.mpr ⟨middle, rest, after⟩)

/-- Lists that are followed one after the other are followed as one. -/
theorem append {middle : σ} (before : Follows next first items middle)
    (after : Follows next middle more last) : Follows next first (items ++ more) last :=
  append_iff.mpr ⟨middle, before, after⟩

theorem single {item : ω} (one : next first item last) : Follows next first [item] last :=
  .cons one (.nil last)

/-- Observations that each leave a state as it is leave it so together. -/
theorem stay (each : ∀ item ∈ items, next first item first) : Follows next first items first := by
  induction items with
  | nil => exact .nil first
  | cons item items ih =>
    exact .cons (each item List.mem_cons_self)
      (ih fun other among => each other (List.mem_cons_of_mem item among))

end Follows

end Snolc
