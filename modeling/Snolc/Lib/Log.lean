import Snolc.Lib.Run

/-! Sequential objects: the state that a log of operations stands for, and the replies it allows. -/

namespace Snolc

/-- A state that operations change one after another, with its answers and its refusals. -/
structure SequentialObject (σ γ ρ : Type) where
  start : σ
  effect : σ → γ → σ
  answer : σ → γ → ρ
  refuses : ρ → Prop

namespace SequentialObject

variable {σ γ ρ : Type}

/-- The state after the operations of a log. -/
def replay (object : SequentialObject σ γ ρ) (log : List γ) : σ :=
  log.foldl object.effect object.start

/--
Replies that the object gives one after another while its log grows.

An operation is answered as it is entered in the log, at the state the log then stands for; only one
that changes nothing may be answered without an entry.
A refused operation is not entered.
-/
inductive Serial (object : SequentialObject σ γ ρ) : List γ → List (γ × ρ) → Prop
  | start (log : List γ) : Serial object log []
  | answered {log entry : List γ} {replies : List (γ × ρ)} {operation : γ} :
      Serial object log replies →
      entry = [operation] ∨ entry = [] ∧ (∀ state, object.effect state operation = state) →
      Serial object (log ++ entry)
        (replies ++ [(operation, object.answer (object.replay log) operation)])
  | refused {log : List γ} {replies : List (γ × ρ)} {operation : γ} {reply : ρ} :
      Serial object log replies → object.refuses reply →
      Serial object log (replies ++ [(operation, reply)])

/-- Every reply is a refusal, or the answer of the object at a point of the log. -/
def Within (object : SequentialObject σ γ ρ) (log : List γ) (replies : List (γ × ρ)) : Prop :=
  ∀ operation reply, (operation, reply) ∈ replies → object.refuses reply ∨
    ∃ point, point <+: log ∧ reply = object.answer (object.replay point) operation

variable {object : SequentialObject σ γ ρ} {log later : List γ} {replies : List (γ × ρ)}

/-- A point of a log is one of every longer log. -/
theorem Within.mono (within : object.Within log replies) (past : log <+: later) :
    object.Within later replies := by
  intro operation reply member
  refine (within operation reply member).imp_right ?_
  rintro ⟨point, before, answer⟩
  exact ⟨point, before.trans past, answer⟩

theorem Serial.within (serial : object.Serial log replies) : object.Within log replies := by
  -- By induction on the replies: the last one is given at the latest point.
  induction serial with
  | start => exact fun _ _ member => by cases member
  | @answered log entry replies operation _ _ ih =>
    have past : log <+: log ++ entry := List.prefix_append _ _
    intro other reply member
    rcases List.mem_append.mp member with old | new
    · exact ih.mono past other reply old
    · cases List.mem_singleton.mp new
      exact .inr ⟨log, past, rfl⟩
  | refused _ refusal ih =>
    intro other reply member
    rcases List.mem_append.mp member with old | new
    · exact ih other reply old
    · cases List.mem_singleton.mp new
      exact .inl refusal

end SequentialObject

section Zip

variable {α β : Type} {items : List α} {others : List β}

/-- Items past the end of the shorter list pair with nothing. -/
theorem zip_append_of_le (fits : others.length ≤ items.length) (rest : List α) :
    (items ++ rest).zip others = items.zip others := by
  induction others generalizing items with
  | nil => simp
  | cons other others ih =>
    cases items with
    | nil => simp at fits
    | cons item items => simp [ih (Nat.le_of_succ_le_succ fits)]

/-- A last item of the shorter list pairs with the item at its place. -/
theorem zip_snoc {item : α} (there : items[others.length]? = some item) (last : β) :
    items.zip (others ++ [last]) = items.zip others ++ [(item, last)] := by
  induction others generalizing items with
  | nil => cases items <;> simp_all
  | cons other others ih =>
    cases items with
    | nil => simp at there
    | cons first items => simp [ih (by simpa using there)]

end Zip

end Snolc
