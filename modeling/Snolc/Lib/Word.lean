import Mathlib.Algebra.GroupWithZero.Nat

/-! Sixty-four-bit arithmetic on natural numbers, and the composition of fallible steps. -/

namespace Snolc

/-- The largest value of a sixty-four-bit word. -/
def u64Max : Nat := 2 ^ 64 - 1

/-- Addition that fails past the word. -/
def checkedAdd (a b : Nat) : Option Nat :=
  if a + b ≤ u64Max then some (a + b) else none

/-- Subtraction that fails below zero. -/
def checkedSub (a b : Nat) : Option Nat :=
  if b ≤ a then some (a - b) else none

/-- Multiplication that fails past the word. -/
def checkedMul (a b : Nat) : Option Nat :=
  if a * b ≤ u64Max then some (a * b) else none

/-- Addition that stops at the largest word. -/
def saturatingAdd (a b : Nat) : Nat :=
  min (a + b) u64Max

/-- Multiplication that stops at the largest word. -/
def saturatingMul (a b : Nat) : Nat :=
  min (a * b) u64Max

/-- Addition that wraps around past the largest word. -/
def wrappingAdd (a b : Nat) : Nat :=
  (a + b) % 2 ^ 64

/-- A checked product that exists is the product. -/
theorem checkedMul_eq_some {a b total : Nat} (product : checkedMul a b = some total) :
    total = a * b := by
  unfold checkedMul at product
  split at product <;> simp_all

/-- A checked sum that exists is the sum. -/
theorem checkedAdd_eq_some {a b total : Nat} (sum : checkedAdd a b = some total) :
    total = a + b := by
  unfold checkedAdd at sum
  split at sum <;> simp_all

/-- A checked difference that exists is the difference of an ordered pair. -/
theorem checkedSub_eq_some {a b rest : Nat} (difference : checkedSub a b = some rest) :
    b ≤ a ∧ rest = a - b := by
  unfold checkedSub at difference
  split at difference <;> simp_all

/-- A sum that fits the word is not cut off. -/
theorem saturatingAdd_eq {a b : Nat} (fits : a + b ≤ u64Max) : saturatingAdd a b = a + b :=
  Nat.min_eq_left fits

/-- A sequence of fallible steps succeeds only if its first step does. -/
theorem bind_ok {ε α β : Type} {first : Except ε α} {rest : α → Except ε β} {result : β}
    (ok : first >>= rest = .ok result) : ∃ value, first = .ok value ∧ rest value = .ok result := by
  cases first with
  | error => simp [Bind.bind, Except.bind] at ok
  | ok value => exact ⟨value, rfl, ok⟩

end Snolc
