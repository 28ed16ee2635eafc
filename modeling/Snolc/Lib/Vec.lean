import Mathlib.Data.List.Basic
import Mathlib.Data.List.Induction
import Mathlib.Data.List.Perm.Basic

/-! Growable arrays: removal that fills the gap with the last element. -/

namespace Snolc.Vec

open List

variable {α : Type}

/-- Remove an element by putting the last one in its place. -/
def swapRemove (items : List α) (index : Nat) : List α :=
  match items.getLast? with
  | none => items
  | some last => if index < items.length then (items.set index last).dropLast else items

variable (accepts : α → Bool)

/-- The positions of the elements a predicate accepts, in order. -/
def positions (items : List α) : List Nat :=
  (List.range items.length).filter fun index => (items[index]?).any accepts

/-- The last element leaves no gap. -/
theorem swapRemove_last (front : List α) (last : α) :
    swapRemove (front ++ [last]) front.length = front := by
  simp [swapRemove]

variable {index : Nat}

/-- The last element fills the gap before it. -/
theorem swapRemove_front {front : List α} (inside : index < front.length)
    (last : α) : swapRemove (front ++ [last]) index = front.set index last := by
  have within : index < front.length + 1 := by omega
  simp [swapRemove, set_append_left index last inside, within]

variable {items : List α}

/-- A list with a position in it has a last element. -/
theorem exists_snoc (inside : index < items.length) : ∃ front last, items = front ++ [last] := by
  rcases eq_nil_or_concat items with rfl | ⟨front, last, rfl⟩
  · simp at inside
  · exact ⟨front, last, concat_eq_append⟩

/-- The gap is filled from behind it. -/
theorem swapRemove_middle (front : List α) (item : α) (behind : List α) :
    ∃ others, swapRemove (front ++ item :: behind) front.length = front ++ others ∧
      others.Perm behind := by
  rcases eq_nil_or_concat behind with rfl | ⟨middle, last, rfl⟩
  · exact ⟨[], by simpa using swapRemove_last front item, .refl []⟩
  have inside : front.length < (front ++ item :: middle).length := by simp
  have filled := swapRemove_front inside last
  refine ⟨last :: middle, ?_, ?_⟩
  · rw [concat_eq_append]
    simpa using filled
  · rw [concat_eq_append]
    exact (perm_append_singleton last middle).symm

/-- An element stands between those before it and those behind it. -/
theorem exists_split {item : α} (found : items[index]? = some item) :
    ∃ front behind, items = front ++ item :: behind ∧ front.length = index := by
  obtain ⟨inside, rfl⟩ := List.getElem?_eq_some_iff.mp found
  exact ⟨items.take index, items.drop (index + 1), by simp, by simp; omega⟩

/-- The element that is removed goes, and the others stay in some order. -/
theorem swapRemove_perm {item : α}
    (found : items[index]? = some item) : items.Perm (item :: swapRemove items index) := by
  obtain ⟨front, behind, rfl, rfl⟩ := exists_split found
  obtain ⟨others, removed, same⟩ := swapRemove_middle front item behind
  rw [removed]
  exact perm_middle.trans ((same.symm.append_left front).cons item)

/-- What stands before the gap stays where it is. -/
theorem getElem?_swapRemove {other : Nat} (inside : index < items.length)
    (before : other < index) : (swapRemove items index)[other]? = items[other]? := by
  obtain ⟨front, last, rfl⟩ := exists_snoc inside
  simp only [length_append, length_singleton] at inside
  rcases Nat.lt_or_ge index front.length with within | after
  · rw [swapRemove_front within, List.getElem?_set_ne (by omega),
      List.getElem?_append_left (by omega)]
  · have same : index = front.length := by omega
    subst same
    rw [swapRemove_last, List.getElem?_append_left before]

/-- The positions are found with accepted elements. -/
theorem mem_positions {accepts : α → Bool} :
    index ∈ positions accepts items ↔ ∃ item, items[index]? = some item ∧ accepts item := by
  simp only [positions, mem_filter, mem_range, Option.any_eq_true]
  constructor
  · rintro ⟨_, item, found, accepted⟩
    exact ⟨item, found, accepted⟩
  · rintro ⟨item, found, accepted⟩
    exact ⟨(List.getElem?_eq_some_iff.mp found).1, item, found, accepted⟩

/-- The positions stand in ascending order. -/
theorem positions_ascending (items : List α) : (positions accepts items).Pairwise (· < ·) :=
  pairwise_lt_range.filter _

/-- One element more at the end. -/
theorem positions_snoc (front : List α) (last : α) : positions accepts (front ++ [last]) =
      positions accepts front ++ if accepts last then [front.length] else [] := by
  have same : ∀ index ∈ List.range front.length,
      (((front ++ [last])[index]?).any accepts) = (front[index]?).any accepts := by
    intro index inside
    rw [List.getElem?_append_left (mem_range.mp inside)]
  simp only [positions, length_append, length_singleton, range_succ,
    filter_append, filter_congr same]
  cases accepted : accepts last <;> simp [accepted]

/--
Removing from the back to the front what a predicate accepts leaves the other elements.

The elements behind the first ones are those that have been considered already.
-/
theorem foldl_swapRemove_perm (first behind : List α) :
    ((positions accepts first).reverse.foldl swapRemove (first ++ behind)).Perm
      (first.filter (fun item => !accepts item) ++ behind) := by
  -- The last of the first elements is considered next, and the gap it leaves lies behind.
  induction first using List.reverseRecOn generalizing behind with
  | nil => simp [positions]
  | append_singleton front last ih =>
    rw [positions_snoc]
    cases accepted : accepts last with
    | false => simpa [accepted] using ih (last :: behind)
    | true =>
      obtain ⟨others, removed, same⟩ := swapRemove_middle front last behind
      have next := (ih others).trans (same.append_left _)
      simpa [accepted, removed] using next

/-- Removing from the back to the front what a predicate accepts keeps the rest in some order. -/
theorem swapRemove_positions (items : List α) :
    ((positions accepts items).reverse.foldl swapRemove items).Perm
      (items.filter fun item => !accepts item) := by
  simpa using foldl_swapRemove_perm accepts items []

/-- Removal does not look at the elements. -/
theorem map_swapRemove {β : Type} (change : α → β) (items : List α) (index : Nat) :
    (swapRemove items index).map change = swapRemove (items.map change) index := by
  rcases eq_nil_or_concat items with rfl | ⟨front, last, rfl⟩
  · rfl
  · simp only [swapRemove, concat_eq_append, List.getLast?_append, map_append]
    split <;> simp_all [apply_ite (List.map change), map_dropLast, map_set]

/-- The positions of marks are those of what carries them. -/
theorem positions_map {μ : Type} (accepts : μ → Bool) (mark : α → μ) (items : List α) :
    positions accepts (items.map mark) = positions (fun item => accepts (mark item)) items := by
  simp only [positions, length_map, List.getElem?_map, Option.any_map]

/-- Removing from the back to the front what is marked keeps the rest in some order. -/
theorem swapRemove_marked {μ : Type} (accepts : μ → Bool) {marks : List μ}
    (length : marks.length = items.length) :
    ((positions accepts marks).reverse.foldl swapRemove items).Perm
      (((marks.zip items).filter fun pair => !accepts pair.1).map Prod.snd) := by
  -- Mark and element are removed together.
  have removed := (swapRemove_positions (fun pair : μ × α => accepts pair.1)
    (marks.zip items)).map Prod.snd
  rw [← positions_map accepts Prod.fst, map_fst_zip (Nat.le_of_eq length)] at removed
  have follows : ∀ (indices : List Nat) (pairs : List (μ × α)),
      (indices.foldl swapRemove pairs).map Prod.snd =
        indices.foldl swapRemove (pairs.map Prod.snd) := by
    intro indices
    induction indices with
    | nil => exact fun _ => rfl
    | cons index indices ih =>
      intro pairs
      rw [foldl_cons, foldl_cons, ih, map_swapRemove]
  rwa [follows, map_snd_zip (Nat.le_of_eq length.symm)] at removed

end Snolc.Vec
