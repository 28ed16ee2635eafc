import Mathlib.Algebra.GroupWithZero.Nat
import Mathlib.Data.List.AList
import Mathlib.Data.List.Dedup
import Mathlib.Data.List.Induction
import Mathlib.Data.List.Sigma

/-! Hash tables as lists of entries with distinct keys. -/

namespace Snolc

open List Option AList

/-- A hash table: a list of entries with distinct keys, standing for one iteration order. -/
abbrev Table (κ α : Type) := AList fun _ : κ => α

namespace Table

variable {κ α β : Type} (table : Table κ α)

/-- The stored values in iteration order. -/
def values : List α :=
  table.entries.map Sigma.snd

/-- The number of entries. -/
def len : Nat :=
  table.entries.length

variable (keep : κ → α → Bool)

/-- Keep only the entries the predicate accepts. -/
def retain : Table κ α where
  entries := table.entries.filter fun entry => keep entry.1 entry.2
  nodupKeys := table.nodupKeys.sublist List.filter_sublist

/-- Change every value in place. -/
def mapValues (change : κ → α → β) : Table κ β where
  entries := table.entries.map fun entry => ⟨entry.1, change entry.1 entry.2⟩
  nodupKeys := by
    -- Only values change, so the list of keys is the same list.
    have keys : (table.entries.map fun entry => (⟨entry.1, change entry.1 entry.2⟩ :
        Sigma fun _ : κ => β)).keys = table.entries.keys := by
      simp [List.keys]
    rw [List.NodupKeys, keys]
    exact table.keys_nodup

/-- The number of values the predicate accepts. -/
def count (accepts : α → Bool) (table : Table κ α) : Nat :=
  table.values.countP accepts

/-- What either predicate accepts is counted by one of them. -/
theorem count_or_le (first second : α → Bool) :
    count (fun value => first value || second value) table ≤
      count first table + count second table := by
  unfold count
  induction table.values with
  | nil => simp
  | cons value =>
    simp only [countP_cons]
    cases first value <;> cases second value <;> simp <;> omega

section Lookup

variable [DecidableEq κ]

/-- A value found under a key is one of the stored entries. -/
theorem mem_entries {table : Table κ α} {key : κ} {value : α} :
    table.lookup key = some value ↔ ⟨key, value⟩ ∈ table.entries :=
  mem_lookup_iff

/-- Every stored value is found under some key. -/
theorem mem_values {table : Table κ α} {value : α} :
    value ∈ table.values ↔ ∃ key, table.lookup key = some value := by
  simp only [values, List.mem_map, mem_entries]
  constructor
  · rintro ⟨⟨key, stored⟩, member, rfl⟩
    exact ⟨key, member⟩
  · rintro ⟨key, member⟩
    exact ⟨⟨key, value⟩, member, rfl⟩

variable {holds : κ → α → Prop}

instance decidableExists [∀ key value, Decidable (holds key value)] :
    Decidable (∃ key value, table.lookup key = some value ∧ holds key value) :=
  decidable_of_iff (∃ entry ∈ table.entries, holds entry.1 entry.2) <| by
    simp only [mem_entries]
    constructor
    · rintro ⟨⟨key, value⟩, member, accepted⟩
      exact ⟨key, value, member, accepted⟩
    · rintro ⟨key, value, member, accepted⟩
      exact ⟨⟨key, value⟩, member, accepted⟩

/-- Looking up after an insertion finds the new value under its key and the old ones elsewhere. -/
theorem lookup_insert_eq (key other : κ) (value : α) : (table.insert key value).lookup other =
      if other = key then some value else table.lookup other := by
  split
  · subst other; exact lookup_insert _
  · next different => exact lookup_insert_ne different

/-- What is found after an insertion was inserted, or was there under another key. -/
theorem of_lookup_insert {table : Table κ α} {key other : κ} {value found : α}
    (there : (table.insert key value).lookup other = some found) :
    other = key ∧ found = value ∨ other ≠ key ∧ table.lookup other = some found := by
  rw [lookup_insert_eq] at there
  split at there
  · next same => exact .inl ⟨same, (Option.some.inj there).symm⟩
  · next different => exact .inr ⟨different, there⟩

/-- Looking up after a removal finds nothing under the key and the old values elsewhere. -/
theorem lookup_erase_eq (key other : κ) :
    (table.erase key).lookup other = if other = key then none else table.lookup other := by
  split
  · subst other; exact lookup_erase _ _
  · next different => exact lookup_erase_ne different

/-- After an insertion there is a value under the key and where there was one. -/
theorem isSome_insert (key other : κ) (value : α) : ((table.insert key value).lookup other).isSome =
      (decide (other = key) || (table.lookup other).isSome) := by
  rw [lookup_insert_eq]
  split <;> simp [*]

/-- After a removal there is a value where there was one, but not under the key. -/
theorem isSome_erase (key other : κ) : ((table.erase key).lookup other).isSome =
      (!decide (other = key) && (table.lookup other).isSome) := by
  rw [lookup_erase_eq]
  split <;> simp [*]

variable (key : κ)

/-- A key is removed once and for all. -/
theorem erase_erase : (table.erase key).erase key = table.erase key :=
  AList.ext (kerase_of_notMem_keys (notMem_keys_kerase key table.nodupKeys))

/-- Removing a key that is not there changes nothing. -/
theorem erase_absent {table : Table κ α} {key : κ} (absent : table.lookup key = none) :
    table.erase key = table :=
  AList.ext (kerase_of_notMem_keys (lookup_eq_none.mp absent))

variable (value : α)

/-- Removing a key before inserting under it makes no difference. -/
theorem insert_erase : (table.erase key).insert key value = table.insert key value := by
  apply AList.ext
  rw [entries_insert, entries_insert]
  exact congrArg (List.cons _) (congrArg AList.entries (erase_erase table key))

/-- Removing what was inserted under an absent key leaves the table as it was. -/
theorem erase_insert_of_absent {table : Table κ α} {key : κ}
    (absent : table.erase key = table) : (table.insert key value).erase key = table := by
  refine AList.ext (Eq.trans ?_ (congrArg AList.entries absent))
  exact kerase_cons_eq (s := (⟨key, value⟩ : Sigma fun _ : κ => α)) rfl

/-- Retaining keeps exactly the values the predicate accepts. -/
theorem lookup_retain (key : κ) :
    (table.retain keep).lookup key = (table.lookup key).filter (keep key) := by
  -- Both sides hold the same value, so membership decides the equality.
  ext value
  constructor
  · intro found
    have member := mem_entries.mp found
    simp only [retain, mem_filter] at member
    exact mem_filter_iff.mpr ⟨mem_entries.mpr member.1, member.2⟩
  · intro found
    obtain ⟨present, kept⟩ := mem_filter_iff.mp found
    exact mem_entries.mpr (mem_filter.mpr ⟨mem_entries.mp present, kept⟩)

/-- A retained value was there before and is accepted by the predicate. -/
theorem lookup_retain_eq_some {table : Table κ α} {keep : κ → α → Bool} {key : κ} {value : α} :
    (table.retain keep).lookup key = some value ↔
      table.lookup key = some value ∧ keep key value = true := by
  rw [lookup_retain, filter_eq_some_iff]

/-- Changing values in place changes the value found under each key. -/
theorem lookup_mapValues (change : κ → α → β) (key : κ) :
    (table.mapValues change).lookup key = (table.lookup key).map (change key) := by
  ext value
  constructor
  · intro found
    have member := mem_entries.mp found
    simp only [mapValues, List.mem_map] at member
    obtain ⟨⟨stored, old⟩, present, same⟩ := member
    cases same
    exact mem_map_of_mem _ (mem_entries.mpr present)
  · intro found
    obtain ⟨old, present, rfl⟩ := map_eq_some_iff.mp found
    exact mem_entries.mpr (List.mem_map.mpr ⟨⟨key, old⟩, mem_entries.mp present, rfl⟩)

/-- Every entry of a table has a property. -/
def All (holds : κ → α → Prop) (table : Table κ α) : Prop :=
  ∀ key value, table.lookup key = some value → holds key value

instance All.decidable [∀ key value, Decidable (holds key value)] : Decidable (All holds table) :=
  decidable_of_iff (¬ ∃ key value, table.lookup key = some value ∧ ¬ holds key value) <| by
    simp [All]

namespace All

variable {holds : κ → α → Prop} {table : Table κ α}

theorem empty : All holds (∅ : Table κ α) := by
  intro key value found
  simp at found

theorem insert {key : κ} {value : α} (all : All holds table) (new : holds key value) :
    All holds (table.insert key value) := by
  intro other found present
  rw [lookup_insert_eq] at present
  split at present
  · next same =>
    simp only [Option.some.injEq] at present
    exact same ▸ present ▸ new
  · exact all other found present

theorem mono {other : κ → α → Prop} (all : All holds table)
    (weaker : ∀ key value, holds key value → other key value) : All other table :=
  fun key value found => weaker key value (all key value found)

end All

/-- Every entry of the first table is one of the second. -/
def Sub (part whole : Table κ α) : Prop :=
  ∀ key value, part.lookup key = some value → whole.lookup key = some value

namespace Sub

variable {part mid whole : Table κ α}

theorem refl : Sub table table :=
  fun _ _ found => found

theorem trans (first : Sub part mid) (second : Sub mid whole) : Sub part whole :=
  fun key value found => second key value (first key value found)

theorem empty : Sub ∅ table := by
  intro key value found
  simp at found

theorem erase : Sub (table.erase key) table := by
  intro other value found
  rw [lookup_erase_eq] at found
  split at found
  · simp at found
  · exact found

theorem retain : Sub (table.retain keep) table :=
  fun _ _ found => (lookup_retain_eq_some.mp found).1

end Sub

variable {part whole : Table κ α}

/-- What every entry of a table has, every entry of a part of it has. -/
theorem All.sub (all : All holds whole) (sub : Sub part whole) : All holds part :=
  fun key value found => all key value (sub key value found)

/-- A part of a table has no more of anything. -/
theorem Sub.count_le (sub : Sub part whole) (accepts : α → Bool) :
    count accepts part ≤ count accepts whole := by
  have nodup : part.entries.Nodup := List.NodupKeys.nodup part.nodupKeys
  have inside : part.entries ⊆ whole.entries := fun entry member =>
    mem_entries.mp (sub entry.1 entry.2 (mem_entries.mpr member))
  simp only [count, values, countP_map]
  exact (subperm_of_subset nodup inside).countP_le _

/-- The new entry counts once, and the rest as without its key. -/
theorem count_insert (accepts : α → Bool) : count accepts (table.insert key value) =
      count accepts (table.erase key) + if accepts value then 1 else 0 := by
  simp only [count, values, entries_insert, map_cons, countP_cons]
  rfl

/-- An entry counts once, and the rest as without its key. -/
theorem count_erase {table : Table κ α} {key : κ} {value : α}
    (found : table.lookup key = some value) (accepts : α → Bool) :
    count accepts table = count accepts (table.erase key) + if accepts value then 1 else 0 := by
  -- Putting the same entry back under its key only moves it to the front.
  rw [← count_insert]
  have here (other : κ) : (table.insert key value).lookup other = table.lookup other := by
    rw [lookup_insert_eq]
    split
    · next same => rw [same, found]
    · rfl
  exact le_antisymm (Sub.count_le (fun other _ there => (here other).trans there) accepts)
    (Sub.count_le (fun other _ there => (here other).symm.trans there) accepts)

/-- Replacing an entry by one that counts no more. -/
theorem count_insert_le {table : Table κ α} {key : κ} {value old : α} {accepts : α → Bool}
    (found : table.lookup key = some old) (fewer : accepts value = true → accepts old = true) :
    count accepts (table.insert key value) ≤ count accepts table := by
  rw [count_insert, count_erase found]
  cases new : accepts value with
  | false => simp
  | true => simp [fewer new]

/-- The sum of the weights of the values. -/
def weigh (weight : α → Nat) (table : Table κ α) : Nat :=
  (table.values.map weight).sum

omit [DecidableEq κ] in
/-- Values that weigh one each are counted. -/
theorem count_eq_weigh (accepts : α → Bool) (table : Table κ α) :
    count accepts table = weigh (fun value => if accepts value then 1 else 0) table := by
  rw [count, weigh]
  induction table.values with
  | nil => rfl
  | cons value values ih =>
    rw [countP_cons, map_cons, sum_cons, ih, Nat.add_comm]

/-- The sum of the weights of the entries, where the key has a say. -/
def total (weight : κ → α → Nat) (table : Table κ α) : Nat :=
  (table.entries.map fun entry => weight entry.1 entry.2).sum

omit [DecidableEq κ] in
/-- Entries that are weighed by their values alone. -/
theorem weigh_eq_total (weight : α → Nat) (table : Table κ α) :
    weigh weight table = total (fun _ => weight) table := by
  rw [weigh, total, values, List.map_map]
  rfl

/-- The new entry adds its weight to the rest. -/
theorem total_insert (weight : κ → α → Nat) : total weight (table.insert key value) =
      total weight (table.erase key) + weight key value := by
  simp only [total, entries_insert, map_cons, sum_cons]
  rw [Nat.add_comm]
  rfl

/-- The total is that of the entries, whatever their order. -/
theorem total_congr {first second : Table κ α}
    (same : ∀ key, first.lookup key = second.lookup key) (weight : κ → α → Nat) :
    total weight first = total weight second := by
  have entries : first.entries.Perm second.entries :=
    lookup_ext first.nodupKeys second.nodupKeys fun key value => by
      have found : List.dlookup key first.entries = List.dlookup key second.entries := same key
      rw [found]
  exact (entries.map _).sum_nat

/-- An entry adds its weight to the rest. -/
theorem total_erase {table : Table κ α} {key : κ} {value : α}
    (found : table.lookup key = some value) (weight : κ → α → Nat) :
    total weight table = total weight (table.erase key) + weight key value := by
  rw [← total_insert]
  refine total_congr (fun other => ?_) weight
  -- Putting the entry back where it was changes no lookup.
  rw [lookup_insert_eq]
  split
  · next same => rw [same, found]
  · rfl

/-- The new entry adds its weight to the rest. -/
theorem weigh_insert (weight : α → Nat) :
    weigh weight (table.insert key value) = weigh weight (table.erase key) + weight value := by
  rw [weigh_eq_total, weigh_eq_total, total_insert]

/-- An entry adds its weight to the rest. -/
theorem weigh_erase {table : Table κ α} {key : κ} {value : α}
    (found : table.lookup key = some value) (weight : α → Nat) :
    weigh weight table = weigh weight (table.erase key) + weight value := by
  rw [weigh_eq_total, weigh_eq_total, total_erase found]

/-- A table whose entries go back to heavier ones weighs no more. -/
theorem weigh_le {weight : α → Nat} (heavier : ∀ key value, part.lookup key = some value →
      ∃ old, whole.lookup key = some old ∧ weight value ≤ weight old) :
    weigh weight part ≤ weigh weight whole := by
  -- One entry of the part after the other, each with the entry it goes back to.
  induction part using AList.insertRec generalizing whole with
  | H0 => exact Nat.zero_le _
  | IH key value rest absent ih =>
    obtain ⟨old, found, le⟩ := heavier key value (lookup_insert _)
    have gone : rest.erase key = rest :=
      AList.ext (kerase_of_notMem_keys absent)
    rw [weigh_insert, gone, weigh_erase found]
    refine Nat.add_le_add (ih fun other there held => ?_) le
    have apart : other ≠ key := by
      rintro rfl
      exact absent (mem_keys.mp (lookup_isSome.mp (by simp [held])))
    have kept := heavier other there (by rw [lookup_insert_eq, if_neg apart, held])
    rwa [lookup_erase_eq, if_neg apart]

omit [DecidableEq κ] in
/-- Every entry counts. -/
theorem len_eq_count : table.len = count (fun _ => true) table := by
  rw [len, count, values, countP_true, length_map]

/-- The new entry is one more than the rest without its key. -/
theorem len_insert : len (table.insert key value) = len (table.erase key) + 1 := by
  rw [len_eq_count, len_eq_count, count_insert, if_pos rfl]

/-- An entry is one more than the rest without its key. -/
theorem len_erase {table : Table κ α} {key : κ} (present : table.lookup key ≠ none) :
    table.len = len (table.erase key) + 1 := by
  obtain ⟨value, found⟩ := ne_none_iff_exists'.mp present
  rw [len_eq_count, len_eq_count, count_erase found, if_pos rfl]

/-- A table whose keys are among those of another has no more entries. -/
theorem len_le (within : ∀ key, part.lookup key ≠ none → whole.lookup key ≠ none) :
    part.len ≤ whole.len := by
  rw [len_eq_count, len_eq_count, count_eq_weigh, count_eq_weigh]
  refine weigh_le fun key value found => ?_
  obtain ⟨old, there⟩ := ne_none_iff_exists'.mp (within key (by simp [found]))
  exact ⟨old, there, le_rfl⟩

/-- Without a key there are no more entries. -/
theorem len_erase_le : len (table.erase key) ≤ table.len := by
  refine len_le fun other => ?_
  rw [lookup_erase_eq]
  split <;> simp

/--
The order in which an iterator visits the keys, chosen by a hint.

Hash tables promise no order.
Every permutation of the keys is the visit of some hint, so a quantified hint covers them all.
-/
def visit (hint keys : List κ) : List κ :=
  (hint.dedup.filter (· ∈ keys)) ++ keys.filter (· ∉ hint)

/-- A visit reaches exactly the keys. -/
theorem mem_visit {hint keys : List κ} {key : κ} : key ∈ visit hint keys ↔ key ∈ keys := by
  by_cases hinted : key ∈ hint <;> simp [visit, hinted]

/-- A visit reaches no key twice. -/
theorem nodup_visit {hint keys : List κ} (distinct : keys.Nodup) : (visit hint keys).Nodup := by
  -- The two halves are duplicate free, and they split on membership in the hint.
  refine List.Nodup.append (hint.nodup_dedup.filter _) (distinct.filter _) ?_
  intro key hinted rest
  simp only [mem_filter, mem_dedup, decide_eq_true_eq] at hinted rest
  exact rest.2 hinted.1

/-- The key an iterator yields first, chosen by a hint. -/
def first (hint : κ) : Option κ :=
  if hint ∈ table.keys then some hint else table.keys.head?

end Lookup

end Table

/-- What every turn keeps for one more of those who were served holds when all were. -/
theorem foldl_served {α β : Type} {items : List α} (distinct : items.Nodup)
    {holds : List α → β → Prop} {turn : β → α → β} {start : β} (begun : holds [] start)
    (step : ∀ served progress item, item ∈ items → item ∉ served → holds served progress →
      holds (item :: served) (turn progress item)) :
    holds items.reverse (items.foldl turn start) := by
  -- By induction on the items from the back: the last one comes after all others.
  induction items using List.reverseRecOn with
  | nil => exact begun
  | append_singleton items last ih =>
    obtain ⟨before, _, apart⟩ := nodup_append.mp distinct
    rw [foldl_append, reverse_append]
    refine step _ _ last (by simp) (fun again => ?_)
      (ih before fun served progress item member => step served progress item (by simp [member]))
    exact apart last (mem_reverse.mp again) last (by simp) rfl

end Snolc
