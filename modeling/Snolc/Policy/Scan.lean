import Mathlib.Data.List.Infix
import Snolc.Policy.Storage

/-! Scans of one namespace of the policy table. -/

namespace Snolc.Policy

/-- The policy table of the database, each key once and in the order of its bytes. -/
structure KvTable where
  entries : List (String × Bytes)
  ordered : entries.Pairwise fun first second => toUtf8 first.1 < toUtf8 second.1

/-- The range query of the database, a library, from one key up to another. -/
abbrev RangeQuery := KvTable → String → String → List (String × Bytes)

/-- The entries from one key up to another. -/
def KvTable.between (table : KvTable) (start stop : String) : List (String × Bytes) :=
  table.entries.filter fun (key, _) =>
    toUtf8 start ≤ toUtf8 key ∧ toUtf8 key < toUtf8 stop

/-- A range query finds the entries between its keys, in the order of the table. -/
def RangeQuery.FindsBetween (range : RangeQuery) : Prop :=
  ∀ table start stop, range table start stop = table.between start stop

/-- The namespaces of the table. -/
def namespaces : List String :=
  ["meta/", "user/", "credential/", "client/"]

def validatePrefix (prefix_ : String) : Except StorageError Unit :=
  if prefix_ ∈ namespaces then .ok () else .error .invalid

/-- The least key behind all those that start with a prefix. -/
def prefixEnd (prefix_ : String) : Except StorageError String := do
  validatePrefix prefix_
  match (toUtf8 prefix_).getLast? with
  | none => throw .invalid
  | some last =>
    if last = 255 then throw .invalid
    else
      match fromUtf8 ((toUtf8 prefix_).dropLast ++ [last + 1]) with
      | none => throw .invalid
      | some stop => return stop

section Scan

-- How the database finds a range, and what it fails with when an entry is read, if it does.
variable (range : RangeQuery) (faults : Nat → Option StorageError)

/-- Read entries one after another, but no more than the limit. -/
def scanEntries (limit : Nat) :
    List (String × Bytes) → List (String × Bytes) → Except StorageError (List (String × Bytes))
  | [], output => .ok output
  | entry :: entries, output =>
    if output.length = limit then .error .limit
    else
      match faults output.length with
      | some fault => .error fault
      | none => scanEntries limit entries (output ++ [entry])

/-- Everything under a prefix, from the table a read transaction opens. -/
def scanValues (database : Except StorageError KvTable) (prefix_ : String) (limit : Nat) :
    Except StorageError (List (String × Bytes)) := do
  let table ← database
  let stop ← prefixEnd prefix_
  scanEntries faults limit (range table prefix_ stop) []

end Scan

theorem between_iff_prefix {α : Type} [LT α] [Std.Asymm fun a b : α => a < b]
    [Std.Trichotomous fun a b : α => a < b] {last next : α} (less : last < next)
    (tight : ∀ item, last < item → ¬ item < next) (front key : List α) :
    front ++ [last] ≤ key ∧ key < front ++ [next] ↔ front ++ [last] <+: key := by
  induction front generalizing key with
  | nil =>
    cases key with
    | nil => simp
    | cons item key =>
      simp only [List.nil_append, List.cons_le_cons_iff, List.cons_lt_cons_iff, List.nil_le,
        and_true, List.not_lt_nil, and_false, or_false, List.cons_prefix_cons, List.nil_prefix]
      constructor
      · rintro ⟨later | same, before⟩
        · exact absurd before (tight item later)
        · exact same
      · rintro rfl
        exact ⟨.inr rfl, less⟩
  | cons first front ih =>
    cases key with
    | nil => simp
    | cons item key =>
      rw [List.cons_append, List.cons_append, List.cons_le_cons_iff, List.cons_lt_cons_iff,
        List.cons_prefix_cons, ← ih]
      constructor
      · rintro ⟨later | ⟨rfl, above⟩, before | ⟨same, below⟩⟩
        · exact absurd before (Std.Asymm.asymm _ _ later)
        · subst same
          exact absurd later (Std.Asymm.asymm _ _ later)
        · exact absurd before (Std.Asymm.asymm _ _ before)
        · exact ⟨rfl, above, below⟩
      · rintro ⟨rfl, above, below⟩
        exact ⟨.inr ⟨rfl, above⟩, .inr ⟨rfl, below⟩⟩

theorem prefixEnd_ok {prefix_ : String} (valid : validatePrefix prefix_ = .ok ()) :
    ∃ front stop, toUtf8 prefix_ = front ++ [47] ∧ prefixEnd prefix_ = .ok stop ∧
      toUtf8 stop = front ++ [48] := by
  have member : prefix_ ∈ namespaces := by
    unfold validatePrefix at valid
    split at valid
    · assumption
    · cases valid
  simp only [namespaces, List.mem_cons, List.not_mem_nil, or_false] at member
  rcases member with rfl | rfl | rfl | rfl
  · exact ⟨toUtf8 "meta", "meta0", by decide +kernel⟩
  · exact ⟨toUtf8 "user", "user0", by decide +kernel⟩
  · exact ⟨toUtf8 "credential", "credential0", by decide +kernel⟩
  · exact ⟨toUtf8 "client", "client0", by decide +kernel⟩

theorem scanEntries_eq (limit : Nat) (entries output : List (String × Bytes))
    (within : output.length ≤ limit) :
    scanEntries (fun _ => none) limit entries output =
      if output.length + entries.length ≤ limit then .ok (output ++ entries)
      else .error .limit := by
  induction entries generalizing output with
  | nil => simp [scanEntries, within]
  | cons entry entries ih =>
    rw [scanEntries]
    split
    · next full => rw [if_neg (by simp only [List.length_cons]; omega)]
    next room =>
    rw [ih _ (by simp only [List.length_append, List.length_singleton]; omega)]
    simp [Nat.add_assoc, Nat.add_comm 1]

/--
A scan of a namespace finds exactly the entries whose keys start with it, in the order of the table,
and fails when there are more of them than the limit, as long as the database finds what is in a
range.
-/
theorem scanValues_exact {range : RangeQuery} (finds : range.FindsBetween) {prefix_ : String}
    (valid : validatePrefix prefix_ = .ok ()) :
    (∃ stop, prefixEnd prefix_ = .ok stop ∧ ∀ key : String,
      toUtf8 prefix_ ≤ toUtf8 key ∧ toUtf8 key < toUtf8 stop ↔ toUtf8 prefix_ <+: toUtf8 key) ∧
    ∀ (table : KvTable) (limit : Nat),
      let found := table.entries.filter fun (key, _) => toUtf8 prefix_ <+: toUtf8 key
      scanValues range (fun _ => none) (.ok table) prefix_ limit =
        if found.length ≤ limit then .ok found else .error .limit := by
  obtain ⟨front, stop, begins, ends, behind⟩ := prefixEnd_ok valid
  have between (key : String) : toUtf8 prefix_ ≤ toUtf8 key ∧ toUtf8 key < toUtf8 stop ↔
      toUtf8 prefix_ <+: toUtf8 key := by
    rw [begins, behind]
    refine between_iff_prefix (by decide) (fun byte later before => ?_) front _
    rw [UInt8.lt_iff_toNat_lt] at later before
    have low : (47 : UInt8).toNat = 47 := rfl
    have high : (48 : UInt8).toNat = 48 := rfl
    omega
  refine ⟨⟨stop, ends, between⟩, fun table limit => ?_⟩
  simp only [scanValues, ends, Bind.bind, Except.bind, finds table, KvTable.between, between]
  rw [scanEntries_eq _ _ _ (Nat.zero_le _)]
  simp

/-- A table with two receipts. -/
def receipts : KvTable where
  entries := [("client/a", [1]), ("client/b", [2]), ("user/a", [3])]
  ordered := by decide +kernel

theorem scanValues_exact_receipts :
    scanValues KvTable.between (fun _ => none) (.ok receipts) "client/" 2 =
      .ok [("client/a", [1]), ("client/b", [2])] := by
  have finds : RangeQuery.FindsBetween KvTable.between := fun _ _ _ => rfl
  have scanned := (@scanValues_exact _ finds "client/" (by decide +kernel)).2 receipts 2
  exact scanned.trans (by decide +kernel)

end Snolc.Policy
