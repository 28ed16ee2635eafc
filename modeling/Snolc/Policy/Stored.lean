import Mathlib
import Snolc.Policy.Records

/-! Which weekly schedules are accepted, and what a stored user record decodes to. -/

namespace Snolc.Policy

/-- A weekday with the second at which a window starts and the one at which it ends. -/
abbrev Window := Nat × Nat × Nat

def WeeklyWindow.sorted (window : WeeklyWindow) : Window :=
  (window.weekday.toU8, window.startSecond, window.endSecond)

def WeeklyWindow.seconds (window : WeeklyWindow) : Set Nat :=
  Set.Ico window.startSecond window.endSecond

namespace WeeklyAccess

/-- The window is not empty and lies within a day. -/
def Fits (window : Window) : Prop :=
  window.2.1 < window.2.2 ∧ window.2.2 ≤ 86400

/-- Windows of one day that do not overlap. -/
def Apart (first second : Window) : Prop :=
  first.1 = second.1 → first.2.2 ≤ second.2.1 ∨ second.2.2 ≤ first.2.1

instance : Std.Total fun a b : Window => windowLe a b = true where
  total a b := by simp only [windowLe, Bool.or_eq_true, Bool.and_eq_true, decide_eq_true_eq]; omega

instance : IsTrans Window fun a b => windowLe a b = true where
  trans a b c := by
    simp only [windowLe, Bool.or_eq_true, Bool.and_eq_true, decide_eq_true_eq]
    omega

theorem Apart.symm {first second : Window} (apart : Apart first second) : Apart second first :=
  fun same => (apart same.symm).symm

theorem apart_iff {first second : Window} (fits : Fits second)
    (ordered : windowLe first second = true) :
    Apart first second ↔ (first.1 ≠ second.1 ∨ first.2.2 ≤ second.2.1) := by
  simp only [windowLe, Bool.or_eq_true, Bool.and_eq_true, decide_eq_true_eq] at ordered
  simp only [Fits] at fits
  simp only [Apart]
  omega

theorem windowsOrdered_some {windows : List Window} {before : Window}
    (sorted : (before :: windows).Pairwise fun a b => windowLe a b = true) :
    windowsOrdered (some before) windows = true ↔
      (∀ window ∈ windows, Fits window) ∧ (before :: windows).Pairwise Apart := by
  induction windows generalizing before with
  | nil => simp [windowsOrdered]
  | cons window rest ih =>
    obtain ⟨first, after⟩ := List.pairwise_cons.mp sorted
    have next := first window (by simp)
    have step : windowsOrdered (some before) (window :: rest) = true ↔
        (Fits window ∧ (before.1 ≠ window.1 ∨ before.2.2 ≤ window.2.1)) ∧
          windowsOrdered (some window) rest = true := by
      simp [windowsOrdered, Fits]
    rw [step, ih after, List.forall_mem_cons, List.pairwise_cons (a := before),
      List.forall_mem_cons]
    constructor
    · rintro ⟨⟨fits, clear⟩, others, apart⟩
      -- A window further on starts no earlier than the neighbour, and on a day no earlier.
      refine ⟨⟨fits, others⟩, ⟨(apart_iff fits next).mpr clear, fun later member => ?_⟩, apart⟩
      have follows := (List.pairwise_cons.mp after).1 later member
      rw [apart_iff (others later member) (first later (by simp [member]))]
      simp only [windowLe, Bool.or_eq_true, Bool.and_eq_true, decide_eq_true_eq] at next follows
      omega
    · rintro ⟨⟨fits, others⟩, ⟨clear, _⟩, apart⟩
      exact ⟨⟨fits, (apart_iff fits next).mp clear⟩, others, apart⟩

theorem windowsOrdered_none {windows : List Window}
    (sorted : windows.Pairwise fun a b => windowLe a b = true) :
    windowsOrdered none windows = true ↔
      (∀ window ∈ windows, Fits window) ∧ windows.Pairwise Apart := by
  cases windows with
  | nil => simp [windowsOrdered]
  | cons window rest =>
    have step : windowsOrdered none (window :: rest) = true ↔
        Fits window ∧ windowsOrdered (some window) rest = true := by
      simp [windowsOrdered, Fits]
    rw [step, windowsOrdered_some sorted, List.forall_mem_cons, and_assoc]

theorem valid_iff_pairwise (entries : List WeeklyWindow) :
    (windows entries).valid = true ↔
      (1 ≤ entries.length ∧ entries.length ≤ 168) ∧ (∀ window ∈ entries, Fits window.sorted) ∧
        entries.Pairwise fun a b => Apart a.sorted b.sorted := by
  have same := List.perm_insertionSort (fun a b : Window => windowLe a b = true)
    (entries.map WeeklyWindow.sorted)
  have lengths : (entries.isEmpty || decide (entries.length > 168)) = false ↔
      1 ≤ entries.length ∧ entries.length ≤ 168 := by
    cases entries <;> simp
  rw [valid, ← lengths]
  split
  · next refused => simp [refused]
  next accepted =>
  -- Sorting permutes the windows, and neither condition depends on their order.
  rw [show (fun window : WeeklyWindow => (window.weekday.toU8, window.startSecond,
      window.endSecond)) = WeeklyWindow.sorted from rfl,
    windowsOrdered_none (List.pairwise_insertionSort _ _),
    same.pairwise_iff fun apart => Apart.symm apart, List.pairwise_map]
  simp only [same.mem_iff, List.forall_mem_map, eq_false_of_ne_true accepted, true_and]

end WeeklyAccess

theorem WeeklyAccess.apart_sorted {first second : WeeklyWindow} (fits : Fits first.sorted)
    (others : Fits second.sorted) :
    Apart first.sorted second.sorted ↔
      (first.weekday = second.weekday → Disjoint first.seconds second.seconds) := by
  have days : first.weekday.toU8 = second.weekday.toU8 ↔ first.weekday = second.weekday := by
    cases first.weekday <;> cases second.weekday <;> decide
  simp only [Fits, WeeklyWindow.sorted] at fits others
  simp only [Apart, WeeklyWindow.sorted, WeeklyWindow.seconds, days, Set.Ico_disjoint_Ico]
  refine imp_congr_right fun _ => ?_
  omega

/--
Weekly windows are validated exactly.
A list is accepted if it has between one and 168 windows, each is well formed, and no two of one
day share a second, whatever the order in which they are listed.
-/
theorem weeklyWindows_valid_iff (entries : List WeeklyWindow) :
    ((WeeklyAccess.windows entries).valid = true ↔
      (1 ≤ entries.length ∧ entries.length ≤ 168) ∧
      (∀ window ∈ entries, window.startSecond < window.endSecond ∧ window.endSecond ≤ 86400) ∧
      ∀ i j : Fin entries.length, i ≠ j →
        (entries.get i).weekday = (entries.get j).weekday →
        Disjoint (entries.get i).seconds (entries.get j).seconds) ∧
    ∀ other : List WeeklyWindow, other.Perm entries →
      (WeeklyAccess.windows other).valid = (WeeklyAccess.windows entries).valid := by
  constructor
  · rw [WeeklyAccess.valid_iff_pairwise, List.pairwise_iff_get]
    refine and_congr_right fun _ => and_congr_right fun fits => ?_
    have each (i : Fin entries.length) := fits _ (List.get_mem entries i)
    constructor
    · intro apart i j different
      -- Either of the two comes first in the list.
      rcases lt_or_gt_of_ne different with before | after
      · exact (WeeklyAccess.apart_sorted (each i) (each j)).mp (apart i j before)
      · exact (WeeklyAccess.apart_sorted (each i) (each j)).mp (apart j i after).symm
    · intro clear i j before
      exact (WeeklyAccess.apart_sorted (each i) (each j)).mpr (clear i j before.ne)
  · intro other same
    rw [Bool.eq_iff_iff, WeeklyAccess.valid_iff_pairwise, WeeklyAccess.valid_iff_pairwise,
      same.length_eq, same.pairwise_iff fun apart => apart.symm]
    simp only [same.mem_iff]

/-- The serializer of stored records, a library. -/
structure Postcard where
  toAllocvec : StoredUserRecord → Option Bytes
  fromBytes : Bytes → Option StoredUserRecord

namespace Postcard

variable (postcard : Postcard)

def encodeUserRecord (user : UserRecord) : Except AdminError Bytes :=
  match postcard.toAllocvec (Policy.encodeUserRecord user) with
  | some bytes => .ok bytes
  | none => .error .encode

def decodeUserRecord (input : Bytes) : Except AdminError UserRecord :=
  match postcard.fromBytes input with
  | some stored => Policy.decodeUserRecord stored
  | none => .error .encode

/-- Decoding inverts the encoding of a stored record. -/
def Inverts (stored : StoredUserRecord) : Prop :=
  (postcard.toAllocvec stored).bind postcard.fromBytes = some stored

end Postcard

/-- A schedule that is valid reads back from its stored form. -/
theorem runtimeWeekly_valid {access : WeeklyAccess} (valid : access.valid = true) :
    runtimeWeekly (storedWeekly access) = .ok access := by
  cases access with
  | unlimited => rfl
  | windows =>
    rw [storedWeekly, runtimeWeekly, mapM_runtimeWindow_stored]
    simp only [Bind.bind, Except.bind, valid, if_true]
    rfl

/-- Whatever is read back as a schedule is valid. -/
theorem valid_of_runtimeWeekly {stored : StoredWeeklyAccess} {access : WeeklyAccess}
    (read : runtimeWeekly stored = .ok access) : access.valid = true := by
  cases stored with
  | unlimited =>
    cases read
    rfl
  | windows =>
    obtain ⟨windows, _, read⟩ := bind_ok read
    dsimp only at read
    split at read
    · next valid =>
      cases read
      exact valid
    · cases read

theorem decodeUserRecord_valid {user : UserRecord} (valid : user.spec.weeklyAccess.valid = true) :
    decodeUserRecord (encodeUserRecord user) = .ok user := by
  simp only [decodeUserRecord, encodeUserRecord, runtimeWeekly_valid valid, Bind.bind, Except.bind,
    runtimeExpiration_stored, runtimeQuota_stored, runtimeRate_stored, runtimeCount_stored]
  rfl

theorem Postcard.decode_encode {postcard : Postcard} {user : UserRecord}
    (inverts : postcard.Inverts (Policy.encodeUserRecord user))
    (valid : user.spec.weeklyAccess.valid = true) :
    postcard.encodeUserRecord user >>= postcard.decodeUserRecord = .ok user := by
  obtain ⟨bytes, written, read⟩ := Option.bind_eq_some_iff.mp inverts
  simp only [Postcard.encodeUserRecord, written, Bind.bind, Except.bind, Postcard.decodeUserRecord,
    read, decodeUserRecord_valid valid]

theorem UserSpec.validate_weekly {spec : UserSpec} (accepted : spec.validate = .ok ()) :
    spec.weeklyAccess.valid = true := by
  unfold UserSpec.validate at accepted
  split at accepted
  · cases accepted
  next fine =>
  by_contra invalid
  exact fine (by simp [invalid])

/--
Stored user records decode to what was written.
Where decoding inverts the serialization of a record, a validated record decodes to itself, and so
does one that was decoded from any bytes, whose windows are always valid.
-/
theorem storedUserRecord_roundTrip (postcard : Postcard) :
    (∀ user : UserRecord, user.spec.validate = .ok () →
      postcard.Inverts (encodeUserRecord user) →
      postcard.encodeUserRecord user >>= postcard.decodeUserRecord = .ok user) ∧
    ∀ (input : Bytes) (user : UserRecord), postcard.decodeUserRecord input = .ok user →
      user.spec.weeklyAccess.valid = true ∧
      (postcard.Inverts (encodeUserRecord user) →
        postcard.encodeUserRecord user >>= postcard.decodeUserRecord = .ok user) := by
  constructor
  · intro user accepted inverts
    exact Postcard.decode_encode inverts (UserSpec.validate_weekly accepted)
  · intro input user decoded
    have valid : user.spec.weeklyAccess.valid = true := by
      unfold Postcard.decodeUserRecord at decoded
      split at decoded
      · obtain ⟨access, read, decoded⟩ := bind_ok decoded
        cases decoded
        exact valid_of_runtimeWeekly read
      · cases decoded
    exact ⟨valid, fun inverts => Postcard.decode_encode inverts valid⟩

/-- A user with one window a week. -/
def clerk : UserRecord :=
  ⟨"clerk", ⟨.enabled, .unlimited, .limited 4096, .unlimited, .unlimited, .unlimited, 65507,
    .unlimited, .limited 8, .windows [⟨.monday, 28800, 61200⟩], 1, "staff", "default"⟩, 1, 0, 0, 0,
    0⟩

/--
The record of that user as it is serialized.

A number takes seven bits a byte, a text and a list begin with their length, and a choice with its
position.
-/
def clerkBytes : Bytes :=
  [5, 0x63, 0x6c, 0x65, 0x72, 0x6b, 0, 0, 1, 0x80, 0x20, 0, 0, 0, 0xe3, 0xff, 3, 0, 1, 8] ++
    -- The window: Monday, from second 28800 to second 61200.
    [1, 1, 0, 0x80, 0xe1, 1, 0x90, 0xde, 3] ++
    [1, 5, 0x73, 0x74, 0x61, 0x66, 0x66, 7, 0x64, 0x65, 0x66, 0x61, 0x75, 0x6c, 0x74] ++
    [1, 0, 0, 0, 0]

/-- A serializer that knows the record of that user only. -/
def clerkPostcard : Postcard where
  toAllocvec stored := if stored = encodeUserRecord clerk then some clerkBytes else none
  fromBytes input := if input = clerkBytes then some (encodeUserRecord clerk) else none

/-- The record of the user decodes to itself. -/
theorem storedUserRecord_roundTrip_clerk :
    clerk.spec.validate = .ok () ∧
      clerkPostcard.encodeUserRecord clerk >>= clerkPostcard.decodeUserRecord = .ok clerk :=
  ⟨by decide +kernel, (storedUserRecord_roundTrip clerkPostcard).1 clerk (by decide +kernel)
    (by simp [Postcard.Inverts, clerkPostcard])⟩

end Snolc.Policy
