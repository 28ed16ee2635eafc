import Mathlib.Data.List.Sort
import Snolc.Lib.Text
import Snolc.Lib.Word

/-! User and credential records, their validation, and their stored form. -/

namespace Snolc.Policy

/-- Raw bytes, as the source slices them. -/
abbrev Bytes := List UInt8

/-- Why an administrative value is refused. -/
inductive AdminError
  | invalid
  | clientLimit
  | sequence
  | state
  | random
  | encode
  deriving DecidableEq, Repr

/-- The value of one lowercase hexadecimal digit. -/
def decodeNibble (byte : UInt8) : Except AdminError Nat :=
  let digit := byte.toNat
  if 0x30 ≤ digit ∧ digit ≤ 0x39 then .ok (digit - 0x30)
  else if 0x61 ≤ digit ∧ digit ≤ 0x66 then .ok (digit - 0x61 + 10)
  else .error .invalid

/-- The bytes written by pairs of digits, high half first. -/
def decodePairs : Bytes → Except AdminError Bytes
  | [] => .ok []
  | [_] => .error .invalid
  | high :: low :: rest => do
    let high ← decodeNibble high
    let low ← decodeNibble low
    let bytes ← decodePairs rest
    return UInt8.ofNat (high * 16 + low) :: bytes

/-- Exactly `width` bytes in lowercase hexadecimal. -/
def decodeHex (width : Nat) (input : String) : Except AdminError Bytes :=
  if input.utf8ByteSize ≠ width * 2 ∨ !(toUtf8 input).all (fun byte => byte.toNat < 128) then
    .error .invalid
  else decodePairs (toUtf8 input)

/-- The lowercase digit of a value below sixteen. -/
def hexDigit (value : Nat) : Char :=
  if value < 10 then Char.ofNat ('0'.toNat + value) else Char.ofNat ('a'.toNat + value - 10)

/-- Bytes as lowercase hexadecimal text. -/
def encodeHex (bytes : Bytes) : String :=
  String.ofList (bytes.flatMap fun byte => [hexDigit (byte.toNat / 16), hexDigit (byte.toNat % 16)])

inductive UserStatus
  | enabled
  | disabled
  deriving DecidableEq, Repr

inductive Expiration
  | unlimited
  | atUtc (unixSeconds : Nat)
  deriving DecidableEq, Repr

inductive ByteLimit
  | unlimited
  | limited (bytes : Nat)
  deriving DecidableEq, Repr

inductive RateLimit
  | unlimited
  | limited (bytesPerSecond : Nat)
  deriving DecidableEq, Repr

inductive CountLimit
  | unlimited
  | limited (count : Nat)
  deriving DecidableEq, Repr

inductive Weekday
  | monday
  | tuesday
  | wednesday
  | thursday
  | friday
  | saturday
  | sunday
  deriving DecidableEq, Repr

namespace Weekday

/-- The weekday of a day counted from the Unix epoch, which was a Thursday. -/
def fromUnixDays (days : Nat) : Weekday :=
  match (days + 3) % 7 with
  | 0 => monday
  | 1 => tuesday
  | 2 => wednesday
  | 3 => thursday
  | 4 => friday
  | 5 => saturday
  | _ => sunday

/-- The stored number of a weekday. -/
def toU8 : Weekday → Nat
  | monday => 0
  | tuesday => 1
  | wednesday => 2
  | thursday => 3
  | friday => 4
  | saturday => 5
  | sunday => 6

/-- The weekday a stored number stands for. -/
def fromU8 : Nat → Except AdminError Weekday
  | 0 => .ok monday
  | 1 => .ok tuesday
  | 2 => .ok wednesday
  | 3 => .ok thursday
  | 4 => .ok friday
  | 5 => .ok saturday
  | 6 => .ok sunday
  | _ => .error .encode

@[simp] theorem fromU8_toU8 (day : Weekday) : fromU8 day.toU8 = .ok day := by
  cases day <;> rfl

end Weekday

structure WeeklyWindow where
  weekday : Weekday
  startSecond : Nat
  endSecond : Nat
  deriving DecidableEq, Repr

inductive WeeklyAccess
  | unlimited
  | windows (entries : List WeeklyWindow)
  deriving DecidableEq, Repr

namespace WeeklyAccess

/-- Whether some window contains the given second of the week. -/
def allows (access : WeeklyAccess) (unixSeconds : Nat) : Bool :=
  match access with
  | unlimited => true
  | windows entries =>
    let day := Weekday.fromUnixDays (unixSeconds / 86400)
    let second := unixSeconds % 86400
    entries.any fun window =>
      window.weekday = day && window.startSecond ≤ second && second < window.endSecond

/-- The order in which windows are sorted: by weekday, then start, then end. -/
def windowLe (a b : Nat × Nat × Nat) : Bool :=
  a.1 < b.1 || a.1 = b.1 && (a.2.1 < b.2.1 || a.2.1 = b.2.1 && a.2.2 ≤ b.2.2)

/-- Each window is well formed and starts no earlier than its neighbour of the same day ends. -/
def windowsOrdered : Option (Nat × Nat × Nat) → List (Nat × Nat × Nat) → Bool
  | _, [] => true
  | previous, (day, start, stop) :: rest =>
    start < stop && stop ≤ 86400 &&
      previous.all (fun before => before.1 ≠ day || before.2.2 ≤ start) &&
      windowsOrdered (some (day, start, stop)) rest

/-- Whether a weekly schedule is acceptable. -/
def valid (access : WeeklyAccess) : Bool :=
  match access with
  | unlimited => true
  | windows entries =>
    if entries.isEmpty || entries.length > 168 then false
    else
      let windows := entries.map fun window =>
        (window.weekday.toU8, window.startSecond, window.endSecond)
      windowsOrdered none (windows.insertionSort fun a b => windowLe a b = true)

end WeeklyAccess

structure UserSpec where
  status : UserStatus
  expiration : Expiration
  quota : ByteLimit
  uploadRate : RateLimit
  downloadRate : RateLimit
  combinedRate : RateLimit
  burstBytes : Nat
  maxSessions : CountLimit
  maxFlows : CountLimit
  weeklyAccess : WeeklyAccess
  weight : Nat
  group : String
  ruleProfile : String
  deriving DecidableEq, Repr

/-- Whether a submitted specification is acceptable. -/
def UserSpec.validate (spec : UserSpec) : Except AdminError Unit :=
  if spec.weight = 0
      ∨ spec.burstBytes < 65507
      ∨ spec.group.isEmpty
      ∨ spec.group.utf8ByteSize > 64
      ∨ spec.ruleProfile.isEmpty
      ∨ spec.ruleProfile.utf8ByteSize > 64
      ∨ spec.quota = .limited 0
      ∨ spec.uploadRate = .limited 0
      ∨ spec.downloadRate = .limited 0
      ∨ spec.combinedRate = .limited 0
      ∨ spec.maxSessions = .limited 0
      ∨ spec.maxFlows = .limited 0
      ∨ !spec.weeklyAccess.valid then
    .error .invalid
  else .ok ()

structure UserRecord where
  id : String
  spec : UserSpec
  revision : Nat
  durableChargedBytes : Nat
  uploadBytes : Nat
  downloadBytes : Nat
  maxObservedUtc : Nat
  deriving DecidableEq, Repr

structure CredentialRecord where
  digest : String
  userId : String
  revoked : Bool
  revision : Nat
  deriving DecidableEq, Repr

inductive StoredExpiration
  | unlimited
  | atUtc (unixSeconds : Nat)
  deriving DecidableEq, Repr

inductive StoredByteLimit
  | unlimited
  | limited (bytes : Nat)
  deriving DecidableEq, Repr

inductive StoredRateLimit
  | unlimited
  | limited (bytesPerSecond : Nat)
  deriving DecidableEq, Repr

inductive StoredCountLimit
  | unlimited
  | limited (count : Nat)
  deriving DecidableEq, Repr

structure StoredWeeklyWindow where
  weekday : Nat
  startSecond : Nat
  endSecond : Nat
  deriving DecidableEq, Repr

inductive StoredWeeklyAccess
  | unlimited
  | windows (entries : List StoredWeeklyWindow)
  deriving DecidableEq, Repr

/-- The flat record that is serialized into the store. -/
structure StoredUserRecord where
  id : String
  status : UserStatus
  expiration : StoredExpiration
  quota : StoredByteLimit
  uploadRate : StoredRateLimit
  downloadRate : StoredRateLimit
  combinedRate : StoredRateLimit
  burstBytes : Nat
  maxSessions : StoredCountLimit
  maxFlows : StoredCountLimit
  weeklyAccess : StoredWeeklyAccess
  weight : Nat
  group : String
  ruleProfile : String
  revision : Nat
  durableChargedBytes : Nat
  uploadBytes : Nat
  downloadBytes : Nat
  maxObservedUtc : Nat
  deriving DecidableEq, Repr

def storedExpiration : Expiration → StoredExpiration
  | .unlimited => .unlimited
  | .atUtc unixSeconds => .atUtc unixSeconds

def runtimeExpiration : StoredExpiration → Expiration
  | .unlimited => .unlimited
  | .atUtc unixSeconds => .atUtc unixSeconds

def storedQuota : ByteLimit → StoredByteLimit
  | .unlimited => .unlimited
  | .limited bytes => .limited bytes

def runtimeQuota : StoredByteLimit → ByteLimit
  | .unlimited => .unlimited
  | .limited bytes => .limited bytes

def storedRate : RateLimit → StoredRateLimit
  | .unlimited => .unlimited
  | .limited bytesPerSecond => .limited bytesPerSecond

def runtimeRate : StoredRateLimit → RateLimit
  | .unlimited => .unlimited
  | .limited bytesPerSecond => .limited bytesPerSecond

def storedCount : CountLimit → StoredCountLimit
  | .unlimited => .unlimited
  | .limited count => .limited count

def runtimeCount : StoredCountLimit → CountLimit
  | .unlimited => .unlimited
  | .limited count => .limited count

def storedWeekly : WeeklyAccess → StoredWeeklyAccess
  | .unlimited => .unlimited
  | .windows entries => .windows (entries.map fun window =>
      { weekday := window.weekday.toU8
        startSecond := window.startSecond
        endSecond := window.endSecond })

def runtimeWindow (window : StoredWeeklyWindow) : Except AdminError WeeklyWindow := do
  let weekday ← Weekday.fromU8 window.weekday
  return { weekday, startSecond := window.startSecond, endSecond := window.endSecond }

/-- Weekly windows are validated again when they are read back. -/
def runtimeWeekly : StoredWeeklyAccess → Except AdminError WeeklyAccess
  | .unlimited => .ok .unlimited
  | .windows entries => do
    let entries ← entries.mapM runtimeWindow
    let access := WeeklyAccess.windows entries
    if access.valid then return access else throw .encode

/-- The stored form of a user record. -/
def encodeUserRecord (user : UserRecord) : StoredUserRecord where
  id := user.id
  status := user.spec.status
  expiration := storedExpiration user.spec.expiration
  quota := storedQuota user.spec.quota
  uploadRate := storedRate user.spec.uploadRate
  downloadRate := storedRate user.spec.downloadRate
  combinedRate := storedRate user.spec.combinedRate
  burstBytes := user.spec.burstBytes
  maxSessions := storedCount user.spec.maxSessions
  maxFlows := storedCount user.spec.maxFlows
  weeklyAccess := storedWeekly user.spec.weeklyAccess
  weight := user.spec.weight
  group := user.spec.group
  ruleProfile := user.spec.ruleProfile
  revision := user.revision
  durableChargedBytes := user.durableChargedBytes
  uploadBytes := user.uploadBytes
  downloadBytes := user.downloadBytes
  maxObservedUtc := user.maxObservedUtc

/-- The user record a stored form stands for. -/
def decodeUserRecord (stored : StoredUserRecord) : Except AdminError UserRecord := do
  let weeklyAccess ← runtimeWeekly stored.weeklyAccess
  pure
    { id := stored.id
      spec :=
        { status := stored.status
          expiration := runtimeExpiration stored.expiration
          quota := runtimeQuota stored.quota
          uploadRate := runtimeRate stored.uploadRate
          downloadRate := runtimeRate stored.downloadRate
          combinedRate := runtimeRate stored.combinedRate
          burstBytes := stored.burstBytes
          maxSessions := runtimeCount stored.maxSessions
          maxFlows := runtimeCount stored.maxFlows
          weeklyAccess
          weight := stored.weight
          group := stored.group
          ruleProfile := stored.ruleProfile }
      revision := stored.revision
      durableChargedBytes := stored.durableChargedBytes
      uploadBytes := stored.uploadBytes
      downloadBytes := stored.downloadBytes
      maxObservedUtc := stored.maxObservedUtc }

@[simp] theorem runtimeExpiration_stored (value : Expiration) :
    runtimeExpiration (storedExpiration value) = value := by
  cases value <;> rfl

@[simp] theorem runtimeQuota_stored (value : ByteLimit) :
    runtimeQuota (storedQuota value) = value := by
  cases value <;> rfl

@[simp] theorem runtimeRate_stored (value : RateLimit) :
    runtimeRate (storedRate value) = value := by
  cases value <;> rfl

@[simp] theorem runtimeCount_stored (value : CountLimit) :
    runtimeCount (storedCount value) = value := by
  cases value <;> rfl

/-- Stored windows read back as the windows they were written from. -/
theorem mapM_runtimeWindow_stored (entries : List WeeklyWindow) :
    (entries.map fun window =>
      ({ weekday := window.weekday.toU8
         startSecond := window.startSecond
         endSecond := window.endSecond } : StoredWeeklyWindow)).mapM runtimeWindow =
      .ok entries := by
  -- One window at a time, the stored weekday is read back and the seconds are copied.
  induction entries with
  | nil => rfl
  | cons window rest ih =>
    simp only [List.map_cons, List.mapM_cons, ih, runtimeWindow, Weekday.fromU8_toU8,
      Bind.bind, Except.bind, Pure.pure, Except.pure]

/-- A stored schedule reads back as itself, unless the windows fail their own validation. -/
theorem runtimeWeekly_stored {access read : WeeklyAccess}
    (decoded : runtimeWeekly (storedWeekly access) = .ok read) : read = access := by
  cases access with
  | unlimited => simpa [runtimeWeekly, storedWeekly] using decoded.symm
  | windows =>
    simp only [runtimeWeekly, storedWeekly, mapM_runtimeWindow_stored, Bind.bind, Except.bind,
      Pure.pure, Except.pure] at decoded
    split at decoded
    · simpa using decoded.symm
    · simp [throw, throwThe, MonadExceptOf.throw] at decoded

theorem decodeUserRecord_encode {user read : UserRecord}
    (decoded : decodeUserRecord (encodeUserRecord user) = .ok read) : read = user := by
  unfold decodeUserRecord at decoded
  cases weekly : runtimeWeekly (encodeUserRecord user).weeklyAccess with
  | error => simp [weekly, Bind.bind, Except.bind] at decoded
  | ok access =>
    have same : access = user.spec.weeklyAccess := runtimeWeekly_stored weekly
    simp only [weekly, Bind.bind, Except.bind, Pure.pure, Except.pure, Except.ok.injEq] at decoded
    rw [← decoded, same]
    simp [encodeUserRecord]

theorem storedWeekly_injective {a b : WeeklyAccess} (same : storedWeekly a = storedWeekly b) :
    a = b := by
  -- Both window lists are what reading the common stored form gives.
  cases a with
  | unlimited => cases b <;> simp_all [storedWeekly]
  | windows first =>
    cases b with
    | unlimited => simp [storedWeekly] at same
    | windows second =>
      simp only [storedWeekly, StoredWeeklyAccess.windows.injEq] at same
      have readFirst := mapM_runtimeWindow_stored first
      rw [same, mapM_runtimeWindow_stored second] at readFirst
      simpa using readFirst.symm

theorem encodeUserRecord_injective {a b : UserRecord}
    (same : encodeUserRecord a = encodeUserRecord b) : a = b := by
  obtain ⟨id, spec, revision, durable, upload, download, observed⟩ := a
  obtain ⟨id', spec', revision', durable', upload', download', observed'⟩ := b
  obtain ⟨⟩ := spec
  obtain ⟨⟩ := spec'
  simp only [encodeUserRecord, StoredUserRecord.mk.injEq] at same
  obtain ⟨rfl, rfl, expiration, quota, up, down, combined, rfl, sessions, flows, weekly, rfl, rfl,
    rfl, rfl, rfl, rfl, rfl, rfl⟩ := same
  -- Every remaining field is stored through a function that its reader inverts.
  replace expiration := congrArg runtimeExpiration expiration
  replace quota := congrArg runtimeQuota quota
  replace up := congrArg runtimeRate up
  replace down := congrArg runtimeRate down
  replace combined := congrArg runtimeRate combined
  replace sessions := congrArg runtimeCount sessions
  replace flows := congrArg runtimeCount flows
  replace weekly := storedWeekly_injective weekly
  simp_all

end Snolc.Policy
