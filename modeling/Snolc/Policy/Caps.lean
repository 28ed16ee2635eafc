import Snolc.Policy.Flow

/-! The caps of one poll of a stream, and what the three writes of a poll may add up to. -/

namespace Snolc.Policy

open PolicyFlow

/-- The first bytes of a stream when a poll comes to forward them, if the rules allow it. -/
def PolicyFlow.collected (flow : PolicyFlow) (input : StreamInput) : Option TcpSniff :=
  match flow.sniff with
  | none => none
  | some sniff =>
    if sniff.allowed then some sniff
    else
      match sniff.collect input.lastInstant input.reads with
      | (sniff, .ready (.ok ())) => some sniff
      | _ => none

/-- How many held back bytes are left when a poll comes to forward them. -/
def PolicyFlow.heldRest (flow : PolicyFlow) (input : StreamInput) : Nat :=
  match flow.collected input with
  | none => 0
  | some sniff => sniff.prefixBytes.length - flow.prefixOffset

/-- The poll forwards the rest of the held back bytes, and there is such a rest. -/
def PolicyFlow.Finishes (flow : PolicyFlow) (input : StreamInput) (maxWrite : Nat) : Prop :=
  0 < flow.heldRest input ∧ flow.heldRest input ≤ maxWrite ∧
    ∃ count, input.prefixWrite = .taken count ∧ flow.heldRest input ≤ count

/-- What the reports of a poll must keep to. -/
structure WithinCaps (maxStackToMux maxMuxToStack maxTotal : Nat)
    (reports : PumpReport × PumpReport) : Prop where
  upload : reports.1.written ≤ maxStackToMux
  download : reports.2.written ≤ maxMuxToStack
  total : reports.1.written + reports.2.written ≤ maxTotal

variable {held up down : PumpReport}

section Held

variable {flow : PolicyFlow} {input : StreamInput} {maxWrite : Nat}

theorem pollSniff_collected {sniff : TcpSniff} (collected : flow.collected input = some sniff) :
    flow.pollSniff input maxWrite =
      PolicyFlow.writePrefix { flow with sniff := some sniff } sniff input.prefixWrite
        maxWrite := by
  cases waiting : flow.sniff with
  | none => simp [PolicyFlow.collected, waiting] at collected
  | some first =>
    simp only [PolicyFlow.collected, waiting] at collected
    simp only [PolicyFlow.pollSniff, waiting]
    by_cases allowed : first.allowed = true
    · rw [if_pos allowed, Option.some.injEq] at collected
      rw [if_pos allowed, collected]
    · rw [if_neg allowed] at collected
      rw [if_neg allowed]
      split at collected
      · next decided =>
        rw [Option.some.injEq] at collected
        rw [decided, collected]
      · cases collected

theorem pollSniff_uncollected {next : PolicyFlow} (uncollected : flow.collected input = none)
    (polled : flow.pollSniff input maxWrite = (next, .ready (.ok held))) :
    next = flow ∧ flow.sniff = none ∧ held = {} := by
  cases waiting : flow.sniff with
  | none =>
    simp only [pollSniff, waiting] at polled
    cases polled
    exact ⟨rfl, rfl, rfl⟩
  | some first =>
    simp only [collected, waiting] at uncollected
    simp only [pollSniff, waiting] at polled
    by_cases allowed : first.allowed = true
    · rw [if_pos allowed] at uncollected
      cases uncollected
    · rw [if_neg allowed] at uncollected polled
      split at uncollected
      · cases uncollected
      next refused =>
      -- The classifier has not allowed the stream, so the poll did not report.
      split at polled
      · cases polled
      · cases polled
      · next gate =>
        exact (refused _ (Prod.ext rfl gate)).elim

/-- What a poll reports of the held back bytes, and whether it has forwarded the last of them. -/
theorem pollSniff_report {next : PolicyFlow}
    (polled : flow.pollSniff input maxWrite = (next, .ready (.ok held))) :
    next.sniff ≠ none ∧ held.written ≤ maxWrite ∨
      next.sniff = none ∧ held.written = flow.heldRest input ∧
        (0 < flow.heldRest input → flow.Finishes input maxWrite) := by
  cases collected : flow.collected input with
  | none =>
    have rest : flow.heldRest input = 0 := by rw [heldRest, collected]
    obtain ⟨rfl, plain, rfl⟩ := pollSniff_uncollected collected polled
    exact .inr ⟨plain, rest.symm, by omega⟩
  | some sniff =>
    have rest : flow.heldRest input = sniff.prefixBytes.length - flow.prefixOffset := by
      rw [heldRest, collected]
    rw [pollSniff_collected collected, writePrefix] at polled
    dsimp only at polled
    split at polled
    · next left =>
      split at polled
      · cases polled
      next room =>
      split at polled
      · next count taken =>
        split at polled
        · cases polled
        next some =>
        split at polled
        · next finished =>
          -- The write has reached the end, so it took all that was left.
          cases polled
          have written : min count (min sniff.prefixBytes.length
              (flow.prefixOffset + maxWrite) - flow.prefixOffset) = flow.heldRest input := by
            omega
          exact .inr ⟨rfl, written, fun _ => ⟨by omega, by omega, count, taken, by omega⟩⟩
        · cases polled
          exact .inl ⟨by simp, by dsimp only; omega⟩
      · cases polled
      · cases polled
    · cases polled
      exact .inr ⟨rfl, by dsimp only; omega, by omega⟩

theorem pollSniff_finishes (finishes : flow.Finishes input maxWrite) :
    flow.pollSniff input maxWrite =
      ({ flow with sniff := none, prefixOffset := 0 },
        .ready (.ok { written := flow.heldRest input })) := by
  obtain ⟨some, room, count, taken, enough⟩ := finishes
  cases collected : flow.collected input with
  | none =>
    simp [heldRest, collected] at some
  | some sniff =>
    have rest : flow.heldRest input = sniff.prefixBytes.length - flow.prefixOffset := by
      rw [heldRest, collected]
    rw [rest] at some room enough ⊢
    have whole : min count
        (min sniff.prefixBytes.length (flow.prefixOffset + maxWrite) - flow.prefixOffset) =
          sniff.prefixBytes.length - flow.prefixOffset := by omega
    rw [pollSniff_collected collected, writePrefix]
    dsimp only
    rw [if_pos (by omega), if_neg (by omega), taken]
    dsimp only
    rw [whole, if_neg (by omega), if_pos (by omega)]

end Held

section Caps

variable {flow : PolicyFlow} {input : StreamInput} {maxStackToMux maxMuxToStack maxTotal : Nat}

theorem pump_written {outcome : Pumped PumpReport} {allowed : Nat} {report : PumpReport}
    (pumped : pump outcome allowed = .ready (.ok report)) : report.written ≤ allowed := by
  unfold pump at pumped
  split at pumped
  · cases pumped
    exact Nat.min_le_right _ _
  · cases pumped
  · cases pumped

/-- The reports of the two pumps: each keeps to what was left for it. -/
theorem pollPumps_reports
    (reported : (flow.pollPumps input held maxStackToMux maxMuxToStack maxTotal).result =
      .ready (.ok (up, down))) : up.written ≤ min maxStackToMux maxTotal ∧
      down.written ≤ min maxMuxToStack (maxTotal - up.written - held.written) + held.written := by
  have bounds : ∀ (upload moved : PumpReport) (silent : Prop) [Decidable silent],
      upload.written ≤ min maxStackToMux maxTotal →
      moved.written ≤ min maxMuxToStack (maxTotal - upload.written - held.written) →
      (if silent then Poll.pending
        else .ready (.ok (upload,
          { moved with
            read := saturatingAdd moved.read held.read
            written := saturatingAdd moved.written held.written }))) =
        (.ready (.ok (up, down)) : Poll (Except FlowError (PumpReport × PumpReport))) →
      up.written ≤ min maxStackToMux maxTotal ∧
        down.written ≤ min maxMuxToStack (maxTotal - up.written - held.written) +
          held.written := by
    intro upload moved silent _ small less reported
    split at reported
    · cases reported
    · cases reported
      exact ⟨small, Nat.le_trans (Nat.min_le_left _ _) (Nat.add_le_add_right less _)⟩
  -- A pump that is pending counts as one that wrote nothing.
  have nothing : ∀ allowed, ({} : PumpReport).written ≤ allowed := fun allowed => Nat.zero_le _
  cases uploaded : pump input.upload (min maxStackToMux maxTotal) with
  | pending =>
    simp only [pollPumps, uploaded] at reported
    split at reported
    · cases reported
    next refused =>
    dsimp only at reported
    split at reported
    · next pumped => exact bounds _ _ _ (nothing _) (pump_written pumped) reported
    · exact bounds _ _ _ (nothing _) (nothing _) reported
  | ready result =>
    cases result with
    | error =>
      simp only [pollPumps, uploaded] at reported
      cases reported
    | ok =>
      simp only [pollPumps, uploaded] at reported
      split at reported
      · cases reported
      next refused =>
      dsimp only at reported
      split at reported
      · next pumped => exact bounds _ _ _ (pump_written uploaded) (pump_written pumped) reported
      · exact bounds _ _ _ (pump_written uploaded) (nothing _) reported

theorem poll_withinCaps (room : flow.Finishes input (min maxMuxToStack maxTotal) →
      maxTotal ≤ maxMuxToStack ∧ maxStackToMux + flow.heldRest input ≤ maxTotal)
    (reported : (flow.poll input maxStackToMux maxMuxToStack maxTotal).result =
      .ready (.ok (up, down))) : WithinCaps maxStackToMux maxMuxToStack maxTotal (up, down) := by
  unfold poll at reported
  split at reported
  · cases reported
  · cases reported
  next next held polled =>
  rcases pollSniff_report polled with ⟨more, bounded⟩ | ⟨plain, written, last⟩
  · -- Bytes are still held back, and only they were written.
    rw [if_pos (Option.isSome_iff_ne_none.mpr more)] at reported
    cases reported
    exact ⟨Nat.zero_le _, by dsimp only; omega, by dsimp only; omega⟩
  · rw [if_neg (by simp [plain])] at reported
    obtain ⟨upload, download⟩ := pollPumps_reports reported
    by_cases none : flow.heldRest input = 0
    · exact ⟨by dsimp only; omega, by dsimp only; omega, by dsimp only; omega⟩
    · obtain ⟨narrow, fits⟩ := room (last (by omega))
      exact ⟨by dsimp only; omega, by dsimp only; omega, by dsimp only; omega⟩

theorem poll_finishes (finishes : flow.Finishes input (min maxMuxToStack maxTotal))
    (upload download : PumpReport) (visible : upload.finished = true) :
    (flow.poll { input with upload := .report upload, download := .report download }
        maxStackToMux maxMuxToStack maxTotal).result =
      .ready (.ok ({ upload with written := min upload.written (min maxStackToMux maxTotal) },
        { download with
          read := saturatingAdd download.read 0
          written := saturatingAdd (min download.written (min maxMuxToStack
            (maxTotal - min upload.written (min maxStackToMux maxTotal) - flow.heldRest input)))
              (flow.heldRest input) })) := by
  have polled : flow.pollSniff
      { input with upload := .report upload, download := .report download }
        (min maxMuxToStack maxTotal) = ({ flow with sniff := none, prefixOffset := 0 },
        .ready (.ok { written := flow.heldRest input })) := pollSniff_finishes finishes
  simp [poll, polled, pollPumps, pump, visible]

end Caps

/--
The reports of a poll keep to its caps, whatever the pumps do, exactly when a poll that forwards the
last held back bytes has room for them beside what it allows the pumps.
-/
theorem pollReports_withinCaps {flow : PolicyFlow} {input : StreamInput}
    {maxStackToMux maxMuxToStack maxTotal : Nat} (word : maxTotal ≤ u64Max) :
    (∀ upload download up down,
        (flow.poll { input with upload, download } maxStackToMux maxMuxToStack maxTotal).result =
          .ready (.ok (up, down)) →
        WithinCaps maxStackToMux maxMuxToStack maxTotal (up, down)) ↔
      (flow.Finishes input (min maxMuxToStack maxTotal) →
        maxTotal ≤ maxMuxToStack ∧ maxStackToMux + flow.heldRest input ≤ maxTotal) := by
  constructor
  · intro kept finishes
    have some := finishes.1
    have small := finishes.2.1
    constructor
    · -- Only the download pump writes, as much as it may.
      have caps := kept _ _ _ _ (poll_finishes finishes { finished := true }
        { written := maxMuxToStack } rfl)
      have download := caps.download
      simp only [saturatingAdd, Nat.zero_min, Nat.sub_zero] at download
      omega
    · -- The upload pump writes as much as it may.
      have caps := kept _ _ _ _ (poll_finishes finishes
        { written := maxStackToMux, finished := true } {} rfl)
      have total := caps.total
      simp only [saturatingAdd, Nat.zero_min, Nat.zero_add] at total
      omega
  · intro room upload download up down reported
    have room : flow.Finishes { input with upload, download } (min maxMuxToStack maxTotal) →
        maxTotal ≤ maxMuxToStack ∧
          maxStackToMux + flow.heldRest { input with upload, download } ≤ maxTotal := room
    exact poll_withinCaps room reported

/-- A stream with four allowed bytes that wait to be forwarded. -/
def heldStream : PolicyFlow where
  session := 1
  userId := none
  credentialDigest := none
  sniff := some
    { policy :=
        { entries := [], terminal := .allow, unknown := .allow, maxBytes := 4096, timeout := 0 }
      prefixBytes := [83, 83, 72, 45]
      deadline := 0
      allowed := true }
  prefixOffset := 0

def takesFour : StreamInput where
  reads := []
  lastInstant := 0
  prefixWrite := .taken 4
  upload := .pending
  download := .pending

/-- Four held back bytes and four bytes of upload share a cap of eight. -/
theorem pollReports_withinCaps_shared :
    8 ≤ u64Max ∧ ∀ upload download up down,
      (heldStream.poll { takesFour with upload, download } 4 8 8).result =
        .ready (.ok (up, down)) → WithinCaps 4 8 8 (up, down) :=
  ⟨by decide, (pollReports_withinCaps (by decide)).mpr fun _ => by decide⟩

/-- Four held back bytes and four bytes of upload pass a cap of four. -/
theorem pollReports_exceedCaps :
    (heldStream.poll { takesFour with upload := .report { written := 4 } } 4 4 4).result =
        .ready (.ok ({ written := 4 }, { written := 4 })) ∧
      ¬ WithinCaps 4 4 4 ({ written := 4 }, { written := 4 }) :=
  ⟨by decide, fun caps => absurd caps.total (by decide)⟩

end Snolc.Policy
