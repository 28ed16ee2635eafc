import Mathlib.Logic.Function.Basic
import Snolc.Lib.Run
import Snolc.Noise.Reader

/-! The two ends of a protected stream: one reads what the other has written, in order. -/

namespace Snolc.Noise

open List

variable {handed wire : Bytes} {opened flight : List Record}

inductive Side
  | client
  | server
  deriving DecidableEq, Repr

def Side.other : Side → Side
  | client => server
  | server => client

variable (side : Side)

@[simp] theorem Side.other_other : side.other.other = side := by
  cases side <;> rfl

@[simp] theorem Side.other_ne : side.other ≠ side := by
  cases side <;> simp [other]

/-- A call at one end, and what the lower stream answers while it runs. -/
inductive Call
  | write (input : Bytes) (answers : List IoResult)
  | flush (answers : List IoResult) (last : IoResult)
  | shutdownWrite (answers : List IoResult) (last : IoResult)
  | read (capacity : Nat) (answers : List IoResult)
  deriving DecidableEq, Repr

/-- What a call leaves behind. -/
inductive Obs
  /-- Plaintext that a write has accepted. -/
  | accepted (side : Side) (data : Bytes)
  /-- Bytes that the lower stream has taken. -/
  | handed (side : Side) (data : Bytes)
  /-- Plaintext that a read has delivered. -/
  | delivered (side : Side) (data : Bytes)
  /-- A flush that has reported completion. -/
  | flushed (side : Side)
  deriving DecidableEq, Repr

/-- Both ends, and for each end the bytes its lower stream has taken but not yet handed out. -/
structure World (σ ρ : Type) where
  ends : Side → Wrapped σ ρ
  wire : Side → Bytes

namespace World

variable {σ ρ : Type}

/-- An end has handed bytes to its lower stream. -/
def sent (world : World σ ρ) (side : Side) (state : Wrapped σ ρ) (out : Bytes) : World σ ρ where
  ends := Function.update world.ends side state
  wire := Function.update world.wire side (world.wire side ++ out)

/-- An end has read from its lower stream. -/
def received (world : World σ ρ) (side : Side) (state : Wrapped σ ρ) (left : Bytes) :
    World σ ρ where
  ends := Function.update world.ends side state
  wire := Function.update world.wire side.other left

end World

/-- The part of the input that a write has accepted. -/
def IoResult.accepted (input : Bytes) : IoResult → Bytes
  | progress count => input.take count
  | _ => []

/-- One call at one end. -/
def step {σ ρ : Type} (snow : Snow σ ρ) (world : World σ ρ) : Side × Call → World σ ρ × List Obs
  | (side, .write input answers) =>
    let state := world.ends side
    let (result, next) := state.write snow input answers
    (world.sent side next (state.handed answers),
      [.handed side (state.handed answers), .accepted side (result.accepted input)])
  | (side, .flush answers last) =>
    let state := world.ends side
    let (result, next) := state.flush answers last
    let report := match result with
      | .progress _ => [.flushed side]
      | _ => []
    (world.sent side next (state.handed answers), .handed side (state.handed answers) :: report)
  | (side, .shutdownWrite answers last) =>
    let state := world.ends side
    let (_, next) := state.shutdownWrite answers last
    (world.sent side next (state.handed answers), [.handed side (state.handed answers)])
  | (side, .read capacity answers) =>
    let ((_, output), next, left) :=
      (world.ends side).read snow capacity answers (world.wire side.other)
    (world.received side next left, [.delivered side output])

/-- Calls at both ends in any order. -/
def channel {σ ρ : Type} (snow : Snow σ ρ) : System (World σ ρ) (Side × Call) Obs where
  step := step snow

namespace Obs

/-- The plaintext an end has accepted. -/
def acceptedBy (history : List Obs) : Bytes :=
  history.flatMap fun
    | .accepted who data => if who = side then data else []
    | _ => []

/-- The bytes the lower stream of an end has taken. -/
def handedBy (history : List Obs) : Bytes :=
  history.flatMap fun
    | .handed who data => if who = side then data else []
    | _ => []

/-- The plaintext an end has delivered. -/
def deliveredBy (history : List Obs) : Bytes :=
  history.flatMap fun
    | .delivered who data => if who = side then data else []
    | _ => []

end Obs

/-- A part of the plaintext and what it was encrypted to. -/
structure Record where
  ciphertext : Bytes
  plaintext : Bytes

/-- A record as the lower stream carries it. -/
def Record.bytes (record : Record) : Bytes :=
  toBeU16 record.ciphertext.length ++ record.ciphertext

/-- Records are not empty, and their ciphertext is longer by the tag. -/
structure Record.Fits (record : Record) : Prop where
  nonempty : record.plaintext ≠ []
  within : record.plaintext.length ≤ maxPlaintext
  length : record.ciphertext.length = record.plaintext.length + 16

namespace Snow

variable {σ ρ : Type} (snow : Snow σ ρ)

/-- The state that has decrypted records one after the other, each to its plaintext. -/
def opens : ρ → List Record → Option ρ
  | state, [] => some state
  | state, record :: records =>
    match snow.readMessage state record.ciphertext with
    | none => none
    | some (plaintext, next) => if plaintext = record.plaintext then opens next records else none

/--
The library decrypts in order what it has encrypted, which it makes longer by sixteen bytes.

A receiving state matches a sending state if it is the next to decrypt what that one encrypts.
-/
structure Faithful (matched : σ → ρ → Prop) : Prop where
  length : ∀ sending plaintext ciphertext next,
    snow.writeMessage sending plaintext = some (ciphertext, next) →
      ciphertext.length = plaintext.length + 16
  inverse : ∀ sending receiving plaintext ciphertext next, matched sending receiving →
    snow.writeMessage sending plaintext = some (ciphertext, next) →
      ∃ after, snow.readMessage receiving ciphertext = some (plaintext, after) ∧
        matched next after

variable {snow}

theorem opens_append {state middle : ρ} {first : List Record}
    (opened : snow.opens state first = some middle) (second : List Record) :
    snow.opens state (first ++ second) = snow.opens middle second := by
  induction first generalizing state with
  | nil =>
    cases opened
    rfl
  | cons record records ih =>
    simp only [opens, cons_append] at opened ⊢
    cases read : snow.readMessage state record.ciphertext with
    | none => simp [read] at opened
    | some =>
      simp only [read] at opened ⊢
      split at opened
      next same => rw [if_pos same, ih opened]
      · simp at opened

end Snow

theorem Record.Fits.framed {record : Record} (fits : record.Fits) :
    frame record.ciphertext maxCiphertext = .ok record.bytes := by
  have within := fits.within
  have length := fits.length
  have some : record.ciphertext.isEmpty = false := by
    rw [isEmpty_eq_false_iff, ← length_pos_iff]
    omega
  have small : ¬ (record.ciphertext.isEmpty ∨ record.ciphertext.length > maxCiphertext ∨
      record.ciphertext.length > 65535) := by
    simp only [some, Bool.false_eq_true, false_or, maxCiphertext, maxPlaintext] at within ⊢
    omega
  rw [frame, if_neg small, bytes]

section Carries

variable {σ ρ : Type} (snow : Snow σ ρ) (matched : σ → ρ → Prop) (start : ρ)

/--
How the plaintext of one direction is spread over both ends and the lower stream.

The records opened by the receiver come before those in flight; the bytes of all records are those
the lower stream has taken and those the sender still holds.
-/
structure Carries (accepted delivered handed : Bytes) (sender receiver : Wrapped σ ρ)
    (wire : Bytes) (opened flight : List Record) : Prop where
  fits : ∀ record ∈ opened ++ flight, record.Fits
  sealed : (opened ++ flight).flatMap Record.plaintext = accepted
  outputs : delivered ++ receiver.plaintext.drop receiver.plaintextOffset =
    opened.flatMap Record.plaintext
  frames : handed ++ sender.outbound.drop sender.outboundOffset =
    (opened ++ flight).flatMap Record.bytes
  line : opened.flatMap Record.bytes ++ (receiver.inbound.data ++ wire) = handed
  reading : receiver.inbound = .reading receiver.inbound.data
  incomplete : (messageFraming maxCiphertext).front receiver.inbound.data = .ok none
  decrypted : snow.opens start opened = some receiver.receiving
  inFlight : ∃ last, snow.opens receiver.receiving flight = some last ∧ matched sender.sending last

variable {snow matched start} {accepted delivered handed wire : Bytes}
  {sender receiver next : Wrapped σ ρ} {opened flight : List Record}

variable (carries : Carries snow matched start accepted delivered handed sender receiver wire opened
  flight)

include carries

theorem Carries.hand {out : Bytes}
    (cut : out ++ next.outbound.drop next.outboundOffset =
      sender.outbound.drop sender.outboundOffset)
    (sending : next.sending = sender.sending) :
    Carries snow matched start accepted delivered (handed ++ out) next receiver (wire ++ out)
      opened flight :=
  { carries with
    frames := by rw [append_assoc, cut, carries.frames]
    line := by
      rw [← append_assoc, ← append_assoc, append_assoc _ _ wire, carries.line]
    inFlight := by rw [sending]; exact carries.inFlight }

theorem Carries.seal_ {record : Record}
    (faithful : snow.Faithful matched)
    (empty : sender.outbound.drop sender.outboundOffset = []) (fits : record.Fits)
    (written : snow.writeMessage sender.sending record.plaintext =
      some (record.ciphertext, next.sending))
    (outbound : next.outbound.drop next.outboundOffset = record.bytes) :
    Carries snow matched start (accepted ++ record.plaintext) delivered handed next receiver wire
      opened (flight ++ [record]) :=
  { carries with
    fits := by
      intro other member
      rw [← append_assoc, mem_append, mem_singleton] at member
      rcases member with earlier | rfl
      · exact carries.fits other earlier
      · exact fits
    sealed := by rw [← append_assoc, flatMap_append, carries.sealed]; simp
    frames := by
      have whole := carries.frames
      rw [empty, append_nil] at whole
      rw [← append_assoc, flatMap_append, ← whole, outbound]
      simp
    inFlight := by
      obtain ⟨last, opens, matches_⟩ := carries.inFlight
      obtain ⟨after, read, next_⟩ := faithful.inverse _ _ _ _ _ matches_ written
      refine ⟨after, ?_, next_⟩
      rw [Snow.opens_append opens]
      simp [Snow.opens, read] }

theorem Carries.keep {left : Bytes}
    (reading : next.inbound = .reading next.inbound.data)
    (incomplete : (messageFraming maxCiphertext).front next.inbound.data = .ok none)
    (cut : next.inbound.data ++ left = receiver.inbound.data ++ wire)
    (receiving : next.receiving = receiver.receiving)
    (plaintext : next.plaintext.drop next.plaintextOffset =
      receiver.plaintext.drop receiver.plaintextOffset) :
    Carries snow matched start accepted delivered handed sender next left opened flight :=
  { carries with
    outputs := by rw [plaintext, carries.outputs]
    line := by rw [cut, carries.line]
    reading
    incomplete
    decrypted := by rw [receiving, carries.decrypted]
    inFlight := by rw [receiving]; exact carries.inFlight }

theorem Carries.deliver {output : Bytes}
    (cut : output ++ next.plaintext.drop next.plaintextOffset =
      receiver.plaintext.drop receiver.plaintextOffset)
    (inbound : next.inbound = receiver.inbound) (receiving : next.receiving = receiver.receiving) :
    Carries snow matched start accepted (delivered ++ output) handed sender next wire opened
      flight :=
  { carries with
    outputs := by rw [append_assoc, cut, carries.outputs]
    line := by rw [inbound, carries.line]
    reading := by rw [inbound]; exact carries.reading
    incomplete := by rw [inbound]; exact carries.incomplete
    decrypted := by rw [receiving, carries.decrypted]
    inFlight := by rw [receiving]; exact carries.inFlight }

theorem Carries.ahead :
    (receiver.inbound.data ++ wire) ++ sender.outbound.drop sender.outboundOffset =
      flight.flatMap Record.bytes := by
  have whole := carries.frames
  rw [← carries.line, flatMap_append, append_assoc] at whole
  exact append_cancel_left whole

theorem Carries.front_flight :
    (messageFraming maxCiphertext).front
        ((receiver.inbound.data ++ wire) ++ sender.outbound.drop sender.outboundOffset) =
      match flight with
      | [] => .ok none
      | record :: records => .ok (some (record.ciphertext, records.flatMap Record.bytes)) := by
  rw [carries.ahead]
  cases flight with
  | nil => rfl
  | cons record =>
    have fits := carries.fits record (by simp)
    rw [flatMap_cons]
    exact (framed_frame fits.framed).2.front_append _

theorem Carries.sound (fault : NoiseError) :
    (messageFraming maxCiphertext).front (receiver.inbound.data ++ wire) ≠ .error fault := by
  intro bad
  have front := carries.front_flight
  rw [Framing.front_append_error bad] at front
  cases flight <;> simp at front

/-- A frame that the receiver has read is the first record in flight, which it can open. -/
theorem Carries.open_ {message left : Bytes}
    (found : (messageFraming maxCiphertext).front (receiver.inbound.data ++ wire) =
      .ok (some (message, left))) :
    ∃ record records, flight = record :: records ∧ record.ciphertext = message ∧
      ∃ after, snow.readMessage receiver.receiving message = some (record.plaintext, after) ∧
        (receiver.plaintext.drop receiver.plaintextOffset = [] →
          ∀ next : Wrapped σ ρ, next.inbound = {} → next.receiving = after →
            next.plaintext.drop next.plaintextOffset = record.plaintext →
            Carries snow matched start accepted delivered handed sender next left
              (opened ++ [record]) records) := by
  have front := carries.front_flight
  rw [Framing.front_append found] at front
  cases flight with
  | nil => simp at front
  | cons record records =>
    simp only [Except.ok.injEq, Option.some.injEq, Prod.mk.injEq] at front
    obtain ⟨rfl, behind⟩ := front
    obtain ⟨last, opens, matches_⟩ := carries.inFlight
    have read : ∃ after, snow.readMessage receiver.receiving record.ciphertext =
        some (record.plaintext, after) ∧ snow.opens after records = some last := by
      simp only [Snow.opens] at opens
      split at opens
      · simp at opens
      next plaintext after read =>
      split at opens
      next same => exact ⟨after, by rw [read, same], opens⟩
      · simp at opens
    obtain ⟨after, read, opens⟩ := read
    refine ⟨record, records, rfl, rfl, after, read, ?_⟩
    intro exhausted next inbound receiving plaintext
    obtain ⟨frame, framed, cut⟩ := Framing.framed_of_front found
    have fits := carries.fits
    refine ⟨by simpa using fits, ?_, ?_, ?_, ?_, ?_, ?_, ?_, ?_⟩
    · simpa using carries.sealed
    · have outputs := carries.outputs
      rw [exhausted, append_nil] at outputs
      rw [plaintext, outputs]
      simp
    · simpa using carries.frames
    · -- What was read is exactly the record.
      have ahead := carries.ahead
      rw [flatMap_cons, ← behind, cut, append_assoc] at ahead
      have whole : frame = record.bytes := append_cancel_right ahead
      rw [← carries.line, cut, whole, inbound]
      simp
    · rw [inbound]
      rfl
    · rw [inbound]
      rfl
    · rw [Snow.opens_append carries.decrypted, receiving]
      simp [Snow.opens, read]
    · rw [receiving]
      exact ⟨last, opens, matches_⟩

end Carries

section Calls

variable {σ ρ : Type} {snow : Snow σ ρ} (state : Wrapped σ ρ)

theorem flushBytes_le (bytes : Bytes) (answers : List IoResult) (offset : Nat) :
    offset ≤ (flushBytes bytes answers offset).2 := by
  induction answers generalizing offset with
  | nil => simp [flushBytes]
  | cons answer answers ih =>
    simp only [flushBytes]
    split
    · cases answer with
      | progress =>
        simp only
        split
        · exact Nat.le_trans (Nat.le_add_right _ _) (ih _)
        · exact Nat.le_refl _
      | _ => exact Nat.le_refl _
    · exact Nat.le_refl _

theorem flushBytes_complete {bytes : Bytes} {answers : List IoResult} {offset : Nat}
    (complete : (flushBytes bytes answers offset).1 = .ok true) :
    bytes.length ≤ (flushBytes bytes answers offset).2 := by
  induction answers generalizing offset with
  | nil => simpa [flushBytes] using complete
  | cons answer answers ih =>
    simp only [flushBytes] at complete ⊢
    split at complete
    next more =>
      rw [if_pos more]
      cases answer with
      | progress =>
        simp only at complete ⊢
        split at complete
        next fits =>
          rw [if_pos fits]
          exact ih complete
        · simp at complete
      | _ => simp at complete
    next done =>
      rw [if_neg done]
      exact Nat.le_of_not_lt done

namespace Wrapped

/-- Two states that differ at most in what they send. -/
structure SameReceiving (first second : Wrapped σ ρ) : Prop where
  receiving : second.receiving = first.receiving
  inbound : second.inbound = first.inbound
  plaintext : second.plaintext = first.plaintext
  plaintextOffset : second.plaintextOffset = first.plaintextOffset

theorem SameReceiving.trans {first second third : Wrapped σ ρ}
    (one : first.SameReceiving second) (two : second.SameReceiving third) :
    first.SameReceiving third :=
  ⟨two.receiving.trans one.receiving, two.inbound.trans one.inbound,
    two.plaintext.trans one.plaintext, two.plaintextOffset.trans one.plaintextOffset⟩

/-- Two states that differ at most in what they receive. -/
structure SameSending (first second : Wrapped σ ρ) : Prop where
  sending : second.sending = first.sending
  outbound : second.outbound = first.outbound
  outboundOffset : second.outboundOffset = first.outboundOffset

/-- What a flush hands over and what it leaves is what was there. -/
structure HandsOver (first second : Wrapped σ ρ) (out : Bytes) : Prop where
  same : first.SameReceiving second
  sending : second.sending = first.sending
  cut : out ++ second.outbound.drop second.outboundOffset =
    first.outbound.drop first.outboundOffset

theorem flushWrapped_handsOver (answers : List IoResult) :
    state.HandsOver (state.flushWrapped answers).2 (state.handed answers) ∧
      ((state.flushWrapped answers).1 = .ok true →
        (state.flushWrapped answers).2.outbound.drop
          (state.flushWrapped answers).2.outboundOffset = []) := by
  have further := flushBytes_le state.outbound answers state.outboundOffset
  have cut : state.handed answers ++ state.outbound.drop
      (flushBytes state.outbound answers state.outboundOffset).2 =
        state.outbound.drop state.outboundOffset := by
    have whole := take_append_drop
      ((flushBytes state.outbound answers state.outboundOffset).2 - state.outboundOffset)
      (state.outbound.drop state.outboundOffset)
    rwa [drop_drop, Nat.add_sub_cancel' further] at whole
  unfold flushWrapped
  split
  next offset flushed =>
    have complete := flushBytes_complete (congrArg Prod.fst flushed)
    rw [flushed] at complete cut
    rw [drop_eq_nil_of_le complete] at cut
    exact ⟨⟨⟨rfl, rfl, rfl, rfl⟩, rfl, by simpa using cut⟩, fun _ => rfl⟩
  next result offset other flushed =>
    rw [flushed] at cut
    exact ⟨⟨⟨rfl, rfl, rfl, rfl⟩, rfl, cut⟩, fun complete => (other complete).elim⟩

theorem handed_of_isEmpty {state : Wrapped σ ρ} (empty : state.outbound.isEmpty = true)
    (answers : List IoResult) : state.handed answers = [] := by
  rw [handed, isEmpty_iff.mp empty, drop_nil, take_nil]

variable {matched : σ → ρ → Prop}

/-- Making a record: nothing changes, or the input is sealed. -/
theorem sealRecord_cases (faithful : snow.Faithful matched) (input : Bytes) :
    state.SameReceiving (state.sealRecord snow input).2 ∧
      ((state.sealRecord snow input).2 = state ∧
        (state.sealRecord snow input).1.accepted input = [] ∨
      ∃ record : Record, record.Fits ∧
        (state.sealRecord snow input).1.accepted input = record.plaintext ∧
        snow.writeMessage state.sending record.plaintext =
          some (record.ciphertext, (state.sealRecord snow input).2.sending) ∧
        (state.sealRecord snow input).2.outbound.drop
          (state.sealRecord snow input).2.outboundOffset = record.bytes) := by
  rw [sealRecord]
  by_cases empty : input.isEmpty = true
  · rw [if_pos empty]
    exact ⟨⟨rfl, rfl, rfl, rfl⟩, .inl ⟨rfl, rfl⟩⟩
  rw [if_neg empty]
  by_cases spent : state.sentRecords ≥ recordLimit
  · rw [if_pos spent]
    exact ⟨⟨rfl, rfl, rfl, rfl⟩, .inl ⟨rfl, rfl⟩⟩
  rw [if_neg spent]
  simp only
  cases written : snow.writeMessage state.sending (input.take (min input.length maxPlaintext)) with
  | none => exact ⟨⟨rfl, rfl, rfl, rfl⟩, .inl ⟨rfl, rfl⟩⟩
  | some pair =>
    obtain ⟨ciphertext, sending⟩ := pair
    have length := faithful.length _ _ _ _ written
    have positive : input.length ≠ 0 := by simpa [List.isEmpty_iff] using empty
    have count : (input.take (min input.length maxPlaintext)).length =
        min input.length maxPlaintext := by simp
    -- The tag makes the record longer by what the limits leave for it.
    have fits : Record.Fits ⟨ciphertext, input.take (min input.length maxPlaintext)⟩ := by
      refine ⟨?_, ?_, length⟩
      · rw [← length_pos_iff, count]
        simp only [maxPlaintext]
        omega
      · rw [count]
        exact Nat.min_le_right _ _
    have framed : frame ciphertext maxCiphertext = .ok (Record.bytes ⟨ciphertext, _⟩) := fits.framed
    simp only [framed]
    exact ⟨⟨rfl, rfl, rfl, rfl⟩, .inr ⟨_, fits, rfl, written, rfl⟩⟩

/-- What a write hands over, and the record it makes of the input it accepts. -/
theorem write_cases (faithful : snow.Faithful matched) (input : Bytes) (answers : List IoResult) :
    ∃ middle : Wrapped σ ρ, state.HandsOver middle (state.handed answers) ∧
      ((state.write snow input answers).2 = middle ∧
        (state.write snow input answers).1.accepted input = [] ∨
      ∃ record : Record, middle.outbound.drop middle.outboundOffset = [] ∧ record.Fits ∧
        middle.SameReceiving (state.write snow input answers).2 ∧
        (state.write snow input answers).1.accepted input = record.plaintext ∧
        snow.writeMessage middle.sending record.plaintext =
          some (record.ciphertext, (state.write snow input answers).2.sending) ∧
        (state.write snow input answers).2.outbound.drop
          (state.write snow input answers).2.outboundOffset = record.bytes) := by
  rw [write]
  by_cases empty : state.outbound.isEmpty = true
  · rw [if_pos empty, handed_of_isEmpty empty]
    refine ⟨state, ⟨⟨rfl, rfl, rfl, rfl⟩, rfl, rfl⟩, ?_⟩
    obtain ⟨same, unchanged | ⟨record, fits, rest⟩⟩ := sealRecord_cases state faithful input
    · exact .inl unchanged
    · exact .inr ⟨record, by simp [isEmpty_iff.mp empty], fits, same, rest⟩
  · rw [if_neg empty]
    obtain ⟨handed, complete⟩ := state.flushWrapped_handsOver answers
    refine ⟨(state.flushWrapped answers).2, handed, ?_⟩
    split
    next next flushed =>
      rw [flushed] at complete ⊢
      obtain ⟨same, unchanged | ⟨record, fits, rest⟩⟩ := sealRecord_cases next faithful input
      · exact .inl unchanged
      · exact .inr ⟨record, complete rfl, fits, same, rest⟩
    next next flushed =>
      rw [flushed]
      exact .inl ⟨rfl, rfl⟩
    next fault next flushed =>
      rw [flushed]
      exact .inl ⟨rfl, rfl⟩

theorem handOver_cases (answers : List IoResult) (last : IoResult) :
    state.HandsOver (state.handOver answers last).2 (state.handed answers) ∧
      (∀ count, (state.handOver answers last).1 = .progress count →
        (state.handOver answers last).2.outbound.drop
          (state.handOver answers last).2.outboundOffset = []) := by
  obtain ⟨handed, complete⟩ := state.flushWrapped_handsOver answers
  rw [handOver]
  split
  next next flushed =>
    rw [flushed] at handed
    exact ⟨handed, by simp⟩
  next fault next flushed =>
    rw [flushed] at handed
    exact ⟨handed, by simp⟩
  next next flushed =>
    rw [flushed] at handed complete
    exact ⟨handed, fun _ _ => complete rfl⟩

theorem copyPlaintext_cut (capacity : Nat) :
    (state.copyPlaintext capacity).1.2 ++ (state.copyPlaintext capacity).2.plaintext.drop
        (state.copyPlaintext capacity).2.plaintextOffset =
      state.plaintext.drop state.plaintextOffset := by
  rw [copyPlaintext]
  split
  · rfl
  simp only
  split
  next whole =>
    -- The record is used up.
    have length := @List.length_drop _ state.plaintextOffset state.plaintext
    have all : (state.plaintext.drop state.plaintextOffset).length ≤
        min (state.plaintext.drop state.plaintextOffset).length capacity := by omega
    rw [drop_nil, append_nil, take_of_length_le all]
  · rw [← drop_drop, take_append_drop]

theorem copyPlaintext_same (capacity : Nat) :
    state.SameSending (state.copyPlaintext capacity).2 ∧
      (state.copyPlaintext capacity).2.inbound = state.inbound ∧
      (state.copyPlaintext capacity).2.receiving = state.receiving := by
  rw [copyPlaintext]
  split
  · exact ⟨⟨rfl, rfl, rfl⟩, rfl, rfl⟩
  simp only
  split <;> exact ⟨⟨rfl, rfl, rfl⟩, rfl, rfl⟩

end Wrapped

section Ends

variable {matched : σ → ρ → Prop} {start : ρ} {accepted delivered : Bytes}
  {sender receiver next : Wrapped σ ρ}
  (carries : Carries snow matched start accepted delivered handed sender receiver wire opened
    flight)

include carries

theorem Carries.of_receiver (same : receiver.SameReceiving next) :
    Carries snow matched start accepted delivered handed sender next wire opened flight := by
  refine carries.keep ?_ ?_ ?_ same.receiving ?_
  · rw [same.inbound]
    exact carries.reading
  · rw [same.inbound]
    exact carries.incomplete
  · rw [same.inbound]
  · rw [same.plaintext, same.plaintextOffset]

theorem Carries.of_sender (same : sender.SameSending next) :
    Carries snow matched start accepted delivered handed next receiver wire opened flight := by
  have hand := @Carries.hand _ _ _ _ _ _ _ _ _ _ _ next _ _ carries []
    (by rw [same.outbound, same.outboundOffset, nil_append]) same.sending
  simpa using hand

/-- A read opens records in order and delivers what it takes off their plaintext. -/
theorem Carries.read (capacity : Nat) (answers : List IoResult) :
    receiver.SameSending (receiver.read snow capacity answers wire).2.1 ∧
      ∃ opened flight, Carries snow matched start accepted
        (delivered ++ (receiver.read snow capacity answers wire).1.2) handed sender
        (receiver.read snow capacity answers wire).2.1
        (receiver.read snow capacity answers wire).2.2
        opened flight := by
  rw [Wrapped.read]
  by_cases left : receiver.plaintextOffset < receiver.plaintext.length
  · -- Plaintext of the last record is left.
    rw [if_pos left]
    obtain ⟨sending, inbound, receiving⟩ := receiver.copyPlaintext_same capacity
    exact ⟨sending, opened, flight,
      carries.deliver (receiver.copyPlaintext_cut capacity) inbound receiving⟩
  rw [if_neg left]
  have exhausted : receiver.plaintext.drop receiver.plaintextOffset = [] :=
    drop_eq_nil_of_le (Nat.le_of_not_lt left)
  by_cases spent : receiver.receivedRecords ≥ recordLimit
  · rw [if_pos spent, append_nil]
    exact ⟨⟨rfl, rfl, rfl⟩, opened, flight, carries⟩
  rw [if_neg spent]
  have ended : ∀ kept rest, kept ++ rest = receiver.inbound.data ++ wire →
      (messageFraming maxCiphertext).front kept = .ok none →
      Carries snow matched start accepted (delivered ++ []) handed sender
        { receiver with inbound := .reading kept } rest opened flight := by
    intro kept rest cut incomplete
    rw [append_nil]
    exact carries.keep rfl incomplete cut rfl rfl
  have cases := @readFrame_outcome _ answers _ wire carries.incomplete
  rw [← carries.reading] at cases
  rcases cases with ⟨result, kept, rest, reads, unfinished, cut, incomplete⟩ |
    ⟨message, rest, reads, found⟩ | ⟨kept, rest, -, cut, bad⟩
  · rw [reads]
    rcases result with (_ | _ | _ | _ | _ | _) | (_ | message)
    all_goals first
      | exact absurd rfl (unfinished message)
      | exact ⟨⟨rfl, rfl, rfl⟩, opened, flight, ended kept rest cut incomplete⟩
  · -- The frame is the first record in flight, which is not empty.
    rw [reads]
    obtain ⟨record, records, rfl, rfl, after, decrypts, opens⟩ := carries.open_ found
    have fits := carries.fits record (by simp)
    have nonempty : ¬ record.plaintext.length = 0 := by
      simpa using fits.nonempty
    simp only [decrypts, if_neg nonempty]
    let next : Wrapped σ ρ :=
      { receiver with
        inbound := {}
        receiving := after
        receivedRecords := receiver.receivedRecords + 1
        plaintext := record.plaintext
        plaintextOffset := 0 }
    obtain ⟨sending, inbound, receiving⟩ := next.copyPlaintext_same capacity
    refine ⟨⟨sending.sending, sending.outbound, sending.outboundOffset⟩, opened ++ [record],
      records, ?_⟩
    exact (opens exhausted next rfl rfl rfl).deliver (next.copyPlaintext_cut capacity) inbound
      receiving
  · -- A refused length would be refused with the rest of the wire behind it.
    exact absurd (cut ▸ Framing.front_append_error bad rest) (carries.sound .length)

end Ends

end Calls

section Run

variable {σ ρ : Type} {snow : Snow σ ρ} {matched : σ → ρ → Prop}

theorem Side.eq_or_other (first second : Side) : first = second ∨ first = second.other := by
  cases first <;> cases second <;> simp [Side.other]

namespace Obs

@[simp] theorem acceptedBy_append (first second : List Obs) :
    acceptedBy side (first ++ second) = acceptedBy side first ++ acceptedBy side second :=
  flatMap_append

@[simp] theorem handedBy_append (first second : List Obs) :
    handedBy side (first ++ second) = handedBy side first ++ handedBy side second :=
  flatMap_append

@[simp] theorem deliveredBy_append (first second : List Obs) :
    deliveredBy side (first ++ second) = deliveredBy side first ++ deliveredBy side second :=
  flatMap_append

end Obs

/-- Both ends begin with nothing to send or to deliver, and each decrypts what the other sends. -/
structure World.Begins (matched : σ → ρ → Prop) (world : World σ ρ) : Prop where
  fresh : ∀ side, world.ends side =
    { sending := (world.ends side).sending, receiving := (world.ends side).receiving }
  silent : ∀ side, world.wire side = []
  matched : ∀ side : Side, matched (world.ends side).sending (world.ends side.other).receiving

/-- Both directions carry what was accepted. -/
def Piped (snow : Snow σ ρ) (matched : σ → ρ → Prop) (start : World σ ρ) (history : List Obs)
    (world : World σ ρ) : Prop :=
  ∀ side : Side, ∃ opened flight, Carries snow matched (start.ends side.other).receiving
    (Obs.acceptedBy side history) (Obs.deliveredBy side.other history) (Obs.handedBy side history)
    (world.ends side) (world.ends side.other) (world.wire side) opened flight

theorem piped_start {start : World σ ρ} (begins : start.Begins matched) :
    Piped snow matched start [] start := by
  intro side
  refine ⟨[], [], by simp, rfl, ?_, ?_, ?_, ?_, ?_, rfl, _, rfl, begins.matched side⟩
  · rw [begins.fresh side.other]
    rfl
  · rw [begins.fresh side]
    rfl
  · rw [begins.fresh side.other, begins.silent side]
    rfl
  · rw [begins.fresh side.other]
    rfl
  · rw [begins.fresh side.other]
    rfl

variable {start world : World σ ρ} {history : List Obs}

theorem Piped.sent (piped : Piped snow matched start history world) {side : Side}
    {next : Wrapped σ ρ} {out : Bytes} {obs : List Obs}
    (same : (world.ends side).SameReceiving next)
    (others : ∀ opened flight, Carries snow matched (start.ends side.other).receiving
      (Obs.acceptedBy side history) (Obs.deliveredBy side.other history)
      (Obs.handedBy side history) (world.ends side) (world.ends side.other) (world.wire side)
      opened flight →
      ∃ opened flight, Carries snow matched (start.ends side.other).receiving
        (Obs.acceptedBy side (history ++ obs)) (Obs.deliveredBy side.other history)
        (Obs.handedBy side (history ++ obs)) next (world.ends side.other)
        (world.wire side ++ out) opened flight)
    (silent : ∀ who, Obs.deliveredBy who obs = [])
    (quiet : Obs.acceptedBy side.other obs = [] ∧ Obs.handedBy side.other obs = []) :
    Piped snow matched start (history ++ obs) (world.sent side next out) := by
  intro who
  rcases Side.eq_or_other who side with rfl | rfl
  · obtain ⟨opened, flight, carries⟩ := piped who
    obtain ⟨opened, flight, carries⟩ := others opened flight carries
    refine ⟨opened, flight, ?_⟩
    simpa [World.sent, silent] using carries
  · obtain ⟨opened, flight, carries⟩ := piped side.other
    refine ⟨opened, flight, ?_⟩
    rw [Side.other_other] at carries
    have kept := carries.of_receiver same
    simpa [World.sent, silent, quiet, Ne.symm (Side.other_ne side)] using kept

theorem Piped.handOver (piped : Piped snow matched start history world) (side : Side)
    (answers : List IoResult) (last : IoResult) {report : List Obs}
    (reports : ∀ obs ∈ report, obs = .flushed side) :
    Piped snow matched start
      (history ++ .handed side ((world.ends side).handed answers) :: report)
      (world.sent side ((world.ends side).handOver answers last).2
        ((world.ends side).handed answers)) := by
  have nothing : ∀ who, Obs.acceptedBy who report = [] ∧ Obs.handedBy who report = [] ∧
      Obs.deliveredBy who report = [] := by
    intro who
    simp only [Obs.acceptedBy, Obs.handedBy, Obs.deliveredBy, flatMap_eq_nil_iff]
    refine ⟨?_, ?_, ?_⟩ <;>
    · intro obs member
      rw [reports obs member]
  obtain ⟨over_, -⟩ := (world.ends side).handOver_cases answers last
  refine piped.sent over_.same ?_ ?_ ?_
  · intro opened flight carries
    refine ⟨opened, flight, ?_⟩
    have hand := carries.hand over_.cut over_.sending
    rw [append_cons]
    simp only [Obs.acceptedBy_append, Obs.handedBy_append, (nothing side).1, (nothing side).2.1,
      append_nil]
    simpa [Obs.acceptedBy, Obs.handedBy] using hand
  · intro who
    rw [← singleton_append, Obs.deliveredBy_append, (nothing who).2.2]
    rfl
  · rw [← singleton_append, Obs.acceptedBy_append, Obs.handedBy_append,
      (nothing side.other).1, (nothing side.other).2.1]
    simp [Obs.acceptedBy, Obs.handedBy, Ne.symm (Side.other_ne side)]

/-- Every call at every end keeps both directions. -/
theorem Piped.step (faithful : snow.Faithful matched)
    (piped : Piped snow matched start history world) (event : Side × Call) :
    Piped snow matched start (history ++ (Noise.step snow world event).2)
      (Noise.step snow world event).1 := by
  obtain ⟨side, call⟩ := event
  cases call with
  | write input answers =>
    have cases := (world.ends side).write_cases faithful input answers
    simp only [Noise.step]
    generalize (world.ends side).write snow input answers = wrote at cases ⊢
    obtain ⟨middle, over_, ⟨rfl, nothing⟩ | ⟨record, empty, fits, same, taken, written,
      outbound⟩⟩ := cases
    · -- Nothing is accepted.
      refine piped.sent over_.same ?_ (fun _ => rfl) ?_
      · intro opened flight carries
        refine ⟨opened, flight, ?_⟩
        have hand := carries.hand over_.cut over_.sending
        simpa [Obs.acceptedBy, Obs.handedBy, nothing] using hand
      · simp [Obs.acceptedBy, Obs.handedBy, Ne.symm (Side.other_ne side)]
    · -- The record joins those in flight.
      refine piped.sent (over_.same.trans same) ?_ (fun _ => rfl) ?_
      · intro opened flight carries
        refine ⟨opened, flight ++ [record], ?_⟩
        have hand := (carries.hand over_.cut over_.sending).seal_ faithful empty fits written
          outbound
        simpa [Obs.acceptedBy, Obs.handedBy, taken] using hand
      · simp [Obs.acceptedBy, Obs.handedBy, Ne.symm (Side.other_ne side)]
  | flush answers last =>
    refine piped.handOver side answers last ?_
    intro obs member
    split at member
    · exact mem_singleton.mp member
    · simp at member
  | shutdownWrite answers last => exact piped.handOver side answers last (by simp)
  | read capacity answers =>
    intro who
    rcases Side.eq_or_other who side with rfl | rfl
    · -- The other direction sees the same sender.
      obtain ⟨opened, flight, carries⟩ := piped who.other
      rw [Side.other_other] at carries
      obtain ⟨same, -⟩ := carries.read capacity answers
      obtain ⟨opened, flight, carries⟩ := piped who
      have kept := carries.of_sender same
      refine ⟨opened, flight, ?_⟩
      simpa [Noise.step, World.received, Obs.acceptedBy, Obs.handedBy, Obs.deliveredBy,
        Ne.symm (Side.other_ne who)] using kept
    · obtain ⟨opened, flight, carries⟩ := piped side.other
      rw [Side.other_other] at carries
      obtain ⟨-, opened, flight, after⟩ := carries.read capacity answers
      refine ⟨opened, flight, ?_⟩
      simpa [Noise.step, World.received, Obs.acceptedBy, Obs.handedBy, Obs.deliveredBy]
        using after

theorem run_piped (faithful : snow.Faithful matched) (begins : start.Begins matched)
    (run : (channel snow).Run (· = start) (fun _ _ _ => True) history world) :
    Piped snow matched start history world := by
  refine run.invariant ?_ ?_
  · rintro state rfl
    exact piped_start begins
  · intro history world event piped _
    exact piped.step faithful event

/-- The bytes of records that the peer decrypts to a plaintext. -/
structure Carried (snow : Snow σ ρ) (start : ρ) (plaintext bytes : Bytes) (records : List Record) :
    Prop where
  fits : ∀ record ∈ records, record.Fits
  opens : (snow.opens start records).isSome
  plaintext : records.flatMap Record.plaintext = plaintext
  bytes : records.flatMap Record.bytes = bytes

section

variable (piped : Piped snow matched start history world)
include piped

theorem Piped.carried (side : Side) :
    ∃ records, Carried snow (start.ends side.other).receiving (Obs.acceptedBy side history)
      (Obs.handedBy side history ++
        (world.ends side).outbound.drop (world.ends side).outboundOffset) records := by
  obtain ⟨opened, flight, carries⟩ := piped side
  obtain ⟨last, opens, -⟩ := carries.inFlight
  refine ⟨opened ++ flight, carries.fits, ?_, carries.sealed, carries.frames.symm⟩
  rw [Snow.opens_append carries.decrypted, opens]
  rfl

theorem Piped.delivered (side : Side) :
    Obs.deliveredBy side.other history <+: Obs.acceptedBy side history := by
  obtain ⟨opened, flight, carries⟩ := piped side
  rw [← carries.sealed, flatMap_append, ← carries.outputs, append_assoc]
  exact prefix_append _ _

theorem Piped.complete (side : Side)
    (sent : (world.ends side).outbound.drop (world.ends side).outboundOffset = [])
    (taken : (world.ends side.other).inbound.data ++ world.wire side = [])
    (read : (world.ends side.other).plaintext.drop (world.ends side.other).plaintextOffset = []) :
    Obs.deliveredBy side.other history = Obs.acceptedBy side history := by
  obtain ⟨opened, flight, carries⟩ := piped side
  have ahead := carries.ahead
  rw [sent, taken] at ahead
  -- A record has at least a header.
  have none : flight = [] := by
    cases flight with
    | nil => rfl
    | cons => simp [Record.bytes, toBeU16] at ahead
  have outputs := carries.outputs
  rw [read, append_nil] at outputs
  rw [outputs, ← carries.sealed, none, append_nil]

end

theorem step_flushed {event : Side × Call} {side : Side} {rest after : List Obs}
    (reported : (Noise.step snow world event).2 = rest ++ .flushed side :: after) :
    ∃ answers last count, ((world.ends side).handOver answers last).1 = .progress count ∧
      rest = [.handed side ((world.ends side).handed answers)] := by
  obtain ⟨who, call⟩ := event
  have member : .flushed side ∈ (Noise.step snow world (who, call)).2 := by simp [reported]
  cases call with
  | write | shutdownWrite | read => simp [Noise.step] at member
  | flush answers last =>
    simp only [Noise.step, Wrapped.flush] at reported
    cases result : ((world.ends who).handOver answers last).1 with
    | progress count =>
      simp only [result] at reported
      rcases rest with _ | ⟨first, _ | ⟨second, rest⟩⟩
      · simp at reported
      · simp only [cons_append, nil_append, List.cons.injEq, Obs.flushed.injEq]
          at reported
        obtain ⟨rfl, rfl, -⟩ := reported
        exact ⟨answers, last, count, result, rfl⟩
      · simp at reported
    | _ => simp [Noise.step, Wrapped.flush, result] at member

/-- A flush that reports completion leaves nothing of the records behind. -/
theorem run_flushed (faithful : snow.Faithful matched) (begins : start.Begins matched)
    (run : (channel snow).Run (· = start) (fun _ _ _ => True) history world) (side : Side) :
    ∀ before after, history = before ++ .flushed side :: after →
      ∃ records, Carried snow (start.ends side.other).receiving (Obs.acceptedBy side before)
        (Obs.handedBy side before) records := by
  intro before after split
  refine run.occurrences (fun before item => item = .flushed side →
    ∃ records, Carried snow (start.ends side.other).receiving (Obs.acceptedBy side before)
      (Obs.handedBy side before) records) ?_ split rfl
  rintro history world event rest item after run _ obs rfl
  obtain ⟨answers, last, count, complete, rfl⟩ := step_flushed obs
  have nothing := ((world.ends side).handOver_cases answers last).2 count complete
  have handed : Piped snow matched start
      (history ++ [.handed side ((world.ends side).handed answers)])
      (world.sent side ((world.ends side).handOver answers last).2
        ((world.ends side).handed answers)) :=
    (run_piped faithful begins run).handOver side answers last (by simp)
  obtain ⟨records, carried⟩ := handed.carried side
  refine ⟨records, ?_⟩
  simpa [World.sent, nothing] using carried

/--
The record layer is a faithful pipe in both directions, whatever the lower stream does in between.

One end delivers a beginning of what the other has accepted, and all of it once nothing is on its
way. The lower stream takes the bytes of whole records one after the other, up to what the sender
still holds, and the peer decrypts these records to what was accepted. Once a flush has reported
completion, all of them were taken.
-/
theorem records_piped (faithful : snow.Faithful matched) (begins : start.Begins matched)
    (run : (channel snow).Run (· = start) (fun _ _ _ => True) history world) (side : Side) :
    Obs.deliveredBy side.other history <+: Obs.acceptedBy side history ∧
    ((world.ends side).outbound.drop (world.ends side).outboundOffset = [] →
      (world.ends side.other).inbound.data ++ world.wire side = [] →
      (world.ends side.other).plaintext.drop (world.ends side.other).plaintextOffset = [] →
      Obs.deliveredBy side.other history = Obs.acceptedBy side history) ∧
    (∃ records, Carried snow (start.ends side.other).receiving (Obs.acceptedBy side history)
      (Obs.handedBy side history ++
        (world.ends side).outbound.drop (world.ends side).outboundOffset) records) ∧
    ∀ before after, history = before ++ .flushed side :: after →
      ∃ records, Carried snow (start.ends side.other).receiving (Obs.acceptedBy side before)
        (Obs.handedBy side before) records := by
  have piped := run_piped faithful begins run
  exact ⟨piped.delivered side, piped.complete side, piped.carried side,
    run_flushed faithful begins run side⟩

end Run

/-- A library that counts its messages and appends a tag. -/
def tagging : Snow Nat Nat where
  writeMessage sent plaintext := some (plaintext ++ List.replicate 16 0, sent + 1)
  readMessage received ciphertext := some (ciphertext.take (ciphertext.length - 16), received + 1)

/-- Two ends before their first call. -/
def opening : World Nat Nat where
  ends _ := { sending := 0, receiving := 0 }
  wire _ := []

/-- Two records in small pieces, the second one behind a flush. -/
def talk : List (Side × Call) :=
  [(.client, .write [1, 2, 3] []), (.client, .flush [.progress 5, .pending] (.progress 0)),
    (.server, .read 2 [.progress 1, .progress 1, .progress 2, .pending]),
    (.client, .flush [.progress 16] (.progress 0)), (.client, .write [4] []),
    (.server, .read 2 [.progress 17]), (.server, .read 9 []),
    (.client, .shutdownWrite [.progress 19] (.progress 0)),
    (.server, .read 9 [.progress 2, .progress 17])]

/-- Both records are delivered in order, although the first is read in two parts. -/
theorem records_piped_talk :
    Obs.deliveredBy .server ((channel tagging).execute ([], opening) talk).1 = [1, 2, 3, 4] ∧
      Obs.deliveredBy .server ((channel tagging).execute ([], opening) talk).1 <+:
        Obs.acceptedBy .client ((channel tagging).execute ([], opening) talk).1 := by
  have faithful : tagging.Faithful (· = ·) := by
    refine ⟨?_, ?_⟩
    · rintro sending plaintext ciphertext next ⟨⟩
      simp
    · rintro sending receiving plaintext ciphertext next rfl ⟨⟩
      exact ⟨sending + 1, by simp [tagging], rfl⟩
  have begins : opening.Begins (· = ·) := ⟨fun _ => rfl, fun _ => rfl, fun _ => rfl⟩
  have run : (channel tagging).Run (· = opening) (fun _ _ _ => True) [] opening := .start rfl
  have admitted : (channel tagging).admits (fun _ _ _ => True) ([], opening) talk = true := by
    decide +kernel
  exact ⟨by decide +kernel, (records_piped faithful begins (run.replay admitted) .client).1⟩

end Snolc.Noise
