import Snolc.Lib.Framing
import Snolc.Noise.Record

/-! Reading frames off the lower stream, however it hands out its bytes. -/

namespace Snolc.Noise

/-- Frames of the lower stream: a length in two bytes, not zero, and a message. -/
def messageFraming (limit : Nat) : Framing UInt8 Bytes NoiseError where
  header := 2
  size := fun head =>
    if beU16 head = 0 ∨ beU16 head > limit then .error .length else .ok (beU16 head)
  payload := .ok
  header_pos := by decide

variable {data message wire : Bytes}

theorem beU16_append (headed : 2 ≤ data.length) (more : Bytes) :
    beU16 (data ++ more) = beU16 data := by
  match data, headed with
  | _ :: _ :: _, _ => rfl

theorem beU16_toBeU16 {value : Nat} (small : value < 65536) (rest : Bytes) :
    beU16 (toBeU16 value ++ rest) = value := by
  have first : beU16 (toBeU16 value ++ rest) =
      (UInt8.ofNat (value / 256)).toNat * 256 + (UInt8.ofNat value).toNat := rfl
  simp only [first, UInt8.toNat_ofNat']
  omega

theorem messageFraming_front (limit : Nat) (stream : Bytes) :
    (messageFraming limit).front stream =
      if stream.length < 2 then .ok none
      else if beU16 stream = 0 ∨ beU16 stream > limit then .error .length
      else if stream.length < 2 + beU16 stream then .ok none
      else .ok (some ((stream.drop 2).take (beU16 stream), stream.drop (2 + beU16 stream))) := by
  by_cases short : stream.length < 2
  · rw [if_pos short]
    exact if_pos short
  · have head : beU16 (stream.take 2) = beU16 stream := by
      have long : 2 ≤ (stream.take 2).length := by
        rw [List.length_take]
        omega
      rw [← beU16_append long (stream.drop 2), List.take_append_drop]
    rw [Framing.front, if_neg short]
    simp only [messageFraming, head]
    by_cases refused : beU16 stream = 0 ∨ beU16 stream > limit
    · simp only [if_neg short, if_pos refused]
    · simp only [if_neg short, if_neg refused]
      rfl

variable {limit : Nat}

theorem framed_frame {bytes : Bytes} (made : frame message limit = .ok bytes) :
    bytes = toBeU16 message.length ++ message ∧
      (messageFraming limit).Framed bytes message := by
  unfold frame at made
  split at made
  · simp at made
  next fits =>
  push Not at fits
  obtain ⟨nonempty, within, small⟩ := fits
  rw [Except.ok.injEq] at made
  subst made
  have long : (toBeU16 message.length).length = 2 := rfl
  have length : beU16 (toBeU16 message.length) = message.length := by
    have held := beU16_toBeU16 (show message.length < 65536 by omega) []
    rwa [List.append_nil] at held
  have positive : message.length ≠ 0 := by
    simpa [List.isEmpty_iff] using nonempty
  refine ⟨rfl, ?_, ?_, ?_⟩
  · simp [messageFraming, long]
  · simp only [messageFraming]
    rw [List.take_left' long, length, if_neg (by omega), List.length_append, long,
      Nat.add_sub_cancel_left]
  · simp only [messageFraming]
    rw [List.drop_left' long]

namespace FrameReader

/-- The reader that has kept the given bytes. -/
def reading (data : Bytes) : FrameReader where
  data
  expected := if data.length < 2 then none else some (beU16 data + 2)

variable {limit : Nat} {data input : Bytes}

section

variable (incomplete : (messageFraming limit).front data = .ok none)
include incomplete

theorem incomplete_cases : data.length < 2 ∨ 2 ≤ data.length ∧ beU16 data ≠ 0 ∧ beU16 data ≤ limit ∧
      data.length < 2 + beU16 data := by
  rw [messageFraming_front] at incomplete
  split at incomplete
  · exact .inl ‹_›
  split at incomplete
  · simp at incomplete
  split at incomplete
  · omega
  · simp at incomplete

section

variable (within : input.length ≤ (reading data).remainingCapacity limit)
include within

theorem front_within {rest : Bytes}
    (found : (messageFraming limit).front (data ++ input) = .ok (some (message, rest))) :
    rest = [] := by
  have length : (data ++ input).length = data.length + input.length := List.length_append
  rw [messageFraming_front] at found
  split at found
  · simp at found
  split at found
  · simp at found
  next accepted =>
  split at found
  · simp at found
  next complete =>
  rw [Except.ok.injEq, Option.some.injEq, Prod.mk.injEq] at found
  rw [← found.2, List.drop_eq_nil_iff]
  rcases incomplete_cases incomplete with short | ⟨long, -, -, missing⟩
  · -- Only the header was asked for.
    simp only [remainingCapacity, reading, if_pos short] at within
    omega
  · simp only [remainingCapacity, reading, if_neg (Nat.not_lt.mpr long)] at within
    rw [beU16_append long]
    omega

theorem push_reading
    (sound : ∀ fault, (messageFraming limit).front (data ++ input) ≠ .error fault) :
    (reading data).push input limit = (.ok (), reading (data ++ input)) := by
  have length : (data ++ input).length = data.length + input.length := List.length_append
  have cases := incomplete_cases incomplete
  rcases cases with short | ⟨long, positive, fits, missing⟩
  · simp only [remainingCapacity, reading, if_pos short] at within
    simp only [push, reading, if_pos short, Option.isNone_none, true_and]
    rw [if_neg (by omega)]
    by_cases headed : (data ++ input).length ≥ 2
    · -- The header is complete, and its length is one that is accepted.
      have accepted : ¬ (beU16 (data ++ input) = 0 ∨ beU16 (data ++ input) > limit) := by
        intro refused
        refine sound .length ?_
        rw [messageFraming_front, if_neg (by omega), if_pos refused]
      rw [if_pos headed, if_neg accepted, if_neg (by omega)]
    · rw [if_neg headed, if_pos (by omega)]
  · simp only [remainingCapacity, reading, if_neg (Nat.not_lt.mpr long)] at within
    simp only [push, reading, if_neg (Nat.not_lt.mpr long), Option.isNone_some]
    rw [if_neg (by omega), if_neg (by simp), if_neg (by omega), beU16_append long]

theorem push_spoiled {fault : NoiseError}
    (bad : (messageFraming limit).front (data ++ input) = .error fault) :
    (reading data).push input limit =
      (.error .length, { data := data ++ input, expected := none }) ∧ fault = .length := by
  have length : (data ++ input).length = data.length + input.length := List.length_append
  rw [messageFraming_front] at bad
  split at bad
  · simp at bad
  next headed =>
  split at bad
  swap
  · split at bad <;> simp at bad
  next refused =>
  rw [Except.error.injEq] at bad
  rcases incomplete_cases incomplete with short | ⟨long, positive, fits, -⟩
  · -- The header was asked for and nothing more.
    simp only [remainingCapacity, reading, if_pos short] at within
    simp only [push, reading, if_pos short, Option.isNone_none, true_and]
    rw [if_neg (by omega), if_pos (Nat.le_of_not_lt headed), if_pos refused]
    exact ⟨rfl, bad.symm⟩
  · -- A header that was there before has a good length.
    rw [beU16_append long] at refused
    omega

end

theorem take_reading : (reading data).take = (none, reading data) := by
  rcases incomplete_cases incomplete with short | ⟨long, -, -, missing⟩
  · simp only [take, reading, if_pos short]
  · simp only [take, reading, if_neg (Nat.not_lt.mpr long)]
    rw [if_pos (by omega)]

end

theorem take_complete (found : (messageFraming limit).front data = .ok (some (message, []))) :
    (reading data).take = (some message, {}) := by
  rw [messageFraming_front] at found
  split at found
  · simp at found
  next long =>
  split at found
  · simp at found
  split at found
  · simp at found
  next complete =>
  rw [Except.ok.injEq, Option.some.injEq, Prod.mk.injEq, List.drop_eq_nil_iff] at found
  obtain ⟨rfl, whole⟩ := found
  simp only [take, reading, if_neg long]
  rw [if_neg (by omega), if_neg (by omega), List.drop_take, Nat.add_sub_cancel]

end FrameReader

open FrameReader

/--
How reading can end: every byte that was handed out is kept, the frame at the front is complete, or
its length is refused and the bytes stay where they are.
-/
def ReadEnds (limit : Nat) (bytes : Bytes)
    (outcome : Except NoiseError (Option Bytes) × FrameReader × Bytes) : Prop :=
  (∃ result kept left, outcome = (result, reading kept, left) ∧
    (∀ message, result ≠ .ok (some message)) ∧ kept ++ left = bytes ∧
    (messageFraming limit).front kept = .ok none) ∨
  (∃ message left, outcome = (.ok (some message), {}, left) ∧
    (messageFraming limit).front bytes = .ok (some (message, left))) ∨
  ∃ kept left, outcome = (.error .length, { data := kept, expected := none }, left) ∧
    kept ++ left = bytes ∧ (messageFraming limit).front kept = .error .length

theorem readLoop_outcome (answers : List IoResult)
    (incomplete : (messageFraming limit).front data = .ok none) :
    ReadEnds limit (data ++ wire) (readLoop limit answers (reading data) wire) := by
  -- Each answer adds bytes to those kept, up to the end of the header or of the frame.
  induction answers generalizing data wire with
  | nil => exact .inl ⟨_, data, wire, rfl, by simp, rfl, incomplete⟩
  | cons answer answers ih =>
    simp only [readLoop]
    by_cases full : (reading data).remainingCapacity limit = 0
    · rw [if_pos full]
      exact .inl ⟨_, data, wire, rfl, by simp, rfl, incomplete⟩
    rw [if_neg full]
    cases answer with
    | pending | eof | error => exact .inl ⟨_, data, wire, rfl, by simp, rfl, incomplete⟩
    | progress count =>
      by_cases within : count ≤ (reading data).remainingCapacity limit
      · simp only [if_pos within]
        by_cases empty : (wire.take count).length = 0
        · rw [if_pos empty]
          exact .inl ⟨_, data, wire, rfl, by simp, rfl, incomplete⟩
        rw [if_neg empty]
        have together : data ++ wire = (data ++ wire.take count) ++ wire.drop count := by simp
        have fits : (wire.take count).length ≤ (reading data).remainingCapacity limit :=
          Nat.le_trans (List.length_take_le _ _) within
        cases found : (messageFraming limit).front (data ++ wire.take count) with
        | error =>
          obtain ⟨pushed, rfl⟩ := push_spoiled incomplete fits found
          rw [pushed]
          exact .inr (.inr ⟨_, _, rfl, together.symm, found⟩)
        | ok value =>
          rw [push_reading incomplete fits (by rw [found]; simp)]
          simp only
          cases value with
          | none =>
            rw [take_reading found, together]
            exact ih found
          | some pair =>
            obtain ⟨message, rest⟩ := pair
            obtain rfl := front_within incomplete fits found
            rw [take_complete found, together]
            exact .inr (.inl ⟨message, _, rfl, Framing.front_append found _⟩)
      · simp only [if_neg within]
        exact .inl ⟨_, data, wire, rfl, by simp, rfl, incomplete⟩

theorem readFrame_outcome (answers : List IoResult) {data wire : Bytes}
    (incomplete : (messageFraming limit).front data = .ok none) :
    ReadEnds limit (data ++ wire) (readFrame limit answers (reading data) wire) := by
  rw [readFrame, take_reading incomplete]
  exact readLoop_outcome answers incomplete

end Snolc.Noise
