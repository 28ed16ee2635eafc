import Mathlib.Data.List.Forall2

/-! Frames in a stream: a header that gives the length of the payload behind it. -/

namespace Snolc

open List

/-- How a stream is cut: how long headers are, which lengths they give, and what payloads mean. -/
structure Framing (α β ε : Type) where
  header : Nat
  size : List α → Except ε Nat
  payload : List α → Except ε β
  header_pos : 0 < header

namespace Framing

variable {α β ε : Type} (framing : Framing α β ε)

/-- The frame at the front of a stream and what follows it, if the frame is complete. -/
def front (stream : List α) : Except ε (Option (β × List α)) :=
  if stream.length < framing.header then .ok none
  else
    match framing.size (stream.take framing.header) with
    | .error fault => .error fault
    | .ok length =>
      if stream.length < framing.header + length then .ok none
      else
        match framing.payload ((stream.drop framing.header).take length) with
        | .error fault => .error fault
        | .ok payload => .ok (some (payload, stream.drop (framing.header + length)))

/-- A complete frame: a header and a payload of the length it gives. -/
structure Framed (bytes : List α) (payload : β) : Prop where
  header_le : framing.header ≤ bytes.length
  size : framing.size (bytes.take framing.header) = .ok (bytes.length - framing.header)
  payload : framing.payload (bytes.drop framing.header) = .ok payload

variable {framing} {stream rest bytes frame more : List α} {payload : β} {fault : ε}

/-- A complete frame at the front is found. -/
theorem Framed.front_append (framed : framing.Framed frame payload) (rest : List α) :
    framing.front (frame ++ rest) = .ok (some (payload, rest)) := by
  -- The header says where the frame ends, so what follows does not matter.
  have long := framed.header_le
  have whole : framing.header + (frame.length - framing.header) = frame.length := by omega
  rw [front, if_neg (by simp only [length_append]; omega),
    take_append_of_le_length long, framed.size]
  simp only
  rw [if_neg (by simp only [length_append]; omega), drop_append_of_le_length long,
    take_append_of_le_length (by simp), take_of_length_le (by simp), framed.payload,
    whole, drop_left]

/-- What is found at the front is a complete frame. -/
theorem framed_of_front (found : framing.front stream = .ok (some (payload, rest))) :
    ∃ frame, framing.Framed frame payload ∧ stream = frame ++ rest := by
  unfold front at found
  split at found
  · simp at found
  split at found
  · simp at found
  next length size =>
  split at found
  · simp at found
  next complete =>
  split at found
  · simp at found
  next value means =>
  rw [Except.ok.injEq, Option.some.injEq, Prod.mk.injEq] at found
  obtain ⟨rfl, rfl⟩ := found
  refine ⟨stream.take (framing.header + length), ⟨?_, ?_, ?_⟩, (take_append_drop _ _).symm⟩
  · rw [length_take]
    omega
  · rw [take_take, Nat.min_eq_left (by omega), size, length_take]
    congr 1
    omega
  · rw [drop_take, Nat.add_sub_cancel_left]
    exact means

/-- The frame at the front is there whatever follows. -/
theorem front_append (found : framing.front stream = .ok (some (payload, rest)))
    (more : List α) : framing.front (stream ++ more) = .ok (some (payload, rest ++ more)) := by
  obtain ⟨frame, framed, rfl⟩ := framed_of_front found
  rw [append_assoc, framed.front_append]

/-- A fault at the front is there whatever follows. -/
theorem front_append_error (found : framing.front stream = .error fault) (more : List α) :
    framing.front (stream ++ more) = .error fault := by
  unfold front at found
  split at found
  · simp at found
  next headed =>
  have long : framing.header ≤ stream.length := Nat.le_of_not_lt headed
  rw [front, if_neg (by simp only [length_append]; omega),
    take_append_of_le_length long]
  cases size : framing.size (stream.take framing.header) with
  | error => simpa only [size] using found
  | ok length =>
    simp only [size] at found ⊢
    split at found
    · simp at found
    next complete =>
    rw [if_neg (by simp only [length_append]; omega), drop_append_of_le_length long,
      take_append_of_le_length (by simp only [length_drop]; omega)]
    cases means : framing.payload ((stream.drop framing.header).take length) with
    | error => simpa only [means] using found
    | ok => simp [means] at found

/-- The element that completes a frame is its last one. -/
theorem front_snoc {last : α} (open_ : framing.front stream = .ok none)
    (found : framing.front (stream ++ [last]) = .ok (some (payload, rest))) : rest = [] := by
  obtain ⟨frame, framed, cut⟩ := framed_of_front found
  rcases eq_nil_or_concat rest with rfl | ⟨inner, final, rfl⟩
  · rfl
  -- Otherwise the frame was complete before.
  rw [concat_eq_append, ← append_assoc] at cut
  have before : stream = frame ++ inner := (append_inj' cut rfl).1
  rw [before, framed.front_append] at open_
  simp at open_

/-- Whatever completes a frame, what follows it is at the end of what was added. -/
theorem front_suffix (open_ : framing.front stream = .ok none)
    (found : framing.front (stream ++ more) = .ok (some (payload, rest))) : rest <:+ more := by
  obtain ⟨frame, framed, cut⟩ := framed_of_front found
  rcases append_eq_append_iff.mp cut with ⟨added, rfl, rfl⟩ | ⟨over_, rfl, rfl⟩
  · exact ⟨added, rfl⟩
  -- Otherwise the frame was complete before.
  rw [framed.front_append] at open_
  simp at open_

/-- What follows the frame at the front is shorter. -/
theorem front_length_lt (found : framing.front stream = .ok (some (payload, rest))) :
    rest.length < stream.length := by
  obtain ⟨frame, framed, rfl⟩ := framed_of_front found
  have := framed.header_le
  have := framing.header_pos
  rw [length_append]
  omega

variable (framing) in
/-- The payloads of a stream, and what is left once they are cut off. -/
def split (stream : List α) : Except ε (List β × List α) :=
  match found : framing.front stream with
  | .error fault => .error fault
  | .ok none => .ok ([], stream)
  | .ok (some (payload, rest)) =>
    have := front_length_lt found
    (split rest).map fun (payloads, last) => (payload :: payloads, last)
termination_by stream.length

/-- A stream that begins with a fault has no payloads. -/
theorem split_of_error (found : framing.front stream = .error fault) :
    framing.split stream = .error fault := by
  rw [split]
  split <;> simp_all

/-- A stream that begins with no complete frame is left as it is. -/
theorem split_of_none (found : framing.front stream = .ok none) :
    framing.split stream = .ok ([], stream) := by
  rw [split]
  split <;> simp_all

/-- The frame at the front comes first. -/
theorem split_of_some (found : framing.front stream = .ok (some (payload, rest))) :
    framing.split stream =
      (framing.split rest).map fun (payloads, last) => (payload :: payloads, last) := by
  rw [split]
  split <;> simp_all

/-- Payloads that come before those of a stream. -/
def after (before : List β) : List β × List α → List β × List α :=
  fun (payloads, last) => (before ++ payloads, last)

/-- Frames one after the other are cut into their payloads. -/
theorem split_framed {frames : List (List α)} {payloads : List β}
    (framed : List.Forall₂ framing.Framed frames payloads) (rest : List α) :
    framing.split (frames.flatten ++ rest) = (framing.split rest).map (after payloads) := by
  induction framed with
  | nil =>
    simp only [flatten_nil, nil_append]
    cases framing.split rest <;> rfl
  | cons first _ ih =>
    rw [flatten_cons, append_assoc, split_of_some (first.front_append _), ih]
    cases framing.split rest <;> rfl

/-- A stream that is cut consists of frames and what is left. -/
theorem framed_of_split {payloads : List β} {last : List α}
    (cut : framing.split stream = .ok (payloads, last)) :
    framing.front last = .ok none ∧ ∃ frames, List.Forall₂ framing.Framed frames payloads ∧
      stream = frames.flatten ++ last := by
  fun_induction split framing stream generalizing payloads last with
  | case1 => simp at cut
  | case2 stream open_ =>
    cases cut
    exact ⟨open_, [], .nil, rfl⟩
  | case3 stream payload rest found _ ih =>
    cases tail : framing.split rest with
    | error => simp [tail, Except.map] at cut
    | ok =>
      simp only [tail, Except.map, Except.ok.injEq, Prod.mk.injEq] at cut
      obtain ⟨rfl, rfl⟩ := cut
      obtain ⟨open_, frames, framed, rfl⟩ := ih tail
      obtain ⟨frame, first, rfl⟩ := framed_of_front found
      exact ⟨open_, frame :: frames, .cons first framed, by simp⟩

/-- A stream that cannot be cut consists of frames and a fault behind them. -/
theorem framed_of_split_error (cut : framing.split stream = .error fault) :
    ∃ frames payloads last, List.Forall₂ framing.Framed frames payloads ∧
      stream = frames.flatten ++ last ∧ framing.front last = .error fault := by
  fun_induction split framing stream with
  | case1 stream other found =>
    cases cut
    exact ⟨[], [], stream, .nil, rfl, found⟩
  | case2 => simp at cut
  | case3 stream payload rest found _ ih =>
    cases tail : framing.split rest with
    | ok => simp [tail, Except.map] at cut
    | error =>
      simp only [tail, Except.map, Except.error.injEq] at cut
      obtain ⟨frames, payloads, last, framed, rfl, bad⟩ := ih (tail.trans (by rw [cut]))
      obtain ⟨frame, first, rfl⟩ := framed_of_front found
      exact ⟨frame :: frames, payload :: payloads, last, .cons first framed, by simp, bad⟩

end Framing

end Snolc
