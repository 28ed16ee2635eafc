import Snolc.Lib.Framing
import Snolc.Lib.Utf8
import Snolc.Policy.Service

/-! The decoder of the control channel, however its input is cut into pieces. -/

namespace Snolc.Policy

/-- Frames of the control channel: a length in four bytes, not zero, and a text. -/
def controlFraming (limit : Nat) : Framing UInt8 String FrameError where
  header := 4
  size := fun head =>
    if beU32 head = 0 ∨ beU32 head > limit then .error .length else .ok (beU32 head)
  payload := fun bytes => match fromUtf8 bytes with
    | none => .error .utf8
    | some text => .ok text
  header_pos := by decide

@[simp] theorem beU32_take (stream : Bytes) : beU32 (stream.take 4) = beU32 stream := by
  rw [beU32, beU32, List.take_take, Nat.min_self]

theorem beU32_toBeU32 {value : Nat} (small : value < 2 ^ 32) (rest : Bytes) :
    beU32 (toBeU32 value ++ rest) = value := by
  have first : beU32 (toBeU32 value ++ rest) = (((UInt8.ofNat (value / 16777216)).toNat * 256 +
      (UInt8.ofNat (value / 65536)).toNat) * 256 + (UInt8.ofNat (value / 256)).toNat) * 256 +
      (UInt8.ofNat value).toNat := by simp [beU32, toBeU32]
  simp only [first, UInt8.toNat_ofNat']
  omega

/-- Four bytes are the number that they spell. -/
theorem toBeU32_beU32 {head : Bytes} (four : head.length = 4) :
    toBeU32 (beU32 head) = head ∧ beU32 head < 2 ^ 32 := by
  match head, four with
  | [a, b, c, d], _ =>
    have := a.toNat_lt
    have := b.toNat_lt
    have := c.toNat_lt
    have := d.toNat_lt
    have value : beU32 [a, b, c, d] =
        ((a.toNat * 256 + b.toNat) * 256 + c.toNat) * 256 + d.toNat := by simp [beU32]
    refine ⟨?_, by omega⟩
    simp only [toBeU32, value, List.cons.injEq, and_true]
    refine ⟨?_, ?_, ?_, ?_⟩ <;>
    · rw [← UInt8.toNat_inj, UInt8.toNat_ofNat']
      omega

theorem toUtf8_length (text : String) : (toUtf8 text).length = text.utf8ByteSize := by
  rw [toUtf8]
  rfl

variable {limit : Nat}

/-- The frame of a text is one of the channel, and every frame of the channel is one of a text. -/
theorem encodeFrame_eq_iff {frame : Bytes} {text : String} :
    encodeFrame text limit = .ok frame ↔ (controlFraming limit).Framed frame text := by
  constructor
  · intro encoded
    unfold encodeFrame at encoded
    split at encoded
    · simp at encoded
    next fits =>
    push Not at fits
    obtain ⟨nonempty, within, small⟩ := fits
    rw [Except.ok.injEq] at encoded
    subst encoded
    have long : (toBeU32 text.utf8ByteSize).length = 4 := rfl
    have positive : text.utf8ByteSize ≠ 0 := by
      simpa [String.utf8ByteSize_eq_zero_iff] using nonempty
    refine ⟨?_, ?_, ?_⟩
    · simp [controlFraming, long]
    · have length : beU32 (toBeU32 text.utf8ByteSize ++ toUtf8 text) = text.utf8ByteSize :=
        beU32_toBeU32 (by omega) _
      simp only [controlFraming, beU32_take, length]
      rw [if_neg (by omega), List.length_append, toUtf8_length, long, Nat.add_sub_cancel_left]
    · simp [controlFraming, long]
  · rintro ⟨headed, size, payload⟩
    simp only [controlFraming] at headed size payload
    have four : (frame.take 4).length = 4 := by simp [headed]
    obtain ⟨spelled, small⟩ := toBeU32_beU32 four
    -- The payload is the text, and its length is the one the header gives.
    have body : frame.drop 4 = toUtf8 text := by
      cases decoded : fromUtf8 (frame.drop 4) with
      | none => simp [decoded] at payload
      | some =>
        simp only [decoded, Except.ok.injEq] at payload
        exact payload ▸ fromUtf8_eq_some decoded
    have length := congrArg List.length body
    rw [toUtf8_length, List.length_drop] at length
    split at size
    · simp at size
    next fits =>
    rw [Except.ok.injEq] at size
    have nonempty : text.isEmpty = false := by
      rw [String.isEmpty_eq_false_iff, ne_eq, ← String.utf8ByteSize_eq_zero_iff]
      omega
    have fine : ¬ (text.isEmpty ∨ text.utf8ByteSize > limit ∨ text.utf8ByteSize > 2 ^ 32 - 1) := by
      simp only [nonempty, Bool.false_eq_true, false_or]
      omega
    rw [encodeFrame, if_neg fine, ← body, ← length, ← size, spelled,
      List.take_append_drop]

theorem controlFraming_front (limit : Nat) (stream : Bytes) :
    (controlFraming limit).front stream =
      if stream.length < 4 then .ok none
      else if beU32 stream = 0 ∨ beU32 stream > limit then .error .length
      else if stream.length < 4 + beU32 stream then .ok none
      else match fromUtf8 ((stream.drop 4).take (beU32 stream)) with
        | none => .error .utf8
        | some text => .ok (some (text, stream.drop (4 + beU32 stream))) := by
  simp only [Framing.front, controlFraming, beU32_take]
  by_cases refused : beU32 stream = 0 ∨ beU32 stream > limit
  · simp only [if_pos refused]
  · simp only [if_neg refused]
    cases fromUtf8 ((stream.drop 4).take (beU32 stream)) <;> rfl

namespace FrameDecoder

/-- The decoder that has kept the given bytes. -/
def keeping (limit : Nat) (buffer : Bytes) : FrameDecoder where
  buffer
  expected := if buffer.length < 4 then none else some (beU32 buffer)
  limit

variable {limit : Nat} {buffer : Bytes}

section

variable (incomplete : (controlFraming limit).front buffer = .ok none)
include incomplete

theorem incomplete_cases :
    buffer.length < 4 ∨ 4 ≤ buffer.length ∧ beU32 buffer ≠ 0 ∧ beU32 buffer ≤ limit ∧
      buffer.length < 4 + beU32 buffer := by
  rw [controlFraming_front] at incomplete
  split at incomplete
  · exact .inl ‹_›
  split at incomplete
  · simp at incomplete
  split at incomplete
  · omega
  cases decoded : fromUtf8 ((buffer.drop 4).take (beU32 buffer)) <;> simp [decoded] at incomplete

theorem expect_keeping (byte : UInt8) :
    { keeping limit buffer with buffer := buffer ++ [byte] }.expect =
      if 4 ≤ (buffer ++ [byte]).length ∧
          (beU32 (buffer ++ [byte]) = 0 ∨ beU32 (buffer ++ [byte]) > limit) then .error .length
      else .ok (keeping limit (buffer ++ [byte])) := by
  have length : (buffer ++ [byte]).length = buffer.length + 1 := by simp
  rcases incomplete_cases incomplete with short | ⟨long, positive, within, -⟩
  · rw [expect]
    simp only [keeping, if_pos short, Option.isNone_none, true_and]
    by_cases headed : (buffer ++ [byte]).length ≥ 4
    · rw [if_pos headed]
      by_cases refused : beU32 (buffer ++ [byte]) = 0 ∨ beU32 (buffer ++ [byte]) > limit
      · rw [if_pos refused, if_pos ⟨headed, refused⟩]
      · rw [if_neg refused, if_neg (by tauto), if_neg (by omega)]
    · rw [if_neg headed, if_neg (by tauto), if_pos (by omega)]
  · -- The first four bytes do not change any more.
    have same : beU32 (buffer ++ [byte]) = beU32 buffer := by
      rw [← beU32_take, List.take_append_of_le_length long, beU32_take]
    have known : (keeping limit buffer).expected = some (beU32 buffer) := if_neg (by omega)
    rw [if_neg (by omega), expect]
    simp only [known]
    rw [if_neg (by simp)]
    simp only [keeping]
    rw [if_neg (by omega), same]

/-- Every byte asks whether a frame is complete. -/
theorem pushByte_keeping (byte : UInt8) : (keeping limit buffer).pushByte byte =
      match (controlFraming limit).front (buffer ++ [byte]) with
      | .error fault => .error fault
      | .ok none => .ok (keeping limit (buffer ++ [byte]), none)
      | .ok (some (text, rest)) => .ok (keeping limit rest, some text) := by
  have room : ¬ (keeping limit buffer).buffer.length ≥ (keeping limit buffer).limit + 4 := by
    have cases := incomplete_cases incomplete
    simp only [keeping]
    omega
  rw [pushByte, if_neg room]
  simp only [Bind.bind, Except.bind, Pure.pure, Except.pure]
  have step := expect_keeping incomplete byte
  have last : ∀ text rest, (controlFraming limit).front (buffer ++ [byte]) =
      .ok (some (text, rest)) → rest = [] := fun _ _ => Framing.front_snoc incomplete
  simp only [keeping] at step ⊢
  rw [step]
  rw [controlFraming_front] at last ⊢
  generalize buffer ++ [byte] = stream at last ⊢
  by_cases short : stream.length < 4
  · rw [if_neg (by omega)]
    simp only [if_pos short]
  by_cases refused : beU32 stream = 0 ∨ beU32 stream > limit
  · rw [if_pos ⟨by omega, refused⟩]
    simp only [if_neg short, if_pos refused]
  rw [if_neg (by tauto)]
  by_cases missing : stream.length < 4 + beU32 stream
  · simp only [if_neg short, if_neg refused, if_pos missing]
    rw [if_pos (by omega)]
  simp only [if_neg short, if_neg refused, if_neg missing] at last ⊢
  rw [if_neg (by omega)]
  cases decoded : fromUtf8 ((stream.drop 4).take (beU32 stream)) with
  | none => rfl
  | some =>
    -- Nothing is left behind the frame.
    simp only [decoded] at last ⊢
    rw [last _ _ rfl]
    rfl

theorem push_keeping (input : Bytes) : (keeping limit buffer).push input =
      ((controlFraming limit).split (buffer ++ input)).map fun (texts, rest) =>
        (keeping limit rest, texts) := by
  -- Each byte either fails for good, is kept, or completes a frame and leaves nothing behind.
  induction input generalizing buffer with
  | nil =>
    rw [List.append_nil, Framing.split_of_none incomplete]
    rfl
  | cons byte rest ih =>
    have together : buffer ++ byte :: rest = (buffer ++ [byte]) ++ rest := by simp
    rw [push, pushByte_keeping incomplete, together]
    cases found : (controlFraming limit).front (buffer ++ [byte]) with
    | error =>
      rw [Framing.split_of_error (Framing.front_append_error found rest)]
      rfl
    | ok value =>
      cases value with
      | none =>
        simp only [Bind.bind, Except.bind, ih found]
        cases (controlFraming limit).split (buffer ++ [byte] ++ rest) <;> rfl
      | some pair =>
        obtain ⟨text, left⟩ := pair
        obtain rfl := Framing.front_snoc incomplete found
        have fresh : (controlFraming limit).front [] = .ok none := rfl
        rw [Framing.split_of_some (Framing.front_append found rest)]
        simp only [Bind.bind, Except.bind, ih fresh]
        cases (controlFraming limit).split ([] ++ rest) <;> rfl

end

/-- Take pieces one after the other and collect the frames they complete. -/
def pushAll (decoder : FrameDecoder) : List Bytes → Except FrameError (FrameDecoder × List String)
  | [] => .ok (decoder, [])
  | piece :: rest => do
    let (decoder, frames) ← decoder.push piece
    let (decoder, others) ← decoder.pushAll rest
    return (decoder, frames ++ others)

theorem push_append (decoder : FrameDecoder) (first second : Bytes) :
    decoder.push (first ++ second) = (do
      let (decoder, frames) ← decoder.push first
      let (decoder, others) ← decoder.push second
      return (decoder, frames ++ others)) := by
  induction first generalizing decoder with
  | nil =>
    simp only [List.nil_append, push, Bind.bind, Except.bind]
    cases decoder.push second <;> rfl
  | cons byte rest ih =>
    simp only [List.cons_append, push, Bind.bind, Except.bind]
    cases decoder.pushByte byte with
    | error => rfl
    | ok value =>
      simp only [ih, Bind.bind, Except.bind]
      cases value.1.push rest with
      | error => rfl
      | ok pushed =>
        simp only [Pure.pure, Except.pure]
        cases pushed.1.push second with
        | error => rfl
        | ok => simp

theorem pushAll_eq (decoder : FrameDecoder) (pieces : List Bytes) :
    decoder.pushAll pieces = decoder.push pieces.flatten := by
  induction pieces generalizing decoder with
  | nil => rfl
  | cons piece rest ih =>
    simp only [pushAll, List.flatten_cons, push_append, ih]

end FrameDecoder

theorem FrameDecoder.pushAll_new {decoder : FrameDecoder}
    (started : FrameDecoder.new limit = .ok decoder) (pieces : List Bytes) :
    decoder.pushAll pieces =
      ((controlFraming limit).split pieces.flatten).map fun (texts, rest) =>
        (keeping limit rest, texts) := by
  unfold FrameDecoder.new at started
  split at started
  · simp at started
  rw [Except.ok.injEq] at started
  subst started
  have fresh : (controlFraming limit).front [] = .ok none := rfl
  exact (pushAll_eq _ _).trans (push_keeping fresh pieces.flatten)

theorem encodeFrame_ok_iff (text : String) (limit : Nat) :
    (∃ frame, encodeFrame text limit = .ok frame) ↔
      text ≠ "" ∧ text.utf8ByteSize ≤ limit ∧ text.utf8ByteSize < 2 ^ 32 := by
  rw [encodeFrame]
  split
  next refused =>
    simp only [reduceCtorEq, exists_false, false_iff]
    rintro ⟨nonempty, within, small⟩
    rw [String.isEmpty_iff] at refused
    rcases refused with empty | refused
    · exact nonempty empty
    · omega
  next fits =>
    push Not at fits
    obtain ⟨nonempty, within, small⟩ := fits
    refine ⟨fun _ => ⟨?_, within, by omega⟩, fun _ => ⟨_, rfl⟩⟩
    rintro rfl
    simp at nonempty

/-- Frames of texts, one for each. -/
abbrev Encodes (limit : Nat) : List String → List Bytes → Prop :=
  List.Forall₂ fun text frame => encodeFrame text limit = .ok frame

theorem encodes_iff {texts : List String} {frames : List Bytes} :
    Encodes limit texts frames ↔ List.Forall₂ (controlFraming limit).Framed frames texts := by
  simp only [Encodes, encodeFrame_eq_iff]
  exact ⟨List.Forall₂.flip, List.Forall₂.flip⟩

/--
The codec of the control channel is exact however its input is cut.
Frames of texts are decoded to the texts; what is decoded are frames of texts, followed by the bytes
kept, which are fewer than the limit and a header; and a failure names the header or the text that
is refused.
-/
theorem controlFrames_exact {decoder : FrameDecoder}
    (started : FrameDecoder.new limit = .ok decoder) (pieces : List Bytes) :
    (∀ text, (∃ frame, encodeFrame text limit = .ok frame) ↔
      text ≠ "" ∧ text.utf8ByteSize ≤ limit ∧ text.utf8ByteSize < 2 ^ 32) ∧
    (∀ texts frames, Encodes limit texts frames → pieces.flatten = frames.flatten →
      ∃ last, decoder.pushAll pieces = .ok (last, texts) ∧ last.buffer = []) ∧
    (∀ last texts, decoder.pushAll pieces = .ok (last, texts) →
      last.buffer.length ≤ limit + 4 ∧
      ∃ frames, Encodes limit texts frames ∧ pieces.flatten = frames.flatten ++ last.buffer) ∧
    ∀ fault, decoder.pushAll pieces = .error fault →
      ∃ texts frames rest, Encodes limit texts frames ∧ pieces.flatten = frames.flatten ++ rest ∧
        4 ≤ rest.length ∧
        ((beU32 rest = 0 ∨ limit < beU32 rest) ∧ fault = .length ∨
          4 + beU32 rest ≤ rest.length ∧ fromUtf8 ((rest.drop 4).take (beU32 rest)) = none ∧
            fault = .utf8) := by
  rw [FrameDecoder.pushAll_new started]
  refine ⟨fun text => encodeFrame_ok_iff text limit, ?_, ?_, ?_⟩
  · intro texts frames encodes cut
    have fresh : (controlFraming limit).split [] = .ok ([], []) := Framing.split_of_none rfl
    have decoded := Framing.split_framed (encodes_iff.mp encodes) []
    rw [List.append_nil, fresh] at decoded
    refine ⟨FrameDecoder.keeping limit [], ?_, rfl⟩
    rw [cut, decoded]
    simp [Except.map, Framing.after]
  · intro last texts pushed
    cases cut : (controlFraming limit).split pieces.flatten with
    | error => simp [cut, Except.map] at pushed
    | ok =>
      simp only [cut, Except.map, Except.ok.injEq, Prod.mk.injEq] at pushed
      obtain ⟨rfl, rfl⟩ := pushed
      obtain ⟨incomplete, frames, framed, whole⟩ := Framing.framed_of_split cut
      refine ⟨?_, frames, encodes_iff.mpr framed, whole⟩
      have kept := FrameDecoder.incomplete_cases incomplete
      simp only [FrameDecoder.keeping]
      omega
  · intro fault failed
    cases cut : (controlFraming limit).split pieces.flatten with
    | ok => simp [cut, Except.map] at failed
    | error =>
      simp only [cut, Except.map, Except.error.injEq] at failed
      subst failed
      obtain ⟨frames, texts, rest, framed, whole, bad⟩ := Framing.framed_of_split_error cut
      refine ⟨texts, frames, rest, encodes_iff.mpr framed, whole, ?_⟩
      -- The fault is that of the header or, behind an accepted header, that of the text.
      rw [controlFraming_front] at bad
      split at bad
      · simp at bad
      next headed =>
      split at bad
      next refused =>
        rw [Except.error.injEq] at bad
        exact ⟨by omega, .inl ⟨refused, bad.symm⟩⟩
      next accepted =>
      split at bad
      · simp at bad
      next complete =>
      cases decoded : fromUtf8 ((rest.drop 4).take (beU32 rest)) with
      | some => simp [decoded] at bad
      | none =>
        rw [decoded, Except.error.injEq] at bad
        exact ⟨by omega, .inr ⟨by omega, rfl, bad.symm⟩⟩

/-- Two frames cut in the middle of the second are both decoded. -/
theorem controlFrames_exact_pieces :
    ∃ last, FrameDecoder.pushAll ⟨[], none, 16⟩
        [[0, 0, 0, 3, 0x6f, 0x6e, 0x65, 0, 0], [0, 3, 0x74], [0x77, 0x6f]] =
      .ok (last, ["one", "two"]) ∧ last.buffer = [] :=
  (@controlFrames_exact 16 _ rfl _).2.1 ["one", "two"]
    [[0, 0, 0, 3, 0x6f, 0x6e, 0x65], [0, 0, 0, 3, 0x74, 0x77, 0x6f]]
    (.cons (by decide +kernel) (.cons (by decide +kernel) .nil)) (by decide)

end Snolc.Policy
