import Snolc.Noise.Pipe

/-! What a read reports when the lower stream ends, between two records or within one. -/

namespace Snolc.Noise

variable {σ ρ : Type}

/-- Reads at one end, while the lower stream hands out the bytes of a wire. -/
def listener (snow : Snow σ ρ) : System (Wrapped σ ρ × Bytes) (Nat × List IoResult) IoResult where
  step line call :=
    let reported := line.1.read snow call.1 call.2 line.2
    (reported.2, [reported.1.1])

/-- Bytes that are records one after the other, with nothing behind them. -/
def WholeRecords (bytes : Bytes) : Prop :=
  ∃ frames payloads, List.Forall₂ (messageFraming maxCiphertext).Framed frames payloads ∧
    bytes = frames.flatten

theorem wholeRecords_append {frames : List Bytes} {payloads : List Bytes} {data : Bytes}
    (framed : List.Forall₂ (messageFraming maxCiphertext).Framed frames payloads)
    (incomplete : (messageFraming maxCiphertext).front data = .ok none) :
    WholeRecords (frames.flatten ++ data) ↔ data = [] := by
  constructor
  · rintro ⟨others, more, also, same⟩
    -- The stream is cut in one way only, and what is left tells the two apart.
    have empty : (messageFraming maxCiphertext).split [] = .ok ([], []) :=
      Framing.split_of_none rfl
    have first := Framing.split_framed framed data
    have second := Framing.split_framed also []
    rw [List.append_nil, empty] at second
    rw [same, second, Framing.split_of_none incomplete] at first
    simp only [Except.map, Framing.after, Except.ok.injEq, Prod.mk.injEq] at first
    exact first.2.symm
  · rintro rfl
    exact ⟨frames, payloads, framed, List.append_nil _⟩

/-- A read turns to the lower stream: no plaintext is left, and the key may open another record. -/
def Wrapped.Listens (state : Wrapped σ ρ) : Prop :=
  state.plaintext.length ≤ state.plaintextOffset ∧ state.receivedRecords < recordLimit

theorem Wrapped.copyPlaintext_result (state : Wrapped σ ρ) (capacity : Nat) :
    (state.copyPlaintext capacity).1.1 ≠ .eof ∧
      (state.copyPlaintext capacity).2.inbound = state.inbound := by
  unfold copyPlaintext
  split
  · simp
  refine ⟨by simp, ?_⟩
  dsimp only
  split <;> rfl

variable {snow : Snow σ ρ}

theorem Wrapped.read_idle {state : Wrapped σ ρ} (idle : ¬ state.Listens)
    (capacity : Nat) (answers : List IoResult) (wire : Bytes) :
    (state.read snow capacity answers wire).1.1 ≠ .eof ∧
      (state.read snow capacity answers wire).2.1.inbound = state.inbound ∧
      (state.read snow capacity answers wire).2.2 = wire := by
  unfold read
  split
  · obtain ⟨result, inbound⟩ := state.copyPlaintext_result capacity
    exact ⟨result, inbound, rfl⟩
  next nothing =>
  split
  · exact ⟨by simp, rfl, rfl⟩
  next room => exact absurd ⟨Nat.le_of_not_lt nothing, Nat.lt_of_not_le room⟩ idle

theorem Wrapped.read_listens {snow : Snow σ ρ} {state : Wrapped σ ρ} (listens : state.Listens)
    (capacity : Nat) (answers : List IoResult) (wire : Bytes) :
    let frame := readFrame maxCiphertext answers state.inbound wire
    ((state.read snow capacity answers wire).1.1 = .eof ↔ frame.1 = .error .eof) ∧
      (state.read snow capacity answers wire).2.1.inbound = frame.2.1 ∧
      (state.read snow capacity answers wire).2.2 = frame.2.2 := by
  unfold read
  rw [if_neg (Nat.not_lt.mpr listens.1), if_neg (Nat.not_le.mpr listens.2)]
  obtain ⟨result, inbound, left⟩ := readFrame maxCiphertext answers state.inbound wire
  cases result with
  | error fault => cases fault <;> simp
  | ok found =>
    cases found with
    | none => simp
    | some ciphertext =>
      dsimp only
      -- Whatever becomes of the record, the end was not reached.
      cases snow.readMessage state.receiving ciphertext with
      | none => simp
      | some opened =>
        obtain ⟨plaintext, receiving⟩ := opened
        dsimp only
        split
        · simp
        obtain ⟨result, same⟩ := Wrapped.copyPlaintext_result
          { state with
            inbound
            receiving
            receivedRecords := state.receivedRecords + 1
            plaintext
            plaintextOffset := 0 } capacity
        exact ⟨by simp [result], same, rfl⟩

/-- A reader that has refused a length. -/
def FrameReader.Spoiled (reader : FrameReader) : Prop :=
  reader.expected = none ∧ 2 ≤ reader.data.length

theorem FrameReader.Spoiled.readFrame {reader : FrameReader} (spoiled : reader.Spoiled)
    (limit : Nat) (answers : List IoResult) (wire : Bytes) :
    (readFrame limit answers reader wire).1 ≠ .error .eof ∧
      (readFrame limit answers reader wire).2 = (reader, wire) := by
  obtain ⟨unknown, long⟩ := spoiled
  have nothing : reader.take = (none, reader) := by
    simp only [take, unknown]
  have full : reader.remainingCapacity limit = 0 := by
    simp only [remainingCapacity, unknown]
    omega
  rw [Noise.readFrame, nothing]
  cases answers with
  | nil => simp [readLoop]
  | cons => simp [readLoop, full]

/-- What was handed out so far: records, and the beginning of one that the reader keeps. -/
inductive Heard (stream : Bytes) (reader : FrameReader) (wire : Bytes) : Prop
  | reading (frames payloads : List Bytes) (data : Bytes)
      (framed : List.Forall₂ (messageFraming maxCiphertext).Framed frames payloads)
      (handed : stream = frames.flatten ++ (data ++ wire)) (kept : reader = .reading data)
      (incomplete : (messageFraming maxCiphertext).front data = .ok none)
  | refused (spoiled : reader.Spoiled)

variable {stream wire : Bytes}

theorem Heard.readFrame {reader : FrameReader}
    (heard : Heard stream reader wire) (answers : List IoResult) :
    Heard stream (readFrame maxCiphertext answers reader wire).2.1
      (readFrame maxCiphertext answers reader wire).2.2 := by
  cases heard with
  | refused spoiled =>
    rw [(spoiled.readFrame maxCiphertext answers wire).2]
    exact .refused spoiled
  | reading frames payloads data framed handed kept incomplete =>
    subst kept
    rcases @readFrame_outcome maxCiphertext answers data wire incomplete with
      ⟨result, more, left, read, -, together, still⟩ | ⟨message, left, read, found⟩ |
      ⟨more, left, read, -, bad⟩
    · rw [read]
      exact .reading frames payloads more framed (by rw [handed, together]) rfl still
    · -- The frame is complete, and joins those before it.
      obtain ⟨frame, whole, cut⟩ := Framing.framed_of_front found
      rw [read]
      refine .reading (frames ++ [frame]) (payloads ++ [message]) []
        (List.rel_append framed (.cons whole .nil)) ?_ rfl rfl
      rw [handed, cut]
      simp
    · rw [read]
      refine .refused ⟨rfl, ?_⟩
      rw [messageFraming_front] at bad
      split at bad
      · simp at bad
      · exact Nat.le_of_not_lt ‹_›

theorem Heard.read {state : Wrapped σ ρ}
    (heard : Heard stream state.inbound wire) (capacity : Nat) (answers : List IoResult) :
    Heard stream (state.read snow capacity answers wire).2.1.inbound
      (state.read snow capacity answers wire).2.2 := by
  by_cases listens : state.Listens
  · obtain ⟨-, inbound, left⟩ := @Wrapped.read_listens σ ρ snow state listens capacity answers wire
    rw [inbound, left]
    exact heard.readFrame answers
  · obtain ⟨-, inbound, left⟩ := @Wrapped.read_idle σ ρ snow state listens capacity answers wire
    rw [inbound, left]
    exact heard

variable {line : Wrapped σ ρ × Bytes} {history : List IoResult} {start : Wrapped σ ρ}

/-- In every run, what was handed out is heard. -/
theorem run_heard (fresh : start.inbound = {})
    (run : (listener snow).Run (· = (start, stream)) (fun _ _ _ => True) history line) :
    Heard stream line.1.inbound line.2 := by
  refine run.stateInvariant (fun line => Heard stream line.1.inbound line.2) ?_ ?_
  · rintro line rfl
    exact .reading [] [] [] .nil rfl fresh rfl
  · intro _ line call heard _
    exact heard.read call.1 call.2

/--
After any reads, the next one reports the end of the stream exactly when it turns to the lower
stream and that ends, wherever the end is.
All plaintext was delivered then, and the reader is empty exactly when the bytes that the lower
stream has handed out are whole records.
-/
theorem streamEnd_boundary (snow : Snow σ ρ) (fresh : start.inbound = {})
    (run : (listener snow).Run (· = (start, stream)) (fun _ _ _ => True) history line)
    (capacity : Nat) (answers : List IoResult) :
    let reported := line.1.read snow capacity answers line.2
    (reported.1.1 = .eof ↔ line.1.Listens ∧
      (readFrame maxCiphertext answers line.1.inbound line.2).1 = .error .eof) ∧
    (reported.1.1 = .eof → line.1.plaintext.length ≤ line.1.plaintextOffset ∧
      ∃ handed, stream = handed ++ reported.2.2 ∧
        (reported.2.1.inbound = {} ↔ WholeRecords handed)) := by
  dsimp only
  by_cases listens : line.1.Listens
  swap
  · -- Plaintext is left, or the key is worn out.
    obtain ⟨never, -⟩ := @Wrapped.read_idle σ ρ snow line.1 listens capacity answers line.2
    exact ⟨⟨fun ends => absurd ends never, fun ends => absurd ends.1 listens⟩,
      fun ends => absurd ends never⟩
  obtain ⟨ends, inbound, left⟩ :=
    @Wrapped.read_listens σ ρ snow line.1 listens capacity answers line.2
  refine ⟨ends.trans ⟨fun found => ⟨listens, found⟩, And.right⟩, fun reported => ⟨listens.1, ?_⟩⟩
  have found := ends.mp reported
  rw [inbound, left]
  cases run_heard fresh run with
  | refused spoiled =>
    exact absurd found (spoiled.readFrame maxCiphertext answers line.2).1
  | reading frames payloads data framed handed kept incomplete =>
    rw [kept] at found ⊢
    rcases @readFrame_outcome maxCiphertext answers data line.2 incomplete with
      ⟨result, more, left, read, -, together, still⟩ | ⟨message, left, read, -⟩ |
      ⟨more, left, read, -⟩
    · -- The end was found behind the bytes that the reader keeps.
      rw [read]
      refine ⟨frames.flatten ++ more, by rw [handed, ← together, List.append_assoc], ?_⟩
      rw [wholeRecords_append framed still]
      constructor
      · intro empty
        exact congrArg FrameReader.data empty
      · rintro rfl
        rfl
    · rw [read] at found
      cases found
    · rw [read] at found
      cases found

/-- A record of one byte, and the first three bytes of another. -/
def cutWire : Bytes :=
  toBeU16 17 ++ 7 :: List.replicate 16 0 ++ [0, 17, 8]

def justWrapped : Wrapped Nat Nat where
  sending := 0
  receiving := 0

/-- The end of a stream behind a whole record is reported. -/
theorem streamEnd_boundary_whole :
    let line := ((listener tagging).execute ([], justWrapped, cutWire.take 19)
      [(9, [.progress 2, .progress 17])]).2
    let reported := line.1.read tagging 9 [.eof] line.2
    reported.1.1 = .eof ∧
      ∃ handed, cutWire.take 19 = handed ++ reported.2.2 ∧
        (reported.2.1.inbound = {} ↔ WholeRecords handed) := by
  have start : (listener tagging).Run (· = (justWrapped, cutWire.take 19)) (fun _ _ _ => True) []
      (justWrapped, cutWire.take 19) := .start rfl
  have run := start.replay
    (show (listener tagging).admits _ _ [(9, [.progress 2, .progress 17])] = true by decide +kernel)
  have reported := (streamEnd_boundary tagging rfl run 9 [.eof]).2 (by decide +kernel)
  exact ⟨by decide +kernel, reported.2⟩

/-- A stream that is cut within its second record ends like one that is complete. -/
theorem streamEnd_within :
    let line := ((listener tagging).execute ([], justWrapped, cutWire)
      [(9, [.progress 2, .progress 17])]).2
    let reported := line.1.read tagging 9 [.progress 2, .progress 1, .eof] line.2
    reported.1.1 = .eof ∧ reported.2.1.inbound = .reading [0, 17, 8] ∧ reported.2.2 = [] := by
  decide +kernel

end Snolc.Noise
