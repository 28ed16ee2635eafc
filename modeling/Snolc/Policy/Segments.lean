import Snolc.Policy.Flow

/-! Classification of a stream does not depend on how its bytes are cut into reads. -/

namespace Snolc.Policy

open List TcpSniff

variable {bytes pattern : Bytes} {index : Nat} {observed : Observed}

section Stable

theorem position_le (found : position pattern bytes = some index) :
    index + pattern.length ≤ bytes.length := by
  induction bytes generalizing index with
  | nil =>
    -- Only the empty pattern is found in no bytes.
    simp only [position] at found
    split at found
    · next empty =>
      cases found
      simp [isEmpty_iff.mp empty]
    · cases found
  | cons byte bytes ih =>
    simp only [position] at found
    split at found
    · next here =>
      cases found
      simpa using ( isPrefixOf_iff_prefix.mp here).length_le
    · obtain ⟨later, there, rfl⟩ := Option.map_eq_some_iff.mp found
      have inside := ih there
      simp only [length_cons]
      omega

theorem isPrefixOf_append (long : pattern.length ≤ bytes.length) (rest : Bytes) :
    pattern.isPrefixOf (bytes ++ rest) = pattern.isPrefixOf bytes := by
  rw [Bool.eq_iff_iff, isPrefixOf_iff_prefix, isPrefixOf_iff_prefix]
  constructor
  · intro begins
    exact prefix_of_prefix_length_le begins (prefix_append bytes rest) long
  · intro begins
    exact begins.trans (prefix_append bytes rest)

theorem position_append (found : position pattern bytes = some index) (rest : Bytes) :
    position pattern (bytes ++ rest) = some index := by
  induction bytes generalizing index with
  | nil =>
    simp only [position] at found
    split at found
    · next empty =>
      cases found
      cases rest with
      | nil => simp [position, empty]
      | cons => simp [position, isEmpty_iff.mp empty]
    · cases found
  | cons byte bytes ih =>
    have long := position_le found
    simp only [position] at found
    simp only [cons_append, position]
    rw [← cons_append, isPrefixOf_append (by omega) rest]
    split at found
    · next here => rw [if_pos here, found]
    next elsewhere =>
    obtain ⟨later, there, rfl⟩ := Option.map_eq_some_iff.mp found
    rw [if_neg elsewhere, ih there]
    rfl

theorem mem_of_position (found : position pattern bytes = some index) {byte : UInt8}
    (member : byte ∈ pattern) : byte ∈ bytes := by
  induction bytes generalizing index with
  | nil =>
    simp only [position] at found
    split at found
    · next empty => simp [isEmpty_iff.mp empty] at member
    · cases found
  | cons head bytes ih =>
    simp only [position] at found
    split at found
    · next here => exact ( isPrefixOf_iff_prefix.mp here).mem member
    · obtain ⟨later, there, _⟩ := Option.map_eq_some_iff.mp found
      exact mem_cons_of_mem _ (ih there)

theorem beU16_append {offset value : Nat} (found : beU16 bytes offset = some value) (rest : Bytes) :
    beU16 (bytes ++ rest) offset = some value := by
  unfold beU16 at found ⊢
  split at found
  · next high low others there =>
    cases found
    have inside : offset ≤ bytes.length := by
      have long := congrArg List.length there
      simp only [length_drop, length_cons] at long
      omega
    rw [drop_append_of_le_length inside, there]
    rfl
  · cases found

theorem classifyTls_append (decided : classifyTls bytes false = .complete observed) (rest : Bytes)
    (complete : Bool) : classifyTls (bytes ++ rest) complete = .complete observed := by
  unfold classifyTls at decided ⊢
  cases record : beU16 bytes 3 with
  | none => simp [record, incomplete] at decided
  | some length =>
    rw [record] at decided
    rw [beU16_append record rest]
    dsimp only at decided ⊢
    by_cases short : bytes.length < 5 + length
    · simp [short, incomplete] at decided
    have within : ¬ (bytes ++ rest).length < 5 + length := by
      simp only [length_append]
      omega
    rw [if_neg short] at decided
    rw [if_neg within, take_append_of_le_length (by omega)]
    exact decided

theorem classifyHttp_append (decided : classifyHttp bytes false = .complete observed)
    (rest : Bytes) (complete : Bool) :
    classifyHttp (bytes ++ rest) complete = .complete observed := by
  unfold classifyHttp at decided ⊢
  cases found : position [13, 10, 13, 10] bytes with
  | none => simp [found, incomplete] at decided
  | some =>
    have inside := position_le found
    simp only [length_cons, length_nil] at inside
    rw [found] at decided
    rw [position_append found rest]
    dsimp only at decided ⊢
    rw [take_append_of_le_length (by omega)]
    exact decided

/-- The request methods the classifier knows. -/
def httpMethods : List String :=
  ["GET ", "POST ", "PUT ", "HEAD ", "DELETE ", "OPTIONS ", "PATCH ", "TRACE ", "CONNECT "]

theorem looksLikeHttp_iff :
    looksLikeHttp bytes = true ↔
      ∃ method ∈ httpMethods, bytes <+: toUtf8 method ∨ toUtf8 method <+: bytes := by
  simp only [looksLikeHttp, any_eq_true, Bool.or_eq_true, isPrefixOf_iff_prefix]
  rfl

theorem httpMethods_short :
    ∀ method ∈ httpMethods, (toUtf8 method).length ≤ 8 ∧ 13 ∉ toUtf8 method := by
  decide +kernel

theorem looksLikeHttp_append {stop : Nat} (http : looksLikeHttp bytes = true)
    (ended : position [13, 10, 13, 10] bytes = some stop) (rest : Bytes) :
    looksLikeHttp (bytes ++ rest) = true := by
  obtain ⟨method, known, part | whole⟩ := looksLikeHttp_iff.mp http
  · -- A part of a method has no carriage return.
    have inside : 13 ∈ bytes := mem_of_position ended (by simp)
    exact absurd (part.mem inside) (httpMethods_short method known).2
  · exact looksLikeHttp_iff.mpr ⟨method, known, .inr (whole.trans (prefix_append _ _))⟩

theorem not_looksLikeHttp_append (other : looksLikeHttp bytes = false) (long : 8 ≤ bytes.length)
    (rest : Bytes) : looksLikeHttp (bytes ++ rest) = false := by
  rw [Bool.eq_false_iff] at other ⊢
  intro http
  obtain ⟨method, known, part | whole⟩ := looksLikeHttp_iff.mp http
  · exact other (looksLikeHttp_iff.mpr
      ⟨method, known, .inl ((prefix_append _ _).trans part)⟩)
  · have short := (httpMethods_short method known).1
    exact other (looksLikeHttp_iff.mpr ⟨method, known,
      .inr (prefix_of_prefix_length_le whole (prefix_append _ _) (by omega))⟩)

theorem head_of_ssh (begins : (toUtf8 "SSH-").isPrefixOf bytes = true) : bytes.head? = some 83 := by
  have letters : toUtf8 "SSH-" = [83, 83, 72, 45] := by decide +kernel
  rw [letters] at begins
  obtain ⟨rest, rfl⟩ := isPrefixOf_iff_prefix.mp begins
  rfl

theorem classifyTcp_other {complete : Bool} (noVersion : (toUtf8 "SSH-").isPrefixOf bytes = false)
    (noRecord : bytes.head? ≠ some 0x16) :
    classifyTcp bytes complete =
      if looksLikeHttp bytes then classifyHttp bytes complete
      else if complete ∨ bytes.length ≥ 8 then .complete .unknown
      else .needMore := by
  rw [classifyTcp, if_neg (by simp [noVersion]), if_neg noRecord]

/-- What the first bytes show, more bytes do not change. -/
theorem classifyTcp_append (decided : classifyTcp bytes false = .complete observed) (rest : Bytes)
    (complete : Bool) : classifyTcp (bytes ++ rest) complete = .complete observed := by
  have letters : (toUtf8 "SSH-").length = 4 := by decide +kernel
  cases version : (toUtf8 "SSH-").isPrefixOf bytes with
  | true =>
    -- A version line is complete with its line end.
    rw [classifyTcp, if_pos version] at decided
    split at decided
    · next line =>
      obtain ⟨index, found⟩ := Option.isSome_iff_exists.mp line
      have still : (toUtf8 "SSH-").isPrefixOf (bytes ++ rest) = true :=
        isPrefixOf_iff_prefix.mpr
          (( isPrefixOf_iff_prefix.mp version).trans (prefix_append _ _))
      rw [classifyTcp, if_pos still, if_pos (by simp [position_append found rest])]
      exact decided
    · cases decided
  | false =>
    by_cases record : bytes.head? = some 0x16
    · -- The first byte of a record is not that of a version line.
      rw [classifyTcp, if_neg (by simp [version]), if_pos record] at decided
      have same : (bytes ++ rest).head? = some 0x16 := by
        simp [List.head?_append, record]
      have still : ¬ (toUtf8 "SSH-").isPrefixOf (bytes ++ rest) = true := by
        intro begins
        rw [head_of_ssh begins] at same
        cases same
      rw [classifyTcp, if_neg still, if_pos same]
      exact classifyTls_append decided rest complete
    · rw [classifyTcp_other version record] at decided
      -- In both cases at least four bytes are there, so the first two tests fail again.
      have others : 4 ≤ bytes.length → classifyTcp (bytes ++ rest) complete =
          if looksLikeHttp (bytes ++ rest) then classifyHttp (bytes ++ rest) complete
          else if complete ∨ (bytes ++ rest).length ≥ 8 then .complete .unknown
          else .needMore := by
        intro long
        refine classifyTcp_other ?_ ?_
        · rw [isPrefixOf_append (by omega), version]
        cases bytes with
        | nil => simp at long
        | cons => simpa using record
      cases http : looksLikeHttp bytes with
      | true =>
        rw [if_pos http] at decided
        cases found : position [13, 10, 13, 10] bytes with
        | none => simp [classifyHttp, found, incomplete] at decided
        | some =>
          have inside := position_le found
          simp only [length_cons, length_nil] at inside
          rw [others (by omega), if_pos (looksLikeHttp_append http found rest)]
          exact classifyHttp_append decided rest complete
      | false =>
        rw [if_neg (by simp [http])] at decided
        split at decided
        · next long =>
          have long : 8 ≤ bytes.length := by simpa using long
          have enough : 8 ≤ (bytes ++ rest).length := by
            simp only [length_append]
            omega
          rw [others (by omega), if_neg (by simp [not_looksLikeHttp_append http long rest]),
            if_pos (.inr enough)]
          exact decided
        · cases decided

end Stable

/-- The verdict on a stream, once enough of it is there. -/
def SniffPolicy.verdict (policy : SniffPolicy) (stream : Bytes) (ended : Bool) : Option Bool :=
  match classifyTcp (stream.take policy.maxBytes)
      (ended || decide (policy.maxBytes ≤ stream.length)) with
  | .complete observed => some (observedAllowed policy observed)
  | .needMore => none

/--
The reads of one poll that hand out a stream piece by piece.

Each piece has at least one byte and fits the buffer; a stream that has been handed out ends or has
nothing to say yet.
-/
def pieces (maxBytes : Nat) (ended : Bool) :
    Bytes → Nat → List (Nat × Nat) → List (Nat × ReadOutcome)
  | _, _, [] => []
  | [], _, (instant, _) :: _ => [(instant, if ended then .bytes [] else .pending)]
  | byte :: stream, held, (instant, size) :: sizes =>
    let piece := (byte :: stream).take (min (size + 1) (min (maxBytes - held) 1024))
    (instant, .bytes piece) ::
      pieces maxBytes ended ((byte :: stream).drop piece.length) (held + piece.length) sizes

/-- One poll as the stream sees it: the clock before each read with the size of its piece. -/
structure SniffPoll where
  sizes : List (Nat × Nat)
  lastInstant : Nat
  deriving DecidableEq, Repr

/-- Polls one after another, until there is a verdict. -/
def TcpSniff.session (ended : Bool) :
    TcpSniff → Bytes → List SniffPoll → TcpSniff × Poll (Except FlowError Unit)
  | sniff, _, [] => (sniff, .pending)
  | sniff, stream, poll :: polls =>
    match sniff.collect poll.lastInstant
        (pieces sniff.policy.maxBytes ended stream sniff.prefixBytes.length poll.sizes) with
    | (next, .pending) =>
      next.session ended (stream.drop (next.prefixBytes.length - sniff.prefixBytes.length)) polls
    | decided => decided

/-- How a verdict is told. -/
def gateOf (allowed : Bool) : Poll (Except FlowError Unit) :=
  if allowed then .ready (.ok ()) else .ready (.error .denied)

def SniffPoll.Before (deadline : Nat) (poll : SniffPoll) : Prop :=
  poll.lastInstant < deadline ∧ ∀ piece ∈ poll.sizes, piece.1 < deadline

instance (deadline : Nat) (poll : SniffPoll) : Decidable (poll.Before deadline) :=
  inferInstanceAs (Decidable (_ ∧ _))

section Sessions

variable {sniff : TcpSniff} {stream whole : Bytes} {ended : Bool} {observed : Observed}

theorem decide_gate (sniff : TcpSniff) (observed : Observed) :
    (sniff.decide observed).2 = gateOf (observedAllowed sniff.policy observed) := by
  unfold TcpSniff.decide gateOf
  split <;> rfl

theorem classify_before {instant : Nat} (early : instant < sniff.deadline) :
    sniff.classify instant =
      classifyTcp sniff.prefixBytes
        (decide (sniff.policy.maxBytes ≤ sniff.prefixBytes.length)) := by
  have running : decide (instant ≥ sniff.deadline) = false := decide_eq_false (by omega)
  rw [classify, running, Bool.or_false]

theorem needMore_short
    (waits : classifyTcp sniff.prefixBytes
      (decide (sniff.policy.maxBytes ≤ sniff.prefixBytes.length)) = .needMore) :
    sniff.prefixBytes.length < sniff.policy.maxBytes ∧
      classifyTcp sniff.prefixBytes false = .needMore := by
  by_cases full : sniff.policy.maxBytes ≤ sniff.prefixBytes.length
  · rw [decide_eq_true full] at waits
    exact absurd waits (classifyTcp_complete _)
  · rw [decide_eq_false full] at waits
    exact ⟨by omega, waits⟩

theorem verdict_of_held (split : sniff.prefixBytes ++ stream = whole)
    (short : sniff.prefixBytes.length ≤ sniff.policy.maxBytes)
    (decided : classifyTcp sniff.prefixBytes
      (decide (sniff.policy.maxBytes ≤ sniff.prefixBytes.length)) = .complete observed) :
    sniff.policy.verdict whole ended = some (observedAllowed sniff.policy observed) := by
  subst split
  by_cases full : sniff.policy.maxBytes ≤ sniff.prefixBytes.length
  · -- No more bytes are looked at than are held back.
    have exact : sniff.policy.maxBytes = sniff.prefixBytes.length := by omega
    rw [decide_eq_true full] at decided
    have seen : (sniff.prefixBytes ++ stream).take sniff.policy.maxBytes = sniff.prefixBytes := by
      rw [exact, take_left]
    have long : sniff.policy.maxBytes ≤ (sniff.prefixBytes ++ stream).length := by
      simp only [length_append]
      omega
    rw [SniffPolicy.verdict, seen, decide_eq_true long, Bool.or_true, decided]
  · rw [decide_eq_false full] at decided
    have seen : (sniff.prefixBytes ++ stream).take sniff.policy.maxBytes =
        sniff.prefixBytes ++ stream.take (sniff.policy.maxBytes - sniff.prefixBytes.length) := by
      rw [take_append, take_of_length_le (by omega)]
    rw [SniffPolicy.verdict, seen, classifyTcp_append decided]

theorem verdict_at_end (short : sniff.prefixBytes.length ≤ sniff.policy.maxBytes)
    (decided : classifyTcp sniff.prefixBytes true = .complete observed) :
    sniff.policy.verdict sniff.prefixBytes true =
      some (observedAllowed sniff.policy observed) := by
  rw [SniffPolicy.verdict, take_of_length_le short, Bool.true_or, decided]

/--
What one poll comes to: the verdict on the stream, or bytes that do not decide it.

The held back bytes and the rest of the stream make up the whole stream before and after.
-/
def TcpSniff.Reaches (sniff : TcpSniff) (stream whole : Bytes) (ended : Bool)
    (result : TcpSniff × Poll (Except FlowError Unit)) : Prop :=
  (∃ allowed, sniff.policy.verdict whole ended = some allowed ∧ result.2 = gateOf allowed) ∨
    ∃ more rest, stream = more ++ rest ∧
      result = ({ sniff with prefixBytes := sniff.prefixBytes ++ more }, .pending) ∧
      (sniff.prefixBytes ++ more).length < sniff.policy.maxBytes ∧
      classifyTcp (sniff.prefixBytes ++ more) false = .needMore

theorem TcpSniff.Reaches.waits (room : sniff.prefixBytes.length < sniff.policy.maxBytes)
    (waits : classifyTcp sniff.prefixBytes false = .needMore) :
    sniff.Reaches stream whole ended (sniff, .pending) :=
  .inr ⟨[], stream, rfl, by simp, by simpa using room, by simpa using waits⟩

/-- What is reached with a piece of the stream held back is reached without it. -/
theorem TcpSniff.Reaches.extend {piece rest : Bytes} {result : TcpSniff × Poll (Except FlowError Unit)}
    (front : stream = piece ++ rest)
    (later : TcpSniff.Reaches { sniff with prefixBytes := sniff.prefixBytes ++ piece } rest whole ended
      result) : sniff.Reaches stream whole ended result := by
  rcases later with decided | ⟨more, rest, cut, pending, room, waits⟩
  · exact .inl decided
  refine .inr ⟨piece ++ more, rest, ?_, ?_, ?_, ?_⟩
  · rw [append_assoc, ← cut, ← front]
  · rw [pending]
    simp
  · simpa using room
  · simpa using waits

/-- Where the held back bytes decide, the verdict is reached. -/
theorem reaches_classified {instant : Nat} {next : TcpSniff × Poll (Except FlowError Unit)}
    (early : instant < sniff.deadline) (split : sniff.prefixBytes ++ stream = whole)
    (short : sniff.prefixBytes.length ≤ sniff.policy.maxBytes)
    (goes : sniff.prefixBytes.length < sniff.policy.maxBytes →
      classifyTcp sniff.prefixBytes false = .needMore → sniff.Reaches stream whole ended next) :
    sniff.Reaches stream whole ended
      (match sniff.classify instant with
      | .complete observed => sniff.decide observed
      | .needMore => next) := by
  rw [classify_before early]
  split
  · next observed decided =>
    exact .inl ⟨_, verdict_of_held split short decided, decide_gate sniff observed⟩
  · next waits =>
    obtain ⟨room, waits⟩ := needMore_short waits
    exact goes room waits

/-- At the end of the stream everything is held back. -/
theorem reaches_end (short : sniff.prefixBytes.length ≤ sniff.policy.maxBytes) :
    sniff.Reaches [] sniff.prefixBytes true
      (match classifyTcp sniff.prefixBytes true with
      | .complete observed => sniff.decide observed
      | .needMore => sniff.decide .unknown) := by
  split
  · next observed decided =>
    exact .inl ⟨_, verdict_at_end short decided, decide_gate sniff observed⟩
  · next undecided => exact absurd undecided (classifyTcp_complete _)

theorem collect_pieces {sizes : List (Nat × Nat)} {lastInstant : Nat}
    (early : lastInstant < sniff.deadline) (earlier : ∀ piece ∈ sizes, piece.1 < sniff.deadline)
    (split : sniff.prefixBytes ++ stream = whole)
    (short : sniff.prefixBytes.length ≤ sniff.policy.maxBytes) :
    sniff.Reaches stream whole ended (sniff.collect lastInstant
      (pieces sniff.policy.maxBytes ended stream sniff.prefixBytes.length sizes)) := by
  -- The induction is on the pieces; each one that is read moves bytes into the held back ones.
  induction sizes generalizing sniff stream with
  | nil => exact reaches_classified early split short .waits
  | cons piece sizes ih =>
    obtain ⟨instant, size⟩ := piece
    have now : instant < sniff.deadline := earlier (instant, size) (by simp)
    cases stream with
    | nil =>
      refine reaches_classified now split short fun room waits => ?_
      rw [if_neg (by omega)]
      cases ended with
      | false => exact .waits room waits
      | true =>
        rw [append_nil] at split
        subst split
        simp only [if_true, take_nil]
        exact reaches_end short
    | cons byte stream =>
      refine reaches_classified now split short fun room waits => ?_
      rw [if_neg (by omega)]
      dsimp only
      generalize taken : (byte :: stream).take (min (size + 1)
        (min (sniff.policy.maxBytes - sniff.prefixBytes.length) 1024)) = piece
      -- The piece is not empty, fits the buffer, and is the front of the stream.
      have length : piece.length = min (min (size + 1)
          (min (sniff.policy.maxBytes - sniff.prefixBytes.length) 1024)) (stream.length + 1) := by
        rw [← taken, length_take, length_cons]
      have front : byte :: stream = piece ++ (byte :: stream).drop piece.length := by
        rw [prefix_iff_eq_append.mp (taken ▸ take_prefix _ _)]
      rw [take_of_length_le (by omega)]
      cases piece with
      | nil =>
        rw [length_nil] at length
        omega
      | cons head tail =>
        have fits : (sniff.prefixBytes ++ head :: tail).length ≤ sniff.policy.maxBytes := by
          rw [length_append]
          omega
        have joined : (sniff.prefixBytes ++ head :: tail) ++
            (byte :: stream).drop (head :: tail).length = whole := by
          rw [append_assoc, ← front, split]
        have later := @ih { sniff with prefixBytes := sniff.prefixBytes ++ head :: tail } _
          early (fun other member => earlier other (by simp [member])) joined fits
        rw [length_append] at later
        exact later.extend front

/-- Polls one after another come to the verdict on the stream, or to bytes that do not decide it. -/
theorem session_verdict {polls : List SniffPoll}
    (early : ∀ poll ∈ polls, poll.Before sniff.deadline)
    (split : sniff.prefixBytes ++ stream = whole)
    (short : sniff.prefixBytes.length ≤ sniff.policy.maxBytes) :
    (∃ allowed, sniff.policy.verdict whole ended = some allowed ∧
        (sniff.session ended stream polls).2 = gateOf allowed) ∨
      (sniff.session ended stream polls).2 = .pending ∧
        (sniff.session ended stream polls).1.prefixBytes <+: whole ∧
        (polls ≠ [] → classifyTcp (sniff.session ended stream polls).1.prefixBytes false =
          .needMore) := by
  -- The induction is on the polls; a poll without a verdict leaves more bytes held back.
  induction polls generalizing sniff stream with
  | nil => exact .inr ⟨rfl, ⟨stream, split⟩, by simp⟩
  | cons poll polls ih =>
    obtain ⟨last, before⟩ := early poll (by simp)
    rcases collect_pieces last before split short with
      ⟨allowed, verdict, gate⟩ | ⟨more, rest, cut, pending, room, waits⟩
    · left
      refine ⟨allowed, verdict, ?_⟩
      rw [session]
      split
      · next decided =>
        -- A verdict is not pending.
        rw [decided] at gate
        simp only [gateOf] at gate
        split at gate <;> cases gate
      · exact gate
    · have behind : stream.drop ((sniff.prefixBytes ++ more).length - sniff.prefixBytes.length) =
          rest := by
        rw [cut, length_append, Nat.add_sub_cancel_left, drop_left]
      have joined : (sniff.prefixBytes ++ more) ++ rest = whole := by
        rw [append_assoc, ← cut, split]
      rw [session, pending]
      dsimp only
      rw [behind]
      have later := @ih { sniff with prefixBytes := sniff.prefixBytes ++ more } rest
        (fun other member => early other (by simp [member])) joined (Nat.le_of_lt room)
      rcases later with decided | ⟨still, part, open_⟩
      · exact .inl decided
      refine .inr ⟨still, part, fun _ => ?_⟩
      cases polls with
      | nil => exact waits
      | cons => exact open_ (by simp)

end Sessions

/--
Classification does not depend on segmentation: what the first bytes show stays what all bytes show,
and every way of handing out a stream in pieces before the deadline leads to the same verdict.

Polls without a verdict hold back bytes of the stream that do not decide it.
-/
theorem sniffing_unsegmented :
    (∀ first whole complete observed, first <+: whole →
        classifyTcp first false = .complete observed →
        classifyTcp whole complete = .complete observed) ∧
      ∀ policy deadline stream ended polls, (∀ poll ∈ polls, SniffPoll.Before deadline poll) →
        (∃ allowed, policy.verdict stream ended = some allowed ∧
            (TcpSniff.session ended ⟨policy, [], deadline, false⟩ stream polls).2 =
              gateOf allowed) ∨
          (TcpSniff.session ended ⟨policy, [], deadline, false⟩ stream polls).2 = .pending ∧
            (TcpSniff.session ended ⟨policy, [], deadline, false⟩ stream polls).1.prefixBytes <+:
              stream ∧
            (polls ≠ [] → classifyTcp
              (TcpSniff.session ended ⟨policy, [], deadline, false⟩ stream polls).1.prefixBytes
                false = .needMore) := by
  constructor
  · rintro first whole complete observed ⟨rest, rfl⟩ decided
    exact classifyTcp_append decided rest complete
  · intro policy deadline stream ended polls early
    exact @session_verdict ⟨policy, [], deadline, false⟩ stream stream ended polls early rfl
      (Nat.zero_le _)

/-- Rules that allow what is not known. -/
def allowUnknown : SniffPolicy where
  entries := []
  terminal := .allow
  unknown := .allow
  maxBytes := 64
  timeout := 100

def versionLine : Bytes :=
  [83, 83, 72, 45, 50, 13, 10]

/-- A stream in two pieces, with a poll that finds nothing between them. -/
def twoPieces : List SniffPoll :=
  [⟨[(0, 2)], 1⟩, ⟨[], 2⟩, ⟨[(3, 20)], 4⟩]

/-- A version line in two pieces is allowed like the whole line. -/
theorem sniffing_unsegmented_version :
    (∀ poll ∈ twoPieces, SniffPoll.Before 100 poll) ∧
      ∃ allowed, allowUnknown.verdict versionLine false = some allowed ∧
        (TcpSniff.session false ⟨allowUnknown, [], 100, false⟩ versionLine twoPieces).2 =
          gateOf allowed := by
  have early : ∀ poll ∈ twoPieces, SniffPoll.Before 100 poll := by decide
  refine ⟨early, ?_⟩
  rcases sniffing_unsegmented.2 allowUnknown 100 versionLine false twoPieces early with
    decided | ⟨pending, _⟩
  · exact decided
  · exact absurd pending (by decide +kernel)

end Snolc.Policy
