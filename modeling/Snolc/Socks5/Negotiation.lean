import Mathlib.Data.List.Induction
import Snolc.Socks5.Client
import Snolc.Socks5.Codec

/-! Negotiation of a client over any number of polls, and the bytes behind its request. -/

namespace Snolc.Socks5

open List ClientConnection

/-- The message at the front of the input and what follows it, once the message is complete. -/
def front (length : Bytes → Option Nat) (input : Bytes) : Option (Bytes × Bytes) :=
  match length input with
  | none => none
  | some count =>
    if input.length < count then none else some (input.take count, input.drop count)

variable {input message rest greeting bytes : Bytes}

theorem front_eq_some {length : Bytes → Option Nat} : front length input = some (message, rest) ↔
      input = message ++ rest ∧ length input = some message.length := by
  constructor
  · intro found
    unfold front at found
    split at found
    · cases found
    next count known =>
    split at found
    · cases found
    next reaches =>
    cases found
    exact ⟨(take_append_drop _ _).symm, by rw [known, length_take]; congr 1; omega⟩
  · rintro ⟨rfl, known⟩
    simp [front, known]

/-- How long a greeting is, once its first bytes say so. -/
def greetingLength : Bytes → Option Nat
  | _ :: methods :: _ => some (2 + methods.toNat)
  | _ => none

variable {count limit : Nat}

theorem greetingLength_append (more : Bytes)
    (known : greetingLength input = some count) : greetingLength (input ++ more) = some count := by
  match input, known with
  | _ :: _ :: _, known => exact known

theorem requestLength_append (more : Bytes)
    (known : requestLength input = some count) : requestLength (input ++ more) = some count := by
  match input, known with
  | [], known | [_], known | [_, _], known | [_, _, _], known => cases known
  | [_, _, _, kind], known =>
    -- The fifth byte is missing, so the request has no name and is as long as its type says.
    simp only [requestLength, cons_append, List.getElem?_cons_succ, List.getElem?_cons_zero,
      List.getElem?_nil, Option.map_none] at known ⊢
    split at known <;> simp_all
  | _ :: _ :: _ :: _ :: _ :: _, known => exact known

theorem front_append {length : Bytes → Option Nat}
    (stable : ∀ input count more, length input = some count →
      length (input ++ more) = some count) (found : front length input = some (message, rest))
    (more : Bytes) : front length (input ++ more) = some (message, rest ++ more) := by
  obtain ⟨rfl, known⟩ := front_eq_some.mp found
  exact front_eq_some.mpr ⟨by simp, stable _ _ _ known⟩

/-- A greeting that offers no authentication. -/
def Greets : Bytes → Prop
  | version :: count :: methods => version = 5 ∧ count.toNat = methods.length ∧ 0 ∈ methods
  | _ => False

instance (greeting : Bytes) : Decidable (Greets greeting) :=
  match greeting with
  | version :: count :: methods =>
    inferInstanceAs (Decidable (version = 5 ∧ count.toNat = methods.length ∧ 0 ∈ methods))
  | [] | [_] => isFalse id

theorem Greets.length (greets : Greets greeting) (rest : Bytes) :
    greetingLength (greeting ++ rest) = some greeting.length := by
  match greeting, greets with
  | _ :: count :: methods, ⟨_, count', _⟩ =>
    simp [greetingLength, count']
    omega

theorem writeAll_offset (answers : List Sent) {offset : Nat} (within : offset ≤ bytes.length) :
    offset ≤ (writeAll bytes answers offset).2 ∧
      (writeAll bytes answers offset).2 ≤ bytes.length ∧
      ((writeAll bytes answers offset).1 = .done →
        (writeAll bytes answers offset).2 = bytes.length) := by
  induction answers generalizing offset with
  | nil =>
    simp only [writeAll]
    split <;> simp <;> omega
  | cons answer answers ih =>
    unfold writeAll
    split
    · cases answer with
      | taken count =>
        dsimp only
        split
        · simp
          omega
        · obtain ⟨least, rest⟩ := @ih (offset + min count (bytes.length - offset)) (by omega)
          exact ⟨by omega, rest⟩
      | _ =>
        simp
        omega
    · simp
      omega

namespace ClientConnection

variable {connection : ClientConnection}

/-- The connection behind a greeting that was accepted. -/
def greeted (connection : ClientConnection) (rest : Bytes) : ClientConnection :=
  { { connection with input := rest }.queue [5, 0] with phase := .request }

@[simp] theorem queue_input (bytes : Bytes) :
    (connection.queue bytes).input = connection.input := by
  unfold queue
  split <;> rfl

@[simp] theorem greeted_input (rest : Bytes) : (connection.greeted rest).input = rest := by
  simp [greeted]

theorem parseGreeting_eq (connection : ClientConnection) :
    connection.parseGreeting =
      match front greetingLength connection.input with
      | none => connection
      | some (greeting, rest) =>
        if Greets greeting then connection.greeted rest
        else { connection.queue [5, 0xff] with phase := .failed } := by
  unfold parseGreeting front
  match input : connection.input with
  | [] => rfl
  | [_] => rfl
  | version :: methods :: offered =>
    simp only [greetingLength, ← input]
    by_cases short : connection.input.length < 2 + methods.toNat
    · simp [short]
    simp only [if_neg short]
    have size : (offered.take methods.toNat).length = methods.toNat := by
      rw [input] at short
      simp at short ⊢
      omega
    have greets : Greets (connection.input.take (2 + methods.toNat)) ↔
        ¬ (version ≠ 5 ∨ 0 ∉ offered.take methods.toNat) := by
      rw [input, Nat.add_comm]
      simp only [take_succ_cons, Greets, size]
      tauto
    by_cases refused : version ≠ 5 ∨ 0 ∉ offered.take methods.toNat
    · rw [if_pos refused, if_neg (by rw [greets]; exact not_not.mpr refused)]
    · rw [if_neg refused, if_pos (greets.mpr refused), greeted]

theorem parseBody_eq (connection : ClientConnection) :
    connection.parseBody =
      match front requestLength connection.input with
      | none => connection
      | some (body, rest) =>
        match parseRequest body with
        | .ok request => { connection with input := rest, phase := .ready request }
        | .error _ => { connection.queue (socksResponse 1) with phase := .failed } := by
  unfold parseBody front
  cases requestLength connection.input with
  | none => rfl
  | some =>
    dsimp only
    split <;> rfl

/-- More input. -/
def receive (connection : ClientConnection) (bytes : Bytes) : ClientConnection :=
  { connection with input := connection.input ++ bytes }

theorem fail_receive (reply more : Bytes) :
    { connection.queue reply with phase := .failed }.receive more =
      { (connection.receive more).queue reply with phase := .failed } := by
  unfold queue receive
  dsimp only
  split <;> rfl

theorem parse_of_request (waits : connection.phase = .request) :
    connection.parse = connection.parseBody := by
  simp [parse, waits]

theorem parse_of_done (greeted : connection.phase ≠ .greeting)
    (read : connection.phase ≠ .request) : connection.parse = connection := by
  simp [parse, greeted, read]

theorem parse_of_greeting (waits : connection.phase = .greeting) :
    connection.parse =
      match front greetingLength connection.input with
      | none => connection
      | some (greeting, rest) =>
        if Greets greeting then (connection.greeted rest).parseBody
        else { connection.queue [5, 0xff] with phase := .failed } := by
  simp only [parse, if_pos waits, parseGreeting_eq]
  split
  · simp [waits]
  · split <;> rfl

theorem parseBody_receive (more : Bytes) (waits : connection.phase = .request) :
    (connection.parseBody.receive more).parse = (connection.receive more).parseBody := by
  rw [parseBody_eq connection]
  cases found : front requestLength connection.input with
  | none => exact parse_of_request waits
  | some split =>
    obtain ⟨body, rest⟩ := split
    have later : front requestLength (connection.receive more).input = some (body, rest ++ more) :=
      front_append (fun _ _ more => requestLength_append more) found more
    rw [parseBody_eq (connection.receive more), later]
    dsimp only
    split
    · rfl
    · rw [fail_receive]
      rfl

theorem parse_receive (connection : ClientConnection) (more : Bytes) :
    (connection.parse.receive more).parse = (connection.receive more).parse := by
  cases phase : connection.phase with
  | greeting =>
    rw [parse_of_greeting phase]
    cases found : front greetingLength connection.input with
    | none => rfl
    | some split =>
      obtain ⟨greeting, rest⟩ := split
      have later : front greetingLength (connection.receive more).input =
          some (greeting, rest ++ more) :=
        front_append (fun _ _ more => greetingLength_append more) found more
      rw [parse_of_greeting (show (connection.receive more).phase = .greeting from phase), later]
      dsimp only
      split
      · rw [parseBody_receive more rfl]
        unfold greeted receive queue
        dsimp only
        split <;> rfl
      · rw [fail_receive]
        rfl
  | request =>
    rw [parse_of_request phase, parseBody_receive more phase]
    exact (parse_of_request (show (connection.receive more).phase = .request from phase)).symm
  | ready | failed =>
    have done : connection.parse = connection := parse_of_done (by simp [phase]) (by simp [phase])
    rw [done]

/-- The replies that are still to be written. -/
def unsent (connection : ClientConnection) : Bytes :=
  connection.output.drop connection.outputOffset

/-- The bytes one attempt to write puts on the stream. -/
def written (connection : ClientConnection) (answers : List Sent) : Bytes :=
  (connection.output.take (writeAll connection.output answers connection.outputOffset).2).drop
    connection.outputOffset

/-- A connection that writes stands where one that keeps all its replies stands. -/
structure Mirrors (sent : Bytes) (connection whole : ClientConnection) : Prop where
  phase : connection.phase = whole.phase
  input : connection.input = whole.input
  replies : sent ++ connection.unsent = whole.output
  offset : connection.outputOffset ≤ connection.output.length
  start : whole.outputOffset = 0

namespace Mirrors

variable {sent : Bytes} {whole : ClientConnection}

variable (mirrors : Mirrors sent connection whole)
include mirrors

theorem queue (bytes : Bytes) (phase : ClientPhase) :
    Mirrors sent { connection.queue bytes with phase } { whole.queue bytes with phase } := by
  have replies := mirrors.replies
  have offset := mirrors.offset
  have queued : (connection.queue bytes).unsent = connection.unsent ++ bytes ∧
      (connection.queue bytes).outputOffset ≤ (connection.queue bytes).output.length ∧
      (connection.queue bytes).input = connection.input := by
    unfold ClientConnection.queue
    split
    · next drained => simp [unsent, drained]
    refine ⟨drop_append_of_le_length offset, ?_, rfl⟩
    simp only [length_append]
    omega
  have kept : (whole.queue bytes).output = whole.output ++ bytes ∧
      (whole.queue bytes).outputOffset = 0 ∧ (whole.queue bytes).input = whole.input := by
    unfold ClientConnection.queue
    rw [mirrors.start]
    split
    · next empty => simp [length_eq_zero_iff.mp empty.symm]
    · exact ⟨rfl, rfl, rfl⟩
  refine ⟨rfl, ?_, ?_, queued.2.1, kept.2.1⟩
  · exact queued.2.2.trans (mirrors.input.trans kept.2.2.symm)
  · exact (congrArg (sent ++ ·) queued.1).trans (by rw [kept.1, ← replies, append_assoc])

theorem parseBody : Mirrors sent connection.parseBody whole.parseBody := by
  rw [parseBody_eq, parseBody_eq, mirrors.input]
  split
  · exact mirrors
  split
  · exact ⟨rfl, rfl, mirrors.replies, mirrors.offset, mirrors.start⟩
  · exact mirrors.queue _ _

theorem parse : Mirrors sent connection.parse whole.parse := by
  have same := mirrors.phase
  cases phase : whole.phase with
  | greeting =>
    rw [phase] at same
    rw [parse_of_greeting phase, parse_of_greeting same, mirrors.input]
    split
    · exact mirrors
    next greeting rest _ =>
    split
    · have taken : Mirrors sent { connection with input := rest } { whole with input := rest } :=
        ⟨mirrors.phase, rfl, mirrors.replies, mirrors.offset, mirrors.start⟩
      exact (taken.queue [5, 0] .request).parseBody
    · exact mirrors.queue _ _
  | request =>
    rw [phase] at same
    rw [parse_of_request phase, parse_of_request same]
    exact mirrors.parseBody
  | _ =>
    rw [parse_of_done (by simp [same, phase]) (by simp [same, phase]),
      parse_of_done (by simp [phase]) (by simp [phase])]
    exact mirrors

theorem receive (bytes : Bytes) : Mirrors sent (connection.receive bytes) (whole.receive bytes) :=
  ⟨mirrors.phase, by simp [ClientConnection.receive, mirrors.input], mirrors.replies,
    mirrors.offset, mirrors.start⟩

theorem write {answers : List Sent} (succeeds : (connection.writePending answers).1 = true) :
    Mirrors (sent ++ connection.written answers) (connection.writePending answers).2 whole := by
  obtain ⟨least, most, all⟩ := writeAll_offset answers mirrors.offset
  have moved {offset : Nat} (later : connection.outputOffset ≤ offset)
      (inside : offset ≤ connection.output.length) :
      (connection.output.take offset).drop connection.outputOffset ++
        connection.output.drop offset = connection.unsent := by
    rw [unsent, ← drop_append_of_le_length (by simp; omega), take_append_drop]
  have replies := mirrors.replies
  unfold writePending at succeeds ⊢
  unfold written
  generalize writeAll connection.output answers connection.outputOffset = result at *
  obtain ⟨result, offset⟩ := result
  rw [← moved least most, ← append_assoc] at replies
  cases result with
  | done =>
    have ends : offset = connection.output.length := all rfl
    subst ends
    exact ⟨mirrors.phase, mirrors.input, by simpa [unsent] using replies, Nat.le_refl _,
      mirrors.start⟩
  | blocked => exact ⟨mirrors.phase, mirrors.input, replies, most, mirrors.start⟩
  | failed => cases succeeds

end Mirrors

/--
The bytes that the reads of one poll return, where this many are held already.

The last read may bring more than there is room for; nothing is read behind it.
-/
def arrived (limit : Nat) : Nat → List Received → Bytes
  | held, .bytes (byte :: data) :: reads =>
    let received := (byte :: data).take 1024
    if held + received.length > limit then received
    else received ++ arrived limit (held + received.length) reads
  | _, _ => []

/-- The stream neither ends nor fails before it would block. -/
def quiet : List Received → Bool
  | .bytes data :: reads => !data.isEmpty && quiet reads
  | .failed :: _ => false
  | _ => true

variable {reads : List Received}

/-- A poll keeps all it reads, or the connection is lost: to the limit, if the stream is quiet. -/
theorem readInput_cases (room : connection.input.length ≤ limit) :
    (connection.input.length + (arrived limit connection.input.length reads).length ≤ limit ∧
      readInput limit reads connection =
        (true, connection.receive (arrived limit connection.input.length reads))) ∨
    ∃ fine input, input.length ≤ limit ∧
      readInput limit reads connection =
        (fine, { connection with input, phase := if fine then .failed else connection.phase }) ∧
      (quiet reads = true → fine = true ∧
        limit <
          connection.input.length + (arrived limit connection.input.length reads).length) := by
  -- The induction is on the reads; each one moves its bytes into the input.
  induction reads generalizing connection with
  | nil => exact .inl ⟨by simpa [arrived] using room, by simp [readInput, arrived, receive]⟩
  | cons answer reads ih =>
    cases answer with
    | failed => exact .inr ⟨false, connection.input, room, rfl, fun still => by cases still⟩
    | wouldBlock =>
      exact .inl ⟨by simpa [arrived] using room, by simp [readInput, arrived, receive]⟩
    | bytes data =>
      cases data with
      | nil => exact .inr ⟨true, connection.input, room, rfl, fun still => by cases still⟩
      | cons byte data =>
        have found : arrived limit connection.input.length (.bytes (byte :: data) :: reads) =
            if connection.input.length + (byte :: data.take 1023).length > limit then
              byte :: data.take 1023
            else byte :: data.take 1023 ++ arrived limit
              (connection.input.length + (byte :: data.take 1023).length) reads := rfl
        rw [found]
        simp only [readInput, take_succ_cons]
        split
        · next exceeds =>
          exact .inr ⟨true, connection.input, room, rfl, fun _ => ⟨rfl, exceeds⟩⟩
        next fits =>
        have later := @ih { connection with input := connection.input ++ byte :: data.take 1023 }
          (by rw [length_append]; omega)
        simp only [length_append] at later ⊢
        refine later.imp (fun ⟨least, whole⟩ => ⟨by omega, ?_⟩)
          fun ⟨fine, input, least, whole, lost⟩ => ⟨fine, input, least, whole, fun still => ?_⟩
        · rw [whole]
          simp [receive]
        · obtain ⟨done, more⟩ := lost (by simpa [quiet] using still)
          exact ⟨done, by omega⟩

theorem writePending_phase (answers : List Sent) :
    (connection.writePending answers).2.phase = connection.phase := by
  unfold writePending
  split <;> rfl

theorem writePending_input (answers : List Sent) :
    (connection.writePending answers).2.input = connection.input := by
  unfold writePending
  split <;> rfl

/-- Taking a request takes from the front of the input. -/
theorem parseBody_input (connection : ClientConnection) :
    connection.parseBody.input <:+ connection.input := by
  rw [parseBody_eq]
  split
  · exact suffix_rfl
  next message rest found =>
  split
  · rw [(front_eq_some.mp found).1]
    exact suffix_append _ _
  · simp

/-- Parsing takes from the front of the input. -/
theorem parse_input (connection : ClientConnection) :
    connection.parse.input <:+ connection.input := by
  cases phase : connection.phase with
  | greeting =>
    rw [parse_of_greeting phase]
    split
    · exact suffix_rfl
    next message rest found =>
    split
    · have later := parseBody_input (connection.greeted rest)
      rw [greeted_input] at later
      rw [(front_eq_some.mp found).1]
      exact later.trans (suffix_append _ _)
    · simp
  | request =>
    rw [parse_of_request phase]
    exact parseBody_input connection
  | _ =>
    exact ⟨[], by rw [parse_of_done (by simp [phase]) (by simp [phase]), nil_append]⟩

/-- Where the bytes that were received lead, if all of them are there at once. -/
def taken (received : Bytes) : ClientConnection :=
  ({ stream := 0, input := received } : ClientConnection).parse

/-- A connection that has taken some bytes and takes more stands where all of them lead. -/
theorem Mirrors.taken {sent received : Bytes} (mirrors : Mirrors sent connection (taken received))
    (more : Bytes) :
    Mirrors sent (connection.receive more).parse (ClientConnection.taken (received ++ more)) := by
  have parsed := (mirrors.receive more).parse
  rwa [ClientConnection.taken, parse_receive] at parsed

end ClientConnection

/-- What the stream of a connection answers during one poll. -/
structure ClientTurn where
  reads : List Received
  writes : List Sent

/-- The replies that one poll writes. -/
def ClientConnection.replies (connection : ClientConnection) (limit : Nat) (turn : ClientTurn) :
    Bytes :=
  match ClientConnection.readInput limit turn.reads connection with
  | (false, _) => []
  | (true, connection) => connection.parse.written turn.writes

/-- The polls of a connection, with the bytes each of them reads and writes. -/
def negotiation (limit : Nat) : System ClientConnection ClientTurn (Bytes × Bytes) where
  step connection turn :=
    (match connection.poll limit turn.reads turn.writes with
      | (true, connection) => connection
      -- The adapter gives up a connection whose poll returns an error.
      | (false, connection) => { connection with phase := .failed },
      [(ClientConnection.arrived limit connection.input.length turn.reads,
        connection.replies limit turn)])

/-- The bytes that polls have read. -/
def received (history : List (Bytes × Bytes)) : Bytes :=
  history.flatMap Prod.fst

/-- The bytes that polls have written. -/
def replied (history : List (Bytes × Bytes)) : Bytes :=
  history.flatMap Prod.snd

/-- A connection before its first poll. -/
def Accepted (connection : ClientConnection) : Prop :=
  ∃ stream, connection = { stream }

theorem Accepted.mirrors {connection : ClientConnection} (accepted : Accepted connection) :
    connection.Mirrors [] (ClientConnection.taken []) := by
  obtain ⟨stream, rfl⟩ := accepted
  exact ⟨rfl, rfl, rfl, Nat.le_refl _, rfl⟩

/-- A write that is taken in part at least, or not yet. -/
def Sent.goes : Sent → Bool
  | .taken count => count ≠ 0
  | .failed => false
  | .wouldBlock => true

/-- A poll of a stream that neither ends nor fails. -/
structure ClientTurn.Open (turn : ClientTurn) : Prop where
  quiet : ClientConnection.quiet turn.reads = true
  goes : ∀ answer ∈ turn.writes, answer.goes = true

/-- Writes that are taken or blocked do not fail. -/
theorem writeAll_goes {answers : List Sent} (goes : ∀ answer ∈ answers, answer.goes = true)
    (offset : Nat) : (writeAll bytes answers offset).1 ≠ .failed := by
  induction answers generalizing offset with
  | nil =>
    simp only [writeAll]
    split <;> simp
  | cons answer answers ih =>
    unfold writeAll
    have first := goes answer mem_cons_self
    have rest := ih fun answer among => goes answer (mem_cons_of_mem _ among)
    split
    · next left =>
      cases answer with
      | taken count =>
        dsimp only
        -- Some bytes are left and some are taken, so it goes on behind them.
        rw [if_neg (by simp [Sent.goes] at first; omega)]
        exact rest _
      | failed => cases first
      | wouldBlock => simp
    · simp

theorem ClientConnection.writePending_goes {connection : ClientConnection} {answers : List Sent}
    (goes : ∀ answer ∈ answers, answer.goes = true) :
    (connection.writePending answers).1 = true := by
  have fine := @writeAll_goes connection.output answers goes connection.outputOffset
  unfold writePending
  split
  · rfl
  · rfl
  · next failed => exact absurd (by rw [failed]) fine

/-- What a connection has taken in, and whether a poll has found more than there was room for. -/
structure Intake where
  bytes : Bytes := []
  exceeded : Bool := false
  deriving DecidableEq, Repr

/-- A poll that finds more bytes, with this many of those before still held. -/
def Intake.next (limit : Nat) (held : Bytes → Nat) (intake : Intake) (found : Bytes) : Intake :=
  if intake.exceeded ∨ limit < held intake.bytes + found.length then
    { intake with exceeded := true }
  else { intake with bytes := intake.bytes ++ found }

/-- What the polls of a run take in before one of them finds more than there is room for. -/
def intake (limit : Nat) (held : Bytes → Nat) (history : List (Bytes × Bytes)) : Intake :=
  (history.map Prod.fst).foldl (Intake.next limit held) {}

section Intakes

variable {held other : Bytes → Nat} {history : List (Bytes × Bytes)}

@[simp] theorem intake_snoc (turn : Bytes × Bytes) :
    intake limit held (history ++ [turn]) = (intake limit held history).next limit held turn.1 := by
  simp [intake]

/-- What was taken in is the front of what was read, and all of it unless there was too much. -/
theorem intake_received :
    (intake limit held history).bytes <+: received history ∧
      ((intake limit held history).exceeded = false →
        (intake limit held history).bytes = received history) := by
  induction history using List.reverseRecOn with
  | nil => exact ⟨prefix_rfl, fun _ => rfl⟩
  | append_singleton history turn ih =>
    have whole : received (history ++ [turn]) = received history ++ turn.1 := by simp [received]
    rw [intake_snoc, whole]
    unfold Intake.next
    split
    · exact ⟨ih.1.trans (prefix_append _ _), fun fits => by cases fits⟩
    next fits =>
    have all := ih.2 (by simpa using fun exceeded => fits (.inl exceeded))
    exact ⟨by simp [all], fun _ => by simp [all]⟩

/-- Only the bytes that are held of the fronts of the stream matter. -/
theorem intake_congr (same : ∀ read, read <+: received history → held read = other read) :
    intake limit held history = intake limit other history := by
  induction history using List.reverseRecOn with
  | nil => rfl
  | append_singleton history turn ih =>
    have front : received history <+: received (history ++ [turn]) := by simp [received]
    rw [intake_snoc, intake_snoc, ← ih fun read part => same read (part.trans front)]
    unfold Intake.next
    rw [same _ (intake_received.1.trans front)]

end Intakes

/-- The bytes a connection still holds of those it has taken in. -/
def ClientConnection.keeps (read : Bytes) : Nat :=
  (ClientConnection.taken read).input.length

/-- A connection stands where what it has taken in leads, and has failed if there was too much. -/
structure Stands (limit : Nat) (sent : Bytes) (connection : ClientConnection) (kept : Intake) :
    Prop where
  room : connection.input.length ≤ limit
  fits : kept.exceeded = false → connection.Mirrors sent (ClientConnection.taken kept.bytes)
  fails : kept.exceeded = true →
    ∃ input, connection.Mirrors sent
      { ClientConnection.taken kept.bytes with input, phase := .failed }

/-- A poll that can read and write takes in what it has read and writes replies. -/
theorem negotiation_wrote {connection read : ClientConnection} {turn : ClientTurn}
    (found : ClientConnection.readInput limit turn.reads connection = (true, read))
    (fine : (read.parse.writePending turn.writes).1 = true) (history : List (Bytes × Bytes)) :
    ((negotiation limit).step connection turn).1 = (read.parse.writePending turn.writes).2 ∧
      replied (history ++ ((negotiation limit).step connection turn).2) =
        replied history ++ read.parse.written turn.writes := by
  have polled : connection.poll limit turn.reads turn.writes =
      (true, (read.parse.writePending turn.writes).2) := by
    simp only [poll, found]
    exact Prod.ext fine rfl
  simp [negotiation, polled, replies, found, replied]

/-- One poll of an open stream keeps a connection where what it has taken in leads. -/
theorem Stands.step {history : List (Bytes × Bytes)} {connection : ClientConnection}
    {kept : Intake} {turn : ClientTurn} (stands : Stands limit (replied history) connection kept)
    (open_ : turn.Open) :
    Stands limit (replied (history ++ ((negotiation limit).step connection turn).2))
      ((negotiation limit).step connection turn).1
      (kept.next limit ClientConnection.keeps
        (ClientConnection.arrived limit connection.input.length turn.reads)) := by
  have writes (read : ClientConnection)
      (found : readInput limit turn.reads connection = (true, read)) :=
    @negotiation_wrote limit connection read turn found
      (writePending_goes open_.goes) history
  rcases @ClientConnection.readInput_cases limit connection turn.reads stands.room with
    ⟨least, read⟩ | ⟨fine, input, least, read, lost⟩
  · -- Everything that was found is kept; a connection that had failed is left alone.
    obtain ⟨step, sent⟩ := writes _ read
    rw [step, sent]
    have room := (parse_input (connection.receive
      (arrived limit connection.input.length turn.reads))).length_le
    rw [receive, length_append] at room
    cases exceeded : kept.exceeded with
    | true =>
      obtain ⟨input, mirrors⟩ := stands.fails exceeded
      have next := ((mirrors.receive
        (arrived limit connection.input.length turn.reads)).parse).write
          (writePending_goes open_.goes)
      rw [Intake.next, if_pos (.inl exceeded)]
      exact ⟨by rw [writePending_input]; exact Nat.le_trans room least,
        fun fits => by (cases fits), fun _ => ⟨_, next⟩⟩
    | false =>
      have mirrors := stands.fits exceeded
      rw [Intake.next, if_neg]
      · exact ⟨by rw [writePending_input]; exact Nat.le_trans room least,
          fun _ => (mirrors.taken _).write (writePending_goes open_.goes),
          fun fails => by rw [exceeded] at fails; cases fails⟩
      · rw [exceeded, keeps, ← mirrors.input]
        simp
        omega
  · -- There was too much, so the connection has failed and only its replies are written.
    obtain ⟨rfl, exceeds⟩ := lost open_.quiet
    obtain ⟨step, sent⟩ := writes _ read
    rw [if_pos rfl] at step sent
    have failed {whole : ClientConnection} (mirrors : connection.Mirrors (replied history) whole) :
        ((negotiation limit).step connection turn).1.Mirrors
          (replied (history ++ ((negotiation limit).step connection turn).2))
          { whole with input, phase := .failed } := by
      rw [step, sent]
      exact (show ClientConnection.Mirrors _ { connection with input, phase := .failed }
        { whole with input, phase := .failed } from
          ⟨rfl, rfl, mirrors.replies, mirrors.offset, mirrors.start⟩).parse.write
            (writePending_goes open_.goes)
    have stays : (kept.next limit keeps
        (arrived limit connection.input.length turn.reads)) =
          { kept with exceeded := true } := by
      rw [Intake.next, if_pos]
      cases exceeded : kept.exceeded with
      | true => exact .inl rfl
      | false =>
        rw [keeps, ← (stands.fits exceeded).input]
        exact .inr exceeds
    rw [stays]
    refine ⟨?_, fun fits => by (cases fits), fun _ => ⟨input, ?_⟩⟩
    · rw [step, writePending_input]
      exact Nat.le_trans (parse_input _).length_le least
    · cases exceeded : kept.exceeded with
      | true =>
        obtain ⟨before, mirrors⟩ := stands.fails exceeded
        exact @failed { taken kept.bytes with input := before, phase := .failed }
          mirrors
      | false => exact failed (stands.fits exceeded)

/-- Along every run over an open stream a connection stands where what it has taken in leads. -/
theorem negotiation_stands {history : List (Bytes × Bytes)} {connection : ClientConnection}
    (run : (negotiation limit).Run Accepted (fun _ _ => ClientTurn.Open) history connection) :
    Stands limit (replied history) connection (intake limit ClientConnection.keeps history) := by
  induction run with
  | start accepted =>
    obtain ⟨stream, rfl⟩ := accepted
    exact ⟨Nat.zero_le _, fun _ => Accepted.mirrors ⟨stream, rfl⟩, fun fails => by cases fails⟩
  | step _ open_ ih =>
    have next := ih.step open_
    rw [← intake_snoc (_, _)] at next
    exact next

/-- A message that is not complete yet is not taken. -/
theorem front_part {length : Bytes → Option Nat} {part : Bytes}
    (stable : ∀ input count more, length input = some count →
      length (input ++ more) = some count) (delimited : length message = some message.length)
    (front_ : part <+: message) (short : part ≠ message) : front length part = none := by
  obtain ⟨more, rfl⟩ := front_
  unfold front
  cases known : length part with
  | none => rfl
  | some count =>
    -- What the part says about the length, the whole message says as well.
    have same := stable part count more known
    rw [delimited, Option.some.injEq] at same
    have rest : more ≠ [] := fun none_ => short (by simp [none_])
    have positive := length_pos_iff.mpr rest
    rw [length_append] at same
    dsimp only
    rw [if_pos (by omega)]

/-- The messages of a client that are answered while it negotiates, with their replies. -/
def answers (greeting body : Bytes) : List (Bytes × Bytes) :=
  (greeting, [5, 0]) ::
    match parseRequest body with
    | .ok _ => []
    | .error _ => [(greeting ++ body, socksResponse 1)]

/-- How many of the bytes that were read are still held: a request that is refused stays. -/
def untaken (greeting body read : Bytes) : Nat :=
  if greeting ++ body <+: read ∧ (parseRequest body).isOk then
    read.length - (greeting ++ body).length
  else if greeting <+: read then read.length - greeting.length
  else read.length

/-- What a connection comes to that has read a front of a greeting, a request and more. -/
structure Comes (greeting body read : Bytes) : Prop where
  keeps : ClientConnection.keeps read = untaken greeting body read
  output : (ClientConnection.taken read).output =
    (answers greeting body).flatMap fun answer => if answer.1 <+: read then answer.2 else []
  phase : greeting ++ body <+: read → (ClientConnection.taken read).phase =
    match parseRequest body with
    | .ok request => .ready request
    | .error _ => .failed

section Comes

variable {body further read : Bytes}

theorem Comes.complete (greets : Greets greeting)
    (delimited : requestLength body = some body.length) (rest : Bytes) :
    Comes greeting body (greeting ++ body ++ rest) := by
  have first : front greetingLength (greeting ++ body ++ rest) = some (greeting, body ++ rest) :=
    front_eq_some.mpr ⟨append_assoc .., by rw [append_assoc, greets.length]⟩
  have second : front requestLength (body ++ rest) = some (body, rest) :=
    front_eq_some.mpr ⟨rfl, requestLength_append rest delimited⟩
  have taken : taken (greeting ++ body ++ rest) =
      (({ stream := 0, input := greeting ++ body ++ rest } : ClientConnection).greeted
        (body ++ rest)).parseBody := by
    rw [taken, parse_of_greeting rfl]
    simp only [first, if_pos greets]
  rw [parseBody_eq, greeted_input, second] at taken
  dsimp only at taken
  constructor
  · rw [ClientConnection.keeps, taken, untaken]
    cases parseRequest body <;> simp [Except.isOk, Except.toBool]
    omega
  · rw [taken, answers]
    cases parseRequest body <;> simp <;> rfl
  · intro _
    rw [taken]
    cases parseRequest body <;> rfl

theorem Comes.greeted (greets : Greets greeting) (delimited : requestLength body = some body.length)
    (part : read <+: body) (short : read ≠ body) : Comes greeting body (greeting ++ read) := by
  have first : front greetingLength (greeting ++ read) = some (greeting, read) :=
    front_eq_some.mpr ⟨rfl, greets.length read⟩
  have second := front_part (fun _ _ more => requestLength_append more) delimited part short
  have incomplete : ¬ greeting ++ body <+: greeting ++ read := by
    rw [prefix_append_right_inj]
    exact fun whole => short (part.eq_of_length (Nat.le_antisymm part.length_le whole.length_le))
  have taken : taken (greeting ++ read) =
      ({ stream := 0, input := greeting ++ read } : ClientConnection).greeted read := by
    rw [taken, parse_of_greeting rfl]
    simp only [first, if_pos greets]
    rw [parseBody_eq, greeted_input, second]
  constructor
  · rw [ClientConnection.keeps, taken, untaken, if_neg (fun whole => incomplete whole.1)]
    simp
  · rw [taken, answers]
    cases parseRequest body <;> simp [incomplete] <;> rfl
  · exact fun whole => absurd whole incomplete

theorem Comes.ungreeted (greets : Greets greeting) (part : read <+: greeting)
    (short : read ≠ greeting) : Comes greeting body read := by
  have delimited : greetingLength greeting = some greeting.length := by
    simpa using greets.length []
  have none_ := front_part (fun _ _ more => greetingLength_append more) delimited part short
  have missing : ¬ greeting <+: read := fun whole =>
    short (part.eq_of_length (Nat.le_antisymm part.length_le whole.length_le))
  have incomplete : ¬ greeting ++ body <+: read := fun whole =>
    missing ((prefix_append _ _).trans whole)
  have taken : taken read = { stream := 0, input := read } := by
    rw [taken, parse_of_greeting rfl]
    simp only [none_]
  constructor
  · rw [ClientConnection.keeps, taken, untaken, if_neg (fun whole => incomplete whole.1),
      if_neg missing]
  · rw [taken, answers]
    cases parseRequest body <;> simp [incomplete, missing]
  · exact fun whole => absurd whole incomplete

/-- The front of the stream ends within the greeting, within the request or behind both. -/
theorem Comes.along (greets : Greets greeting) (delimited : requestLength body = some body.length)
    (part : read <+: greeting ++ body ++ further) : Comes greeting body read := by
  by_cases greeted : greeting <+: read
  · obtain ⟨rest, rfl⟩ := greeted
    rw [append_assoc, prefix_append_right_inj] at part
    by_cases complete : body <+: rest
    · obtain ⟨rest, rfl⟩ := complete
      rw [← append_assoc]
      exact .complete greets delimited rest
    · have within : rest <+: body :=
        ( prefix_or_prefix_of_prefix part (prefix_append _ _)).resolve_right complete
      exact .greeted greets delimited within fun whole => complete (by simp [whole])
  · rw [append_assoc] at part
    have within : read <+: greeting :=
      ( prefix_or_prefix_of_prefix part (prefix_append _ _)).resolve_right greeted
    exact .ungreeted greets within fun whole => greeted (by simp [whole])

end Comes

/-- Two fronts of a stream are answered alike only if the same messages are complete in them. -/
theorem answers_same {here there : Bytes} :
    ((answers greeting bytes).flatMap fun answer => if answer.1 <+: here then answer.2 else []) =
        ((answers greeting bytes).flatMap fun answer =>
          if answer.1 <+: there then answer.2 else []) ↔
      ∀ answer ∈ answers greeting bytes, answer.1 <+: here ↔ answer.1 <+: there := by
  have nested {read : Bytes} (whole : greeting ++ bytes <+: read) : greeting <+: read :=
    (prefix_append _ _).trans whole
  unfold answers
  cases parseRequest bytes with
  | ok => by_cases one : greeting <+: here <;> by_cases two : greeting <+: there <;> simp [one, two]
  | error =>
    -- The replies are one behind the other, so their number tells which of them were sent.
    by_cases whole : greeting ++ bytes <+: here <;> by_cases again : greeting ++ bytes <+: there <;>
      by_cases one : greeting <+: here <;> by_cases two : greeting <+: there <;>
      simp_all [socksResponse]

/-- What a run over a greeting, a request and more takes in. -/
abbrev takenIn (limit : Nat) (greeting body : Bytes) (history : List (Bytes × Bytes)) : Intake :=
  intake limit (untaken greeting body) history

/-- The phase and the replies of a connection follow from how its stream came in. -/
theorem negotiation_comes {body further : Bytes} {history : List (Bytes × Bytes)}
    {connection : ClientConnection} (greets : Greets greeting)
    (delimited : requestLength body = some body.length)
    (run : (negotiation limit).Run Accepted (fun _ _ => ClientTurn.Open) history connection)
    (reads : received history <+: greeting ++ body ++ further)
    (settled : greeting ++ body <+: received history ∨
      (takenIn limit greeting body history).exceeded) :
    connection.phase =
        (if (takenIn limit greeting body history).exceeded then .failed
        else match parseRequest body with
          | .ok request => .ready request
          | .error _ => .failed) ∧
      replied history ++ connection.unsent =
        (answers greeting body).flatMap fun answer =>
          if answer.1 <+: (takenIn limit greeting body history).bytes then answer.2 else [] := by
  have stands := negotiation_stands run
  have same : intake limit keeps history = takenIn limit greeting body history :=
    intake_congr fun read part => (Comes.along greets delimited (part.trans reads)).keeps
  rw [same] at stands
  have comes := Comes.along greets delimited
    ((@intake_received limit (untaken greeting body) history).1.trans reads)
  cases exceeded : (takenIn limit greeting body history).exceeded with
  | true =>
    obtain ⟨input, mirrors⟩ := stands.fails exceeded
    exact ⟨mirrors.phase, mirrors.replies.trans comes.output⟩
  | false =>
    have mirrors := stands.fits exceeded
    have whole := intake_received.2 exceeded
    refine ⟨mirrors.phase.trans (comes.phase ?_), mirrors.replies.trans comes.output⟩
    rw [whole]
    exact settled.resolve_right (by simp [exceeded])

/--
Negotiation depends on segmentation only where a poll finds more than there is room for.
Two runs over one stream, each of which has read a greeting and a request or has found too much,
are in the same phase and have the same replies, sent or still to be sent, exactly if both or
neither have found too much, unless the request is refused, and the same of the messages that are
answered were taken in before.
-/
theorem negotiation_unsegmented {greeting body further : Bytes}
    (greets : Greets greeting) (delimited : requestLength body = some body.length)
    {first second : List (Bytes × Bytes)} {connection other : ClientConnection}
    (run : (negotiation limit).Run Accepted (fun _ _ => ClientTurn.Open) first connection)
    (again : (negotiation limit).Run Accepted (fun _ _ => ClientTurn.Open) second other)
    (reads : received first <+: greeting ++ body ++ further)
    (rereads : received second <+: greeting ++ body ++ further)
    (settled : greeting ++ body <+: received first ∨ (takenIn limit greeting body first).exceeded)
    (resettled : greeting ++ body <+: received second ∨
      (takenIn limit greeting body second).exceeded) :
    connection.phase = other.phase ∧
        replied first ++ connection.unsent = replied second ++ other.unsent ↔
      ((takenIn limit greeting body first).exceeded =
          (takenIn limit greeting body second).exceeded ∨
        (parseRequest body).isOk = false) ∧
      ∀ answer ∈ answers greeting body,
        answer.1 <+: (takenIn limit greeting body first).bytes ↔
          answer.1 <+: (takenIn limit greeting body second).bytes := by
  obtain ⟨phase, replies⟩ := negotiation_comes greets delimited run reads settled
  obtain ⟨phase', replies'⟩ := negotiation_comes greets delimited again rereads resettled
  rw [phase, phase', replies, replies', answers_same]
  refine and_congr_left fun _ => ?_
  -- A request that is accepted is told from a failure, and one that is refused is not.
  cases parseRequest body with
  | ok =>
    cases (takenIn limit greeting body first).exceeded <;>
      cases (takenIn limit greeting body second).exceeded <;> simp [Except.isOk, Except.toBool]
  | error => simp [Except.isOk, Except.toBool]

/-- A greeting, a request for port 80 of a host, and as many bytes behind them. -/
def early (count : Nat) : Bytes :=
  [5, 1, 0] ++ [5, 1, 0, 1, 192, 0, 2, 1, 0, 80] ++ List.replicate count 0

/-- What happens in polls that read these bytes each and can write everything. -/
def polled (polls : List (List Bytes)) : List (Bytes × Bytes) × ClientConnection :=
  (negotiation 262).execute ([], { stream := 1 })
    (polls.map fun reads => ⟨reads.map .bytes, [.taken 100]⟩)

/-- One poll reads both messages, or one poll a part of them and another one the rest. -/
theorem negotiation_unsegmented_early :
    ((polled [[early 0]]).2.phase = (polled [[[5, 1]], [(early 0).drop 2, [7]]]).2.phase ∧
      replied (polled [[early 0]]).1 ++ (polled [[early 0]]).2.unsent =
        replied (polled [[[5, 1]], [(early 0).drop 2, [7]]]).1 ++
          (polled [[[5, 1]], [(early 0).drop 2, [7]]]).2.unsent) ∧
      (polled [[early 0]]).2.phase = .ready ⟨.connect, .ipv4 ⟨[192, 0, 2, 1], rfl⟩, 80⟩ := by
  have accepted : Accepted { stream := 1 } := ⟨1, rfl⟩
  have once : (negotiation 262).Run Accepted (fun _ _ => ClientTurn.Open) (polled [[early 0]]).1
      (polled [[early 0]]).2 :=
    .step (.start accepted) ⟨by decide +kernel, by decide +kernel⟩
  have twice : (negotiation 262).Run Accepted (fun _ _ => ClientTurn.Open)
      (polled [[[5, 1]], [(early 0).drop 2, [7]]]).1
      (polled [[[5, 1]], [(early 0).drop 2, [7]]]).2 :=
    .step (.step (.start accepted) ⟨by decide +kernel, by decide +kernel⟩)
      ⟨by decide +kernel, by decide +kernel⟩
  have greets : Greets [5, 1, 0] := by decide
  have delimited : requestLength [5, 1, 0, 1, 192, 0, 2, 1, 0, 80] = some 10 := rfl
  have same := @negotiation_unsegmented 262 _ _ [7] greets delimited _ _ _ _ once twice
    (by decide +kernel) (by decide +kernel) (.inl (by decide +kernel)) (.inl (by decide +kernel))
  exact ⟨same.mpr ⟨by decide +kernel, by decide +kernel⟩, by decide +kernel⟩

/--
Bytes that follow the request make a connection fail, or not.
The same bytes are read by one poll and by two, and the limit is far above both messages.
-/
theorem negotiation_timing :
    received (polled [[early 250]]).1 = received (polled [[early 0], [List.replicate 250 0]]).1 ∧
      (polled [[early 250]]).2.phase = .failed ∧ replied (polled [[early 250]]).1 = [] ∧
      (polled [[early 0], [List.replicate 250 0]]).2.phase =
        .ready ⟨.connect, .ipv4 ⟨[192, 0, 2, 1], rfl⟩, 80⟩ ∧
      replied (polled [[early 0], [List.replicate 250 0]]).1 = [5, 0] := by
  decide +kernel

end Snolc.Socks5
