import Mathlib.Algebra.GroupWithZero.Nat
import Snolc.Socks5.Negotiation

/-! What a connection takes from its stream, and where the bytes behind its request go. -/

namespace Snolc.Socks5

open List ClientConnection

variable {bytes : Bytes} {limit : Nat} {request : Request}

/-- One poll keeps a connection that has not failed where the bytes it has read lead. -/
theorem negotiation_step {history : List (Bytes × Bytes)} {connection : ClientConnection}
    (turn : ClientTurn) (room : connection.input.length ≤ limit)
    (stands : connection.phase = .failed ∨
      connection.Mirrors (replied history) (taken (received history))) :
    ((negotiation limit).step connection turn).1.input.length ≤ limit ∧
      (((negotiation limit).step connection turn).1.phase = .failed ∨
        ((negotiation limit).step connection turn).1.Mirrors
          (replied (history ++ ((negotiation limit).step connection turn).2))
          (taken (received (history ++ ((negotiation limit).step connection turn).2)))) := by
  -- The adapter keeps what a poll leaves, and fails a connection whose poll fails.
  have kept : ((negotiation limit).step connection turn).1.input =
      (connection.poll limit turn.reads turn.writes).2.input := by
    simp only [negotiation]
    obtain ⟨fine, after⟩ := connection.poll limit turn.reads turn.writes
    cases fine <;> rfl
  have lost (failed : (connection.poll limit turn.reads turn.writes).1 = true →
      (connection.poll limit turn.reads turn.writes).2.phase = .failed) :
      ((negotiation limit).step connection turn).1.phase = .failed := by
    simp only [negotiation]
    generalize connection.poll limit turn.reads turn.writes = polled at failed
    obtain ⟨fine, after⟩ := polled
    cases fine with
    | true => exact failed rfl
    | false => rfl
  rw [kept]
  rcases @readInput_cases limit connection turn.reads room with
    ⟨least, read⟩ | ⟨fine, input, least, read, _⟩
  · have polled : connection.poll limit turn.reads turn.writes =
        (connection.receive (arrived limit connection.input.length turn.reads)).parse.writePending
          turn.writes := by
      simp only [poll, read]
    refine ⟨?_, ?_⟩
    · rw [polled, writePending_input]
      refine Nat.le_trans (parse_input _).length_le ?_
      simpa [receive] using least
    rcases stands with failed | mirrors
    · refine .inl (lost fun _ => ?_)
      rw [polled, writePending_phase, parse_of_done]
      all_goals simp [receive, failed]
    -- Everything was read, so only a write can fail.
    cases fine : (connection.poll limit turn.reads turn.writes).1 with
    | false => exact .inl (lost fun good => by rw [fine] at good; cases good)
    | true =>
      rw [polled] at fine
      have next := (mirrors.taken (arrived limit connection.input.length turn.reads)).write fine
      obtain ⟨step, sent⟩ := negotiation_wrote read fine history
      rw [step, sent]
      simpa [negotiation, received] using Or.inr next
  · -- The stream has ended or failed, or there was too much.
    cases fine with
    | true =>
      have polled : connection.poll limit turn.reads turn.writes =
          { connection with input, phase := .failed }.writePending turn.writes := by
        simp only [poll, read, if_true]
        rw [parse_of_done (by simp) (by simp)]
      refine ⟨?_, .inl (lost fun _ => ?_)⟩
      · rw [polled, writePending_input]
        exact least
      · rw [polled, writePending_phase]
    | false =>
      have polled : connection.poll limit turn.reads turn.writes =
          (false, { connection with input }) := by
        simp [poll, read]
      rw [polled] at lost ⊢
      exact ⟨least, .inl (lost fun good => by cases good)⟩

/-- A connection that has not failed stands where the bytes it has read lead. -/
theorem negotiation_unfailed {history : List (Bytes × Bytes)} {connection : ClientConnection}
    (run : (negotiation limit).Run Accepted (fun _ _ _ => True) history connection) :
    connection.input.length ≤ limit ∧ (connection.phase = .failed ∨
      connection.Mirrors (replied history) (taken (received history))) := by
  induction run with
  | start accepted =>
    obtain ⟨stream, rfl⟩ := accepted
    exact ⟨Nat.zero_le _, .inr (Accepted.mirrors ⟨stream, rfl⟩)⟩
  | step _ _ ih => exact negotiation_step _ ih.1 ih.2

/-- A connection is ready behind one greeting and one request, each as long as it says. -/
theorem taken_ready (ready : (taken bytes).phase = .ready request) :
    ∃ greeting body, bytes = greeting ++ body ++ (taken bytes).input ∧
      Greets greeting ∧
      requestLength (body ++ (taken bytes).input) = some body.length ∧
      parseRequest body = .ok request := by
  rw [taken, parse_of_greeting rfl] at ready ⊢
  split at ready
  · cases ready
  next greeting rest found =>
  obtain ⟨rfl, _⟩ := front_eq_some.mp found
  split at ready
  · next greets =>
    rw [parseBody_eq, greeted_input] at ready
    simp only [if_pos greets, parseBody_eq, greeted_input]
    split at ready
    · cases ready
    next body rest found =>
    obtain ⟨rfl, length⟩ := front_eq_some.mp found
    split at ready
    · next parsed =>
      cases ready
      exact ⟨greeting, body, by simp, greets, length, parsed⟩
    · cases ready
  · cases ready

namespace ClientFlow

/-- A poll goes on to pump once the reply is written and the destination is reached. -/
def pumps (flow : ClientFlow) (input : FlowInput) : Bool :=
  (writeAll flow.response input.writes flow.responseOffset).1 = .done ∧
    flow.accepted = some true ∧ flow.stack.isSome

/-- A poll that pumps leaves client and buffer where the pump does, and no other touches them. -/
theorem poll_upload (flow : ClientFlow) (input : FlowInput) :
    (⟨(flow.poll input).2.client, (flow.poll input).2.upload⟩ : Upload) =
      if flow.pumps input then (flow.uploaded input).2 else ⟨flow.client, flow.upload⟩ := by
  unfold poll pumps
  obtain ⟨result, offset⟩ := writeAll flow.response input.writes flow.responseOffset
  cases result with
  | done =>
    dsimp only
    split
    · next refused => simp [refused]
    · next open_ => simp [open_]
    next accepted =>
    split
    · next reached =>
      simp only [accepted, reached, and_self, decide_true, if_true, pump]
      split <;> rfl
    · next unreached => simp [unreached]
  | _ => simp

end ClientFlow

/-- What happens to a flow: it is polled, or the host changes what is known about it. -/
inductive FlowEvent
  | poll (input : FlowInput)
  | host (announced : Bool) (stack : Option Nat) (response : Bytes) (responseOffset : Nat)
      (accepted : Option Bool)

/-- The life of a flow, with what its upload pump does. -/
def uploading : System ClientFlow FlowEvent PumpEvent where
  step flow event :=
    match event with
    | .poll input =>
      ((flow.poll input).2, if flow.pumps input then (flow.uploaded input).1 else [])
    | .host announced stack response responseOffset accepted =>
      ({ flow with announced, stack, response, responseOffset, accepted }, [])

/-- The bytes that the stack has taken. -/
def delivered (history : List PumpEvent) : Bytes :=
  history.flatMap fun
    | .wrote data => data
    | .read .. => []

/-- The bytes that were read from the socket of the client. -/
def streamed (history : List PumpEvent) : Bytes :=
  history.flatMap fun
    | .wrote _ => []
    | .read _ data => data

/-- How many bytes a pump has asked the client for. -/
def requested (history : List PumpEvent) : Nat :=
  (history.map fun
    | .wrote _ => 0
    | .read capacity _ => capacity).sum

/-- A pump has taken as many early bytes as it has asked for, and the socket's behind them. -/
structure Carries (begun : Bytes) (history : List PumpEvent) (upload : Upload) : Prop where
  early : upload.client.prefixBytes = begun.drop (requested history)
  order : delivered history ++ upload.held = begun.take (requested history) ++ streamed history
  late : requested history < begun.length → streamed history = []

/-- One action of a pump, whichever it is, keeps the order. -/
theorem Carries.step {begun : Bytes} {history : List PumpEvent} {upload : Upload}
    (carries : Carries begun history upload) (action : PumpAction) :
    Carries begun (history ++ (uploadPump.step upload action).2)
      (uploadPump.step upload action).1 := by
  obtain ⟨early, order, late⟩ := carries
  cases action with
  | write count =>
    have asked : requested (history ++ [.wrote (upload.held.take count)]) = requested history := by
      simp [requested]
    have same : streamed (history ++ [.wrote (upload.held.take count)]) = streamed history := by
      simp [streamed]
    simp only [uploadPump]
    refine ⟨by rw [asked]; exact early, ?_, by rw [asked, same]; exact late⟩
    rw [asked, same, ← order]
    simp [delivered]
  | read capacity answer =>
    have asked (data : Bytes) :
        requested (history ++ [.read capacity data]) = requested history + capacity := by
      simp [requested]
    have kept (data : Bytes) :
        delivered (history ++ [.read capacity data]) = delivered history := by
      simp [delivered]
    have grown (data : Bytes) :
        streamed (history ++ [.read capacity data]) = streamed history ++ data := by
      simp [streamed]
    by_cases gone : upload.client.prefixBytes = []
    · -- Every early byte was asked for, so the socket is read, if it answers.
      have all : begun.length ≤ requested history := drop_eq_nil_iff.mp (early ▸ gone)
      obtain ⟨data, step⟩ : ∃ data, uploadPump.step upload (.read capacity answer) =
          ({ upload with held := upload.held ++ data }, [.read capacity data]) := by
        cases answer <;> simp [uploadPump, SocksIo.pollRead, gone]
      rw [step]
      refine ⟨?_, ?_, fun left => ?_⟩
      · rw [asked, drop_eq_nil_of_le (by omega)]
        exact gone
      · rw [kept, grown, asked, ← append_assoc, order, take_of_length_le all,
          take_of_length_le (by omega), append_assoc]
      · rw [asked] at left
        omega
    · -- Early bytes are left, and the socket is not read before they are gone.
      have left : requested history < begun.length := by
        rw [early, drop_eq_nil_iff] at gone
        omega
      have step : uploadPump.step upload (.read capacity answer) =
          (⟨{ upload.client with prefixBytes := upload.client.prefixBytes.drop capacity },
            upload.held ++ upload.client.prefixBytes.take capacity⟩, [.read capacity []]) := by
        simp [uploadPump, SocksIo.pollRead, gone]
      rw [step]
      refine ⟨?_, ?_, fun _ => by rw [grown, late left, append_nil]⟩
      · rw [asked, early, drop_drop]
      · rw [kept, grown, asked, ← append_assoc, order, late left, early, take_add]
        simp

/-- Over the whole life of a flow its pump keeps the order. -/
theorem uploading_carries {begun flow : ClientFlow} {history : List PumpEvent}
    (fresh : begun.upload = []) (run : uploading.Run (· = begun) (fun _ _ _ => True) history flow) :
    Carries begun.client.prefixBytes history ⟨flow.client, flow.upload⟩ := by
  induction run with
  | start same =>
    subst same
    exact ⟨rfl, by simp [delivered, requested, streamed, fresh], fun _ => rfl⟩
  | @step history flow event _ _ ih =>
    cases event with
    | host => simpa [uploading] using ih
    | poll input =>
      simp only [uploading, ClientFlow.poll_upload]
      split
      · have next := uploadPump.execute_invariant
          (fun _ _ event carries => carries.step event) ih input.actions
        rwa [System.execute_history] at next
      · simpa using ih

/--
Framing is exact and keeps early data.
A connection that is ready has taken a greeting and a request as long as it says, and its parser
never finds such a request too short or too long. Of the bytes behind the request its flow has
handed on as many as the pump has asked for: they have gone to the stack or are about to, in order
and once, and no byte is read from the socket before all of them.
-/
theorem negotiation_framed {history : List (Bytes × Bytes)} {connection : ClientConnection}
    (run : (negotiation limit).Run Accepted (fun _ _ _ => True) history connection)
    (ready : connection.phase = .ready request) :
    (∃ greeting body, received history = greeting ++ body ++ connection.input ∧ Greets greeting ∧
      requestLength (body ++ connection.input) = some body.length ∧
      parseRequest body = .ok request) ∧
    (∀ (body : Bytes) (kind : UInt8), requestLength body = some body.length →
      body[3]? = some kind → kind ∈ [1, 3, 4] →
      parseRequest body ≠ .error .incomplete ∧ parseRequest body ≠ .error .trailingBytes) ∧
    ∀ (uploaded : List PumpEvent) (flow : ClientFlow),
      uploading.Run (· = ClientFlow.new connection request) (fun _ _ _ => True) uploaded flow →
      flow.client.prefixBytes = connection.input.drop (requested uploaded) ∧
        delivered uploaded ++ flow.upload =
          connection.input.take (requested uploaded) ++ streamed uploaded ∧
        (requested uploaded < connection.input.length → streamed uploaded = []) := by
  refine ⟨?_, fun body kind delimited fourth => parseRequest_delimited delimited fourth,
    fun uploaded flow pumped => ?_⟩
  · rcases (negotiation_unfailed run).2 with failed | mirrors
    · rw [failed] at ready
      cases ready
    · obtain ⟨greeting, body, whole, greets, length, parsed⟩ :=
        taken_ready (mirrors.phase.symm.trans ready)
      rw [← mirrors.input] at whole length
      exact ⟨greeting, body, whole, greets, length, parsed⟩
  · obtain ⟨early, order, late⟩ := uploading_carries rfl pumped
    exact ⟨early, order, late⟩

/-- A flow that is accepted, and whose pump asks twice for two bytes and writes what it has. -/
def pumped (connection : ClientConnection) (request : Request) :
    List PumpEvent × ClientFlow :=
  uploading.execute ([], ClientFlow.new connection request)
    [.host true (some 1) [] 0 (some true),
      .poll ⟨[], [.read 2 (.bytes [9]), .write 1], .pending, .pending⟩,
      .poll ⟨[], [.read 2 (.bytes [9]), .read 2 (.bytes [9]), .write 8], .pending, .pending⟩]

theorem pumped_run (connection : ClientConnection) (request : Request) :
    uploading.Run (· = ClientFlow.new connection request) (fun _ _ _ => True)
      (pumped connection request).1 (pumped connection request).2 := by
  have begun : uploading.Run (· = ClientFlow.new connection request) (fun _ _ _ => True) []
      (ClientFlow.new connection request) := .start rfl
  exact begun.unguarded _

/-- Three bytes behind the request go to the stack, and one that comes later goes behind them. -/
theorem negotiation_framed_early :
    (polled [[early 3]]).2.phase = .ready ⟨.connect, .ipv4 ⟨[192, 0, 2, 1], rfl⟩, 80⟩ ∧
      delivered (pumped (polled [[early 3]]).2 ⟨.connect, .ipv4 ⟨[192, 0, 2, 1], rfl⟩, 80⟩).1 =
        [0, 0, 0, 9] := by
  have run : (negotiation 262).Run Accepted (fun _ _ _ => True) (polled [[early 3]]).1
      (polled [[early 3]]).2 :=
    .step (.start ⟨1, rfl⟩) trivial
  have ready : (polled [[early 3]]).2.phase =
      .ready ⟨.connect, .ipv4 ⟨[192, 0, 2, 1], rfl⟩, 80⟩ := by decide +kernel
  obtain ⟨_, order, _⟩ := (negotiation_framed run ready).2.2 _ _ (pumped_run _ _)
  refine ⟨ready, ?_⟩
  -- The pump has nothing left, so all it has read is with the stack.
  have written : (pumped (polled [[early 3]]).2
      ⟨.connect, .ipv4 ⟨[192, 0, 2, 1], rfl⟩, 80⟩).2.upload = [] := by decide +kernel
  have whole := order.symm.trans (congrArg (_ ++ ·) written)
  rw [append_nil] at whole
  exact whole.symm.trans (by decide +kernel)

end Snolc.Socks5
