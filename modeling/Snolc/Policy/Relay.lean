import Snolc.Policy.Forwarding

/-! The bytes of a stream on their way between its two sides, event by event. -/

namespace Snolc.Policy

/-- The two streams that a flow connects. -/
inductive Side
  | stack
  | mux
  deriving DecidableEq, Repr

/-- What happens to the two streams while a flow is polled. -/
inductive FlowEvent
  /-- A read has returned these bytes; none mean that the stream has ended. -/
  | read (side : Side) (data : Bytes)
  /-- A write has taken these bytes. -/
  | written (side : Side) (data : Bytes)
  /-- The rules have decided what was observed. -/
  | decided (observed : Observed) (allowed : Bool)
  deriving DecidableEq, Repr

def bytesRead (side : Side) (events : List FlowEvent) : Bytes :=
  events.flatMap fun
    | .read who data => if who = side then data else []
    | _ => []

def bytesWritten (side : Side) (events : List FlowEvent) : Bytes :=
  events.flatMap fun
    | .written who data => if who = side then data else []
    | _ => []

/-- A pump, a library function, reads into its buffer and writes from the front of it. -/
inductive Copying
  | take (data : Bytes)
  | give (count : Nat)
  deriving DecidableEq, Repr

/-- What a pump answers at the end of a call. -/
inductive PumpAnswer
  | moved (finished : Bool)
  | failed
  | pending
  deriving DecidableEq, Repr

/-- What a pump does in one call, and what it answers. -/
structure PumpCall where
  actions : List Copying
  answer : PumpAnswer
  deriving DecidableEq, Repr

/-- A pump after a call: what is left in its buffer, and what it has moved. -/
structure Copied where
  held : Bytes
  read : Nat
  written : Nat
  events : List FlowEvent
  deriving DecidableEq, Repr

/-- An order-preserving copier that writes no more than it is allowed to. -/
def copy (source sink : Side) : Bytes → Nat → List Copying → Copied
  | held, _, [] => ⟨held, 0, 0, []⟩
  | held, allowed, .take data :: rest =>
    let after := copy source sink (held ++ data) allowed rest
    { after with
      read := data.length + after.read
      events := .read source data :: after.events }
  | held, allowed, .give count :: rest =>
    let data := held.take (min count allowed)
    let after := copy source sink (held.drop data.length) (allowed - data.length) rest
    { after with
      written := data.length + after.written
      events := .written sink data :: after.events }

def PumpCall.outcome (call : PumpCall) (copied : Copied) : Pumped PumpReport :=
  match call.answer with
  | .moved finished => .report ⟨copied.read, copied.written, finished⟩
  | .failed => .failed
  | .pending => .pending

/-- A flow, the buffers of its two pumps, and the time at which it was polled last. -/
structure Relay where
  flow : PolicyFlow
  upload : Bytes
  download : Bytes
  clock : Nat
  deriving DecidableEq, Repr

/-- What the two streams and the pumps do during one poll, and the caps of the poll. -/
structure RelayInput where
  reads : List (Nat × ReadOutcome)
  lastInstant : Nat
  prefixWrite : WriteOutcome
  upload : PumpCall
  download : PumpCall
  maxStackToMux : Nat
  maxMuxToStack : Nat
  maxTotal : Nat
  deriving DecidableEq, Repr

/-- The decision of the rules on an observation. -/
def TcpSniff.decision (sniff : TcpSniff) (observed : Observed) : FlowEvent :=
  .decided observed (observedAllowed sniff.policy observed)

/-- What happens while first bytes are read and classified. -/
def TcpSniff.collectEvents (lastInstant : Nat) :
    TcpSniff → List (Nat × ReadOutcome) → List FlowEvent
  | sniff, [] =>
    match sniff.classify lastInstant with
    | .complete observed => [sniff.decision observed]
    | .needMore => []
  | sniff, (instant, read) :: rest =>
    match sniff.classify instant with
    | .complete observed => [sniff.decision observed]
    | .needMore =>
      let remaining := sniff.policy.maxBytes - sniff.prefixBytes.length
      if remaining = 0 then sniff.collectEvents lastInstant rest
      else
        match read with
        | .bytes data =>
          match data.take (min remaining 1024) with
          | [] =>
            match classifyTcp sniff.prefixBytes true with
            | .complete observed => [.read .mux [], sniff.decision observed]
            | .needMore => [.read .mux [], sniff.decision .unknown]
          | received =>
            .read .mux received ::
              { sniff with prefixBytes := sniff.prefixBytes ++ received }.collectEvents
                lastInstant rest
        | _ => []

variable (flow : PolicyFlow)

/-- What happens while held back bytes are forwarded. -/
def PolicyFlow.prefixEvents (sniff : TcpSniff) (write : WriteOutcome)
    (maxWrite : Nat) : List FlowEvent :=
  if flow.prefixOffset < sniff.prefixBytes.length ∧ maxWrite ≠ 0 then
    match write with
    | .taken count =>
      let stop := min sniff.prefixBytes.length (flow.prefixOffset + maxWrite)
      let offered := (sniff.prefixBytes.take stop).drop flow.prefixOffset
      [.written .stack (offered.take count)]
    | _ => []
  else []

/-- What happens while a flow deals with its first bytes. -/
def PolicyFlow.sniffEvents (input : StreamInput) (maxWrite : Nat) : List FlowEvent :=
  match flow.sniff with
  | none => []
  | some sniff =>
    if sniff.allowed then flow.prefixEvents sniff input.prefixWrite maxWrite
    else
      sniff.collectEvents input.lastInstant input.reads ++
        match sniff.collect input.lastInstant input.reads with
        | (sniff, .ready (.ok ())) => flow.prefixEvents sniff input.prefixWrite maxWrite
        | _ => []

/-- How many held back bytes were forwarded. -/
def reported : Poll (Except FlowError PumpReport) → Nat
  | .ready (.ok held) => held.written
  | _ => 0

namespace Relay

variable (relay : Relay) (input : RelayInput)

/-- What the upload pump does in a poll. -/
def uploaded : Copied :=
  copy .stack .mux relay.upload (min input.maxStackToMux input.maxTotal) input.upload.actions

def uploadReport : Nat :=
  match input.upload.answer with
  | .moved _ => (relay.uploaded input).written
  | _ => 0

/-- What the download pump does in a poll that has forwarded so many held back bytes. -/
def downloaded (held : Nat) : Copied :=
  copy .mux .stack relay.download
    (min input.maxMuxToStack (input.maxTotal - relay.uploadReport input - held))
    input.download.actions

/-- The input of the flow while it deals with its first bytes. -/
def sniffing : StreamInput where
  reads := input.reads
  lastInstant := input.lastInstant
  prefixWrite := input.prefixWrite
  upload := .pending
  download := .pending

/-- How the flow deals with its first bytes. -/
def sniffed : PolicyFlow × Poll (Except FlowError PumpReport) :=
  relay.flow.pollSniff (sniffing input) (min input.maxMuxToStack input.maxTotal)

/-- What happens while the flow deals with its first bytes. -/
def sniffEvents : List FlowEvent :=
  relay.flow.sniffEvents (sniffing input) (min input.maxMuxToStack input.maxTotal)

/-- One poll of the flow, with everything that happens to its streams. -/
def step : Relay × List FlowEvent :=
  match relay.sniffed input with
  | (flow, .ready (.ok held)) =>
    if flow.sniff.isSome then
      (⟨flow, relay.upload, relay.download, input.lastInstant⟩, relay.sniffEvents input)
    else
      let up := relay.uploaded input
      match input.upload.answer with
      | .failed =>
        (⟨flow, up.held, relay.download, input.lastInstant⟩,
          relay.sniffEvents input ++ up.events)
      | _ =>
        let down := relay.downloaded input held.written
        (⟨flow, up.held, down.held, input.lastInstant⟩,
          relay.sniffEvents input ++ up.events ++ down.events)
  | (flow, _) => (⟨flow, relay.upload, relay.download, input.lastInstant⟩, relay.sniffEvents input)

/-- The input of the flow, which only counts what the pumps move. -/
def counted : StreamInput :=
  { sniffing input with
    upload := input.upload.outcome (relay.uploaded input)
    download := input.download.outcome
      (relay.downloaded input (reported (relay.sniffed input).2)) }

/-- The same poll, as the flow sees it. -/
def poll : Polled PolicyFlow PumpReport :=
  relay.flow.poll (relay.counted input) input.maxStackToMux input.maxMuxToStack input.maxTotal

end Relay

/-- A relay polled again and again. -/
def relaying : System Relay RelayInput FlowEvent where
  step := Relay.step

section Pumps

variable {source sink : Side} {held : Bytes} {allowed : Nat} {actions : List Copying}

theorem copy_events {event : FlowEvent}
    (among : event ∈ (copy source sink held allowed actions).events) :
    (∃ data, event = .read source data) ∨ ∃ data, event = .written sink data := by
  induction actions generalizing held allowed with
  | nil => simp [copy] at among
  | cons action actions ih =>
    cases action with
    | take data =>
      rcases List.mem_cons.mp among with rfl | later
      · exact .inl ⟨data, rfl⟩
      · exact ih later
    | give =>
      rcases List.mem_cons.mp among with rfl | later
      · exact .inr ⟨_, rfl⟩
      · exact ih later

theorem copy_count : (copy source sink held allowed actions).written ≤ allowed ∧
    (bytesWritten sink (copy source sink held allowed actions).events).length =
      (copy source sink held allowed actions).written := by
  induction actions generalizing held allowed with
  | nil => exact ⟨Nat.zero_le _, rfl⟩
  | cons action actions ih =>
    cases action with
    | take => exact ih
    | give count =>
      have later := @ih (held.drop (held.take (min count allowed)).length)
        (allowed - (held.take (min count allowed)).length)
      simp only [copy, bytesWritten, List.flatMap_cons, if_true, List.length_append,
        List.length_take] at later ⊢
      omega

theorem copy_source (other : source ≠ sink) :
    bytesWritten source (copy source sink held allowed actions).events = [] := by
  apply List.flatMap_eq_nil_iff.mpr
  intro event among
  rcases copy_events among with ⟨data, rfl⟩ | ⟨data, rfl⟩
  · rfl
  · exact if_neg other.symm

end Pumps

section Counts

variable {relay : Relay} {input : RelayInput}

theorem bytesWritten_append (side : Side) (history events : List FlowEvent) :
    bytesWritten side (history ++ events) =
      bytesWritten side history ++ bytesWritten side events := by
  simp [bytesWritten]

theorem collectEvents_written (side : Side) (lastInstant : Nat) (sniff : TcpSniff)
    (reads : List (Nat × ReadOutcome)) :
    bytesWritten side (sniff.collectEvents lastInstant reads) = [] := by
  induction reads generalizing sniff with
  | nil =>
    simp only [TcpSniff.collectEvents]
    split <;> rfl
  | cons read reads ih =>
    obtain ⟨instant, read⟩ := read
    simp only [TcpSniff.collectEvents]
    split
    · rfl
    split
    · exact ih sniff
    split
    · split
      · split <;> rfl
      · exact ih _
    · rfl

theorem prefixEvents_count (sniff : TcpSniff) (write : WriteOutcome) (maxWrite : Nat) :
    (bytesWritten .stack (flow.prefixEvents sniff write maxWrite)).length =
        reported (flow.writePrefix sniff write maxWrite).2 ∧
      bytesWritten .mux (flow.prefixEvents sniff write maxWrite) = [] := by
  unfold PolicyFlow.writePrefix PolicyFlow.prefixEvents
  by_cases left : flow.prefixOffset < sniff.prefixBytes.length
  · rw [if_pos left]
    by_cases none : maxWrite = 0
    · rw [if_pos none, if_neg fun room => room.2 none]
      exact ⟨rfl, rfl⟩
    · rw [if_neg none, if_pos ⟨left, none⟩]
      cases write with
      | failed | pending => exact ⟨rfl, rfl⟩
      | taken count =>
        have written : (bytesWritten .stack [.written .stack (((sniff.prefixBytes.take
            (min sniff.prefixBytes.length (flow.prefixOffset + maxWrite))).drop
              flow.prefixOffset).take count)]).length =
            min count (min sniff.prefixBytes.length (flow.prefixOffset + maxWrite) -
              flow.prefixOffset) := by
          simp only [bytesWritten, List.flatMap_cons, List.flatMap_nil, if_true, List.append_nil,
            List.length_take, List.length_drop]
          omega
        dsimp only
        rw [written]
        refine ⟨?_, rfl⟩
        split
        · next zero => exact zero
        · split <;> rfl
  · rw [if_neg left, if_neg fun room => left room.1]
    exact ⟨rfl, rfl⟩

theorem sniffEvents_count (relay : Relay) (input : RelayInput) :
    (bytesWritten .stack (relay.sniffEvents input)).length = reported (relay.sniffed input).2 ∧
      bytesWritten .mux (relay.sniffEvents input) = [] := by
  unfold Relay.sniffed PolicyFlow.pollSniff Relay.sniffEvents PolicyFlow.sniffEvents
  cases waits : relay.flow.sniff with
  | none => exact ⟨rfl, rfl⟩
  | some sniff =>
    dsimp only [Relay.sniffing]
    by_cases allowed : sniff.allowed = true
    · rw [if_pos allowed, if_pos allowed]
      exact prefixEvents_count { relay.flow with sniff := some sniff } ..
    · rw [if_neg allowed, if_neg allowed, bytesWritten_append, bytesWritten_append,
        collectEvents_written, collectEvents_written]
      rcases sniff.collect input.lastInstant input.reads with ⟨next, (fault | gate) | _⟩
      · exact ⟨rfl, rfl⟩
      · exact prefixEvents_count { relay.flow with sniff := some next } ..
      · exact ⟨rfl, rfl⟩

theorem pump_outcome {call : PumpCall} {source sink : Side} {held : Bytes} {allowed : Nat}
    {finished : Bool} (moved : call.answer = .moved finished) :
    pump (call.outcome (copy source sink held allowed call.actions)) allowed =
      .ready (.ok ⟨(copy source sink held allowed call.actions).read,
        (copy source sink held allowed call.actions).written, finished⟩) := by
  rw [PumpCall.outcome, moved, pump]
  dsimp only
  rw [Nat.min_eq_left copy_count.1]

theorem pollPumps_flow (input : StreamInput) (held : PumpReport)
    (maxStackToMux maxMuxToStack maxTotal : Nat) :
    (flow.pollPumps input held maxStackToMux maxMuxToStack maxTotal).flow = flow := by
  unfold PolicyFlow.pollPumps
  split
  · rfl
  · dsimp only
    split <;> rfl

/-- The bytes written are those that a poll counts, and those that it reports. -/
structure Polled.Reports {φ : Type} (polled : Polled φ PumpReport) (events : List FlowEvent) :
    Prop where
  toMux : (bytesWritten .mux events).length = polled.toMux
  toStack : (bytesWritten .stack events).length = polled.toStack
  upload : (accounted polled.result).1.written = (bytesWritten .mux events).length
  download : (accounted polled.result).2.written = (bytesWritten .stack events).length

/-- A poll that ends with the first bytes reports those of them that it forwards. -/
theorem Relay.sniffed_reports {relay : Relay} {input : RelayInput} {flow : PolicyFlow}
    {result : Poll (Except FlowError (PumpReport × PumpReport))} {held : Nat}
    (forwarded : reported (relay.sniffed input).2 = held)
    (upload : (accounted result).1.written = 0) (download : (accounted result).2.written = held) :
    Polled.Reports { flow, result, toMux := 0, toStack := held } (relay.sniffEvents input) := by
  obtain ⟨toStack, toMux⟩ := sniffEvents_count relay input
  rw [forwarded] at toStack
  exact ⟨by rw [toMux]; rfl, toStack, by rw [upload, toMux]; rfl, by rw [download, toStack]⟩

/--
A step of the relay is one poll of its flow.
Where both pumps report, the bytes that it writes each way are those of the reports that the poll
returns, which are empty where it fails or waits.
-/
theorem Relay.step_poll (relay : Relay) (input : RelayInput) :
    (relay.step input).1.flow = (relay.poll input).flow ∧
      ∀ up down, input.upload.answer = .moved up → input.download.answer = .moved down →
        input.maxTotal ≤ u64Max → (relay.poll input).Reports (relay.step input).2 := by
  have same : relay.flow.pollSniff (relay.counted input)
      (min input.maxMuxToStack input.maxTotal) = relay.sniffed input := rfl
  unfold Relay.poll PolicyFlow.poll
  rw [same]
  unfold Relay.step
  rcases sniffed : relay.sniffed input with ⟨flow, (fault | held) | _⟩
  · exact ⟨rfl, fun _ _ _ _ _ => sniffed_reports (by rw [sniffed]; rfl) rfl rfl⟩
  · dsimp only
    have forwarded : reported (relay.sniffed input).2 = held.written := by rw [sniffed]; rfl
    by_cases waits : flow.sniff.isSome = true
    · rw [if_pos waits, if_pos waits]
      exact ⟨rfl, fun _ _ _ _ _ => sniffed_reports forwarded rfl rfl⟩
    · rw [if_neg waits, if_neg waits]
      constructor
      · rw [pollPumps_flow]
        split <;> rfl
      · intro up down uploads downloads fits
        -- Each pump is called with the same allowance on both sides.
        have upload : pump (relay.counted input).upload
            (min input.maxStackToMux input.maxTotal) =
              .ready (.ok ⟨(relay.uploaded input).read, (relay.uploaded input).written, up⟩) :=
          pump_outcome uploads
        have same : relay.uploadReport input = (relay.uploaded input).written := by
          rw [Relay.uploadReport, uploads]
        have download : pump (relay.counted input).download (min input.maxMuxToStack
            (input.maxTotal - (relay.uploaded input).written - held.written)) =
              .ready (.ok ⟨(relay.downloaded input held.written).read,
                (relay.downloaded input held.written).written, down⟩) := by
          rw [Relay.counted, sniffed, ← same]
          exact pump_outcome downloads
        unfold PolicyFlow.pollPumps
        rw [upload]
        dsimp only
        rw [download, uploads]
        dsimp only
        -- Of the three writes of the poll two go to the stack.
        obtain ⟨toStack, toMux⟩ := sniffEvents_count relay input
        have stackEvents : bytesWritten .stack (relay.uploaded input).events = [] :=
          copy_source (by decide)
        have muxEvents : bytesWritten .mux (relay.downloaded input held.written).events = [] :=
          copy_source (by decide)
        have wrote : (bytesWritten .mux (relay.uploaded input).events).length =
            (relay.uploaded input).written := copy_count.2
        have delivered : (bytesWritten .stack (relay.downloaded input held.written).events).length =
            (relay.downloaded input held.written).written := copy_count.2
        have mux : (bytesWritten .mux (relay.sniffEvents input ++ (relay.uploaded input).events ++
            (relay.downloaded input held.written).events)).length =
              (relay.uploaded input).written := by
          simp [bytesWritten_append, toMux, muxEvents, wrote]
        have stack : (bytesWritten .stack (relay.sniffEvents input ++
            (relay.uploaded input).events ++
            (relay.downloaded input held.written).events)).length =
              (relay.downloaded input held.written).written + held.written := by
          simp [bytesWritten_append, toStack, stackEvents, delivered, forwarded, Nat.add_comm]
        have within : held.written ≤ input.maxTotal :=
          (PolicyFlow.pollSniff_held sniffed).1.trans (min_le_right _ _)
        have rest : (relay.downloaded input held.written).written ≤ _ := copy_count.1
        rw [same] at rest
        refine ⟨mux, stack, by rw [accounted_joined, mux], ?_⟩
        rw [accounted_joined, stack]
        exact saturatingAdd_eq (by omega)
  · exact ⟨rfl, fun _ _ _ _ _ => sniffed_reports (by rw [sniffed]; rfl) rfl rfl⟩

end Counts

end Snolc.Policy
