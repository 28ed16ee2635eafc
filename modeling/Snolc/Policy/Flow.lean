import Snolc.Policy.Access

/-! One poll of a stream or datagram flow: the held back first bytes, then one pump each way. -/

namespace Snolc.Policy

/-- What a pump moved in one call. -/
structure PumpReport where
  read : Nat := 0
  written : Nat := 0
  finished : Bool := false
  deriving DecidableEq, Repr

/-- What a datagram pump moved in one call. -/
structure DatagramPumpReport where
  received : Nat := 0
  sent : Nat := 0
  finished : Bool := false
  deriving DecidableEq, Repr

/-- Why the poll of a flow fails. -/
inductive FlowError
  | denied
  | io
  | writeZero
  deriving DecidableEq, Repr

/-- What a pump, a library function, answers to one call. -/
inductive Pumped (ρ : Type)
  | report (moved : ρ)
  | failed
  | pending
  deriving DecidableEq, Repr

/-- A pump writes no more than it is allowed to, and one that fails has written nothing. -/
def pump (outcome : Pumped PumpReport) (allowed : Nat) : Poll (Except FlowError PumpReport) :=
  match outcome with
  | .report moved => .ready (.ok { moved with written := min moved.written allowed })
  | .failed => .ready (.error .io)
  | .pending => .pending

/-- A datagram pump sends no more than it is allowed to, and one that fails has sent nothing. -/
def datagramPump (outcome : Pumped DatagramPumpReport) (allowed : Nat) :
    Poll (Except FlowError DatagramPumpReport) :=
  match outcome with
  | .report moved => .ready (.ok { moved with sent := min moved.sent allowed })
  | .failed => .ready (.error .io)
  | .pending => .pending

/--
What the streams of a flow answer during one poll.

The reads are those of the classifier, each with the clock it sees before it.
-/
structure StreamInput where
  reads : List (Nat × ReadOutcome)
  lastInstant : Nat
  prefixWrite : WriteOutcome
  upload : Pumped PumpReport
  download : Pumped PumpReport
  deriving DecidableEq, Repr

/-- What the sockets of a datagram flow answer during one poll. -/
structure DatagramInput where
  upload : Pumped DatagramPumpReport
  /-- The first datagram the pump takes from the multiplexer in this poll. -/
  first : Option Bytes
  download : Pumped DatagramPumpReport
  deriving DecidableEq, Repr

/-- The result of polling a flow, with the bytes the two sinks accepted during the poll. -/
structure Polled (φ ρ : Type) where
  flow : φ
  result : Poll (Except FlowError (ρ × ρ))
  toMux : Nat
  toStack : Nat

/-- Let the waiting rules decide an observation. -/
def TcpSniff.decide (sniff : TcpSniff) (observed : Observed) :
    TcpSniff × Poll (Except FlowError Unit) :=
  if observedAllowed sniff.policy observed then ({ sniff with allowed := true }, .ready (.ok ()))
  else (sniff, .ready (.error .denied))

/-- Classify what has been read at a given time. -/
def TcpSniff.classify (sniff : TcpSniff) (instant : Nat) : Classification :=
  classifyTcp sniff.prefixBytes
    (sniff.prefixBytes.length ≥ sniff.policy.maxBytes || instant ≥ sniff.deadline)

/-- Read first bytes until they are classified. -/
def TcpSniff.collect (lastInstant : Nat) :
    TcpSniff → List (Nat × ReadOutcome) → TcpSniff × Poll (Except FlowError Unit)
  | sniff, [] =>
    match sniff.classify lastInstant with
    | .complete observed => sniff.decide observed
    | .needMore => (sniff, .pending)
  | sniff, (instant, read) :: rest =>
    match sniff.classify instant with
    | .complete observed => sniff.decide observed
    | .needMore =>
      let remaining := sniff.policy.maxBytes - sniff.prefixBytes.length
      if remaining = 0 then sniff.collect lastInstant rest
      else
        match read with
        | .bytes data =>
          match data.take (min remaining 1024) with
          | [] =>
            -- The stream has ended, so what is there must be classified as it is.
            match classifyTcp sniff.prefixBytes true with
            | .complete observed => sniff.decide observed
            | .needMore => sniff.decide .unknown
          | received =>
            { sniff with prefixBytes := sniff.prefixBytes ++ received }.collect lastInstant rest
        | .failed => (sniff, .ready (.error .io))
        | .pending => (sniff, .pending)

namespace PolicyFlow

variable (flow : PolicyFlow)

/-- Forward held back bytes once they are allowed. -/
def writePrefix (sniff : TcpSniff) (write : WriteOutcome) (maxWrite : Nat) :
    PolicyFlow × Poll (Except FlowError PumpReport) :=
  if flow.prefixOffset < sniff.prefixBytes.length then
    if maxWrite = 0 then (flow, .pending)
    else
      let stop := min sniff.prefixBytes.length (flow.prefixOffset + maxWrite)
      match write with
      | .taken count =>
        -- A write takes at most the bytes it was given.
        let written := min count (stop - flow.prefixOffset)
        if written = 0 then (flow, .ready (.error .writeZero))
        else
          let report : PumpReport := { written }
          if flow.prefixOffset + written = sniff.prefixBytes.length then
            ({ flow with sniff := none, prefixOffset := 0 }, .ready (.ok report))
          else
            ({ flow with prefixOffset := flow.prefixOffset + written }, .ready (.ok report))
      | .failed => (flow, .ready (.error .io))
      | .pending => (flow, .pending)
  else ({ flow with sniff := none, prefixOffset := 0 }, .ready (.ok {}))

/-- Classify the first bytes and forward them. -/
def pollSniff (input : StreamInput) (maxWrite : Nat) :
    PolicyFlow × Poll (Except FlowError PumpReport) :=
  match flow.sniff with
  | none => (flow, .ready (.ok {}))
  | some sniff =>
    let (sniff, gate) :=
      if sniff.allowed then (sniff, .ready (.ok ()))
      else sniff.collect input.lastInstant input.reads
    let flow := { flow with sniff := some sniff }
    match gate with
    | .pending => (flow, .pending)
    | .ready (.error fault) => (flow, .ready (.error fault))
    | .ready (.ok ()) => flow.writePrefix sniff input.prefixWrite maxWrite

/-- The pumps of a stream, after its first bytes were dealt with. -/
def pollPumps (input : StreamInput) (held : PumpReport)
    (maxStackToMux maxMuxToStack maxTotal : Nat) : Polled PolicyFlow PumpReport :=
  match pump input.upload (min maxStackToMux maxTotal) with
  | .ready (.error fault) =>
    { flow, result := .ready (.error fault), toMux := 0, toStack := held.written }
  | uploaded =>
    let upload := match uploaded with
      | .ready (.ok report) => report
      | _ => {}
    let remaining := maxTotal - upload.written - held.written
    match pump input.download (min maxMuxToStack remaining) with
    | .ready (.error fault) =>
      { flow, result := .ready (.error fault), toMux := upload.written, toStack := held.written }
    | downloaded =>
      let moved := match downloaded with
        | .ready (.ok report) => report
        | _ => {}
      let download : PumpReport :=
        { moved with
          read := saturatingAdd moved.read held.read
          written := saturatingAdd moved.written held.written }
      { flow
        result := if upload = {} ∧ download = {} then .pending else .ready (.ok (upload, download))
        toMux := upload.written
        toStack := moved.written + held.written }

/-- One poll of a stream flow. -/
def poll (input : StreamInput)
    (maxStackToMux maxMuxToStack maxTotal : Nat) : Polled PolicyFlow PumpReport :=
  match flow.pollSniff input (min maxMuxToStack maxTotal) with
  | (flow, .ready (.error fault)) =>
    { flow, result := .ready (.error fault), toMux := 0, toStack := 0 }
  | (flow, .pending) => { flow, result := .pending, toMux := 0, toStack := 0 }
  | (flow, .ready (.ok held)) =>
    if flow.sniff.isSome then
      { flow, result := .ready (.ok ({}, held)), toMux := 0, toStack := held.written }
    else flow.pollPumps input held maxStackToMux maxMuxToStack maxTotal

end PolicyFlow

namespace PolicyDatagramFlow

/-- The first datagram from the multiplexer must pass the waiting rules. -/
def pollDownload (flow : PolicyDatagramFlow) (input : DatagramInput) (allowed : Nat) :
    PolicyDatagramFlow × Poll (Except FlowError DatagramPumpReport) :=
  match flow.policy, input.first with
  | some policy, some datagram =>
    if observedAllowed policy (classifyUdp (datagram.take policy.maxBytes)) then
      ({ flow with policy := none }, datagramPump input.download allowed)
    else (flow, .ready (.error .denied))
  -- Nothing has come from the multiplexer yet, so there is nothing to send.
  | some _, none => (flow, datagramPump input.download 0)
  | none, _ => (flow, datagramPump input.download allowed)

/-- One poll of a datagram flow. -/
def poll (flow : PolicyDatagramFlow) (input : DatagramInput)
    (maxStackToMux maxMuxToStack maxTotal : Nat) :
    Polled PolicyDatagramFlow DatagramPumpReport :=
  match datagramPump input.upload (min maxStackToMux maxTotal) with
  | .ready (.error fault) =>
    { flow, result := .ready (.error fault), toMux := 0, toStack := 0 }
  | uploaded =>
    let upload := match uploaded with
      | .ready (.ok report) => report
      | _ => {}
    match flow.pollDownload input (min maxMuxToStack (maxTotal - upload.sent)) with
    | (flow, .ready (.error fault)) =>
      { flow, result := .ready (.error fault), toMux := upload.sent, toStack := 0 }
    | (flow, downloaded) =>
      let download := match downloaded with
        | .ready (.ok report) => report
        | _ => {}
      { flow
        result := if upload = {} ∧ download = {} then .pending else .ready (.ok (upload, download))
        toMux := upload.sent
        toStack := download.sent }

end PolicyDatagramFlow

end Snolc.Policy
