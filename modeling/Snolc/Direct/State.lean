import Snolc.Lib.Run
import Snolc.Direct.Worker

/-! The calls of the direct adapter: resolve, open, attach and close, by numbers of operations. -/

namespace Snolc.Direct

inductive DnsMode
  | system
  | rejectDomains
  deriving DecidableEq, Repr

structure Options where
  dnsMode : DnsMode
  maxPendingOpens : Nat
  maxResolvedAddresses : Nat
  resolveTimeoutMs : Nat
  connectTimeoutMs : Nat
  deriving DecidableEq, Repr

/-- What the adapter takes from the system and from its development kit. -/
structure Env where
  /-- The number of addresses that an encoding can hold. -/
  maxResolvedAddresses : Nat
  /-- Hand an encoded list of addresses over, in an output of so many bytes. -/
  writeResolvedAddresses : List IpAddr → Nat → Status
  /-- The last instant of the clock. -/
  lastInstant : Nat

variable (env : Env)

/-- Whether options are consistent. -/
def Options.valid (options : Options) : Bool :=
  options.maxPendingOpens ≠ 0 && options.maxResolvedAddresses ≠ 0 &&
    options.maxResolvedAddresses ≤ env.maxResolvedAddresses && options.resolveTimeoutMs ≠ 0 &&
    options.connectTimeoutMs ≠ 0

/-- An open whose request is with the worker. -/
structure PendingOpen where
  response : Nat
  deriving DecidableEq, Repr

/-- A resolution whose request is with the worker. -/
structure PendingResolution where
  response : Nat
  deadline : Nat
  deriving DecidableEq, Repr

/-- A flow between a socket of the stack and a connected socket. -/
structure DirectFlow where
  stack : Nat
  endpoint : SocketAddr
  deriving DecidableEq, Repr

/-- An instance of the adapter, with its worker. -/
structure State where
  options : Options
  worker : Worker := {}
  pendingResolutions : Table Nat PendingResolution := ∅
  resolved : Table Nat (List SocketAddr) := ∅
  pending : Table Nat PendingOpen := ∅
  ready : Table Nat Endpoint := ∅
  active : Table Nat DirectFlow := ∅
  activeDatagrams : Table Nat DirectFlow := ∅

/-- What a call leaves behind. -/
inductive Obs
  /-- Addresses have been stored for an operation. -/
  | stored (operation : Nat) (addresses : List SocketAddr)
  /-- A resolve has handed the stored addresses to the caller. -/
  | offered (operation : Nat) (addresses : List SocketAddr)
  /-- A request to connect has been queued. -/
  | requested (operation : Nat) (addresses : List SocketAddr)
  /-- An attach or a close has removed what was stored. -/
  | removed (operation : Nat)
  /-- An attach has put a flow in the place of another one. -/
  | overwritten (operation : Nat)
  | returned (status : Status)
  deriving DecidableEq, Repr

/-- A call of resolve, with what the caller provides. -/
structure ResolveCall where
  operation : Nat
  metadata : Except Status FlowMetadata
  wake : WakeHandle
  /-- The size of the output. -/
  capacity : Nat
  /-- Whether there is a place for the number of bytes written. -/
  counted : Bool
  now : Nat

/-- A call of open, with what the caller provides. -/
structure OpenCall where
  operation : Nat
  metadata : Except Status FlowMetadata
  wake : WakeHandle
  /-- Whether there is a place for the number of the flow. -/
  output : Bool

/-- A call of attach, with what its parts answer. -/
structure AttachCall where
  flow : Nat
  stackSocket : Nat
  /-- Whether the socket of the stack has all its functions. -/
  valid : Bool
  /-- Whether the flow gets its buffers and socket options. -/
  setup : Except DirectError Unit

/-- What a pump answers in a poll: whether it has finished, an error, or not yet. -/
inductive Pumped
  | report (finished : Bool)
  | failed
  | pending
  deriving DecidableEq, Repr

/-- Whether a flow ends in a poll: both pumps have finished, or one has failed. -/
def flowEnds : Pumped × Pumped → Bool
  | (.report upload, .report download) => upload && download
  | (.failed, _) => true
  | (_, .failed) => true
  | _ => false

namespace State

/-- Hand the addresses of an operation to the caller. -/
def offer (call : ResolveCall) (addresses : List SocketAddr) : List Obs :=
  let status := env.writeResolvedAddresses (addresses.map SocketAddr.ip) call.capacity
  if status = .ok then [.offered call.operation addresses, .returned .ok] else [.returned status]

/-- Store the addresses of an operation and hand them to the caller. -/
def store (state : State) (call : ResolveCall) (addresses : List SocketAddr) : State × List Obs :=
  ({ state with resolved := state.resolved.insert call.operation addresses },
    .stored call.operation addresses :: offer env call addresses)

/-- Look for the response to a resolution. -/
def finishResolution (state : State) (call : ResolveCall)
    (pending : PendingResolution) : State × List Obs :=
  let state := { state with
    pendingResolutions := state.pendingResolutions.erase call.operation }
  match state.worker.tryRecv state.worker.resolutions pending.response with
  | .received (.ok addresses) => state.store env call addresses
  | .received (.error fault) => (state, [.returned (errorStatus fault)])
  | .empty =>
    if call.now ≥ pending.deadline then (state, [.returned .io])
    else
      ({ state with
          pendingResolutions := state.pendingResolutions.insert call.operation pending },
        [.returned .pending])
  | .disconnected => (state, [.returned .io])

variable (state : State)

/-- Whether another request may be pending. -/
def hasRoom : Bool :=
  state.pending.len + state.pendingResolutions.len < state.options.maxPendingOpens

/-- Have a name resolved. -/
def startResolution (state : State) (call : ResolveCall) (domain : String)
    (port : UInt16) : State × List Obs :=
  match retainWake call.wake with
  | .error status => (state, [.returned status])
  | .ok () =>
    let deadline := call.now + state.options.resolveTimeoutMs
    if deadline > env.lastInstant then (state, [.returned .invalid])
    else
      match state.worker.trySend state.options.maxPendingOpens
          (.resolve domain port state.options.maxResolvedAddresses) with
      | .ok (response, worker) =>
        ({ state with
            worker
            pendingResolutions :=
              state.pendingResolutions.insert call.operation ⟨response, deadline⟩ },
          [.returned .pending])
      | .error .full => (state, [.returned .resource])
      | .error .disconnected => (state, [.returned .io])

/-- Store a destination that is an address, or have a name resolved. -/
def resolveDestination (state : State) (call : ResolveCall)
    (metadata : FlowMetadata) : State × List Obs :=
  if state.hasRoom then
    match ownedDestination metadata with
    | .error status => (state, [.returned status])
    | .ok (.ip address) => state.store env call [address]
    | .ok (.domain domain port) =>
      match state.options.dnsMode with
      | .rejectDomains => (state, [.returned .denied])
      | .system => state.startResolution env call domain port
  else (state, [.returned .resource])

/-- Find the addresses of an operation. -/
def resolve (state : State) (call : ResolveCall) : State × List Obs :=
  if call.operation = 0 ∨ !call.counted then (state, [.returned .invalid])
  else
    match call.metadata with
    | .error status => (state, [.returned status])
    | .ok metadata =>
      if metadata.kind = .other then (state, [.returned .unsupported])
      else
        match state.resolved.lookup call.operation with
        | some addresses => (state, offer env call addresses)
        | none =>
          match state.pendingResolutions.lookup call.operation with
          | some pending => state.finishResolution env call pending
          | none => state.resolveDestination env call metadata

/-- Look for the response to an open. -/
def finishOpen (call : OpenCall) (pending : PendingOpen) : State × List Obs :=
  let state := { state with pending := state.pending.erase call.operation }
  match state.worker.tryRecv state.worker.connections pending.response with
  | .received (.ok endpoint) =>
    ({ state with ready := state.ready.insert call.operation endpoint }, [.returned .ok])
  | .received (.error fault) => (state, [.returned (errorStatus fault)])
  | .empty =>
    ({ state with pending := state.pending.insert call.operation pending }, [.returned .pending])
  | .disconnected => (state, [.returned .io])

/-- Have the stored addresses connected. -/
def startOpen (call : OpenCall) (metadata : FlowMetadata) : State × List Obs :=
  if state.hasRoom then
    match state.resolved.lookup call.operation with
    | none => (state, [.returned .invalid])
    | some addresses =>
      match retainWake call.wake with
      | .error status => (state, [.returned status])
      | .ok () =>
        match state.worker.trySend state.options.maxPendingOpens
            (.connect metadata.kind addresses state.options.connectTimeoutMs) with
        | .ok (response, worker) =>
          ({ state with worker, pending := state.pending.insert call.operation ⟨response⟩ },
            [.requested call.operation addresses, .returned .pending])
        | .error .full => (state, [.returned .resource])
        | .error .disconnected => (state, [.returned .io])
  else (state, [.returned .resource])

/-- Open a flow to a resolved destination. -/
def open_ (call : OpenCall) : State × List Obs :=
  if call.operation = 0 then (state, [.returned .invalid])
  else
    match call.metadata with
    | .error status => (state, [.returned status])
    | .ok metadata =>
      if metadata.kind = .other then (state, [.returned .unsupported])
      else if !call.output then (state, [.returned .invalid])
      else if (state.ready.lookup call.operation).isSome then (state, [.returned .ok])
      else if (state.active.lookup call.operation).isSome then (state, [.returned .invalid])
      else
        match state.pending.lookup call.operation with
        | some pending => state.finishOpen call pending
        | none => state.startOpen call metadata

/-- An attach that finds a flow in its place. -/
def overwrites (flows : Table Nat DirectFlow) (flow : Nat) : List Obs :=
  if (flows.lookup flow).isSome then [.overwritten flow] else []

/-- Attach the stack to a stream. -/
def attach (call : AttachCall) : State × List Obs :=
  if call.flow = 0 ∨ call.stackSocket = 0 then (state, [.returned .invalid])
  else
    match state.ready.lookup call.flow with
    | none => (state, [.returned .invalid])
    | some endpoint =>
      let state := { state with
        ready := state.ready.erase call.flow
        resolved := state.resolved.erase call.flow }
      match endpoint with
      | .udp peer =>
        ({ state with ready := state.ready.insert call.flow (.udp peer) },
          [.removed call.flow, .returned .invalid])
      | .tcp peer =>
        if call.valid then
          match call.setup with
          | .error fault => (state, [.removed call.flow, .returned (errorStatus fault)])
          | .ok () =>
            ({ state with active := state.active.insert call.flow ⟨call.stackSocket, peer⟩ },
              .removed call.flow :: overwrites state.active call.flow ++ [.returned .ok])
        else (state, [.removed call.flow, .returned .invalid])

/-- Attach the stack to a datagram socket. -/
def attachDatagram (call : AttachCall) : State × List Obs :=
  if call.flow = 0 ∨ call.stackSocket = 0 then (state, [.returned .invalid])
  else
    match state.ready.lookup call.flow with
    | none => (state, [.returned .invalid])
    | some endpoint =>
      let state := { state with
        ready := state.ready.erase call.flow
        resolved := state.resolved.erase call.flow }
      match endpoint with
      | .tcp peer =>
        ({ state with ready := state.ready.insert call.flow (.tcp peer) },
          [.removed call.flow, .returned .invalid])
      | .udp peer =>
        if call.valid then
          match call.setup with
          | .error fault => (state, [.removed call.flow, .returned (errorStatus fault)])
          | .ok () =>
            ({ state with
                activeDatagrams :=
                  state.activeDatagrams.insert call.flow ⟨call.stackSocket, peer⟩ },
              .removed call.flow :: overwrites state.activeDatagrams call.flow ++
                [.returned .ok])
        else (state, [.removed call.flow, .returned .invalid])

/-- Whether anything is known of an operation. -/
def knows (operation : Nat) : Bool :=
  (state.pendingResolutions.lookup operation).isSome || (state.resolved.lookup operation).isSome ||
    (state.pending.lookup operation).isSome || (state.ready.lookup operation).isSome ||
    (state.active.lookup operation).isSome || (state.activeDatagrams.lookup operation).isSome

/-- Forget an operation. -/
def closeFlow (flow : Nat) : State × List Obs :=
  if flow = 0 then (state, [.returned .invalid])
  else
    ({ state with
        pendingResolutions := state.pendingResolutions.erase flow
        resolved := state.resolved.erase flow
        pending := state.pending.erase flow
        ready := state.ready.erase flow
        active := state.active.erase flow
        activeDatagrams := state.activeDatagrams.erase flow },
      [.removed flow, .returned (if state.knows flow then .ok else .invalid)])

/-- Take note of how the attempt of the host has ended; a failed one closes the flow. -/
def complete (flow : Nat) (status : Status) (reasonLength : Nat) : State × List Obs :=
  if flow = 0 ∨ reasonLength > 256 then (state, [.returned .invalid])
  else if status = .ok then (state, [.returned .ok])
  else state.closeFlow flow

/-- Poll the flows and remove those that have ended. -/
def poll (streams datagrams : Nat → Pumped × Pumped) : State × List Obs :=
  ({ state with
      active := state.active.retain fun flow _ => !flowEnds (streams flow)
      activeDatagrams := state.activeDatagrams.retain fun flow _ => !flowEnds (datagrams flow) },
    [.returned .pending])

end State

/-- A call of the host, or a step of the worker. -/
inductive Event
  | resolve (call : ResolveCall)
  | open_ (call : OpenCall)
  | attach (call : AttachCall)
  | attachDatagram (call : AttachCall)
  | complete (flow : Nat) (status : Status) (reasonLength : Nat)
  | closeFlow (flow : Nat)
  | poll (streams datagrams : Nat → Pumped × Pumped)
  /-- The worker takes the next request. -/
  | recv
  /-- The worker responds to the request in hand. -/
  | respond (found : Option (List SocketAddr)) (connects : SocketAddr → Bool)
  /-- The thread of the worker ends. -/
  | stop

/-- One call, or one step of the worker. -/
def State.step (state : State) : Event → State × List Obs
  | .resolve call => state.resolve env call
  | .open_ call => state.open_ call
  | .attach call => state.attach call
  | .attachDatagram call => state.attachDatagram call
  | .complete flow status reasonLength => state.complete flow status reasonLength
  | .closeFlow flow => state.closeFlow flow
  | .poll streams datagrams => state.poll streams datagrams
  | .recv => ({ state with worker := state.worker.recv }, [])
  | .respond found connects => ({ state with worker := state.worker.respond found connects }, [])
  | .stop => ({ state with worker := state.worker.stop }, [])

/-- An instance of the adapter as a transition system. -/
def machine : System State Event Obs where
  step := State.step env

/-- An instance that has just been initialized with consistent options. -/
def Fresh (state : State) : Prop :=
  ∃ options : Options, options.valid env = true ∧ state = { options }

end Snolc.Direct
