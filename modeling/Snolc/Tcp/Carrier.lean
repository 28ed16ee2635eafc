import Snolc.Lib.Run
import Snolc.Carrier.Streams

/-! The TCP carrier: every instance makes one attempt to connect at a time. -/

namespace Snolc.Tcp

open Snolc.Carrier (Status Streams)

inductive SocketAddr
  | v4 (ip : BitVec 32) (port : UInt16)
  | v6 (ip : BitVec 128) (port : UInt16) (flowinfo scopeId : BitVec 32)
  deriving DecidableEq, Repr

def SocketAddr.port : SocketAddr → UInt16
  | .v4 _ port => port
  | .v6 _ port _ _ => port

inductive Options
  | connect (endpointIp : SocketAddr) (maxConnections : Nat) (nodelay : Bool)
  | listen (endpointIp : SocketAddr) (maxConnections : Nat) (nodelay : Bool)
  deriving DecidableEq, Repr

/-- Whether options are consistent. -/
def Options.validate : Options → Except String Unit
  | .connect endpoint maxConnections _
  | .listen endpoint maxConnections _ =>
    if endpoint.port = 0 || maxConnections = 0 then
      .error "TCP carrier options are inconsistent"
    else .ok ()

/-- What the carrier takes from its libraries. -/
structure Env where
  /-- The text of an endpoint, read as a socket address. -/
  parseEndpoint : List UInt8 → Option SocketAddr

inductive ErrorKind
  | permissionDenied
  | wouldBlock
  | other
  deriving DecidableEq, Repr

/-- A connected socket, with the address at its other end. -/
structure TcpStream where
  peer : SocketAddr
  deriving DecidableEq, Repr

/-- An attempt to connect: not polled yet, or waiting until its socket is writable. -/
inductive ConnectFuture
  | start (endpoint : SocketAddr)
  | writable (stream : TcpStream)
  deriving DecidableEq, Repr

/-- What the system and the host answer to one poll of an attempt. -/
structure ConnectAnswers where
  socket : Except ErrorKind Unit
  protectSocket : Bool
  /-- An error other than that the connection is in progress. -/
  connect : Except ErrorKind Unit
  register : Except ErrorKind Unit
  /-- Whether the socket is writable, unless it is not yet. -/
  writable : Option (Except ErrorKind Unit)
  takeError : Except ErrorKind (Option ErrorKind)

/-- Wait until a socket is writable and look for the error of its connection. -/
def awaitWritable (answers : ConnectAnswers) (stream : TcpStream) :
    ConnectFuture ⊕ Except ErrorKind TcpStream :=
  match answers.writable with
  | none => .inl (.writable stream)
  | some (.error kind) => .inr (.error kind)
  | some (.ok ()) =>
    match answers.takeError with
    | .error kind => .inr (.error kind)
    | .ok (some kind) => .inr (.error kind)
    | .ok none => .inr (.ok stream)

/-- One poll of an attempt, which goes on or ends with a result. -/
def protectedConnect (answers : ConnectAnswers) :
    ConnectFuture → ConnectFuture ⊕ Except ErrorKind TcpStream
  | .start endpoint =>
    match answers.socket with
    | .error kind => .inr (.error kind)
    | .ok () =>
      if !answers.protectSocket then .inr (.error .permissionDenied)
      else
        match answers.connect with
        | .error kind => .inr (.error kind)
        | .ok () =>
          match answers.register with
          | .error kind => .inr (.error kind)
          | .ok () => awaitWritable answers ⟨endpoint⟩
  | .writable stream => awaitWritable answers stream

inductive Mode
  | connect (endpoint : SocketAddr)
  | listen
  deriving DecidableEq, Repr

structure InstanceState where
  mode : Mode
  maxConnections : Nat
  activeConnections : Nat := 0
  nodelay : Bool
  pendingConnect : Option ConnectFuture := none
  connectResult : Option (Except ErrorKind TcpStream) := none

/-- The instances and streams of a thread, and the numbers for the next ones. -/
structure Carrier where
  instances : Table Nat InstanceState := ∅
  instanceNext : Nat := 1
  streams : Streams TcpStream := {}

/-- What a call leaves behind. -/
inductive Obs
  | created (instance_ : Nat)
  | destroyed (instance_ : Nat)
  /-- A connect has started an attempt. -/
  | attempted (instance_ : Nat) (endpoint : SocketAddr)
  /-- An attempt has ended in a poll. -/
  | ended (instance_ : Nat) (result : Except ErrorKind TcpStream)
  /-- A connect for an endpoint has taken the result of an attempt, and answers with it. -/
  | answered (instance_ : Nat) (endpoint : SocketAddr) (result : Except ErrorKind TcpStream)
      (answer : Except Status Nat)
  | returned (status : Status)
  deriving DecidableEq

/-- A call of create, with what its parts answer. -/
structure CreateCall where
  /-- The options, if they can be read. -/
  options : Option Options
  /-- Whether there is a place for the number of the instance. -/
  output : Bool
  host : Except Status Unit
  /-- Whether a listener can be had. -/
  sharedListener : Bool

/-- A call of connect, with what the caller provides and the socket answers. -/
structure ConnectCall where
  instance_ : Nat
  endpoint : Except Status (List UInt8)
  /-- Whether there is a place for the number of the stream. -/
  output : Bool
  /-- Whether the socket takes its option. -/
  setNodelay : Bool

/-- A call of accept, with what the caller provides and the listener answers. -/
structure AcceptCall where
  instance_ : Nat
  output : Bool
  listener : Except ErrorKind SocketAddr
  register : Bool
  setNodelay : Bool

variable (carrier : Carrier)

namespace Carrier

/-- Make an instance. -/
def create (call : CreateCall) : Carrier × List Obs :=
  match call.options with
  | none => (carrier, [.returned .invalid])
  | some options =>
    match options.validate with
    | .error _ => (carrier, [.returned .invalid])
    | .ok () =>
      if !call.output then (carrier, [.returned .invalid])
      else
        match call.host with
        | .error status => (carrier, [.returned status])
        | .ok () =>
          let install (state : InstanceState) : Carrier × List Obs :=
            let handle := carrier.instanceNext
            let carrier := { carrier with instanceNext := wrappingAdd handle 1 }
            if handle = 0 then (carrier, [.returned .resource])
            else
              ({ carrier with instances := carrier.instances.insert handle state },
                [.created handle, .returned .ok])
          match options with
          | .connect endpoint maxConnections nodelay =>
            install { mode := .connect endpoint, maxConnections, nodelay }
          | .listen _ maxConnections nodelay =>
            if !call.sharedListener then (carrier, [.returned .io])
            else install { mode := .listen, maxConnections, nodelay }

/-- Let the attempt of an instance go on. -/
def poll (instance_ : Nat) (answers : ConnectAnswers) : Carrier × List Obs :=
  match carrier.instances.lookup instance_ with
  | none => (carrier, [.returned .invalid])
  | some state =>
    match state.pendingConnect with
    | none => (carrier, [.returned .pending])
    | some connect =>
      match protectedConnect answers connect with
      | .inl connect =>
        let state := { state with pendingConnect := some connect }
        ({ carrier with instances := carrier.instances.insert instance_ state },
          [.returned .pending])
      | .inr result =>
        let state := { state with pendingConnect := none, connectResult := some result }
        ({ carrier with instances := carrier.instances.insert instance_ state },
          [.ended instance_ result, .returned .pending])

/-- Hand out a stream, unless its socket or its number cannot be had. -/
def finishStream (streams : Streams TcpStream) (owner : Nat) (stream : TcpStream)
    (state : InstanceState) (output setNodelay : Bool) :
    Except Status Nat × InstanceState × Streams TcpStream :=
  if !output then (.error .invalid, state, streams)
  else if !setNodelay then (.error .io, state, streams)
  else
    match streams.finish owner stream with
    | (.error status, streams) => (.error status, state, streams)
    | (.ok handle, streams) =>
      (.ok handle, { state with activeConnections := state.activeConnections + 1 }, streams)

def answerStatus : Except Status Nat → Status
  | .ok _ => .ok
  | .error status => status

/-- The endpoint that a connect asks for, none for the one of the configuration. -/
def requested (env : Env) (call : ConnectCall) : Except Status (Option SocketAddr) :=
  match call.endpoint with
  | .error status => .error status
  | .ok [] => .ok none
  | .ok bytes =>
    match env.parseEndpoint bytes with
    | some endpoint => .ok (some endpoint)
    | none => .error .invalid

/-- Take the result of an attempt. -/
def takeResult (streams : Streams TcpStream) (call : ConnectCall) (state : InstanceState)
    (result : Except ErrorKind TcpStream) :
    Except Status Nat × InstanceState × Streams TcpStream :=
  let state := { state with connectResult := none }
  match result with
  | .ok stream =>
    finishStream streams call.instance_ stream state call.output call.setNodelay
  | .error _ => (.error .io, state, streams)

/-- Take the result of an attempt, or start one. -/
def connect (env : Env) (carrier : Carrier) (call : ConnectCall) : Carrier × List Obs :=
  match requested env call with
  | .error status => (carrier, [.returned status])
  | .ok requested =>
    match carrier.instances.lookup call.instance_ with
    | none => (carrier, [.returned .invalid])
    | some state =>
      if state.maxConnections ≤ state.activeConnections then (carrier, [.returned .resource])
      else
        match state.mode with
        | .listen => (carrier, [.returned .unsupported])
        | .connect configured =>
          let endpoint := requested.getD configured
          match state.connectResult with
          | some result =>
            let (answer, state, streams) := takeResult carrier.streams call state result
            ({ carrier with
                instances := carrier.instances.insert call.instance_ state
                streams },
              [.answered call.instance_ endpoint result answer, .returned (answerStatus answer)])
          | none =>
            if state.pendingConnect.isNone then
              let state := { state with pendingConnect := some (.start endpoint) }
              ({ carrier with instances := carrier.instances.insert call.instance_ state },
                [.attempted call.instance_ endpoint, .returned .pending])
            else (carrier, [.returned .pending])

/-- Take a connection from the listener of an instance. -/
def accept (call : AcceptCall) : Carrier × List Obs :=
  match carrier.instances.lookup call.instance_ with
  | none => (carrier, [.returned .invalid])
  | some state =>
    if state.maxConnections ≤ state.activeConnections then (carrier, [.returned .resource])
    else
      match state.mode with
      | .connect _ => (carrier, [.returned .unsupported])
      | .listen =>
        match call.listener with
        | .error .wouldBlock => (carrier, [.returned .pending])
        | .error _ => (carrier, [.returned .io])
        | .ok peer =>
          if !call.register then (carrier, [.returned .io])
          else
            let (answer, state, streams) :=
              finishStream carrier.streams call.instance_ ⟨peer⟩ state call.output call.setNodelay
            ({ carrier with
                instances := carrier.instances.insert call.instance_ state
                streams },
              [.returned (answerStatus answer)])

/-- Close a stream, and let its instance have room for another one. -/
def close (handle : Nat) : Carrier × List Obs :=
  match carrier.streams.close handle with
  | (none, _) => (carrier, [.returned .invalid])
  | (some owner, streams) =>
    let carrier := { carrier with streams }
    match carrier.instances.lookup owner with
    | none => (carrier, [.returned .ok])
    | some state =>
      let state := { state with activeConnections := state.activeConnections - 1 }
      ({ carrier with instances := carrier.instances.insert owner state }, [.returned .ok])

/-- Remove an instance with its streams. -/
def destroy (instance_ : Nat) : Carrier × List Obs :=
  ({ carrier with
      streams := carrier.streams.destroy instance_
      instances := carrier.instances.erase instance_ },
    [.destroyed instance_])

end Carrier

inductive Event
  | create (call : CreateCall)
  | poll (instance_ : Nat) (answers : ConnectAnswers)
  | connect (call : ConnectCall)
  | accept (call : AcceptCall)
  | close (handle : Nat)
  | destroy (instance_ : Nat)
  /-- Another thread takes numbers for its instances and streams. -/
  | numbers (instances streams : Nat)

/-- One call, or numbers that another thread takes. -/
def Carrier.step (env : Env) (carrier : Carrier) : Event → Carrier × List Obs
  | .create call => carrier.create call
  | .poll instance_ answers => carrier.poll instance_ answers
  | .connect call => carrier.connect env call
  | .accept call => carrier.accept call
  | .close handle => carrier.close handle
  | .destroy instance_ => carrier.destroy instance_
  | .numbers instances streams =>
    ({ carrier with
        instanceNext := wrappingAdd carrier.instanceNext instances
        streams := { carrier.streams with next := wrappingAdd carrier.streams.next streams } }, [])

def machine (env : Env) : System Carrier Event Obs where
  step carrier event := carrier.step env event

/-- A carrier is loaded without instances. -/
def Fresh : Prop :=
  carrier = {}

end Snolc.Tcp
