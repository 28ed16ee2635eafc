import Snolc.Lib.Run
import Snolc.Carrier.Streams
import Snolc.Ssh.Worker

/-! The SSH carrier: the streams that the engine takes from the workers of its instances. -/

namespace Snolc.Ssh

open Snolc.Carrier (Status Streams)

structure InstanceState where
  worker : Worker
  ready : List EngineIo := []
  failures : Nat := 0
  failed : Bool := false
  connectPending : Bool := false
  client : Bool
  activeConnections : Nat := 0
  maxConnections : Nat

/-- The instances and streams of a thread, and the numbers for the next ones. -/
structure Carrier where
  instances : Table Nat InstanceState := ∅
  instanceNext : Nat := 1
  streams : Streams EngineIo := {}

/-- A call of create, with what its parts answer. -/
structure CreateCall where
  /-- The options, if they can be read. -/
  options : Option Options
  /-- Whether there is a place for the number of the instance. -/
  output : Bool
  host : Except Status Unit
  /-- Whether a thread can be had for the worker. -/
  spawn : Bool

/-- A call of connect or accept, with what the caller provides. -/
structure TakeCall where
  instance_ : Nat
  /-- Whether the endpoint is empty, unless it cannot be read. -/
  endpoint : Except Status Bool
  /-- Whether there is a place for the number of the stream. -/
  output : Bool

namespace InstanceState

variable (state : InstanceState)

/-- Take in one event of the worker. -/
def receive : WorkerEvent → InstanceState
  | .ready stream => { state with connectPending := false, ready := state.ready ++ [stream] }
  | .attemptFailed =>
    { state with connectPending := false, failures := saturatingAdd state.failures 1 }
  | .fatal => { state with failed := true }

/-- Take in one event, if there is one. -/
def receiveNext : InstanceState :=
  match state.worker.events with
  | [] => state
  | event :: events => { state with worker := { state.worker with events } }.receive event

/-- Take in all events, and see whether the worker is still there. -/
def drainEvents : InstanceState :=
  let drained := state.worker.events.foldl receive
    { state with worker := { state.worker with events := [] } }
  if state.worker.running then drained else { drained with failed := true }

/-- Ask the worker for a connection, unless it was asked before. -/
def start : Status × InstanceState :=
  if state.connectPending then (.pending, state)
  else if !state.worker.running then (.io, state)
  else if state.worker.capacity ≤ state.worker.commands.length then (.resource, state)
  else
    (.pending,
      { state with
        worker := { state.worker with commands := state.worker.commands ++ [.connect] }
        connectPending := true })

end InstanceState

/-- Hand out a stream, unless its number cannot be had. -/
def finishStream (streams : Streams EngineIo) (owner : Nat) (stream : EngineIo)
    (state : InstanceState) (output : Bool) : Status × InstanceState × Streams EngineIo :=
  if !output then (.invalid, state, streams)
  else
    match streams.finish owner stream with
    | (.error status, streams) => (status, state, streams)
    | (.ok _, streams) =>
      (.ok, { state with activeConnections := state.activeConnections + 1 }, streams)

/-- Hand out a stream that is ready, or wait for one. -/
def takeOrStart (streams : Streams EngineIo) (state : InstanceState) (owner : Nat)
    (output connect : Bool) : Status × InstanceState × Streams EngineIo :=
  match state.ready with
  | stream :: ready => finishStream streams owner stream { state with ready } output
  | [] =>
    if state.failures ≠ 0 then (.io, { state with failures := state.failures - 1 }, streams)
    else if state.failed then (.io, state, streams)
    else if state.maxConnections ≤ state.activeConnections then (.resource, state, streams)
    else if connect then (state.start.1, state.start.2, streams)
    else (.pending, state, streams)

variable (carrier : Carrier)

namespace Carrier

/-- Make an instance with its worker. -/
def create (call : CreateCall) : Carrier × List Status :=
  match call.options with
  | none => (carrier, [.invalid])
  | some options =>
    match options.validate with
    | .error _ => (carrier, [.invalid])
    | .ok () =>
      if !call.output then (carrier, [.invalid])
      else
        match call.host with
        | .error status => (carrier, [status])
        | .ok () =>
          if !call.spawn then (carrier, [.resource])
          else
            let handle := carrier.instanceNext
            let carrier := { carrier with instanceNext := wrappingAdd handle 1 }
            if handle = 0 then (carrier, [.resource])
            else
              let state : InstanceState :=
                { worker := { options }
                  client := options.mode = .connect
                  maxConnections := options.maxConnections }
              ({ carrier with instances := carrier.instances.insert handle state }, [.ok])

variable (instance_ : Nat)

/-- Take in the events of an instance. -/
def poll : Carrier × List Status :=
  match carrier.instances.lookup instance_ with
  | none => (carrier, [.invalid])
  | some state =>
    ({ carrier with instances := carrier.instances.insert instance_ state.drainEvents },
      [.pending])

/-- Take a stream of an instance in the mode of the call, once its events are in. -/
def take (output connect : Bool) : Carrier × List Status :=
  match carrier.instances.lookup instance_ with
  | none => (carrier, [.invalid])
  | some state =>
    let state := state.drainEvents
    if state.client ≠ connect then
      ({ carrier with instances := carrier.instances.insert instance_ state }, [.unsupported])
    else
      let (status, state, streams) := takeOrStart carrier.streams state instance_ output connect
      ({ carrier with
          instances := carrier.instances.insert instance_ state
          streams },
        [status])

/-- Take a stream to the configured server. -/
def connect (call : TakeCall) : Carrier × List Status :=
  match call.endpoint with
  | .error status => (carrier, [status])
  | .ok false => (carrier, [.unsupported])
  | .ok true => carrier.take call.instance_ call.output true

/-- Take a stream from a client. -/
def accept (call : TakeCall) : Carrier × List Status :=
  carrier.take call.instance_ call.output false

/-- Ask the worker of an instance to end. -/
def shutdown : Carrier × List Status :=
  match carrier.instances.lookup instance_ with
  | none => (carrier, [.invalid])
  | some state =>
    if !state.worker.running then (carrier, [.ok])
    else if state.worker.capacity ≤ state.worker.commands.length then (carrier, [.resource])
    else
      let worker := { state.worker with commands := state.worker.commands ++ [.shutdown] }
      ({ carrier with instances := carrier.instances.insert instance_ { state with worker } },
        [.ok])

/-- Close a stream, and let its instance have room for another one. -/
def close (handle : Nat) : Carrier × List Status :=
  match carrier.streams.close handle with
  | (none, _) => (carrier, [.invalid])
  | (some owner, streams) =>
    let carrier := { carrier with streams }
    match carrier.instances.lookup owner with
    | none => (carrier, [.ok])
    | some state =>
      let state := { state with activeConnections := state.activeConnections - 1 }
      ({ carrier with instances := carrier.instances.insert owner state }, [.ok])

/-- Remove an instance with its streams and its worker. -/
def destroy : Carrier × List Status :=
  ({ carrier with
      streams := carrier.streams.destroy instance_
      instances := carrier.instances.erase instance_ }, [])

/-- Change an instance in place. -/
def within (change : InstanceState → InstanceState) : Carrier :=
  match carrier.instances.lookup instance_ with
  | none => carrier
  | some state =>
    { carrier with instances := carrier.instances.insert instance_ (change state) }

end Carrier

inductive Event
  | create (call : CreateCall)
  | poll (instance_ : Nat)
  | connect (call : TakeCall)
  | accept (call : TakeCall)
  | shutdown (instance_ : Nat)
  | close (handle : Nat)
  | destroy (instance_ : Nat)
  /-- A call takes in one event while the worker goes on. -/
  | receive (instance_ : Nat)
  /-- The worker of an instance takes a step. -/
  | work (instance_ : Nat) (step : WorkerStep)
  /-- Another thread takes numbers for its instances and streams. -/
  | numbers (instances streams : Nat)

/-- One call, or a step of another thread. -/
def Carrier.step : Event → Carrier × List Status
  | .create call => carrier.create call
  | .poll instance_ => carrier.poll instance_
  | .connect call => carrier.connect call
  | .accept call => carrier.accept call
  | .shutdown instance_ => carrier.shutdown instance_
  | .close handle => carrier.close handle
  | .destroy instance_ => carrier.destroy instance_
  | .receive instance_ => (carrier.within instance_ InstanceState.receiveNext, [])
  | .work instance_ step =>
    (carrier.within instance_ fun state => { state with worker := state.worker.step step }, [])
  | .numbers instances streams =>
    ({ carrier with
        instanceNext := wrappingAdd carrier.instanceNext instances
        streams := { carrier.streams with next := wrappingAdd carrier.streams.next streams } }, [])

def machine : System Carrier Event Status where
  step := Carrier.step

/-- A carrier is loaded without instances. -/
def Fresh : Prop :=
  carrier = {}

end Snolc.Ssh
