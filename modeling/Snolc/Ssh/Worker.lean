import Snolc.Lib.Table
import Snolc.Lib.Word

/-! The worker of the SSH carrier: the sessions it runs and the events it reports. -/

namespace Snolc.Ssh

inductive Mode
  | connect
  | listen
  deriving DecidableEq, Repr

/-- The options of an instance, with what the key files and credentials of its mode say. -/
structure Options where
  mode : Mode
  port : UInt16
  username : String
  maxConnections : Nat
  queueChunks : Nat
  chunkBytes : Nat
  inactivityTimeoutMs : Nat
  credentials : Except String Unit

/-- Whether options are consistent. -/
def Options.validate (options : Options) : Except String Unit :=
  if options.port = 0 || options.username.isEmpty || 64 < options.username.utf8ByteSize ||
      options.maxConnections = 0 || options.queueChunks = 0 || 1024 < options.queueChunks ||
      options.chunkBytes = 0 || 65536 < options.chunkBytes || options.inactivityTimeoutMs = 0 then
    .error "SSH carrier options are inconsistent"
  else options.credentials

/-- The end of a bridge that the engine reads and writes, with its limits. -/
structure EngineIo where
  queueChunks : Nat
  chunkBytes : Nat
  deriving DecidableEq, Repr

inductive WorkerCommand
  | connect
  | shutdown
  deriving DecidableEq, Repr

inductive WorkerEvent
  | ready (io : EngineIo)
  | attemptFailed
  | fatal
  deriving DecidableEq, Repr

/-- A session of the server, with the channels that wait for a subsystem. -/
structure ServerSession where
  running : Bool := true
  channels : Table Nat Unit := ∅

/-- The worker of an instance, with its queues of commands and events. -/
structure Worker where
  options : Options
  commands : List WorkerCommand := []
  events : List WorkerEvent := []
  running : Bool := true
  /-- The sessions of the client that have not reported yet. -/
  attempts : Nat := 0
  /-- The sessions of the server that have not been joined. -/
  sessions : Table Nat ServerSession := ∅
  nextSession : Nat := 0

/-- What happens in the thread of a worker. -/
inductive WorkerStep
  /-- The worker ends with an error. -/
  | fails
  /-- The next command is received. -/
  | command
  /-- A session of the client has its channel, or does not get one. -/
  | attempt (connected : Bool)
  /-- A socket is accepted. -/
  | accepted
  | channelOpenSession (session channel : Nat)
  | subsystemRequest (session channel : Nat) (name : String)
  | sessionEnds (session : Nat)
  | joinNext (session : Nat)
  deriving DecidableEq, Repr

namespace Worker

variable (worker : Worker)

/-- How many commands and how many events the queues hold. -/
def capacity : Nat :=
  saturatingAdd worker.options.maxConnections 1

/-- Queue an event, if there is room. -/
def trySend (event : WorkerEvent) : Option Worker :=
  if worker.events.length < worker.capacity then
    some { worker with events := worker.events ++ [event] }
  else none

/-- Queue an event, or drop it. -/
def send (event : WorkerEvent) : Worker :=
  (worker.trySend event).getD worker

/-- The end of a bridge for the engine. -/
def pair : EngineIo :=
  ⟨worker.options.queueChunks, worker.options.chunkBytes⟩

/-- End the worker, with all its sessions. -/
def stop : Worker :=
  { worker with running := false, attempts := 0, sessions := ∅ }

/-- Receive a command. -/
def command : Worker :=
  match worker.commands with
  | [] => worker
  | .connect :: commands =>
    match worker.options.mode with
    | .connect => { worker with commands, attempts := worker.attempts + 1 }
    | .listen => { worker with commands }
  | .shutdown :: commands => stop { worker with commands }

/-- A session of the client reports how its attempt has gone. -/
def runClientSession (connected : Bool) : Worker :=
  if worker.attempts = 0 then worker
  else
    let worker := { worker with attempts := worker.attempts - 1 }
    if connected then
      match worker.trySend (.ready worker.pair) with
      | some worker => worker
      | none => worker.send .attemptFailed
    else worker.send .attemptFailed

/-- Start a session for a socket, unless there are as many sessions as connections. -/
def accepted : Worker :=
  if worker.options.maxConnections ≤ worker.sessions.len then worker
  else
    { worker with
      sessions := worker.sessions.insert worker.nextSession {}
      nextSession := worker.nextSession + 1 }

/-- Open a channel, unless another one waits for a subsystem. -/
def channelOpenSession (id channel : Nat) (session : ServerSession) : Worker :=
  if session.channels.len = 0 then
    { worker with
      sessions := worker.sessions.insert id
        { session with channels := session.channels.insert channel () } }
  else worker

/-- Give a channel to the engine. -/
def subsystemRequest (id channel : Nat) (name : String) (session : ServerSession) : Worker :=
  match session.channels.lookup channel with
  | none => worker
  | some () =>
    let session := { session with channels := session.channels.erase channel }
    let worker := { worker with sessions := worker.sessions.insert id session }
    if name ≠ "snolc" then worker
    else (worker.trySend (.ready worker.pair)).getD worker

/-- What a session of the server does, while it runs. -/
def inSession (id : Nat) (acts : ServerSession → Worker) : Worker :=
  match worker.sessions.lookup id with
  | none => worker
  | some session => if session.running then acts session else worker

/-- One step of a worker that runs. -/
def work (step : WorkerStep) : Worker :=
  match worker.options.mode, step with
  | _, .fails => worker.stop.send .fatal
  | _, .command => worker.command
  | .connect, .attempt connected => worker.runClientSession connected
  | .listen, .accepted => worker.accepted
  | .listen, .channelOpenSession id channel =>
    worker.inSession id (worker.channelOpenSession id channel)
  | .listen, .subsystemRequest id channel name =>
    worker.inSession id (worker.subsystemRequest id channel name)
  | .listen, .sessionEnds id =>
    worker.inSession id fun _ =>
      { worker with sessions := worker.sessions.insert id { running := false } }
  | .listen, .joinNext id =>
    match worker.sessions.lookup id with
    | none => worker
    | some session =>
      if session.running then worker else { worker with sessions := worker.sessions.erase id }
  | _, _ => worker

/-- One step of a worker, which does nothing once it has ended. -/
def step (step : WorkerStep) : Worker :=
  if worker.running then worker.work step else worker

end Worker

end Snolc.Ssh
