import Snolc.Lib.Run
import Snolc.Policy.Control

/-! The instance as a machine: engine calls, storage, crashes and restarts, interleaved. -/

namespace Snolc.Policy

/-- A quota pass in progress. -/
structure QuotaPass where
  now : Nat
  active : List String
  todo : List String
  stopped : List String
  remove : List String
  /-- Whether the pass belongs to a shutdown rather than a poll. -/
  shutdown : Bool
  deriving DecidableEq, Repr

/-- Where the engine thread is between two of its steps. -/
inductive Phase
  | idle
  | quota (pass : QuotaPass)
  | pump
  /-- Sessions still to be polled; the flag says that the first one has had its messages. -/
  | sessions (todo : List Nat) (received : Bool)
  deriving DecidableEq, Repr

/-- The durable table alone, or an instance over it. -/
inductive World
  | down (store : Table Key Value)
  | up (phase : Phase) (state : State)

/-- What is durable. -/
def World.store : World → Table Key Value
  | down store => store
  | up _ state => state.storage.store

/--
What can happen next.

The worker thread moves with `receive` and `finish`, in any phase of the engine.
The steps of a poll are `beginPoll`, one `quotaTurn` per user, `endQuota`, `pump`, one
`receiveMessages` and one `advanceSession` per session, and `endPoll`.
Flow numbers are the host's own names for the flows it opens and never reach the instance.
-/
inductive Event
  | receive
  | finish (outcome : Outcome)
  | attachSession (context : Bytes) (instant elsewhere : Nat)
  | admitFlow (session flow : Nat) (metadata : FlowMetadata) (utc : Nat)
  | admitResolved (session flow : Nat) (metadata : FlowMetadata) (utc : Nat)
  /-- The host gives a flow up after it was admitted. -/
  | abandonFlow (session flow : Nat)
  | attachFlow (session flow : Nat) (input : State.AttachInput)
  | attachDatagramFlow (session flow : Nat) (input : State.AttachInput)
  | control (input : ControlInput)
  | beginPoll (utc now : Nat) (order : List String)
  | quotaTurn (instant : Nat)
  | endQuota
  | pump (input : PumpInput) (order : List Nat)
  | receiveMessages (input : SessionInput)
  | advanceSession (input : SessionInput)
  | endPoll
  | beginShutdown (now : Nat) (order : List String)
  /-- The process ends, possibly in the middle of a pump pass. -/
  | crash (pumping : Option (PumpInput × Nat))
  | start (options : Options) (started sessionNext flowNext : Nat)

/-- What a run leaves in its history. -/
inductive Obs
  /-- The worker executed a command. -/
  | executed (command : Command)
  /-- A call returned the response of the write it had waited for. -/
  | acknowledged (write : PendingWrite)
  /-- An administrative call returned. -/
  | answered (request : Bytes) (result : Except Status Bytes)
  /-- Random bytes were there for the name of a new user. -/
  | drew (id : String)
  /-- A server session admitted a flow. -/
  | admitted (session flow : Nat) (identity : FlowIdentity)
  /-- A resolved address was decided. -/
  | resolved (session flow : Nat) (status : Status)
  | abandoned (session flow : Nat)
  /-- A waiting identity was consumed for a flow, which was created under a handle or not. -/
  | attached (session flow : Nat) (identity : FlowIdentity) (handle : Option Nat)
  | pumped (event : PumpEvent)
  | crashed
  deriving DecidableEq

variable (state : State)

namespace State

/-- The pass over the users of a poll or a shutdown. -/
def quotaPass (now : Nat) (order stopped : List String) (shutdown : Bool) : QuotaPass where
  now
  active := state.activeUsers
  todo := Table.visit order state.quotaUsers
  stopped
  remove := []
  shutdown

/-- Close everything a client uses, once. -/
def closeAll : State :=
  if state.shuttingDown then state
  else { state with shuttingDown := true, sessions := ∅, flows := ∅, datagramFlows := ∅ }

/-- Whether the call returns the response of the write it has waited for. -/
def acknowledges (input : ControlInput) : Option PendingWrite :=
  match state.pendingControl with
  | some (.write write) =>
    if write.request = input.request ∧ state.storage.tryRecv write.reply = .ok .done ∧
        (state.admin.sequencer.applyCommit write.clientId write.receipt).isOk then
      some write
    else none
  | _ => none

/-- The observations of an administrative call. -/
def controlObs (input : ControlInput) (result : Except Status Bytes) : List Obs :=
  (input.entropy.map fun bytes => Obs.drew (encodeHex bytes)).toList ++
    .answered input.request result :: (state.acknowledges input).toList.map .acknowledged

/-- The observations of an attachment that consumes an identity. -/
def attachObs (session flow : Nat) (input : AttachInput) (status : Status) : List Obs :=
  match state.takeIdentity session with
  | .ok (some identity, _) =>
    let handle := if status = .ok then some (state.flowNext + input.elsewhere) else none
    [.attached session flow identity handle]
  | _ => []

def admitObs (env : Env) (state : State) (session flow : Nat) (metadata : FlowMetadata)
    (utc : Nat) : List Obs :=
  match state.admission env session metadata utc with
  | .ok (some identity) => [.admitted session flow identity]
  | _ => []

end State

/-- The end of a quota pass: a poll goes on to its flows, a shutdown to the worker. -/
def endQuota (pass : QuotaPass) : World :=
  let state := state.removeTraffic pass.remove
  if !pass.shutdown then .up .pump (state.dropFlows pass.stopped)
  else if state.traffic.keys ≠ [] then .up .idle state
  else
    match state.storage.pollShutdown with
    | (storage, .ok true) => .down storage.store
    | (storage, _) => .up .idle { state with storage }

def finishObs (worker : StorageWorker) (outcome : Outcome) : List Obs :=
  match outcome with
  | .success => worker.held.toList.map .executed
  | _ => []

/-- One step of the worker thread or of an engine thread that is not in a poll. -/
def idleStep (env : Env) (state : State) : Event → Option (World × List Obs)
  | .attachSession context instant elsewhere =>
    some (.up .idle (state.attachSession env context instant elsewhere).2, [])
  | .admitFlow session flow metadata utc =>
    some (.up .idle (state.admitFlow env session metadata utc).2,
      state.admitObs env session flow metadata utc)
  | .admitResolved session flow metadata utc =>
    some (.up .idle state,
      [.resolved session flow (state.admitResolved env session metadata utc)])
  | .abandonFlow session flow => some (.up .idle state, [.abandoned session flow])
  | .attachFlow session flow input =>
    let (status, attached) := state.attachFlow session input
    some (.up .idle attached, state.attachObs session flow input status)
  | .attachDatagramFlow session flow input =>
    let (status, attached) := state.attachDatagramFlow session input
    some (.up .idle attached, state.attachObs session flow input status)
  | .control input =>
    let (result, answered) := state.controlInstance env input
    some (.up .idle answered, state.controlObs input result)
  | .beginPoll utc now order =>
    if state.maintenance then some (.up .idle state, [])
    else
      let state := state.observeUtc utc
      some (.up (.quota (state.quotaPass now order (state.barredUsers utc) false)) state, [])
  | .beginShutdown now order =>
    let state := state.closeAll
    some (.up (.quota (state.quotaPass now order [] true)) state, [])
  | _ => none

/-- One step of an engine thread in the middle of a poll or a shutdown. -/
def busyStep (env : Env) (state : State) : Phase → Event → Option (World × List Obs)
  | .quota pass, .quotaTurn instant =>
    match pass.todo with
    | [] => none
    | userId :: rest =>
      let stage := state.quotaTurn (userId ∈ pass.active) pass.now instant userId
      some (.up (.quota
        { pass with
          todo := rest
          stopped := if stage.verdict.stop then pass.stopped ++ [userId] else pass.stopped
          remove := if stage.verdict.remove then pass.remove ++ [userId] else pass.remove })
        stage.state, [])
  | .quota pass, .endQuota => if pass.todo = [] then some (endQuota state pass, []) else none
  | .pump, .pump input order =>
    let (state, events) := state.pumpFlows input
    some (.up (.sessions (Table.visit order state.sessions.keys) false) state,
      events.map .pumped)
  | .sessions (handle :: rest) false, .receiveMessages input =>
    some (.up (.sessions (handle :: rest) true)
      (state.withSession handle (receiveMessages env input)), [])
  | .sessions (handle :: rest) true, .advanceSession input =>
    some (.up (.sessions rest false) (state.withSession handle (advanceSession env input)), [])
  | .sessions [] _, .endPoll => some (.up .idle state.dropOrphans, [])
  | _, _ => none

/-- The observations of a process that ends, in the middle of a pump pass if it was in one. -/
def crashObs (phase : Phase) (pumping : Option (PumpInput × Nat)) : List Obs :=
  match phase, pumping with
  | .pump, some (input, count) => ((state.pumpFlows input).2.take count).map .pumped ++ [.crashed]
  | _, _ => [.crashed]

theorem mem_crashObs {state : State} {phase : Phase} {pumping : Option (PumpInput × Nat)}
    {obs : Obs} (member : obs ∈ crashObs state phase pumping) :
    obs = .crashed ∨ ∃ event, obs = .pumped event := by
  unfold crashObs at member
  split at member
  · rcases List.mem_append.mp member with pumped | last
    · obtain ⟨event, _, rfl⟩ := List.mem_map.mp pumped
      exact .inr ⟨event, rfl⟩
    · exact .inl (List.mem_singleton.mp last)
  · exact .inl (List.mem_singleton.mp member)

theorem crashObs_pumped {state : State} {phase : Phase} {pumping : Option (PumpInput × Nat)}
    {event : PumpEvent} (member : .pumped event ∈ crashObs state phase pumping) :
    ∃ input, event ∈ (state.pumpFlows input).2 := by
  unfold crashObs at member
  split at member
  next input count =>
    rcases List.mem_append.mp member with pumped | last
    · obtain ⟨seen, within, same⟩ := List.mem_map.mp pumped
      rw [Obs.pumped.injEq] at same
      exact ⟨input, List.mem_of_mem_take (same ▸ within)⟩
    · simp at last
  · simp at member

/-- One step of the machine; an event that cannot happen changes nothing. -/
def World.step (env : Env) : World → Event → World × List Obs
  | .down store, .start options started sessionNext flowNext =>
    match State.initializeInstance env options store started sessionNext flowNext with
    | .ok state => (.up .idle state, [])
    | .error _ => (.down store, [])
  | .down store, _ => (.down store, [])
  | .up phase state, .receive =>
    (.up phase { state with storage := state.storage.receive }, [])
  | .up phase state, .finish outcome =>
    (.up phase { state with storage := state.storage.finish outcome },
      finishObs state.storage outcome)
  | .up phase state, .crash pumping => (.down state.storage.store, crashObs state phase pumping)
  | .up .idle state, event => (idleStep env state event).getD (.up .idle state, [])
  | .up phase state, event => (busyStep env state phase event).getD (.up phase state, [])

/-- The transition system of an instance. -/
def machine (env : Env) : System World Event Obs where
  step := World.step env

/-- An instance begins with nothing stored and nothing running. -/
def Fresh (world : World) : Prop :=
  world = .down ∅

end Snolc.Policy
