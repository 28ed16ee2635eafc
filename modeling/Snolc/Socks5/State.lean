import Mathlib.Data.List.Sort
import Snolc.Lib.Table
import Snolc.Lib.Vec
import Snolc.Lib.Word
import Snolc.Socks5.Client

/-! The SOCKS5 adapter: listeners that instances share, one poll of an instance, and its calls. -/

namespace Snolc.Socks5

inductive Status
  | ok
  | pending
  | invalid
  | denied
  | unsupported
  | resource
  | io
  | internal
  deriving DecidableEq, Repr

structure Options where
  listen : String
  maxConnections : Nat
  maxUdpAssociations : Nat
  maxRequestBytes : Nat
  rejectFragments : Bool
  deriving DecidableEq, Repr

/-- The parser of socket addresses, a library function. -/
structure Env where
  parseSocketAddr : String → Option SocketAddr

variable (env : Env)

/-- Whether options are consistent. -/
def Options.valid (options : Options) : Bool :=
  (env.parseSocketAddr options.listen).isSome && options.maxConnections ≠ 0 &&
    options.maxUdpAssociations ≠ 0 && options.maxRequestBytes ≥ 262 && options.rejectFragments

/-- The datagrams of a client, for as long as its control connection lasts. -/
structure UdpAssociation where
  control : ClientConnection
  socket : Socket
  client : Option SocketAddr := none
  destinations : Table (Address × UInt16) Nat := ∅
  deriving DecidableEq

structure State where
  listen : SocketAddr
  options : Options
  clients : List ClientConnection := []
  flows : Table Nat ClientFlow := ∅
  associations : List UdpAssociation := []
  udpFlows : Table Nat UdpClientFlow := ∅
  nextFlow : Nat := 1
  deriving DecidableEq

/-- A listening socket, the instances it serves, and the connections that wait for each of them. -/
structure ListenerGroup where
  members : List Nat := []
  queues : Table Nat (List Stream) := ∅
  next : Nat := 0
  deriving DecidableEq

/-- What a peek at a control connection shows. -/
inductive Peeked
  | data
  | closed
  | failed
  | wouldBlock
  deriving DecidableEq, Repr

/-- What a datagram socket answers to a receive. -/
inductive Arrival
  | datagram (source : SocketAddr) (data : Bytes)
  | failed
  | wouldBlock
  deriving DecidableEq

/-- What the sockets and the stack answer during one poll. -/
structure PollInput where
  /-- The connections the listener hands out. -/
  arrivals : List Stream
  /-- Whether a new connection takes its socket options. -/
  usable : Stream → Bool
  reads : Stream → List Received
  writes : Stream → List Sent
  /-- Whether there are buffers for the flow of a connection. -/
  buffers : Stream → Bool
  /-- The socket that is bound for an association, with its address. -/
  bind : Stream → Option (Socket × SocketAddr)
  flows : Nat → FlowInput
  controlWrites : Stream → List Sent
  peeks : Stream → Peeked
  datagrams : Socket → Arrival
  /-- Whether the socket of an association can be shared with a flow. -/
  clones : Socket → Bool
  udpFlows : Nat → UdpFlowInput

namespace ListenerGroup

/-- Queue a connection for the member whose turn it is. -/
def assign (group : ListenerGroup) (stream : Stream) : ListenerGroup :=
  match group.members[group.next % group.members.length]? with
  | none => group
  | some member =>
    { group with
      next := (group.next + 1) % group.members.length
      queues := match group.queues.lookup member with
        | none => group.queues
        | some queue => group.queues.insert member (queue ++ [stream]) }

/-- Make an instance a member. -/
def join (group : ListenerGroup) (instance_ : Nat) : ListenerGroup :=
  { group with
    members := group.members ++ [instance_]
    queues := group.queues.insert instance_ [] }

/-- Take an instance out. -/
def leave (group : ListenerGroup) (instance_ : Nat) : ListenerGroup :=
  let members := group.members.filter (· ≠ instance_)
  { members
    queues := group.queues.erase instance_
    next := min group.next (members.length - 1) }

end ListenerGroup

variable (state : State) (input : PollInput)

namespace State

/-- Take connections from the queue as long as there is room for them. -/
def takeClients (usable : Stream → Bool) : List Stream → State → List Stream × State
  | [], state => ([], state)
  | stream :: queue, state =>
    if state.clients.length + state.flows.len + state.associations.length <
        state.options.maxConnections then
      takeClients usable queue
        (if usable stream then { state with clients := state.clients ++ [{ stream }] } else state)
    else (stream :: queue, state)

/-- Share out new connections, then take those of this instance. -/
def acceptClients (listeners : Table SocketAddr ListenerGroup) (instance_ : Nat)
    (input : PollInput) (state : State) : Table SocketAddr ListenerGroup × State :=
  match listeners.lookup state.listen with
  | none => (listeners, state)
  | some group =>
    let group := input.arrivals.foldl ListenerGroup.assign group
    match group.queues.lookup instance_ with
    | none => (listeners.insert state.listen group, state)
    | some queue =>
      let (queue, state) := takeClients input.usable queue state
      (listeners.insert state.listen { group with queues := group.queues.insert instance_ queue },
        state)

def pollClient (limit : Nat) (client : ClientConnection) : ClientConnection :=
  match client.poll limit (input.reads client.stream) (input.writes client.stream) with
  | (true, client) => client
  | (false, client) => { client with phase := .failed }

def pollClients : State :=
  { state with clients := state.clients.map (pollClient input state.options.maxRequestBytes) }

/-- Turn a client whose request is known into a flow or an association. -/
def promote (input : PollInput) (state : State) (connection : ClientConnection)
    (request : Request) : State :=
  match request.command with
  | .connect =>
    let handle := state.nextFlow
    match checkedAdd handle 1 with
    | none => state
    | some next =>
      let state := { state with nextFlow := next }
      if input.buffers connection.stream then
        { state with flows := state.flows.insert handle (.new connection request) }
      else state
  | .udpAssociate =>
    if state.associations.length < state.options.maxUdpAssociations then
      match env.parseSocketAddr state.options.listen with
      | none => state
      | some _ =>
        match input.bind connection.stream with
        | none => state
        | some (socket, address) =>
          let control := connection.queue (socksBoundResponse address)
          { state with associations := state.associations ++ [{ control, socket }] }
    else state

/-- Take a client that is ready out of the list and promote it. -/
def promoteClient (input : PollInput) (state : State) (index : Nat) : State :=
  match state.clients[index]? with
  | none => state
  | some connection =>
    let state := { state with clients := Vec.swapRemove state.clients index }
    match connection.phase with
    | .ready request => state.promote env input connection request
    | _ => state

/-- Promote every client that is ready, the last one first. -/
def promoteClients (input : PollInput) (state : State) : State :=
  (Vec.positions ClientConnection.ready state.clients).reverse.foldl (promoteClient env input)
    state

def dropFailed : State :=
  { state with
    clients := state.clients.filter fun client =>
      client.phase ≠ .failed || !client.output.isEmpty }

/-- Poll every flow, then remove those that are finished. -/
def pollFlows : State :=
  let finished := state.flows.mapValues fun handle flow => flow.poll (input.flows handle)
  { state with
    flows := (finished.retain fun _ polled => !polled.1.ends).mapValues fun _ polled => polled.2 }

end State

/-- What the poll of an association comes to. -/
inductive AssociationPoll
  | closed
  | quiet
  | packet (source : SocketAddr) (packet : UdpPacket)
  deriving DecidableEq

/-- Take a datagram of the client of an association. -/
def UdpAssociation.receive (association : UdpAssociation) (arrival : Arrival) :
    AssociationPoll × UdpAssociation :=
  match arrival with
  | .datagram source data =>
    if association.client.any (· ≠ source) then (.quiet, association)
    else
      let association := { association with client := some source }
      match parseUdp data with
      | .ok packet => (.packet source packet, association)
      | .error _ => (.quiet, association)
  | .wouldBlock => (.quiet, association)
  | .failed => (.closed, association)

/-- Look after the control connection, then take a datagram. -/
def UdpAssociation.poll (association : UdpAssociation) : AssociationPoll × UdpAssociation :=
  match association.control.writePending (input.controlWrites association.control.stream) with
  | (false, control) => (.closed, { association with control })
  | (true, control) =>
    let association := { association with control }
    match input.peeks control.stream with
    | .closed => (.closed, association)
    | .failed => (.closed, association)
    | .data => association.receive (input.datagrams association.socket)
    | .wouldBlock => association.receive (input.datagrams association.socket)

/-- A datagram, with the association it came from and its source. -/
structure Packet where
  index : Nat
  source : SocketAddr
  packet : UdpPacket
  deriving DecidableEq

namespace State

/-- Change the destinations of an association. -/
def setDestinations (index : Nat)
    (change : Table (Address × UInt16) Nat → Table (Address × UInt16) Nat) : State :=
  { state with
    associations := state.associations.modify index fun association =>
      { association with destinations := change association.destinations } }

/-- Open a flow to a new destination, if there is room for it. -/
def openUdpFlow (state : State) (association : UdpAssociation) (packet : Packet) : State :=
  let key := (packet.packet.address, packet.packet.port)
  if state.flows.len + state.udpFlows.len ≥ state.options.maxConnections then state
  else
    let handle := state.nextFlow
    match checkedAdd handle 1 with
    | none => state
    | some next =>
      if input.clones association.socket then
        let flow : UdpClientFlow :=
          { socket := association.socket
            client := packet.source
            address := packet.packet.address
            port := packet.packet.port
            pendingUpload := some packet.packet.payload }
        { { state with nextFlow := next }.setDestinations packet.index (·.insert key handle) with
          udpFlows := state.udpFlows.insert handle flow }
      else state

/-- Hand a datagram to the flow of its destination, opening one where there is none. -/
def deliver (state : State) (packet : Packet) : State :=
  match state.associations[packet.index]? with
  | none => state
  | some association =>
    let key := (packet.packet.address, packet.packet.port)
    let existing := (association.destinations.lookup key).bind fun handle =>
      (state.udpFlows.lookup handle).map fun flow => (handle, flow)
    match existing with
    | some (handle, flow) =>
      if flow.pendingUpload.isNone then
        { state with
          udpFlows := state.udpFlows.insert handle
            { flow with pendingUpload := some packet.packet.payload } }
      else state
    | none =>
      (state.setDestinations packet.index (·.erase key)).openUdpFlow input association packet

/-- Poll every datagram flow, then remove those that are finished. -/
def pollUdpFlows : State :=
  let finished := state.udpFlows.mapValues fun handle flow => flow.poll (input.udpFlows handle)
  { state with
    udpFlows := (finished.retain fun _ polled => !polled.1.ends).mapValues fun _ polled =>
      polled.2 }

/-- The datagrams that arrived at the associations, in their order. -/
def packets (polls : List AssociationPoll) : List Packet :=
  polls.zipIdx.filterMap fun (poll, index) =>
    match poll with
    | .packet source packet => some { index, source, packet }
    | _ => none

/-- Remove associations by their positions, the last one first. -/
def closeAssociations (closed : List Nat) : State :=
  { state with
    associations := (closed.insertionSort (· ≤ ·)).dedup.reverse.foldl Vec.swapRemove
      state.associations }

def pollUdpAssociations : State :=
  let polled := state.associations.map (·.poll input)
  let polls := polled.map Prod.fst
  let state := { state with associations := polled.map Prod.snd }
  let state := (packets polls).foldl (deliver input) state
  (state.pollUdpFlows input).closeAssociations (Vec.positions (· = .closed) polls)

def poll (listeners : Table SocketAddr ListenerGroup) (instance_ : Nat)
    (input : PollInput) (state : State) : Table SocketAddr ListenerGroup × State :=
  let (listeners, state) := acceptClients listeners instance_ input state
  let state := (state.pollClients input).promoteClients env input
  (listeners, (state.dropFailed.pollFlows input).pollUdpAssociations input)

end State

inductive FlowKind
  | tcp
  | udp
  deriving DecidableEq, Repr

/-- A flow in the terms of the host. -/
structure FlowMetadata where
  kind : FlowKind
  addressType : AddressType
  address : Bytes
  port : UInt16
  deriving DecidableEq

namespace State

/-- Announce a stream the host has not seen, in the order of an iterator. -/
def announceFlow (order : List Nat) : Option ((Nat × FlowMetadata) × State) := do
  let handle ← (Table.visit order state.flows.keys).find? fun handle =>
    (state.flows.lookup handle).any (!·.announced)
  let flow ← state.flows.lookup handle
  return ((handle, ⟨.tcp, flow.addressType, flow.address, flow.port⟩),
    { state with flows := state.flows.insert handle { flow with announced := true } })

/-- Announce a datagram flow the host has not seen, in the order of an iterator. -/
def announceUdpFlow (order : List Nat) : Option ((Nat × FlowMetadata) × State) := do
  let handle ← (Table.visit order state.udpFlows.keys).find? fun handle =>
    (state.udpFlows.lookup handle).any (!·.announced)
  let flow ← state.udpFlows.lookup handle
  let (addressType, address) := flow.address.metadata
  return ((handle, ⟨.udp, addressType, address, flow.port⟩),
    { state with udpFlows := state.udpFlows.insert handle { flow with announced := true } })

/-- Attach the stack to a stream. -/
def attach (flow stackSocket : Nat) (valid : Bool) : Status × State :=
  match state.flows.lookup flow with
  | none => (.invalid, state)
  | some entry =>
    if entry.stack.isSome ∨ !valid then (.invalid, state)
    else
      (.ok,
        { state with flows := state.flows.insert flow { entry with stack := some stackSocket } })

/-- Attach the stack to a datagram flow. -/
def attachDatagram (flow stackSocket : Nat) (valid : Bool) : Status × State :=
  match state.udpFlows.lookup flow with
  | none => (.invalid, state)
  | some entry =>
    if entry.stack.isSome ∨ !valid then (.invalid, state)
    else
      (.ok,
        { state with
          udpFlows := state.udpFlows.insert flow { entry with stack := some stackSocket } })

def replyCode : Status → UInt8
  | .ok => 0
  | .denied => 2
  | .unsupported => 7
  | .io => 5
  | _ => 1

/-- Tell a flow whether its destination was reached. -/
def complete (flow : Nat) (status : Status) : Status × State :=
  match state.flows.lookup flow with
  | some entry =>
    (.ok,
      { state with
        flows := state.flows.insert flow
          { entry with
            response := socksResponse (replyCode status)
            responseOffset := 0
            accepted := some (status = .ok) } })
  | none =>
    match state.udpFlows.lookup flow with
    | some entry =>
      (.ok,
        { state with
          udpFlows := state.udpFlows.insert flow { entry with accepted := some (status = .ok) } })
    | none => (.invalid, state)

def closeFlow (flow : Nat) : Status × State :=
  (if (state.flows.lookup flow).isSome ∨ (state.udpFlows.lookup flow).isSome then .ok
    else .invalid,
    { state with flows := state.flows.erase flow, udpFlows := state.udpFlows.erase flow })

end State

/-- The instances of a process and the listeners they share. -/
structure World where
  listeners : Table SocketAddr ListenerGroup := ∅
  instances : Table Nat State := ∅
  deriving DecidableEq

/-- A call of the host, with what its surroundings answer. -/
inductive Call
  | initialize_ (instance_ : Nat) (options : Options) (listens : Bool)
  | accept (instance_ : Nat) (input : PollInput) (flowOrder udpOrder : List Nat)
  | attach (instance_ flow stackSocket : Nat) (valid : Bool)
  | attachDatagram (instance_ flow stackSocket : Nat) (valid : Bool)
  | complete (instance_ flow : Nat) (status : Status) (reasonLength : Nat)
  | closeFlow (instance_ flow : Nat)
  | poll (instance_ : Nat) (input : PollInput)
  | shutdown (instance_ : Nat)
  | destroy (instance_ : Nat)

/-- What a call answers. -/
inductive Obs
  | returned (status : Status)
  | announced (handle : Nat) (metadata : FlowMetadata)
  /-- A call that answers nothing. -/
  | done
  deriving DecidableEq

variable (world : World)

namespace World

variable (instance_ : Nat)

/-- Start an instance and have it share the listener of its address. -/
def initializeInstance (options : Options) (listens : Bool) : World × Obs :=
  if options.valid env then
    match env.parseSocketAddr options.listen with
    | none => (world, .returned .invalid)
    | some listen =>
      let group := world.listeners.lookup listen
      if group.isNone ∧ !listens then (world, .returned .io)
      else
        ({ listeners := world.listeners.insert listen ((group.getD {}).join instance_)
           instances := world.instances.insert instance_ { listen, options } },
          .returned .ok)
  else (world, .returned .invalid)

/-- Take an instance out of its listener; one without members is closed. -/
def unregisterListener (address : SocketAddr) : World :=
  match world.listeners.lookup address with
  | none => world
  | some group =>
    let group := group.leave instance_
    { world with
      listeners :=
        if group.members.isEmpty then world.listeners.erase address
        else world.listeners.insert address group }

/-- Remove an instance. -/
def shutdownInstance : World × Obs :=
  match world.instances.lookup instance_ with
  | none => (world, .returned .invalid)
  | some state =>
    ({ world with instances := world.instances.erase instance_ }.unregisterListener instance_
        state.listen,
      .returned .ok)

/-- Change the state of an instance. -/
def setInstance (state : State) : World :=
  { world with instances := world.instances.insert instance_ state }

/-- Call a function of the state of an instance. -/
def withInstance (call : State → Status × State) : World × Obs :=
  match world.instances.lookup instance_ with
  | none => (world, .returned .invalid)
  | some state =>
    let (status, state) := call state
    (world.setInstance instance_ state, .returned status)

def pollInstance (input : PollInput) : World × Obs :=
  match world.instances.lookup instance_ with
  | none => (world, .returned .invalid)
  | some state =>
    let (listeners, state) := state.poll env world.listeners instance_ input
    ({ world with listeners }.setInstance instance_ state, .returned .pending)

/-- Poll an instance, then announce a flow that is new. -/
def accept (input : PollInput) (flowOrder udpOrder : List Nat) : World × Obs :=
  match world.instances.lookup instance_ with
  | none => (world, .returned .invalid)
  | some state =>
    let (listeners, state) := state.poll env world.listeners instance_ input
    let world := { world with listeners }
    match state.announceFlow flowOrder with
    | some ((handle, metadata), state) =>
      (world.setInstance instance_ state, .announced handle metadata)
    | none =>
      match state.announceUdpFlow udpOrder with
      | some ((handle, metadata), state) =>
        (world.setInstance instance_ state, .announced handle metadata)
      | none => (world.setInstance instance_ state, .returned .pending)

/-- One call of the host. -/
def step : Call → World × Obs
  | .initialize_ instance_ options listens =>
    world.initializeInstance env instance_ options listens
  | .accept instance_ input flowOrder udpOrder =>
    world.accept env instance_ input flowOrder udpOrder
  | .attach instance_ flow stackSocket valid =>
    if flow = 0 ∨ stackSocket = 0 then (world, .returned .invalid)
    else world.withInstance instance_ (·.attach flow stackSocket valid)
  | .attachDatagram instance_ flow stackSocket valid =>
    if flow = 0 ∨ stackSocket = 0 then (world, .returned .invalid)
    else world.withInstance instance_ (·.attachDatagram flow stackSocket valid)
  | .complete instance_ flow status reasonLength =>
    if flow = 0 ∨ reasonLength > 256 then (world, .returned .invalid)
    else world.withInstance instance_ (·.complete flow status)
  | .closeFlow instance_ flow =>
    if flow = 0 then (world, .returned .invalid)
    else world.withInstance instance_ (·.closeFlow flow)
  | .poll instance_ input => world.pollInstance env instance_ input
  | .shutdown instance_ => world.shutdownInstance instance_
  | .destroy instance_ => ((world.shutdownInstance instance_).1, .done)

end World

/-- The adapter as a transition system. -/
def machine : System World Call Obs where
  step world call := ((world.step env call).1, [(world.step env call).2])

/-- No instance has been started. -/
def Fresh : Prop :=
  world = {}

end Snolc.Socks5
