import Snolc.Lib.Run
import Snolc.Socks5.Request

/-! What the adapter holds for each peer: connections that negotiate, flows and associations. -/

namespace Snolc.Socks5

/-- A byte stream to a peer, known by a number. -/
abbrev Stream := Nat

/-- A datagram socket, known by a number. -/
abbrev Socket := Nat

/-- What a byte stream answers to a read: bytes, the end as no bytes, an error, or not yet. -/
inductive Received
  | bytes (data : Bytes)
  | failed
  | wouldBlock
  deriving DecidableEq, Repr

/-- What a socket answers to a write: a number of bytes taken, an error, or not yet. -/
inductive Sent
  | taken (count : Nat)
  | failed
  | wouldBlock
  deriving DecidableEq, Repr

/-- How an attempt to write all bytes ends. -/
inductive Written
  | done
  | blocked
  | failed
  deriving DecidableEq, Repr

/--
Write bytes from an offset on until all are taken.

The stream answers each write in turn; what it has not answered yet would block.
-/
def writeAll (bytes : Bytes) : List Sent → Nat → Written × Nat
  | [], offset => (if offset < bytes.length then .blocked else .done, offset)
  | answer :: answers, offset =>
    if offset < bytes.length then
      match answer with
      | .taken count =>
        -- A write takes at most the bytes it was given, and none at all is an error.
        let count := min count (bytes.length - offset)
        if count = 0 then (.failed, offset) else writeAll bytes answers (offset + count)
      | .failed => (.failed, offset)
      | .wouldBlock => (.blocked, offset)
    else (.done, offset)

inductive ClientPhase
  | greeting
  | request
  | ready (request : Request)
  | failed
  deriving DecidableEq

/-- A connection whose greeting and request are being read. -/
structure ClientConnection where
  stream : Stream
  input : Bytes := []
  output : Bytes := []
  outputOffset : Nat := 0
  phase : ClientPhase := .greeting
  deriving DecidableEq

namespace ClientConnection

variable (connection : ClientConnection)

/-- Add bytes to what is to be written. -/
def queue (bytes : Bytes) : ClientConnection :=
  if connection.outputOffset = connection.output.length then
    { connection with output := bytes, outputOffset := 0 }
  else { connection with output := connection.output ++ bytes }

/-- Take a greeting, once it is complete. -/
def parseGreeting : ClientConnection :=
  match connection.input with
  | version :: methods :: offered =>
    let total := 2 + methods.toNat
    if connection.input.length < total then connection
    else if version ≠ 5 ∨ 0 ∉ offered.take methods.toNat then
      { connection.queue [5, 0xff] with phase := .failed }
    else
      { { connection with input := connection.input.drop total }.queue [5, 0] with
        phase := .request }
  | _ => connection

/-- Take a request, once it is complete. -/
def parseBody : ClientConnection :=
  match requestLength connection.input with
  | none => connection
  | some length =>
    if connection.input.length < length then connection
    else
      match parseRequest (connection.input.take length) with
      | .ok request =>
        { connection with input := connection.input.drop length, phase := .ready request }
      | .error _ => { connection.queue (socksResponse 1) with phase := .failed }

/-- Take what is complete of the greeting and the request. -/
def parse : ClientConnection :=
  let connection :=
    if connection.phase = .greeting then connection.parseGreeting else connection
  if connection.phase = .request then connection.parseBody else connection

def writePending (answers : List Sent) : Bool × ClientConnection :=
  match writeAll connection.output answers connection.outputOffset with
  | (.done, _) => (true, { connection with output := [], outputOffset := 0 })
  | (.blocked, offset) => (true, { connection with outputOffset := offset })
  | (.failed, offset) => (false, { connection with outputOffset := offset })

/-- Read until nothing is there; false if the stream has failed. -/
def readInput (limit : Nat) : List Received → ClientConnection → Bool × ClientConnection
  | [], connection => (true, connection)
  | answer :: answers, connection =>
    match answer with
    | .bytes data =>
      match data.take 1024 with
      | [] => (true, { connection with phase := .failed })
      | received =>
        if connection.input.length + received.length > limit then
          (true, { connection with phase := .failed })
        else readInput limit answers { connection with input := connection.input ++ received }
    | .failed => (false, connection)
    | .wouldBlock => (true, connection)

/-- Read, take what is complete, and write the replies; false if the stream has failed. -/
def poll (limit : Nat) (reads : List Received) (writes : List Sent) : Bool × ClientConnection :=
  match readInput limit reads connection with
  | (false, connection) => (false, connection)
  | (true, connection) => connection.parse.writePending writes

/-- The request has been read and every reply has been written. -/
def ready : Bool :=
  match connection.phase with
  | .ready _ => connection.output.isEmpty
  | _ => false

end ClientConnection

inductive AddressType
  | ipv4
  | ipv6
  | domain
  deriving DecidableEq, Repr

/-- An address in the terms of the host. -/
def Address.metadata : Address → AddressType × Bytes
  | ipv4 octets => (.ipv4, octets.val)
  | ipv6 octets => (.ipv6, octets.val)
  | domain name => (.domain, toUtf8 name)

inductive Poll (α : Type)
  | ready (value : α)
  | pending
  deriving DecidableEq, Repr

/-- The stream of a client, with bytes that were read before the flow began. -/
structure SocksIo where
  stream : Stream
  prefixBytes : Bytes
  deriving DecidableEq, Repr

/-- Read from the bytes that came early, then from the stream; none is an error. -/
def SocksIo.pollRead (io : SocksIo) (capacity : Nat) (answer : Received) :
    Poll (Option Bytes) × SocksIo :=
  if io.prefixBytes.isEmpty then
    match answer with
    | .bytes data => (.ready (some (data.take capacity)), io)
    | .failed => (.ready none, io)
    | .wouldBlock => (.pending, io)
  else
    (.ready (some (io.prefixBytes.take capacity)),
      { io with prefixBytes := io.prefixBytes.drop capacity })

/-- What a pump, a library function, answers to one call. -/
inductive Pumped
  | report (finished : Bool)
  | failed
  | pending
  deriving DecidableEq, Repr

/-- What a pump does next: ask the client for bytes, or have the stack take some. -/
inductive PumpAction
  | read (capacity : Nat) (answer : Received)
  | write (count : Nat)
  deriving DecidableEq, Repr

/-- What a pump has done, with the bytes that came from the socket or went to the stack. -/
inductive PumpEvent
  | read (capacity : Nat) (streamed : Bytes)
  | wrote (data : Bytes)
  deriving DecidableEq, Repr

/-- A client, and what was read from it and not yet written to the stack. -/
structure Upload where
  client : SocksIo
  held : Bytes
  deriving DecidableEq, Repr

/-- The pump of an upload, a library: it appends what it reads and writes from the front. -/
def uploadPump : System Upload PumpAction PumpEvent where
  step upload action :=
    match action with
    | .read capacity answer =>
      match upload.client.pollRead capacity answer with
      | (.ready (some bytes), client) =>
        ({ client, held := upload.held ++ bytes },
          -- Only a client with no early byte left reads from its socket.
          [.read capacity (if upload.client.prefixBytes.isEmpty then bytes else [])])
      | (_, client) => ({ upload with client }, [.read capacity []])
    | .write count =>
      ({ upload with held := upload.held.drop count }, [.wrote (upload.held.take count)])

/-- What the client and the stack answer during one poll of a flow. -/
structure FlowInput where
  writes : List Sent
  actions : List PumpAction
  upload : Pumped
  download : Pumped

/-- A stream of a client to a destination. -/
structure ClientFlow where
  client : SocksIo
  addressType : AddressType
  address : Bytes
  port : UInt16
  announced : Bool := false
  stack : Option Nat := none
  upload : Bytes := []
  response : Bytes := []
  responseOffset : Nat := 0
  accepted : Option Bool := none
  deriving DecidableEq

namespace ClientFlow

/-- The flow of a client that has asked for a destination. -/
def new (connection : ClientConnection) (request : Request) : ClientFlow where
  client := { stream := connection.stream, prefixBytes := connection.input }
  addressType := request.address.metadata.1
  address := request.address.metadata.2
  port := request.port

/-- What the upload pump does in one poll, and where that leads. -/
def uploaded (flow : ClientFlow) (input : FlowInput) : List PumpEvent × Upload :=
  uploadPump.execute ([], ⟨flow.client, flow.upload⟩) input.actions

/-- Pump both ways; true once both are finished, none on an error. -/
def pump (flow : ClientFlow) (input : FlowInput) : Poll (Option Bool) × ClientFlow :=
  let after := (flow.uploaded input).2
  let flow := { flow with client := after.client, upload := after.held }
  match input.upload, input.download with
  | .report upload, .report download => (.ready (some (upload && download)), flow)
  | .failed, _ => (.ready none, flow)
  | _, .failed => (.ready none, flow)
  | _, _ => (.pending, flow)

/-- Answer the client, then pump once the destination is reached. -/
def poll (flow : ClientFlow) (input : FlowInput) : Poll (Option Bool) × ClientFlow :=
  match writeAll flow.response input.writes flow.responseOffset with
  | (.failed, offset) => (.ready none, { flow with responseOffset := offset })
  | (.blocked, offset) => (.pending, { flow with responseOffset := offset })
  | (.done, offset) =>
    let flow := { flow with responseOffset := offset }
    match flow.accepted with
    | some false => (.ready (some true), flow)
    | none => (.pending, flow)
    | some true => if flow.stack.isSome then flow.pump input else (.pending, flow)

end ClientFlow

/-- What the stack answers when a datagram is sent. -/
inductive Handed
  | done
  | failed
  | pending
  deriving DecidableEq, Repr

/-- What the stack answers when a datagram is asked for. -/
inductive DatagramRecv
  | datagram (payload : Bytes)
  | bufferTooSmall
  | closed
  | failed
  | pending
  deriving DecidableEq, Repr

/-- What the sockets of a datagram flow answer during one poll. -/
structure UdpFlowInput where
  send : Handed
  retry : Sent
  receive : DatagramRecv
  reply : Sent

/-- The datagrams of a client to one destination. -/
structure UdpClientFlow where
  socket : Socket
  client : SocketAddr
  address : Address
  port : UInt16
  announced : Bool := false
  stack : Option Nat := none
  pendingUpload : Option Bytes
  pendingReply : Option Bytes := none
  accepted : Option Bool := none
  deriving DecidableEq

namespace UdpClientFlow

variable (flow : UdpClientFlow)

/-- Send a reply to the client in one piece; one that would block is kept. -/
def sendReply (reply : Bytes) (answer : Sent) (sent : UdpClientFlow) :
    Option (Poll (Option Bool)) × UdpClientFlow :=
  match answer with
  | .taken count => if count = reply.length then (none, sent) else (some (.ready none), flow)
  | .wouldBlock => (some .pending, { flow with pendingReply := some reply })
  | .failed => (some (.ready none), flow)

/-- Take the next datagram from the stack and send it to the client. -/
def forward (input : UdpFlowInput) : Poll (Option Bool) × UdpClientFlow :=
  match input.receive with
  | .datagram payload =>
    match encodeUdpHeader flow.address flow.port with
    | none => (.ready none, flow)
    | some header =>
      match flow.sendReply (header ++ payload) input.reply flow with
      | (none, flow) => (.ready (some false), flow)
      | (some result, flow) => (result, flow)
  | .bufferTooSmall => (.ready none, flow)
  | .closed => (.ready (some true), flow)
  | .failed => (.ready none, flow)
  | .pending => (.pending, flow)

/-- Send a reply that is left over, then go on. -/
def retryReply (input : UdpFlowInput) : Poll (Option Bool) × UdpClientFlow :=
  match flow.pendingReply with
  | none => flow.forward input
  | some reply =>
    match flow.sendReply reply input.retry { flow with pendingReply := none } with
    | (none, flow) => flow.forward input
    | (some result, flow) => (result, flow)

/-- Move one datagram each way; true once the flow is finished, none on an error. -/
def poll (input : UdpFlowInput) : Poll (Option Bool) × UdpClientFlow :=
  match flow.accepted with
  | some false => (.ready (some true), flow)
  | none => (.pending, flow)
  | some true =>
    if flow.stack.isSome then
      match flow.pendingUpload with
      | none => flow.retryReply input
      | some _ =>
        match input.send with
        | .done => { flow with pendingUpload := none }.retryReply input
        | .failed => (.ready none, flow)
        | .pending => (.pending, flow)
    else (.pending, flow)

end UdpClientFlow

def Poll.ends : Poll (Option Bool) → Bool
  | ready (some finished) => finished
  | ready none => true
  | pending => false

end Snolc.Socks5
