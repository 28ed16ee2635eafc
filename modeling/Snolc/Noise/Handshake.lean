import Snolc.Lib.Run
import Snolc.Lib.Table
import Snolc.Lib.Word
import Snolc.Noise.Record

/-! The handshakes of the protection: lower streams that are being wrapped. -/

namespace Snolc.Noise

def maxHandshake : Nat := 4096

/-- The handshake states of the Noise library, over keys and transports. -/
structure Handshaking (κ η τ : Type) where
  buildInitiator : κ → Option η
  buildResponder : κ → Option η
  /-- A message without payload, with the random number it takes. -/
  writeMessage : η → Nat → Option (Bytes × η)
  /-- The length of the payload of a message. -/
  readMessage : η → Bytes → Option (Nat × η)
  isHandshakeFinished : η → Bool
  intoTransportMode : η → Option τ

inductive RoleKey (κ : Type)
  | client (key : κ)
  | server (key : κ)
  deriving DecidableEq, Repr

/-- A handshake under way, with the instance, lower stream and functions it was begun for. -/
structure PendingHandshake (η : Type) where
  owner : Nat
  lower : Nat
  io : Nat
  handshake : Option η
  outbound : Bytes
  outboundOffset : Nat := 0
  inbound : FrameReader := {}
  serverReply : Bool
  deriving DecidableEq, Repr

/-- A stream that is protected. -/
structure WrappedStream (τ : Type) where
  owner : Nat
  lower : Nat
  io : Nat
  transport : τ
  deriving DecidableEq, Repr

/-- A call of wrap, with what the caller provides and the lower stream answers. -/
structure WrapCall where
  instance_ : Nat
  lower : Nat
  /-- The table of functions of the lower stream. -/
  io : Nat
  /-- Whether the table has all its functions. -/
  validIo : Bool
  /-- Whether there is a place for the number of the stream. -/
  output : Bool
  /-- The random number for a message. -/
  random : Nat
  /-- What the lower stream answers to writes, and to reads with these bytes. -/
  writes : List IoResult
  reads : List IoResult
  wire : Bytes
  deriving DecidableEq, Repr

/-- What a call leaves of a handshake, and what the lower stream has handed out and taken. -/
structure Driven (η τ : Type) where
  result : Except NoiseError (Option τ)
  pending : PendingHandshake η
  /-- The bytes that the lower stream can still hand out. -/
  wire : Bytes
  /-- The bytes that the lower stream has taken. -/
  written : Bytes

namespace PendingHandshake

variable {κ η τ : Type} (snow : Handshaking κ η τ) (pending : PendingHandshake η)

/-- Turn a handshake that has finished into a transport; it is used up either way. -/
def finish : Except NoiseError τ × PendingHandshake η :=
  match pending.handshake with
  | none => (.error .state, pending)
  | some state =>
    let pending := { pending with handshake := none }
    if !snow.isHandshakeFinished state then (.error .state, pending)
    else
      match snow.intoTransportMode state with
      | none => (.error .snow, pending)
      | some transport => (.ok transport, pending)

/-- A call that ends with the end of the handshake. -/
def finishing (wire written : Bytes) : Driven η τ :=
  let (result, pending) := pending.finish snow
  { result := result.map some, pending, wire, written }

/-- Hand the message to the lower stream from where it stands. -/
def flush (writes : List IoResult) : Except NoiseError Bool × PendingHandshake η × Bytes :=
  let (result, offset) := flushBytes pending.outbound writes pending.outboundOffset
  (result, { pending with outboundOffset := offset },
    (pending.outbound.take offset).drop pending.outboundOffset)

/-- Answer the message of a client, and finish once the answer has left. -/
def reply (state : η) (call : WrapCall) (wire : Bytes) : Driven η τ :=
  match snow.writeMessage state call.random with
  | none => { result := .error .snow, pending, wire, written := [] }
  | some (response, state) =>
    let pending := { pending with handshake := some state }
    match frame response maxHandshake with
    | .error fault => { result := .error fault, pending, wire, written := [] }
    | .ok outbound =>
      match { pending with outbound }.flush call.writes with
      | (.error fault, pending, written) => { result := .error fault, pending, wire, written }
      | (.ok false, pending, written) => { result := .ok none, pending, wire, written }
      | (.ok true, pending, written) => pending.finishing snow wire written

/-- Receive the message of the other side, answer it as a server, and finish. -/
def receive (call : WrapCall) : Driven η τ :=
  match readFrame maxHandshake call.reads pending.inbound call.wire with
  | (.error fault, inbound, wire) =>
    { result := .error fault, pending := { pending with inbound }, wire, written := [] }
  | (.ok none, inbound, wire) =>
    { result := .ok none, pending := { pending with inbound }, wire, written := [] }
  | (.ok (some message), inbound, wire) =>
    let pending := { pending with inbound }
    match pending.handshake with
    | none => { result := .error .state, pending, wire, written := [] }
    | some state =>
      match snow.readMessage state message with
      | none => { result := .error .snow, pending, wire, written := [] }
      | some (payload, state) =>
        let pending := { pending with handshake := some state }
        if payload ≠ 0 then { result := .error .handshakePayload, pending, wire, written := [] }
        else if pending.serverReply then pending.reply snow state call wire
        else pending.finishing snow wire []

/-- Go on with a handshake as far as the lower stream allows. -/
def drive (call : WrapCall) : Driven η τ :=
  if pending.outbound.isEmpty then pending.receive snow call
  else
    match pending.flush call.writes with
    | (.error fault, pending, written) =>
      { result := .error fault, pending, wire := call.wire, written }
    | (.ok false, pending, written) => { result := .ok none, pending, wire := call.wire, written }
    | (.ok true, pending, written) =>
      let pending := { pending with outbound := [], outboundOffset := 0 }
      if pending.serverReply then pending.finishing snow call.wire written
      else
        let driven := pending.receive snow call
        { driven with written := written ++ driven.written }

end PendingHandshake

/-- What a call of wrap comes to. -/
inductive Answer (τ : Type)
  | ok (transport : τ)
  | pending
  | invalid
  | resource
  | io
  | internal
  deriving DecidableEq, Repr

/-- The instance, the lower stream and the functions that a handshake is for. -/
structure Triple where
  instance_ : Nat
  lower : Nat
  io : Nat
  deriving DecidableEq, Repr

def WrapCall.triple (call : WrapCall) : Triple :=
  ⟨call.instance_, call.lower, call.io⟩

/-- What a call of wrap has answered, and whether it has closed its lower stream. -/
structure Wrapping (τ : Type) where
  triple : Triple
  answer : Answer τ
  closedLower : Bool := false
  deriving DecidableEq, Repr

/-- The instances, handshakes and streams of a thread. -/
structure Thread (κ η τ : Type) where
  instances : Table Nat (RoleKey κ)
  pending : Table Nat (PendingHandshake η)
  wrapped : Table Nat (WrappedStream τ)
  /-- The number of the next stream, which all threads take from. -/
  wrappedNext : Nat

section Calls

variable {κ η τ : Type} (snow : Handshaking κ η τ)

/-- Begin a handshake in the role of an instance. -/
def beginHandshake (instances : Table Nat (RoleKey κ)) (call : WrapCall) :
    Except (Answer τ) (PendingHandshake η) :=
  match instances.lookup call.instance_ with
  | none => .error .invalid
  | some (.server key) =>
    match snow.buildResponder key with
    | none => .error .invalid
    | some state =>
      .ok
        { owner := call.instance_, lower := call.lower, io := call.io, handshake := some state
          outbound := [], serverReply := true }
  | some (.client key) =>
    match snow.buildInitiator key with
    | none => .error .invalid
    | some state =>
      match snow.writeMessage state call.random with
      | none => .error .internal
      | some (message, state) =>
        match frame message maxHandshake with
        | .error _ => .error .internal
        | .ok outbound =>
          .ok
            { owner := call.instance_, lower := call.lower, io := call.io
              handshake := some state, outbound, serverReply := false }

namespace Thread

/-- Go on with a handshake that was taken out of the table. -/
def proceed (thread : Thread κ η τ) (call : WrapCall) (pending : PendingHandshake η) :
    Thread κ η τ × List (Wrapping τ) :=
  let driven := pending.drive snow call
  match driven.result with
  | .ok (some transport) =>
    let handle := thread.wrappedNext
    let thread := { thread with wrappedNext := wrappingAdd handle 1 }
    if handle = 0 then (thread, [⟨call.triple, .resource, false⟩])
    else
      ({ thread with
          wrapped := thread.wrapped.insert handle
            ⟨call.instance_, call.lower, call.io, transport⟩ },
        [⟨call.triple, .ok transport, false⟩])
  | .ok none =>
    ({ thread with pending := thread.pending.insert call.lower driven.pending },
      [⟨call.triple, .pending, false⟩])
  | .error _ => (thread, [⟨call.triple, .io, true⟩])

/-- Begin a handshake on a lower stream, or go on with the one that is pending. -/
def wrap (thread : Thread κ η τ) (call : WrapCall) : Thread κ η τ × List (Wrapping τ) :=
  if call.lower = 0 || !call.validIo || !call.output then
    (thread, [⟨call.triple, .invalid, false⟩])
  else
    let found := thread.pending.lookup call.lower
    let thread := { thread with pending := thread.pending.erase call.lower }
    match found with
    | some pending =>
      if pending.owner = call.instance_ && pending.io = call.io then
        thread.proceed snow call pending
      else (thread, [⟨call.triple, .invalid, false⟩])
    | none =>
      match beginHandshake snow thread.instances call with
      | .error answer => (thread, [⟨call.triple, answer, false⟩])
      | .ok pending => thread.proceed snow call pending

end Thread

/-- The calls of wrap on a thread. -/
def machine (snow : Handshaking κ η τ) : System (Thread κ η τ) WrapCall (Wrapping τ) where
  step thread call := thread.wrap snow call

end Calls

end Snolc.Noise
