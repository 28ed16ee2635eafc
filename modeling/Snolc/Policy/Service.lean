import Snolc.Policy.Config
import Snolc.Policy.Records

/-! The framed control channel between a policy server and its clients. -/

namespace Snolc.Policy

/-- The result of polling something that may not be ready. -/
inductive Poll (α : Type)
  | ready (value : α)
  | pending
  deriving DecidableEq, Repr

/-- What a byte stream answers to a read: bytes, the end as no bytes, an error, or not yet. -/
inductive ReadOutcome
  | bytes (data : Bytes)
  | failed
  | pending
  deriving DecidableEq, Repr

/-- What a byte stream answers to a write: a number of bytes taken, an error, or not yet. -/
inductive WriteOutcome
  | taken (count : Nat)
  | failed
  | pending
  deriving DecidableEq, Repr

inductive FrameError
  | length
  | utf8
  deriving DecidableEq, Repr

/-- Frames are a length in four bytes and a text. -/
structure FrameDecoder where
  buffer : Bytes
  expected : Option Nat
  limit : Nat
  deriving DecidableEq, Repr

/-- A number in four big-endian bytes. -/
def beU32 (input : Bytes) : Nat :=
  (input.take 4).foldl (fun value byte => value * 256 + byte.toNat) 0

namespace FrameDecoder

/-- A decoder that has seen nothing. -/
def new (limit : Nat) : Except FrameError FrameDecoder :=
  if limit = 0 then .error .length else .ok { buffer := [], expected := none, limit }

/-- Note the length of the frame once its four bytes are there. -/
def expect (decoder : FrameDecoder) : Except FrameError FrameDecoder :=
  if decoder.expected.isNone ∧ decoder.buffer.length ≥ 4 then
    let length := beU32 decoder.buffer
    if length = 0 ∨ length > decoder.limit then .error .length
    else .ok { decoder with expected := some length }
  else .ok decoder

/-- Take one byte, and the frame it completes. -/
def pushByte (decoder : FrameDecoder) (byte : UInt8) :
    Except FrameError (FrameDecoder × Option String) := do
  if decoder.buffer.length ≥ decoder.limit + 4 then throw .length
  let decoder ← { decoder with buffer := decoder.buffer ++ [byte] }.expect
  match decoder.expected with
  | none => return (decoder, none)
  | some length =>
    if decoder.buffer.length < length + 4 then return (decoder, none)
    else
      match fromUtf8 ((decoder.buffer.drop 4).take length) with
      | none => throw .utf8
      | some frame =>
        return ({ decoder with buffer := decoder.buffer.drop (4 + length), expected := none },
          some frame)

/-- Take bytes and return the frames they complete. -/
def push (decoder : FrameDecoder) : Bytes → Except FrameError (FrameDecoder × List String)
  | [] => .ok (decoder, [])
  | byte :: rest => do
    let (decoder, frame) ← decoder.pushByte byte
    let (decoder, frames) ← decoder.push rest
    return (decoder, frame.toList ++ frames)

end FrameDecoder

/-- A length in four big-endian bytes. -/
def toBeU32 (value : Nat) : Bytes :=
  [UInt8.ofNat (value / 16777216), UInt8.ofNat (value / 65536), UInt8.ofNat (value / 256),
    UInt8.ofNat value]

def encodeFrame (input : String) (limit : Nat) : Except FrameError Bytes :=
  if input.isEmpty ∨ input.utf8ByteSize > limit ∨ input.utf8ByteSize > 2 ^ 32 - 1 then
    .error .length
  else .ok (toBeU32 input.utf8ByteSize ++ toUtf8 input)

inductive ServiceError
  | frame (fault : FrameError)
  | protocol
  | resource
  | closed
  | writeZero
  | io
  deriving DecidableEq, Repr

/-- The requests a client may send on its control channel. -/
inductive ClientRequest
  | auth (credential : String)
  | status
  | subscribe
  | disconnectSelf
  deriving DecidableEq, Repr

/-- Decode a client request and check the shape of its credential. -/
def ClientRequest.parse (decode : String → Option ClientRequest) (input : String) :
    Except ServiceError ClientRequest :=
  match decode input with
  | none => .error .protocol
  | some (.auth credential) =>
    if validCredentialText credential then .ok (.auth credential) else .error .protocol
  | some request => .ok request

/-- A framed channel over a byte stream. -/
structure SessionChannel where
  decoder : FrameDecoder
  readBytes : Nat
  responses : List Bytes
  snapshot : Option Bytes
  writing : Option Bytes
  writeOffset : Nat
  frameLimit : Nat
  eof : Bool
  deriving DecidableEq, Repr

/-- What the stream under a channel answers during one poll. -/
structure ChannelInput where
  read : ReadOutcome
  write : WriteOutcome
  deriving DecidableEq, Repr

namespace SessionChannel

/-- The number of responses that may wait. -/
def responseQueueLimit : Nat := 8

/-- A channel over a fresh stream. -/
def new (frameLimit : Nat) : Except ServiceError SessionChannel :=
  match FrameDecoder.new frameLimit with
  | .error fault => .error (.frame fault)
  | .ok decoder =>
    .ok
      { decoder
        readBytes := min frameLimit 4096
        responses := []
        snapshot := none
        writing := none
        writeOffset := 0
        frameLimit
        eof := false }

variable (channel : SessionChannel)

/-- Queue a response behind the ones that wait. -/
def queueResponse (response : String) : Except ServiceError SessionChannel :=
  if channel.responses.length ≥ responseQueueLimit then .error .resource
  else
    match encodeFrame response channel.frameLimit with
    | .error fault => .error (.frame fault)
    | .ok bytes => .ok { channel with responses := channel.responses ++ [bytes] }

def replaceSnapshot (snapshot : String) : Except ServiceError SessionChannel :=
  match encodeFrame snapshot channel.frameLimit with
  | .error fault => .error (.frame fault)
  | .ok bytes => .ok { channel with snapshot := some bytes }

/-- Read what the stream has. -/
def receive (read : ReadOutcome) : Except ServiceError (SessionChannel × List String) :=
  if channel.eof then .ok (channel, [])
  else
    match read with
    | .bytes data =>
      -- A read fills at most the buffer it was given.
      match data.take channel.readBytes with
      | [] => .ok ({ channel with eof := true }, [])
      | received =>
        match channel.decoder.push received with
        | .error fault => .error (.frame fault)
        | .ok (decoder, messages) => .ok ({ channel with decoder }, messages)
    | .failed => .error .io
    | .pending => .ok (channel, [])

/-- Choose the next frame to be written: a response before the snapshot. -/
def choose : SessionChannel :=
  match channel.writing, channel.responses, channel.snapshot with
  | some _, _, _ => channel
  | none, response :: rest, _ =>
    { channel with writing := some response, responses := rest, writeOffset := 0 }
  | none, [], some bytes =>
    { channel with writing := some bytes, snapshot := none, writeOffset := 0 }
  | none, [], none => { channel with writeOffset := 0 }

/-- Write what the stream takes of the current frame. -/
def transmit (write : WriteOutcome) : Except ServiceError SessionChannel :=
  match channel.writing with
  | none => .ok channel
  | some frame =>
    match write with
    | .taken count =>
      -- A write takes at most the bytes it was given.
      let written := min count (frame.length - channel.writeOffset)
      if written = 0 then .error .writeZero
      else if channel.writeOffset + written = frame.length then
        .ok { channel with writing := none, writeOffset := 0 }
      else .ok { channel with writeOffset := channel.writeOffset + written }
    | .failed => .error .io
    | .pending => .ok channel

/-- Whether the peer has closed and nothing is left to be written. -/
def drained : Bool :=
  channel.eof && channel.writing.isNone && channel.responses.isEmpty && channel.snapshot.isNone

/-- One read, one write, and the messages that arrived. -/
def poll (input : ChannelInput) : Except ServiceError (SessionChannel × Poll (List String)) := do
  let (channel, messages) ← channel.receive input.read
  let channel ← channel.choose.transmit input.write
  if channel.drained then throw .closed
  return (channel, if messages.isEmpty then .pending else .ready messages)

end SessionChannel

end Snolc.Policy
