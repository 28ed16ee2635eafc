import Mathlib.Algebra.GroupWithZero.Nat
import Mathlib.Data.List.Basic

/-! The record layer of the protection: framed ciphertexts over a lower byte stream. -/

namespace Snolc.Noise

abbrev Bytes := List UInt8

def maxPlaintext : Nat := 16384

def maxCiphertext : Nat := 16400

/-- Records a key may protect in one direction. -/
def recordLimit : Nat := 2 ^ 32

inductive Status
  | ok
  | pending
  | invalid
  | resource
  | io
  | internal
  deriving DecidableEq, Repr

/-- What a byte stream answers to a call. -/
inductive IoResult
  | progress (count : Nat)
  | pending
  | eof
  | error (status : Status)
  deriving DecidableEq, Repr

inductive NoiseError
  | snow
  | length
  | state
  | handshakePayload
  | io
  | eof
  deriving DecidableEq, Repr

/-- A number in two big-endian bytes. -/
def beU16 : Bytes → Nat
  | high :: low :: _ => high.toNat * 256 + low.toNat
  | _ => 0

/-- A length in two big-endian bytes. -/
def toBeU16 (value : Nat) : Bytes :=
  [UInt8.ofNat (value / 256), UInt8.ofNat value]

/-- The bytes of the frame that is being read, and its length with the header once it is known. -/
structure FrameReader where
  data : Bytes := []
  expected : Option Nat := none
  deriving DecidableEq, Repr

namespace FrameReader

/-- Take bytes of a frame; a bad length keeps the bytes that were taken. -/
def push (reader : FrameReader) (input : Bytes) (limit : Nat) :
    Except NoiseError Unit × FrameReader :=
  if reader.data.length + input.length > limit + 2 then (.error .length, reader)
  else
    let reader := { reader with data := reader.data ++ input }
    if reader.expected.isNone ∧ reader.data.length ≥ 2 then
      let length := beU16 reader.data
      if length = 0 ∨ length > limit then (.error .length, reader)
      else (.ok (), { reader with expected := some (length + 2) })
    else (.ok (), reader)

/-- The frame, once it is complete. -/
def take (reader : FrameReader) : Option Bytes × FrameReader :=
  match reader.expected with
  | none => (none, reader)
  | some expected =>
    if reader.data.length < expected then (none, reader)
    else if reader.data.length ≠ expected then (none, reader)
    else (some ((reader.data.take expected).drop 2), {})

/-- How many bytes may be read without going past the header or past the frame. -/
def remainingCapacity (reader : FrameReader) (limit : Nat) : Nat :=
  match reader.expected with
  | some expected => expected - reader.data.length
  | none => min (2 - reader.data.length) (limit + 2)

end FrameReader

/-- A message with its length in front. -/
def frame (message : Bytes) (limit : Nat) : Except NoiseError Bytes :=
  if message.isEmpty ∨ message.length > limit ∨ message.length > 65535 then .error .length
  else .ok (toBeU16 message.length ++ message)

/--
Hand bytes to the lower stream from an offset on.

The lower stream answers each call in turn; what it has not answered yet is pending.
-/
def flushBytes (bytes : Bytes) : List IoResult → Nat → Except NoiseError Bool × Nat
  | [], offset => (.ok (bytes.length ≤ offset), offset)
  | answer :: answers, offset =>
    if offset < bytes.length then
      match answer with
      | .progress count =>
        if 0 < count ∧ count ≤ bytes.length - offset then
          flushBytes bytes answers (offset + count)
        else (.error .io, offset)
      | .pending => (.ok false, offset)
      | _ => (.error .io, offset)
    else (.ok true, offset)

/--
Read from the lower stream until a frame is complete.

The bytes on the wire are those the lower stream can still hand out, and it hands out as many as it
answers, as far as there are any.
-/
def readLoop (limit : Nat) :
    List IoResult → FrameReader → Bytes → Except NoiseError (Option Bytes) × FrameReader × Bytes
  | [], reader, wire => (.ok none, reader, wire)
  | answer :: answers, reader, wire =>
    let capacity := reader.remainingCapacity limit
    if capacity = 0 then (.error .length, reader, wire)
    else
      match answer with
      | .progress count =>
        if count ≤ capacity then
          let input := wire.take count
          if input.length = 0 then (.error .io, reader, wire)
          else
            match reader.push input limit with
            | (.error fault, reader) => (.error fault, reader, wire.drop count)
            | (.ok _, reader) =>
              match reader.take with
              | (some frame, reader) => (.ok (some frame), reader, wire.drop count)
              | (none, reader) => readLoop limit answers reader (wire.drop count)
        else (.error .io, reader, wire)
      | .pending => (.ok none, reader, wire)
      | .eof => (.error .eof, reader, wire)
      | .error _ => (.error .io, reader, wire)

def readFrame (limit : Nat) (answers : List IoResult) (reader : FrameReader) (wire : Bytes) :
    Except NoiseError (Option Bytes) × FrameReader × Bytes :=
  match reader.take with
  | (some frame, reader) => (.ok (some frame), reader, wire)
  | (none, reader) => readLoop limit answers reader wire

/-- The cipher states of a transport, one for each direction. -/
structure Snow (σ ρ : Type) where
  writeMessage : σ → Bytes → Option (Bytes × σ)
  readMessage : ρ → Bytes → Option (Bytes × ρ)

/-- One end of a protected stream. -/
structure Wrapped (σ ρ : Type) where
  sending : σ
  receiving : ρ
  outbound : Bytes := []
  outboundOffset : Nat := 0
  inbound : FrameReader := {}
  plaintext : Bytes := []
  plaintextOffset : Nat := 0
  sentRecords : Nat := 0
  receivedRecords : Nat := 0
  deriving DecidableEq, Repr

namespace Wrapped

variable {σ ρ : Type} (snow : Snow σ ρ) (state : Wrapped σ ρ)

/-- Hand out plaintext that is left of the last record. -/
def copyPlaintext (capacity : Nat) : (IoResult × Bytes) × Wrapped σ ρ :=
  if capacity = 0 then ((.progress 0, []), state)
  else
    let remaining := state.plaintext.drop state.plaintextOffset
    let count := min remaining.length capacity
    let offset := state.plaintextOffset + count
    ((.progress count, remaining.take count),
      if offset = state.plaintext.length then { state with plaintext := [], plaintextOffset := 0 }
      else { state with plaintextOffset := offset })

/-- Read plaintext into a buffer, opening the next record where none is left. -/
def read (capacity : Nat) (answers : List IoResult) (wire : Bytes) :
    (IoResult × Bytes) × Wrapped σ ρ × Bytes :=
  if state.plaintextOffset < state.plaintext.length then
    let (result, state) := state.copyPlaintext capacity
    (result, state, wire)
  else if state.receivedRecords ≥ recordLimit then ((.error .io, []), state, wire)
  else
    match readFrame maxCiphertext answers state.inbound wire with
    | (.ok none, inbound, wire) => ((.pending, []), { state with inbound }, wire)
    | (.error .eof, inbound, wire) => ((.eof, []), { state with inbound }, wire)
    | (.error _, inbound, wire) => ((.error .io, []), { state with inbound }, wire)
    | (.ok (some ciphertext), inbound, wire) =>
      match snow.readMessage state.receiving ciphertext with
      | none => ((.error .io, []), { state with inbound }, wire)
      | some (plaintext, receiving) =>
        if plaintext.length = 0 then ((.error .io, []), { state with inbound, receiving }, wire)
        else
          let (result, state) :=
            { state with
              inbound
              receiving
              receivedRecords := state.receivedRecords + 1
              plaintext
              plaintextOffset := 0 }.copyPlaintext capacity
          (result, state, wire)

variable (answers : List IoResult)

/-- Hand the rest of the record to the lower stream. -/
def flushWrapped : Except NoiseError Bool × Wrapped σ ρ :=
  match flushBytes state.outbound answers state.outboundOffset with
  | (.ok true, _) => (.ok true, { state with outbound := [], outboundOffset := 0 })
  | (result, offset) => (result, { state with outboundOffset := offset })

/-- What the lower stream takes while the rest of the record is handed to it. -/
def handed : Bytes :=
  (state.outbound.drop state.outboundOffset).take
    ((flushBytes state.outbound answers state.outboundOffset).2 - state.outboundOffset)

/-- Make a record of the input, once the last one has left. -/
def sealRecord (input : Bytes) : IoResult × Wrapped σ ρ :=
  if input.isEmpty then (.progress 0, state)
  else if state.sentRecords ≥ recordLimit then (.error .io, state)
  else
    let count := min input.length maxPlaintext
    match snow.writeMessage state.sending (input.take count) with
    | none => (.error .io, state)
    | some (ciphertext, sending) =>
      match frame ciphertext maxCiphertext with
      | .error _ => (.error .io, { state with sending })
      | .ok outbound =>
        (.progress count,
          { state with
            sending
            outbound
            outboundOffset := 0
            sentRecords := state.sentRecords + 1 })

/-- Accept plaintext, as far as the last record has been handed to the lower stream. -/
def write (input : Bytes) (answers : List IoResult) : IoResult × Wrapped σ ρ :=
  if state.outbound.isEmpty then state.sealRecord snow input
  else
    match state.flushWrapped answers with
    | (.ok true, state) => state.sealRecord snow input
    | (.ok false, state) => (.pending, state)
    | (.error _, state) => (.error .io, state)

/-- Hand the record to the lower stream, then pass a call on to it; its answer is the last one. -/
def handOver (last : IoResult) : IoResult × Wrapped σ ρ :=
  match state.flushWrapped answers with
  | (.ok false, state) => (.pending, state)
  | (.error _, state) => (.error .io, state)
  | (.ok true, state) => (last, state)

/-- Flush the lower stream behind the record. -/
def flush : List IoResult → IoResult → IoResult × Wrapped σ ρ :=
  state.handOver

/-- End the lower stream behind the record. -/
def shutdownWrite : List IoResult → IoResult → IoResult × Wrapped σ ρ :=
  state.handOver

end Wrapped

end Snolc.Noise
