import Mathlib.Data.List.Sort
import Snolc.Lib.Table
import Snolc.Lib.Text

/-! Destinations of the direct adapter and the worker that resolves names and opens sockets. -/

namespace Snolc.Direct

abbrev Bytes := List UInt8

inductive Status
  | ok
  | pending
  | invalid
  | denied
  | unsupported
  | resource
  | io
  | internal
  deriving DecidableEq, Repr

inductive DirectError
  | invalidConfig
  | invalidDestination
  | resource
  | timeout
  | stale
  | stopped
  | noAddress
  | denied
  | io
  deriving DecidableEq, Repr

def errorStatus : DirectError → Status
  | .denied => .denied
  | .invalidConfig | .invalidDestination | .stale => .invalid
  | .resource => .resource
  | .timeout | .stopped | .noAddress | .io => .io

inductive FlowKind
  | tcp
  | udp
  | other
  deriving DecidableEq, Repr

inductive AddressType
  | ipv4
  | ipv6
  | domain
  | other
  deriving DecidableEq, Repr

inductive IpAddr
  | v4 (bits : BitVec 32)
  | v6 (bits : BitVec 128)
  deriving DecidableEq, Repr

structure SocketAddr where
  ip : IpAddr
  port : UInt16
  deriving DecidableEq, Repr

def SocketAddr.le (a b : SocketAddr) : Bool :=
  match a.ip, b.ip with
  | .v4 x, .v4 y => x.toNat < y.toNat || x = y && a.port ≤ b.port
  | .v4 _, .v6 _ => true
  | .v6 _, .v4 _ => false
  | .v6 x, .v6 y => x.toNat < y.toNat || x = y && a.port ≤ b.port

/-- A flow in the terms of the host. -/
structure FlowMetadata where
  kind : FlowKind
  addressType : AddressType
  address : Bytes
  port : UInt16
  deriving DecidableEq, Repr

inductive Destination
  | ip (address : SocketAddr)
  | domain (name : String) (port : UInt16)
  deriving DecidableEq, Repr

/-- The value of bytes in network order. -/
def beValue (bytes : Bytes) : Nat :=
  bytes.foldl (fun value byte => value * 256 + byte.toNat) 0

/-- The destination that metadata names. -/
def ownedDestination (metadata : FlowMetadata) : Except Status Destination :=
  match metadata.addressType with
  | .ipv4 =>
    if metadata.address.length = 4 then
      .ok (.ip ⟨.v4 (BitVec.ofNat 32 (beValue metadata.address)), metadata.port⟩)
    else .error .invalid
  | .ipv6 =>
    if metadata.address.length = 16 then
      .ok (.ip ⟨.v6 (BitVec.ofNat 128 (beValue metadata.address)), metadata.port⟩)
    else .error .invalid
  | .domain =>
    match fromUtf8 metadata.address with
    | some domain => .ok (.domain domain metadata.port)
    | none => .error .invalid
  | .other => .error .invalid

/-- A handle by which the worker wakes the host. -/
inductive WakeHandle
  | absent
  | whole (retains : Bool)
  | incomplete
  deriving DecidableEq, Repr

/-- Keep a handle for the worker. -/
def retainWake : WakeHandle → Except Status Unit
  | .absent => .ok ()
  | .whole true => .ok ()
  | .whole false => .error .internal
  | .incomplete => .error .invalid

/-- A socket that is connected to an address. -/
inductive Endpoint
  | tcp (peer : SocketAddr)
  | udp (peer : SocketAddr)
  deriving DecidableEq, Repr

inductive WorkerRequest
  | resolve (domain : String) (port : UInt16) (maxAddresses : Nat)
  | connect (kind : FlowKind) (addresses : List SocketAddr) (connectTimeout : Nat)
  deriving DecidableEq, Repr

/-- Drop what equals its neighbour. -/
def dedup : List SocketAddr → List SocketAddr
  | first :: second :: rest =>
    if first = second then dedup (second :: rest) else first :: dedup (second :: rest)
  | few => few

/-- The addresses of a name, from what the system has found for it. -/
def resolveDestination (found : Option (List SocketAddr)) (maxAddresses : Nat) :
    Except DirectError (List SocketAddr) :=
  match found with
  | none => .error .io
  | some found =>
    let addresses := dedup ((found.take (maxAddresses + 1)).insertionSort fun a b => a.le b = true)
    if addresses.isEmpty then .error .noAddress
    else if addresses.length > maxAddresses then .error .resource
    else .ok addresses

/-- Try one address after the other; the last error is the one that counts. -/
def tryAddresses (kind : FlowKind) (connects : SocketAddr → Bool) :
    List SocketAddr → Except DirectError Endpoint
  | [] => .error .io
  | address :: rest =>
    match kind with
    | .tcp => if connects address then .ok (.tcp address) else tryAddresses kind connects rest
    | .udp => if connects address then .ok (.udp address) else tryAddresses kind connects rest
    | .other => .error .invalidDestination

/-- Open a socket to the first address that lets itself be connected. -/
def connectAddresses (kind : FlowKind) (addresses : List SocketAddr)
    (connects : SocketAddr → Bool) : Except DirectError Endpoint :=
  if addresses.isEmpty then .error .noAddress else tryAddresses kind connects addresses

/-- What a receiver finds in its channel. -/
inductive TryRecv (α : Type)
  | received (value : α)
  | empty
  | disconnected
  deriving DecidableEq, Repr

/-- Why a request cannot be queued. -/
inductive TrySend
  | full
  | disconnected
  deriving DecidableEq, Repr

/--
The worker: a queue of requests, the one in hand, and the responses to earlier ones.

Every request has a response channel of its own, known by a number.
-/
structure Worker where
  queue : List (Nat × WorkerRequest) := []
  current : Option (Nat × WorkerRequest) := none
  resolutions : Table Nat (Except DirectError (List SocketAddr)) := ∅
  connections : Table Nat (Except DirectError Endpoint) := ∅
  nextResponse : Nat := 0
  stopped : Bool := false

namespace Worker

variable (worker : Worker)

/-- Queue a request, with a new channel for its response. -/
def trySend (capacity : Nat) (request : WorkerRequest) : Except TrySend (Nat × Worker) :=
  if worker.stopped then .error .disconnected
  else if worker.queue.length ≥ capacity then .error .full
  else
    .ok (worker.nextResponse,
      { worker with
        queue := worker.queue ++ [(worker.nextResponse, request)]
        nextResponse := worker.nextResponse + 1 })

/-- Look for the response to a request; a worker that has stopped sends no more. -/
def tryRecv {α : Type} (responses : Table Nat α) (response : Nat) : TryRecv α :=
  match responses.lookup response with
  | some value => .received value
  | none => if worker.stopped then .disconnected else .empty

/-- Take the next request in hand. -/
def recv : Worker :=
  match worker.current, worker.queue with
  | none, request :: queue => if worker.stopped then worker else
      { worker with current := some request, queue }
  | _, _ => worker

/-- Respond to the request in hand, with what the system answers. -/
def respond (found : Option (List SocketAddr)) (connects : SocketAddr → Bool) : Worker :=
  match worker.current with
  | none => worker
  | some (response, .resolve _ _ maxAddresses) =>
    { worker with
      current := none
      resolutions := worker.resolutions.insert response (resolveDestination found maxAddresses) }
  | some (response, .connect kind addresses _) =>
    { worker with
      current := none
      connections := worker.connections.insert response
        (connectAddresses kind addresses connects) }

/-- The thread ends; what was queued is dropped. -/
def stop : Worker :=
  { worker with queue := [], current := none, stopped := true }

end Worker

end Snolc.Direct
