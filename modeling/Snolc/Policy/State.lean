import Mathlib.Data.Finset.Insert
import Mathlib.Data.Finset.Erase
import Mathlib.Data.Finset.Filter
import Snolc.Policy.Accounting
import Snolc.Policy.Service
import Snolc.Policy.Sniff
import Snolc.Policy.Storage

/-! The state of a policy instance and the external functions it rests on. -/

namespace Snolc.Policy

/-- Status codes of the module interface. -/
inductive Status
  | ok
  | pending
  | invalid
  | denied
  | resource
  | io
  | internal
  deriving DecidableEq, Repr

inductive PolicyRole
  | client
  | server
  deriving DecidableEq, Repr

/-- What the protection layer says about a control stream. -/
structure ChannelSecurity where
  role : PolicyRole
  confidentiality : Bool
  integrity : Bool
  peerAuthenticated : Bool
  peerIdentity : Option String
  deriving DecidableEq, Repr

inductive AddressType
  | ipv4
  | ipv6
  | domain
  deriving DecidableEq, Repr

/-- The destination of a flow. -/
structure FlowMetadata where
  addressType : AddressType
  address : Bytes
  port : Nat
  deriving DecidableEq, Repr

/-- Answers of the administrative interface, before they are written as text. -/
inductive Response
  | mutation (revision : Nat) (userId : Option String)
  | usage (userId : String) (revision usedBytes : Nat) (limitBytes : Option Nat)
      (uploadBytes downloadBytes : Nat)
  | sessions (handles : List Nat)
  | backup (destination : String)
  deriving DecidableEq, Repr

/-- The status a client is told, before it is written as text. -/
structure PolicyStatus where
  status : String
  serverId : String
  userId : String
  usedBytes : Nat
  limitBytes : Option Nat
  uploadBytesPerSecond : Option Nat
  downloadBytesPerSecond : Option Nat
  expiresAt : Option Nat
  revision : Nat
  reason : String
  deriving DecidableEq, Repr

/-- The functions of other libraries that the instance calls. -/
structure Env where
  /-- UTF-8 and TOML decoding of an administrative request. -/
  decodeControl : Bytes → Option ControlRequest
  /-- TOML decoding of a rule set. -/
  decodeRules : String → Option Rules
  /-- TOML decoding of a client message. -/
  decodeClient : String → Option ClientRequest
  /-- TOML decoding of a server message: its status and the user it names. -/
  decodeStatus : String → Option (String × Option String)
  /-- UTF-8 and TOML decoding of the security of a control stream. -/
  decodeSecurity : Bytes → Option ChannelSecurity
  /-- The SHA-256 digest. -/
  sha256 : Bytes → Bytes
  /-- Parsing of a textual address. -/
  parseIp : String → Option IpAddr
  /-- The environment variables of the process. -/
  environment : String → Option String
  /-- TOML encoding of an administrative answer. -/
  encodeResponse : Response → Option Bytes
  /-- TOML encoding of a status message. -/
  encodeStatus : PolicyStatus → Option String

/-- The rules that wait for the first bytes of a flow. -/
structure SniffPolicy where
  entries : List RuleEntry
  terminal : Action
  unknown : UnknownAction
  maxBytes : Nat
  timeout : Nat
  deriving DecidableEq, Repr

/-- The first bytes of a stream, held back until they are classified. -/
structure TcpSniff where
  policy : SniffPolicy
  prefixBytes : Bytes
  deadline : Nat
  allowed : Bool
  deriving DecidableEq, Repr

/-- Who an admitted flow belongs to and which rules still wait for its first bytes. -/
structure FlowIdentity where
  userId : String
  credentialDigest : Option String
  sniff : Option SniffPolicy
  deriving DecidableEq, Repr

/-- A stream between the network stack and the multiplexer. -/
structure PolicyFlow where
  session : Nat
  userId : Option String
  credentialDigest : Option String
  sniff : Option TcpSniff
  prefixOffset : Nat
  deriving DecidableEq, Repr

/-- A datagram flow between the network stack and the multiplexer. -/
structure PolicyDatagramFlow where
  session : Nat
  userId : Option String
  credentialDigest : Option String
  policy : Option SniffPolicy
  deriving DecidableEq, Repr

/-- A debit or a refund whose write waits for its reply. -/
structure PendingQuota where
  amount : Nat
  record : UserRecord
  reply : Nat
  deriving DecidableEq, Repr

/-- The credit and the rate limits of a user with traffic. -/
structure UserTraffic where
  quota : QuotaAccount
  upload : Option TokenBucket
  download : Option TokenBucket
  combined : Option TokenBucket
  debit : Option PendingQuota
  refund : Option PendingQuota
  failed : Bool
  checkpointAt : Nat
  deriving DecidableEq, Repr

/-- What a flow may move during one poll. -/
structure RateGrant where
  stackToMux : Nat
  muxToStack : Nat
  combined : Nat
  global : Nat
  deriving DecidableEq, Repr

/-- How far a session has come in proving who it is. -/
inductive AuthState
  | waiting
  | credential (digest : String) (reply : Nat)
  | user (userId : String) (reply : Nat)
  | clock (user : UserRecord) (reply : Nat)
  | authenticated (userId : String)
  deriving DecidableEq, Repr

structure PolicySession where
  channel : SessionChannel
  role : PolicyRole
  auth : AuthState
  subscribed : Bool
  lastStatus : Nat
  credentialDigest : Option String
  pendingFlows : List FlowIdentity
  deriving DecidableEq, Repr

/-- The in-memory effects of an administrative request. -/
structure AdminMutation where
  users : List (String × Option UserRecord) := []
  credentials : List (String × Option CredentialRecord) := []
  rules : List (String × String) := []
  activeRuleProfiles : List String := []
  disconnect : Option Nat := none
  deriving DecidableEq, Repr

/-- An administrative write whose reply is awaited. -/
structure PendingWrite where
  request : Bytes
  clientId : String
  receipt : Receipt
  response : Bytes
  mutation : AdminMutation
  reply : Nat
  deriving DecidableEq, Repr

inductive ReadKind
  | user (id : String)
  | credential (digest : String)
  deriving DecidableEq, Repr

/-- The single administrative operation in progress. -/
inductive PendingControl
  | write (pending : PendingWrite)
  | read (request : Bytes) (kind : ReadKind) (reply : Nat)
  | backup (request : Bytes) (destination : String) (reply : Nat)
  deriving DecidableEq, Repr

/-- The request that started the operation. -/
def PendingControl.request : PendingControl → Bytes
  | write pending => pending.request
  | read request _ _ => request
  | backup request _ _ => request

structure AdminState where
  sequencer : AdminSequencer
  users : Table String UserRecord
  loadedUsers : Finset String
  credentials : Table String CredentialRecord
  loadedCredentials : Finset String
  rules : Table String String

/-- A policy instance together with the storage worker it talks to. -/
structure State where
  started : Nat
  shuttingDown : Bool
  maintenance : Bool
  globalRate : Option TokenBucket
  userDeficit : Table String Nat
  userCursor : Nat
  options : Options
  storage : StorageWorker
  admin : AdminState
  pendingControl : Option PendingControl
  clientCredential : Option Bytes
  sessions : Table Nat PolicySession
  flows : Table Nat PolicyFlow
  datagramFlows : Table Nat PolicyDatagramFlow
  traffic : Table String UserTraffic
  flowCursor : Table String Nat
  /-- The next session handle of the process. -/
  sessionNext : Nat
  /-- The next flow handle of the process. -/
  flowNext : Nat

def adminStatus : AdminError → Status
  | .clientLimit => .resource
  | .invalid | .sequence | .state => .denied
  | .random | .encode => .internal

def storageStatus : StorageError → Status
  | .queueFull | .limit => .resource
  | .invalid => .invalid
  | .stopped | .permissions | .io | .database => .io

/-- A result with its error turned into a status. -/
def mapStatus {ε α : Type} (status : ε → Status) : Except ε α → Except Status α
  | .ok value => .ok value
  | .error fault => .error (status fault)

theorem mapStatus_ok {ε α : Type} {status : ε → Status} {result : Except ε α} {value : α}
    (ok : mapStatus status result = .ok value) : result = .ok value := by
  cases result with
  | error => simp [mapStatus] at ok
  | ok => simpa [mapStatus] using ok

/-- Nanoseconds of a number of milliseconds. -/
def millis (count : Nat) : Nat :=
  count * 1000000

/-- Nanoseconds since the instance started, as a word. -/
def State.elapsedNanos (state : State) (instant : Nat) : Nat :=
  min (instant - state.started) u64Max

namespace State

/-- Take over the receipts found in the store. -/
def restoreReceipts (sequencer : AdminSequencer) :
    List (String × Value) → Except Status AdminSequencer
  | [] => .ok sequencer
  | (clientId, .receipt receipt) :: rest => do
    let sequencer ← mapStatus adminStatus (sequencer.restore clientId receipt)
    restoreReceipts sequencer rest
  | _ :: _ => .error (adminStatus .encode)

def globalBucket : GlobalRate → Except Status (Option TokenBucket)
  | .unlimited => .ok none
  | .limited bytesPerSecond burstBytes =>
    match TokenBucket.new bytesPerSecond burstBytes 0 with
    | .ok bucket => .ok (some bucket)
    | .error _ => .error .invalid

/-- The credential of a client instance. -/
def resolveCredential (env : Env) : Option SecretSource → Except Status (Option Bytes)
  | none => .ok none
  | some source =>
    match source.resolve env.environment with
    | .error _ => .error .invalid
    | .ok secret =>
      match decodeHex 32 secret with
      | .error fault => .error (adminStatus fault)
      | .ok credential => .ok (some credential)

/-- Start an instance over what the store holds. -/
def initializeInstance (env : Env) (options : Options) (store : Table Key Value)
    (started sessionNext flowNext : Nat) : Except Status State := do
  mapStatus (fun _ => .invalid) (options.validate env.parseIp env.environment)
  let globalRate ← globalBucket options.globalRate
  let sequencer ← mapStatus (fun _ => .invalid) (AdminSequencer.new options.maxAdminClients)
  let receipts ← mapStatus storageStatus
    (StorageWorker.scanClients store options.maxAdminClients)
  let sequencer ← restoreReceipts sequencer receipts
  let clientCredential ← resolveCredential env options.client
  pure
    { started
      shuttingDown := false
      maintenance := false
      globalRate
      userDeficit := ∅
      userCursor := 0
      options
      storage := StorageWorker.start store options.storage.queueCapacity
      admin :=
        { sequencer
          users := ∅
          loadedUsers := ∅
          credentials := ∅
          loadedCredentials := ∅
          rules := ∅ }
      pendingControl := none
      clientCredential
      sessions := ∅
      flows := ∅
      datagramFlows := ∅
      traffic := ∅
      flowCursor := ∅
      sessionNext
      flowNext }

end State

end Snolc.Policy
