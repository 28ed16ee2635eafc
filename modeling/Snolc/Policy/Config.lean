import Snolc.Lib.Text

/-! Options of a policy instance, destination rules, and their validation. -/

namespace Snolc.Policy

inductive UnknownAction
  | allow
  | deny
  deriving DecidableEq, Repr

inductive Action
  | allow
  | deny
  deriving DecidableEq, Repr

inductive Direction
  | upload
  | download
  | both
  deriving DecidableEq, Repr

inductive ObservedProtocol
  | tls
  | http
  | ssh
  | quic
  | unknown
  | any
  deriving DecidableEq, Repr

structure RuleEntry where
  action : Action
  direction : Direction
  protocol : ObservedProtocol
  unavailable : Action
  cidr : Option String
  port : Option Nat
  domainExact : Option String
  domainSuffix : Option String
  tlsSni : Option String
  httpHost : Option String
  userGroup : Option String
  deriving DecidableEq, Repr

structure Rules where
  terminal : Action
  entries : List RuleEntry
  deriving DecidableEq, Repr

structure StorageOptions where
  cacheBytes : Nat
  maxDatabaseBytes : Nat
  queueCapacity : Nat
  accountingBlockBytes : Nat
  batchMaxDelayMs : Nat
  deriving DecidableEq, Repr

inductive GlobalRate
  | unlimited
  | limited (bytesPerSecond burstBytes : Nat)
  deriving DecidableEq, Repr

/-- Where the credential of a client instance comes from. -/
inductive SecretSource
  | toml (value : String)
  | env (name : String)
  deriving DecidableEq, Repr

structure Options where
  serverId : String
  maxCachedUsers : Nat
  maxAdminClients : Nat
  maxControlFrameBytes : Nat
  statusIntervalMs : Nat
  controlGraceMs : Nat
  sniffBytes : Nat
  sniffTimeoutMs : Nat
  onUnknownProtocol : UnknownAction
  checkpointIntervalMs : Nat
  storage : StorageOptions
  globalRate : GlobalRate
  rules : Rules
  client : Option SecretSource
  deriving DecidableEq, Repr

inductive ConfigError
  | utf8
  | toml
  | invalid (reason : String)
  | secret
  deriving DecidableEq, Repr

/-- An address of either family, as the bits of its network order. -/
inductive IpAddr
  | v4 (bits : BitVec 32)
  | v6 (bits : BitVec 128)
  deriving DecidableEq

/-- Names of environment variables that may hold a secret. -/
def validName (name : String) : Bool :=
  !name.isEmpty && name.utf8ByteSize ≤ 128 && name.toList.all fun c => c.isAlphanum || c = '_'

/-- Read a secret from its source. -/
def SecretSource.resolve (environment : String → Option String) :
    SecretSource → Except ConfigError String
  | toml value => .ok value
  | env name =>
    if validName name then
      match environment name with
      | some value => .ok value
      | none => .error .secret
    else .error .secret

/-- One label of a domain name. -/
def validLabel (label : List Char) : Bool :=
  !label.isEmpty && label.length ≤ 63 && label.head? ≠ some '-' && label.getLast? ≠ some '-' &&
    label.all fun c => c.isAlphanum || c = '-'

/-- Domain names in plain text. -/
def validDomain (domain : String) : Bool :=
  !domain.isEmpty && domain.utf8ByteSize ≤ 253 && isAscii domain &&
    (domain.toList.splitOn '.').all validLabel

variable (parseIp : String → Option IpAddr)

/-- Networks written as an address and a number of leading bits. -/
def validCidr (cidr : String) : Bool :=
  match splitOnce '/' cidr with
  | none => false
  | some (address, bits) =>
    match parseIp address, parseU8 bits with
    | some (.v4 _), some bits => bits ≤ 32
    | some (.v6 _), some bits => bits ≤ 128
    | _, _ => false

/-- Whether one rule is contradictory or malformed. -/
def RuleEntry.malformed (entry : RuleEntry) : Bool :=
  entry.port = some 0
    || entry.cidr.any (fun cidr => !validCidr parseIp cidr)
    || entry.domainExact.any (fun domain => !validDomain domain)
    || entry.domainSuffix.any (fun domain => !validDomain domain)
    || entry.tlsSni.any (fun domain => !validDomain domain)
    || entry.httpHost.any (fun domain => !validDomain domain)
    || entry.userGroup.any (fun group => group.isEmpty || group.utf8ByteSize > 64)
    || entry.tlsSni.isSome && !(entry.protocol = .tls || entry.protocol = .any)
    || entry.httpHost.isSome && !(entry.protocol = .http || entry.protocol = .any)
    || entry.tlsSni.isSome && entry.httpHost.isSome

/-- Every rule must be well formed. -/
def Rules.validate (rules : Rules) : Except ConfigError Unit :=
  if rules.entries.any (RuleEntry.malformed parseIp) then .error (.invalid "rule is invalid")
  else .ok ()

/-- Credentials are sixty-four lowercase hexadecimal digits. -/
def validCredentialText (credential : String) : Bool :=
  credential.utf8ByteSize = 64 &&
    (toUtf8 credential).all fun byte =>
      0x30 ≤ byte.toNat && byte.toNat ≤ 0x39 || 0x61 ≤ byte.toNat && byte.toNat ≤ 0x66

/-- Check the limits, the rules and the secret of an instance. -/
def Options.validate (environment : String → Option String)
    (options : Options) : Except ConfigError Unit := do
  if options.serverId.isEmpty ∨ options.serverId.utf8ByteSize > 128 then
    throw (.invalid "server_id is invalid")
  if options.maxCachedUsers = 0
      ∨ options.maxAdminClients = 0
      ∨ options.maxControlFrameBytes = 0
      ∨ options.maxControlFrameBytes > 65536
      ∨ options.statusIntervalMs = 0
      ∨ options.controlGraceMs = 0
      ∨ options.sniffBytes = 0
      ∨ options.sniffBytes > 16384
      ∨ options.sniffTimeoutMs = 0
      ∨ options.checkpointIntervalMs = 0
      ∨ options.checkpointIntervalMs > 86400000 then
    throw (.invalid "policy limits are inconsistent")
  if options.storage.cacheBytes = 0
      ∨ options.storage.maxDatabaseBytes = 0
      ∨ options.storage.queueCapacity = 0
      ∨ options.storage.accountingBlockBytes = 0
      ∨ options.storage.batchMaxDelayMs = 0 then
    throw (.invalid "storage limits are inconsistent")
  match options.globalRate with
  | .limited bytesPerSecond burstBytes =>
    if bytesPerSecond = 0 ∨ burstBytes < 65507 then throw (.invalid "global rate is inconsistent")
  | .unlimited => pure ()
  options.rules.validate parseIp
  match options.client with
  | some source =>
    let credential ← source.resolve environment
    if !validCredentialText credential then throw .secret
  | none => pure ()

end Snolc.Policy
