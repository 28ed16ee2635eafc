import Snolc.Policy.State

/-! Who may use the instance, which destinations a user may reach, and how flows are admitted. -/

namespace Snolc.Policy

variable (user : UserRecord)

/-- Whether status, expiration and schedule let a user in. -/
def userAccessAllowedAt (now : Nat) : Bool :=
  if user.spec.status ≠ .enabled then false
  else
    let now := max now user.maxObservedUtc
    match user.spec.expiration with
    | .atUtc unixSeconds =>
      if now ≥ unixSeconds then false else user.spec.weeklyAccess.allows now
    | .unlimited => user.spec.weeklyAccess.allows now

/-- Whether the durable counter has reached the quota. -/
def quotaSpent : Bool :=
  match user.spec.quota with
  | .limited bytes => user.durableChargedBytes ≥ bytes
  | .unlimited => false

/-- Whether a user may start a session. -/
def userAvailableAt (now : Nat) : Bool :=
  userAccessAllowedAt user now && !quotaSpent user

def PolicySession.isUser (session : PolicySession) (userId : String) : Bool :=
  match session.auth with
  | .authenticated id => id = userId
  | _ => false

variable (state : State)

namespace State

/-- Whether a user may open a flow: unspent credit counts where the quota is spent. -/
def flowAvailableAt (now : Nat) : Bool :=
  if !userAccessAllowedAt user now then false
  else
    (state.traffic.lookup user.id).any (fun traffic => traffic.quota.creditRemaining ≠ 0)
      || !quotaSpent user

/-- Whether the authenticated sessions of a user use up the limit. -/
def sessionLimitReached : Bool :=
  match user.spec.maxSessions with
  | .unlimited => false
  | .limited count => (state.sessions.values.countP fun session => session.isUser user.id) ≥ count

/-- Whether the flows of a user, attached or admitted, use up the limit. -/
def flowLimitReached : Bool :=
  match user.spec.maxFlows with
  | .unlimited => false
  | .limited count =>
    let active :=
      (state.flows.values.countP fun flow => flow.userId = some user.id) +
        state.datagramFlows.values.countP fun flow => flow.userId = some user.id
    let pending := (state.sessions.values.map fun session =>
      session.pendingFlows.countP fun identity => identity.userId = user.id).sum
    active + pending ≥ count

end State

/-- The address a flow names, if it names one. -/
def metadataIp (metadata : FlowMetadata) : Option IpAddr :=
  let value := metadata.address.foldl (fun value byte => value * 256 + byte.toNat) 0
  match metadata.addressType with
  | .ipv4 => if metadata.address.length = 4 then some (.v4 (BitVec.ofNat 32 value)) else none
  | .ipv6 => if metadata.address.length = 16 then some (.v6 (BitVec.ofNat 128 value)) else none
  | .domain => none

/-- Whether two addresses agree in their leading bits. -/
def maskedEq {width : Nat} (bits : Nat) (network address : BitVec width) : Bool :=
  let mask : BitVec width := if bits = 0 then 0 else BitVec.allOnes width <<< (width - bits)
  network &&& mask = address &&& mask

variable (env : Env)

/-- Whether an address lies in a textual network. -/
def cidrMatches (cidr : String) (address : IpAddr) : Bool :=
  match splitOnce '/' cidr with
  | none => false
  | some (network, bits) =>
    match env.parseIp network, parseU8 bits, address with
    | some (.v4 network), some bits, .v4 address => bits ≤ 32 && maskedEq bits network address
    | some (.v6 network), some bits, .v6 address => bits ≤ 128 && maskedEq bits network address
    | _, _, _ => false

def domainBelow (suffix domain : String) : Bool :=
  domain = suffix ||
    suffix.toList.isSuffixOf domain.toList &&
      (domain.toList.take (domain.toList.length - suffix.toList.length)).getLast? = some '.'

/-- Whether the address part of a rule matches a destination. -/
def addressRuleMatches (entry : RuleEntry) (metadata : FlowMetadata) : Bool :=
  let domain := match metadata.addressType with
    | .domain => fromUtf8 metadata.address
    | _ => none
  let inNetwork := match entry.cidr with
    | none => true
    | some cidr => (metadataIp metadata).any (cidrMatches env cidr)
  inNetwork
    && !entry.domainExact.any (fun expected => domain ≠ some expected)
    && !entry.domainSuffix.any (fun suffix => !domain.any (domainBelow suffix))

/-- Whether a rule can only be decided from the first bytes of a flow. -/
def ruleRequiresObservation (entry : RuleEntry) : Bool :=
  entry.tlsSni.isSome || entry.httpHost.isSome || entry.protocol ≠ .any

/-- Whether an observation is of the protocol a rule names. -/
def observedProtocolMatches : ObservedProtocol → Observed → Bool
  | .any, _ => true
  | .tls, .tls _ => true
  | .http, .http _ => true
  | .ssh, .ssh => true
  | .quic, .quic => true
  | .unknown, .unknown => true
  | _, _ => false

/-- How a rule that names a host compares with an observation. -/
inductive HostMatch
  | same
  | different
  | unavailable
  deriving DecidableEq

/-- Compare the expected host of a rule with an observed one. -/
def hostMatch (expected : Option String) (observed : Option (Option String)) : HostMatch :=
  match expected, observed with
  | none, _ => .same
  | some expected, some (some host) =>
    if eqIgnoreAsciiCase host expected then .same else .different
  | some _, _ => .unavailable

/-- The server name an observation shows, if it is of TLS. -/
def Observed.sni : Observed → Option (Option String)
  | tls sni => some sni
  | _ => none

def Observed.host : Observed → Option (Option String)
  | http host => some host
  | _ => none

/-- The first rule that decides an observation. -/
def decideObserved (policy : SniffPolicy) (observed : Observed) : List RuleEntry → Bool
  | [] =>
    if observed = .unknown then policy.unknown = .allow else policy.terminal = .allow
  | entry :: rest =>
    if observed = .unknown ∧ entry.protocol ≠ .unknown then entry.unavailable = .allow
    else if !observedProtocolMatches entry.protocol observed then
      decideObserved policy observed rest
    else
      match hostMatch entry.tlsSni observed.sni with
      | .different => decideObserved policy observed rest
      | .unavailable => entry.unavailable = .allow
      | .same =>
        match hostMatch entry.httpHost observed.host with
        | .different => decideObserved policy observed rest
        | .unavailable => entry.unavailable = .allow
        | .same => entry.action = .allow

/-- Whether the waiting rules let an observed flow pass. -/
def observedAllowed (policy : SniffPolicy) (observed : Observed) : Bool :=
  decideObserved policy observed policy.entries

/-- Whether a rule is about a user and a destination, before anything is observed. -/
def ruleApplies (user : UserRecord) (metadata : FlowMetadata) (entry : RuleEntry) : Bool :=
  (entry.direction = .upload || entry.direction = .both)
    && !entry.userGroup.any (fun group => group ≠ user.spec.group)
    && !entry.port.any (fun port => port ≠ metadata.port)
    && addressRuleMatches env entry metadata

/--
The rules that wait for the first bytes of a flow, in order.

A rule that needs no observation decides at once, unless an earlier rule still waits.
No waiting rule means that the flow may pass.
-/
def scanRules (applies : RuleEntry → Bool) (terminal : Action) :
    List RuleEntry → List RuleEntry → Except Unit (List RuleEntry)
  | [], observed =>
    if observed.isEmpty ∧ terminal = .deny then .error () else .ok observed
  | entry :: rest, observed =>
    if !applies entry then scanRules applies terminal rest observed
    else if ruleRequiresObservation entry ∨ !observed.isEmpty then
      scanRules applies terminal rest (observed ++ [entry])
    else if entry.action = .deny then .error ()
    else .ok []

/-- The rules of the user's profile, or those of the configuration. -/
def activeRules (state : State) (user : UserRecord) : Except Unit Rules :=
  match state.admin.rules.lookup user.spec.ruleProfile with
  | none => .ok state.options.rules
  | some text =>
    match env.decodeRules text with
    | some rules => .ok rules
    | none => .error ()

/-- Whether a destination is denied, allowed, or allowed once the first bytes are seen. -/
def destinationPolicy (state : State) (user : UserRecord) (metadata : FlowMetadata) :
    Except Unit (Option SniffPolicy) := do
  let rules ← activeRules env state user
  let observed ← scanRules (ruleApplies env user metadata) rules.terminal rules.entries []
  if observed.isEmpty then return none
  else
    return some
      { entries := observed
        terminal := rules.terminal
        unknown := state.options.onUnknownProtocol
        maxBytes := state.options.sniffBytes
        timeout := millis state.options.sniffTimeoutMs }

namespace State

variable (session : Nat)

/-- The role and the user of an authenticated session. -/
def authenticatedSession : Except Status (PolicySession × String) :=
  match state.sessions.lookup session with
  | none => .error .invalid
  | some found =>
    match found.auth with
    | .authenticated userId => .ok (found, userId)
    | _ => .error .pending

/-- Whether a flow is admitted, and the identity that waits for it on a server. -/
def admission (state : State) (session : Nat) (metadata : FlowMetadata) (utc : Nat) :
    Except Status (Option FlowIdentity) := do
  if state.maintenance then throw .pending
  let (found, userId) ← state.authenticatedSession session
  if found.role = .client then return none
  match state.admin.users.lookup userId with
  | none => throw .denied
  | some user =>
    if !state.flowAvailableAt user utc ∨ state.flowLimitReached user then throw .denied
    match destinationPolicy env state user metadata with
    | .error () => throw .denied
    | .ok sniff => return some { userId, credentialDigest := found.credentialDigest, sniff }

/-- Queue an identity on a session. -/
def pushIdentity (identity : FlowIdentity) : State :=
  match state.sessions.lookup session with
  | none => state
  | some found =>
    { state with
      sessions := state.sessions.insert session
        { found with pendingFlows := found.pendingFlows ++ [identity] } }

def admitFlow (state : State) (session : Nat) (metadata : FlowMetadata) (utc : Nat) :
    Status × State :=
  match state.admission env session metadata utc with
  | .error status => (status, state)
  | .ok none => (.ok, state)
  | .ok (some identity) => (.ok, state.pushIdentity session identity)

/-- Admit the address a domain was resolved to, without any effect. -/
def admitResolved (state : State) (session : Nat) (metadata : FlowMetadata) (utc : Nat) : Status :=
  if metadata.addressType = .domain then .invalid
  else if state.maintenance then .pending
  else
    match state.authenticatedSession session with
    | .error status => status
    | .ok (found, userId) =>
      if found.role = .client then .ok
      else
        match state.admin.users.lookup userId with
        | none => .denied
        | some user =>
          if !state.flowAvailableAt user utc then .denied
          else
            match destinationPolicy env state user metadata with
            | .error () => .denied
            | .ok _ => .ok

/-- Take the oldest waiting identity of a server session; a client session has none. -/
def takeIdentity : Except Status (Option FlowIdentity × State) :=
  match state.sessions.lookup session with
  | none => .error .invalid
  | some found =>
    match found.role, found.pendingFlows with
    | .client, _ => .ok (none, state)
    | .server, [] => .error .denied
    | .server, identity :: rest =>
      .ok (some identity,
        { state with
          sessions := state.sessions.insert session { found with pendingFlows := rest } })

/-- A stream flow of an identity. -/
def newFlow (identity : Option FlowIdentity) (instant : Nat) : PolicyFlow where
  session
  userId := identity.map (·.userId)
  credentialDigest := identity.bind (·.credentialDigest)
  sniff := (identity.bind (·.sniff)).map fun policy =>
    { policy, prefixBytes := [], deadline := instant + policy.timeout, allowed := false }
  prefixOffset := 0

def newDatagramFlow (identity : Option FlowIdentity) : PolicyDatagramFlow where
  session
  userId := identity.map (·.userId)
  credentialDigest := identity.bind (·.credentialDigest)
  policy := identity.bind (·.sniff)

/-- Why an attachment fails after it has taken its identity. -/
inductive AttachFault
  /-- One of the two sockets cannot be wrapped. -/
  | socket
  /-- The buffers cannot be allocated. -/
  | buffers
  deriving DecidableEq, Repr

def AttachFault.status : AttachFault → Status
  | socket => .invalid
  | buffers => .resource

/--
What an attachment meets outside the instance.

Other instances of the process may have drawn flow handles in between.
-/
structure AttachInput where
  fault : Option AttachFault
  instant : Nat
  elsewhere : Nat
  deriving DecidableEq, Repr

/-- Attach a flow to a session: its identity is taken before anything else can fail. -/
def attachWith (input : AttachInput)
    (install : State → Nat → Option FlowIdentity → State) : Status × State :=
  match state.takeIdentity session with
  | .error status => (status, state)
  | .ok (identity, state) =>
    match input.fault with
    | some fault => (fault.status, state)
    | none =>
      let handle := state.flowNext + input.elsewhere
      let state := { state with flowNext := handle + 1 }
      if handle % 2 ^ 64 = 0 then (.resource, state) else (.ok, install state handle identity)

/-- Attach a stream to a session. -/
def attachFlow (input : AttachInput) : Status × State :=
  state.attachWith session input fun state handle identity =>
    { state with flows := state.flows.insert handle (newFlow session identity input.instant) }

def attachDatagramFlow (input : AttachInput) : Status × State :=
  state.attachWith session input fun state handle identity =>
    { state with
      datagramFlows := state.datagramFlows.insert handle (newDatagramFlow session identity) }

/-- The first message of a client session. -/
def authMessage (credential : Bytes) : String :=
  "method = \"auth\"\ncredential = \"" ++ encodeHex credential ++ "\"\n"

/-- Attach a control stream as a new session. -/
def attachSession (state : State) (context : Bytes) (instant elsewhere : Nat) : Status × State :=
  match env.decodeSecurity context with
  | none => (.denied, state)
  | some security =>
    if !security.confidentiality ∨ !security.integrity then (.denied, state)
    else if security.role = .client ∧ !security.peerAuthenticated then (.denied, state)
    else if security.peerAuthenticated ∧ security.peerIdentity = some "" then (.denied, state)
    else
      let handle := state.sessionNext + elsewhere
      let state := { state with sessionNext := handle + 1 }
      if handle % 2 ^ 64 = 0 then (.resource, state)
      else
        match SessionChannel.new state.options.maxControlFrameBytes with
        | .error _ => (.resource, state)
        | .ok channel =>
          let opened : Except Status SessionChannel :=
            match security.role, state.clientCredential with
            | .server, _ => .ok channel
            | .client, none => .error .denied
            | .client, some credential =>
              mapStatus (fun _ => .resource) (channel.queueResponse (authMessage credential))
          match opened with
          | .error status => (status, state)
          | .ok channel =>
            (.ok, { state with
              sessions := state.sessions.insert handle
                { channel
                  role := security.role
                  auth := .waiting
                  subscribed := false
                  lastStatus := instant
                  credentialDigest := none
                  pendingFlows := [] } })

end State

end Snolc.Policy
