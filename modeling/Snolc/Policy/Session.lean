import Snolc.Policy.Pump

/-! The session pass of a poll: client messages and the three steps of authentication. -/

namespace Snolc.Policy

/-- The rate a status message shows. -/
def rateValue : RateLimit → Option Nat
  | .unlimited => none
  | .limited bytesPerSecond => some bytesPerSecond

/-- The status of a cached user. -/
def statusMessage (env : Env) (state : State) (userId status : String) : Except Status String :=
  match state.admin.users.lookup userId with
  | none => .error .invalid
  | some user =>
    let message : PolicyStatus :=
      { status
        serverId := state.options.serverId
        userId
        usedBytes := user.durableChargedBytes
        limitBytes := quotaLimit user.spec.quota
        uploadBytesPerSecond := rateValue user.spec.uploadRate
        downloadBytesPerSecond := rateValue user.spec.downloadRate
        expiresAt := match user.spec.expiration with
          | .unlimited => none
          | .atUtc unixSeconds => some unixSeconds
        revision := user.revision
        reason := "ok" }
    match env.encodeStatus message with
    | none => .error .internal
    | some text => .ok text

/-- The message that refuses a client. -/
def deniedMessage (reason : String) : String :=
  "status = \"denied\"\nreason = \"" ++ reason ++ "\"\n"

namespace PolicySession

variable (session : PolicySession)

def queueResponse (response : String) : Except Status PolicySession :=
  match session.channel.queueResponse response with
  | .error _ => .error .resource
  | .ok channel => .ok { session with channel }

/-- Replace the status snapshot, failing the session when it does not fit. -/
def replaceSnapshot (snapshot : String) : Except Status PolicySession :=
  match session.channel.replaceSnapshot snapshot with
  | .error _ => .error .resource
  | .ok channel => .ok { session with channel }

/-- Tell a client why it is refused; it may try again. -/
def queueDenied (reason : String) : Except Status PolicySession :=
  { session with auth := .waiting }.queueResponse (deniedMessage reason)

/-- The user of an authenticated session. -/
def userId : Option String :=
  match session.auth with
  | .authenticated userId => some userId
  | _ => none

end PolicySession

def credentialDigest (env : Env) (credential : Bytes) : String :=
  encodeHex (env.sha256 credential)

abbrev SessionStep := State × Except Status PolicySession

def continueSession : SessionStep → (State → PolicySession → SessionStep) → SessionStep
  | (state, .error status), _ => (state, .error status)
  | (state, .ok session), rest => rest state session

/-- Start looking a presented credential up. -/
def presentCredential (env : Env) (state : State) (session : PolicySession)
    (credential : String) : SessionStep :=
  if session.auth ≠ .waiting then (state, .error .denied)
  else
    match decodeHex 32 credential with
    | .error fault => (state, .error (adminStatus fault))
    | .ok credential =>
      let digest := credentialDigest env credential
      match state.storage.get (.credential digest) with
      | .error fault => (state, .error (storageStatus fault))
      | .ok (reply, storage) =>
        ({ state with storage },
          .ok { session with
            credentialDigest := some digest
            auth := .credential digest reply })

/-- Queue the status of an authenticated session. -/
def respondStatus (env : Env) (state : State) (session : PolicySession) :
    Except Status PolicySession :=
  match session.userId with
  | none => .error .denied
  | some userId => do
    let status ← statusMessage env state userId "ok"
    session.queueResponse status

/-- Start sending status snapshots to an authenticated session. -/
def subscribe (env : Env) (state : State) (session : PolicySession) (instant : Nat) :
    Except Status PolicySession :=
  match session.userId with
  | none => .error .denied
  | some userId => do
    let status ← statusMessage env state userId "ok"
    let session ← session.replaceSnapshot status
    return { session with subscribed := true, lastStatus := instant }

/-- One message of a client to a server session. -/
def handleClientRequest (env : Env) (state : State) (session : PolicySession) (instant : Nat)
    (input : String) : SessionStep :=
  match ClientRequest.parse env.decodeClient input with
  | .error _ => (state, .error .denied)
  | .ok (.auth credential) => presentCredential env state session credential
  | .ok .status => (state, respondStatus env state session)
  | .ok .subscribe => (state, subscribe env state session instant)
  | .ok .disconnectSelf => (state, .error .ok)

/-- One message of a server to a client session. -/
def handleServerStatus (env : Env) (session : PolicySession) (input : String) :
    Except Status PolicySession :=
  match env.decodeStatus input with
  | none => .error .denied
  | some (status, userId) =>
    if status = "authenticated" ∨ status = "ok" then
      .ok { session with auth := .authenticated (userId.getD "remote") }
    else .error .denied

/-- One message, by the role of the session. -/
def handleMessage (env : Env) (state : State) (session : PolicySession) (instant : Nat)
    (message : String) : SessionStep :=
  match session.role with
  | .server => handleClientRequest env state session instant message
  | .client => (state, handleServerStatus env session message)

/-- Messages in the order they arrived, until one fails the session. -/
def handleMessages (env : Env) (instant : Nat) : List String → State → PolicySession → SessionStep
  | [], state, session => (state, .ok session)
  | message :: rest, state, session =>
    continueSession (handleMessage env state session instant message)
      (handleMessages env instant rest)

def State.cacheUser (state : State) (user : UserRecord) : State :=
  { state with
    admin := { state.admin with
      loadedUsers := insert user.id state.admin.loadedUsers
      users := state.admin.users.insert user.id user } }

/-- Cache the record of a user that has proved who it is, and tell it so. -/
def finishAuthentication (env : Env) (state : State) (session : PolicySession)
    (user : UserRecord) : SessionStep :=
  let state := state.cacheUser user
  (state, do
    let status ← statusMessage env state user.id "authenticated"
    { session with auth := .authenticated user.id }.queueResponse status)

/-- The credential record has arrived. -/
def advanceCredential (state : State) (session : PolicySession) (digest : String) (reply : Nat) :
    SessionStep :=
  match state.storage.tryRecv reply with
  | .ok (.value (some (.credential credential))) =>
    if credential.digest ≠ digest ∨ credential.revoked then
      (state, session.queueDenied "credential-revoked")
    else
      match state.storage.get (.user credential.userId) with
      | .error fault => (state, .error (storageStatus fault))
      | .ok (reply, storage) =>
        ({ state with storage }, .ok { session with auth := .user credential.userId reply })
  | .ok (.value none) => (state, session.queueDenied "credential-unknown")
  | .error .empty => (state, .ok session)
  | _ => (state, .error .io)

/-- The user record has arrived. -/
def advanceUser (env : Env) (state : State) (session : PolicySession) (userId : String)
    (reply utc : Nat) : SessionStep :=
  match state.storage.tryRecv reply with
  | .ok (.value (some (.user stored))) =>
    match decodeUserRecord stored with
    | .error _ => (state, .error .io)
    | .ok user =>
      if user.id ≠ userId ∨ !userAvailableAt user utc then
        (state, session.queueDenied "user-disabled")
      else if state.sessionLimitReached user then (state, session.queueDenied "session-limit")
      else if utc > user.maxObservedUtc then
        let user := { user with maxObservedUtc := utc }
        match state.storage.put (.user userId) (.user (encodeUserRecord user)) with
        | .error fault => (state, .error (storageStatus fault))
        | .ok (reply, storage) =>
          ({ state with storage }, .ok { session with auth := .clock user reply })
      else finishAuthentication env state session user
  | .ok (.value none) => (state, session.queueDenied "user-unknown")
  | .error .empty => (state, .ok session)
  | _ => (state, .error .io)

/-- The clock write has been answered. -/
def advanceClock (env : Env) (state : State) (session : PolicySession) (user : UserRecord)
    (reply : Nat) : SessionStep :=
  match state.storage.tryRecv reply with
  | .ok .done => finishAuthentication env state session user
  | .error .empty => (state, .ok session)
  | _ => (state, .error .io)

/-- One step of authentication, if its storage reply is there. -/
def advanceAuthentication (env : Env) (state : State) (session : PolicySession) (utc : Nat) :
    SessionStep :=
  match session.auth with
  | .credential digest reply => advanceCredential state session digest reply
  | .user userId reply => advanceUser env state session userId reply utc
  | .clock user reply => advanceClock env state session user reply
  | .waiting | .authenticated _ => (state, .ok session)

/-- A due status snapshot for a subscriber. -/
def refreshSnapshot (env : Env) (state : State) (session : PolicySession) (instant : Nat) :
    Except Status PolicySession :=
  match session.userId with
  | none => .ok session
  | some userId =>
    if session.subscribed ∧ instant - session.lastStatus ≥ millis state.options.statusIntervalMs
    then do
      let status ← statusMessage env state userId "ok"
      let session ← session.replaceSnapshot status
      return { session with lastStatus := instant }
    else .ok session

/-- What a session meets outside the instance during its turn. -/
structure SessionInput where
  channel : ChannelInput
  instant : Nat
  utc : Nat
  deriving DecidableEq, Repr

/-- The first half of a session's turn: its channel and the messages that arrived. -/
def receiveMessages (env : Env) (input : SessionInput) (state : State) (session : PolicySession) :
    SessionStep :=
  match session.channel.poll input.channel with
  | .error _ => (state, .error .io)
  | .ok (channel, arrived) =>
    let messages := match arrived with
      | .ready messages => messages
      | .pending => []
    handleMessages env input.instant messages state { session with channel }

/-- The second half of a session's turn: authentication and the status snapshot. -/
def advanceSession (env : Env) (input : SessionInput) (state : State) (session : PolicySession) :
    SessionStep :=
  continueSession (advanceAuthentication env state session input.utc) fun state session =>
    (state, refreshSnapshot env state session input.instant)

def pollPolicySession (env : Env) (input : SessionInput) (state : State)
    (session : PolicySession) : SessionStep :=
  continueSession (receiveMessages env input state session) (advanceSession env input)

/-- Put a session back into the table unless it failed. -/
def landSession (handle : Nat) : SessionStep → State
  | (state, .error _) => state
  | (state, .ok session) => { state with sessions := state.sessions.insert handle session }

namespace State

/-- Take a session out of the table, let it work, and put it back unless it failed. -/
def withSession (state : State) (handle : Nat) (work : State → PolicySession → SessionStep) :
    State :=
  match state.sessions.lookup handle with
  | none => state
  | some session =>
    landSession handle (work { state with sessions := state.sessions.erase handle } session)

/-- Drop the flows whose session is gone. -/
def dropOrphans (state : State) : State :=
  { state with
    flows := state.flows.retain fun _ flow => (state.sessions.lookup flow.session).isSome
    datagramFlows := state.datagramFlows.retain fun _ flow =>
      (state.sessions.lookup flow.session).isSome }

end State

end Snolc.Policy
