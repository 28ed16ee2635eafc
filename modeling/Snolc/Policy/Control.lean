import Snolc.Policy.Session

/-! The administrative interface: cache loads, sequenced mutations and their acknowledgement. -/

namespace Snolc.Policy

/-- What an administrative call meets outside the instance. -/
structure ControlInput where
  request : Bytes
  /-- The random bytes of a new user, unless the source of randomness fails. -/
  entropy : Option Bytes
  utc : Nat
  /-- The cached user an eviction meets first. -/
  evict : String
  deriving DecidableEq, Repr

/-- A mutation before it is durable: its answer, its effects in memory and its writes. -/
structure PreparedAdmin where
  response : Bytes
  mutation : AdminMutation
  changes : List (Key × Option Value)
  deriving DecidableEq, Repr

/-- The revision after a given one. -/
def nextRevision (revision : Nat) : Except Status Nat :=
  match checkedAdd revision 1 with
  | none => .error .resource
  | some next => .ok next

variable (state : State) (userId : String) (expectedRevision : Nat)

namespace State

/-- The cached record of a user at the revision the request expects. -/
def checkedUser : Except Status UserRecord :=
  match state.admin.users.lookup userId with
  | none => .error .invalid
  | some user => if user.revision ≠ expectedRevision then .error .denied else .ok user

def cachedUser : Except Status UserRecord :=
  match state.admin.users.lookup userId with
  | none => .error .invalid
  | some user => .ok user

end State

/-- The writes and the cache update of a mutation, with the answer still as data. -/
structure Draft where
  userId : Option String
  revision : Nat
  mutation : AdminMutation
  changes : List (Key × Option Value)
  deriving DecidableEq, Repr

/-- A mutation that writes one user record. -/
def putUser (user : UserRecord) : Draft where
  userId := some user.id
  revision := user.revision
  mutation := { users := [(user.id, some user)] }
  changes := [(.user user.id, some (.user (encodeUserRecord user)))]

/-- A mutation that writes one credential record. -/
def putCredential (digest : String) (record : CredentialRecord) : Draft where
  userId := some record.userId
  revision := record.revision
  mutation := { credentials := [(digest, some record)] }
  changes := [(.credential digest, some (.credential record))]

variable (env : Env)

namespace State

/-- A new user under a random name. -/
def createUser (user : UserSpec) (entropy : Option Bytes) (utc : Nat) : Except Status Draft :=
  match entropy with
  | none => .error (adminStatus .random)
  | some bytes =>
    .ok (putUser
      { id := encodeHex bytes
        spec := user
        revision := 1
        durableChargedBytes := 0
        uploadBytes := 0
        downloadBytes := 0
        maxObservedUtc := utc })

/-- A new specification for a user. -/
def updateUser (user : UserSpec) : Except Status Draft := do
  let record ← state.checkedUser userId expectedRevision
  let revision ← nextRevision record.revision
  return { putUser { record with spec := user, revision } with userId := some userId }

/-- A user that may not do anything any more. -/
def disableUser : Except Status Draft := do
  let record ← state.checkedUser userId expectedRevision
  let revision ← nextRevision record.revision
  return { putUser { record with spec := { record.spec with status := .disabled }, revision } with
    userId := some userId }

/-- Remove a user and its cached credentials. -/
def deleteUser : Except Status Draft := do
  let record ← state.checkedUser userId expectedRevision
  let revision ← nextRevision record.revision
  let digests := (state.admin.credentials.entries.filter fun entry =>
    entry.2.userId = userId).map Sigma.fst
  pure
    { userId := some userId
      revision
      mutation :=
        { users := [(userId, none)]
          credentials := digests.map fun digest => (digest, none) }
      changes := (.user userId, none) :: digests.map fun digest => (.credential digest, none) }

/-- A credential for a user; one it already has changes nothing. -/
def addCredential (userId credentialSha256 : String) : Except Status Draft := do
  let user ← state.cachedUser userId
  let revision ← nextRevision user.revision
  match state.admin.credentials.lookup credentialSha256 with
  | some existing =>
    if existing.userId ≠ userId ∨ existing.revoked then throw .denied
    return { userId := some userId, revision, mutation := {}, changes := [] }
  | none =>
    return putCredential credentialSha256
      { digest := credentialSha256, userId, revoked := false, revision }

/-- A credential that may not be used any more. -/
def revokeCredential (credentialSha256 : String) : Except Status Draft := do
  match state.admin.credentials.lookup credentialSha256 with
  | none => throw .invalid
  | some record =>
    let revision ← nextRevision record.revision
    return putCredential credentialSha256 { record with revoked := true, revision }

/-- A larger limit for a user that has one. -/
def addQuota (bytes : Nat) : Except Status Draft := do
  let record ← state.cachedUser userId
  match record.spec.quota with
  | .unlimited => throw .invalid
  | .limited limit =>
    match checkedAdd limit bytes with
    | none => throw .resource
    | some limit =>
      let revision ← nextRevision record.revision
      return { putUser { record with
          spec := { record.spec with quota := .limited limit }, revision } with
        userId := some userId }

/-- A new accounting period with fresh counters. -/
def newPeriod (quota : ByteLimit) : Except Status Draft := do
  let record ← state.cachedUser userId
  let revision ← nextRevision record.revision
  return { putUser
      { record with
        spec := { record.spec with quota }
        durableChargedBytes := 0
        uploadBytes := 0
        downloadBytes := 0
        revision } with
    userId := some userId }

/-- Close a session. -/
def disconnectSession (sessionId : Nat) : Except Status Draft :=
  if (state.sessions.lookup sessionId).isNone then .error .invalid
  else
    .ok
      { userId := none
        revision := 0
        mutation := { disconnect := some sessionId }
        changes := [] }

/-- New rules for a profile, optionally closing the flows of its users. -/
def replaceRules (profile : String) (apply : RuleApply) (rulesToml : String) :
    Except Status Draft :=
  match env.decodeRules rulesToml with
  | none => .error .invalid
  | some rules =>
    match rules.validate env.parseIp with
    | .error _ => .error .invalid
    | .ok () =>
      .ok
        { userId := none
          revision := 0
          mutation :=
            { rules := [(profile, rulesToml)]
              activeRuleProfiles := if apply = .active then [profile] else [] }
          changes := [(.rules profile, some (.rules rulesToml))] }

/-- What a mutating request changes. -/
def draftMutation (state : State) (input : ControlInput) : ControlRequest → Except Status Draft
  | .userCreate _ _ user => createUser user input.entropy input.utc
  | .userUpdate _ _ userId expectedRevision user =>
    state.updateUser userId expectedRevision user
  | .userDisable _ _ userId expectedRevision => state.disableUser userId expectedRevision
  | .userDelete _ _ userId expectedRevision => state.deleteUser userId expectedRevision
  | .credentialAdd _ _ userId credentialSha256 => state.addCredential userId credentialSha256
  | .credentialRevoke _ _ credentialSha256 => state.revokeCredential credentialSha256
  | .quotaAdd _ _ userId bytes => state.addQuota userId bytes
  | .quotaNewPeriod _ _ userId quota => state.newPeriod userId quota
  | .sessionsDisconnect _ _ sessionId => state.disconnectSession sessionId
  | .rulesReplace _ _ profile apply rulesToml => replaceRules env profile apply rulesToml
  | .usageGet _ | .sessionsList _ | .maintenanceBackup _ => .error .invalid

/-- The answer, the effects in memory and the writes of a mutating request. -/
def prepareAdminMutation (state : State) (input : ControlInput)
    (request : ControlRequest) : Except Status PreparedAdmin := do
  let draft ← draftMutation env state input request
  match env.encodeResponse (.mutation draft.revision draft.userId) with
  | none => throw .internal
  | some response => return { response, mutation := draft.mutation, changes := draft.changes }

/-- Make room for one more cached user. -/
def evictUser (admin : AdminState) (evict : String) : AdminState :=
  match admin.users.first evict with
  | none => admin
  | some evicted =>
    { admin with
      users := admin.users.erase evicted
      loadedUsers := admin.loadedUsers.erase evicted }

/-- Apply the part of a mutation that concerns one user to the cache. -/
def applyUser (maxCachedUsers : Nat) (evict : String) (admin : AdminState) :
    String × Option UserRecord → AdminState
  | (id, some user) =>
    let admin :=
      if (admin.users.lookup id).isNone ∧ admin.users.len ≥ maxCachedUsers then
        evictUser admin evict
      else admin
    { admin with
      loadedUsers := insert id admin.loadedUsers
      users := admin.users.insert id user }
  | (id, none) =>
    { admin with
      users := admin.users.erase id
      loadedUsers := insert id admin.loadedUsers }

/-- Apply the part of a mutation that concerns one credential to the cache. -/
def applyCredential (admin : AdminState) : String × Option CredentialRecord → AdminState
  | (digest, some credential) =>
    { admin with
      loadedCredentials := insert digest admin.loadedCredentials
      credentials := admin.credentials.insert digest credential }
  | (digest, none) =>
    { admin with
      credentials := admin.credentials.erase digest
      loadedCredentials := insert digest admin.loadedCredentials }

/-- The cache after a mutation. -/
def applyCache (maxCachedUsers : Nat) (evict : String) (admin : AdminState)
    (mutation : AdminMutation) : AdminState :=
  let admin := mutation.users.foldl (applyUser maxCachedUsers evict) admin
  let admin := mutation.credentials.foldl applyCredential admin
  { admin with
    rules := mutation.rules.foldl (fun rules entry => rules.insert entry.1 entry.2) admin.rules }

end State

variable (mutation : AdminMutation)

def AdminMutation.stoppedUsers (utc : Nat) : List String :=
  mutation.users.filterMap fun (id, user) =>
    match user with
    | some user => if userAvailableAt user utc then none else some id
    | none => some id

def AdminMutation.revokedCredentials : List String :=
  mutation.credentials.filterMap fun (digest, credential) =>
    match credential with
    | some credential => if credential.revoked then some digest else none
    | none => some digest

namespace State

/-- Drop traffic, flows and sessions of users that lost access. -/
def stopUsers (users : List String) : State :=
  let state := (state.removeTraffic users).dropFlows users
  { state with
    sessions := state.sessions.retain fun _ session => !session.userId.any (· ∈ users) }

/-- Drop flows and sessions that used credentials which may not be used any more. -/
def stopCredentials (digests : List String) : State :=
  { state with
    flows := state.flows.retain fun _ flow => !flow.credentialDigest.any (· ∈ digests)
    datagramFlows := state.datagramFlows.retain fun _ flow =>
      !flow.credentialDigest.any (· ∈ digests)
    sessions := state.sessions.retain fun _ session =>
      !session.credentialDigest.any (· ∈ digests) }

def profileUsers (profiles : List String) : List String :=
  (state.admin.users.values.filter fun user => user.spec.ruleProfile ∈ profiles).map (·.id)

/-- Close the session a mutation names. -/
def disconnect (session : Option Nat) : State :=
  match session with
  | none => state
  | some session => { state with sessions := state.sessions.erase session }

/-- Let a durable mutation take effect in memory. -/
def applyAdminMutation (utc : Nat) (evict : String) : State :=
  let stopped := mutation.stoppedUsers utc
  let revoked := mutation.revokedCredentials
  let state := { state with
    admin := applyCache state.options.maxCachedUsers evict state.admin mutation }
  let state := state.dropFlows (state.profileUsers mutation.activeRuleProfiles)
  ((state.disconnect mutation.disconnect).stopUsers stopped).stopCredentials revoked

/-- The record that must be cached before a request can be decided. -/
def requiredAdminRead (request : ControlRequest) : Option (Key × ReadKind) :=
  let userId := match request with
    | .userUpdate _ _ userId _ _
    | .userDisable _ _ userId _
    | .userDelete _ _ userId _
    | .credentialAdd _ _ userId _
    | .quotaAdd _ _ userId _
    | .quotaNewPeriod _ _ userId _
    | .usageGet userId => some userId
    | .sessionsList userId => userId
    | _ => none
  let digest := match request with
    | .credentialAdd _ _ _ digest | .credentialRevoke _ _ digest => some digest
    | _ => none
  match userId.filter (· ∉ state.admin.loadedUsers) with
  | some userId => some (.user userId, .user userId)
  | none =>
    match digest.filter (· ∉ state.admin.loadedCredentials) with
    | some digest => some (.credential digest, .credential digest)
    | none => none

/-- Cache a user that was read for a request. -/
def finishUserRead (id : String) (value : Option Value) (evict : String) :
    State × Except Status Unit :=
  let state := { state with
    admin := { state.admin with loadedUsers := insert id state.admin.loadedUsers } }
  match value with
  | none => (state, .ok ())
  | some (.user stored) =>
    match decodeUserRecord stored with
    | .error _ => (state, .error .io)
    | .ok user =>
      if user.id ≠ id then (state, .error .io)
      else
        let admin :=
          if state.admin.users.len ≥ state.options.maxCachedUsers then
            evictUser state.admin evict
          else state.admin
        ({ state with admin := { admin with users := admin.users.insert id user } }, .ok ())
  | some _ => (state, .error .io)

/-- Cache a credential that was read for a request. -/
def finishCredentialRead (digest : String) (value : Option Value) : State × Except Status Unit :=
  let state := { state with
    admin := { state.admin with
      loadedCredentials := insert digest state.admin.loadedCredentials } }
  match value with
  | none => (state, .ok ())
  | some (.credential credential) =>
    if credential.digest ≠ digest then (state, .error .io)
    else
      ({ state with
        admin := { state.admin with
          credentials := state.admin.credentials.insert digest credential } }, .ok ())
  | some _ => (state, .error .io)

/-- Cache what was read for a request. -/
def finishAdminRead (kind : ReadKind) (value : Option Value) (evict : String) :
    State × Except Status Unit :=
  match kind with
  | .user id => state.finishUserRead id value evict
  | .credential digest => state.finishCredentialRead digest value

/-- The answer to a request that changes nothing. -/
def readAdminState (state : State) (request : ControlRequest) : Except Status Bytes := do
  let response ← match request with
    | .usageGet userId => do
      let user ← state.cachedUser userId
      pure (Response.usage user.id user.revision user.durableChargedBytes
        (quotaLimit user.spec.quota) user.uploadBytes user.downloadBytes)
    | .sessionsList userId =>
      pure (Response.sessions ((state.sessions.entries.filter fun entry =>
        match entry.2.userId with
        | none => false
        | some authenticated => userId.all (· = authenticated)).map Sigma.fst))
    | _ => throw .invalid
  match env.encodeResponse response with
  | none => throw .internal
  | some text => return text

/-- Queue a sequenced mutation together with its receipt. -/
def submitMutation (state : State) (input : ControlInput) (request : ControlRequest)
    (clientId : String) (seq : Nat) : Except Status Bytes × State :=
  match state.admin.sequencer.check env.sha256 clientId seq input.request with
  | .error fault => (.error (adminStatus fault), state)
  | .ok (.replay response) => (.ok response, state)
  | .ok (.execute requestHash) =>
    match prepareAdminMutation env state input request with
    | .error status => (.error status, state)
    | .ok prepared =>
      match state.admin.sequencer.prepareCommit clientId seq requestHash prepared.response with
      | .error fault => (.error (adminStatus fault), state)
      | .ok receipt =>
        match state.storage.apply
            (prepared.changes ++ [(.client clientId, some (.receipt receipt))]) with
        | .error fault => (.error (storageStatus fault), state)
        | .ok (reply, storage) =>
          (.error .pending,
            { state with
              storage
              pendingControl := some (.write
                { request := input.request
                  clientId
                  receipt
                  response := prepared.response
                  mutation := prepared.mutation
                  reply }) })

/-- Load the record a request needs, answer it, or queue its mutation. -/
def routeRequest (state : State) (input : ControlInput) (request : ControlRequest) :
    Except Status Bytes × State :=
  match state.requiredAdminRead request with
  | some (key, kind) =>
    match state.storage.get key with
    | .error fault => (.error (storageStatus fault), state)
    | .ok (reply, storage) =>
      (.error .pending,
        { state with
          storage
          pendingControl := some (.read input.request kind reply) })
  | none =>
    match request.sequence with
    | none => (readAdminState env state request, state)
    | some (clientId, seq) => state.submitMutation env input request clientId seq

/-- Copy the database while the instance stands still. -/
def startBackup (input : ControlInput) (destination : String) : Except Status Bytes × State :=
  match state.storage.backup destination with
  | .error fault => (.error (storageStatus fault), state)
  | .ok (reply, storage) =>
    (.error .pending,
      { state with
        storage
        maintenance := true
        pendingControl := some (.backup input.request destination reply) })

/-- A request with nothing in progress. -/
def startControl (state : State) (input : ControlInput) : Except Status Bytes × State :=
  if input.request.length > state.options.maxControlFrameBytes then (.error .resource, state)
  else
    match ControlRequest.parse env.decodeControl input.request with
    | .error _ => (.error .invalid, state)
    | .ok (.maintenanceBackup destination) => state.startBackup input destination
    | .ok request => state.routeRequest env input request

/-- The reply to an administrative write. -/
def finishWrite (input : ControlInput) (pending : PendingWrite) : Except Status Bytes × State :=
  let settled := { state with pendingControl := none }
  match state.storage.tryRecv pending.reply with
  | .ok .done =>
    match state.admin.sequencer.applyCommit pending.clientId pending.receipt with
    | .error _ => (.error .internal, settled)
    | .ok sequencer =>
      (.ok pending.response,
        { settled with admin := { settled.admin with sequencer } }.applyAdminMutation
          pending.mutation input.utc input.evict)
  | .error .empty => (.error .pending, state)
  | _ => (.error .io, settled)

/-- The reply to a cache load, and the request it was made for. -/
def finishRead (state : State) (input : ControlInput) (kind : ReadKind)
    (reply : Nat) : Except Status Bytes × State :=
  let settled := { state with pendingControl := none }
  match state.storage.tryRecv reply with
  | .ok (.value value) =>
    match settled.finishAdminRead kind value input.evict with
    | (state, .error status) => (.error status, state)
    | (state, .ok ()) => state.startControl env input
  | .error .empty => (.error .pending, state)
  | _ => (.error .io, settled)

/-- The reply to a backup. -/
def finishBackup (state : State) (destination : String) (reply : Nat) :
    Except Status Bytes × State :=
  let settled := { state with pendingControl := none, maintenance := false }
  match state.storage.tryRecv reply with
  | .ok .done =>
    match env.encodeResponse (.backup destination) with
    | none => (.error .internal, settled)
    | some response => (.ok response, settled)
  | .error .empty => (.error .pending, state)
  | _ => (.error .io, settled)

/-- One administrative call. -/
def controlInstance (state : State) (input : ControlInput) : Except Status Bytes × State :=
  match state.pendingControl with
  | none => state.startControl env input
  | some pending =>
    if pending.request ≠ input.request then (.error .pending, state)
    else
      match pending with
      | .write write => state.finishWrite input write
      | .read _ kind reply => state.finishRead env input kind reply
      | .backup _ destination reply => state.finishBackup env destination reply

end State

end Snolc.Policy
