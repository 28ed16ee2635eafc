import Snolc.Policy.Drafts
import Snolc.Policy.Machine

/-! Everything a step of the instance can do, as a list of changes to its state. -/

namespace Snolc.Policy

/-- Observations that no change of the state goes with. -/
def Obs.plain : Obs → Bool
  | answered _ _ | drew _ | resolved _ _ _ | abandoned _ _ => true
  | _ => false

/-- A write that can be given up: it failed, or its receipt does not fit. -/
def Forsaken (s : State) (write : PendingWrite) : Prop :=
  s.storage.tryRecv write.reply ≠ .error .empty ∧
    (s.storage.tryRecv write.reply = .ok .done →
      ∃ fault, s.admin.sequencer.applyCommit write.clientId write.receipt = .error fault)

/-- Whether the traffic of a user waits for no reply. -/
def Settled (traffic : UserTraffic) : Prop :=
  traffic.debit = none ∧ traffic.refund = none

/-- How the traffic of a user is given up. -/
inductive Stalled (s : State) (traffic : UserTraffic) : UserTraffic → Prop
  /-- A request failed before anything was written. -/
  | unasked {quota : QuotaAccount} : Settled traffic →
      quota.creditRemaining ≤ traffic.quota.creditRemaining →
      quota.durableCharged = traffic.quota.durableCharged →
      Stalled s traffic { traffic with quota, failed := true }
  /-- The reply to a debit is a failure, or will never come. -/
  | debit {pending : PendingQuota} : traffic.debit = some pending →
      s.storage.tryRecv pending.reply ≠ .ok .done →
      s.storage.tryRecv pending.reply ≠ .error .empty →
      Stalled s traffic
        { traffic with quota := traffic.quota.failCredit, debit := none, failed := true }
  /-- A durable debit does not fit the account. -/
  | credit {pending : PendingQuota} {fault : QuotaError} : traffic.debit = some pending →
      s.storage.replies[pending.reply]? = some .done →
      traffic.quota.commitCredit pending.amount = .error fault →
      Stalled s traffic { traffic with debit := none, failed := true }
  /-- The reply to a refund is a failure, or will never come. -/
  | refund {pending : PendingQuota} : traffic.refund = some pending →
      s.storage.tryRecv pending.reply ≠ .ok .done →
      s.storage.tryRecv pending.reply ≠ .error .empty →
      Stalled s traffic
        { traffic with quota := traffic.quota.failRefund, refund := none, failed := true }
  /-- A durable refund does not fit the account. -/
  | refused {pending : PendingQuota} {fault : QuotaError} : traffic.refund = some pending →
      s.storage.replies[pending.reply]? = some .done →
      traffic.quota.commitRefund pending.amount = .error fault →
      Stalled s traffic { traffic with refund := none, failed := true }

/-- Changes that start no operation on a user record. -/
inductive Quiet (env : Env) (s : State) : List Obs → State → Prop
  | received (received : Nat) : Quiet env s [] { s with storage := { s.storage with received } }
  | noted (obs : Obs) : obs.plain = true → Quiet env s [obs] s
  | loadedUser {request : Bytes} {id : String} {reply : Nat} {value : Option Value}
      {users : Table String UserRecord} (loadedUsers : Finset String) :
      s.pendingControl = some (.read request (.user id) reply) →
      s.storage.replies[reply]? = some (.value value) → State.LoadsUser s.admin id value users →
      Quiet env s []
        { s with pendingControl := none, admin := { s.admin with users, loadedUsers } }
  | loadedCredential {request : Bytes} {digest : String} {reply : Nat} {value : Option Value}
      {credentials : Table String CredentialRecord} (loadedCredentials : Finset String) :
      s.pendingControl = some (.read request (.credential digest) reply) →
      s.storage.replies[reply]? = some (.value value) →
      State.LoadsCredential s.admin digest value credentials →
      Quiet env s []
        { s with
          pendingControl := none
          admin := { s.admin with credentials, loadedCredentials } }
  | gaveUp (maintenance : Bool) :
      (∀ write, s.pendingControl = some (.write write) → Forsaken s write) →
      Quiet env s [] { s with pendingControl := none, maintenance }
  | acknowledged {write : PendingWrite} {sequencer : AdminSequencer} (utc : Nat)
      (evict : String) {sessions : Table Nat PolicySession} {flows : Table Nat PolicyFlow}
      {datagramFlows : Table Nat PolicyDatagramFlow} {traffic : Table String UserTraffic}
      (flowCursor userDeficit : Table String Nat) : s.pendingControl = some (.write write) →
      s.storage.replies[write.reply]? = some .done →
      s.admin.sequencer.applyCommit write.clientId write.receipt = .ok sequencer →
      State.Applied s write.mutation utc
        { s with
          admin := State.applyCache s.options.maxCachedUsers evict { s.admin with sequencer }
            write.mutation
          sessions, flows, datagramFlows, traffic } →
      Quiet env s [.acknowledged write]
        { s with
          pendingControl := none
          admin := State.applyCache s.options.maxCachedUsers evict { s.admin with sequencer }
            write.mutation
          sessions, flows, datagramFlows, traffic, flowCursor, userDeficit }
  | backedUp {request : Bytes} {destination : String} : s.pendingControl = none →
      ControlRequest.parse env.decodeControl request = .ok (.maintenanceBackup destination) →
      Quiet env s []
        { s with
          storage := s.storage.push (.backup destination)
          maintenance := true
          pendingControl := some (.backup request destination s.storage.commands.length) }
  | askedCredential (request : Bytes) (digest : String) : s.pendingControl = none →
      Quiet env s []
        { s with
          storage := s.storage.push (.get (.credential digest))
          pendingControl := some
            (.read request (.credential digest) s.storage.commands.length) }
  | observed (utc : Nat) : Quiet env s [] (s.observeUtc utc)
  | opened {userId : String} {user : UserRecord} {traffic : UserTraffic} {now nowNanos : Nat} :
      s.traffic.lookup userId = none → s.admin.users.lookup userId = some user →
      newTraffic s.options user now nowNanos = .ok traffic →
      Quiet env s [] (s.setTraffic userId traffic)
  | credited {userId : String} {traffic : UserTraffic} {pending : PendingQuota}
      {quota : QuotaAccount} : s.traffic.lookup userId = some traffic → traffic.failed = false →
      traffic.debit = some pending → s.storage.replies[pending.reply]? = some .done →
      traffic.quota.commitCredit pending.amount = .ok quota →
      Quiet env s [] ((s.setTraffic userId { traffic with quota, debit := none }).setUser userId
        pending.record)
  | refunded {userId : String} {traffic : UserTraffic} {pending : PendingQuota}
      {quota : QuotaAccount} (checkpointAt : Nat) : s.traffic.lookup userId = some traffic →
      traffic.failed = false → traffic.refund = some pending →
      s.storage.replies[pending.reply]? = some .done →
      traffic.quota.commitRefund pending.amount = .ok quota →
      Quiet env s [] ((s.setTraffic userId
        { traffic with quota, refund := none, checkpointAt }).setUser userId pending.record)
  | stalled {userId : String} {traffic next : UserTraffic} :
      s.traffic.lookup userId = some traffic → traffic.failed = false → Stalled s traffic next →
      Quiet env s [] (s.setTraffic userId next)
  | retimed {userId : String} {traffic : UserTraffic} (checkpointAt : Nat) :
      s.traffic.lookup userId = some traffic →
      Quiet env s [] (s.setTraffic userId { traffic with checkpointAt })
  | retired (users : List String) :
      (∀ userId ∈ users, ∀ traffic, s.traffic.lookup userId = some traffic →
        traffic.failed = true ∨ Settled traffic) →
      Quiet env s [] (s.removeTraffic users)
  | cut (keepStream : Nat → PolicyFlow → Bool) (keepDatagram : Nat → PolicyDatagramFlow → Bool) :
      Quiet env s []
        { s with
          flows := s.flows.retain keepStream
          datagramFlows := s.datagramFlows.retain keepDatagram }
  | tuned {handle : Nat} {session : PolicySession} (channel : SessionChannel)
      (subscribed : Bool) (lastStatus : Nat) : s.sessions.lookup handle = some session →
      Quiet env s []
        { s with
          sessions := s.sessions.insert handle { session with channel, subscribed, lastStatus } }
  | denied {handle : Nat} {session : PolicySession} (channel : SessionChannel) :
      s.sessions.lookup handle = some session → session.userId = none →
      Quiet env s []
        { s with
          sessions := s.sessions.insert handle { session with channel, auth := .waiting } }
  | dropped (handle : Nat) : Quiet env s [] { s with sessions := s.sessions.erase handle }
  | presented {handle : Nat} {session : PolicySession} (digest : String) :
      s.sessions.lookup handle = some session → session.role = .server →
      session.auth = .waiting →
      Quiet env s []
        { s with
          storage := s.storage.push (.get (.credential digest))
          sessions := s.sessions.insert handle
            { session with
              credentialDigest := some digest
              auth := .credential digest s.storage.commands.length } }
  | named {handle : Nat} {session : PolicySession} (userId : String) :
      s.sessions.lookup handle = some session → session.role = .client →
      Quiet env s []
        { s with
          sessions := s.sessions.insert handle { session with auth := .authenticated userId } }
  | closed : Quiet env s []
      { s with shuttingDown := true, sessions := ∅, flows := ∅, datagramFlows := ∅ }
  | stopping : Quiet env s []
      { s with storage :=
          { s.storage.push .stop with stopping := some s.storage.commands.length } }

/-- Changes that start an operation on a user record from its cached copy. -/
inductive Loud (env : Env) (event : Event) (s : State) : State → Prop
  | debited {userId : String} {traffic : UserTraffic} {user : UserRecord} {quota : QuotaAccount}
      {amount charged : Nat} : s.traffic.lookup userId = some traffic → traffic.failed = false →
      Settled traffic → traffic.quota.requestCredit = .ok (amount, quota) →
      s.admin.users.lookup userId = some user →
      checkedAdd user.durableChargedBytes amount = some charged →
      Loud env event s
        ({ s with storage := s.storage.push (.put (.user userId)
            (.user (encodeUserRecord { user with durableChargedBytes := charged }))) }.setTraffic
          userId
          { traffic with
            quota
            debit := some
              { amount
                record := { user with durableChargedBytes := charged }
                reply := s.storage.commands.length } })
  | refunding {userId : String} {traffic : UserTraffic} {user : UserRecord}
      {quota : QuotaAccount} {amount charged : Nat} :
      s.traffic.lookup userId = some traffic → traffic.failed = false →
      Settled traffic → traffic.quota.requestRefund = .ok (amount, quota) →
      s.admin.users.lookup userId = some user →
      checkedSub user.durableChargedBytes amount = some charged →
      Loud env event s
        ({ s with storage := s.storage.push (.put (.user userId)
            (.user (encodeUserRecord { user with durableChargedBytes := charged }))) }.setTraffic
          userId
          { traffic with
            quota
            refund := some
              { amount
                record := { user with durableChargedBytes := charged }
                reply := s.storage.commands.length } })
  | askedUser (request : Bytes) (userId : String) : s.pendingControl = none →
      Loud env event s
        { s with
          storage := s.storage.push (.get (.user userId))
          pendingControl := some (.read request (.user userId) s.storage.commands.length) }
  | submitted {input : ControlInput} {request : ControlRequest} {clientId : String} {seq : Nat}
      {draft : Draft} {response : Bytes} {receipt : Receipt} : event = .control input →
      s.pendingControl = none →
      ControlRequest.parse env.decodeControl input.request = .ok request →
      request.sequence = some (clientId, seq) → s.requiredAdminRead request = none →
      s.admin.sequencer.check env.sha256 clientId seq input.request =
        .ok (.execute (env.sha256 input.request)) →
      s.draftMutation env input request = .ok draft →
      env.encodeResponse (.mutation draft.revision draft.userId) = some response →
      s.admin.sequencer.prepareCommit clientId seq (env.sha256 input.request) response =
        .ok receipt →
      Loud env event s
        { s with
          storage := s.storage.push
            (.apply (draft.changes ++ [(.client clientId, some (.receipt receipt))]))
          pendingControl := some (.write
            { request := input.request
              clientId
              receipt
              response
              mutation := draft.mutation
              reply := s.storage.commands.length }) }

/-- A session whose credential or user record has arrived asks the worker for the next step. -/
inductive Begun (s : State) : State → Prop
  | lookedUp {handle : Nat} {session : PolicySession} {digest : String} {reply : Nat}
      {credential : CredentialRecord} : s.sessions.lookup handle = some session →
      session.auth = .credential digest reply →
      s.storage.replies[reply]? = some (.value (some (.credential credential))) →
      credential.digest = digest → credential.revoked = false →
      Begun s
        { s with
          storage := s.storage.push (.get (.user credential.userId))
          sessions := s.sessions.insert handle
            { session with auth := .user credential.userId s.storage.commands.length } }
  | clocked {handle : Nat} {session : PolicySession} {userId : String} {reply utc : Nat}
      {stored : StoredUserRecord} {user : UserRecord} :
      s.sessions.lookup handle = some session → session.auth = .user userId reply →
      s.storage.replies[reply]? = some (.value (some (.user stored))) →
      decodeUserRecord stored = .ok user → user.id = userId →
      userAvailableAt user utc = true →
      { s with sessions := s.sessions.erase handle }.sessionLimitReached user = false →
      user.maxObservedUtc < utc →
      Begun s
        { s with
          storage := s.storage.push (.put (.user userId)
            (.user (encodeUserRecord { user with maxObservedUtc := utc })))
          sessions := s.sessions.insert handle
            { session with
              auth := .clock { user with maxObservedUtc := utc } s.storage.commands.length } }

/-- A session that has proved who it is. -/
inductive Login (s : State) : State → Prop
  | direct {handle : Nat} {session : PolicySession} {userId : String} {reply utc : Nat}
      {stored : StoredUserRecord} {user : UserRecord} :
      s.sessions.lookup handle = some session → session.auth = .user userId reply →
      s.storage.replies[reply]? = some (.value (some (.user stored))) →
      decodeUserRecord stored = .ok user → user.id = userId →
      userAvailableAt user utc = true →
      { s with sessions := s.sessions.erase handle }.sessionLimitReached user = false →
      Login s
        ({ s with
          sessions := s.sessions.insert handle
            { session with auth := .authenticated user.id } }.cacheUser user)
  | confirmed {handle : Nat} {session : PolicySession} {user : UserRecord} {reply : Nat} :
      s.sessions.lookup handle = some session → session.auth = .clock user reply →
      s.storage.replies[reply]? = some .done →
      Login s
        ({ s with
          sessions := s.sessions.insert handle
            { session with auth := .authenticated user.id } }.cacheUser user)

def Event.attaches (session flow : Nat) : Event → Prop
  | attachFlow s f _ | attachDatagramFlow s f _ => s = session ∧ f = flow
  | _ => False

/-- What the host's calls change. -/
inductive Host (env : Env) (s : State) : Event → List Obs → State → Prop
  | refused {context : Bytes} {instant elsewhere next : Nat} : s.sessionNext ≤ next →
      Host env s (.attachSession context instant elsewhere) [] { s with sessionNext := next }
  | joined {context : Bytes} {instant elsewhere handle : Nat} {session : PolicySession} :
      s.sessionNext ≤ handle → session.auth = .waiting → session.credentialDigest = none →
      session.pendingFlows = [] →
      Host env s (.attachSession context instant elsewhere) []
        { s with
          sessionNext := handle + 1
          sessions := s.sessions.insert handle session }
  | admitted {session flow utc : Nat} {metadata : FlowMetadata} {found : PolicySession}
      {identity : FlowIdentity} :
      s.admission env session metadata utc = .ok (some identity) →
      s.sessions.lookup session = some found →
      Host env s (.admitFlow session flow metadata utc) [.admitted session flow identity]
        { s with
          sessions := s.sessions.insert session
            { found with pendingFlows := found.pendingFlows ++ [identity] } }
  | consumed {event : Event} {session flow next : Nat} {found : PolicySession}
      {identity : FlowIdentity} {rest : List FlowIdentity} : event.attaches session flow →
      s.sessions.lookup session = some found → found.role = .server →
      found.pendingFlows = identity :: rest → s.flowNext ≤ next →
      Host env s event [.attached session flow identity none]
        { s with
          sessions := s.sessions.insert session { found with pendingFlows := rest }
          flowNext := next }
  | streamed {event : Event} {session flow handle instant : Nat} {found : PolicySession}
      {identity : FlowIdentity} {rest : List FlowIdentity} : event.attaches session flow →
      s.sessions.lookup session = some found → found.role = .server →
      found.pendingFlows = identity :: rest → s.flowNext ≤ handle →
      Host env s event [.attached session flow identity (some handle)]
        { s with
          sessions := s.sessions.insert session { found with pendingFlows := rest }
          flowNext := handle + 1
          flows := s.flows.insert handle (State.newFlow session (some identity) instant) }
  | datagrammed {event : Event} {session flow handle : Nat} {found : PolicySession}
      {identity : FlowIdentity} {rest : List FlowIdentity} : event.attaches session flow →
      s.sessions.lookup session = some found → found.role = .server →
      found.pendingFlows = identity :: rest → s.flowNext ≤ handle →
      Host env s event [.attached session flow identity (some handle)]
        { s with
          sessions := s.sessions.insert session { found with pendingFlows := rest }
          flowNext := handle + 1
          datagramFlows := s.datagramFlows.insert handle
            (State.newDatagramFlow session (some identity)) }
  | skipped {event : Event} {session flow next : Nat} : event.attaches session flow →
      s.flowNext ≤ next → Host env s event [] { s with flowNext := next }
  | unmetered {event : Event} {session flow handle instant : Nat} :
      event.attaches session flow → s.flowNext ≤ handle →
      Host env s event []
        { s with
          flowNext := handle + 1
          flows := s.flows.insert handle (State.newFlow session none instant) }
  | unmeteredDatagram {event : Event} {session flow handle : Nat} :
      event.attaches session flow → s.flowNext ≤ handle →
      Host env s event []
        { s with
          flowNext := handle + 1
          datagramFlows := s.datagramFlows.insert handle (State.newDatagramFlow session none) }

/-- Quiet changes one after another. -/
inductive Path (env : Env) : State → List Obs → State → Prop
  | refl (s : State) : Path env s [] s
  | step {s mid t : State} {obs rest : List Obs} : Quiet env s obs mid → Path env mid rest t →
      Path env s (obs ++ rest) t

/-- What one event does: at most one operation on a user record is started, at the very end. -/
inductive Move (env : Env) (s : State) (event : Event) : List Obs → State → Prop
  | finished {outcome : Outcome} : event = .finish outcome →
      Move env s event (finishObs s.storage outcome)
        { s with storage := s.storage.finish outcome }
  | pumped {input : PumpInput} {order : List Nat} {users : Table String UserRecord}
      {globalRate : Option TokenBucket} {userDeficit flowCursor : Table String Nat}
      {userCursor : Nat} {flows : Table Nat PolicyFlow}
      {datagramFlows : Table Nat PolicyDatagramFlow} {traffic : Table String UserTraffic} :
      event = .pump input order →
      (s.pumpFlows input).1 =
        { s with
          admin := { s.admin with users }
          globalRate, userDeficit, userCursor, flows, datagramFlows, traffic, flowCursor } →
      Move env s event ((s.pumpFlows input).2.map .pumped)
        { s with
          admin := { s.admin with users }
          globalRate, userDeficit, userCursor, flows, datagramFlows, traffic, flowCursor }
  | quiet {obs : List Obs} {t : State} : Path env s obs t → Move env s event obs t
  | loud {obs : List Obs} {mid t : State} : Path env s obs mid → Loud env event mid t →
      (∀ input bytes, event = .control input → input.entropy = some bytes →
        .drew (encodeHex bytes) ∈ obs) →
      Move env s event obs t
  | begun {input : SessionInput} {t : State} : event = .advanceSession input → Begun s t →
      Move env s event [] t
  | login {input : SessionInput} {mid t : State} : event = .advanceSession input → Login s mid →
      Path env mid [] t → Move env s event [] t
  | host {obs : List Obs} {t : State} : Host env s event obs t → Move env s event obs t

end Snolc.Policy
