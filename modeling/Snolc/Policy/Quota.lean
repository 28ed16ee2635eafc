import Snolc.Policy.Flow

/-! The quota pass of a poll: durable debits before traffic, refunds of unspent credit. -/

namespace Snolc.Policy

/-- The token bucket of a rate limit. -/
def rateBucket (rate : RateLimit) (burstBytes nowNanos : Nat) :
    Except QuotaError (Option TokenBucket) :=
  match rate with
  | .unlimited => .ok none
  | .limited bytesPerSecond => do
    let bucket ← TokenBucket.new bytesPerSecond burstBytes nowNanos
    return some bucket

def quotaLimit : ByteLimit → Option Nat
  | .unlimited => none
  | .limited bytes => some bytes

/-- Traffic of a user from the cached record: a fresh account and full buckets. -/
def newTraffic (options : Options) (user : UserRecord) (now nowNanos : Nat) :
    Except QuotaError UserTraffic := do
  let quota ← QuotaAccount.new (quotaLimit user.spec.quota) user.durableChargedBytes
    options.storage.accountingBlockBytes
  let upload ← rateBucket user.spec.uploadRate user.spec.burstBytes nowNanos
  let download ← rateBucket user.spec.downloadRate user.spec.burstBytes nowNanos
  let combined ← rateBucket user.spec.combinedRate user.spec.burstBytes nowNanos
  pure
    { quota, upload, download, combined
      debit := none
      refund := none
      failed := false
      checkpointAt := now + millis options.checkpointIntervalMs }

theorem newTraffic_ok {options : Options} {user : UserRecord} {now nowNanos : Nat}
    {traffic : UserTraffic} (ok : newTraffic options user now nowNanos = .ok traffic) :
    traffic.debit = none ∧ traffic.refund = none := by
  unfold newTraffic at ok
  obtain ⟨quota, _, ok⟩ := bind_ok ok
  obtain ⟨upload, _, ok⟩ := bind_ok ok
  obtain ⟨download, _, ok⟩ := bind_ok ok
  obtain ⟨combined, _, ok⟩ := bind_ok ok
  simp only [Pure.pure, Except.pure, Except.ok.injEq] at ok
  subst ok
  exact ⟨rfl, rfl⟩

/-- What the quota pass decides about a user: stop its flows, or forget its traffic. -/
structure Verdict where
  stop : Bool := false
  remove : Bool := false
  deriving DecidableEq, Repr

/-- A part of a user's turn either hands over to the next part or ends the turn. -/
inductive Stage
  | next (state : State)
  | done (state : State) (verdict : Verdict)

namespace Stage

/-- Continue where the turn has not ended. -/
def andThen : Stage → (State → Stage) → Stage
  | next state, rest => rest state
  | done state verdict, _ => done state verdict

/-- The state a stage leaves. -/
def state : Stage → State
  | next state => state
  | done state _ => state

/-- The verdict of a turn; running off its end decides nothing. -/
def verdict : Stage → Verdict
  | next _ => {}
  | done _ verdict => verdict

end Stage

namespace State

variable (state : State)

/-- Replace the traffic of a user. -/
def setTraffic (userId : String) (traffic : UserTraffic) : State :=
  { state with traffic := state.traffic.insert userId traffic }

/-- Replace the cached record of a user. -/
def setUser (userId : String) (user : UserRecord) : State :=
  { state with admin := { state.admin with users := state.admin.users.insert userId user } }

variable (active : Bool)

/-- Open an account for an active user that has none. -/
def openTraffic (now instant : Nat) (userId : String) : Stage :=
  if (state.traffic.lookup userId).isSome then .next state
  else if !active then .done state {}
  else
    match state.admin.users.lookup userId with
    | none => .done state { stop := true }
    | some user =>
      match newTraffic state.options user now (state.elapsedNanos instant) with
      | .error _ => .done state { stop := true }
      | .ok traffic => .next (state.setTraffic userId traffic)

/-- Traffic that failed once never moves again. -/
def checkFailed (userId : String) : Stage :=
  match state.traffic.lookup userId with
  | none => .done state { stop := true }
  | some traffic =>
    if traffic.failed then
      if active then .done state { stop := true } else .done state { remove := true }
    else .next state

/-- Turn an answered debit into credit. -/
def settleDebit (userId : String) : Stage :=
  match state.traffic.lookup userId with
  | none => .done state { stop := true }
  | some traffic =>
    match traffic.debit with
    | none => .next state
    | some pending =>
      match state.storage.tryRecv pending.reply with
      | .ok .done =>
        match traffic.quota.commitCredit pending.amount with
        | .error _ =>
          .done (state.setTraffic userId { traffic with debit := none, failed := true })
            { stop := true }
        | .ok quota =>
          .next ((state.setTraffic userId { traffic with quota, debit := none }).setUser userId
            pending.record)
      | .error .empty => .done state {}
      | _ =>
        .done
          (state.setTraffic userId
            { traffic with quota := traffic.quota.failCredit, debit := none, failed := true })
          { stop := true }

/-- Take an answered refund out of the account. -/
def settleRefund (now : Nat) (userId : String) : Stage :=
  match state.traffic.lookup userId with
  | none => .done state { stop := true }
  | some traffic =>
    match traffic.refund with
    | none => .next state
    | some pending =>
      match state.storage.tryRecv pending.reply with
      | .ok .done =>
        match traffic.quota.commitRefund pending.amount with
        | .error _ =>
          .done (state.setTraffic userId { traffic with refund := none, failed := true })
            { stop := active }
        | .ok quota =>
          let state := (state.setTraffic userId
            { traffic with
              quota
              refund := none
              checkpointAt := now + millis state.options.checkpointIntervalMs }).setUser userId
            pending.record
          if !active then .done state { remove := true } else .next state
      | .error .empty => .done state {}
      | _ =>
        .done
          (state.setTraffic userId
            { traffic with quota := traffic.quota.failRefund, refund := none, failed := true })
          { stop := active }

/-- Return unspent credit of an idle user, or of an active one at its checkpoint. -/
def requestRefund (now : Nat) (userId : String) : Stage :=
  match state.traffic.lookup userId with
  | none => .done state { stop := true }
  | some traffic =>
    let checkpointDue := active && now ≥ traffic.checkpointAt
    if active && !checkpointDue then .next state
    else
      let failed := state.setTraffic userId
        { traffic with quota := traffic.quota.failRefund, failed := true }
      match traffic.quota.requestRefund with
      | .error _ =>
        if traffic.quota.creditRemaining = 0 ∧ !active then .done state { remove := true }
        else if traffic.quota.creditRemaining = 0 then
          .done
            (state.setTraffic userId
              { traffic with
                checkpointAt := now + millis state.options.checkpointIntervalMs })
            {}
        else .done (state.setTraffic userId { traffic with failed := true }) {}
      | .ok (amount, quota) =>
        match state.admin.users.lookup userId with
        | none => .done failed {}
        | some user =>
          match checkedSub user.durableChargedBytes amount with
          | none => .done failed {}
          | some charged =>
            let record := { user with durableChargedBytes := charged }
            match state.storage.put (.user userId) (.user (encodeUserRecord record)) with
            | .error _ => .done failed {}
            | .ok (reply, storage) =>
              .done
                ({ state with storage }.setTraffic userId
                  { traffic with quota, refund := some { amount, record, reply } })
                {}

/-- Draw the next block of credit once the last one is spent. -/
def requestCredit (userId : String) : Stage :=
  match state.traffic.lookup userId with
  | none => .done state { stop := true }
  | some traffic =>
    if traffic.quota.creditRemaining ≠ 0 then .done state {}
    else
      let failed := state.setTraffic userId
        { traffic with quota := traffic.quota.failCredit, failed := true }
      match traffic.quota.requestCredit with
      | .error .exhausted => .done state { stop := true }
      | .error _ => .done (state.setTraffic userId { traffic with failed := true }) { stop := true }
      | .ok (amount, quota) =>
        match state.admin.users.lookup userId with
        | none => .done failed { stop := true }
        | some user =>
          match checkedAdd user.durableChargedBytes amount with
          | none => .done failed { stop := true }
          | some charged =>
            let record := { user with durableChargedBytes := charged }
            match state.storage.put (.user userId) (.user (encodeUserRecord record)) with
            | .error _ => .done failed { stop := true }
            | .ok (reply, storage) =>
              .done
                ({ state with storage }.setTraffic userId
                  { traffic with quota, debit := some { amount, record, reply } })
                {}

/-- The turn of one user in the quota pass. -/
def quotaTurn (now instant : Nat) (userId : String) : Stage :=
  (state.openTraffic active now instant userId).andThen fun state =>
    (state.checkFailed active userId).andThen fun state =>
      (state.settleDebit userId).andThen fun state =>
        (state.settleRefund active now userId).andThen fun state =>
          (state.requestRefund active now userId).andThen fun state =>
            state.requestCredit userId

/-- The users of the attached flows. -/
def activeUsers : List String :=
  (state.flows.values.filterMap (·.userId) ++
    state.datagramFlows.values.filterMap (·.userId)).dedup

/-- The users the quota pass visits: those with flows and those with traffic. -/
def quotaUsers : List String :=
  (state.activeUsers ++ state.traffic.keys).dedup

/-- Forget the traffic of users and their place in the schedule. -/
def removeTraffic (users : List String) : State :=
  { state with
    traffic := state.traffic.retain fun id _ => id ∉ users
    flowCursor := state.flowCursor.retain fun id _ => id ∉ users
    userDeficit := state.userDeficit.retain fun id _ => id ∉ users }

def dropFlows (users : List String) : State :=
  { state with
    flows := state.flows.retain fun _ flow => !flow.userId.any (· ∈ users)
    datagramFlows := state.datagramFlows.retain fun _ flow => !flow.userId.any (· ∈ users) }

/-- Move the clock every cached user has seen. -/
def observeUtc (utc : Nat) : State :=
  { state with
    admin := { state.admin with
      users := state.admin.users.mapValues fun _ user =>
        { user with maxObservedUtc := max user.maxObservedUtc utc } } }

/-- The cached users that status, expiration or schedule keep out. -/
def barredUsers (utc : Nat) : List String :=
  (state.admin.users.entries.filter fun entry => !userAccessAllowedAt entry.2 utc).map Sigma.fst

end State

end Snolc.Policy
