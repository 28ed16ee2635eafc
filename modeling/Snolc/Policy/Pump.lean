import Snolc.Policy.Quota

/-! The pump pass of a poll: grants per user, one poll per granted flow, refunds and charges. -/

namespace Snolc.Policy

/-- The largest payload of a datagram. -/
def maxUdpPayload : Nat := 65507

/-- The grant of a flow that has no user. -/
def RateGrant.unmetered (work : Nat) : RateGrant where
  stackToMux := work
  muxToStack := work
  combined := work
  global := work

def RateGrant.zero : RateGrant := .unmetered 0

/-- Take tokens where there is a bucket; an error leaves the bucket as it was. -/
def takeTokens (bucket : Option TokenBucket) (requested nowNanos : Nat) :
    Except QuotaError (Nat × Option TokenBucket) :=
  match bucket with
  | none => .ok (requested, none)
  | some bucket => do
    let (granted, bucket) ← bucket.take requested nowNanos
    return (granted, some bucket)

/-- Take what the rate limits of a user allow; a failure keeps the tokens already taken. -/
def takeRateGrant (traffic : UserTraffic) (budget nowNanos : Nat) :
    UserTraffic × Except QuotaError RateGrant :=
  match takeTokens traffic.combined budget nowNanos with
  | .error fault => (traffic, .error fault)
  | .ok (combined, bucket) =>
    let traffic := { traffic with combined := bucket }
    match takeTokens traffic.upload combined nowNanos with
    | .error fault => (traffic, .error fault)
    | .ok (userUpload, bucket) =>
      let traffic := { traffic with upload := bucket }
      match takeTokens traffic.download combined nowNanos with
      | .error fault => (traffic, .error fault)
      | .ok (userDownload, bucket) =>
        ({ traffic with download := bucket },
          .ok
            { stackToMux := userDownload
              muxToStack := userUpload
              combined
              global := combined })

/-- A user's part of the global tokens by weight. -/
def weightedShare (available weight totalWeight : Nat) : Nat :=
  if totalWeight = 0 then 0
  else
    let share := available * weight / totalWeight
    if share ≤ u64Max then share else u64Max

/-- The tokens a settled grant returns to each bucket. -/
def refundAmounts (grant : RateGrant) (stackToMux muxToStack : PumpReport) : RateGrant :=
  let written := saturatingAdd stackToMux.written muxToStack.written
  { stackToMux := grant.stackToMux - stackToMux.written
    muxToStack := grant.muxToStack - muxToStack.written
    combined := grant.combined - written
    global := grant.global - written }

variable (state : State)

namespace State

variable (userId : String)

/-- The weight of a user in the schedule. -/
def weightOf : Nat :=
  ((state.admin.users.lookup userId).map (·.spec.weight)).getD 1

/-- The handles of a user's flows, in order. -/
def flowsOf : List Nat :=
  (((state.flows.entries.filter fun entry => entry.2.userId = some userId).map Sigma.fst) ++
    ((state.datagramFlows.entries.filter fun entry => entry.2.userId = some userId).map
      Sigma.fst)).insertionSort (· ≤ ·)

/-- The users with flows in the order of their turns. -/
def schedule : List String :=
  let users := state.activeUsers.insertionSort (· ≤ ·)
  users.rotate (state.userCursor % users.length)

def selectFlow : Nat :=
  let flows := state.flowsOf userId
  (flows[(state.flowCursor.lookup userId).getD 0 % flows.length]?).getD 0

/-- Move on to the next flow of a user. -/
def advanceCursor : State :=
  { state with
    flowCursor := state.flowCursor.insert userId
      (wrappingAdd ((state.flowCursor.lookup userId).getD 0) 1) }

/-- Take the budget out of the global bucket; a failure grants nothing. -/
def takeGlobal (budget nowNanos : Nat) : Nat × State :=
  match takeTokens state.globalRate budget nowNanos with
  | .ok (granted, bucket) => (granted, { state with globalRate := bucket })
  | .error _ => (0, state)

/-- Grant one user's selected flow what credit, weight and rates allow. -/
def grantTurn (nowNanos totalWeight : Nat) (available : Option Nat)
    (progress : State × Table Nat RateGrant) (userId : String) : State × Table Nat RateGrant :=
  let (state, grants) := progress
  let flow := state.selectFlow userId
  let maxWork :=
    if (state.datagramFlows.lookup flow).isSome then maxUdpPayload else state.options.sniffBytes
  let state := state.advanceCursor userId
  match state.traffic.lookup userId with
  | none => (state, grants)
  | some traffic =>
    if traffic.debit.isSome ∨ traffic.refund.isSome ∨ traffic.failed then (state, grants)
    else
      let quotaBudget := min traffic.quota.creditRemaining maxWork
      let weight := state.weightOf userId
      let deficit := saturatingAdd ((state.userDeficit.lookup userId).getD 0)
        (saturatingMul maxWork weight)
      let state := { state with userDeficit := state.userDeficit.insert userId deficit }
      let weighted := match available with
        | some available => weightedShare available weight totalWeight
        | none => u64Max
      let budget := min (min quotaBudget deficit) weighted
      let (global, state) := state.takeGlobal budget nowNanos
      let (traffic, granted) := takeRateGrant traffic global nowNanos
      let state := state.setTraffic userId traffic
      match granted with
      | .error _ => (state, grants)
      | .ok grant =>
        let grant := { grant with global := grant.combined }
        ({ state with globalRate := state.globalRate.map (·.refund (global - grant.global)) },
          grants.insert flow grant)

/-- Let the next user go first in the next pass. -/
def turnSchedule : State :=
  if state.schedule.isEmpty then state
  else { state with userCursor := wrappingAdd state.userCursor 1 }

/-- Refill the global bucket and see what it holds. -/
def surveyGlobal (nowNanos : Nat) : Option Nat × State :=
  match state.globalRate with
  | none => (none, state)
  | some bucket =>
    match bucket.available nowNanos with
    | .error _ => (none, state)
    | .ok (tokens, bucket) => (some tokens, { state with globalRate := some bucket })

/-- Grants for every scheduled user. -/
def grantAll (nowNanos : Nat) : State × Table Nat RateGrant :=
  let users := state.schedule
  let totalWeight := (users.map state.weightOf).foldl saturatingAdd 0
  let (available, state) := state.turnSchedule.surveyGlobal nowNanos
  users.foldl (grantTurn nowNanos totalWeight available) (state, ∅)

/-- Return what a flow did not use of its grant. -/
def refundRate (userId : Option String) (grant : RateGrant)
    (stackToMux muxToStack : PumpReport) : State :=
  match userId with
  | none => state
  | some userId =>
    match state.traffic.lookup userId with
    | none => state
    | some traffic =>
      let amounts := refundAmounts grant stackToMux muxToStack
      let written := saturatingAdd stackToMux.written muxToStack.written
      let state := state.setTraffic userId
        { traffic with
          download := traffic.download.map (·.refund amounts.stackToMux)
          upload := traffic.upload.map (·.refund amounts.muxToStack)
          combined := traffic.combined.map (·.refund amounts.combined) }
      { state with
        globalRate := state.globalRate.map (·.refund amounts.global)
        userDeficit := match state.userDeficit.lookup userId with
          | none => state.userDeficit
          | some deficit => state.userDeficit.insert userId (deficit - written) }

/-- Count the bytes of a user; an overflow leaves what was counted before it. -/
def countBytes (user : UserRecord) (upload download : Nat) : State × Except QuotaError Unit :=
  match checkedAdd user.uploadBytes download with
  | none => (state, .error .overflow)
  | some uploaded =>
    let user := { user with uploadBytes := uploaded }
    match checkedAdd user.downloadBytes upload with
    | none => (state.setUser userId user, .error .overflow)
    | some downloaded =>
      (state.setUser userId { user with downloadBytes := downloaded }, .ok ())

/-- Spend the credit of a user for what its flow moved. -/
def chargeFlow (userId : Option String) (upload download : PumpReport) :
    State × Except QuotaError Unit :=
  match userId with
  | none => (state, .ok ())
  | some userId =>
    match checkedAdd upload.written download.written with
    | none => (state, .error .overflow)
    | some accepted =>
      match state.traffic.lookup userId with
      | none => (state, .error .state)
      | some traffic =>
        match traffic.quota.charge accepted with
        | .error fault => (state, .error fault)
        | .ok quota =>
          let state := state.setTraffic userId { traffic with quota }
          match state.admin.users.lookup userId with
          | none => (state, .error .state)
          | some user => state.countBytes userId user upload.written download.written

/-- The unspent credit of a user. -/
def credit : Nat :=
  ((state.traffic.lookup userId).map (·.quota.creditRemaining)).getD 0

end State

/-- What one polled flow leaves to be settled. -/
structure Usage where
  handle : Nat
  userId : Option String
  grant : RateGrant
  upload : PumpReport
  download : PumpReport
  deriving DecidableEq, Repr

/-- What the pump pass does that is seen from outside. -/
inductive PumpEvent
  /-- The sinks of a flow accepted bytes during its poll. -/
  | forwarded (handle : Nat) (userId : Option String) (toMux toStack : Nat)
  /-- A polled flow was settled: its grant, the tokens returned, and the credit it cost. -/
  | settled (handle : Nat) (userId : Option String) (grant refund : RateGrant) (charged : Nat)
  deriving DecidableEq, Repr

/-- What the flows and the clock answer during the pump pass, and the order of the tables. -/
structure PumpInput where
  instant : Nat
  streamOrder : List Nat
  streams : Nat → StreamInput
  datagramOrder : List Nat
  datagrams : Nat → DatagramInput

/-- Flows that were polled, what they leave to be settled, and those that are finished. -/
structure Sweep (φ : Type) where
  flows : Table Nat φ
  grants : Table Nat RateGrant
  usage : List Usage
  finished : List Nat
  events : List PumpEvent

variable (result : Poll (Except FlowError (PumpReport × PumpReport)))

/-- The reports of a poll as they are accounted: a failed or pending poll reports nothing. -/
def accounted : PumpReport × PumpReport :=
  match result with
  | .ready (.ok reports) => reports
  | _ => ({}, {})

def endsFlow : Bool :=
  match result with
  | .ready (.ok (upload, download)) => upload.finished && download.finished
  | .ready (.error _) => true
  | .pending => false

def DatagramPumpReport.toPumpReport (report : DatagramPumpReport) : PumpReport where
  read := report.received
  written := report.sent
  finished := report.finished

/-- A datagram poll in the terms of a stream poll. -/
def datagramResult (result : Poll (Except FlowError (DatagramPumpReport × DatagramPumpReport))) :
    Poll (Except FlowError (PumpReport × PumpReport)) :=
  match result with
  | .ready (.ok (upload, download)) => .ready (.ok (upload.toPumpReport, download.toPumpReport))
  | .ready (.error fault) => .ready (.error fault)
  | .pending => .pending

def flowGrant (userId : Option String) (granted : Option RateGrant) (work : Nat) : RateGrant :=
  match userId with
  | none => .unmetered work
  | some _ => granted.getD .zero

/-- Poll one flow with its grant and note what it leaves. -/
def sweepFlow {φ : Type} (work : Nat) (userOf : φ → Option String)
    (poll : Nat → φ → RateGrant → Polled φ PumpReport) (sweep : Sweep φ) (handle : Nat) :
    Sweep φ :=
  match sweep.flows.lookup handle with
  | none => sweep
  | some flow =>
    let userId := userOf flow
    let grant := flowGrant userId (sweep.grants.lookup handle) work
    let grants := if userId.isSome then sweep.grants.erase handle else sweep.grants
    if grant.combined = 0 then { sweep with grants }
    else
      let polled := poll handle flow grant
      let (upload, download) := accounted polled.result
      { flows := sweep.flows.insert handle polled.flow
        grants
        usage := sweep.usage ++ [{ handle, userId, grant, upload, download }]
        finished := if endsFlow polled.result then sweep.finished ++ [handle] else sweep.finished
        events := sweep.events ++ [.forwarded handle userId polled.toMux polled.toStack] }

/-- Poll the flows of a table in the order of an iterator. -/
def sweepFlows {φ : Type} (work : Nat) (userOf : φ → Option String)
    (poll : Nat → φ → RateGrant → Polled φ PumpReport) (order : List Nat) (flows : Table Nat φ)
    (grants : Table Nat RateGrant) : Sweep φ :=
  (Table.visit order flows.keys).foldl (sweepFlow work userOf poll)
    { flows, grants, usage := [], finished := [], events := [] }

variable (input : PumpInput)

def pollStream (handle : Nat) (flow : PolicyFlow) (grant : RateGrant) :
    Polled PolicyFlow PumpReport :=
  flow.poll (input.streams handle) grant.stackToMux grant.muxToStack grant.combined

/-- Poll a datagram flow with its grant. -/
def pollDatagram (handle : Nat) (flow : PolicyDatagramFlow)
    (grant : RateGrant) : Polled PolicyDatagramFlow PumpReport :=
  let polled := flow.poll (input.datagrams handle) grant.stackToMux grant.muxToStack grant.combined
  { flow := polled.flow
    result := datagramResult polled.result
    toMux := polled.toMux
    toStack := polled.toStack }

namespace State

/-- The tokens a polled flow returns: nothing without a user or its traffic. -/
def refunded (usage : Usage) : RateGrant :=
  match usage.userId with
  | none => .zero
  | some userId =>
    if (state.traffic.lookup userId).isSome then
      refundAmounts usage.grant usage.upload usage.download
    else .zero

/-- Settle one polled flow; a flow that cannot be charged is finished. -/
def settleUsage (progress : State × List Nat × List PumpEvent) (usage : Usage) :
    State × List Nat × List PumpEvent :=
  let (state, finished, events) := progress
  let refund := state.refunded usage
  let state := state.refundRate usage.userId usage.grant usage.upload usage.download
  let (charged, result) := state.chargeFlow usage.userId usage.upload usage.download
  let cost := match usage.userId with
    | none => 0
    | some userId => state.credit userId - charged.credit userId
  (charged,
    match result with
    | .ok () => finished
    | .error _ => finished ++ [usage.handle],
    events ++ [.settled usage.handle usage.userId usage.grant refund cost])

/-- Settle all polled flows in the order they were polled. -/
def settleSweep {φ : Type} (sweep : Sweep φ) : State × List Nat × List PumpEvent :=
  sweep.usage.foldl settleUsage (state, sweep.finished, sweep.events)

/-- Poll the streams with their grants, then settle and remove what is finished. -/
def pumpStreams (grants : Table Nat RateGrant) : State × Table Nat RateGrant × List PumpEvent :=
  let sweep := sweepFlows state.options.sniffBytes PolicyFlow.userId (pollStream input)
    input.streamOrder state.flows grants
  let (state, finished, events) := { state with flows := sweep.flows }.settleSweep sweep
  ({ state with flows := state.flows.retain fun handle _ => handle ∉ finished }, sweep.grants,
    events)

/-- Poll the datagram flows with their grants, then settle and remove what is finished. -/
def pumpDatagrams (grants : Table Nat RateGrant) : State × List PumpEvent :=
  let sweep := sweepFlows maxUdpPayload PolicyDatagramFlow.userId (pollDatagram input)
    input.datagramOrder state.datagramFlows grants
  let (state, finished, events) := { state with datagramFlows := sweep.flows }.settleSweep sweep
  ({ state with
      datagramFlows := state.datagramFlows.retain fun handle _ => handle ∉ finished },
    events)

/-- The whole pump pass. -/
def pumpFlows : State × List PumpEvent :=
  let (state, grants) := state.grantAll (state.elapsedNanos input.instant)
  let (state, grants, streamEvents) := state.pumpStreams input grants
  let (state, datagramEvents) := state.pumpDatagrams input grants
  (state, streamEvents ++ datagramEvents)

end State

end Snolc.Policy
