import Snolc.Policy.Pump

/-! What the pump pass leaves alone: everything but counters, credit, tokens and finished flows. -/

namespace Snolc.Policy

/-- The source answers that nothing happened yet where both reports are empty. -/
theorem accounted_joined (upload download : PumpReport) :
    accounted (if upload = {} ∧ download = {} then .pending
      else .ready (.ok (upload, download))) = (upload, download) := by
  split
  · next empty => rw [empty.1, empty.2]; rfl
  · rfl

def UserRecord.SameButCounters (new old : UserRecord) : Prop :=
  ∃ uploadBytes downloadBytes, new = { old with uploadBytes, downloadBytes }

/-- Only credit that was spent and tokens differ. -/
def UserTraffic.Spent (new old : UserTraffic) : Prop :=
  ∃ creditRemaining upload download combined, creditRemaining ≤ old.quota.creditRemaining ∧
    new = { old with quota := { old.quota with creditRemaining }, upload, download, combined }

/-- A stream belongs to the same session, user and credential. -/
def PolicyFlow.SameOwner (new old : PolicyFlow) : Prop :=
  new.session = old.session ∧ new.userId = old.userId ∧
    new.credentialDigest = old.credentialDigest

def PolicyDatagramFlow.SameOwner (new old : PolicyDatagramFlow) : Prop :=
  new.session = old.session ∧ new.userId = old.userId ∧
    new.credentialDigest = old.credentialDigest

/-- Every entry of the new table goes back to one of the old table. -/
def Comes {κ α : Type} [DecidableEq κ] (related : α → α → Prop) (new old : Table κ α) : Prop :=
  ∀ key value, new.lookup key = some value →
    ∃ former, old.lookup key = some former ∧ related value former

namespace Comes

variable {κ α : Type} [DecidableEq κ] {related : α → α → Prop}

theorem refl (reflexive : ∀ value, related value value) (table : Table κ α) :
    Comes related table table :=
  fun _ value found => ⟨value, found, reflexive value⟩

theorem trans (transitive : ∀ a b c, related a b → related b c → related a c)
    {new mid old : Table κ α} (first : Comes related new mid) (second : Comes related mid old) :
    Comes related new old := by
  intro key value found
  obtain ⟨former, present, near⟩ := first key value found
  obtain ⟨oldest, there, far⟩ := second key former present
  exact ⟨oldest, there, transitive _ _ _ near far⟩

theorem insert (reflexive : ∀ value, related value value) {table : Table κ α} {key : κ}
    {value former : α} (present : table.lookup key = some former)
    (near : related value former) : Comes related (table.insert key value) table := by
  intro other found there
  rcases Table.of_lookup_insert there with ⟨rfl, rfl⟩ | ⟨_, old⟩
  · exact ⟨former, present, near⟩
  · exact ⟨found, old, reflexive found⟩

theorem retain (reflexive : ∀ value, related value value) (table : Table κ α)
    (keep : κ → α → Bool) : Comes related (table.retain keep) table :=
  fun _ value found => ⟨value, (Table.lookup_retain_eq_some.mp found).1, reflexive value⟩

end Comes

namespace UserRecord.SameButCounters

theorem refl (record : UserRecord) : record.SameButCounters record :=
  ⟨record.uploadBytes, record.downloadBytes, rfl⟩

theorem trans {a b c : UserRecord} (first : a.SameButCounters b) (second : b.SameButCounters c) :
    a.SameButCounters c := by
  obtain ⟨_, _, rfl⟩ := first
  obtain ⟨_, _, rfl⟩ := second
  exact ⟨_, _, rfl⟩

end UserRecord.SameButCounters

namespace UserTraffic.Spent

theorem refl (traffic : UserTraffic) : traffic.Spent traffic :=
  ⟨_, _, _, _, le_rfl, rfl⟩

theorem trans {a b c : UserTraffic} (first : a.Spent b) (second : b.Spent c) : a.Spent c := by
  obtain ⟨_, _, _, _, less, rfl⟩ := first
  obtain ⟨_, _, _, _, lesser, rfl⟩ := second
  exact ⟨_, _, _, _, le_trans less lesser, rfl⟩

end UserTraffic.Spent

variable (flow : PolicyFlow)

theorem PolicyFlow.SameOwner.refl : flow.SameOwner flow :=
  ⟨rfl, rfl, rfl⟩

theorem PolicyDatagramFlow.SameOwner.refl (flow : PolicyDatagramFlow) : flow.SameOwner flow :=
  ⟨rfl, rfl, rfl⟩

/-- What every part of the pump pass keeps. -/
structure Pumps (s t : State) : Prop where
  rest : ∃ users globalRate userDeficit userCursor flows datagramFlows traffic flowCursor,
    t = { s with
      admin := { s.admin with users }
      globalRate, userDeficit, userCursor, flows, datagramFlows, traffic, flowCursor }
  users : Comes UserRecord.SameButCounters t.admin.users s.admin.users
  cached : ∀ userId, (t.admin.users.lookup userId).isSome = (s.admin.users.lookup userId).isSome
  traffic : Comes UserTraffic.Spent t.traffic s.traffic
  present : ∀ userId, (t.traffic.lookup userId).isSome = (s.traffic.lookup userId).isSome
  flows : Comes PolicyFlow.SameOwner t.flows s.flows
  datagramFlows : Comes PolicyDatagramFlow.SameOwner t.datagramFlows s.datagramFlows

variable (s : State)

namespace Pumps

theorem refl : Pumps s s where
  rest := ⟨_, _, _, _, _, _, _, _, rfl⟩
  users := .refl .refl _
  cached _ := rfl
  traffic := .refl .refl _
  present _ := rfl
  flows := .refl .refl _
  datagramFlows := .refl .refl _

theorem trans {s mid t : State} (first : Pumps s mid) (second : Pumps mid t) : Pumps s t where
  rest := by
    obtain ⟨_, _, _, _, _, _, _, _, rfl⟩ := first.rest
    obtain ⟨_, _, _, _, _, _, _, _, rfl⟩ := second.rest
    exact ⟨_, _, _, _, _, _, _, _, rfl⟩
  users := second.users.trans (fun _ _ _ => .trans) first.users
  cached userId := (second.cached userId).trans (first.cached userId)
  traffic := second.traffic.trans (fun _ _ _ => .trans) first.traffic
  present userId := (second.present userId).trans (first.present userId)
  flows := second.flows.trans
    (fun _ _ _ near far => ⟨near.1.trans far.1, near.2.1.trans far.2.1, near.2.2.trans far.2.2⟩)
    first.flows
  datagramFlows := second.datagramFlows.trans
    (fun _ _ _ near far => ⟨near.1.trans far.1, near.2.1.trans far.2.1, near.2.2.trans far.2.2⟩)
    first.datagramFlows

theorem schedule (globalRate : Option TokenBucket) (userDeficit : Table String Nat)
    (userCursor : Nat) (flowCursor : Table String Nat) :
    Pumps s { s with globalRate, userDeficit, userCursor, flowCursor } :=
  { Pumps.refl s with rest := ⟨_, _, _, _, _, _, _, _, rfl⟩ }

theorem isSome_insert {α : Type} {table : Table String α} {key : String} {old : α}
    (found : table.lookup key = some old) (new : α) (other : String) :
    ((table.insert key new).lookup other).isSome = (table.lookup other).isSome := by
  rw [Table.lookup_insert_eq]
  split
  next same => rw [same, found]; rfl
  next => rfl

theorem spend {s : State} {userId : String} {old new : UserTraffic}
    (found : s.traffic.lookup userId = some old) (spent : new.Spent old) :
    Pumps s (s.setTraffic userId new) :=
  { Pumps.refl s with
    rest := ⟨_, _, _, _, _, _, _, _, rfl⟩
    traffic := .insert .refl found spent
    present := isSome_insert found new }

theorem count {s : State} {userId : String} {old new : UserRecord}
    (found : s.admin.users.lookup userId = some old) (same : new.SameButCounters old) :
    Pumps s (s.setUser userId new) :=
  { Pumps.refl s with
    rest := ⟨_, _, _, _, _, _, _, _, rfl⟩
    users := .insert .refl found same
    cached := isSome_insert found new }

theorem move {flows : Table Nat PolicyFlow} {datagramFlows : Table Nat PolicyDatagramFlow}
    (streams : Comes PolicyFlow.SameOwner flows s.flows)
    (datagrams : Comes PolicyDatagramFlow.SameOwner datagramFlows s.datagramFlows) :
    Pumps s { s with flows, datagramFlows } :=
  { Pumps.refl s with
    rest := ⟨_, _, _, _, _, _, _, _, rfl⟩
    flows := streams
    datagramFlows := datagrams }

end Pumps

theorem takeRateGrant_spent (traffic : UserTraffic) (budget nowNanos : Nat) :
    (takeRateGrant traffic budget nowNanos).1.Spent traffic := by
  have tokens (upload download combined : Option TokenBucket) :
      UserTraffic.Spent { traffic with upload, download, combined } traffic :=
    ⟨_, _, _, _, le_rfl, rfl⟩
  unfold takeRateGrant
  split
  · exact .refl traffic
  dsimp only
  repeat' split
  all_goals exact tokens _ _ _

theorem Pumps.foldl {α β : Type} (work : State × β → α → State × β)
    (each : ∀ progress item, Pumps progress.1 (work progress item).1) (items : List α)
    (start : State × β) : Pumps start.1 (items.foldl work start).1 := by
  induction items generalizing start with
  | nil => exact .refl _
  | cons item items ih => exact (each start item).trans (ih (work start item))

namespace State

theorem takeGlobal_pumps (budget nowNanos : Nat) : Pumps s (s.takeGlobal budget nowNanos).2 := by
  unfold takeGlobal
  split
  · exact .schedule s _ _ _ _
  · exact .refl s

theorem takeGlobal_traffic (budget nowNanos : Nat) :
    (s.takeGlobal budget nowNanos).2.traffic = s.traffic := by
  unfold takeGlobal
  split <;> rfl

theorem grantTurn_pumps (nowNanos totalWeight : Nat) (available : Option Nat)
    (progress : State × Table Nat RateGrant) (userId : String) :
    Pumps progress.1 (grantTurn nowNanos totalWeight available progress userId).1 := by
  obtain ⟨s, grants⟩ := progress
  unfold grantTurn
  dsimp only
  have turned : Pumps s (s.advanceCursor userId) := .schedule s _ _ _ _
  split
  · exact turned
  next traffic found =>
  split
  · exact turned
  generalize (min (min _ _) _ : Nat) = budget
  generalize saturatingAdd _ _ = deficit
  -- The global bucket pays first, then the buckets of the user, which may give some back.
  have owed : Pumps s { s.advanceCursor userId with
      userDeficit := (s.advanceCursor userId).userDeficit.insert userId deficit } :=
    turned.trans (.schedule _ _ _ _ _)
  have paid := owed.trans (takeGlobal_pumps _ budget nowNanos)
  have there := takeGlobal_traffic { s.advanceCursor userId with
    userDeficit := (s.advanceCursor userId).userDeficit.insert userId deficit } budget nowNanos
  have taken (global : Nat) := paid.trans (.spend (by rw [there]; exact found)
    (takeRateGrant_spent traffic global nowNanos))
  split
  · exact taken _
  · exact (taken _).trans (.schedule _ _ _ _ _)

theorem surveyGlobal_pumps (nowNanos : Nat) : Pumps s (s.surveyGlobal nowNanos).2 := by
  unfold surveyGlobal
  split
  · exact .refl s
  split
  · exact .refl s
  · exact .schedule s _ _ _ _

theorem grantAll_pumps (nowNanos : Nat) : Pumps s (s.grantAll nowNanos).1 := by
  have turned : Pumps s s.turnSchedule := by
    unfold turnSchedule
    split
    · exact .refl s
    · exact .schedule s _ _ _ _
  exact (turned.trans (surveyGlobal_pumps _ nowNanos)).trans (Pumps.foldl _
    (fun progress => grantTurn_pumps _ _ _ progress) _ (_, ∅))

theorem refundRate_pumps (userId : Option String) (grant : RateGrant)
    (stackToMux muxToStack : PumpReport) :
    Pumps s (s.refundRate userId grant stackToMux muxToStack) := by
  unfold refundRate
  split
  · exact .refl s
  next userId =>
  split
  · exact .refl s
  next traffic found =>
    refine (Pumps.spend found ?_).trans (.schedule _ _ _ _ _)
    exact ⟨_, _, _, _, le_rfl, rfl⟩

theorem chargeFlow_pumps (userId : Option String) (upload download : PumpReport) :
    Pumps s (s.chargeFlow userId upload download).1 := by
  unfold chargeFlow
  split
  · exact .refl s
  next userId =>
  split
  · exact .refl s
  next accepted _ =>
  split
  · exact .refl s
  next traffic found =>
  split
  · exact .refl s
  next quota charged =>
  have spent : Pumps s (s.setTraffic userId { traffic with quota }) := by
    refine .spend found ?_
    unfold QuotaAccount.charge at charged
    split at charged <;> cases charged
    exact ⟨_, _, _, _, Nat.sub_le _ _, rfl⟩
  dsimp only
  split
  · exact spent
  next user cached =>
  refine spent.trans ?_
  unfold countBytes
  split
  · exact .refl _
  dsimp only
  split <;> exact .count cached ⟨_, _, rfl⟩

theorem settleUsage_pumps (progress : State × List Nat × List PumpEvent) (usage : Usage) :
    Pumps progress.1 (settleUsage progress usage).1 :=
  (refundRate_pumps _ _ _ _ _).trans (chargeFlow_pumps _ _ _ _)

end State

namespace PolicyFlow

theorem sameOwner_held (sniff : Option TcpSniff) (prefixOffset : Nat) :
    SameOwner { flow with sniff, prefixOffset } flow :=
  ⟨rfl, rfl, rfl⟩

theorem SameOwner.trans {a b c : PolicyFlow} (first : a.SameOwner b) (second : b.SameOwner c) :
    a.SameOwner c :=
  ⟨first.1.trans second.1, first.2.1.trans second.2.1, first.2.2.trans second.2.2⟩

theorem writePrefix_sameOwner (sniff : TcpSniff) (write : WriteOutcome)
    (maxWrite : Nat) : (flow.writePrefix sniff write maxWrite).1.SameOwner flow := by
  unfold writePrefix
  dsimp only
  repeat' split
  all_goals exact flow.sameOwner_held _ _

theorem pollSniff_sameOwner (input : StreamInput) (maxWrite : Nat) :
    (flow.pollSniff input maxWrite).1.SameOwner flow := by
  unfold pollSniff
  split
  · exact flow.sameOwner_held _ _
  dsimp only
  split
  · exact flow.sameOwner_held _ _
  · exact flow.sameOwner_held _ _
  · exact (writePrefix_sameOwner _ _ _ _).trans (flow.sameOwner_held _ _)

theorem pollPumps_flow (input : StreamInput) (held : PumpReport)
    (maxStackToMux maxMuxToStack maxTotal : Nat) :
    (flow.pollPumps input held maxStackToMux maxMuxToStack maxTotal).flow = flow := by
  unfold pollPumps
  split
  · rfl
  · dsimp only
    split <;> rfl

theorem poll_sameOwner (input : StreamInput) (maxStackToMux maxMuxToStack maxTotal : Nat) :
    (flow.poll input maxStackToMux maxMuxToStack maxTotal).flow.SameOwner flow := by
  have sniffed := flow.pollSniff_sameOwner input (min maxMuxToStack maxTotal)
  unfold poll
  split
  · next same => rwa [same] at sniffed
  · next same => rwa [same] at sniffed
  next same =>
  rw [same] at sniffed
  split
  · exact sniffed
  · rwa [pollPumps_flow]

end PolicyFlow

namespace PolicyDatagramFlow

theorem SameOwner.trans {a b c : PolicyDatagramFlow} (first : a.SameOwner b)
    (second : b.SameOwner c) : a.SameOwner c :=
  ⟨first.1.trans second.1, first.2.1.trans second.2.1, first.2.2.trans second.2.2⟩

theorem pollDownload_sameOwner (flow : PolicyDatagramFlow) (input : DatagramInput)
    (allowed : Nat) : (flow.pollDownload input allowed).1.SameOwner flow := by
  unfold pollDownload
  repeat' split
  all_goals exact ⟨rfl, rfl, rfl⟩

theorem poll_sameOwner (flow : PolicyDatagramFlow) (input : DatagramInput)
    (maxStackToMux maxMuxToStack maxTotal : Nat) :
    (flow.poll input maxStackToMux maxMuxToStack maxTotal).flow.SameOwner flow := by
  unfold poll
  split
  · exact ⟨rfl, rfl, rfl⟩
  dsimp only
  generalize min maxMuxToStack _ = allowed
  have taken := flow.pollDownload_sameOwner input allowed
  split
  · next same => rwa [same] at taken
  · next same => rwa [same] at taken

end PolicyDatagramFlow

theorem sweepFlows_comes {φ : Type} {related : φ → φ → Prop}
    (reflexive : ∀ flow, related flow flow)
    (transitive : ∀ a b c, related a b → related b c → related a c) {work : Nat}
    {userOf : φ → Option String} {poll : Nat → φ → RateGrant → Polled φ PumpReport}
    (polled : ∀ handle flow grant, related (poll handle flow grant).flow flow)
    (order : List Nat) (flows : Table Nat φ) (grants : Table Nat RateGrant) :
    Comes related (sweepFlows work userOf poll order flows grants).flows flows := by
  unfold sweepFlows
  -- The invariant is about the sweep so far, whatever handles are still to be visited.
  refine List.foldlRecOn (motive := fun sweep : Sweep φ => Comes related sweep.flows flows) _ _
    (.refl reflexive flows) fun sweep comes handle _ => ?_
  unfold sweepFlow
  split
  · exact comes
  next flow found =>
  dsimp only
  split
  · exact comes
  · exact Comes.trans transitive (Comes.insert reflexive found (polled handle flow _)) comes

namespace State

theorem settleSweep_pumps {φ : Type} (sweep : Sweep φ) : Pumps s (s.settleSweep sweep).1 :=
  Pumps.foldl settleUsage settleUsage_pumps sweep.usage (s, _)

theorem pumpStreams_pumps (input : PumpInput) (grants : Table Nat RateGrant) :
    Pumps s (s.pumpStreams input grants).1 := by
  have swept : Comes PolicyFlow.SameOwner
      (sweepFlows s.options.sniffBytes PolicyFlow.userId (pollStream input) input.streamOrder
        s.flows grants).flows s.flows :=
    sweepFlows_comes .refl (fun _ _ _ => .trans)
      (fun handle flow grant => flow.poll_sameOwner (input.streams handle) grant.stackToMux
        grant.muxToStack grant.combined) input.streamOrder s.flows grants
  have moved := Pumps.move s swept (.refl .refl s.datagramFlows)
  exact (moved.trans (settleSweep_pumps _ _)).trans
    (.move _ (.retain .refl _ _) (.refl .refl _))

theorem pumpDatagrams_pumps (input : PumpInput) (grants : Table Nat RateGrant) :
    Pumps s (s.pumpDatagrams input grants).1 := by
  have swept : Comes PolicyDatagramFlow.SameOwner
      (sweepFlows maxUdpPayload PolicyDatagramFlow.userId (pollDatagram input)
        input.datagramOrder s.datagramFlows grants).flows s.datagramFlows :=
    sweepFlows_comes .refl (fun _ _ _ => .trans)
      (fun handle flow grant => flow.poll_sameOwner (input.datagrams handle) grant.stackToMux
        grant.muxToStack grant.combined) input.datagramOrder s.datagramFlows grants
  have moved := Pumps.move s (.refl .refl s.flows) swept
  exact (moved.trans (settleSweep_pumps _ _)).trans
    (.move _ (.refl .refl _) (.retain .refl _ _))

theorem pumpFlows_pumps (input : PumpInput) : Pumps s (s.pumpFlows input).1 :=
  ((s.grantAll_pumps _).trans (pumpStreams_pumps _ _ _)).trans (pumpDatagrams_pumps _ _ _)

end State

end Snolc.Policy
