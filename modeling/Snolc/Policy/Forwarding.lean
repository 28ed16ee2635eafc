import Mathlib.Algebra.BigOperators.Group.List.Basic
import Mathlib.Data.List.Rotate
import Snolc.Policy.Moves
import Snolc.Policy.PumpLaws

/-! Bytes that flows forward against the credit they are charged. -/

namespace Snolc.Policy

open List

variable {handle toMux toStack maxTotal : Nat} {s : State} {userId : String} {flow : PolicyFlow}
  {grant : RateGrant} {handles : List Nat} {held : PumpReport} {input : StreamInput}

def Pumped.Moves : Pumped PumpReport → Prop
  | .report moved => moved.written ≠ 0
  | _ => False

/-- The datagram pump moves bytes. -/
def Pumped.Sends : Pumped DatagramPumpReport → Prop
  | .report moved => moved.sent ≠ 0
  | _ => False

/-- The poll of a stream can forward bytes that were held back. -/
def StreamInput.Releases (flow : PolicyFlow) (input : StreamInput) : Prop :=
  flow.sniff.isSome = true ∧ ∃ count, input.prefixWrite = .taken count ∧ count ≠ 0

/--
No part of the poll fails after an earlier part has forwarded bytes.

While held back bytes are forwarded, nothing goes the other way.
-/
structure StreamInput.Clean (flow : PolicyFlow) (input : StreamInput) : Prop where
  upload : input.upload = .failed ∨ input.upload.Moves → ¬ input.Releases flow
  download : input.download = .failed → ¬ input.upload.Moves ∧ ¬ input.Releases flow

/-- The waiting rules turn the first datagram away. -/
def DatagramInput.Refused (flow : PolicyDatagramFlow) (input : DatagramInput) : Prop :=
  ∃ policy datagram, flow.policy = some policy ∧ input.first = some datagram ∧
    observedAllowed policy (classifyUdp (datagram.take policy.maxBytes)) = false

/-- The second pump of the poll does not fail after the first one has sent bytes. -/
def DatagramInput.Clean (flow : PolicyDatagramFlow) (input : DatagramInput) : Prop :=
  input.download = .failed ∨ input.Refused flow → ¬ input.upload.Sends

section Decide

instance (outcome : Pumped PumpReport) : Decidable outcome.Moves :=
  match outcome with
  | .report moved => inferInstanceAs (Decidable (moved.written ≠ 0))
  | .failed | .pending => isFalse id

instance (outcome : Pumped DatagramPumpReport) : Decidable outcome.Sends :=
  match outcome with
  | .report moved => inferInstanceAs (Decidable (moved.sent ≠ 0))
  | .failed | .pending => isFalse id

instance (flow : PolicyFlow) (input : StreamInput) : Decidable (input.Releases flow) :=
  decidable_of_iff (flow.sniff.isSome = true ∧ (match input.prefixWrite with
      | .taken count => decide (count ≠ 0)
      | _ => false) = true) <| by
    unfold StreamInput.Releases
    cases input.prefixWrite <;> simp

instance (flow : PolicyFlow) (input : StreamInput) : Decidable (input.Clean flow) :=
  decidable_of_iff
    ((input.upload = .failed ∨ input.upload.Moves → ¬ input.Releases flow) ∧
      (input.download = .failed → ¬ input.upload.Moves ∧ ¬ input.Releases flow))
    ⟨fun ⟨upload, download⟩ => ⟨upload, download⟩, fun clean => ⟨clean.upload, clean.download⟩⟩

instance (flow : PolicyDatagramFlow) (input : DatagramInput) : Decidable (input.Refused flow) :=
  decidable_of_iff (∃ policy ∈ flow.policy, ∃ datagram ∈ input.first,
      observedAllowed policy (classifyUdp (datagram.take policy.maxBytes)) = false) <| by
    simp [DatagramInput.Refused]

instance (flow : PolicyDatagramFlow) (input : DatagramInput) : Decidable (input.Clean flow) :=
  inferInstanceAs (Decidable (input.download = .failed ∨ input.Refused flow →
    ¬ input.upload.Sends))

end Decide

/-- What is reported is what the sinks have accepted, within the grant. -/
structure Polled.Accounts {φ : Type} (polled : Polled φ PumpReport) (maxTotal : Nat) : Prop where
  upload : (accounted polled.result).1.written = polled.toMux
  download : (accounted polled.result).2.written = polled.toStack
  within : polled.toMux + polled.toStack ≤ maxTotal

variable {φ : Type}

theorem Polled.Accounts.nothing {polled : Polled φ PumpReport}
    (reported : accounted polled.result = ({}, {})) (toMux : polled.toMux = 0)
    (toStack : polled.toStack = 0) : polled.Accounts maxTotal where
  upload := by rw [reported, toMux]
  download := by rw [reported, toStack]
  within := by rw [toMux, toStack]; exact Nat.zero_le _

variable {maxWrite maxStackToMux maxMuxToStack nowNanos : Nat}

namespace PolicyFlow

theorem writePrefix_held {next : PolicyFlow} {sniff : TcpSniff} {write : WriteOutcome}
    (wrote : flow.writePrefix sniff write maxWrite = (next, .ready (.ok held))) :
    held.written ≤ maxWrite ∧
      (held.written ≠ 0 → ∃ count, write = .taken count ∧ count ≠ 0) := by
  unfold writePrefix at wrote
  split at wrote
  · split at wrote
    · cases wrote
    cases write with
    | taken count =>
      dsimp only at wrote
      split at wrote
      · cases wrote
      next some =>
      split at wrote <;>
        · cases wrote
          exact ⟨by dsimp only; omega, fun _ => ⟨count, rfl, by omega⟩⟩
    | failed | pending => cases wrote
  · cases wrote
    exact ⟨Nat.zero_le _, fun moved => absurd rfl moved⟩

theorem pollSniff_held {next : PolicyFlow}
    (polled : flow.pollSniff input maxWrite = (next, .ready (.ok held))) :
    held.written ≤ maxWrite ∧ (held.written ≠ 0 → input.Releases flow) := by
  unfold pollSniff at polled
  split at polled
  · cases polled
    exact ⟨Nat.zero_le _, fun moved => absurd rfl moved⟩
  next sniff waiting =>
    dsimp only at polled
    split at polled
    · cases polled
    · cases polled
    · obtain ⟨within, taken⟩ := writePrefix_held polled
      exact ⟨within, fun moved => ⟨by rw [waiting]; rfl, taken moved⟩⟩

theorem joined_accounts {flow : PolicyFlow} {upload moved held : PumpReport} {maxTotal : Nat}
    (fits : maxTotal ≤ u64Max)
    (total : upload.written + (moved.written + held.written) ≤ maxTotal) :
    Polled.Accounts
      { flow
        result :=
          if upload = {} ∧
              { moved with
                read := saturatingAdd moved.read held.read
                written := saturatingAdd moved.written held.written } = ({} : PumpReport) then
            .pending
          else
            .ready (.ok (upload,
              { moved with
                read := saturatingAdd moved.read held.read
                written := saturatingAdd moved.written held.written }))
        toMux := upload.written
        toStack := moved.written + held.written } maxTotal := by
  refine ⟨?_, ?_, total⟩
  · rw [accounted_joined]
  · rw [accounted_joined]
    exact saturatingAdd_eq (by omega)

/-- The pumps report what they move, as long as none fails after bytes have moved. -/
theorem pollPumps_accounts {before : PolicyFlow}
    (fits : maxTotal ≤ u64Max) (within : held.written ≤ maxTotal)
    (released : held.written ≠ 0 → input.Releases before) (clean : input.Clean before) :
    (flow.pollPumps input held maxStackToMux maxMuxToStack maxTotal).Accounts maxTotal := by
  have unheld (kept : ¬ input.Releases before) : held.written = 0 := by
    by_contra moved
    exact kept (released moved)
  unfold pollPumps
  cases uploaded : input.upload with
  | failed => exact .nothing rfl rfl (unheld (clean.upload (.inl uploaded)))
  | pending =>
    cases downloaded : input.download with
    | failed => exact .nothing rfl rfl (unheld (clean.download downloaded).2)
    | _ =>
      refine joined_accounts fits ?_
      dsimp only [pump]
      omega
  | report up =>
    -- Either nothing was held back, or nothing goes up in this poll.
    have apart : up.written = 0 ∨ held.written = 0 := by
      by_cases still : up.written = 0
      · exact .inl still
      · exact .inr (unheld (clean.upload (.inr (by rw [uploaded]; exact still))))
    cases downloaded : input.download with
    | failed =>
      obtain ⟨unmoved, kept⟩ := clean.download downloaded
      have still : up.written = 0 := by
        by_contra moved
        exact unmoved (by rw [uploaded]; exact moved)
      exact .nothing rfl (by simp [pump, still]) (unheld kept)
    | _ =>
      refine joined_accounts fits ?_
      dsimp only [pump]
      omega

theorem poll_accounts (fits : maxTotal ≤ u64Max) (clean : input.Clean flow) :
    (flow.poll input maxStackToMux maxMuxToStack maxTotal).Accounts maxTotal := by
  unfold poll
  split
  · exact .nothing rfl rfl rfl
  · exact .nothing rfl rfl rfl
  next held sniffed =>
  obtain ⟨within, released⟩ := pollSniff_held sniffed
  have total : held.written ≤ maxTotal := within.trans (min_le_right _ _)
  split
  · exact ⟨rfl, rfl, by simpa using total⟩
  · exact pollPumps_accounts fits total released clean

end PolicyFlow

namespace PolicyDatagramFlow

theorem joined_accounts {flow : PolicyDatagramFlow} {upload download : DatagramPumpReport}
    {maxTotal : Nat} (total : upload.sent + download.sent ≤ maxTotal) :
    Polled.Accounts
      { flow
        result := datagramResult
          (if upload = {} ∧ download = {} then .pending else .ready (.ok (upload, download)))
        toMux := upload.sent
        toStack := download.sent } maxTotal := by
  split
  next empty => exact .nothing rfl (by rw [empty.1]) (by rw [empty.2])
  · exact ⟨rfl, rfl, total⟩

theorem pollDownload_cases (flow : PolicyDatagramFlow) (input : DatagramInput) (allowed : Nat) :
    (∃ fault, (flow.pollDownload input allowed).2 = .ready (.error fault) ∧
        (input.download = .failed ∨ input.Refused flow)) ∨
      (flow.pollDownload input allowed).2 = .pending ∨
      ∃ moved, (flow.pollDownload input allowed).2 = .ready (.ok moved) ∧
        moved.sent ≤ allowed := by
  have pumped (limit : Nat) (less : limit ≤ allowed) :
      (∃ fault, datagramPump input.download limit = .ready (.error fault) ∧
          (input.download = .failed ∨ input.Refused flow)) ∨
        datagramPump input.download limit = .pending ∨
        ∃ moved, datagramPump input.download limit = .ready (.ok moved) ∧
          moved.sent ≤ allowed := by
    cases outcome : input.download with
    | report => exact .inr (.inr ⟨_, rfl, (min_le_right _ _).trans less⟩)
    | failed => exact .inl ⟨.io, rfl, .inl rfl⟩
    | pending => exact .inr (.inl rfl)
  unfold pollDownload
  split
  next policy datagram waiting first =>
    split
    · exact pumped allowed le_rfl
    next refused =>
      exact .inl ⟨.denied, rfl, .inr ⟨policy, datagram, waiting, first, by simpa using refused⟩⟩
  · exact pumped 0 (Nat.zero_le _)
  · exact pumped allowed le_rfl

end PolicyDatagramFlow

/-- The poll of a datagram flow reports what the sinks accept, within its grant. -/
theorem pollDatagram_accounts {input : PumpInput} {flow : PolicyDatagramFlow}
    (clean : (input.datagrams handle).Clean flow) :
    (pollDatagram input handle flow grant).Accounts grant.combined := by
  unfold pollDatagram PolicyDatagramFlow.poll
  generalize input.datagrams handle = input at clean
  have downward (allowed : Nat) := flow.pollDownload_cases input allowed
  cases uploaded : input.upload with
  | failed => exact .nothing rfl rfl rfl
  | pending =>
    dsimp only [datagramPump]
    generalize allowance : min grant.muxToStack _ = allowed
    rcases downward allowed with ⟨fault, failed, _⟩ | pending | ⟨moved, sent, within⟩
    · rw [← Prod.eta (flow.pollDownload input allowed), failed]
      exact .nothing rfl rfl rfl
    · rw [← Prod.eta (flow.pollDownload input allowed), pending]
      exact @PolicyDatagramFlow.joined_accounts _ {} {} _ (Nat.zero_le _)
    · rw [← Prod.eta (flow.pollDownload input allowed), sent]
      refine PolicyDatagramFlow.joined_accounts ?_
      dsimp only at allowance ⊢
      omega
  | report up =>
    dsimp only [datagramPump]
    generalize allowance : min grant.muxToStack _ = allowed
    rcases downward allowed with ⟨fault, failed, late⟩ | pending | ⟨moved, sent, within⟩
    · rw [← Prod.eta (flow.pollDownload input allowed), failed]
      have still : up.sent = 0 := by
        by_contra moves
        exact clean late (by rw [uploaded]; exact moves)
      exact .nothing rfl (by simp [still]) rfl
    · rw [← Prod.eta (flow.pollDownload input allowed), pending]
      refine PolicyDatagramFlow.joined_accounts ?_
      dsimp only
      omega
    · rw [← Prod.eta (flow.pollDownload input allowed), sent]
      refine PolicyDatagramFlow.joined_accounts ?_
      dsimp only at allowance ⊢
      omega

/-- A flow that is polled, with its grant. -/
structure Visit (φ : Type) where
  handle : Nat
  flow : φ
  grant : RateGrant

section Visits

variable {φ : Type} (work : Nat) (userOf : φ → Option String)
  (poll : Nat → φ → RateGrant → Polled φ PumpReport)

/-- The flows of a pass that are polled, in order. -/
def visits (flows : Table Nat φ) (grants : Table Nat RateGrant) (handles : List Nat) :
    List (Visit φ) :=
  handles.filterMap fun handle =>
    match flows.lookup handle with
    | none => none
    | some flow =>
      let grant := flowGrant (userOf flow) (grants.lookup handle) work
      if grant.combined = 0 then none else some { handle, flow, grant }

/-- What a polled flow leaves to be settled. -/
def Visit.usage (visit : Visit φ) : Usage :=
  let reports := accounted (poll visit.handle visit.flow visit.grant).result
  { handle := visit.handle
    userId := userOf visit.flow
    grant := visit.grant
    upload := reports.1
    download := reports.2 }

/-- What the sinks of a polled flow accept. -/
def Visit.forwarded (visit : Visit φ) : PumpEvent :=
  let polled := poll visit.handle visit.flow visit.grant
  .forwarded visit.handle (userOf visit.flow) polled.toMux polled.toStack

variable {work userOf poll} {flows : Table Nat φ} {grants : Table Nat RateGrant}

theorem mem_visits {visit : Visit φ} (member : visit ∈ visits work userOf flows grants handles) :
    visit.handle ∈ handles ∧ flows.lookup visit.handle = some visit.flow ∧
      visit.grant = flowGrant (userOf visit.flow) (grants.lookup visit.handle) work ∧
      visit.grant.combined ≠ 0 := by
  obtain ⟨handle, listed, chosen⟩ := mem_filterMap.mp member
  split at chosen
  · cases chosen
  next flow found =>
  dsimp only at chosen
  split at chosen
  · cases chosen
  next granted =>
    cases chosen
    exact ⟨listed, found, rfl, granted⟩

theorem visits_nodup (distinct : handles.Nodup) :
    ((visits work userOf flows grants handles).map Visit.handle).Nodup := by
  rw [visits, map_filterMap]
  refine distinct.filterMap fun first second handle here there => ?_
  have own {listed : Nat} {visit : Visit φ}
      (chosen : visit ∈ visits work userOf flows grants [listed]) : visit.handle = listed :=
    mem_singleton.mp (mem_visits chosen).1
  obtain ⟨visit, chosen, rfl⟩ := Option.mem_map.mp here
  obtain ⟨other, also, same⟩ := Option.mem_map.mp there
  have mine : visit.handle = first := own (mem_filterMap.mpr ⟨first, by simp, chosen⟩)
  have theirs : other.handle = second := own (mem_filterMap.mpr ⟨second, by simp, also⟩)
  rw [← mine, ← theirs, same]

theorem sweepFlow_others (sweep : Sweep φ) {handle other : Nat} (apart : other ≠ handle) :
    (sweepFlow work userOf poll sweep handle).flows.lookup other = sweep.flows.lookup other ∧
      (sweepFlow work userOf poll sweep handle).grants.lookup other =
        sweep.grants.lookup other := by
  unfold sweepFlow
  split
  · exact ⟨rfl, rfl⟩
  · dsimp only
    split <;> split <;> simp [apart]

/-- What a sweep leaves is what its visits leave. -/
theorem foldl_sweepFlow (distinct : handles.Nodup) {sweep : Sweep φ}
    (same : ∀ handle ∈ handles, sweep.flows.lookup handle = flows.lookup handle)
    (granted : ∀ handle ∈ handles, sweep.grants.lookup handle = grants.lookup handle) :
    (handles.foldl (sweepFlow work userOf poll) sweep).usage =
        sweep.usage ++ (visits work userOf flows grants handles).map (Visit.usage userOf poll) ∧
      (handles.foldl (sweepFlow work userOf poll) sweep).events =
        sweep.events ++
          (visits work userOf flows grants handles).map (Visit.forwarded userOf poll) := by
  -- A visit changes the tables at its own handle only, which no later visit reads.
  induction handles generalizing sweep with
  | nil => simp [visits]
  | cons handle handles ih =>
    obtain ⟨absent, rest⟩ := nodup_cons.mp distinct
    have flow := same handle (by simp)
    have grant := granted handle (by simp)
    have later {other : Nat} (member : other ∈ handles) : other ≠ handle := by
      rintro rfl
      exact absent member
    rw [foldl_cons]
    have stepped := @ih rest (sweepFlow work userOf poll sweep handle) ?_ ?_
    · rw [stepped.1, stepped.2]
      unfold sweepFlow visits
      rw [filterMap_cons, flow]
      cases found : flows.lookup handle with
      | none => simp
      | some =>
        dsimp only
        rw [grant]
        split
        · simp
        · simp [Visit.usage, Visit.forwarded]
    · intro other member
      rw [← same other (by simp [member])]
      exact (sweepFlow_others sweep (later member)).1
    · intro other member
      rw [← granted other (by simp [member])]
      exact (sweepFlow_others sweep (later member)).2

theorem foldl_sweepFlow_grants {sweep : Sweep φ}
    (left : (handles.foldl (sweepFlow work userOf poll) sweep).grants.lookup handle =
      some grant) : sweep.grants.lookup handle = some grant := by
  induction handles generalizing sweep with
  | nil => exact left
  | cons first handles ih =>
    have stepped := ih left
    by_cases own : handle = first
    · -- A visit leaves the grant of its own handle, or takes it.
      subst own
      unfold sweepFlow at stepped
      split at stepped
      · exact stepped
      · dsimp only at stepped
        split at stepped <;> split at stepped <;> simp_all
    · exact (sweepFlow_others sweep own).2 ▸ stepped

theorem sweepFlows_grants {order : List Nat}
    (left : (sweepFlows work userOf poll order flows grants).grants.lookup handle = some grant) :
    grants.lookup handle = some grant :=
  foldl_sweepFlow_grants left

def tableVisits (work : Nat) (userOf : φ → Option String) (order : List Nat)
    (flows : Table Nat φ) (grants : Table Nat RateGrant) : List (Visit φ) :=
  visits work userOf flows grants (Table.visit order flows.keys)

theorem sweepFlows_eq (order : List Nat) :
    (sweepFlows work userOf poll order flows grants).usage =
        (tableVisits work userOf order flows grants).map (Visit.usage userOf poll) ∧
      (sweepFlows work userOf poll order flows grants).events =
        (tableVisits work userOf order flows grants).map (Visit.forwarded userOf poll) := by
  have distinct : (Table.visit order flows.keys).Nodup := Table.nodup_visit (AList.keys_nodup flows)
  exact foldl_sweepFlow distinct (fun _ _ => rfl) (fun _ _ => rfl)

end Visits

def PumpEvent.forwardedOf (userId : String) : PumpEvent → Nat
  | forwarded _ owner toMux toStack => if owner = some userId then toMux + toStack else 0
  | settled _ _ _ _ _ => 0

/-- The credit of a user that an event shows to be spent. -/
def PumpEvent.chargedOf (userId : String) : PumpEvent → Nat
  | forwarded _ _ _ _ => 0
  | settled _ owner _ _ charged => if owner = some userId then charged else 0

def forwardedBytes (userId : String) (events : List PumpEvent) : Nat :=
  (events.map (·.forwardedOf userId)).sum

/-- The credit of a user that was spent. -/
def chargedBytes (userId : String) (events : List PumpEvent) : Nat :=
  (events.map (·.chargedOf userId)).sum

/-- The bytes a flow reports to have forwarded. -/
def Usage.accepted (usage : Usage) : Nat :=
  usage.upload.written + usage.download.written

/-- The bytes a flow reports to have forwarded for a user. -/
def Usage.acceptedOf (userId : String) (usage : Usage) : Nat :=
  if usage.userId = some userId then usage.accepted else 0

/-- The tokens that are returned do not include the bytes that were accepted. -/
structure RateGrant.Spares (refund grant : RateGrant) (toMux toStack : Nat) : Prop where
  stackToMux : refund.stackToMux ≤ grant.stackToMux - toMux
  muxToStack : refund.muxToStack ≤ grant.muxToStack - toStack
  combined : refund.combined ≤ grant.combined - (toMux + toStack)
  global : refund.global ≤ grant.global - (toMux + toStack)

/-- What the flows of a user forwarded, poll by poll. -/
def forwardings (userId : String) (events : List PumpEvent) : List (Nat × Nat × Nat) :=
  events.filterMap fun
    | .forwarded handle owner toMux toStack =>
      if owner = some userId then some (handle, toMux, toStack) else none
    | .settled .. => none

/-- How a polled flow of a user was settled. -/
structure Payment where
  handle : Nat
  grant : RateGrant
  refund : RateGrant
  charged : Nat

/-- How the flows of a user were settled, one after another. -/
def payments (userId : String) (events : List PumpEvent) : List Payment :=
  events.filterMap fun
    | .forwarded .. => none
    | .settled handle owner grant refund charged =>
      if owner = some userId then some ⟨handle, grant, refund, charged⟩ else none

/-- A flow is charged for what it forwarded, and gets no token back for it. -/
structure Payment.For (forwarding : Nat × Nat × Nat) (payment : Payment) : Prop where
  handle : payment.handle = forwarding.1
  charged : payment.charged = forwarding.2.1 + forwarding.2.2
  spares : payment.refund.Spares payment.grant forwarding.2.1 forwarding.2.2

/-- Every poll of a flow of the user was settled for what it forwarded, and nothing else was. -/
abbrev Paid (userId : String) (events : List PumpEvent) : Prop :=
  List.Forall₂ Payment.For (forwardings userId events) (payments userId events)

/-- A flow of the user is settled for what it reports. -/
def Settles (userId : String) (usage : Usage) (event : PumpEvent) : Prop :=
  ∃ refund charged,
    event = .settled usage.handle usage.userId usage.grant refund charged ∧
      (usage.userId = some userId → charged = usage.accepted ∧
        refund.Spares usage.grant usage.upload.written usage.download.written)

variable {usages : List Usage}

namespace State

theorem refundRate_credit (s : State) (owner : Option String) (grant : RateGrant)
    (stackToMux muxToStack : PumpReport) (userId : String) :
    (s.refundRate owner grant stackToMux muxToStack).credit userId = s.credit userId := by
  unfold refundRate
  split
  · rfl
  next owner =>
  split
  · rfl
  next traffic found =>
  simp only [credit, setTraffic, Table.lookup_insert_eq]
  split
  next same =>
    subst same
    rw [found]
    rfl
  · rfl

theorem countBytes_credit (s : State) (owner : String) (user : UserRecord)
    (upload download : Nat) (userId : String) :
    (s.countBytes owner user upload download).1.credit userId = s.credit userId := by
  unfold countBytes
  split
  · rfl
  dsimp only
  split <;> rfl

/-- A charge costs its user what was accepted, and nobody else anything. -/
theorem chargeFlow_credit {s : State} {owner : Option String} {upload download : PumpReport}
    {userId : String}
    (mine : owner = some userId → upload.written + download.written ≤ s.credit userId ∧
      upload.written + download.written ≤ u64Max) :
    (s.chargeFlow owner upload download).1.credit userId +
        (if owner = some userId then upload.written + download.written else 0) =
      s.credit userId := by
  unfold chargeFlow
  cases owner with
  | none => simp
  | some owner =>
    dsimp only
    by_cases same : owner = userId
    · subst same
      obtain ⟨afforded, fits⟩ := mine rfl
      rw [if_pos rfl]
      have sum : checkedAdd upload.written download.written =
          some (upload.written + download.written) := by
        rw [checkedAdd, if_pos fits]
      rw [sum]
      dsimp only
      cases found : s.traffic.lookup owner with
      | none =>
        have broke : s.credit owner = 0 := by simp [credit, found]
        dsimp only
        omega
      | some traffic =>
        have held : s.credit owner = traffic.quota.creditRemaining := by simp [credit, found]
        have charged : traffic.quota.charge (upload.written + download.written) =
            .ok { traffic.quota with
              creditRemaining :=
                traffic.quota.creditRemaining - (upload.written + download.written) } := by
          rw [QuotaAccount.charge, if_neg (by omega)]
        dsimp only
        rw [charged]
        dsimp only
        have left (quota : QuotaAccount) :
            (s.setTraffic owner { traffic with quota }).credit owner = quota.creditRemaining := by
          simp [credit, setTraffic]
        split
        · rw [left]
          dsimp only
          omega
        · rw [countBytes_credit, left]
          dsimp only
          omega
    · rw [if_neg (by simpa using same), Nat.add_zero]
      have other (traffic : UserTraffic) :
          (s.setTraffic owner traffic).credit userId = s.credit userId := by
        simp [credit, setTraffic, Ne.symm same]
      split
      · rfl
      split
      · rfl
      split
      · rfl
      split
      · exact other _
      · rw [countBytes_credit]
        exact other _

theorem refunded_spares {usage : Usage} (fits : usage.accepted ≤ u64Max) :
    (s.refunded usage).Spares usage.grant usage.upload.written usage.download.written := by
  have sum : saturatingAdd usage.upload.written usage.download.written =
      usage.upload.written + usage.download.written := saturatingAdd_eq fits
  unfold refunded
  split
  · exact ⟨Nat.zero_le _, Nat.zero_le _, Nat.zero_le _, Nat.zero_le _⟩
  split
  · unfold refundAmounts
    rw [sum]
    exact ⟨le_rfl, le_rfl, le_rfl, le_rfl⟩
  · exact ⟨Nat.zero_le _, Nat.zero_le _, Nat.zero_le _, Nat.zero_le _⟩

/-- Settling flows charges a user for what they report, as long as its credit lasts. -/
theorem settle_credit {s : State} {finished : List Nat} {events : List PumpEvent} {userId : String}
    (afforded : (usages.map (·.acceptedOf userId)).sum ≤ s.credit userId)
    (fits : ∀ usage ∈ usages, usage.userId = some userId → usage.accepted ≤ u64Max) :
    (usages.foldl settleUsage (s, finished, events)).1.credit userId +
        (usages.map (·.acceptedOf userId)).sum = s.credit userId ∧
      ∃ settled, (usages.foldl settleUsage (s, finished, events)).2.2 = events ++ settled ∧
        List.Forall₂ (Settles userId) usages settled := by
  induction usages generalizing s finished events with
  | nil => exact ⟨rfl, [], by simp, .nil⟩
  | cons usage usages ih =>
    rw [map_cons, sum_cons] at afforded ⊢
    have mine (own : usage.userId = some userId) :
        usage.upload.written + usage.download.written ≤ s.credit userId ∧
          usage.upload.written + usage.download.written ≤ u64Max := by
      refine ⟨?_, fits usage (by simp) own⟩
      simp only [Usage.acceptedOf, own, if_true, Usage.accepted] at afforded
      omega
    -- Tokens first, which leave the credit, then the charge.
    have paid := @chargeFlow_credit
      (s.refundRate usage.userId usage.grant usage.upload usage.download)
      usage.userId usage.upload usage.download userId (by rwa [refundRate_credit])
    rw [refundRate_credit] at paid
    have owed : usage.acceptedOf userId = if usage.userId = some userId then
        usage.upload.written + usage.download.written else 0 := rfl
    rw [← owed] at paid
    obtain ⟨left, settled, grown, pairs⟩ := @ih (settleUsage (s, finished, events) usage).1
      (settleUsage (s, finished, events) usage).2.1 (settleUsage (s, finished, events) usage).2.2
      (by simp only [settleUsage]; omega) fun other member => fits other (by simp [member])
    rw [foldl_cons]
    refine ⟨?_, ?_⟩
    · simp only [settleUsage] at left ⊢
      omega
    · refine ⟨_ :: settled, by rw [grown]; simp only [settleUsage, List.append_assoc,
        List.singleton_append]; rfl, .cons ⟨_, _, rfl, fun own => ⟨?_, ?_⟩⟩ pairs⟩
      · rw [own] at paid ⊢
        simp only [Usage.acceptedOf, own, if_true] at paid
        dsimp only
        rw [refundRate_credit]
        omega
      · exact refunded_spares (fits usage (by simp) own)

end State

variable {settled : List PumpEvent}

/-- What was forwarded for a user is the sum over its polls. -/
theorem forwardedBytes_eq (userId : String) (events : List PumpEvent) :
    forwardedBytes userId events =
      ((forwardings userId events).map fun moved => moved.2.1 + moved.2.2).sum := by
  induction events with
  | nil => rfl
  | cons event events ih =>
    rw [forwardedBytes, map_cons, sum_cons, ← forwardedBytes, ih]
    cases event with
    | forwarded _ owner =>
      by_cases own : owner = some userId <;> simp [forwardings, PumpEvent.forwardedOf, own]
    | settled => simp [forwardings, PumpEvent.forwardedOf]

/-- What a user was charged is the sum over its payments. -/
theorem chargedBytes_eq (userId : String) (events : List PumpEvent) :
    chargedBytes userId events = ((payments userId events).map Payment.charged).sum := by
  induction events with
  | nil => rfl
  | cons event events ih =>
    rw [chargedBytes, map_cons, sum_cons, ← chargedBytes, ih]
    cases event with
    | forwarded => simp [payments, PumpEvent.chargedOf]
    | settled _ owner =>
      by_cases own : owner = some userId <;> simp [payments, PumpEvent.chargedOf, own]

/-- A user whose polls are paid one by one has paid for all it forwarded. -/
theorem Paid.total {events : List PumpEvent} (paid : Paid userId events) :
    forwardedBytes userId events = chargedBytes userId events := by
  rw [forwardedBytes_eq, chargedBytes_eq]
  unfold Paid at paid
  generalize forwardings userId events = moved at paid
  generalize payments userId events = settled at paid
  induction paid with
  | nil => rfl
  | cons pair _ ih => simp [ih, pair.charged]

/-- Payments of one part of a history follow those of an earlier part. -/
theorem Paid.append {first second : List PumpEvent} (paid : Paid userId first)
    (later : Paid userId second) : Paid userId (first ++ second) := by
  rw [Paid, forwardings, payments, filterMap_append, filterMap_append]
  exact rel_append paid later

/-- No handle names both a stream and a datagram flow. -/
def State.Distinct (s : State) : Prop :=
  ∀ handle flow, s.flows.lookup handle = some flow → s.datagramFlows.lookup handle = none

theorem State.mem_flowsOf :
    handle ∈ s.flowsOf userId ↔
      (∃ flow, s.flows.lookup handle = some flow ∧ flow.userId = some userId) ∨
        ∃ flow, s.datagramFlows.lookup handle = some flow ∧ flow.userId = some userId := by
  have inTable {φ : Type} (table : Table Nat φ) (owned : φ → Prop) [DecidablePred owned] :
      handle ∈ (table.entries.filter fun entry => owned entry.2).map Sigma.fst ↔
        ∃ flow, table.lookup handle = some flow ∧ owned flow := by
    constructor
    · intro member
      obtain ⟨⟨key, flow⟩, chosen, rfl⟩ := mem_map.mp member
      obtain ⟨there, mine⟩ := mem_filter.mp chosen
      exact ⟨flow, Table.mem_entries.mpr there, by simpa using mine⟩
    · rintro ⟨flow, found, mine⟩
      exact mem_map.mpr ⟨⟨handle, flow⟩,
        mem_filter.mpr ⟨Table.mem_entries.mp found, by simpa using mine⟩, rfl⟩
  rw [State.flowsOf, (perm_insertionSort _ _).mem_iff, mem_append,
    inTable s.flows (fun flow => flow.userId = some userId),
    inTable s.datagramFlows (fun flow => flow.userId = some userId)]

theorem State.Distinct.owner (distinct : s.Distinct) {other : String}
    (first : handle ∈ s.flowsOf userId) (second : handle ∈ s.flowsOf other) : userId = other := by
  rw [State.mem_flowsOf] at first second
  rcases first with ⟨flow, found, mine⟩ | ⟨flow, found, mine⟩ <;>
    rcases second with ⟨same, there, yours⟩ | ⟨same, there, yours⟩
  · cases found.symm.trans there
    exact Option.some.inj (mine.symm.trans yours)
  · cases (distinct handle flow found).symm.trans there
  · cases (distinct handle same there).symm.trans found
  · cases found.symm.trans there
    exact Option.some.inj (mine.symm.trans yours)

theorem State.schedule_spec (s : State) :
    s.schedule.Nodup ∧ ∀ userId ∈ s.schedule, s.flowsOf userId ≠ [] := by
  have perm : s.schedule.Perm s.activeUsers :=
    (rotate_perm _ _).trans (perm_insertionSort _ _)
  refine ⟨perm.nodup_iff.mpr (nodup_dedup _), fun userId member => ?_⟩
  have active := perm.mem_iff.mp member
  rw [State.activeUsers, mem_dedup, mem_append, mem_filterMap,
    mem_filterMap] at active
  have owned : ∃ handle, handle ∈ s.flowsOf userId := by
    rcases active with ⟨flow, there, mine⟩ | ⟨flow, there, mine⟩
    · obtain ⟨handle, found⟩ := Table.mem_values.mp there
      exact ⟨handle, State.mem_flowsOf.mpr (.inl ⟨flow, found, mine⟩)⟩
    · obtain ⟨handle, found⟩ := Table.mem_values.mp there
      exact ⟨handle, State.mem_flowsOf.mpr (.inr ⟨flow, found, mine⟩)⟩
  obtain ⟨handle, there⟩ := owned
  exact ne_nil_of_mem there

theorem State.selectFlow_mem (some : s.flowsOf userId ≠ []) :
    s.selectFlow userId ∈ s.flowsOf userId := by
  have within : (s.flowCursor.lookup userId).getD 0 % (s.flowsOf userId).length <
      (s.flowsOf userId).length := Nat.mod_lt _ (length_pos_iff.mpr some)
  rw [State.selectFlow, List.getElem?_eq_getElem within]
  exact getElem_mem within

theorem takeRateGrant_quota (traffic : UserTraffic) (budget nowNanos : Nat) :
    (takeRateGrant traffic budget nowNanos).1.quota = traffic.quota := by
  unfold takeRateGrant
  split
  · rfl
  dsimp only
  split
  · rfl
  split <;> rfl

theorem takeTokens_le {bucket left : Option TokenBucket} {requested granted : Nat}
    (taken : takeTokens bucket requested nowNanos = .ok (granted, left)) : granted ≤ requested := by
  unfold takeTokens at taken
  split at taken
  · cases taken
    exact le_rfl
  next bucket =>
    obtain ⟨⟨count, rest⟩, took, done⟩ := bind_ok taken
    obtain ⟨refilled, _, last⟩ := bind_ok took
    cases done
    cases last
    exact min_le_left _ _

theorem takeRateGrant_le {traffic : UserTraffic} {budget : Nat}
    (granted : (takeRateGrant traffic budget nowNanos).2 = .ok grant) :
    grant.combined ≤ budget := by
  unfold takeRateGrant at granted
  split at granted
  · cases granted
  next combined bucket taken =>
  dsimp only at granted
  split at granted
  · cases granted
  split at granted
  · cases granted
  · cases granted
    exact takeTokens_le taken

namespace State

theorem takeGlobal_spec (s : State) (budget nowNanos : Nat) :
    (s.takeGlobal budget nowNanos).1 ≤ budget ∧
      ∃ globalRate, (s.takeGlobal budget nowNanos).2 = { s with globalRate } := by
  unfold takeGlobal
  split
  next taken => exact ⟨takeTokens_le taken, _, rfl⟩
  · exact ⟨Nat.zero_le _, _, rfl⟩

theorem weightedShare_le (available weight totalWeight : Nat) :
    weightedShare available weight totalWeight ≤ u64Max := by
  unfold weightedShare
  split
  · exact Nat.zero_le _
  dsimp only
  split <;> omega

/-- The traffic of a user neither waits for storage nor has failed. -/
def Grantable (s : State) (userId : String) : Prop :=
  ∃ traffic, s.traffic.lookup userId = some traffic ∧ Settled traffic ∧ traffic.failed = false

/-- What the turns of some users have granted so far. -/
structure Granting (s : State) (served : List String) (progress : State × Table Nat RateGrant) :
    Prop where
  flows : progress.1.flows = s.flows
  datagramFlows : progress.1.datagramFlows = s.datagramFlows
  credit (userId : String) : progress.1.credit userId = s.credit userId
  traffic : Comes UserTraffic.Spent progress.1.traffic s.traffic
  /-- A grant is for a flow of a user that had its turn, and within its credit. -/
  granted (handle : Nat) (grant : RateGrant) : progress.2.lookup handle = some grant →
    ∃ userId ∈ served, handle ∈ s.flowsOf userId ∧ s.Grantable userId ∧
      grant.combined ≤ s.credit userId ∧ grant.combined ≤ u64Max
  /-- A user has one grant. -/
  single (userId : String) (handle other : Nat) : handle ∈ s.flowsOf userId →
    other ∈ s.flowsOf userId → (progress.2.lookup handle).isSome = true →
    (progress.2.lookup other).isSome = true → handle = other

/-- The turn of a user grants one of its flows something, or nothing. -/
theorem grantTurn_cases (nowNanos totalWeight : Nat) (available : Option Nat)
    (progress : State × Table Nat RateGrant) (userId : String) :
    (grantTurn nowNanos totalWeight available progress userId).1.flows = progress.1.flows ∧
      (grantTurn nowNanos totalWeight available progress userId).1.datagramFlows =
        progress.1.datagramFlows ∧
      (∀ other, (grantTurn nowNanos totalWeight available progress userId).1.credit other =
        progress.1.credit other) ∧
      ((grantTurn nowNanos totalWeight available progress userId).2 = progress.2 ∨
        ∃ grant : RateGrant, progress.1.Grantable userId ∧
          grant.combined ≤ progress.1.credit userId ∧ grant.combined ≤ u64Max ∧
          (grantTurn nowNanos totalWeight available progress userId).2 =
            progress.2.insert (progress.1.selectFlow userId) grant) := by
  obtain ⟨s, grants⟩ := progress
  unfold grantTurn
  dsimp only
  split
  · exact ⟨rfl, rfl, fun _ => rfl, .inl rfl⟩
  next traffic found =>
  split
  · exact ⟨rfl, rfl, fun _ => rfl, .inl rfl⟩
  next free =>
  simp only [not_or, Bool.not_eq_true, Option.isSome_eq_false_iff, Option.isNone_iff_eq_none]
    at free
  generalize limited : (min (min _ _) _ : Nat) = budget
  generalize saturatingAdd _ _ = deficit
  have afforded : budget ≤ traffic.quota.creditRemaining := by
    rw [← limited]
    exact (min_le_left _ _).trans ((min_le_left _ _).trans (min_le_left _ _))
  have word : budget ≤ u64Max := by
    rw [← limited]
    refine (min_le_right _ _).trans ?_
    split
    · exact weightedShare_le _ _ _
    · exact le_rfl
  have held : s.credit userId = traffic.quota.creditRemaining := by
    have same : s.traffic.lookup userId = some traffic := found
    simp [credit, same]
  obtain ⟨paid, globalRate, same⟩ := takeGlobal_spec { s.advanceCursor userId with
    userDeficit := (s.advanceCursor userId).userDeficit.insert userId deficit } budget nowNanos
  rw [same]
  generalize State.takeGlobal _ budget nowNanos = taken at paid
  have credits (other : String) : (s.setTraffic userId
      (takeRateGrant traffic taken.1 nowNanos).1).credit other = s.credit other := by
    simp only [credit, setTraffic, Table.lookup_insert_eq]
    split
    next mine =>
      rw [mine, show s.traffic.lookup userId = some traffic from found, Option.map_some,
        Option.map_some, takeRateGrant_quota]
    · rfl
  split
  · exact ⟨rfl, rfl, credits, .inl rfl⟩
  next grant granted =>
  have within := takeRateGrant_le granted
  exact ⟨rfl, rfl, credits, .inr ⟨{ grant with global := grant.combined },
    ⟨traffic, found, ⟨free.1, free.2.1⟩, free.2.2⟩, by dsimp only; omega,
    by dsimp only; omega, rfl⟩⟩

variable {progress : State × Table Nat RateGrant} {served : List String}

theorem Granting.ungranted (distinct : s.Distinct) (granting : Granting s served progress)
    (unserved : userId ∉ served) (mine : handle ∈ s.flowsOf userId) :
    progress.2.lookup handle = none := by
  cases found : progress.2.lookup handle with
  | none => rfl
  | some grant =>
    -- Whoever has a grant was served before, and the flow has one user only.
    obtain ⟨owner, member, theirs, _⟩ := granting.granted handle grant found
    exact absurd (distinct.owner mine theirs ▸ member) unserved

/-- The turn of a user grants one of its flows something. -/
theorem Granting.turn (distinct : s.Distinct) (granting : Granting s served progress)
    (unserved : userId ∉ served) (some : s.flowsOf userId ≠ []) (nowNanos totalWeight : Nat)
    (available : Option Nat) :
    Granting s (userId :: served) (grantTurn nowNanos totalWeight available progress userId) := by
  obtain ⟨flows, datagrams, credits, outcome⟩ :=
    grantTurn_cases nowNanos totalWeight available progress userId
  have kept (handle : Nat) (grant : RateGrant) (found : progress.2.lookup handle = .some grant) :
      ∃ owner ∈ userId :: served, handle ∈ s.flowsOf owner ∧ s.Grantable owner ∧
        grant.combined ≤ s.credit owner ∧ grant.combined ≤ u64Max := by
    obtain ⟨owner, member, rest⟩ := granting.granted handle grant found
    exact ⟨owner, mem_cons_of_mem _ member, rest⟩
  have owned : progress.1.selectFlow userId ∈ s.flowsOf userId := by
    have same : progress.1.flowsOf userId = s.flowsOf userId := by
      rw [flowsOf, flowsOf, granting.flows, granting.datagramFlows]
    rw [← same] at some ⊢
    exact selectFlow_mem some
  have ungranted (handle : Nat) (mine : handle ∈ s.flowsOf userId) :=
    granting.ungranted distinct unserved mine
  have spent := (grantTurn_pumps nowNanos totalWeight available progress userId).traffic
  refine ⟨flows.trans granting.flows, datagrams.trans granting.datagramFlows,
    fun other => (credits other).trans (granting.credit other),
    spent.trans (fun _ _ _ => .trans) granting.traffic, ?_, ?_⟩
  · intro handle grant found
    rcases outcome with same | ⟨new, grantable, afforded, word, grown⟩
    · exact kept handle grant (same ▸ found)
    rw [grown] at found
    rcases Table.of_lookup_insert found with ⟨rfl, rfl⟩ | ⟨_, old⟩
    · obtain ⟨traffic, present, settled, healthy⟩ := grantable
      obtain ⟨old, there, _, _, _, _, _, rfl⟩ := granting.traffic userId traffic present
      exact ⟨userId, by simp, owned, ⟨old, there, settled, healthy⟩,
        granting.credit userId ▸ afforded, word⟩
    · exact kept handle grant old
  · intro owner handle other first second here there
    rcases outcome with same | ⟨new, _, _, _, grown⟩
    · rw [same] at here there
      exact granting.single owner handle other first second here there
    · rw [grown, Table.lookup_insert_eq] at here there
      split at here <;> split at there
      next left right => rw [left, right]
      next left right =>
        subst left
        rw [← distinct.owner owned first] at second
        simp [ungranted other second] at there
      next left right =>
        subst right
        rw [← distinct.owner owned second] at first
        simp [ungranted handle first] at here
      · exact granting.single owner handle other first second here there

theorem grantAll_granting (distinct : s.Distinct) (nowNanos : Nat) :
    ∃ served, Granting s served (s.grantAll nowNanos) := by
  unfold grantAll
  dsimp only
  generalize (List.map _ _).foldl saturatingAdd 0 = totalWeight
  have begun : Granting s [] ((s.turnSchedule.surveyGlobal nowNanos).2, ∅) := by
    have same : ∃ globalRate userCursor, (s.turnSchedule.surveyGlobal nowNanos).2 =
        { s with globalRate, userCursor } := by
      have turned : ∃ userCursor, s.turnSchedule = { s with userCursor } := by
        unfold turnSchedule
        split <;> exact ⟨_, rfl⟩
      obtain ⟨userCursor, turned⟩ := turned
      rw [turned]
      unfold surveyGlobal
      repeat' split
      all_goals exact ⟨_, _, rfl⟩
    obtain ⟨globalRate, userCursor, same⟩ := same
    rw [same]
    exact ⟨rfl, rfl, fun _ => rfl, .refl .refl _, by simp, by simp⟩
  obtain ⟨once, active⟩ := s.schedule_spec
  generalize (s.turnSchedule.surveyGlobal nowNanos).1 = available
  generalize ((s.turnSchedule.surveyGlobal nowNanos).2, (∅ : Table Nat RateGrant)) = start
    at begun
  exact ⟨_, foldl_served once begun fun served progress userId member unserved granting =>
    granting.turn distinct unserved (active userId member) nowNanos totalWeight available⟩

end State

theorem sum_le_of_single {α κ : Type} {items : List α} {key : α → κ} {weight : α → Nat}
    {bound : Nat} (distinct : (items.map key).Nodup)
    (single : ∀ x ∈ items, ∀ y ∈ items, weight x ≠ 0 → weight y ≠ 0 → key x = key y)
    (each : ∀ x ∈ items, weight x ≤ bound) : (items.map weight).sum ≤ bound := by
  induction items with
  | nil => exact Nat.zero_le _
  | cons item items ih =>
    rw [map_cons, nodup_cons] at distinct
    rw [map_cons, sum_cons]
    by_cases light : weight item = 0
    · rw [light, Nat.zero_add]
      exact ih distinct.2
        (fun x first y second => single x (by simp [first]) y (by simp [second]))
        fun x member => each x (by simp [member])
    · have rest : (items.map weight).sum = 0 := by
        refine sum_eq_zero fun total member => ?_
        obtain ⟨other, there, rfl⟩ := mem_map.mp member
        by_contra heavy
        have same := single item (by simp) other (by simp [there]) light heavy
        exact distinct.1 (same ▸ mem_map_of_mem there)
      rw [rest, Nat.add_zero]
      exact each item (by simp)

/-- The answers of a pump pass let no flow of a user fail after it has forwarded bytes. -/
structure PumpInput.Clean (input : PumpInput) (userId : String) (s : State) : Prop where
  streams (handle : Nat) (flow : PolicyFlow) : s.flows.lookup handle = some flow →
    flow.userId = some userId → (input.streams handle).Clean flow
  datagrams (handle : Nat) (flow : PolicyDatagramFlow) :
    s.datagramFlows.lookup handle = some flow → flow.userId = some userId →
      (input.datagrams handle).Clean flow

instance (input : PumpInput) (userId : String) (s : State) : Decidable (input.Clean userId s) :=
  decidable_of_iff
    (Table.All (fun handle (flow : PolicyFlow) => flow.userId = some userId →
        (input.streams handle).Clean flow) s.flows ∧
      Table.All (fun handle (flow : PolicyDatagramFlow) => flow.userId = some userId →
        (input.datagrams handle).Clean flow) s.datagramFlows)
    ⟨fun ⟨streams, datagrams⟩ => ⟨streams, datagrams⟩,
      fun clean => ⟨clean.streams, clean.datagrams⟩⟩

/-- A flow of the user reports no more than its grant, which is one of the pass. -/
structure Entitled (s : State) (userId : String) (grants : Table Nat RateGrant) (usage : Usage) :
    Prop where
  owned : usage.handle ∈ s.flowsOf userId
  granted : grants.lookup usage.handle = some usage.grant
  within : usage.accepted ≤ usage.grant.combined

/-- A polled flow of the user accounts for its grant, which is one of the pass. -/
structure Visit.Entitled (s : State) (userId : String) (grants : Table Nat RateGrant)
    (poll : Nat → φ → RateGrant → Polled φ PumpReport) (visit : Visit φ) : Prop where
  owned : visit.handle ∈ s.flowsOf userId
  granted : grants.lookup visit.handle = some visit.grant
  accounts : (poll visit.handle visit.flow visit.grant).Accounts visit.grant.combined

section Visits

variable {φ : Type} {work : Nat} {userOf : φ → Option String} {order : List Nat}
  {poll : Nat → φ → RateGrant → Polled φ PumpReport} {flows : Table Nat φ}
  {grants : Table Nat RateGrant} {userId : String}

theorem granted_of_visit {visit : Visit φ}
    (member : visit ∈ tableVisits work userOf order flows grants)
    (own : userOf visit.flow = some userId) : grants.lookup visit.handle = some visit.grant := by
  obtain ⟨_, _, grant, some⟩ := mem_visits member
  rw [own] at grant
  cases found : grants.lookup visit.handle with
  | none => exact absurd (by rw [grant, found]; rfl) some
  | some => rw [grant, found]; rfl

theorem Visit.Entitled.usage {visit : Visit φ} (entitled : visit.Entitled s userId grants poll) :
    Snolc.Policy.Entitled s userId grants (visit.usage userOf poll) where
  owned := entitled.owned
  granted := entitled.granted
  within := by
    obtain ⟨upload, download, within⟩ := entitled.accounts
    simpa only [Usage.accepted, Visit.usage, upload, download] using within

/-- Each visit leaves a forwarding, and its settlement pays for that one. -/
theorem Settles.paid {polled : List (Visit φ)} {settled : List PumpEvent}
    (accounts : ∀ visit ∈ polled, userOf visit.flow = some userId →
      (poll visit.handle visit.flow visit.grant).Accounts visit.grant.combined)
    (pairs : List.Forall₂ (Settles userId) (polled.map (Visit.usage userOf poll)) settled) :
    forwardings userId settled = [] ∧ List.Forall₂ Payment.For
      (forwardings userId (polled.map (Visit.forwarded userOf poll)))
      (payments userId settled) := by
  -- By induction on the visits, each of which has one settlement.
  induction polled generalizing settled with
  | nil =>
    cases pairs
    exact ⟨rfl, .nil⟩
  | cons visit polled ih =>
    obtain _ | ⟨⟨refund, charged, rfl, mine⟩, pairs⟩ := pairs
    obtain ⟨still, paid⟩ := ih (fun visit member => accounts visit (by simp [member])) pairs
    refine ⟨still, ?_⟩
    by_cases own : userOf visit.flow = some userId
    · obtain ⟨upload, download, _⟩ := accounts visit (by simp) own
      obtain ⟨cost, spares⟩ := mine own
      simp only [Visit.usage, Usage.accepted, upload, download] at cost spares
      simpa [forwardings, payments, Visit.forwarded, Visit.usage, own] using
        And.intro ⟨rfl, cost, spares⟩ paid
    · simpa [forwardings, payments, Visit.forwarded, Visit.usage, own] using paid

theorem payments_visits (polled : List (Visit φ)) :
    payments userId (polled.map (Visit.forwarded userOf poll)) = [] := by
  rw [payments, filterMap_map, filterMap_eq_nil_iff]
  exact fun _ _ => rfl

end Visits

namespace State

theorem settleUsage_datagramFlows (progress : State × List Nat × List PumpEvent)
    (usage : Usage) : (settleUsage progress usage).1.datagramFlows = progress.1.datagramFlows := by
  have refunds (s : State) (owner : Option String) (grant : RateGrant) (up down : PumpReport) :
      (s.refundRate owner grant up down).datagramFlows = s.datagramFlows := by
    unfold refundRate
    repeat' split
    all_goals rfl
  have charges (s : State) (owner : Option String) (up down : PumpReport) :
      (s.chargeFlow owner up down).1.datagramFlows = s.datagramFlows := by
    unfold chargeFlow countBytes
    repeat' first | rfl | split | dsimp only
  exact (charges _ _ _ _).trans (refunds _ _ _ _ _)

theorem settleSweep_datagramFlows (s : State) (sweep : Sweep φ) :
    (s.settleSweep sweep).1.datagramFlows = s.datagramFlows := by
  unfold settleSweep
  suffices ∀ (usages : List Usage) (progress : State × List Nat × List PumpEvent),
      (usages.foldl settleUsage progress).1.datagramFlows = progress.1.datagramFlows from this _ _
  intro usages
  induction usages with
  | nil => exact fun _ => rfl
  | cons usage usages ih =>
    exact fun progress => (ih _).trans (settleUsage_datagramFlows progress usage)

end State

section Pass

variable {s : State} {input : PumpInput} {userId : String}

/-- The grants of a pump pass. -/
def State.grants (s : State) (input : PumpInput) : State × Table Nat RateGrant :=
  s.grantAll (s.elapsedNanos input.instant)

/-- The streams a pump pass polls. -/
def State.streamVisits (s : State) (input : PumpInput) : List (Visit PolicyFlow) :=
  tableVisits (s.grants input).1.options.sniffBytes PolicyFlow.userId input.streamOrder
    (s.grants input).1.flows (s.grants input).2

/-- The grants the streams leave to the datagram flows. -/
def State.leftGrants (s : State) (input : PumpInput) : Table Nat RateGrant :=
  (sweepFlows (s.grants input).1.options.sniffBytes PolicyFlow.userId (pollStream input)
    input.streamOrder (s.grants input).1.flows (s.grants input).2).grants

/-- The datagram flows a pump pass polls. -/
def State.datagramVisits (s : State) (input : PumpInput) : List (Visit PolicyDatagramFlow) :=
  tableVisits maxUdpPayload PolicyDatagramFlow.userId input.datagramOrder
    (s.grants input).1.datagramFlows (s.leftGrants input)

/-- A pass after its streams. -/
def State.streamed (s : State) (input : PumpInput) : State × Table Nat RateGrant × List PumpEvent :=
  (s.grants input).1.pumpStreams input (s.grants input).2

/-- What the streams of a pass leave to be settled. -/
def State.streamUsage (s : State) (input : PumpInput) : List Usage :=
  (s.streamVisits input).map (Visit.usage PolicyFlow.userId (pollStream input))

/-- What the datagram flows of a pass leave to be settled. -/
def State.datagramUsage (s : State) (input : PumpInput) : List Usage :=
  (s.datagramVisits input).map (Visit.usage PolicyDatagramFlow.userId (pollDatagram input))

theorem State.entitled (distinct : s.Distinct) (clean : input.Clean userId s) :
    (∀ visit ∈ s.streamVisits input, visit.flow.userId = some userId →
      visit.Entitled s userId (s.grants input).2 (pollStream input)) ∧
    ∀ visit ∈ s.datagramVisits input, visit.flow.userId = some userId →
      visit.Entitled s userId (s.grants input).2 (pollDatagram input) := by
  obtain ⟨served, granting⟩ := State.grantAll_granting distinct (s.elapsedNanos input.instant)
  constructor
  · intro visit member own
    obtain ⟨_, found, _⟩ := mem_visits member
    rw [State.grants, granting.flows] at found
    have granted := granted_of_visit member own
    obtain ⟨_, _, _, _, _, word⟩ := granting.granted _ _ granted
    exact ⟨State.mem_flowsOf.mpr (.inl ⟨_, found, own⟩), granted,
      PolicyFlow.poll_accounts word (clean.streams _ _ found own)⟩
  · intro visit member own
    obtain ⟨_, found, _⟩ := mem_visits member
    rw [State.grants, granting.datagramFlows] at found
    exact ⟨State.mem_flowsOf.mpr (.inr ⟨_, found, own⟩),
      sweepFlows_grants (granted_of_visit member own),
      pollDatagram_accounts (clean.datagrams _ _ found own)⟩

/-- The flows of a user report no more in a pass than the user has credit for. -/
theorem State.usage_afforded (distinct : s.Distinct) (clean : input.Clean userId s) :
    ((s.streamUsage input).map (·.acceptedOf userId)).sum +
        ((s.datagramUsage input).map (·.acceptedOf userId)).sum ≤ s.credit userId ∧
      (∀ usage ∈ s.streamUsage input, usage.userId = some userId → usage.accepted ≤ u64Max) ∧
      ∀ usage ∈ s.datagramUsage input, usage.userId = some userId → usage.accepted ≤ u64Max := by
  obtain ⟨served, granting⟩ := State.grantAll_granting distinct (s.elapsedNanos input.instant)
  obtain ⟨streams, datagrams⟩ := State.entitled distinct clean
  -- Each flow of the user that is polled has a grant within the credit.
  have limited {handle : Nat} {grant : RateGrant} (mine : handle ∈ s.flowsOf userId)
      (granted : (s.grants input).2.lookup handle = some grant) :
      grant.combined ≤ s.credit userId ∧ grant.combined ≤ u64Max := by
    obtain ⟨owner, _, theirs, _, afforded, word⟩ := granting.granted handle grant granted
    rw [← distinct.owner mine theirs] at afforded
    exact ⟨afforded, word⟩
  have each : ∀ usage ∈ s.streamUsage input ++ s.datagramUsage input,
      usage.userId = some userId → Entitled s userId (s.grants input).2 usage := by
    intro usage member own
    rcases mem_append.mp member with stream | datagram
    · obtain ⟨visit, polled, rfl⟩ := mem_map.mp stream
      exact (streams visit polled own).usage
    · obtain ⟨visit, polled, rfl⟩ := mem_map.mp datagram
      exact (datagrams visit polled own).usage
  have word : ∀ usage ∈ s.streamUsage input ++ s.datagramUsage input,
      usage.userId = some userId → usage.accepted ≤ u64Max := by
    intro usage member own
    obtain ⟨mine, granted, within⟩ := each usage member own
    exact within.trans (limited mine granted).2
  refine ⟨?_, fun usage member => word usage (by simp [member]),
    fun usage member => word usage (by simp [member])⟩
  rw [← sum_append, ← map_append]
  have heavy {usage : Usage} (weight : usage.acceptedOf userId ≠ 0) :
      usage.userId = some userId := by
    by_contra other
    exact weight (by rw [Usage.acceptedOf, if_neg other])
  refine @sum_le_of_single _ Nat _ Usage.handle _ _ ?_ ?_ ?_
  · rw [map_append, nodup_append']
    have once {φ : Type} {userOf : φ → Option String}
        {poll : Nat → φ → RateGrant → Polled φ PumpReport} {work : Nat} {order : List Nat}
        {flows : Table Nat φ} {grants : Table Nat RateGrant} :
        (((tableVisits work userOf order flows grants).map (Visit.usage userOf poll)).map
          Usage.handle).Nodup := by
      rw [map_map]
      exact visits_nodup (Table.nodup_visit (AList.keys_nodup flows))
    refine ⟨once, once, fun handle first second => ?_⟩
    obtain ⟨_, stream, rfl⟩ := mem_map.mp first
    obtain ⟨_, datagram, same⟩ := mem_map.mp second
    obtain ⟨visit, polled, rfl⟩ := mem_map.mp stream
    obtain ⟨other, also, rfl⟩ := mem_map.mp datagram
    obtain ⟨_, found, _⟩ := mem_visits polled
    obtain ⟨_, there, _⟩ := mem_visits also
    rw [State.grants, granting.flows] at found
    rw [State.grants, granting.datagramFlows] at there
    rw [show other.handle = visit.handle from same, distinct _ _ found] at there
    simp at there
  · intro first member second other some more
    have left := each first member (heavy some)
    have right := each second other (heavy more)
    exact granting.single userId _ _ left.owned right.owned
      (Option.isSome_iff_exists.mpr ⟨_, left.granted⟩)
      (Option.isSome_iff_exists.mpr ⟨_, right.granted⟩)
  · intro usage member
    rw [Usage.acceptedOf]
    split
    next own =>
      obtain ⟨mine, granted, within⟩ := each usage member own
      exact within.trans (limited mine granted).1
    · exact Nat.zero_le _

/-- Visits that were settled: what the user paid, and what was seen. -/
structure Settlement {φ : Type} (userId : String) (userOf : φ → Option String)
    (poll : Nat → φ → RateGrant → Polled φ PumpReport) (polled : List (Visit φ)) (s t : State)
    (events : List PumpEvent) : Prop where
  credit : t.credit userId +
    ((polled.map (Visit.usage userOf poll)).map (·.acceptedOf userId)).sum = s.credit userId
  events : ∃ settled, events = polled.map (Visit.forwarded userOf poll) ++ settled ∧
    List.Forall₂ (Settles userId) (polled.map (Visit.usage userOf poll)) settled

variable {grants : Table Nat RateGrant}
  {poll : Nat → φ → RateGrant → Polled φ PumpReport} {userOf : φ → Option String}

/-- What a sweep leaves is settled, as long as the credit of the user lasts. -/
theorem State.settleSweep_settlement {sweep : Sweep φ} {polled : List (Visit φ)}
    (usage : sweep.usage = polled.map (Visit.usage userOf poll))
    (forwarded : sweep.events = polled.map (Visit.forwarded userOf poll))
    (afforded : ((polled.map (Visit.usage userOf poll)).map (·.acceptedOf userId)).sum ≤
      s.credit userId)
    (fits : ∀ usage ∈ polled.map (Visit.usage userOf poll),
      usage.userId = some userId → usage.accepted ≤ u64Max) :
    Settlement userId userOf poll polled s (s.settleSweep sweep).1 (s.settleSweep sweep).2.2 := by
  rw [← usage] at afforded fits
  obtain ⟨spent, settled, events, pairs⟩ := @State.settle_credit sweep.usage s sweep.finished
    sweep.events userId afforded fits
  rw [usage] at spent pairs
  exact ⟨usage ▸ spent, settled, forwarded ▸ events, pairs⟩

/-- A part of a pass is paid for poll by poll. -/
theorem Settlement.paid {polled : List (Visit φ)} {t : State}
    {events : List PumpEvent} (settlement : Settlement userId userOf poll polled s t events)
    (accounts : ∀ visit ∈ polled, userOf visit.flow = some userId →
      (poll visit.handle visit.flow visit.grant).Accounts visit.grant.combined) :
    Paid userId events := by
  obtain ⟨_, settled, rfl, pairs⟩ := settlement
  obtain ⟨still, paid⟩ := Settles.paid accounts pairs
  -- Nothing is forwarded while flows are settled, and nothing paid while they are polled.
  rw [Paid, forwardings, payments, filterMap_append, filterMap_append]
  rw [← forwardings, ← forwardings, ← payments, ← payments, still, payments_visits,
    append_nil, nil_append]
  exact paid

/-- A pump pass charges a user for what its flows forward, and for nothing else. -/
theorem State.pumpFlows_paid (distinct : s.Distinct) (clean : input.Clean userId s) :
    Paid userId (s.pumpFlows input).2 := by
  obtain ⟨served, granting⟩ := State.grantAll_granting distinct (s.elapsedNanos input.instant)
  obtain ⟨afforded, streamWords, datagramWords⟩ := State.usage_afforded distinct clean
  obtain ⟨streams, datagrams⟩ := State.entitled distinct clean
  have credit : (s.grants input).1.credit userId = s.credit userId := granting.credit userId
  have first : Settlement userId PolicyFlow.userId (pollStream input) (s.streamVisits input)
      (s.grants input).1 (s.streamed input).1 (s.streamed input).2.2 := by
    obtain ⟨spent, settled⟩ := @State.settleSweep_settlement _
      { (s.grants input).1 with flows := (sweepFlows _ _ _ _ _ _).flows } userId _ _ _ _
      (sweepFlows_eq _).1 (sweepFlows_eq _).2
      ((Nat.le_add_right _ _).trans (afforded.trans credit.ge)) streamWords
    exact ⟨spent, settled⟩
  have spent := first.credit
  -- The streams leave the datagram flows, so those are visited that were there before.
  have kept : (s.streamed input).1.datagramFlows = (s.grants input).1.datagramFlows :=
    State.settleSweep_datagramFlows _ _
  have second : Settlement userId PolicyDatagramFlow.userId (pollDatagram input)
      (s.datagramVisits input) (s.streamed input).1
      ((s.streamed input).1.pumpDatagrams input (s.leftGrants input)).1
      ((s.streamed input).1.pumpDatagrams input (s.leftGrants input)).2 := by
    have left : ((s.datagramUsage input).map (·.acceptedOf userId)).sum ≤
        (s.streamed input).1.credit userId := by
      rw [State.streamUsage] at afforded
      omega
    rw [State.datagramUsage, State.datagramVisits, ← kept] at left datagramWords
    rw [State.datagramVisits, ← kept]
    obtain ⟨spent, settled⟩ := @State.settleSweep_settlement _
      { (s.streamed input).1 with datagramFlows := (sweepFlows _ _ _ _ _ _).flows } userId _ _ _ _
      (sweepFlows_eq _).1 (sweepFlows_eq _).2 left datagramWords
    exact ⟨spent, settled⟩
  have paid := first.paid fun visit member own => (streams visit member own).accounts
  exact paid.append (second.paid fun visit member own => (datagrams visit member own).accounts)

variable {owner : Option String}

theorem State.settleUsage_events (usages : List Usage)
    (progress : State × List Nat × List PumpEvent) (moved : .forwarded handle owner toMux toStack ∈
      (usages.foldl State.settleUsage progress).2.2) :
    .forwarded handle owner toMux toStack ∈ progress.2.2 := by
  induction usages generalizing progress with
  | nil => exact moved
  | cons usage usages ih => simpa [State.settleUsage] using ih _ moved

theorem sweepFlows_forwarded {work : Nat} {order : List Nat} {flows : Table Nat φ}
    (moved : .forwarded handle owner toMux toStack ∈
      (sweepFlows work userOf poll order flows grants).events) :
    ∃ flow, flows.lookup handle = some flow ∧ userOf flow = owner := by
  rw [(sweepFlows_eq order).2] at moved
  obtain ⟨visit, member, same⟩ := mem_map.mp moved
  simp only [Visit.forwarded, PumpEvent.forwarded.injEq] at same
  obtain ⟨rfl, rfl, _⟩ := same
  obtain ⟨_, found, _⟩ := mem_visits member
  exact ⟨visit.flow, found, rfl⟩

theorem State.pumpFlows_forwarded
    (moved : .forwarded handle owner toMux toStack ∈ (s.pumpFlows input).2) :
    (∃ flow, s.flows.lookup handle = some flow ∧ flow.userId = owner) ∨
      ∃ flow, s.datagramFlows.lookup handle = some flow ∧ flow.userId = owner := by
  have granted := s.grantAll_pumps (s.elapsedNanos input.instant)
  have streamed := granted.trans (State.pumpStreams_pumps _ input
    (s.grantAll (s.elapsedNanos input.instant)).2)
  rcases mem_append.mp moved with stream | datagram
  · obtain ⟨flow, found, same⟩ := sweepFlows_forwarded (State.settleUsage_events _ _ stream)
    obtain ⟨former, there, _, owned, _⟩ := granted.flows _ _ found
    exact .inl ⟨former, there, owned ▸ same⟩
  · obtain ⟨flow, found, same⟩ :=
      sweepFlows_forwarded (State.settleUsage_events _ _ datagram)
    obtain ⟨former, there, _, owned, _⟩ := streamed.datagramFlows _ _ found
    exact .inr ⟨former, there, owned ▸ same⟩

end Pass

end Snolc.Policy
