import Snolc.Policy.Calls
import Snolc.Policy.Forwarding
import Snolc.Policy.Tickets

/-! The flows of an instance: where they come from, how they end, and what they forward. -/

namespace Snolc.Policy

/-- Flows that end, with the counters as they were. -/
structure FewerFlows (s t : State) : Prop where
  streams : Table.Sub t.flows s.flows
  datagrams : Table.Sub t.datagramFlows s.datagramFlows
  flowNext : t.flowNext = s.flowNext
  sessionNext : t.sessionNext = s.sessionNext

namespace FewerFlows

theorem refl (s : State) : FewerFlows s s :=
  ⟨.refl _, .refl _, rfl, rfl⟩

theorem trans {s mid t : State} (first : FewerFlows s mid) (second : FewerFlows mid t) :
    FewerFlows s t :=
  ⟨second.streams.trans first.streams, second.datagrams.trans first.datagrams,
    second.flowNext.trans first.flowNext, second.sessionNext.trans first.sessionNext⟩

end FewerFlows

variable {event : Event}

section Fewer

variable {env : Env} {s t : State} {obs : List Obs}

theorem Quiet.fewerFlows (change : Quiet env s obs t) : FewerFlows s t := by
  cases change with
  | acknowledged _ _ _ _ _ _ _ applied =>
    exact ⟨applied.flows, applied.datagramFlows, rfl, rfl⟩
  | cut => exact ⟨.retain _ _, .retain _ _, rfl, rfl⟩
  | closed => exact ⟨.empty _, .empty _, rfl, rfl⟩
  | _ => exact ⟨.refl _, .refl _, rfl, rfl⟩

theorem Path.fewerFlows (path : Path env s obs t) : FewerFlows s t := by
  induction path with
  | refl s => exact .refl s
  | step change _ ih => exact change.fewerFlows.trans ih

theorem Move.flows_cases (move : Move env s event obs t) : FewerFlows s t ∨
      (∃ input order, event = .pump input order ∧ obs = (s.pumpFlows input).2.map .pumped ∧
        t = (s.pumpFlows input).1) ∨
      Host env s event obs t := by
  cases move with
  | finished => exact .inl ⟨.refl _, .refl _, rfl, rfl⟩
  | pumped called rest => exact .inr (.inl ⟨_, _, called, rfl, rest.symm⟩)
  | quiet path => exact .inl path.fewerFlows
  | loud path loud =>
    refine .inl (path.fewerFlows.trans ?_)
    cases loud <;> exact ⟨.refl _, .refl _, rfl, rfl⟩
  | begun _ begun =>
    left
    cases begun <;> exact ⟨.refl _, .refl _, rfl, rfl⟩
  | login _ login path =>
    refine .inl (FewerFlows.trans ?_ path.fewerFlows)
    cases login <;> exact ⟨.refl _, .refl _, rfl, rfl⟩
  | host host => exact .inr (.inr host)

end Fewer

/-- Flow handles are drawn from one counter, so no two flows share one. -/
structure State.Numbered (s : State) : Prop where
  streams : s.flows.All fun handle _ => handle < s.flowNext
  datagrams : s.datagramFlows.All fun handle _ => handle < s.flowNext
  distinct : s.Distinct

variable {obs history : List Obs} {handle : Nat}

section Numbered

variable {env : Env} {s t : State}

theorem State.Numbered.comes {streamsRelated : PolicyFlow → PolicyFlow → Prop}
    {datagramsRelated : PolicyDatagramFlow → PolicyDatagramFlow → Prop} (numbered : s.Numbered)
    (streams : Comes streamsRelated t.flows s.flows)
    (datagrams : Comes datagramsRelated t.datagramFlows s.datagramFlows)
    (later : s.flowNext ≤ t.flowNext) : t.Numbered where
  streams handle flow found := by
    obtain ⟨former, there, _⟩ := streams handle flow found
    exact (numbered.streams handle former there).trans_le later
  datagrams handle flow found := by
    obtain ⟨former, there, _⟩ := datagrams handle flow found
    exact (numbered.datagrams handle former there).trans_le later
  distinct handle flow found := by
    obtain ⟨former, there, _⟩ := streams handle flow found
    cases other : t.datagramFlows.lookup handle with
    | none => rfl
    | some datagram =>
      obtain ⟨old, present, _⟩ := datagrams handle datagram other
      rw [numbered.distinct handle former there] at present
      simp at present

theorem State.Numbered.addStream (numbered : s.Numbered)
    (later : s.flowNext ≤ handle) (flow : PolicyFlow) (sessions : Table Nat PolicySession) :
    State.Numbered { s with
      sessions
      flowNext := handle + 1
      flows := s.flows.insert handle flow } where
  streams := (numbered.streams.mono fun _ _ less => by dsimp only; omega).insert
    (Nat.lt_succ_self handle)
  datagrams := numbered.datagrams.mono fun _ _ less => by dsimp only; omega
  distinct other found there := by
    rcases Table.of_lookup_insert there with ⟨same, _⟩ | ⟨_, old⟩
    · dsimp only
      cases present : s.datagramFlows.lookup other with
      | none => rfl
      | some datagram =>
        have below := numbered.datagrams other datagram present
        omega
    · exact numbered.distinct other found old

theorem State.Numbered.addDatagram (numbered : s.Numbered)
    (later : s.flowNext ≤ handle) (flow : PolicyDatagramFlow) (sessions : Table Nat PolicySession) :
    State.Numbered { s with
      sessions
      flowNext := handle + 1
      datagramFlows := s.datagramFlows.insert handle flow } where
  streams := numbered.streams.mono fun _ _ less => by dsimp only; omega
  datagrams := (numbered.datagrams.mono fun _ _ less => by dsimp only; omega).insert
    (Nat.lt_succ_self handle)
  distinct other found there := by
    dsimp only at there ⊢
    have below : other < s.flowNext := numbered.streams other found there
    rw [Table.lookup_insert_eq, if_neg (by omega)]
    exact numbered.distinct other found there

theorem State.Numbered.fewer (numbered : s.Numbered) (fewer : FewerFlows s t) : t.Numbered :=
  numbered.comes (fun _ flow found => ⟨flow, fewer.streams _ _ found, rfl⟩)
    (fun _ flow found => ⟨flow, fewer.datagrams _ _ found, rfl⟩) fewer.flowNext.ge

theorem Move.numbered (move : Move env s event obs t) (numbered : s.Numbered) : t.Numbered := by
  rcases move.flows_cases with fewer | ⟨input, _, _, _, rfl⟩ | host
  · exact numbered.fewer fewer
  · have pumps := s.pumpFlows_pumps input
    refine numbered.comes pumps.flows pumps.datagramFlows ?_
    obtain ⟨_, _, _, _, _, _, _, _, same⟩ := pumps.rest
    rw [same]
  · have same (next : Nat) (later : s.flowNext ≤ next) (sessions : Table Nat PolicySession) :
        State.Numbered { s with sessions, flowNext := next } :=
      numbered.comes (fun _ flow found => ⟨flow, found, rfl⟩)
        (fun _ flow found => ⟨flow, found, rfl⟩) later
    cases host with
    | refused | joined => exact { numbered with }
    | admitted => exact same _ le_rfl _
    | consumed _ _ _ _ later | skipped _ later => exact same _ later _
    | streamed _ _ _ _ later | unmetered _ later => exact numbered.addStream later _ _
    | datagrammed _ _ _ _ later | unmeteredDatagram _ later => exact numbered.addDatagram later _ _

/-- In every run the flows have handles of their own. -/
theorem run_numbered {guard : List Obs → World → Event → Prop}
    {world : World} (run : (machine env).Run Fresh guard history world) :
    world.Holds State.Numbered := by
  refine machine_invariant (fun _ world => world.Holds State.Numbered) trivial ?_ run
  intro history world event obs next _ numbered _ advance
  cases advance with
  | idle => exact numbered
  | started started =>
    have fresh := initializeInstance_started started
    constructor
    · rw [fresh.flows]
      exact .empty
    · rw [fresh.datagramFlows]
      exact .empty
    · intro handle flow found
      rw [fresh.flows] at found
      simp at found
  | moved move => exact move.numbered numbered
  | stopped | crashed => trivial

end Numbered

/-- The session belongs to a user that has proved who it is. -/
structure PolicySession.Serves (session : PolicySession) (userId : String)
    (digest : Option String) : Prop where
  role : session.role = .server
  auth : session.auth = .authenticated userId
  digest : session.credentialDigest = digest

/-- Who has proved who it is has done so before. -/
def KeepsServing (s t : State) : Prop :=
  ∀ handle session userId digest, t.sessions.lookup handle = some session →
    session.Serves userId digest →
    ∃ old, s.sessions.lookup handle = some old ∧ old.Serves userId digest

namespace KeepsServing

variable {s t : State}

theorem refl (s : State) : KeepsServing s s :=
  fun _ session _ _ found serves => ⟨session, found, serves⟩

theorem trans {mid : State} (first : KeepsServing s mid) (second : KeepsServing mid t) :
    KeepsServing s t := by
  intro handle session userId digest found serves
  obtain ⟨between, there, served⟩ := second handle session userId digest found serves
  exact first handle between userId digest there served

theorem sub (fewer : Table.Sub t.sessions s.sessions) : KeepsServing s t :=
  fun _ session _ _ found serves => ⟨session, fewer _ _ found, serves⟩

theorem put {session : PolicySession} (same : t.sessions = s.sessions.insert handle session)
    (kept : ∀ userId digest, session.Serves userId digest →
      ∃ old, s.sessions.lookup handle = some old ∧ old.Serves userId digest) :
    KeepsServing s t := by
  intro other found userId digest there serves
  rw [same] at there
  rcases Table.of_lookup_insert there with ⟨rfl, rfl⟩ | ⟨_, old⟩
  · exact kept userId digest serves
  · exact ⟨found, old, serves⟩

end KeepsServing

section Serving

variable {env : Env} {s t : State} {obs : List Obs}

theorem Quiet.keepsServing (change : Quiet env s obs t) : KeepsServing s t := by
  cases change with
  | acknowledged _ _ _ _ _ _ _ applied => exact .sub applied.sessions
  | tuned channel subscribed lastStatus found =>
    exact .put rfl fun userId digest serves => ⟨_, found, serves.role, serves.auth, serves.digest⟩
  | denied | presented =>
    exact .put rfl fun userId digest serves => by simpa using serves.auth
  | dropped => exact .sub (.erase _ _)
  | named id found client =>
    exact .put rfl fun userId digest serves => by simpa [client] using serves.role
  | closed => exact .sub (.empty _)
  | _ => exact .refl s

theorem Path.keepsServing (path : Path env s obs t) : KeepsServing s t := by
  induction path with
  | refl s => exact .refl s
  | step change _ ih => exact change.keepsServing.trans ih

/-- Only a finished login lets somebody in. -/
theorem Move.keepsServing (move : Move env s event obs t) : KeepsServing s t ∨
      ∃ input mid, event = .advanceSession input ∧ obs = [] ∧ Login s mid ∧
        Path env mid [] t := by
  cases move with
  | finished => exact .inl (.refl s)
  | pumped => exact .inl (.refl s)
  | quiet path => exact .inl path.keepsServing
  | loud path loud =>
    refine .inl (path.keepsServing.trans ?_)
    cases loud <;> exact .refl _
  | begun _ begun =>
    left
    cases begun <;> exact .put rfl fun userId digest serves => by simpa using serves.auth
  | login called login path => exact .inr ⟨_, _, called, rfl, login, path⟩
  | host host =>
    left
    cases host with
    | joined _ waiting =>
      exact .put rfl fun userId digest serves => by simpa [waiting] using serves.auth
    | admitted _ found | consumed _ found | streamed _ found | datagrammed _ found =>
      exact .put rfl fun userId digest serves =>
        ⟨_, found, serves.role, serves.auth, serves.digest⟩
    | _ => exact .refl s

/-- A session serves the user and the credential of a flow. -/
def Owned (s : State) (userId digest : Option String) : Prop :=
  ∃ handle session user, s.sessions.lookup handle = some session ∧
    session.Serves user digest ∧ userId = some user

/-- A flow is one that was there, one without a user, or one of a session that serves its user. -/
theorem Move.flow_origin (move : Move env s event obs t) (tickets : Tickets env s) :
    (∀ handle flow, t.flows.lookup handle = some flow →
      (∃ old, s.flows.lookup handle = some old ∧ flow.SameOwner old) ∨
        flow.userId = none ∧ flow.credentialDigest = none ∨
        Owned s flow.userId flow.credentialDigest) ∧
      ∀ handle flow, t.datagramFlows.lookup handle = some flow →
        (∃ old, s.datagramFlows.lookup handle = some old ∧ flow.SameOwner old) ∨
          flow.userId = none ∧ flow.credentialDigest = none ∨
          Owned s flow.userId flow.credentialDigest := by
  have same {φ : Type} {related : φ → φ → Prop} {rest : Nat → φ → Prop} {table : Table Nat φ}
      (reflexive : ∀ flow, related flow flow) (handle : Nat) (flow : φ)
      (found : table.lookup handle = some flow) :
      (∃ old, table.lookup handle = some old ∧ related flow old) ∨ rest handle flow :=
    .inl ⟨flow, found, reflexive flow⟩
  have grown {φ : Type} {related : φ → φ → Prop} {rest : φ → Prop} {table : Table Nat φ}
      {key : Nat} {new : φ} (reflexive : ∀ flow, related flow flow) (fresh : rest new)
      (handle : Nat) (flow : φ) (found : (table.insert key new).lookup handle = some flow) :
      (∃ old, table.lookup handle = some old ∧ related flow old) ∨ rest flow := by
    rcases Table.of_lookup_insert found with ⟨_, rfl⟩ | ⟨_, old⟩
    · exact .inr fresh
    · exact .inl ⟨flow, old, reflexive flow⟩
  have owned {session : Nat} {found : PolicySession} {identity : FlowIdentity}
      {rest : List FlowIdentity} (present : s.sessions.lookup session = some found)
      (waiting : found.pendingFlows = identity :: rest) :
      Owned s (some identity.userId) identity.credentialDigest := by
    have ok := (tickets.sessions _ _ present).owned identity (by simp [waiting])
    exact ⟨session, found, identity.userId, present, ⟨ok.1, ok.2.1, ok.2.2.symm⟩, rfl⟩
  rcases move.flows_cases with fewer | ⟨input, _, _, _, rfl⟩ | host
  · exact ⟨fun handle flow found => .inl ⟨flow, fewer.streams _ _ found, rfl, rfl, rfl⟩,
      fun handle flow found => .inl ⟨flow, fewer.datagrams _ _ found, rfl, rfl, rfl⟩⟩
  · have pumps := s.pumpFlows_pumps input
    exact ⟨fun handle flow found => .inl (pumps.flows handle flow found),
      fun handle flow found => .inl (pumps.datagramFlows handle flow found)⟩
  · cases host with
    | streamed _ present _ waiting =>
      exact ⟨grown (fun _ => ⟨rfl, rfl, rfl⟩) (.inr (owned present waiting)),
        same fun _ => ⟨rfl, rfl, rfl⟩⟩
    | datagrammed _ present _ waiting =>
      exact ⟨same fun _ => ⟨rfl, rfl, rfl⟩,
        grown (fun _ => ⟨rfl, rfl, rfl⟩) (.inr (owned present waiting))⟩
    | unmetered =>
      exact ⟨grown (fun _ => ⟨rfl, rfl, rfl⟩) (.inl ⟨rfl, rfl⟩), same fun _ => ⟨rfl, rfl, rfl⟩⟩
    | unmeteredDatagram =>
      exact ⟨same fun _ => ⟨rfl, rfl, rfl⟩, grown (fun _ => ⟨rfl, rfl, rfl⟩) (.inl ⟨rfl, rfl⟩)⟩
    | _ => exact ⟨same fun _ => ⟨rfl, rfl, rfl⟩, same fun _ => ⟨rfl, rfl, rfl⟩⟩

end Serving

def Obs.pumpEvent : Obs → Option PumpEvent
  | pumped event => some event
  | _ => none

def pumpEvents (history : List Obs) : List PumpEvent :=
  history.filterMap Obs.pumpEvent

@[simp] theorem pumpEvents_append (first second : List Obs) :
    pumpEvents (first ++ second) = pumpEvents first ++ pumpEvents second :=
  List.filterMap_append

@[simp] theorem pumpEvents_pumped (events : List PumpEvent) :
    pumpEvents (events.map .pumped) = events := by
  induction events with
  | nil => rfl
  | cons event events ih => exact congrArg (event :: ·) ih

@[simp] theorem mem_pumpEvents {event : PumpEvent} :
    event ∈ pumpEvents history ↔ .pumped event ∈ history := by
  rw [pumpEvents, List.mem_filterMap]
  constructor
  · rintro ⟨obs, member, shows⟩
    cases obs <;> simp_all [Obs.pumpEvent]
  · exact fun member => ⟨_, member, rfl⟩

section Accounted

variable {env : Env} {s t : State} {userId : String}

theorem Move.pumpEvents_eq (move : Move env s event obs t) : pumpEvents obs = [] ∨
      ∃ input order, event = .pump input order ∧ obs = (s.pumpFlows input).2.map .pumped ∧
        t = (s.pumpFlows input).1 := by
  have quiet {s t : State} {obs : List Obs} (change : Quiet env s obs t) :
      pumpEvents obs = [] := by
    cases change with
    | noted obs => cases obs <;> simp_all [Obs.plain, pumpEvents, Obs.pumpEvent]
    | _ => rfl
  have path {s t : State} {obs : List Obs} (path : Path env s obs t) : pumpEvents obs = [] := by
    induction path with
    | refl => rfl
    | step change _ ih => rw [pumpEvents_append, quiet change, ih, List.append_nil]
  cases move with
  | @finished outcome =>
    left
    unfold finishObs
    cases outcome with
    | success => cases s.storage.held <;> rfl
    | _ => rfl
  | pumped called rest => exact .inr ⟨_, _, called, rfl, rest.symm⟩
  | quiet way | loud way => exact .inl (path way)
  | begun | login => exact .inl rfl
  | host host =>
    left
    cases host <;> rfl

/-- The polls of a run let no flow of a user fail after it has forwarded bytes. -/
def CleanPolls (userId : String) (world : World) (event : Event) : Prop :=
  world.Holds fun s => ∀ input order, event = .pump input order → input.Clean userId s

instance (userId : String) (world : World) (event : Event) :
    Decidable (CleanPolls userId world event) :=
  decidable_of_iff
    ((match event with
      | .pump input _ => decide (world.Holds fun s => input.Clean userId s)
      | _ => true) = true) <| by
    cases event with
    | pump input order =>
      rw [decide_eq_true_eq]
      cases world <;> simp [CleanPolls, World.Holds]
    | _ => cases world <;> simp [CleanPolls, World.Holds]

instance (event : Event) : Decidable (∀ pumping, event ≠ .crash (some pumping)) :=
  decidable_of_iff
    ((match event with
      | .crash (some _) => false
      | _ => true) = true) <| by
    cases event with
    | crash pumping => cases pumping <;> simp
    | _ => simp

/--
A user is charged for every byte its flows forward, and gets no token back for one.

Every poll of one of its flows is settled, in the order of the polls and for what was forwarded in
it, and nothing else is.
No part of a poll fails after an earlier part has forwarded bytes, and no process ends in the
middle of a pump pass.
-/
theorem forwardedBytes_charged {world : World} (run : (machine env).Run Fresh
      (fun _ world event => CleanPolls userId world event ∧
        ∀ pumping, event ≠ .crash (some pumping)) history world) :
    forwardedBytes userId (pumpEvents history) = chargedBytes userId (pumpEvents history) ∧
      List.Forall₂ Payment.For (forwardings userId (pumpEvents history))
        (payments userId (pumpEvents history)) := by
  have paid : Paid userId (pumpEvents history) := by
    refine machine_invariant (fun history _ => Paid userId (pumpEvents history)) .nil ?_ run
    rintro history world event obs next before paid ⟨clean, whole⟩ advance
    rw [pumpEvents_append]
    refine paid.append ?_
    -- Only a pump pass adds to the bytes and to the payments.
    cases advance with
    | idle | started | stopped => exact .nil
    | @crashed phase s pumping =>
      cases pumping with
      | none => cases phase <;> exact .nil
      | some pumping => exact absurd rfl (whole pumping)
    | @moved _ _ s _ _ _ move =>
      rcases move.pumpEvents_eq with still | ⟨input, order, called, rfl, rfl⟩
      · rw [still]
        exact .nil
      have numbered : s.Numbered := run_numbered before
      rw [pumpEvents_pumped]
      exact State.pumpFlows_paid numbered.distinct (clean input order called)
  exact ⟨paid.total, paid⟩

end Accounted

open Deployment

/-- A flow of the user forwards ten bytes. -/
def uploading : List Event :=
  setup options ++ login ++ flow ++
    beginPoll 20 1 (moving (.report { read := 10, written := 10 }) .pending)

/-- Ten bytes are forwarded and charged. -/
theorem forwardedBytes_charged_uploading :
    forwardedBytes firstUser (pumpEvents (reached [] uploading).1) = 10 ∧
      chargedBytes firstUser (pumpEvents (reached [] uploading).1) = 10 := by
  have run : (machine (libraries [])).Run Fresh
      (fun _ world event => CleanPolls firstUser world event ∧
        ∀ pumping, event ≠ .crash (some pumping))
      (reached [] uploading).1 (reached [] uploading).2 :=
    reached_run [] uploading (by decide +kernel)
  have ten : forwardedBytes firstUser (pumpEvents (reached [] uploading).1) = 10 := by
    decide +kernel
  exact ⟨ten, (forwardedBytes_charged run).1 ▸ ten⟩

/-- A flow of the user forwards ten bytes in one direction and fails in the other. -/
def failing : List Event :=
  setup options ++ login ++ flow ++
    beginPoll 20 1 (moving (.report { read := 10, written := 10 }) .failed)

/-- A poll that fails after bytes have moved reports none of them. -/
theorem forwardedBytes_uncharged :
    (machine (libraries [])).Run Fresh (fun history _ event => Reliable history event)
        (reached [] failing).1 (reached [] failing).2 ∧
      forwardedBytes firstUser (pumpEvents (reached [] failing).1) = 10 ∧
      chargedBytes firstUser (pumpEvents (reached [] failing).1) = 0 :=
  ⟨reached_run [] failing (by decide +kernel), by decide +kernel⟩

end Snolc.Policy
