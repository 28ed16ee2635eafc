import Snolc.Policy.Mutation
import Snolc.Policy.Rules
import Snolc.Policy.Waiting

/-! Rules that are replaced for active flows apply to every flow that goes on. -/

namespace Snolc.Policy

open List State

variable {identity : FlowIdentity} {session : Nat} {event : Event}

/-- The write was asked for to replace the rules of the profile, for active flows too. -/
def PendingWrite.Activates (env : Env) (profile : String) (write : PendingWrite) : Prop :=
  ∃ clientId seq rulesToml,
    write.asked env = some (.rulesReplace clientId seq profile .active rulesToml)

/-- A replacement of the rules of the profile finds everything the user has opened. -/
structure State.InReach (userId profile : String) (s : State) : Prop where
  /-- No admitted flow of the user waits to be attached. -/
  waiting : s.sessions.All fun _ session => ∀ identity ∈ session.pendingFlows,
    identity.userId ≠ userId
  /-- The user is in the cache, or has no flow. -/
  cached : (∃ user, s.admin.users.lookup userId = some user ∧ user.spec.ruleProfile = profile) ∨
    (s.flows.All fun _ flow => flow.userId ≠ some userId) ∧
      s.datagramFlows.All fun _ flow => flow.userId ≠ some userId

/--
Since the start of a run the session has admitted a flow of the identity, the one in this place of
its queue.
The decision was made by the rules of the profile that were acknowledged last.
-/
def Readmitted (env : Env) (profile : String) (before : List Obs) (start : World)
    (after : List Obs) (session place : Nat) (identity : FlowIdentity) : Prop :=
  ∃ first flow rest phase s user metadata,
    after = first ++ .admitted session flow identity :: rest ∧
    (start.queued session).length + (admissions session first).length = place ∧
    (machine env).Run (· = start) (fun _ world event => ¬ world.Ends event) first
      (.up phase s) ∧
    s.admin.rules.lookup profile = replacedRules env profile (before ++ first) ∧
    s.admin.users.lookup identity.userId = some user ∧
    destinationPolicy env s user metadata = .ok identity.sniff

/-- Every flow of the user that is open was attached under its handle. -/
structure Renewed (userId : String) (after : List Obs) (s : State) : Prop where
  flows : s.flows.All fun handle flow => flow.userId = some userId → ∃ number identity,
    .attached flow.session number identity (some handle) ∈ after ∧ identity.userId = userId
  datagramFlows : s.datagramFlows.All fun handle flow => flow.userId = some userId →
    ∃ number identity,
      .attached flow.session number identity (some handle) ∈ after ∧ identity.userId = userId

section Renewed

variable {env : Env} {userId : String} {s t : State} {obs after : List Obs}

namespace Renewed

variable (renewed : Renewed userId after s)
include renewed

theorem grow (obs : List Obs) : Renewed userId (after ++ obs) s where
  flows handle flow found own :=
    have ⟨number, identity, attached, named⟩ := renewed.flows handle flow found own
    ⟨number, identity, mem_append_left _ attached, named⟩
  datagramFlows handle flow found own :=
    have ⟨number, identity, attached, named⟩ := renewed.datagramFlows handle flow found own
    ⟨number, identity, mem_append_left _ attached, named⟩

theorem undisturbed (same : Undisturbed s t) : Renewed userId after t where
  flows handle flow found own := by
    obtain ⟨old, there, session, user, _⟩ := same.flows handle flow found
    rw [session]
    exact renewed.flows handle old there (user ▸ own)
  datagramFlows handle flow found own := by
    obtain ⟨old, there, session, user, _⟩ := same.datagramFlows handle flow found
    rw [session]
    exact renewed.datagramFlows handle old there (user ▸ own)

end Renewed

variable (host : Host env s event obs t)
include host

/-- A flow of the user that the host's calls open is attached by them. -/
theorem Host.renewed (renewed : Renewed userId after s) : Renewed userId (after ++ obs) t := by
  have grown := renewed.grow obs
  cases host with
  | @streamed _ session flow _ _ _ identity =>
    refine { grown with flows := grown.flows.insert fun own => ⟨flow, identity, ?_, ?_⟩ }
    · exact mem_append_right _ mem_cons_self
    · exact Option.some.inj own
  | @datagrammed _ session flow _ _ identity =>
    refine { grown with datagramFlows := grown.datagramFlows.insert fun own =>
      ⟨flow, identity, ?_, ?_⟩ }
    · exact mem_append_right _ mem_cons_self
    · exact Option.some.inj own
  | unmetered => exact { grown with flows := grown.flows.insert (by simp [newFlow]) }
  | unmeteredDatagram =>
    exact { grown with datagramFlows := grown.datagramFlows.insert (by simp [newDatagramFlow]) }
  | _ => exact ⟨grown.flows, grown.datagramFlows⟩

theorem Host.admitted_decided {flow : Nat} (admitted : .admitted session flow identity ∈ obs) :
    ∃ user metadata,
      s.admin.users.lookup identity.userId = some user ∧
      destinationPolicy env s user metadata = .ok identity.sniff := by
  cases host with
  | @admitted _ _ _ metadata _ _ admission =>
    rw [mem_singleton] at admitted
    rw [Obs.admitted.injEq] at admitted
    obtain ⟨rfl, rfl, rfl⟩ := admitted
    obtain ⟨_, _, _, _, _, user, cached, _, _, decided⟩ := admission_session admission
    exact ⟨user, metadata, cached, decided⟩
  | _ => simp at admitted

end Renewed

section Activation

variable {env : Env} {userId profile : String} {s : State} {input : ControlInput}
  {write : PendingWrite}

/-- What is in reach of the replacement is gone when it is acknowledged. -/
theorem State.InReach.renewed (reach : s.InReach userId profile) (tickets : Tickets env s)
    (acknowledges : s.acknowledges input = some write) (activates : write.Activates env profile) :
    Renewed userId [] (s.controlInstance env input).2 ∧
      ∀ session, ∀ identity ∈ (s.controlInstance env input).2.queued session,
        identity.userId ≠ userId := by
  obtain ⟨pending, sequencer, answered⟩ := acknowledges_cases acknowledges
  obtain ⟨clientId, seq, toml, asked⟩ := activates
  obtain ⟨request, parsed, _, _, before, other, draft, drafted, mutation, _⟩ :=
    (tickets.write pending).parsed
  rw [PendingWrite.asked, parsed, Except.toOption, Option.some.injEq] at asked
  subst asked
  have applied := applyAdminMutation_applied
    { s with pendingControl := none, admin := { s.admin with sequencer } } write.mutation
    input.utc input.evict
  have rest := @State.applyAdminMutation_eq
    { s with pendingControl := none, admin := { s.admin with sequencer } } write.mutation
    input.utc input.evict
  generalize applyAdminMutation _ write.mutation input.utc input.evict = t
    at answered applied rest
  rw [answered]
  -- The request replaces rules only, so the cache is as it was.
  have active : write.mutation.activeRuleProfiles = [profile] ∧
      write.mutation.users = [] ∧ write.mutation.credentials = [] := by
    rw [mutation]
    cases drafted with
    | ruled => simp
    | rewritten _ rewritten => cases rewritten
  have users : (applyCache s.options.maxCachedUsers input.evict
      { s.admin with sequencer } write.mutation).users = s.admin.users := by
    simp [applyCache, active.2]
  have shut : (t.flows.All fun _ flow => flow.userId ≠ some userId) ∧
      t.datagramFlows.All fun _ flow => flow.userId ≠ some userId := by
    rcases reach.cached with ⟨user, found, named⟩ | ⟨flows, datagramFlows⟩
    · have own : user.id = userId := tickets.users userId user found
      rw [← own]
      refine applied.activated userId user ?_ (by simp [active, named])
      rw [rest]
      exact users ▸ found
    · exact ⟨flows.sub applied.flows, datagramFlows.sub applied.datagramFlows⟩
  refine ⟨⟨fun handle flow found own => absurd own (shut.1 handle flow found),
    fun handle flow found own => absurd own (shut.2 handle flow found)⟩,
    fun session identity member => ?_⟩
  cases found : t.sessions.lookup session with
  | none => simp [queued, found] at member
  | some held =>
    exact reach.waiting session held (applied.sessions _ _ found) identity
      (by simpa [queued, found] using member)

theorem State.controlObs_acknowledges (acknowledges : s.acknowledges input = some write)
    (result : Except Status Bytes) :
    ∃ notes, s.controlObs input result = notes ++ [.acknowledged write] := by
  refine ⟨(input.entropy.map fun bytes => Obs.drew (encodeHex bytes)).toList ++
    [.answered input.request result], ?_⟩
  simp [controlObs, acknowledges]

theorem PendingWrite.Activates.inForce (activates : write.Activates env profile)
    (tickets : Tickets env s) (acknowledges : s.acknowledges input = some write)
    (history : List Obs) :
    (s.controlInstance env input).2.admin.rules.lookup profile =
      replacedRules env profile
        (history ++ s.controlObs input (s.controlInstance env input).1) := by
  obtain ⟨clientId, seq, toml, asked⟩ := activates
  obtain ⟨notes, ends⟩ := controlObs_acknowledges acknowledges
    (s.controlInstance env input).1
  have ruled : Ruled env profile s _ _ := (controlInstance_move s input).ruled tickets
  have replaced : replacedRules env profile
      (s.controlObs input (s.controlInstance env input).1) = some toml := by
    rw [ends, replacedRules_append, replacedRules_acknowledged, asked]
    simp [ControlRequest.replaces]
  rw [ruled.rules, replacedRules_append, replaced]
  rfl

/-- The state in which a replacement of the rules is acknowledged, with nothing of the user open. -/
structure Activated (env : Env) (userId profile : String) (before : List Obs) (start : World)
    (s : State) : Prop where
  run : (machine env).Run Fresh (fun _ _ _ => True) before start
  up : start = .up .idle s
  renewed : Renewed userId [] s
  fresh (session : Nat) : ∀ identity ∈ start.queued session, identity.userId ≠ userId
  rules : s.admin.rules.lookup profile = replacedRules env profile before

namespace Activated

variable {before after : List Obs} {start world : World}
  (activated : Activated env userId profile before start s)
  (later : (machine env).Run (· = start) (fun _ world event => ¬ world.Ends event) after world)
include activated later

/-- From there on the process goes on and knows the rules acknowledged last. -/
theorem continues : ∃ phase t, world = .up phase t ∧ Renewed userId after t ∧
    Sequenced start.queued after t ∧
    t.admin.rules.lookup profile = replacedRules env profile (before ++ after) := by
  have sequenced := run_sequenced activated.run
  refine machine_continues activated.run (fun after world => ∃ phase t, world = .up phase t ∧
    Renewed userId after t ∧ Sequenced start.queued after t ∧
    t.admin.rules.lookup profile = replacedRules env profile (before ++ after)) ?_ ?_ later
  · rw [activated.up] at sequenced ⊢
    exact ⟨.idle, s, rfl, activated.renewed, sequenced, by rw [append_nil, activated.rules]⟩
  rintro after _ event seen next since _ ⟨phase, t, rfl, renewed, sequenced, rules⟩ goesOn advance
  cases advance with
  | idle =>
    rw [append_nil]
    exact ⟨phase, t, rfl, renewed, sequenced, rules⟩
  | @moved _ next _ t' _ _ move =>
    have ruled : Ruled env profile t seen t' := move.ruled (run_tickets since)
    refine ⟨next, t', rfl, ?_, move.sequenced sequenced, ?_⟩
    · rcases move.host_cases with ⟨same, _⟩ | host
      · exact (renewed.grow seen).undisturbed same
      · exact host.renewed renewed
    · rw [ruled.rules, rules, ← replacedRules_append, append_assoc]
  | stopped shutdown => exact absurd shutdown (by simpa [World.Ends] using goesOn)
  | crashed => exact absurd trivial goesOn

/-- What is admitted or attached, the host has called for, and nothing else is seen then. -/
theorem host_of_hosted {event : Event} {o : Obs} {between rest : List Obs}
    (goesOn : ¬ world.Ends event) (seen : ((machine env).step world event).2 = between ++ o :: rest)
    (hosted : o.hosted = true) : between = [] ∧ ∃ phase t t', world = .up phase t ∧
      Host env t event [o] t' ∧ Sequenced start.queued after t ∧
      t.admin.rules.lookup profile = replacedRules env profile (before ++ after) := by
  have advance := run_advance (activated.run.append later) event
  generalize (machine env).step world event = stepped at seen advance
  obtain ⟨next, obs⟩ := stepped
  obtain rfl : obs = _ := seen
  obtain ⟨phase, t, rfl, _, sequenced, rules⟩ := activated.continues later
  generalize whole : between ++ o :: rest = obs at advance
  cases advance with
  | idle | stopped => simp at whole
  | @moved _ _ _ t' _ _ move =>
    rcases move.host_cases with ⟨_, unhosted⟩ | host
    · rw [unhosted o (by simp [← whole])] at hosted
      cases hosted
    -- A call of the host leaves one observation at most.
    have few : obs.length ≤ 1 := by cases host <;> simp
    rw [← whole] at few
    simp only [length_append, length_cons] at few
    obtain rfl : between = [] := length_eq_zero_iff.mp (by omega)
    obtain rfl : rest = [] := length_eq_zero_iff.mp (by omega)
    exact ⟨rfl, phase, t, t', rfl, by rwa [← whole] at host, sequenced, rules⟩
  | crashed => exact absurd trivial goesOn

/-- Whatever is admitted is decided by the rules acknowledged last. -/
theorem admitted {first rest : List Obs} {flow : Nat}
    (split : after = first ++ .admitted session flow identity :: rest) :
    ∃ phase t user metadata,
      (machine env).Run (· = start) (fun _ world event => ¬ world.Ends event) first (.up phase t) ∧
      t.admin.rules.lookup profile = replacedRules env profile (before ++ first) ∧
      t.admin.users.lookup identity.userId = some user ∧
      destinationPolicy env t user metadata = .ok identity.sniff := by
  refine later.occurrences (fun first item => ∀ session flow identity,
    item = .admitted session flow identity → ∃ phase t user metadata,
      (machine env).Run (· = start) (fun _ world event => ¬ world.Ends event) first (.up phase t) ∧
      t.admin.rules.lookup profile = replacedRules env profile (before ++ first) ∧
      t.admin.users.lookup identity.userId = some user ∧
      destinationPolicy env t user metadata = .ok identity.sniff) ?_ split _ _ _ rfl
  rintro after world event between _ rest later goesOn seen session flow identity rfl
  obtain ⟨rfl, phase, t, _, rfl, host, _, rules⟩ := activated.host_of_hosted later goesOn seen rfl
  obtain ⟨user, metadata, cached, decided⟩ := host.admitted_decided (.head _)
  rw [append_nil]
  exact ⟨phase, t, user, metadata, later, rules, cached, decided⟩

/-- Whatever is attached was admitted in the same place. -/
theorem attached {first rest : List Obs} {flow : Nat} {handle : Option Nat}
    (split : after = first ++ .attached session flow identity handle :: rest)
    (own : identity.userId = userId) :
    Readmitted env profile before start first session (attachments session first).length
      identity := by
  refine later.occurrences (fun first item => ∀ session flow identity handle,
    item = .attached session flow identity handle → identity.userId = userId →
      Readmitted env profile before start first session (attachments session first).length
        identity) ?_ split _ _ _ _ rfl own
  rintro after world event between _ rest later goesOn seen session flow identity handle rfl own
  obtain ⟨rfl, _, _, _, rfl, host, sequenced, _⟩ := activated.host_of_hosted later goesOn seen rfl
  have fresh : identity ∉ start.queued session := fun waits =>
    activated.fresh session identity waits own
  obtain ⟨first, number, others, split, count⟩ := sequenced.attached host (.head _) fresh
  obtain ⟨phase, t, user, metadata, decided⟩ := activated.admitted later split
  rw [append_nil]
  exact ⟨first, number, others, phase, t, user, metadata, split, count, decided⟩

end Activated

end Activation

open Deployment

/-- The request that allows every flow of the profile. -/
def allowRules : Sample where
  lines :=
    ["method = \"rules.replace\"", "client_id = \"panel\"", "seq = 3", "profile = \"default\"",
      "apply = \"active\"", "rules_toml = \"terminal = \\\"allow\\\"\\nentries = []\\n\""]
  digest := 0xa55bc9f8730383f38b7867b76ac34f662fee56e9494943f9c003cdb20c3d446e
  request := .rulesReplace "panel" 3 "default" .active allowAll

/-- The user has logged in, and the replacement of its rules is executed. -/
def activating : List Event :=
  setup options ++ login ++ allowRules.call 10 none :: worked

/-- The world in which the replacement is acknowledged. -/
def activated : World :=
  (reached [allowRules] (activating ++ [allowRules.call 10 none])).2

/-- A flow is admitted and attached. -/
def opening : List Event :=
  [.admitFlow 1 1 metadata 20, .attachFlow 1 1 ⟨none, 0, 0⟩]

/-- A flow is admitted before the rules of its user are replaced, and attached afterwards. -/
def outdated : List Event :=
  setup options ++ login ++ .admitFlow 1 1 metadata 20 :: denyRules.issue ++
    .attachFlow 1 1 ⟨none, 0, 0⟩ :: poll 1 [silent 20] ++ worked ++
    beginPoll 20 1 (moving (.report { read := 10, written := 10 }) .pending)

end Snolc.Policy
