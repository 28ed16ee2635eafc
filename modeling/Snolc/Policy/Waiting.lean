import Snolc.Policy.Flows

/-! Flows wait on their session from their admission to their attachment. -/

namespace Snolc.Policy

open List State

/-- A session with the same flows waiting on it. -/
structure PolicySession.SameQueue (new old : PolicySession) : Prop where
  role : new.role = old.role
  pendingFlows : new.pendingFlows = old.pendingFlows

theorem PolicySession.SameQueue.refl (session : PolicySession) : session.SameQueue session :=
  ⟨rfl, rfl⟩

/-- A change that neither admits nor attaches a flow. -/
structure Undisturbed (s t : State) : Prop where
  sessions : Comes PolicySession.SameQueue t.sessions s.sessions
  flows : Comes PolicyFlow.SameOwner t.flows s.flows
  datagramFlows : Comes PolicyDatagramFlow.SameOwner t.datagramFlows s.datagramFlows
  sessionNext : t.sessionNext = s.sessionNext

/-- Whether an observation is the admission or the attachment of a flow. -/
def Obs.hosted : Obs → Bool
  | admitted .. | attached .. => true
  | _ => false

namespace Undisturbed

variable {s t : State}

theorem trans {mid : State} (first : Undisturbed s mid) (second : Undisturbed mid t) :
    Undisturbed s t where
  sessions := second.sessions.trans
    (fun _ _ _ near far => ⟨near.role.trans far.role, near.pendingFlows.trans far.pendingFlows⟩)
    first.sessions
  flows := second.flows.trans (fun _ _ _ => .trans) first.flows
  datagramFlows := second.datagramFlows.trans
    (fun _ _ _ near far => ⟨near.1.trans far.1, near.2.1.trans far.2.1, near.2.2.trans far.2.2⟩)
    first.datagramFlows
  sessionNext := second.sessionNext.trans first.sessionNext

theorem sub (sessions : Table.Sub t.sessions s.sessions) (fewer : FewerFlows s t) :
    Undisturbed s t where
  sessions _ session found := ⟨session, sessions _ _ found, .refl _⟩
  flows _ flow found := ⟨flow, fewer.streams _ _ found, rfl, rfl, rfl⟩
  datagramFlows _ flow found := ⟨flow, fewer.datagrams _ _ found, rfl, rfl, rfl⟩
  sessionNext := fewer.sessionNext

theorem put {handle : Nat} {session old : PolicySession}
    (sessions : t.sessions = s.sessions.insert handle session)
    (found : s.sessions.lookup handle = some old) (same : session.SameQueue old)
    (fewer : FewerFlows s t) : Undisturbed s t where
  sessions := by
    rw [sessions]
    exact .insert .refl found same
  flows _ flow found := ⟨flow, fewer.streams _ _ found, rfl, rfl, rfl⟩
  datagramFlows _ flow found := ⟨flow, fewer.datagrams _ _ found, rfl, rfl, rfl⟩
  sessionNext := fewer.sessionNext

end Undisturbed

section Undisturbed

variable {env : Env} {s t : State} {obs : List Obs}

theorem Quiet.undisturbed (change : Quiet env s obs t) : Undisturbed s t := by
  -- The flows are those of `Quiet.fewerFlows`; a session is put back with its queue or dropped.
  have fewer := change.fewerFlows
  cases change with
  | acknowledged _ _ _ _ _ _ _ applied => exact .sub applied.sessions fewer
  | tuned _ _ _ found | denied _ found | presented _ found | named _ found =>
    exact .put rfl found ⟨rfl, rfl⟩ fewer
  | dropped => exact .sub (.erase _ _) fewer
  | closed => exact .sub (.empty _) fewer
  | _ => exact .sub (.refl _) fewer

theorem Path.undisturbed (path : Path env s obs t) : Undisturbed s t := by
  induction path with
  | refl => exact .sub (.refl _) (.refl _)
  | step change _ ih => exact change.undisturbed.trans ih

theorem Path.unhosted (path : Path env s obs t) : ∀ o ∈ obs, o.hosted = false := by
  induction path with
  | refl => simp
  | step change _ ih =>
    intro o member
    rcases mem_append.mp member with here | later
    · cases change with
      | noted =>
        rw [mem_singleton] at here
        subst here
        cases o <;> simp_all [Obs.plain, Obs.hosted]
      | acknowledged =>
        rw [mem_singleton] at here
        rw [here]
        rfl
      | _ => simp at here
    · exact ih o later

theorem Move.host_cases {event : Event} (move : Move env s event obs t) :
    Undisturbed s t ∧ (∀ o ∈ obs, o.hosted = false) ∨ Host env s event obs t := by
  cases move with
  | @finished outcome =>
    refine .inl ⟨.sub (.refl _) ⟨.refl _, .refl _, rfl, rfl⟩, fun o member => ?_⟩
    cases outcome with
    | success =>
      obtain ⟨command, _, same⟩ := mem_map.mp member
      rw [← same]
      rfl
    | _ => simp [finishObs] at member
  | @pumped input _ _ _ _ _ _ _ _ _ _ rest =>
    have pumps := rest ▸ s.pumpFlows_pumps input
    refine .inl ⟨⟨.refl .refl _, pumps.flows, pumps.datagramFlows, rfl⟩, fun o member => ?_⟩
    · obtain ⟨event, _, same⟩ := mem_map.mp member
      rw [← same]
      rfl
  | quiet path => exact .inl ⟨path.undisturbed, path.unhosted⟩
  | loud path loud =>
    refine .inl ⟨path.undisturbed.trans ?_, path.unhosted⟩
    cases loud <;> exact .sub (.refl _) ⟨.refl _, .refl _, rfl, rfl⟩
  | begun _ begun =>
    refine .inl ⟨?_, by simp⟩
    cases begun with
    | lookedUp found | clocked found => exact .put rfl found ⟨rfl, rfl⟩ ⟨.refl _, .refl _, rfl, rfl⟩
  | login _ login path =>
    refine .inl ⟨Undisturbed.trans ?_ path.undisturbed, by simp⟩
    cases login with
    | direct found | confirmed found => exact .put rfl found ⟨rfl, rfl⟩ ⟨.refl _, .refl _, rfl, rfl⟩
  | host host => exact .inr host

end Undisturbed

/-- The identities that a session has admitted, in order. -/
def admissions (session : Nat) (history : List Obs) : List FlowIdentity :=
  history.filterMap fun
    | .admitted other _ identity => if other = session then some identity else none
    | _ => none

/-- The identities of the flows that were attached to a session, in order. -/
def attachments (session : Nat) (history : List Obs) : List FlowIdentity :=
  history.filterMap fun
    | .attached other _ identity _ => if other = session then some identity else none
    | _ => none

section Order

variable {session : Nat} {identity : FlowIdentity} {first second obs after : List Obs}

theorem admissions_append :
    admissions session (first ++ second) = admissions session first ++ admissions session second :=
  filterMap_append

theorem attachments_append : attachments session (first ++ second) =
    attachments session first ++ attachments session second :=
  filterMap_append

/-- Where nothing is hosted, nothing is admitted or attached. -/
theorem unhosted_still (unhosted : ∀ o ∈ obs, o.hosted = false) (session : Nat) :
    admissions session obs = [] ∧ attachments session obs = [] := by
  constructor <;> refine filterMap_eq_nil_iff.mpr fun o member => ?_ <;>
    have still := unhosted o member <;> cases o <;> simp_all [Obs.hosted]

/-- Each identity that was admitted has its place in the history. -/
theorem admissions_place {place : Nat}
    (there : (admissions session after)[place]? = some identity) :
    ∃ first flow rest, after = first ++ .admitted session flow identity :: rest ∧
      (admissions session first).length = place := by
  induction after generalizing place with
  | nil => simp [admissions] at there
  | cons o after ih =>
    by_cases here : ∃ flow identity, o = .admitted session flow identity
    · obtain ⟨flow, other, rfl⟩ := here
      rw [admissions, filterMap_cons_some (by simp; rfl), ← admissions] at there
      cases place with
      | zero =>
        cases there
        exact ⟨[], flow, after, rfl, rfl⟩
      | succ place =>
        obtain ⟨first, number, rest, rfl, same⟩ := ih there
        refine ⟨.admitted session flow other :: first, number, rest, rfl, ?_⟩
        rw [← same]
        simp [admissions]
    · have none_ : admissions session [o] = [] := by
        cases o <;> simp_all [admissions]
      rw [← singleton_append, admissions_append, none_] at there
      obtain ⟨first, number, rest, rfl, same⟩ := ih there
      refine ⟨o :: first, number, rest, rfl, ?_⟩
      rw [← singleton_append, admissions_append, none_, nil_append, same]

/--
Flows are attached to a session in the order in which it has admitted them.

Some flows may have waited on it before, and a session that is still to come has admitted none.
-/
structure Sequenced (begun : Nat → List FlowIdentity) (after : List Obs) (s : State) : Prop where
  known : s.sessions.All fun handle _ => handle < s.sessionNext
  recent : ∀ handle, s.sessionNext ≤ handle →
    begun handle = [] ∧ admissions handle after = [] ∧ attachments handle after = []
  order : s.sessions.All fun handle session =>
    begun handle ++ admissions handle after = attachments handle after ++ session.pendingFlows

/-- The identities that wait to be attached to a session. -/
def State.queued (s : State) (session : Nat) : List FlowIdentity :=
  ((s.sessions.lookup session).map (·.pendingFlows)).getD []

/-- The identities that wait to be attached to a session, if the process is up. -/
def World.queued : World → Nat → List FlowIdentity
  | up _ s => s.queued
  | down _ => fun _ => []

namespace Sequenced

variable {begun : Nat → List FlowIdentity} {s t : State} (sequenced : Sequenced begun after s)
include sequenced

/-- The order may be counted from any state on. -/
theorem restart : Sequenced s.queued [] s where
  known := sequenced.known
  recent handle later := by
    refine ⟨?_, rfl, rfl⟩
    cases found : s.sessions.lookup handle with
    | none => simp [queued, found]
    | some => exact absurd (sequenced.known handle _ found) (Nat.not_lt.mpr later)
  order handle session found := by simp [queued, found, admissions, attachments]

theorem keep (still : ∀ session, admissions session obs = [] ∧ attachments session obs = [])
    (sessions : Comes PolicySession.SameQueue t.sessions s.sessions)
    (later : s.sessionNext ≤ t.sessionNext) : Sequenced begun (after ++ obs) t where
  known handle _ found := by
    obtain ⟨old, there, _⟩ := sessions handle _ found
    exact Nat.lt_of_lt_of_le (sequenced.known handle old there) later
  recent handle ahead := by
    simp [admissions_append, attachments_append, still handle,
      sequenced.recent handle (later.trans ahead)]
  order handle session found := by
    obtain ⟨old, there, queue⟩ := sessions handle session found
    simpa [admissions_append, attachments_append, still handle, queue.pendingFlows] using
      sequenced.order handle old there

/-- What is admitted to one session joins its queue, and what is attached leaves it. -/
theorem put {found new : PolicySession} (lookup : s.sessions.lookup session = some found)
    (sessions : t.sessions = s.sessions.insert session new) (next : t.sessionNext = s.sessionNext)
    (others : ∀ other, other ≠ session → admissions other obs = [] ∧ attachments other obs = [])
    (queue : found.pendingFlows ++ admissions session obs =
      attachments session obs ++ new.pendingFlows) : Sequenced begun (after ++ obs) t where
  known := by
    rw [sessions, next]
    exact sequenced.known.insert (sequenced.known session found lookup)
  recent handle ahead := by
    rw [next] at ahead
    have other : handle ≠ session := by
      rintro rfl
      exact absurd (sequenced.known handle found lookup) (Nat.not_lt.mpr ahead)
    simp [admissions_append, attachments_append, others handle other,
      sequenced.recent handle ahead]
  order := by
    rw [sessions]
    intro handle held
    rw [Table.lookup_insert_eq]
    split
    · next same =>
      subst same
      intro stored
      cases stored
      rw [admissions_append, attachments_append, ← append_assoc,
        sequenced.order handle found lookup, append_assoc, queue, append_assoc]
    · next other =>
      intro stored
      simpa [admissions_append, attachments_append, others handle other] using
        sequenced.order handle held stored

/-- An identity that is attached is the one in its place among those that were admitted. -/
theorem attached {env : Env} {event : Event} {flow : Nat} {handle : Option Nat}
    (host : Host env s event obs t) (member : .attached session flow identity handle ∈ obs)
    (fresh : identity ∉ begun session) :
    ∃ first flow rest, after = first ++ .admitted session flow identity :: rest ∧
      (begun session).length + (admissions session first).length =
        (attachments session after).length := by
  obtain ⟨found, rest, lookup, pending⟩ : ∃ found rest, s.sessions.lookup session = some found ∧
      found.pendingFlows = identity :: rest := by
    cases host with
    | consumed _ lookup _ pending | streamed _ lookup _ pending | datagrammed _ lookup _ pending =>
      rw [mem_singleton, Obs.attached.injEq] at member
      obtain ⟨rfl, _, rfl, _⟩ := member
      exact ⟨_, _, lookup, pending⟩
    | _ => simp at member
  have order := sequenced.order session found lookup
  simp only [pending] at order
  have place : (begun session ++ admissions session after)[(attachments session after).length]? =
      some identity := by
    rw [order]
    simp
  -- It did not wait before, so its place is behind those that did.
  by_cases early : (attachments session after).length < (begun session).length
  · rw [List.getElem?_append_left early] at place
    exact absurd (mem_of_getElem? place) fresh
  · rw [List.getElem?_append_right (by omega)] at place
    obtain ⟨first, flow, rest, split, count⟩ := admissions_place place
    exact ⟨first, flow, rest, split, by omega⟩

end Sequenced

/-- Every move keeps the order of a session. -/
theorem Move.sequenced {env : Env} {event : Event} {s t : State}
    {begun : Nat → List FlowIdentity} (move : Move env s event obs t)
    (sequenced : Sequenced begun after s) : Sequenced begun (after ++ obs) t := by
  have empty (session : Nat) : admissions session [] = [] ∧ attachments session [] = [] :=
    ⟨rfl, rfl⟩
  have same : Comes PolicySession.SameQueue s.sessions s.sessions := .refl .refl _
  rcases move.host_cases with ⟨undisturbed, unhosted⟩ | host
  · exact sequenced.keep (unhosted_still unhosted) undisturbed.sessions undisturbed.sessionNext.ge
  cases host with
  | refused later => exact sequenced.keep empty same later
  | joined later _ _ waits =>
    rw [append_nil]
    refine ⟨?_, fun handle ahead => sequenced.recent handle (by simp at ahead; omega), ?_⟩
    · refine Table.All.insert (fun handle held found => ?_) (Nat.lt_succ_self _)
      have known : handle < s.sessionNext := sequenced.known handle held found
      simp only
      omega
    · obtain ⟨none_, admitted, attached⟩ := sequenced.recent _ later
      exact sequenced.order.insert (by simp [none_, admitted, attached, waits])
  | @admitted session flow _ _ found identity _ lookup =>
    refine sequenced.put lookup rfl rfl (fun other differs => ?_) ?_
    · simp [admissions, attachments, Ne.symm differs]
    · simp [admissions, attachments]
  | consumed _ lookup _ pending | streamed _ lookup _ pending | datagrammed _ lookup _ pending =>
    refine sequenced.put lookup rfl rfl (fun other differs => ?_) ?_
    · simp [admissions, attachments, Ne.symm differs]
    · simp [admissions, attachments, pending]
  | skipped | unmetered | unmeteredDatagram => exact sequenced.keep empty same (Nat.le_refl _)

/-- In every reachable state the sessions keep their order from there on. -/
theorem run_sequenced {env : Env} {guard : List Obs → World → Event → Prop}
    {history : List Obs} {world : World} (run : (machine env).Run Fresh guard history world) :
    world.Holds fun s => Sequenced s.queued [] s := by
  refine machine_invariant (fun _ world => world.Holds fun s => Sequenced s.queued [] s) trivial
    ?_ run
  intro history world event obs next _ sequenced _ advance
  cases advance with
  | idle => exact sequenced
  | stopped | crashed => trivial
  | moved move => exact (move.sequenced sequenced).restart
  | started started =>
    have fresh := initializeInstance_started started
    refine ⟨?_, fun handle _ => ⟨?_, rfl, rfl⟩, ?_⟩
    · rw [fresh.sessions]
      exact .empty
    · simp [queued, fresh.sessions]
    · rw [fresh.sessions]
      exact .empty

end Order

end Snolc.Policy
