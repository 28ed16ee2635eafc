import Snolc.Lib.Log
import Snolc.Policy.Coherence
import Snolc.Policy.Flows

/-! What the durable table is made of, and what vouches for the sessions and flows of a user. -/

namespace Snolc.Policy

open StorageWorker

variable {env : Env} {history obs : List Obs} {world : World} {s t : State} {event : Event}
  {log : List Command} {guard : List Obs → World → Event → Prop}

/-- The durable table as a sequential object; a command may also fail. -/
def durable : SequentialObject (Table Key Value) Command Reply where
  start := ∅
  effect
  answer
  refuses reply := reply = .failed

def Obs.command : Obs → Option Command
  | executed command => some command
  | _ => none

/-- The commands that were executed, in order. -/
def executed (history : List Obs) : List Command :=
  history.filterMap Obs.command

@[simp] theorem executed_append (first second : List Obs) :
    executed (first ++ second) = executed first ++ executed second :=
  List.filterMap_append

/-- The worker stands where the executed commands lead, and has answered in their order. -/
structure Traced (history : List Obs) (worker : StorageWorker) : Prop where
  store : worker.store = durable.replay (executed history)
  serial : durable.Serial (executed history) (worker.commands.zip worker.replies)

namespace Traced

theorem keep {old new : StorageWorker} (traced : Traced history old) (queues : Queues old new)
    (fits : old.replies.length ≤ old.commands.length) (none : executed obs = []) :
    Traced (history ++ obs) new := by
  -- What is only queued has no reply yet.
  obtain ⟨rest, grown⟩ := queues.commands
  constructor
  · rw [executed_append, none, List.append_nil, queues.store, traced.store]
  · rw [executed_append, none, List.append_nil, queues.replies, ← grown, zip_append_of_le fits]
    exact traced.serial

/-- The command that was held is answered where the worker stood, and is then executed. -/
theorem finish {worker : StorageWorker} (traced : Traced history worker) (outcome : Outcome) :
    Traced (history ++ finishObs worker outcome) (worker.finish outcome) := by
  have step (command : Command) :
      durable.replay (executed (history ++ [.executed command])) = effect worker.store command := by
    simp [SequentialObject.replay, executed, Obs.command, traced.store, durable]
  have answered {command : Command} {entry : List Command} (holds : worker.held = some command)
      (entered : entry = [command] ∨ entry = [] ∧ ∀ store, effect store command = store) :
      durable.Serial (executed history ++ entry)
        (worker.commands.zip (worker.replies ++ [answer worker.store command])) := by
    rw [zip_snoc (held_eq_some holds), traced.store]
    exact .answered traced.serial entered
  have finished := worker.finish_cases outcome
  generalize worker.finish outcome = next at finished
  cases finished with
  | idle none =>
    have silent : finishObs worker outcome = [] := by cases outcome <;> simp [finishObs, none]
    simpa [silent] using traced
  | stop holds =>
    -- The stop command changes nothing, whether it counts as executed or not.
    have entered := answered holds (.inr ⟨rfl, fun _ => rfl⟩)
    cases outcome with
    | success =>
      rw [finishObs, holds]
      exact ⟨by simpa [effect] using (step .stop).symm,
        executed_append history _ ▸ answered holds (.inl rfl)⟩
    | _ =>
      simp only [finishObs, List.append_nil] at entered ⊢
      exact ⟨traced.store, entered⟩
  | done holds =>
    rw [finishObs, holds]
    exact ⟨(step _).symm, executed_append history _ ▸ answered holds (.inl rfl)⟩
  | failed holds failed =>
    have silent : finishObs worker outcome = [] := by cases outcome <;> trivial
    rw [silent, List.append_nil]
    refine ⟨traced.store, ?_⟩
    rw [zip_snoc (held_eq_some holds)]
    exact .refused traced.serial rfl

end Traced

theorem Path.executed_eq_nil (path : Path env s obs t) : executed obs = [] := by
  induction path with
  | refl => rfl
  | step change _ ih =>
    rw [executed_append, ih, List.append_nil]
    cases change with
    | noted obs plain => cases obs <;> first | rfl | cases plain
    | _ => rfl

theorem Move.traced (move : Move env s event obs t) (tickets : Tickets env s)
    (traced : Traced history s.storage) : Traced (history ++ obs) t.storage := by
  rcases move.queues with ⟨outcome, _, rfl, rfl⟩ | queues
  · exact traced.finish outcome
  have keep (none : executed obs = []) := traced.keep queues tickets.queue.answered none
  cases move with
  | finished => exact traced.finish _
  | pumped => exact keep (by simp [executed, Function.comp_def, Obs.command])
  | quiet path | loud path => exact keep path.executed_eq_nil
  | begun | login => exact keep rfl
  | host host => exact keep (by cases host <;> rfl)

theorem crashObs_executed (s : State) (phase : Phase) (pumping : Option (PumpInput × Nat)) :
    executed (crashObs s phase pumping) = [] := by
  refine List.filterMap_eq_nil_iff.mpr fun obs member => ?_
  rcases mem_crashObs member with rfl | ⟨_, rfl⟩ <;> rfl

theorem run_traced (run : (machine env).Run Fresh guard history world) :
    world.store = durable.replay (executed history) ∧
      world.Holds fun s => Traced history s.storage := by
  refine machine_invariant (fun history world => world.store = durable.replay (executed history) ∧
    world.Holds fun s => Traced history s.storage) ⟨rfl, trivial⟩ ?_ run
  rintro history world event obs next before ⟨stored, traced⟩ _ advance
  cases advance with
  | idle => simpa using And.intro stored traced
  | @started store _ _ _ _ s ok =>
    have started := initializeInstance_started ok
    have kept : s.storage.store = durable.replay (executed history) := started.store.trans stored
    rw [List.append_nil]
    refine ⟨kept, kept, ?_⟩
    rw [started.storage]
    exact .start _
  | moved move =>
    have traced := move.traced (run_tickets before) traced
    exact ⟨traced.store, traced⟩
  | stopped _ path =>
    rw [List.append_nil, World.store, path.queues.store]
    exact ⟨stored, trivial⟩
  | crashed pumping =>
    rw [executed_append, crashObs_executed, List.append_nil]
    exact ⟨stored, trivial⟩

/-- An unrevoked credential of the user, if there is one, was stored at a point of the log. -/
def Vouched (log : List Command) (userId digest : Option String) : Prop :=
  ∀ user ∈ userId, ∃ point text record, point <+: log ∧ digest = some text ∧
    (durable.replay point).lookup (.credential text) = some (.credential record) ∧
    record.userId = user ∧ record.revoked = false

/-- The user that a session has named with a credential. -/
def AuthState.named : AuthState → Option String
  | .waiting | .credential _ _ => none
  | .user userId _ | .authenticated userId => some userId
  | .clock record _ => some record.id

/-- A stored credential vouches for the user of a server session. -/
def PolicySession.Attested (log : List Command) (session : PolicySession) : Prop :=
  session.role = .server → Vouched log session.auth.named session.credentialDigest

/-- Stored credentials vouch for the users of all sessions and flows. -/
structure Attested (log : List Command) (s : State) : Prop where
  sessions : s.sessions.All fun _ => PolicySession.Attested log
  flows : s.flows.All fun _ flow => Vouched log flow.userId flow.credentialDigest
  datagramFlows : s.datagramFlows.All fun _ flow => Vouched log flow.userId flow.credentialDigest

section Sessions

variable (held : s.sessions.All fun _ => PolicySession.Attested log)
include held

/-- Changes of a session that leave its user alone, or forget it. -/
theorem attested_put {handle : Nat} {session next : PolicySession}
    (found : s.sessions.lookup handle = some session) (role : next.role = session.role)
    (named : next.auth.named = none ∨ next.auth.named = session.auth.named ∧
      next.credentialDigest = session.credentialDigest) :
    Table.All (fun _ => PolicySession.Attested log) (s.sessions.insert handle next) := by
  refine held.insert fun server => ?_
  rcases named with none | ⟨same, digest⟩
  · simp [Vouched, none]
  · rw [same, digest]
    exact held _ _ found (role ▸ server)

theorem Path.attested (path : Path env s obs t) :
    t.sessions.All fun _ => PolicySession.Attested log := by
  induction path with
  | refl => exact held
  | step change _ ih =>
    refine ih ?_
    cases change with
    | acknowledged _ _ _ _ _ _ _ applied => exact held.sub applied.sessions
    | tuned _ _ _ found => exact attested_put held found rfl (.inr ⟨rfl, rfl⟩)
    | denied _ found | presented _ found => exact attested_put held found rfl (.inl rfl)
    | dropped => exact held.sub (.erase _ _)
    | named _ _ client => exact held.insert fun server => by simp [client] at server
    | closed => exact .empty
    | _ => exact held

/-- A login names a user only after the table has answered with a credential of that user. -/
theorem Move.attested (move : Move env s event obs t) (tickets : Tickets env s)
    (within : durable.Within log (s.storage.commands.zip s.storage.replies)) :
    t.sessions.All fun _ => PolicySession.Attested log := by
  cases move with
  | finished => exact held
  | pumped => exact held
  | quiet path => exact path.attested held
  | loud path loud =>
    rw [loud.sessions]
    exact path.attested held
  | begun _ begun =>
    cases begun with
    | @lookedUp _ session digest reply credential found auth replied _ valid =>
      -- The reply is that to the read of this credential, given at a point of the log.
      have asked := (tickets.sessions _ _ found).asked
      rw [auth] at asked
      rcases within _ _ (List.mem_of_getElem?
        (List.getElem?_zip_eq_some.mpr ⟨asked.2.2, replied⟩)) with refusal | ⟨point, past, allowed⟩
      · cases refusal
      refine held.insert fun _ userId is => ?_
      cases is
      exact ⟨point, digest, credential, past, asked.2.1,
        by simpa [durable, answer, eq_comm] using allowed, rfl, valid⟩
    | clocked found auth _ _ same =>
      exact attested_put held found rfl (.inr ⟨by simp [auth, AuthState.named, same], rfl⟩)
  | login _ login path =>
    refine path.attested ?_
    cases login with
    | direct found auth _ _ same =>
      exact attested_put held found rfl (.inr ⟨by simp [auth, AuthState.named, same], rfl⟩)
    | confirmed found auth =>
      exact attested_put held found rfl (.inr ⟨by simp [auth, AuthState.named], rfl⟩)
  | host host =>
    cases host with
    | @joined _ _ _ _ session _ waiting =>
      exact held.insert fun _ => by simp [Vouched, waiting, AuthState.named]
    | admitted _ found | consumed _ found | streamed _ found | datagrammed _ found =>
      exact attested_put held found rfl (.inr ⟨rfl, rfl⟩)
    | _ => exact held

end Sessions

theorem Attested.move (attested : Attested log s) (move : Move env s event obs t)
    (tickets : Tickets env s)
    (within : durable.Within log (s.storage.commands.zip s.storage.replies)) : Attested log t := by
  have owned {userId digest : Option String} (owned : Owned s userId digest) :
      Vouched log userId digest := by
    obtain ⟨handle, session, user, found, serves, rfl⟩ := owned
    have known := attested.sessions _ _ found serves.role
    rwa [serves.auth, serves.digest] at known
  obtain ⟨streams, datagrams⟩ := move.flow_origin tickets
  refine ⟨move.attested attested.sessions tickets within, ?_, ?_⟩
  · intro handle flow found
    rcases streams handle flow found with ⟨old, there, _, user, digest⟩ | ⟨none, _⟩ | mine
    · exact user ▸ digest ▸ attested.flows _ _ there
    · simp [Vouched, none]
    · exact owned mine
  · intro handle flow found
    rcases datagrams handle flow found with ⟨old, there, _, user, digest⟩ | ⟨none, _⟩ | mine
    · exact user ▸ digest ▸ attested.datagramFlows _ _ there
    · simp [Vouched, none]
    · exact owned mine

theorem run_attested (run : (machine env).Run Fresh guard history world) :
    ∀ log, executed history <+: log → world.Holds (Attested log) := by
  -- Over every longer log, so that the points of the past stay points while the log grows.
  refine machine_invariant (fun history world => ∀ log, executed history <+: log →
    world.Holds (Attested log)) (fun _ _ => trivial) ?_ run
  intro history world event obs next before attested _ advance log past
  rw [executed_append] at past
  replace past := (List.prefix_append _ _).trans past
  cases advance with
  | idle => exact attested log past
  | started ok =>
    have started := initializeInstance_started ok
    constructor
    · rw [started.sessions]; exact .empty
    · rw [started.flows]; exact .empty
    · rw [started.datagramFlows]; exact .empty
  | moved move =>
    have within := (run_traced before).2.serial.within.mono past
    exact (attested log past).move move (run_tickets before) within
  | stopped | crashed => trivial

/-- Whatever was forwarded for a user was vouched for before. -/
def Accountable (history : List Obs) : Prop :=
  ∀ before handle userId toMux toStack after,
    history = before ++ .pumped (.forwarded handle (some userId) toMux toStack) :: after →
    ∃ digest, Vouched (executed before) (some userId) digest

theorem run_accountable (run : (machine env).Run Fresh guard history world) :
    Accountable history := by
  refine machine_invariant (fun history _ => Accountable history) (by simp [Accountable]) ?_ run
  intro history world event obs next earlier accountable _ advance before handle userId toMux
    toStack after split
  rcases append_eq_append_cons split with ⟨rest, old, _⟩ | ⟨rest, rfl, new⟩
  · exact accountable _ _ _ _ _ _ old
  have shown : .pumped (.forwarded handle (some userId) toMux toStack) ∈ obs := by simp [new]
  -- What a pump pass forwards belongs to a flow of the process, whether or not the pass ends.
  have pumped {s : State} {input : PumpInput} (attested : Attested (executed (history ++ rest)) s)
      (moved : .forwarded handle (some userId) toMux toStack ∈ (s.pumpFlows input).2) :
      ∃ digest, Vouched (executed (history ++ rest)) (some userId) digest := by
    rcases State.pumpFlows_forwarded moved with ⟨flow, found, mine⟩ | ⟨flow, found, mine⟩
    · rw [← mine]
      exact ⟨_, attested.flows _ _ found⟩
    · rw [← mine]
      exact ⟨_, attested.datagramFlows _ _ found⟩
  have attested := run_attested earlier (executed (history ++ rest)) (by simp)
  cases advance with
  | idle | started | stopped => simp at shown
  | moved move =>
    rcases move.pumpEvents_eq with none | ⟨input, _, _, rfl, _⟩
    · simp [← mem_pumpEvents, none] at shown
    · rw [← mem_pumpEvents, pumpEvents_pumped] at shown
      exact pumped attested shown
  | crashed pumping =>
    obtain ⟨input, moved⟩ := crashObs_pumped shown
    exact pumped attested moved

section Outcome

variable (env : Env) (events : List Event)

/-- The history and the world that events lead to, from nothing stored and nothing running. -/
def outcome : List Obs × World :=
  (machine env).execute ([], .down ∅) events

theorem outcome_run : (machine env).Run Fresh (fun _ _ _ => True) (outcome env events).1
    (outcome env events).2 :=
  .unguarded (.start (show Fresh _ from rfl)) events

/--
The durable table is what the executed commands have made of it, across every crash and restart.
The replies of a running worker are the answers of that table, in the order of the commands.
-/
theorem storage_serial :
    (outcome env events).2.store = durable.replay (executed (outcome env events).1) ∧
      (outcome env events).2.Holds fun s => durable.Serial (executed (outcome env events).1)
        (s.storage.commands.zip s.storage.replies) := by
  obtain ⟨stored, traced⟩ := run_traced (outcome_run env events)
  refine ⟨stored, ?_⟩
  cases reached : (outcome env events).2 with
  | down => trivial
  | up =>
    rw [reached] at traced
    exact traced.serial

/-- In every reachable state an unrevoked credential vouches for every session and flow. -/
theorem sessions_vouched :
    (outcome env events).2.Holds (Attested (executed (outcome env events).1)) :=
  run_attested (outcome_run env events) _ (List.prefix_refl _)

/-- Every byte that was forwarded for a user was forwarded with a credential that was stored. -/
theorem forwarding_vouched : Accountable (outcome env events).1 :=
  run_accountable (outcome_run env events)

/-- In every reachable state every awaited reply is the reply to what was asked. -/
theorem replies_matched : (outcome env events).2.Holds (Tickets env) :=
  run_tickets (outcome_run env events)

/-- In every reachable state the cached credentials and rules are the durable ones. -/
theorem cache_coherent : (outcome env events).2.Holds Coherent :=
  run_coherent (outcome_run env events)

end Outcome

end Snolc.Policy
