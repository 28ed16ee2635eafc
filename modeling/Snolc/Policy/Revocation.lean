import Snolc.Policy.Calls
import Snolc.Policy.Coherence
import Snolc.Policy.Register

/-! A revoked credential opens nothing until it is stored again. -/

namespace Snolc.Policy

open StorageWorker

def PendingWrite.Revokes (env : Env) (digest : String) (write : PendingWrite) : Prop :=
  ∃ clientId seq, write.asked env = some (.credentialRevoke clientId seq digest)

variable (digest : String)

/-- The worker has stored the credential as one that may be used. -/
def Obs.Grants : Obs → Prop
  | .executed (.apply changes) => ∃ record,
      written (.credential digest) changes = some (some (.credential record)) ∧
        record.revoked = false
  | _ => False

/-- A session that presented the credential waits for its record, which does not let it in. -/
def PolicySession.Rejects (replies : List Reply) (session : PolicySession) : Prop :=
  session.role = .server → session.credentialDigest = some digest →
    match session.auth with
    | .waiting => True
    | .credential _ reply => ∀ record,
        replies[reply]? = some (.value (some (.credential record))) → record.revoked = true
    | _ => False

/-- The credential opens nothing. -/
structure Banned (digest : String) (s : State) : Prop where
  store : ∀ record, s.storage.store.lookup (.credential digest) = some (.credential record) →
    record.revoked = true
  sessions : s.sessions.All fun _ => PolicySession.Rejects digest s.storage.replies
  flows : s.flows.All fun _ flow => flow.credentialDigest ≠ some digest
  datagramFlows : s.datagramFlows.All fun _ flow => flow.credentialDigest ≠ some digest

variable {obs history before after : List Obs} {write : PendingWrite}

section Banned

variable {env : Env} {digest : String} {s t : State}

namespace Banned

variable (banned : Banned digest s)
include banned

theorem sub (queues : Queues s.storage t.storage)
    (sessions : Table.Sub t.sessions s.sessions) (flows : Table.Sub t.flows s.flows)
    (datagramFlows : Table.Sub t.datagramFlows s.datagramFlows) : Banned digest t where
  store := by
    rw [queues.store]
    exact banned.store
  sessions := by
    rw [queues.replies]
    exact banned.sessions.sub sessions
  flows := banned.flows.sub flows
  datagramFlows := banned.datagramFlows.sub datagramFlows

theorem frame (queues : Queues s.storage t.storage)
    (sessions : t.sessions = s.sessions) (flows : t.flows = s.flows)
    (datagramFlows : t.datagramFlows = s.datagramFlows) : Banned digest t :=
  banned.sub queues (sessions ▸ .refl _) (flows ▸ .refl _) (datagramFlows ▸ .refl _)

theorem rejects {handle : Nat} {session old : PolicySession}
    (found : s.sessions.lookup handle = some old) (role : session.role = old.role)
    (presented : session.credentialDigest = old.credentialDigest)
    (auth : session.auth = old.auth) : session.Rejects digest s.storage.replies := by
  have rejects := banned.sessions handle old found
  unfold PolicySession.Rejects at rejects ⊢
  rwa [role, presented, auth]

theorem unpresented {handle : Nat} {session : PolicySession}
    (found : s.sessions.lookup handle = some session) (server : session.role = .server)
    (further : session.auth ≠ .waiting ∧ ∀ other reply, session.auth ≠ .credential other reply) :
    session.credentialDigest ≠ some digest := by
  intro presented
  have rejects := banned.sessions handle session found server presented
  cases auth : session.auth with
  | waiting => exact further.1 auth
  | credential other reply => exact further.2 other reply auth
  | user | clock | authenticated => simp [auth] at rejects

end Banned

/-- Quiet changes do not let the credential in. -/
theorem Quiet.banned (change : Quiet env s obs t) (tickets : Tickets env s)
    (banned : Banned digest s) : Banned digest t := by
  have queues := change.queues
  cases change with
  | acknowledged _ _ _ _ _ _ _ applied =>
    exact banned.sub queues applied.sessions applied.flows applied.datagramFlows
  | cut =>
    exact banned.sub queues (.refl _) (.retain _ _) (.retain _ _)
  | tuned channel subscribed lastStatus found =>
    exact { banned with sessions := banned.sessions.insert (banned.rejects found rfl rfl rfl) }
  | denied =>
    exact { banned with sessions := banned.sessions.insert fun _ _ => trivial }
  | dropped => exact banned.sub queues (.erase _ _) (.refl _) (.refl _)
  | presented =>
    -- The record of a credential that is presented now has still to be read.
    refine { banned with sessions := banned.sessions.insert fun _ _ record answered => ?_ }
    have unanswered : s.storage.replies[s.storage.commands.length]? = none :=
      List.getElem?_eq_none tickets.queue.answered
    simp [unanswered] at answered
  | named userId found client =>
    refine { banned with sessions := banned.sessions.insert fun server _ => ?_ }
    simp [client] at server
  | closed => exact banned.sub (.refl _) (.empty _) (.empty _) (.empty _)
  | _ => exact banned.frame queues rfl rfl rfl

theorem Loud.banned {event : Event} (change : Loud env event s t) (banned : Banned digest s) :
    Banned digest t := by
  cases change <;> exact banned.frame (.push _ _) rfl rfl rfl

theorem Begun.banned (change : Begun s t) (banned : Banned digest s) : Banned digest t := by
  cases change with
  | @lookedUp handle session other reply credential found auth answered named usable =>
    refine { banned with sessions := banned.sessions.insert fun server presented => ?_ }
    -- The record that has arrived for it would be a revoked one.
    have rejects := banned.sessions handle session found server presented
    simp only [auth] at rejects
    simp [rejects credential answered] at usable
  | @clocked handle session userId reply utc stored user found auth =>
    refine { banned with sessions := banned.sessions.insert fun server presented => ?_ }
    exact banned.unpresented found server (by simp [auth]) presented

theorem Login.banned (change : Login s t) (banned : Banned digest s) : Banned digest t := by
  cases change with
  | direct found auth | confirmed found auth =>
    refine { banned with sessions := banned.sessions.insert fun server presented => ?_ }
    exact banned.unpresented found server (by simp [auth]) presented

theorem Host.banned {event : Event} (change : Host env s event obs t)
    (tickets : Tickets env s) (banned : Banned digest s) : Banned digest t := by
  -- A waiting flow belongs to a session that has proved who it is.
  have waits {handle : Nat} {found : PolicySession} {identity : FlowIdentity}
      {rest : List FlowIdentity} (lookup : s.sessions.lookup handle = some found)
      (pending : found.pendingFlows = identity :: rest) :
      identity.credentialDigest ≠ some digest := by
    obtain ⟨server, auth, same⟩ :=
      (tickets.sessions handle found lookup).owned identity (by simp [pending])
    rw [same]
    exact banned.unpresented lookup server (by simp [auth])
  cases change with
  | refused | skipped => exact banned.frame (.refl _) rfl rfl rfl
  | joined _ _ unpresented =>
    refine { banned with sessions := banned.sessions.insert fun _ presented => ?_ }
    simp [unpresented] at presented
  | admitted _ found | consumed _ found =>
    exact { banned with sessions := banned.sessions.insert (banned.rejects found rfl rfl rfl) }
  | streamed _ found _ pending =>
    exact { banned with
      sessions := banned.sessions.insert (banned.rejects found rfl rfl rfl)
      flows := banned.flows.insert (by simpa [State.newFlow] using waits found pending) }
  | datagrammed _ found _ pending =>
    exact { banned with
      sessions := banned.sessions.insert (banned.rejects found rfl rfl rfl)
      datagramFlows := banned.datagramFlows.insert
        (by simpa [State.newDatagramFlow] using waits found pending) }
  | unmetered => exact { banned with flows := banned.flows.insert (by simp [State.newFlow]) }
  | unmeteredDatagram =>
    exact { banned with
      datagramFlows := banned.datagramFlows.insert (by simp [State.newDatagramFlow]) }

theorem Pumps.banned (pumps : Pumps s t) (banned : Banned digest s) : Banned digest t := by
  obtain ⟨_, _, _, _, _, _, _, _, rest⟩ := pumps.rest
  refine ⟨by rw [rest]; exact banned.store, by rw [rest]; exact banned.sessions, ?_, ?_⟩
  · intro handle flow found
    obtain ⟨old, before, _, _, same⟩ := pumps.flows handle flow found
    rw [same]
    exact banned.flows handle old before
  · intro handle flow found
    obtain ⟨old, before, _, _, same⟩ := pumps.datagramFlows handle flow found
    rw [same]
    exact banned.datagramFlows handle old before

/-- The worker lets the credential in only by storing it again. -/
theorem Banned.finish (banned : Banned digest s) (tickets : Tickets env s) (outcome : Outcome)
    (ungranted : ∀ obs ∈ finishObs s.storage outcome, ¬ obs.Grants digest) :
    Banned digest { s with storage := s.storage.finish outcome } := by
  -- A session that gets its answer now has asked for the record of its credential.
  have grow {reply : Reply} {command : Command} (holds : s.storage.held = some command)
      (fits : command = .get (.credential digest) → ∀ record,
        reply = .value (some (.credential record)) → record.revoked = true) :
      s.sessions.All fun _ =>
        PolicySession.Rejects digest (s.storage.replies ++ [reply]) := by
    intro handle session found server presented
    have rejects := banned.sessions handle session found server presented
    have asked := (tickets.sessions handle session found).asked
    cases auth : session.auth with
    | credential =>
      simp only [auth] at rejects asked
      obtain ⟨_, same, sent⟩ := asked
      rw [presented, Option.some.injEq] at same
      subst same
      intro record answered
      rcases sent_cases answered with old | ⟨here, last⟩
      · exact rejects record old
      · rw [here, held_eq_some holds, Option.some.injEq] at sent
        exact fits sent record last.symm
    | waiting => trivial
    | user | clock | authenticated => simp [auth] at rejects
  generalize finished : s.storage.finish outcome = worker
  have cases := s.storage.finish_cases outcome
  rw [finished] at cases
  cases cases with
  | idle => exact banned
  | stop holds | failed holds => exact { banned with sessions := grow holds (by simp) }
  | @done command holds =>
    refine ⟨fun record stored => ?_, grow holds ?_, banned.flows, banned.datagramFlows⟩
    · rw [lookup_effect] at stored
      cases touched : writes (.credential digest) command with
      | none => exact banned.store record (by simpa [touched] using stored)
      | some =>
        rw [touched, Option.getD_some] at stored
        cases command with
        | apply changes =>
          -- A transaction that stores it as usable is what was ruled out.
          have seen : .executed (.apply changes) ∈ finishObs s.storage .success := by
            simp [finishObs, holds]
          by_contra usable
          rw [Bool.not_eq_true] at usable
          exact ungranted _ seen ⟨record, by rw [← stored]; exact touched, usable⟩
        | put =>
          obtain ⟨userId, user, rfl, rfl⟩ := tickets.queue.puts _ _ _ (held_eq_some holds)
          simp [writes] at touched
        | _ => simp [writes] at touched
    · rintro rfl record answered
      exact banned.store record (by simpa [answer] using answered)

/-- An acknowledged revocation takes everything away that the credential has opened. -/
theorem Banned.begin {utc : Nat} (coherent : Coherent s) (tickets : Tickets env s)
    (pending : s.pendingControl = some (.write write))
    (answered : s.storage.replies[write.reply]? = some .done)
    (revokes : write.Revokes env digest) (applied : State.Applied s write.mutation utc t)
    (storage : t.storage = s.storage) : Banned digest t := by
  obtain ⟨clientId, seq, asked⟩ := revokes
  obtain ⟨request, parsed, _, _, before, input, draft, drafted, same, _⟩ :=
    (tickets.write pending).parsed
  rw [PendingWrite.asked, parsed, Except.toOption, Option.some.injEq] at asked
  subst asked
  cases drafted with
  | @revoked _ _ _ record =>
    -- The executed transaction has stored the credential as revoked.
    have named : write.mutation.credentials =
        [(digest, some { record with revoked := true, revision := record.revision + 1 })] := by
      rw [same]
      rfl
    have touched : written (.credential digest) write.changes = some (some (.credential
        { record with revoked := true, revision := record.revision + 1 })) := by
      rw [write.written_mutation (by simp), write.mutation.written_credential, named]
      simp [written]
    have landed := coherent.landed write _ _ pending answered (by simp) touched
    have gone := applied.revoked digest (by simp [AdminMutation.revokedCredentials, named])
    refine ⟨fun found stored => ?_, fun handle session found _ presented => ?_, gone.1, gone.2.1⟩
    · rw [storage] at stored
      have both := landed.symm.trans stored
      rw [Option.some.injEq, Value.credential.injEq] at both
      rw [← both]
    · exact absurd presented (gone.2.2 handle session found)
  | rewritten _ rewritten => cases rewritten

/-- What an acknowledged revocation promises. -/
def Revoked (env : Env) (digest : String) (history : List Obs) (s : State) : Prop :=
  ∀ before write after, history = before ++ .acknowledged write :: after →
    write.Revokes env digest → (∀ obs ∈ after, ¬ obs.Grants digest) → Banned digest s

theorem Revoked.extend (revoked : Revoked env digest history s)
    (silent : ∀ write, .acknowledged write ∉ obs)
    (keeps : (∀ o ∈ obs, ¬ o.Grants digest) → Banned digest s → Banned digest t) :
    Revoked env digest (history ++ obs) t := by
  intro before write after split revokes ungranted
  rcases append_eq_append_cons split with ⟨rest, passed, rfl⟩ | ⟨rest, _, now⟩
  · refine keeps (fun o member => ungranted o (by simp [member])) ?_
    exact revoked before write rest passed revokes fun o member => ungranted o (by simp [member])
  · exact absurd (by simp [now]) (silent write)

theorem Quiet.revoked (change : Quiet env s obs t)
    (tickets : Tickets env s) (coherent : Coherent s) (revoked : Revoked env digest history s) :
    Revoked env digest (history ++ obs) t := by
  have keeps (banned : Banned digest s) : Banned digest t := change.banned tickets banned
  cases change with
  | noted obs plain =>
    refine revoked.extend (fun write member => ?_) fun _ => keeps
    rw [List.mem_singleton] at member
    simp [← member, Obs.plain] at plain
  | acknowledged _ _ _ _ pending answered _ applied =>
    intro before other after split revokes ungranted
    rcases snoc_eq_append_cons split with ⟨_, same, _⟩ | ⟨rest, rfl, passed⟩
    · rw [Obs.acknowledged.injEq] at same
      exact .begin coherent tickets pending answered (same ▸ revokes) { applied with } rfl
    · refine keeps (revoked before other rest passed revokes fun o member => ?_)
      exact ungranted o (by simp [member])
  | _ => exact revoked.extend (by simp) fun _ => keeps

theorem Path.revoked (path : Path env s obs t)
    (tickets : Tickets env s) (seqs : Sequences history s) (coherent : Coherent s)
    (revoked : Revoked env digest history s) : Revoked env digest (history ++ obs) t := by
  induction path generalizing history with
  | refl => simpa using revoked
  | step change _ ih =>
    rw [← List.append_assoc]
    exact ih (change.tickets tickets) (change.sequences seqs)
      (change.coherent tickets seqs coherent) (change.revoked tickets coherent revoked)

theorem Move.revoked {event : Event} (move : Move env s event obs t)
    (tickets : Tickets env s) (seqs : Sequences history s) (coherent : Coherent s)
    (revoked : Revoked env digest history s) : Revoked env digest (history ++ obs) t := by
  cases move with
  | @finished outcome =>
    refine revoked.extend (fun write member => ?_) fun ungranted banned =>
      banned.finish tickets _ ungranted
    cases outcome <;> simp [finishObs] at member
  | pumped _ rest =>
    refine revoked.extend (by simp) fun _ => Pumps.banned (rest ▸ s.pumpFlows_pumps _)
  | quiet path => exact path.revoked tickets seqs coherent revoked
  | loud path loud =>
    have kept := path.revoked tickets seqs coherent revoked
    intro before write after split revokes ungranted
    exact loud.banned (kept before write after split revokes ungranted)
  | begun _ begun => exact revoked.extend (by simp) fun _ banned => begun.banned banned
  | login _ login path =>
    have proved : Revoked env digest (history ++ []) _ :=
      revoked.extend (by simp) fun _ banned => login.banned banned
    rw [List.append_nil] at proved
    exact path.revoked (login.tickets tickets) (login.sequences seqs) (login.coherent coherent)
      proved
  | host host =>
    refine revoked.extend (fun write member => ?_) fun _ banned => host.banned tickets banned
    cases host <;> simp at member

end Banned

/-- The credential opens nothing, in every world. -/
def World.Banned : World → Prop
  | .down store => ∀ record, store.lookup (.credential digest) = some (.credential record) →
      record.revoked = true
  | .up _ s => Policy.Banned digest s

/-- An acknowledged revocation keeps the credential out along every run, until it is stored. -/
theorem run_banned {env : Env} {digest : String} {guard : List Obs → World → Event → Prop}
    {world : World} (run : (machine env).Run Fresh guard history world)
    (split : history = before ++ .acknowledged write :: after)
    (revokes : write.Revokes env digest) (ungranted : ∀ obs ∈ after, ¬ obs.Grants digest) :
    world.Banned digest := by
  revert before after write
  refine machine_invariant (fun history world =>
    ∀ {before after : List Obs} {write : PendingWrite},
      history = before ++ .acknowledged write :: after → write.Revokes env digest →
      (∀ obs ∈ after, ¬ obs.Grants digest) → world.Banned digest) (by simp) ?_ run
  intro history world event obs next earlier banned _ advance before after write split revokes
    ungranted
  have tickets := run_tickets earlier
  have seqs := run_sequences earlier
  have coherent := run_coherent earlier
  cases advance with
  | idle => exact banned (by simpa using split) revokes ungranted
  | started ok =>
    have started := initializeInstance_started ok
    have store := banned (by simpa using split) revokes ungranted
    refine ⟨?_, ?_, ?_, ?_⟩
    · rw [started.store]
      exact store
    · rw [started.sessions]
      exact .empty
    · rw [started.flows]
      exact .empty
    · rw [started.datagramFlows]
      exact .empty
  | moved move =>
    exact move.revoked tickets seqs coherent
      (fun _ _ _ split revokes ungranted => banned split revokes ungranted) _ _ _ split revokes
      ungranted
  | stopped _ path =>
    have store := (banned (by simpa using split) revokes ungranted).store
    intro record stored
    exact store record (path.queues.store ▸ stored)
  | @crashed phase s pumping =>
    rcases append_eq_append_cons split with ⟨rest, passed, rfl⟩ | ⟨rest, _, now⟩
    · exact (banned passed revokes fun o member => ungranted o (by simp [member])).store
    have seen : .acknowledged write ∈ crashObs s phase pumping := by
      rw [now]
      simp
    rcases mem_crashObs seen with same | ⟨event, same⟩
    · simp at same
    · simp at same

/--
Revocation is final until the credential is stored again.
No session that has presented it is authenticated, no flow was opened with it, and a session that
waits for its record is refused.
-/
theorem revokedCredential_refused {env : Env} {digest : String}
    {world : World} (run : (machine env).Run Fresh (fun _ _ _ => True) history world)
    (split : history = before ++ .acknowledged write :: after)
    (revokes : write.Revokes env digest) (ungranted : ∀ obs ∈ after, ¬ obs.Grants digest) :
    world.Holds fun s =>
      (s.sessions.All fun _ session => session.role = .server →
        session.credentialDigest = some digest → ∀ userId, session.auth ≠ .authenticated userId) ∧
      (s.flows.All fun _ flow => flow.credentialDigest ≠ some digest) ∧
      (s.datagramFlows.All fun _ flow => flow.credentialDigest ≠ some digest) ∧
      s.sessions.All fun _ session => ∀ reply, session.auth = .credential digest reply →
        ∃ result, advanceCredential s session digest reply = (s, result) ∧
          result ∈ [session.queueDenied "credential-revoked",
            session.queueDenied "credential-unknown", .error .io, .ok session] := by
  have banned := run_banned run split revokes ungranted
  have tickets := run_tickets run
  cases world with
  | down => trivial
  | up phase s =>
    have banned : Banned digest s := banned
    refine ⟨fun handle session found server presented userId auth => ?_, banned.flows,
      banned.datagramFlows, fun handle session found reply auth => ?_⟩
    · exact banned.unpresented found server (by simp [auth]) presented
    · -- The session has asked for the record, and any that arrives is a revoked one.
      have asked := (tickets.sessions handle session found).asked
      simp only [auth] at asked
      have rejects := banned.sessions handle session found asked.1 asked.2.1
      simp only [auth] at rejects
      unfold advanceCredential
      split
      · next record answered =>
        have revoked := rejects record (tryRecv_ok.mp answered)
        simp [revoked]
      all_goals simp

open Deployment

instance (obs : Obs) : Decidable (obs.Grants digest) :=
  decidable_of_iff
    ((match obs with
      | .executed (.apply changes) =>
        match written (.credential digest) changes with
        | some (some (.credential record)) => !record.revoked
        | _ => false
      | _ => false) = true) <| by
    unfold Obs.Grants
    split
    · split <;> simp_all
    · simp_all

def revokeCredential : Sample where
  lines :=
    ["method = \"credential.revoke\"", "client_id = \"panel\"", "seq = 3",
      "credential_sha256 = \"66687aadf862bd776c8fc18b8e9f8e20089714856ee233b3902a591d0d5f2925\""]
  digest := 0xf6ccd6de31358fd5d943f0e28e2d122e0633cb150d031d59ef15939abe6be58f
  request := .credentialRevoke "panel" 3 credentialSha256

/-- The credential is revoked while a session of it is authenticated, and presented again. -/
def revocation : List Event :=
  setup options ++ login ++ revokeCredential.issue ++ [connect] ++ poll 0 [present 20] ++ worked

/-- The session that presents the revoked credential again is refused. -/
theorem revokedCredential_refused_again :
    (machine (libraries [revokeCredential])).Run Fresh (fun _ _ _ => True)
        (reached [revokeCredential] revocation).1 (reached [revokeCredential] revocation).2 ∧
      ∀ phase s, (reached [revokeCredential] revocation).2 = .up phase s →
        s.sessions.All fun _ session => ∀ reply,
          session.auth = .credential credentialSha256 reply →
          ∃ result, advanceCredential s session credentialSha256 reply = (s, result) ∧
            result ∈ [session.queueDenied "credential-revoked",
              session.queueDenied "credential-unknown", .error .io, .ok session] := by
  have run : (machine (libraries [revokeCredential])).Run Fresh (fun _ _ _ => True)
      (reached [revokeCredential] revocation).1 (reached [revokeCredential] revocation).2 :=
    reached_run [revokeCredential] revocation (by decide +kernel)
  have found := @acknowledged_at (libraries [revokeCredential])
    (reached [revokeCredential] revocation).1 17 revokeCredential.request (by decide +kernel)
  have ungranted : ∀ obs ∈ (reached [revokeCredential] revocation).1.drop 18,
      ¬ obs.Grants credentialSha256 := by decide +kernel
  refine ⟨run, fun phase s up => ?_⟩
  obtain ⟨write, split, asked⟩ := found
  rw [up] at run
  exact (revokedCredential_refused run split ⟨"panel", 3, asked⟩ ungranted).2.2.2

/-- The request that deletes the user afterwards. -/
def deleteFirst : Sample where
  lines :=
    ["method = \"user.delete\"", "client_id = \"panel\"", "seq = 4",
      "user_id = \"000102030405060708090a0b0c0d0e0f\"", "expected_revision = 1"]
  digest := 0xc420c1b560080da2ef6a32c1c0a8a54363c034b0cdf17c2b9eacb0fb6a305522
  request := .userDelete "panel" 4 firstUser 1

/-- The request that creates another user. -/
def createSecond : Sample where
  lines :=
    ["method = \"user.create\"", "client_id = \"panel\"", "seq = 5", "[user]",
      "status = \"enabled\"", "burst_bytes = 65507", "weight = 1", "group = \"default\"",
      "rule_profile = \"default\"", "[user.expiration]", "mode = \"at-utc\"", "unix_seconds = 100",
      "[user.quota]", "mode = \"limited\"", "bytes = 1000", "[user.upload_rate]",
      "mode = \"unlimited\"", "[user.download_rate]", "mode = \"unlimited\"",
      "[user.combined_rate]", "mode = \"unlimited\"", "[user.max_sessions]", "mode = \"limited\"",
      "count = 2", "[user.max_flows]", "mode = \"unlimited\"", "[user.weekly_access]",
      "mode = \"unlimited\""]
  digest := 0x57919f49ce9ca50273d1af390e77d9c3f26c660f169ba00c20c89bb616544a09
  request := .userCreate "panel" 5 spec

/-- The request that gives the credential to the other user. -/
def addToSecond : Sample where
  lines :=
    ["method = \"credential.add\"", "client_id = \"panel\"", "seq = 6",
      "user_id = \"101112131415161718191a1b1c1d1e1f\"",
      "credential_sha256 = \"66687aadf862bd776c8fc18b8e9f8e20089714856ee233b3902a591d0d5f2925\""]
  digest := 0x2dafd6d10f5232a9a93754a3194e6462fe59d367824211dd6a13bab85443747b
  request := .credentialAdd "panel" 6 secondUser credentialSha256

/-- The requests of the run below. -/
def regrantRequests : List Sample :=
  [revokeCredential, deleteFirst, createSecond, addToSecond]

/-- The credential is given to another user, which uses it before this is acknowledged. -/
def regranting : List Event :=
  setup options ++ revokeCredential.issue ++ deleteFirst.issue ++
    createSecond.call 10 (some otherEntropy) :: worked ++
    [createSecond.call 10 none, addToSecond.call 10 none] ++ worked ++ login

/--
What makes the credential usable again is its execution, not its acknowledgement.
The last acknowledged request about the credential is its revocation, and a session that has
presented it is authenticated.
-/
theorem revokedCredential_regranted :
    (machine (libraries regrantRequests)).Run Fresh (fun history _ event => Reliable history event)
        (reached regrantRequests regranting).1 (reached regrantRequests regranting).2 ∧
      acknowledgedRequests (libraries regrantRequests) (reached regrantRequests regranting).1 =
        [some createUser.request, some addCredential.request, some revokeCredential.request,
          some deleteFirst.request, some createSecond.request] ∧
      (reached regrantRequests regranting).2.Holds fun s =>
        ∃ handle session, s.sessions.lookup handle = some session ∧ session.role = .server ∧
          session.credentialDigest = some credentialSha256 ∧
          session.auth = .authenticated secondUser :=
  ⟨reached_run regrantRequests regranting (by decide +kernel), by decide +kernel⟩

end Snolc.Policy
