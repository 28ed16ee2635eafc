import Snolc.Policy.Flows
import Snolc.Policy.Mutation

/-! A user that was disabled or deleted is kept out until an administrator lets it in again. -/

namespace Snolc.Policy

variable {env : Env} {userId : String} {s t : State} {obs history : List Obs}

/-- Nothing of a user is left: no session that serves it, and no flow. -/
structure State.Shut (userId : String) (s : State) : Prop where
  sessions : ∀ handle session digest, s.sessions.lookup handle = some session →
    ¬ session.Serves userId digest
  flows : s.flows.All fun _ flow => flow.userId ≠ some userId
  datagramFlows : s.datagramFlows.All fun _ flow => flow.userId ≠ some userId

theorem State.Shut.keep (shut : s.Shut userId) (serving : KeepsServing s t)
    (fewer : FewerFlows s t) : t.Shut userId where
  sessions handle session digest found serves := by
    obtain ⟨old, there, served⟩ := serving handle session userId digest found serves
    exact shut.sessions handle old digest there served
  flows := shut.flows.sub fewer.streams
  datagramFlows := shut.datagramFlows.sub fewer.datagrams

theorem Path.shut (path : Path env s obs t) (shut : s.Shut userId) : t.Shut userId :=
  shut.keep path.keepsServing path.fewerFlows

theorem Move.shut {event : Event} (move : Move env s event obs t) (tickets : Tickets env s)
    (out : ∀ mid, Login s mid → mid.Shut userId) (shut : s.Shut userId) : t.Shut userId := by
  obtain ⟨streams, datagrams⟩ := move.flow_origin tickets
  have unowned {owner digest : Option String} (owned : Owned s owner digest) :
      owner ≠ some userId := by
    rintro rfl
    obtain ⟨handle, session, user, found, serves, same⟩ := owned
    rw [Option.some.injEq] at same
    exact shut.sessions handle session digest found (same ▸ serves)
  rcases move.keepsServing with serving | ⟨_, mid, _, _, login, path⟩
  · refine ⟨fun handle session digest found serves => ?_, fun handle flow found => ?_,
      fun handle flow found => ?_⟩
    · obtain ⟨old, there, served⟩ := serving handle session userId digest found serves
      exact shut.sessions handle old digest there served
    · rcases streams handle flow found with ⟨old, there, _, same, _⟩ | ⟨free, _⟩ | owned
      · rw [same]
        exact shut.flows handle old there
      · simp [free]
      · exact unowned owned
    · rcases datagrams handle flow found with ⟨old, there, _, same, _⟩ | ⟨free, _⟩ | owned
      · rw [same]
        exact shut.datagramFlows handle old there
      · simp [free]
      · exact unowned owned
  · exact path.shut (out mid login)

/-- A user whose record keeps it out is not let in. -/
theorem Login.shut {mid : State} {register : Register} (login : Login s mid)
    (ledger : Ledger register.views userId s) (closed : Closed register.known)
    (shut : s.Shut userId) : mid.Shut userId := by
  -- The record of the session is a copy of one that is not enabled.
  have refuse {user : UserRecord} (same : user.id = userId) (enabled : user.spec.status = .enabled)
      (shows : Shows register.known (some user)) : False := by
    have disabled := closed user.version (by rw [← shows]; rfl)
    rw [show user.version.spec.status = user.spec.status from rfl, enabled] at disabled
    simp at disabled
  have other {handle : Nat} {session : PolicySession} {name : String}
      (different : name ≠ userId) :
      State.Shut userId { s with
        sessions := s.sessions.insert handle { session with auth := .authenticated name } } := by
    refine ⟨fun other found digest there serves => ?_, shut.flows, shut.datagramFlows⟩
    rcases Table.of_lookup_insert there with ⟨_, rfl⟩ | ⟨_, old⟩
    · exact different (by simpa using serves.auth)
    · exact shut.sessions other found digest old serves
  cases login with
  | @direct handle session name reply utc stored user found auth answered decoded named
      available =>
    by_cases mine : user.id = userId
    · have copy := ledger.userCopy found (by rw [auth, ← named, mine])
      have enabled : user.spec.status = .enabled := by
        by_contra disabled
        simp [userAvailableAt, userAccessAllowedAt, disabled] at available
      cases register with
      | still => exact (refuse mine enabled (copy.decoded answered decoded)).elim
      | moving => exact copy.1.elim
    · exact { other mine with }
  | @confirmed handle session user reply found auth =>
    by_cases mine : user.id = userId
    · have copy := ledger.clockCopy found auth mine
      cases register with
      | still => exact (refuse mine copy.2 copy.1).elim
      | moving => exact copy.elim
    · exact { other mine with }

theorem AdminMutation.mem_stoppedUsers {mutation : AdminMutation} {record : Option UserRecord}
    (named : (userId, record) ∈ mutation.users)
    (disabled : ∀ user, record = some user → user.spec.status = .disabled) (utc : Nat) :
    userId ∈ mutation.stoppedUsers utc := by
  refine List.mem_filterMap.mpr ⟨(userId, record), named, ?_⟩
  cases record with
  | none => rfl
  | some user => simp [userAvailableAt, userAccessAllowedAt, disabled user rfl]

theorem WriteOk.bars {commands : List Command} {write : PendingWrite}
    (ok : WriteOk env commands write) (bars : write.Bars env userId) :
    ∃ record, (userId, record) ∈ write.mutation.users ∧
      ∀ user, record = some user → user.spec.status = .disabled := by
  obtain ⟨request, parsed, _, names, before, input, draft, drafted, same, _⟩ := ok.parsed
  obtain ⟨clientId, seq, revision, bars⟩ := bars
  simp only [PendingWrite.asked, parsed, Except.toOption, Option.some.injEq] at bars
  obtain ⟨record, member⟩ := names userId (by rcases bars with rfl | rfl <;> rfl)
  refine ⟨record, member, ?_⟩
  rw [same] at member
  rintro user rfl
  rcases bars with rfl | rfl
  · cases drafted with
    | rewritten cached rewritten =>
      cases rewritten
      simp only [putUser, List.mem_singleton, Prod.mk.injEq, Option.some.injEq] at member
      rw [member.2]
  · cases drafted with
    | rewritten cached rewritten => cases rewritten
    | deleted => simp at member

variable {barring : PendingWrite}

theorem Quiet.barred (change : Quiet env s obs t)
    (tickets : Tickets env s) (acknowledged : .acknowledged barring ∈ obs)
    (bars : barring.Bars env userId) : t.Shut userId := by
  cases change with
  | noted obs plain =>
    rw [List.mem_singleton] at acknowledged
    simp [← acknowledged, Obs.plain] at plain
  | acknowledged utc _ _ _ pending _ _ applied =>
    rw [List.mem_singleton, Obs.acknowledged.injEq] at acknowledged
    subst acknowledged
    obtain ⟨record, named, disabled⟩ := (tickets.write pending).bars bars
    have stopped := AdminMutation.mem_stoppedUsers named disabled utc
    obtain ⟨_, flows, datagrams, sessions⟩ := applied.stopped userId stopped
    refine ⟨fun handle session digest found serves => ?_, flows, datagrams⟩
    exact sessions handle session found (by simp [PolicySession.userId, serves.auth])
  | _ => simp at acknowledged

theorem Path.barred (path : Path env s obs t) (tickets : Tickets env s)
    (acknowledged : .acknowledged barring ∈ obs) (bars : barring.Bars env userId) :
    t.Shut userId := by
  induction path with
  | refl => simp at acknowledged
  | step change rest ih =>
    rcases List.mem_append.mp acknowledged with now | later
    · exact rest.shut (change.barred tickets now bars)
    · exact ih (change.tickets tickets) later

theorem Move.barred {event : Event} (move : Move env s event obs t)
    (tickets : Tickets env s) (acknowledged : .acknowledged barring ∈ obs)
    (bars : barring.Bars env userId) : t.Shut userId ∧ pumpEvents obs = [] := by
  have silent : pumpEvents obs = [] := by
    rcases move.pumpEvents_eq with still | ⟨_, _, _, rfl, _⟩
    · exact still
    · simp at acknowledged
  refine ⟨?_, silent⟩
  cases move with
  | @finished outcome =>
    unfold finishObs at acknowledged
    cases outcome <;> simp at acknowledged
  | pumped | begun | login => simp at acknowledged
  | quiet path => exact path.barred tickets acknowledged bars
  | loud path loud =>
    refine (path.barred tickets acknowledged bars).keep ?_ ?_
    · exact .sub (loud.sessions ▸ .refl _)
    · cases loud <;> exact ⟨.refl _, .refl _, rfl, rfl⟩
  | host host => cases host <;> simp at acknowledged

/-- The end of a process that does not adopt a write which lets the user in. -/
def World.EndsClosed (env : Env) (userId : String) (world : World) (event : Event) : Prop :=
  world.Ends event → world.Holds fun s => ∀ write record,
    s.pendingControl = some (.write write) → (userId, record) ∈ write.mutation.users →
    s.storage.replies[write.reply]? = some .done → ¬ write.Enables env userId

theorem State.Shut.unforwarded (shut : s.Shut userId) {input : PumpInput}
    {handle toMux toStack : Nat} :
    .forwarded handle (some userId) toMux toStack ∉ (s.pumpFlows input).2 := by
  intro moved
  rcases State.pumpFlows_forwarded moved with ⟨flow, found, owned⟩ | ⟨flow, found, owned⟩
  · exact shut.flows handle flow found owned
  · exact shut.datagramFlows handle flow found owned

/-- A user that was disabled or deleted is shut out, and forwards nothing, until it is let in. -/
theorem run_keptOut {world : World} (run : (machine env).Run Fresh (fun history world event =>
      Orderly userId history world event ∧ world.EndsClosed env userId event) history world)
    {before after : List Obs} (split : history = before ++ .acknowledged barring :: after)
    (bars : barring.Bars env userId)
    (unenabled : ∀ write, .acknowledged write ∈ after → ¬ write.Enables env userId) :
    world.Holds (State.Shut userId) ∧ ∀ handle toMux toStack,
      .pumped (.forwarded handle (some userId) toMux toStack) ∉ after := by
  revert before after barring
  refine machine_invariant (fun history world =>
    ∀ {before after : List Obs} {barring : PendingWrite},
      history = before ++ .acknowledged barring :: after → barring.Bars env userId →
      (∀ write, .acknowledged write ∈ after → ¬ write.Enables env userId) →
      world.Holds (State.Shut userId) ∧ ∀ handle toMux toStack,
        .pumped (.forwarded handle (some userId) toMux toStack) ∉ after) (by simp) ?_ run
  intro history world event obs next earlier out guard advance before after barring split bars
    unenabled
  have tickets := run_tickets earlier
  rcases append_eq_append_cons split with ⟨rest, passed, rfl⟩ | ⟨rest, _, now⟩
  · -- The write was acknowledged before this step.
    obtain ⟨shut, silent⟩ := out passed bars fun write member => unenabled write (by simp [member])
    obtain ⟨register, reaches, rep, _⟩ := run_register (fun _ _ _ guard => guard.1)
      (fun _ _ _ guard => guard.2) earlier
    have closed := (reaches.closed (fun _ closed => closed) passed bars
      fun write member => unenabled write (by simp [member])).1
    have quiet (still : ∀ handle toMux toStack,
        .forwarded handle (some userId) toMux toStack ∉ pumpEvents obs)
        (handle toMux toStack : Nat) :
        .pumped (.forwarded handle (some userId) toMux toStack) ∉ rest ++ obs := by
      intro moved
      rcases List.mem_append.mp moved with old | new
      · exact silent handle toMux toStack old
      · exact still handle toMux toStack (mem_pumpEvents.mpr new)
    cases advance with
    | idle => exact ⟨shut, quiet (by simp [pumpEvents])⟩
    | started started =>
      have fresh := initializeInstance_started started
      refine ⟨⟨?_, ?_, ?_⟩, quiet (by simp [pumpEvents])⟩
      · simp [fresh.sessions]
      · rw [fresh.flows]
        exact .empty
      · rw [fresh.datagramFlows]
        exact .empty
    | @moved phase _ s _ _ _ move =>
      have ledger := rep.copies guard.1.alone
      refine ⟨move.shut tickets (fun mid login => login.shut ledger closed shut) shut, quiet ?_⟩
      rcases move.pumpEvents_eq with still | ⟨input, _, _, rfl, _⟩
      · simp [still]
      intro handle toMux toStack moved
      rw [pumpEvents_pumped] at moved
      exact shut.unforwarded moved
    | stopped => exact ⟨trivial, quiet (by simp [pumpEvents])⟩
    | crashed =>
      refine ⟨trivial, quiet fun handle toMux toStack moved => ?_⟩
      obtain ⟨input, passing⟩ := crashObs_pumped (mem_pumpEvents.mp moved)
      exact shut.unforwarded passing
  · -- The write is acknowledged in this step.
    have acknowledged : .acknowledged barring ∈ obs := by simp [now]
    cases advance with
    | moved move =>
      obtain ⟨shut, silent⟩ := move.barred tickets acknowledged bars
      refine ⟨shut, fun handle toMux toStack moved => ?_⟩
      have there : .forwarded handle (some userId) toMux toStack ∈ pumpEvents obs :=
        mem_pumpEvents.mpr (by simp [now, moved])
      simp [silent] at there
    | crashed => rcases mem_crashObs acknowledged with same | ⟨_, same⟩ <;> simp at same
    | _ => simp at acknowledged

/--
A user that was disabled or deleted is kept out until an acknowledged update lets it in.

No session of the server serves it, nothing is admitted for it, no byte of it is forwarded, and a
record that was deleted stays deleted.
-/
theorem barredUser_keptOut {world : World}
    (run : (machine env).Run Fresh (fun history world event =>
      Orderly userId history world event ∧ world.EndsClosed env userId event) history world)
    {before after : List Obs} (split : history = before ++ .acknowledged barring :: after)
    (bars : barring.Bars env userId)
    (unenabled : ∀ write, .acknowledged write ∈ after → ¬ write.Enables env userId) :
    (world.Holds fun s => (∀ handle session digest, s.sessions.lookup handle = some session →
        ¬ session.Serves userId digest) ∧
      ∀ handle metadata utc identity,
        s.admission env handle metadata utc = .ok (some identity) → identity.userId ≠ userId) ∧
    (∀ handle toMux toStack,
      .pumped (.forwarded handle (some userId) toMux toStack) ∉ after) ∧ ((∃ clientId seq revision,
      barring.asked env = some (.userDelete clientId seq userId revision)) →
      world.store.lookup (.user userId) = none) := by
  obtain ⟨shut, silent⟩ := run_keptOut run split bars unenabled
  refine ⟨?_, silent, ?_⟩
  · cases world with
    | down => trivial
    | up =>
      refine ⟨shut.sessions, fun handle metadata utc identity admitted same => ?_⟩
      obtain ⟨found, there, server, auth, digest, _⟩ := State.admission_session admitted
      exact shut.sessions handle found _ there ⟨server, same ▸ auth, rfl⟩
  · rintro ⟨clientId, seq, revision, deletes⟩
    obtain ⟨register, reaches, rep, _⟩ := run_register (fun _ _ _ guard => guard.1)
      (fun _ _ _ guard => guard.2) run
    obtain rfl := reaches.deleted split deletes
    cases world with
    | down =>
      obtain ⟨value, record, still, stored, shows⟩ := rep
      rw [Register.still.injEq] at still
      rw [Shows, ← still, Option.map_eq_none_iff] at shows
      rw [shows] at stored
      exact stored
    | up =>
      obtain ⟨record, stored, shows⟩ := rep.store
      rw [Shows, Register.current, Option.map_eq_none_iff] at shows
      rw [shows] at stored
      exact stored

open Deployment

/-- The user has logged in when it is disabled. -/
def disabledAfterLogin : List Event :=
  setup options ++ login ++ disableUser.issue

/-- A user that is disabled while nothing else handles its record is kept out. -/
theorem barredUser_keptOut_disableUser :
    ∃ before barring after,
      (reached [disableUser] disabledAfterLogin).1 = before ++ .acknowledged barring :: after ∧
      barring.asked (libraries [disableUser]) = some disableUser.request ∧
      (∀ handle toMux toStack,
        .pumped (.forwarded handle (some firstUser) toMux toStack) ∉ after) ∧
      ((∃ clientId seq revision, barring.asked (libraries [disableUser]) =
          some (.userDelete clientId seq firstUser revision)) →
        (reached [disableUser] disabledAfterLogin).2.store.lookup (.user firstUser) = none) := by
  have run : (machine (libraries [disableUser])).Run Fresh
      (fun history world event => Orderly firstUser history world event ∧ ¬ world.Ends event)
      (reached [disableUser] disabledAfterLogin).1 (reached [disableUser] disabledAfterLogin).2 :=
    reached_run [disableUser] disabledAfterLogin (by decide +kernel)
  -- The process does not end, so it adopts no write.
  have closed : (machine (libraries [disableUser])).Run Fresh
      (fun history world event => Orderly firstUser history world event ∧
        world.EndsClosed (libraries [disableUser]) firstUser event)
      (reached [disableUser] disabledAfterLogin).1 (reached [disableUser] disabledAfterLogin).2 :=
    run.weaken fun _ _ _ admitted => ⟨admitted.1, fun ends => absurd ends admitted.2⟩
  have requests : acknowledgedRequests (libraries [disableUser])
      (reached [disableUser] disabledAfterLogin).1 =
      [some createUser.request, some addCredential.request] ++
        some disableUser.request :: [] := by decide +kernel
  obtain ⟨before, barring, after, split, asked, rest⟩ := acknowledgedRequests_split requests
  have kept := barredUser_keptOut closed split ⟨_, _, _, .inl asked⟩ fun write member =>
    absurd member (not_acknowledged rest write)
  exact ⟨before, barring, after, split, asked, kept.2⟩

def disabledInLogin : List Event :=
  setup options ++ presented ++ disableUser.issue ++ poll 0 [silent 20] ++ worked ++
    poll 0 [silent 20]

/-- A login that has read the record before the user is disabled lets it in afterwards. -/
theorem barredUser_letIn :
    (machine (libraries [disableUser])).Run Fresh (fun history _ event => Reliable history event)
        (reached [disableUser] disabledInLogin).1 (reached [disableUser] disabledInLogin).2 ∧
      acknowledgedRequests (libraries [disableUser]) (reached [disableUser] disabledInLogin).1 =
        [some createUser.request, some addCredential.request, some disableUser.request] ∧
      ¬ (reached [disableUser] disabledInLogin).2.Holds fun s => s.sessions.All fun _ session =>
        ¬ (session.role = .server ∧ session.auth = .authenticated firstUser) :=
  ⟨reached_run [disableUser] disabledInLogin (by decide +kernel), by decide +kernel⟩

end Snolc.Policy
