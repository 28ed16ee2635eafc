import Snolc.Policy.Calls
import Snolc.Policy.Settings

/-! How many sessions of a user there are at once. -/

namespace Snolc.Policy

open State Table PolicySession

variable {limit handle : Nat} {obs : List Obs} {session : PolicySession}

variable {env : Env} {userId : String}

def PolicySession.waitsForClock (session : PolicySession) (userId : String) : Bool :=
  match session.auth with
  | .clock user _ => user.id = userId
  | _ => false

def PolicySession.serves (session : PolicySession) (userId : String) : Bool :=
  session.role = .server && session.isUser userId

/-- Whether a session is one of a user's, or will be without another check. -/
def PolicySession.occupies (userId : String) (session : PolicySession) : Bool :=
  match session.auth with
  | .authenticated id => session.role = .server && id = userId
  | .clock user _ => user.id = userId
  | _ => false

def State.serverSessions (s : State) (userId : String) : Nat :=
  Table.count (·.serves userId) s.sessions

/-- The number of sessions the limit of a user is compared with. -/
def State.provenSessions (s : State) (userId : String) : Nat :=
  Table.count (·.isUser userId) s.sessions

/-- The number of sessions of a user that have passed the check and do not count yet. -/
def State.clockSessions (s : State) (userId : String) : Nat :=
  Table.count (·.waitsForClock userId) s.sessions

/-- The number of places of a user that are taken. -/
def State.occupied (s : State) (userId : String) : Nat :=
  Table.count (PolicySession.occupies userId) s.sessions

/--
No session of the user is let past the check on the word of a count that is too low.

Where a record of the user is waited for, the limit is reached by the sessions that count, or the
sessions that do not count yet leave it room.
-/
def State.CountsAll (s : State) (userId : String) (limit : Nat) : Prop :=
  (∃ handle session reply, s.sessions.lookup handle = some session ∧
    session.auth = .user userId reply) →
  limit ≤ s.provenSessions userId ∨ s.provenSessions userId + s.clockSessions userId < limit

instance (userId : String) (limit : Nat) : DecidablePred (State.CountsAll · userId limit) :=
  fun s => decidable_of_iff
    ((∃ handle session, s.sessions.lookup handle = some session ∧
        (match session.auth with
          | .user other _ => decide (other = userId)
          | _ => false) = true) →
      limit ≤ s.provenSessions userId ∨
        s.provenSessions userId + s.clockSessions userId < limit) <| by
    unfold State.CountsAll
    refine imp_congr_left (exists_congr fun handle => exists_congr fun session => ?_)
    cases session.auth <;> simp

section Occupied

variable {s t : State}

theorem PolicySession.occupies_congr {first second : PolicySession}
    (role : first.role = second.role) (auth : first.auth = second.auth) :
    first.occupies userId = second.occupies userId := by
  simp only [occupies, role, auth]

theorem occupied_retune {old : PolicySession} (found : s.sessions.lookup handle = some old)
    (role : session.role = old.role) (auth : session.auth = old.auth) :
    { s with sessions := s.sessions.insert handle session }.occupied userId ≤
      s.occupied userId :=
  count_insert_le found fun takes => by rwa [occupies_congr role auth] at takes

theorem Quiet.occupied_le (change : Quiet env s obs t) : t.occupied userId ≤ s.occupied userId := by
  cases change with
  | acknowledged _ _ _ _ _ _ _ applied => exact applied.sessions.count_le _
  | tuned channel subscribed lastStatus found => exact occupied_retune found rfl rfl
  | denied _ found | presented _ found =>
    exact count_insert_le found (by simp [occupies])
  | dropped => exact (Table.Sub.erase _ _).count_le _
  | named userId found client =>
    exact count_insert_le found (by simp [occupies, client])
  | closed => exact (Table.Sub.empty _).count_le _
  | _ => exact le_rfl

theorem Path.occupied_le (path : Path env s obs t) : t.occupied userId ≤ s.occupied userId := by
  induction path with
  | refl => exact le_rfl
  | step change _ ih => exact ih.trans change.occupied_le

theorem Host.occupied_le {event : Event} (change : Host env s event obs t) :
    t.occupied userId ≤ s.occupied userId := by
  cases change with
  | @joined _ _ _ handle session later waiting =>
    have outside : session.occupies userId = false := by simp [occupies, waiting]
    simp only [occupied, count_insert, outside]
    exact (Table.Sub.erase _ _).count_le _
  | admitted admitted found => exact occupied_retune found rfl rfl
  | consumed _ found | streamed _ found | datagrammed _ found =>
    exact occupied_retune (s := s) found rfl rfl
  | _ => exact le_rfl

theorem State.occupied_le (s : State) (userId : String) :
    s.occupied userId ≤ s.provenSessions userId + s.clockSessions userId := by
  refine le_trans (List.countP_mono_left fun session _ takes => ?_)
    (count_or_le s.sessions (·.isUser userId) (·.waitsForClock userId))
  simp only [occupies] at takes
  simp only [isUser, waitsForClock, Bool.or_eq_true]
  cases auth : session.auth <;> simp_all

section Admitted

variable (ok : SpecHolds (·.maxSessions = .limited limit) userId s)
  (counts : s.CountsAll userId limit) (within : s.occupied userId ≤ limit)

/-- A session that passes the check of the limit finds a place free. -/
theorem room {reply : Nat} {user : UserRecord} (found : s.sessions.lookup handle = some session)
    (auth : session.auth = .user user.id reply) (limited : user.spec.maxSessions = .limited limit)
    (counts : s.CountsAll user.id limit)
    (open_ : { s with sessions := s.sessions.erase handle }.sessionLimitReached user = false) :
    s.occupied user.id < limit := by
  have proven : s.provenSessions user.id < limit := by
    rw [provenSessions, count_erase found]
    simp only [sessionLimitReached, limited, decide_eq_false_iff_not, not_le] at open_
    have outside : session.isUser user.id = false := by simp [isUser, auth]
    simp only [outside]
    exact open_
  rcases counts ⟨handle, session, reply, found, auth⟩ with full | fits
  · omega
  · exact lt_of_le_of_lt (s.occupied_le user.id) fits

include ok counts within

/-- The session that is put back takes no more than the free place. -/
theorem occupied_admit {new : PolicySession} {reply : Nat} {stored : StoredUserRecord}
    {user : UserRecord} (found : s.sessions.lookup handle = some session)
    (auth : session.auth = .user user.id reply)
    (answered : s.storage.replies[reply]? = some (.value (some (.user stored))))
    (decoded : decodeUserRecord stored = .ok user)
    (open_ : { s with sessions := s.sessions.erase handle }.sessionLimitReached user = false)
    (own : new.occupies userId = true → user.id = userId) :
    Table.count (PolicySession.occupies userId) (s.sessions.insert handle new) ≤ limit := by
  by_cases mine : user.id = userId
  · subst mine
    have limited := (ok.ledger.userCopy found auth).decoded answered decoded
    have outside : session.occupies user.id = false := by simp [occupies, auth]
    have taken : s.occupied user.id < limit := room found auth limited counts open_
    rw [occupied, count_erase found, outside] at taken
    rw [count_insert]
    split <;> simp at taken ⊢ <;> omega
  · exact (count_insert_le found fun takes => absurd (own takes) mine).trans within

theorem Begun.occupied_le (change : Begun s t) : t.occupied userId ≤ limit := by
  cases change with
  | lookedUp found =>
    exact (count_insert_le found (by simp [occupies])).trans within
  | clocked found auth answered decoded named available open_ =>
    subst named
    exact occupied_admit ok counts within found auth answered decoded open_ (by simp [occupies])

theorem Login.occupied_le (change : Login s t) : t.occupied userId ≤ limit := by
  cases change with
  | direct found auth answered decoded named available open_ =>
    subst named
    exact occupied_admit ok counts within found auth answered decoded open_ (by simp [occupies])
  | confirmed found auth =>
    refine (count_insert_le found fun takes => ?_).trans within
    simp only [occupies, Bool.and_eq_true, decide_eq_true_eq] at takes
    simp [occupies, auth, takes.2]

end Admitted

theorem Move.occupied_le {event : Event} (move : Move env s event obs t)
    (ok : SpecHolds (·.maxSessions = .limited limit) userId s)
    (counts : ∀ input, event = .advanceSession input → s.CountsAll userId limit)
    (within : s.occupied userId ≤ limit) : t.occupied userId ≤ limit := by
  cases move with
  | finished => exact within
  | pumped => exact within
  | quiet path => exact path.occupied_le.trans within
  | loud path loud =>
    rw [occupied, loud.sessions]
    exact path.occupied_le.trans within
  | begun called begun => exact begun.occupied_le ok (counts _ called) within
  | login called login path =>
    exact path.occupied_le.trans (login.occupied_le ok (counts _ called) within)
  | host host => exact host.occupied_le.trans within

end Occupied

/--
A user's server sessions stay within its limit as long as no login is let past the check while
others that have passed it would fill the limit.
-/
theorem serverSessions_le_limit {limit : Nat} {history : List Obs} {world : World}
    (run : (machine env).Run Fresh
      (fun _ world event => world.Holds (State.Asks (·.maxSessions = .limited limit) userId) ∧
        ∀ input, event = .advanceSession input →
          world.Holds fun s => s.CountsAll userId limit)
      history world) :
    world.Holds fun s => s.serverSessions userId ≤ limit := by
  have within : world.Holds fun s => s.occupied userId ≤ limit := by
    refine machine_invariant (fun _ world => world.Holds fun s => s.occupied userId ≤ limit)
      trivial ?_ run
    rintro history world event obs next before within ⟨asks, counts⟩ advance
    have specs := (run_specHolds (fun _ _ _ guard => guard.1) before).2
    cases advance with
    | idle => exact within
    | started started =>
      have fresh := (initializeInstance_started started).sessions
      simp [World.Holds, State.occupied, Table.count, Table.values, fresh]
    | moved move => exact move.occupied_le (specs asks) counts within
    | stopped | crashed => trivial
  cases world with
  | down => trivial
  | up =>
    refine le_trans (List.countP_mono_left fun session _ serves => ?_) within
    simp only [PolicySession.serves, PolicySession.isUser, Bool.and_eq_true,
      decide_eq_true_eq] at serves
    cases auth : session.auth <;> simp_all [PolicySession.occupies]

open Deployment

/-- A login of the user, whose limit is two sessions. -/
def loggedIn : List Event :=
  setup options ++ login

set_option maxRecDepth 100000 in
/-- One login stays within the limit. -/
theorem serverSessions_le_limit_login :
    (machine (libraries [])).Run Fresh
        (fun _ world event =>
          world.Holds (State.Asks (·.maxSessions = .limited 2) firstUser) ∧
          ∀ input, event = .advanceSession input →
            world.Holds fun s => s.CountsAll firstUser 2)
        (reached [] loggedIn).1 (reached [] loggedIn).2 ∧
      (reached [] loggedIn).2.Holds fun s => s.serverSessions firstUser ≤ 2 := by
  have checked : (machine (libraries [])).Run Fresh
      (fun _ world _ => world.Holds (State.Asks (·.maxSessions = .limited 2) firstUser) ∧
        world.Holds fun s => s.CountsAll firstUser 2)
      (reached [] loggedIn).1 (reached [] loggedIn).2 :=
    reached_run [] loggedIn (by decide +kernel)
  suffices run : _ from ⟨run, serverSessions_le_limit run⟩
  exact checked.weaken fun _ _ _ admitted => ⟨admitted.1, fun _ _ => admitted.2⟩

def threeLogins : List Event :=
  setup options ++ [connect, connect, connect] ++
    poll 0 [present 20, present 20, present 20] ++ worked ++ worked ++ worked ++
    poll 0 [silent 20, silent 20, silent 20] ++ worked ++ worked ++ worked ++
    poll 0 [silent 20, silent 20, silent 20] ++ worked ++ worked ++ worked ++
    poll 0 [silent 20, silent 20, silent 20]

/-- Sessions that have passed the check do not count until their clock is written. -/
theorem serverSessions_over_limit :
    (machine (libraries [])).Run Fresh
        (fun history world event => Reliable history event ∧
          world.Holds (State.Asks (·.maxSessions = .limited 2) firstUser))
        (reached [] threeLogins).1 (reached [] threeLogins).2 ∧
      ¬ (reached [] threeLogins).2.Holds fun s => s.serverSessions firstUser ≤ 2 :=
  ⟨reached_run [] threeLogins (by decide +kernel), by decide +kernel⟩

end Snolc.Policy
