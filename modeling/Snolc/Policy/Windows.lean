import Snolc.Policy.Copies

/-! The operations that read a user's record, change it and write it back, and what they change. -/

namespace Snolc.Policy

variable {env : Env}

/-- Whether a session has asked for the record of a user, or is writing it. -/
def PolicySession.Handles (userId : String) (session : PolicySession) : Prop :=
  match session.auth with
  | .user other _ => other = userId
  | .clock user _ => user.id = userId
  | _ => False

namespace State

/-- A login of the user has asked for its record, or is writing it. -/
def LoginUnderWay (s : State) (userId : String) : Prop :=
  ∃ handle session, s.sessions.lookup handle = some session ∧ session.Handles userId

/-- A debit or a refund of the user is being written. -/
def SettlementUnderWay (s : State) (userId : String) : Prop :=
  ∃ traffic, s.traffic.lookup userId = some traffic ∧ ¬ Settled traffic

/-- An administrative change of the user is being written. -/
def MutationUnderWay (s : State) (userId : String) : Prop :=
  ∃ write record, s.pendingControl = some (.write write) ∧
    (userId, record) ∈ write.mutation.users

/-- The record of the user is being read into the cache. -/
def LoadUnderWay (s : State) (userId : String) : Prop :=
  ∃ request reply, s.pendingControl = some (.read request (.user userId) reply)

end State

section Decide

variable (userId : String) (s : State)

instance (session : PolicySession) : Decidable (session.Handles userId) :=
  decidable_of_iff
    ((match session.auth with
      | .user other _ => decide (other = userId)
      | .clock user _ => decide (user.id = userId)
      | _ => false) = true) <| by
    unfold PolicySession.Handles
    cases session.auth <;> simp

instance : Decidable (s.LoginUnderWay userId) :=
  inferInstanceAs (Decidable (∃ handle session, s.sessions.lookup handle = some session ∧
    session.Handles userId))

instance : Decidable (s.SettlementUnderWay userId) :=
  decidable_of_iff (((s.traffic.lookup userId).any fun traffic =>
      traffic.debit.isSome || traffic.refund.isSome) = true) <| by
    simp only [State.SettlementUnderWay, Settled, Option.any_eq_true, Bool.or_eq_true,
      not_and_or, ← Option.ne_none_iff_isSome, ne_eq]

instance : Decidable (s.MutationUnderWay userId) :=
  decidable_of_iff
    ((match s.pendingControl with
      | some (.write write) => write.mutation.users.any fun entry => entry.1 = userId
      | _ => false) = true) <| by
    unfold State.MutationUnderWay
    split <;> simp_all

instance : Decidable (s.LoadUnderWay userId) :=
  decidable_of_iff
    ((match s.pendingControl with
      | some (.read _ (.user other) _) => decide (other = userId)
      | _ => false) = true) <| by
    unfold State.LoadUnderWay
    split <;> simp_all

end Decide

/-- No operation on the record of the user has been started. -/
structure Fewer (userId : String) (s t : State) : Prop where
  login : t.LoginUnderWay userId → s.LoginUnderWay userId
  settlement : t.SettlementUnderWay userId → s.SettlementUnderWay userId
  write : ∀ write, t.pendingControl = some (.write write) → s.pendingControl = some (.write write)
  load : t.LoadUnderWay userId → s.LoadUnderWay userId

section Fewer

variable {userId : String} {s mid t : State}

namespace Fewer

theorem refl (userId : String) (s : State) : Fewer userId s s :=
  ⟨fun u => u, fun u => u, fun _ u => u, fun u => u⟩

theorem trans (first : Fewer userId s mid) (second : Fewer userId mid t) : Fewer userId s t where
  login u := first.login (second.login u)
  settlement u := first.settlement (second.settlement u)
  write w u := first.write w (second.write w u)
  load u := first.load (second.load u)

theorem mutation (fewer : Fewer userId s t) (underWay : t.MutationUnderWay userId) :
    s.MutationUnderWay userId := by
  obtain ⟨write, record, pending, member⟩ := underWay
  exact ⟨write, record, fewer.write write pending, member⟩

theorem putSession {handle : Nat} {session : PolicySession} {storage : StorageWorker}
    {admin : AdminState} (new : session.Handles userId → s.LoginUnderWay userId) :
    Fewer userId s { s with storage, admin, sessions := s.sessions.insert handle session } :=
  { refl userId s with
    login := by
      rintro ⟨other, found, present, handles⟩
      rcases Table.of_lookup_insert present with ⟨_, rfl⟩ | ⟨_, old⟩
      · exact new handles
      · exact ⟨other, found, old, handles⟩ }

theorem setTraffic {other : String} {traffic : UserTraffic}
    (new : other = userId → ¬ Settled traffic → s.SettlementUnderWay userId) :
    Fewer userId s (s.setTraffic other traffic) :=
  { refl userId s with
    settlement := by
      rintro ⟨found, present, unsettled⟩
      rcases Table.of_lookup_insert present with ⟨same, rfl⟩ | ⟨_, old⟩
      · exact new same.symm unsettled
      · exact ⟨found, old, unsettled⟩ }

theorem drop {t : State} (fewer : Table.Sub t.sessions s.sessions)
    (less : Table.Sub t.traffic s.traffic)
    (write : ∀ write, t.pendingControl = some (.write write) →
      s.pendingControl = some (.write write))
    (load : t.LoadUnderWay userId → s.LoadUnderWay userId) : Fewer userId s t where
  login := by
    rintro ⟨handle, session, present, handles⟩
    exact ⟨handle, session, fewer _ _ present, handles⟩
  settlement := by
    rintro ⟨traffic, present, unsettled⟩
    exact ⟨traffic, less _ _ present, unsettled⟩
  write := write
  load := load

theorem settled {t : State} (fewer : Table.Sub t.sessions s.sessions)
    (less : Table.Sub t.traffic s.traffic) (idle : t.pendingControl = none) : Fewer userId s t :=
  drop fewer less (by simp [idle]) (by simp [State.LoadUnderWay, idle])

end Fewer

theorem Stalled.unsettled {traffic next : UserTraffic} (stalled : Stalled s traffic next)
    (unsettled : ¬ Settled next) : ¬ Settled traffic := by
  cases stalled with
  | unasked settled => exact absurd settled unsettled
  | debit waiting | credit waiting => exact fun settled => by simp [settled.1] at waiting
  | refund waiting | refused waiting => exact fun settled => by simp [settled.2] at waiting

/-- Quiet changes start no operation on a record. -/
theorem Quiet.fewer {obs : List Obs} (change : Quiet env s obs t) : Fewer userId s t := by
  cases change with
  | loadedUser | loadedCredential | gaveUp => exact .settled (.refl _) (.refl _) rfl
  | acknowledged _ _ _ _ _ _ _ applied =>
    exact .settled applied.sessions applied.traffic rfl
  | backedUp | askedCredential =>
    exact .drop (.refl _) (.refl _) (by simp) (by simp [State.LoadUnderWay])
  | opened absent cached built =>
    obtain ⟨undebited, unrefunded⟩ := newTraffic_ok built
    exact .setTraffic fun _ unsettled => absurd ⟨undebited, unrefunded⟩ unsettled
  | credited present healthy waiting =>
    refine (Fewer.setTraffic fun same _ => ?_).trans { Fewer.refl userId _ with }
    exact ⟨_, same ▸ present, fun settled => by simp [settled.1] at waiting⟩
  | refunded checkpointAt present healthy waiting =>
    refine (Fewer.setTraffic fun same _ => ?_).trans { Fewer.refl userId _ with }
    exact ⟨_, same ▸ present, fun settled => by simp [settled.2] at waiting⟩
  | stalled present healthy stalled =>
    exact .setTraffic fun same unsettled => ⟨_, same ▸ present, stalled.unsettled unsettled⟩
  | @retimed _ traffic checkpointAt present =>
    exact .setTraffic fun same unsettled => ⟨traffic, same ▸ present, unsettled⟩
  | retired =>
    exact .drop (.refl _) (.retain _ _) (fun _ pending => pending) fun load => load
  | tuned channel subscribed lastStatus found =>
    exact .putSession fun handles => ⟨_, _, found, handles⟩
  | denied | named | presented => exact .putSession (by simp [PolicySession.Handles])
  | dropped =>
    exact .drop (.erase _ _) (.refl _) (fun _ pending => pending) fun load => load
  | closed =>
    exact .drop (.empty _) (.refl _) (fun _ pending => pending) fun load => load
  | _ => exact { Fewer.refl userId s with }

theorem Path.fewer {obs : List Obs} (path : Path env s obs t) : Fewer userId s t := by
  induction path with
  | refl => exact .refl _ _
  | step change _ ih => exact change.fewer.trans ih

theorem Login.fewer (change : Login s t) : Fewer userId s t := by
  cases change <;> exact .putSession (by simp [PolicySession.Handles])

end Fewer

/--
Every copy of the record fits, and an administrative write may hold one or not.

Only a user that is let in has its clock written.
-/
def Views.steady (fits : Option UserRecord → Prop) (admin : Prop) : Views where
  stored _ record := fits record
  queued _ record := fits record
  reading := True
  read user := fits (some user)
  settling user := fits (some user)
  clock user := fits (some user) ∧ user.spec.status = .enabled
  writing record := admin ∧ fits record

/--
The command at a position of the queue changes the record, and nobody else handles it.

The command belongs to an administrative write, or to a debit or a refund.
-/
def Views.passing (old new : Option UserRecord → Prop) (ticket : Nat) (admin : Prop) : Views where
  stored executed record := if executed ≤ ticket then old record else new record
  queued position record := position < ticket ∧ old record ∨ position = ticket ∧ new record
  reading := False
  read _ := False
  settling user := ¬ admin ∧ new (some user)
  clock _ := False
  writing record := admin ∧ new record

section Windows

variable {userId : String} {s t : State} {old new fits : Option UserRecord → Prop} {ticket : Nat}
  {admin other : Prop}

theorem SessionCopy.idle (views : Views) (idle : ¬ s.LoginUnderWay userId) (replies : List Reply) :
    s.sessions.All fun _ => SessionCopy views userId replies := by
  intro handle session found
  show SessionCopy views userId replies session
  unfold SessionCopy
  split
  · next auth => exact fun same => absurd ⟨handle, session, found, by
      simp [PolicySession.Handles, auth, same]⟩ idle
  · next auth => exact fun same => absurd ⟨handle, session, found, by
      simp [PolicySession.Handles, auth, same]⟩ idle
  · trivial

theorem ControlCopy.idle (views : Views) (unwritten : ¬ s.MutationUnderWay userId)
    (unread : ¬ s.LoadUnderWay userId) (replies : List Reply) :
    ControlCopy views userId replies s.pendingControl := by
  match pending : s.pendingControl with
  | none => trivial
  | some (.read request (.credential digest) reply) => trivial
  | some (.backup request destination reply) => trivial
  | some (.read request (.user id) reply) =>
    exact fun same => absurd ⟨request, reply, same ▸ pending⟩ unread
  | some (.write write) =>
    exact fun entry member same => absurd ⟨write, entry.2, pending, same ▸ member⟩ unwritten

theorem TrafficCopy.idle (views : Views) (settled : ¬ s.SettlementUnderWay userId)
    {traffic : UserTraffic} (present : s.traffic.lookup userId = some traffic) :
    TrafficCopy views traffic := by
  intro pending waits
  refine absurd ⟨traffic, present, fun done => ?_⟩ settled
  rcases waits with debit | refund
  · simp [done.1] at debit
  · simp [done.2] at refund

namespace Ledger

theorem passing_login (ledger : Ledger (.passing old new ticket admin) userId s) :
    ¬ s.LoginUnderWay userId := by
  rintro ⟨handle, session, found, handles⟩
  have copy : SessionCopy _ userId _ session := ledger.sessions _ _ found
  unfold PolicySession.Handles at handles
  unfold SessionCopy at copy
  split at handles
  · next auth =>
    rw [auth] at copy
    exact (copy handles).1
  · next auth =>
    rw [auth] at copy
    exact copy handles
  · exact handles

theorem passing_load (ledger : Ledger (.passing old new ticket admin) userId s) :
    ¬ s.LoadUnderWay userId := by
  rintro ⟨request, reply, pending⟩
  have copy := ledger.control
  rw [pending] at copy
  exact (copy rfl).1

theorem steady_finish (ledger : Ledger (.steady fits admin) userId s) (tickets : Tickets env s)
    (outcome : Outcome) :
    Ledger (.steady fits admin) userId { s with storage := s.storage.finish outcome } :=
  ledger.finish tickets outcome (fun _ _ _ _ _ queued => queued) (fun _ _ _ _ stored => stored)
    fun _ _ stored => stored

theorem passing_finish (ledger : Ledger (.passing old new ticket admin) userId s)
    (tickets : Tickets env s) {command : Command} {change : Option Value}
    (sent : s.storage.commands[ticket]? = some command)
    (touches : StorageWorker.writes (.user userId) command = some change) :
    Ledger (.passing old new ticket admin) userId
      { s with storage := s.storage.finish .success } := by
  refine ledger.finish tickets .success ?_ ?_ ?_
  · rintro held record holds - writes (⟨before, fits⟩ | ⟨here, fits⟩)
    · simp only [Views.passing]
      rwa [if_pos (Nat.succ_le_of_lt before)]
    · simp only [Views.passing]
      rwa [if_neg (by omega)]
  · intro held record holds untouched stored
    simp only [Views.passing] at stored ⊢
    rcases Nat.lt_trichotomy s.storage.replies.length ticket with before | here | after
    · rw [if_pos (le_of_lt before)] at stored
      rwa [if_pos (Nat.succ_le_of_lt before)]
    · -- The command that changes the record touches it.
      have same := StorageWorker.held_eq_some holds
      rw [here, sent, Option.some.injEq] at same
      have none := untouched rfl
      simp [← same, touches] at none
    · rw [if_neg (not_le.mpr after)] at stored
      rwa [if_neg (by omega)]
  · exact fun _ reading => reading.elim

theorem launch (ledger : Ledger (.steady old other) userId s)
    (alone : ¬ s.LoginUnderWay userId ∧ ¬ s.SettlementUnderWay userId)
    (unwritten : ¬ s.MutationUnderWay userId) (unread : ¬ s.LoadUnderWay userId)
    (tickets : Tickets env s) :
    Ledger (.passing old new s.storage.commands.length admin) userId s where
  store := by
    obtain ⟨record, stored, fits⟩ := ledger.store
    refine ⟨record, stored, ?_⟩
    simp only [Views.passing]
    rwa [if_pos tickets.queue.answered]
  queue running position command change late sent touches := by
    obtain ⟨record, same, fits⟩ := ledger.queue running position command change late sent touches
    exact ⟨record, same, .inl ⟨(List.getElem?_eq_some_iff.mp sent).1, fits⟩⟩
  sessions := .idle _ alone.1 _
  control := .idle _ unwritten unread _
  traffic _ present := .idle _ alone.2 present

variable (ledger : Ledger (.passing old new ticket admin) userId s)
include ledger

theorem land
    (executed : ticket < s.storage.replies.length) (settled : ¬ s.SettlementUnderWay userId)
    (unwritten : ¬ s.MutationUnderWay userId) : Ledger (.steady new other) userId s where
  store := by
    obtain ⟨record, stored, fits⟩ := ledger.store
    refine ⟨record, stored, ?_⟩
    simp only [Views.passing] at fits
    rwa [if_neg (not_le.mpr executed)] at fits
  queue running position command change late sent touches := by
    obtain ⟨record, _, fits⟩ := ledger.queue running position command change late sent touches
    rcases fits with ⟨before, _⟩ | ⟨here, _⟩ <;> omega
  sessions := .idle _ ledger.passing_login _
  control := .idle _ unwritten ledger.passing_load _
  traffic _ present := .idle _ settled present

theorem lose (unexecuted : s.storage.replies.length ≤ ticket) (stopped : s.storage.running = false)
    (settled : ¬ s.SettlementUnderWay userId) (unwritten : ¬ s.MutationUnderWay userId) :
    Ledger (.steady old other) userId s where
  store := by
    obtain ⟨record, stored, fits⟩ := ledger.store
    refine ⟨record, stored, ?_⟩
    simp only [Views.passing] at fits
    rwa [if_pos unexecuted] at fits
  queue running := by simp [stopped] at running
  sessions := .idle _ ledger.passing_login _
  control := .idle _ unwritten ledger.passing_load _
  traffic _ present := .idle _ settled present

end Ledger

end Windows

end Snolc.Policy
