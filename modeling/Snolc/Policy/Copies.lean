import Snolc.Policy.Tickets

/-! Where copies of a user's record are, and how every change of the instance moves them. -/

namespace Snolc.Policy

open List State Table StorageWorker

variable {obs : List Obs} {handle reply : Nat} {event : Event} {session : PolicySession}

variable {env : Env}

/-- The engine only adds to the queue; what is executed and answered stays as it is. -/
structure StorageWorker.Queues (old new : StorageWorker) : Prop where
  store : new.store = old.store
  replies : new.replies = old.replies
  running : new.running = old.running
  commands : old.commands <+: new.commands

namespace StorageWorker.Queues

theorem refl (worker : StorageWorker) : Queues worker worker :=
  ⟨rfl, rfl, rfl, prefix_refl _⟩

theorem trans {old mid new : StorageWorker} (first : Queues old mid) (second : Queues mid new) :
    Queues old new where
  store := second.store.trans first.store
  replies := second.replies.trans first.replies
  running := second.running.trans first.running
  commands := first.commands.trans second.commands

theorem push (worker : StorageWorker) (command : Command) : Queues worker (worker.push command) :=
  ⟨rfl, rfl, rfl, prefix_append _ _⟩

end StorageWorker.Queues

section Queues

variable {s t : State}

theorem Quiet.queues (change : Quiet env s obs t) : Queues s.storage t.storage := by
  cases change with
  | received => exact { Queues.refl s.storage with }
  | backedUp | askedCredential | presented => exact .push _ _
  | stopping => exact { Queues.push s.storage .stop with }
  | _ => exact .refl _

theorem Path.queues (path : Path env s obs t) : Queues s.storage t.storage := by
  induction path with
  | refl => exact .refl _
  | step change _ ih => exact change.queues.trans ih

theorem Move.queues (move : Move env s event obs t) :
    (∃ outcome, event = .finish outcome ∧ obs = finishObs s.storage outcome ∧
      t = { s with storage := s.storage.finish outcome }) ∨ Queues s.storage t.storage := by
  cases move with
  | finished called => exact .inl ⟨_, called, rfl, rfl⟩
  | pumped => exact .inr (.refl _)
  | quiet path => exact .inr path.queues
  | loud path loud =>
    refine .inr (path.queues.trans ?_)
    cases loud <;> exact .push _ _
  | begun _ begun =>
    right
    cases begun <;> exact .push _ _
  | login _ login path =>
    refine .inr (Queues.trans ?_ path.queues)
    cases login <;> exact .refl _
  | host host =>
    right
    cases host <;> exact .refl _

theorem Loud.sessions (change : Loud env event s t) : t.sessions = s.sessions := by
  cases change <;> rfl

end Queues

def storedAs (record : Option UserRecord) : Option Value :=
  record.map fun user => .user (encodeUserRecord user)

/-- What the copies of a user's record may be, by where they are. -/
structure Views where
  /-- In the store, after a number of executed commands. -/
  stored : Nat → Option UserRecord → Prop
  /-- Written by the command at a position of the queue. -/
  queued : Nat → Option UserRecord → Prop
  /-- Whether a read may be under way. -/
  reading : Prop
  /-- Carried by the answer to a read. -/
  read : UserRecord → Prop
  /-- Held by a debit or a refund. -/
  settling : UserRecord → Prop
  /-- Held by a login that waits for its clock write. -/
  clock : UserRecord → Prop
  /-- Held by an administrative write. -/
  writing : Option UserRecord → Prop

section Ledger

variable (views : Views) (userId : String)

/-- A read is allowed, and its answer, once it is there, is as it may be. -/
def ReadCopy (replies : List Reply) (reply : Nat) : Prop :=
  views.reading ∧ ∀ value, replies[reply]? = some (.value (some value)) →
    ∃ user, value = .user (encodeUserRecord user) ∧ views.read user

def SessionCopy (replies : List Reply) (session : PolicySession) : Prop :=
  match session.auth with
  | .user other reply => other = userId → ReadCopy views replies reply
  | .clock user _ => user.id = userId → views.clock user
  | _ => True

/-- What the administrative operation in progress holds of the user's record. -/
def ControlCopy (replies : List Reply) : Option PendingControl → Prop
  | some (.read _ (.user other) reply) => other = userId → ReadCopy views replies reply
  | some (.write write) => ∀ entry ∈ write.mutation.users, entry.1 = userId → views.writing entry.2
  | _ => True

/-- What the traffic of the user holds of its record. -/
def TrafficCopy (traffic : UserTraffic) : Prop :=
  ∀ pending, traffic.debit = some pending ∨ traffic.refund = some pending →
    views.settling pending.record

/-- Every copy of the user's record outside the cache is as it may be where it is. -/
structure Ledger (s : State) : Prop where
  store : ∃ record, s.storage.store.lookup (.user userId) = storedAs record ∧
    views.stored s.storage.replies.length record
  /-- Nothing is executed any more once the worker has stopped. -/
  queue : s.storage.running = true → ∀ (position : Nat) command change,
    s.storage.replies.length ≤ position → s.storage.commands[position]? = some command →
    StorageWorker.writes (.user userId) command = some change →
    ∃ record, change = storedAs record ∧ views.queued position record
  sessions : s.sessions.All fun _ => SessionCopy views userId s.storage.replies
  control : ControlCopy views userId s.storage.replies s.pendingControl
  traffic : ∀ traffic, s.traffic.lookup userId = some traffic → TrafficCopy views traffic

end Ledger

/-- What the cached copy of the user's record may be. -/
def State.Caches (s : State) (userId : String) (holds : UserRecord → Prop) : Prop :=
  ∀ user, s.admin.users.lookup userId = some user → holds user

section Changes

variable {views : Views} {userId : String} {s t : State} {user : UserRecord} {traffic : UserTraffic}

namespace Ledger

variable (ledger : Ledger views userId s)
include ledger

theorem push {last : Command} (other : StorageWorker.writes (.user userId) last = none) :
    Ledger views userId { s with storage := s.storage.push last } :=
  { ledger with
    queue := fun running position command change late sent touches => by
      rcases sent_cases sent with old | ⟨_, new⟩
      · exact ledger.queue running position command change late old touches
      · subst new
        simp [other] at touches }

theorem pushed {last : Command} {record : Option UserRecord}
    (touches : StorageWorker.writes (.user userId) last = some (storedAs record))
    (queued : views.queued s.storage.commands.length record) :
    Ledger views userId { s with storage := s.storage.push last } :=
  { ledger with
    queue := fun running position command change late sent touched => by
      rcases sent_cases sent with old | ⟨here, new⟩
      · exact ledger.queue running position command change late old touched
      subst new here
      rw [touches, Option.some.injEq] at touched
      exact ⟨record, touched.symm, queued⟩ }

theorem putSession (handle : Nat) (copy : SessionCopy views userId s.storage.replies session) :
    Ledger views userId { s with sessions := s.sessions.insert handle session } :=
  { ledger with sessions := ledger.sessions.insert copy }

theorem retuned {old : PolicySession} (found : s.sessions.lookup handle = some old)
    (same : session.auth = old.auth) : SessionCopy views userId s.storage.replies session := by
  unfold SessionCopy
  rw [same]
  exact ledger.sessions _ _ found

theorem setTraffic {other : String} (copy : other = userId → TrafficCopy views traffic) :
    Ledger views userId (s.setTraffic other traffic) :=
  { ledger with
    traffic := fun found present => by
      rcases of_lookup_insert present with ⟨same, rfl⟩ | ⟨_, old⟩
      · exact copy same.symm
      · exact ledger.traffic found old }

theorem settle {other : String} (copy : other = userId →
      views.queued s.storage.commands.length (some user) ∧ views.settling user)
    (holds : ∀ pending, traffic.debit = some pending ∨ traffic.refund = some pending →
      pending.record = user) : Ledger views userId
      ({ s with storage := s.storage.push (.put (.user other) (.user (encodeUserRecord user)))
          }.setTraffic other traffic) := by
  by_cases own : other = userId
  · obtain ⟨queued, held⟩ := copy own
    refine (ledger.pushed (?_ : _ = some (storedAs (some user))) queued).setTraffic
      fun _ pending waits => holds pending waits ▸ held
    simp [writes, storedAs, own]
  · exact (ledger.push (by simp [writes, own])).setTraffic fun same => absurd same own

theorem userCopy
    (found : s.sessions.lookup handle = some session) (auth : session.auth = .user userId reply) :
    ReadCopy views s.storage.replies reply := by
  have copy : SessionCopy views userId s.storage.replies session := ledger.sessions _ _ found
  unfold SessionCopy at copy
  rw [auth] at copy
  exact copy rfl

theorem clockCopy
    (found : s.sessions.lookup handle = some session) (auth : session.auth = .clock user reply)
    (named : user.id = userId) : views.clock user := by
  have copy : SessionCopy views userId s.storage.replies session := ledger.sessions _ _ found
  unfold SessionCopy at copy
  rw [auth] at copy
  exact copy named

end Ledger

theorem Stalled.trafficCopy {next : UserTraffic} (stalled : Stalled s traffic next)
    (copy : TrafficCopy views traffic) : TrafficCopy views next := by
  intro pending waits
  cases stalled with
  | unasked => exact copy pending waits
  | debit | credit => exact copy pending (.inr (by simpa using waits))
  | refund | refused => exact copy pending (.inl (by simpa using waits))

/-- Quiet changes make no copy outside the cache. -/
theorem Quiet.ledger (change : Quiet env s obs t) (ledger : Ledger views userId s) :
    Ledger views userId t := by
  cases change with
  | received | observed | cut => exact { ledger with }
  | noted => exact ledger
  | loadedUser | loadedCredential | gaveUp => exact { ledger with control := trivial }
  | acknowledged _ _ _ _ _ _ _ applied =>
    exact { ledger with
      sessions := ledger.sessions.sub applied.sessions
      control := trivial
      traffic := fun found present => ledger.traffic found (applied.traffic _ _ present) }
  | backedUp | askedCredential => exact { ledger.push rfl with control := trivial }
  | opened absent cached built =>
    obtain ⟨undebited, unrefunded⟩ := newTraffic_ok built
    exact ledger.setTraffic fun _ pending waits => by simp [undebited, unrefunded] at waits
  | credited present =>
    refine { ledger.setTraffic (fun same pending waits => ?_) with }
    exact ledger.traffic _ (same ▸ present) pending (.inr (by simpa using waits))
  | refunded checkpointAt present =>
    refine { ledger.setTraffic (fun same pending waits => ?_) with }
    exact ledger.traffic _ (same ▸ present) pending (.inl (by simpa using waits))
  | stalled present healthy stalled =>
    exact ledger.setTraffic fun same =>
      stalled.trafficCopy (ledger.traffic _ (same ▸ present))
  | @retimed _ traffic checkpointAt present =>
    exact ledger.setTraffic fun same pending waits =>
      ledger.traffic traffic (same ▸ present) pending waits
  | retired =>
    exact { ledger with
      traffic := fun found present =>
        ledger.traffic found (Table.Sub.retain _ _ _ _ present) }
  | tuned channel subscribed lastStatus found =>
    exact ledger.putSession _ (ledger.retuned found rfl)
  | denied | named => exact ledger.putSession _ trivial
  | dropped => exact { ledger with sessions := ledger.sessions.sub (.erase _ _) }
  | presented => exact (ledger.push rfl).putSession _ trivial
  | closed => exact { ledger with sessions := .empty }
  | stopping => exact { @Ledger.push _ _ _ ledger .stop rfl with }

/-- Whether an observation is the acknowledgement of a write that names the user. -/
def Obs.Confirms (userId : String) : Obs → Prop
  | .acknowledged write => ∃ record, (userId, record) ∈ write.mutation.users
  | _ => False

/-- Where the cached copy of the user's record comes from. -/
inductive Recached (s : State) (obs : List Obs) (userId : String) : UserRecord → Prop
  | kept {old : UserRecord} (maxObservedUtc : Nat) : s.admin.users.lookup userId = some old →
      (∀ o ∈ obs, ¬ o.Confirms userId) → Recached s obs userId { old with maxObservedUtc }
  | loaded {request : Bytes} {reply : Nat} {stored : StoredUserRecord} {user : UserRecord} :
      s.pendingControl = some (.read request (.user userId) reply) →
      s.storage.replies[reply]? = some (.value (some (.user stored))) →
      decodeUserRecord stored = .ok user → Recached s obs userId user
  | settled {traffic : UserTraffic} {pending : PendingQuota} :
      s.traffic.lookup userId = some traffic →
      traffic.debit = some pending ∨ traffic.refund = some pending →
      s.storage.replies[pending.reply]? = some .done → Recached s obs userId pending.record
  | written {write : PendingWrite} {user : UserRecord} :
      s.pendingControl = some (.write write) → .acknowledged write ∈ obs →
      (userId, some user) ∈ write.mutation.users → Recached s obs userId user

theorem Recached.same {old : UserRecord} (cached : s.admin.users.lookup userId = some old)
    (unconfirmed : ∀ o ∈ obs, ¬ o.Confirms userId) : Recached s obs userId old :=
  .kept old.maxObservedUtc cached unconfirmed

/-- Quiet changes cache nothing but what they read, settled or acknowledged. -/
theorem Quiet.recached (change : Quiet env s obs t) : t.Caches userId (Recached s obs userId) := by
  intro user found
  have set {other : String} {traffic : UserTraffic} {record : UserRecord}
      (found : ((s.setTraffic other traffic).setUser other record).admin.users.lookup userId =
        some user) (new : other = userId → Recached s [] userId record) :
      Recached s [] userId user := by
    rcases of_lookup_insert found with ⟨same, rfl⟩ | ⟨_, old⟩
    · exact new same.symm
    · exact .same old (by simp)
  cases change with
  | noted obs plain =>
    refine .same found fun o member confirms => ?_
    rw [mem_singleton] at member
    subst member
    cases o <;> simp [Obs.plain, Obs.Confirms] at plain confirms
  | loadedUser _ pending answered loads =>
    rcases loads userId user found with old | ⟨rfl, _, stored, rfl, decoded⟩
    · exact .same old (by simp)
    · exact .loaded pending answered decoded
  | acknowledged _ _ _ _ pending =>
    rcases applyCache_users _ _ _ _ userId user found with ⟨old, unnamed⟩ | new
    · exact .same old (by simpa [Obs.Confirms] using unnamed)
    · exact .written pending (by simp) new
  | observed =>
    simp only [observeUtc, lookup_mapValues, Option.map_eq_some_iff] at found
    obtain ⟨old, cached, rfl⟩ := found
    exact .kept _ cached (by simp)
  | @credited other traffic pending quota present healthy waiting answered =>
    exact set found fun same => .settled (same ▸ present) (.inl waiting) answered
  | @refunded other traffic pending quota checkpointAt present healthy waiting answered
      committed =>
    exact set found fun same => .settled (same ▸ present) (.inr waiting) answered
  | _ => exact .same found (by simp)

theorem ReadCopy.decoded {replies : List Reply} {stored : StoredUserRecord}
    (copy : ReadCopy views replies reply)
    (answered : replies[reply]? = some (.value (some (.user stored))))
    (decoded : decodeUserRecord stored = .ok user) : views.read user := by
  obtain ⟨written, same, read⟩ := copy.2 _ answered
  simp only [Value.user.injEq] at same
  rw [same] at decoded
  exact decodeUserRecord_encode decoded ▸ read

theorem Pumps.ledger (pumps : Pumps s t) (ledger : Ledger views userId s) :
    Ledger views userId t := by
  have traffic : ∀ traffic, t.traffic.lookup userId = some traffic →
      TrafficCopy views traffic := by
    intro traffic found
    obtain ⟨old, present, _, _, _, _, _, rfl⟩ := pumps.traffic userId traffic found
    exact ledger.traffic old present
  obtain ⟨_, _, _, _, _, _, _, _, rfl⟩ := pumps.rest
  exact { ledger with traffic }

theorem Host.ledger (change : Host env s event obs t) (ledger : Ledger views userId s) :
    Ledger views userId t := by
  cases change with
  | refused | skipped | unmetered | unmeteredDatagram => exact { ledger with }
  | joined later waiting =>
    refine { ledger with sessions := ledger.sessions.insert ?_ }
    unfold SessionCopy
    rw [waiting]
    trivial
  | admitted _ found | consumed _ found | streamed _ found | datagrammed _ found =>
    -- Putting an identity on a session or taking one off leaves its login as it was.
    exact { ledger with sessions := ledger.sessions.insert (ledger.retuned found rfl) }

theorem Login.ledger (change : Login s t) (ledger : Ledger views userId s) :
    Ledger views userId t := by
  cases change <;> exact { ledger with sessions := ledger.sessions.insert trivial }

theorem Login.recached (change : Login s t) (ledger : Ledger views userId s) :
    t.Caches userId fun user => s.admin.users.lookup userId = some user ∨
      views.reading ∧ views.read user ∨ views.clock user := by
  intro user found
  cases change with
  | @direct handle session other reply utc stored read present auth answered decoded named =>
    rcases of_lookup_insert found with ⟨same, rfl⟩ | ⟨_, old⟩
    · have copy := ledger.userCopy present (by rw [auth, ← named, same])
      exact .inr (.inl ⟨copy.1, copy.decoded answered decoded⟩)
    · exact .inl old
  | @confirmed handle session held reply present auth =>
    rcases of_lookup_insert found with ⟨same, rfl⟩ | ⟨_, old⟩
    · exact .inr (.inr (ledger.clockCopy present auth same.symm))
    · exact .inl old

theorem ReadCopy.unanswered (tickets : Tickets env s) (reading : views.reading) :
    ReadCopy views s.storage.replies s.storage.commands.length :=
  ⟨reading, fun value answered => by
    rw [List.getElem?_eq_none tickets.queue.answered] at answered
    simp at answered⟩

theorem Begun.ledger (change : Begun s t) (tickets : Tickets env s)
    (ledger : Ledger views userId s)
    (reading : (∃ handle session reply, t.sessions.lookup handle = some session ∧
      session.auth = .user userId reply) → views.reading)
    (clock : ∀ user maxObservedUtc, views.reading → views.read user →
      user.spec.status = .enabled →
      views.queued s.storage.commands.length (some { user with maxObservedUtc }) ∧
        views.clock { user with maxObservedUtc }) :
    Ledger views userId t := by
  cases change with
  | @lookedUp handle =>
    refine (ledger.push rfl).putSession _ fun named => .unanswered tickets (reading ?_)
    exact ⟨handle, _, _, by rw [lookup_insert_eq, if_pos rfl], by rw [named]⟩
  | @clocked handle session other reply utc stored user found auth answered decoded named
      available room late =>
    by_cases own : other = userId
    · subst own
      have read := ledger.userCopy found auth
      have enabled : user.spec.status = .enabled := by
        by_contra barred
        simp [userAvailableAt, userAccessAllowedAt, barred] at available
      obtain ⟨queued, held⟩ :=
        clock user utc read.1 (read.decoded answered decoded) enabled
      refine (ledger.pushed (?_ : _ = some (storedAs (some { user with maxObservedUtc := utc })))
        queued).putSession _ fun _ => held
      simp [writes, storedAs]
    · refine (ledger.push ?_).putSession _ fun same => absurd (named.symm.trans same) own
      simp [writes, own]

theorem PendingWrite.written_user (write : PendingWrite) (userId : String) :
    StorageWorker.written (.user userId) write.changes =
      StorageWorker.written (.user userId) (write.mutation.users.map fun entry =>
        (Key.user entry.1, storedAs entry.2)) := by
  rw [PendingWrite.changes, AdminMutation.changes, written_append,
    written_append, written_append,
    written_map write.mutation.rules (by simp),
    written_map write.mutation.credentials (by simp),
    written_eq_none (by simp), Option.none_or, Option.none_or, Option.none_or]
  rfl

theorem writes_changes {write : PendingWrite} {change : Option Value}
    (touches : StorageWorker.writes (.user userId) (.apply write.changes) = some change) :
    ∃ record, (userId, record) ∈ write.mutation.users ∧ change = storedAs record := by
  rw [writes, write.written_user] at touches
  obtain ⟨⟨other, record⟩, member, same⟩ := mem_map.mp (written_mem touches)
  rw [Prod.mk.injEq, Key.user.injEq] at same
  exact ⟨record, same.1 ▸ member, same.2.symm⟩

theorem Tickets.held_cases (tickets : Tickets env s) {command : Command}
    (holds : s.storage.held = some command) (userId : String) :
    StorageWorker.writes (.user userId) command = none ∨
      (∃ user, command = .put (.user userId) (.user (encodeUserRecord user))) ∨
      ∃ write record, s.pendingControl = some (.write write) ∧
        write.reply = s.storage.replies.length ∧ command = .apply write.changes ∧
        (userId, record) ∈ write.mutation.users := by
  have sent := held_eq_some holds
  cases touches : writes (.user userId) command with
  | none => exact .inl rfl
  | some =>
    right
    cases command with
    | put =>
      obtain ⟨other, user, rfl, rfl⟩ := tickets.queue.puts _ _ _ sent
      simp only [writes, Key.user.injEq] at touches
      split at touches
      · next same => exact .inl ⟨user, by rw [same]⟩
      · simp at touches
    | apply =>
      obtain ⟨write, pending, here, rfl⟩ := tickets.held_apply holds
      obtain ⟨record, member, _⟩ := writes_changes touches
      exact .inr ⟨write, record, pending, here, rfl, member⟩
    | _ => simp [writes] at touches

/-- Starting an operation on a user record makes copies where they may be. -/
theorem Loud.ledger (change : Loud env event s t) (tickets : Tickets env s)
    (ledger : Ledger views userId s)
    (settling : ∀ user durableChargedBytes, s.admin.users.lookup userId = some user →
      (∃ traffic, t.traffic.lookup userId = some traffic ∧ ¬ Settled traffic) →
      views.queued s.storage.commands.length (some { user with durableChargedBytes }) ∧
        views.settling { user with durableChargedBytes })
    (reading : (∃ request reply, t.pendingControl = some (.read request (.user userId) reply)) →
      views.reading)
    (writing : s.pendingControl = none → ∀ write, t.pendingControl = some (.write write) →
      ∀ record, (userId, record) ∈ write.mutation.users →
      views.queued s.storage.commands.length record ∧ views.writing record) :
    Ledger views userId t := by
  cases change with
  | debited _ _ settled _ cached | refunding _ _ settled _ cached =>
    exact ledger.settle (fun own => settling _ _ (own ▸ cached)
      ⟨_, by rw [own, setTraffic, lookup_insert_eq, if_pos rfl], by simp [Settled]⟩)
      (by simp [settled.1, settled.2])
  | askedUser request =>
    refine { ledger.push rfl with
      control := fun same => .unanswered tickets (reading ⟨request, _, by rw [same]⟩) }
  | @submitted input request clientId seq draft response receipt called idle parsed sequenced
      loaded checked drafts encoded stamped =>
    have drafted := draftMutation_drafted drafts
    have held : ∀ entry ∈ draft.mutation.users, entry.1 = userId →
        views.queued s.storage.commands.length entry.2 ∧ views.writing entry.2 := by
      intro entry member same
      exact writing idle _ rfl _ (by rw [← same]; exact member)
    have changes : draft.changes ++ [(.client clientId, some (.receipt receipt))] =
        PendingWrite.changes ⟨input.request, clientId, receipt, response, draft.mutation,
          s.storage.commands.length⟩ := by
      rw [drafted.changes_eq]
      rfl
    have sent : Ledger views userId
        { s with
          storage := s.storage.push
            (.apply (draft.changes ++ [(.client clientId, some (.receipt receipt))])) } := by
      cases touches : writes (.user userId)
          (.apply (draft.changes ++ [(.client clientId, some (.receipt receipt))])) with
      | none => exact ledger.push touches
      | some change =>
        rw [changes] at touches
        obtain ⟨record, member, same⟩ := writes_changes touches
        rw [changes]
        exact ledger.pushed (touches.trans (congrArg some same)) (held _ member rfl).1
    exact { sent with control := fun entry member same => (held entry member same).2 }

namespace Ledger

variable (ledger : Ledger views userId s)
include ledger

section Answers

variable {command : Command} {replied : Reply} (holds : s.storage.held = some command)
  (honest : replied = .done ∨ replied = .failed ∨ replied = answer s.storage.store command)
  (read : ∀ user, views.reading → views.stored s.storage.replies.length (some user) →
    views.read user)
include holds honest read

/-- A read that gets its answer now was sent as a read, and is answered from the store. -/
theorem answer_read {ticket : Nat}
    (asked : s.storage.commands[ticket]? = some (.get (.user userId)))
    (copy : ReadCopy views s.storage.replies ticket) :
    ReadCopy views (s.storage.replies ++ [replied]) ticket := by
  refine ⟨copy.1, fun value answered => ?_⟩
  rcases sent_cases answered with old | ⟨now, same⟩
  · exact copy.2 value old
  subst now same
  rw [held_eq_some holds, Option.some.injEq] at asked
  subst asked
  rcases honest with done | failed | answer
  · simp at done
  · simp at failed
  simp only [StorageWorker.answer, Reply.value.injEq] at answer
  obtain ⟨record, stored, view⟩ := ledger.store
  rw [stored] at answer
  obtain ⟨user, rfl, same⟩ := Option.map_eq_some_iff.mp answer.symm
  exact ⟨user, same.symm, read user copy.1 view⟩

theorem answer_sessions (tickets : Tickets env s) :
    s.sessions.All fun _ => SessionCopy views userId (s.storage.replies ++ [replied]) := by
  intro handle session found
  have copy : SessionCopy views userId s.storage.replies session := ledger.sessions _ _ found
  have asked := (tickets.sessions _ _ found).asked
  show SessionCopy views userId _ session
  unfold SessionCopy at copy ⊢
  split
  next auth =>
    rw [auth] at copy asked
    exact fun same => ledger.answer_read holds honest read (same ▸ asked.2) (copy same)
  next auth => rwa [auth] at copy
  trivial

theorem answer_control (tickets : Tickets env s) :
    ControlCopy views userId (s.storage.replies ++ [replied]) s.pendingControl := by
  have copy := ledger.control
  have asked := tickets.control
  match pending : s.pendingControl with
  | none | some (.read _ (.credential _) _) | some (.backup ..) => trivial
  | some (.write write) => rwa [pending] at copy
  | some (.read _ (.user _) _) =>
    rw [pending] at copy asked
    exact fun same => ledger.answer_read holds honest read (same ▸ asked) (copy same)

end Answers

/-- The worker moves a copy from the queue to the store, or from the store to an answer. -/
theorem finish (tickets : Tickets env s) (outcome : Outcome)
    (written : ∀ command record, s.storage.held = some command → outcome = .success →
      writes (.user userId) command = some (storedAs record) →
      views.queued s.storage.replies.length record →
      views.stored (s.storage.replies.length + 1) record)
    (kept : ∀ command record, s.storage.held = some command →
      (outcome = .success → writes (.user userId) command = none) →
      views.stored s.storage.replies.length record →
      views.stored (s.storage.replies.length + 1) record)
    (read : ∀ user, views.reading → views.stored s.storage.replies.length (some user) →
      views.read user) :
    Ledger views userId { s with storage := s.storage.finish outcome } := by
  have later {running : Bool} (runs : running = true → s.storage.running = true)
      (reply : Reply) (now : running = true) (position : Nat) (command : Command)
      (change : Option Value) (late : (s.storage.replies ++ [reply]).length ≤ position)
      (sent : s.storage.commands[position]? = some command)
      (touches : writes (.user userId) command = some change) :
      ∃ record, change = storedAs record ∧ views.queued position record := by
    rw [length_append, length_singleton] at late
    exact ledger.queue (runs now) position command change (by omega) sent touches
  obtain ⟨record, stored, view⟩ := ledger.store
  have finished := s.storage.finish_cases outcome
  generalize s.storage.finish outcome = worker at finished
  cases finished with
  | idle => exact ledger
  | stop holds =>
    refine ⟨⟨record, stored, ?_⟩, by simp, ledger.answer_sessions holds (.inl rfl) read tickets,
      ledger.answer_control holds (.inl rfl) read tickets, ledger.traffic⟩
    rw [length_append, length_singleton]
    exact kept .stop record holds (fun _ => rfl) view
  | @done command holds =>
    refine ⟨?_, later (fun runs => runs) _,
      ledger.answer_sessions holds (.inr (.inr rfl)) read tickets,
      ledger.answer_control holds (.inr (.inr rfl)) read tickets, ledger.traffic⟩
    dsimp only
    rw [length_append, length_singleton, lookup_effect]
    cases touches : writes (.user userId) command with
    | none => exact ⟨record, stored, kept command record holds (fun _ => touches) view⟩
    | some change =>
      obtain ⟨new, rfl, queued⟩ := ledger.queue (held_running holds) _ command change
        le_rfl (held_eq_some holds) touches
      exact ⟨new, rfl, written command new holds rfl touches queued⟩
  | @failed command outcome running holds failed =>
    refine ⟨⟨record, stored, ?_⟩, later (fun _ => held_running holds) _,
      ledger.answer_sessions holds (.inr (.inl rfl)) read tickets,
      ledger.answer_control holds (.inr (.inl rfl)) read tickets, ledger.traffic⟩
    rw [length_append, length_singleton]
    exact kept command record holds (fun success => absurd success failed) view

end Ledger

theorem Started.ledger {options : Options} {store : Table Key Value}
    (started : Started options store s)
    (stored : ∃ record, store.lookup (.user userId) = storedAs record ∧ views.stored 0 record) :
    Ledger views userId s where
  store := by
    rw [started.storage]
    exact stored
  queue _ position command change _ sent := by
    rw [started.storage] at sent
    simp [start] at sent
  sessions := by
    rw [started.sessions]
    exact .empty
  control := by
    rw [started.control]
    trivial
  traffic traffic present := by
    rw [started.traffic] at present
    simp at present

end Changes

end Snolc.Policy
