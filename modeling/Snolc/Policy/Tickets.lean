import Snolc.Policy.Drafts
import Snolc.Policy.Moves

/-! Every reply the instance waits for belongs to the command it was sent for. -/

namespace Snolc.Policy

open List State StorageWorker PolicySession

variable {s t : State} {obs : List Obs} {userId : String} {event : Event}

variable {env : Env}

/-- What a session waits for was asked for, and its waiting flows are its own. -/
structure SessionOk (commands : List Command) (session : PolicySession) : Prop where
  asked : match session.auth with
    | .waiting | .authenticated _ => True
    | .credential digest reply => session.role = .server ∧
        session.credentialDigest = some digest ∧
        commands[reply]? = some (.get (.credential digest))
    | .user userId reply => session.role = .server ∧
        commands[reply]? = some (.get (.user userId))
    | .clock user reply => session.role = .server ∧
        commands[reply]? = some (.put (.user user.id) (.user (encodeUserRecord user)))
  owned : ∀ identity ∈ session.pendingFlows, session.role = .server ∧
    session.auth = .authenticated identity.userId ∧
    identity.credentialDigest = session.credentialDigest

/-- What the traffic of a user waits for is a write of its record. -/
structure TrafficOk (commands : List Command) (userId : String) (traffic : UserTraffic) : Prop where
  debit : ∀ pending, traffic.debit = some pending → traffic.refund = none ∧
    pending.record.id = userId ∧
    commands[pending.reply]? = some (.put (.user userId) (.user (encodeUserRecord pending.record)))
  refund : ∀ pending, traffic.refund = some pending → traffic.debit = none ∧
    pending.record.id = userId ∧
    commands[pending.reply]? = some (.put (.user userId) (.user (encodeUserRecord pending.record)))

/-- An administrative write is the transaction of a request. -/
structure WriteOk (env : Env) (commands : List Command) (write : PendingWrite) : Prop where
  sent : commands[write.reply]? = some (.apply write.changes)
  named : ∀ entry ∈ write.mutation.users, ∀ user, entry.2 = some user → user.id = entry.1
  response : write.receipt.response = write.response
  hashed : write.receipt.requestHash = env.sha256 write.request
  parsed : ∃ request, ControlRequest.parse env.decodeControl write.request = .ok request ∧
    request.sequence = some (write.clientId, write.receipt.seq) ∧
    (∀ userId, request.changedUser = some userId →
      ∃ record, (userId, record) ∈ write.mutation.users) ∧
    ∃ before input draft, Drafted before input request draft ∧
      write.mutation = draft.mutation ∧
      env.encodeResponse (.mutation draft.revision draft.userId) = some write.response

/-- What the administrative operation in progress waits for was asked for. -/
def ControlOk (env : Env) (commands : List Command) : Option PendingControl → Prop
  | none => True
  | some (.write write) => WriteOk env commands write
  | some (.read _ (.user userId) reply) => commands[reply]? = some (.get (.user userId))
  | some (.read _ (.credential digest) reply) =>
    commands[reply]? = some (.get (.credential digest))
  | some (.backup request destination reply) =>
    ControlRequest.parse env.decodeControl request = .ok (.maintenanceBackup destination) ∧
      commands[reply]? = some (.backup destination)

/-- Only administrative writes are transactions, and only one of them is ever unanswered. -/
structure QueueOk (worker : StorageWorker) (control : Option PendingControl) : Prop where
  answered : worker.replies.length ≤ worker.commands.length
  puts : ∀ (ticket : Nat) key value, worker.commands[ticket]? = some (.put key value) →
    ∃ userId record, key = .user userId ∧ value = .user (encodeUserRecord record)
  applies : ∀ (ticket : Nat) changes, worker.commands[ticket]? = some (.apply changes) →
    ∃ write : PendingWrite, changes = write.changes
  serial : worker.running = true → ∀ (ticket : Nat) changes,
    worker.commands[ticket]? = some (.apply changes) →
    ticket < worker.replies.length ∨
      ∃ write, control = some (.write write) ∧ write.reply = ticket

/-- Every reply the instance waits for belongs to the command it was sent for. -/
structure Tickets (env : Env) (s : State) : Prop where
  sessions : s.sessions.All fun _ => SessionOk s.storage.commands
  traffic : s.traffic.All (TrafficOk s.storage.commands)
  users : s.admin.users.All fun userId user => user.id = userId
  control : ControlOk env s.storage.commands s.pendingControl
  queue : QueueOk s.storage s.pendingControl

section Positions

variable {α : Type} {items : List α} {position : Nat} {item last : α}

theorem sent_push (sent : items[position]? = some item) (last : α) :
    (items ++ [last])[position]? = some item := by
  rw [List.getElem?_append_left (List.getElem?_eq_some_iff.mp sent).1]
  exact sent

theorem sent_last (items : List α) (last : α) : (items ++ [last])[items.length]? = some last := by
  simp

theorem sent_cases (sent : (items ++ [last])[position]? = some item) :
    items[position]? = some item ∨ position = items.length ∧ item = last := by
  rcases Nat.lt_or_ge position items.length with old | new
  · exact .inl (by rwa [List.getElem?_append_left old] at sent)
  rw [List.getElem?_append_right new] at sent
  rcases Nat.eq_zero_or_pos (position - items.length) with first | later
  · rw [first] at sent
    simp only [List.getElem?_cons_zero, Option.some.injEq] at sent
    exact .inr ⟨by omega, sent.symm⟩
  · rw [List.getElem?_eq_none (by simpa using Nat.succ_le_of_lt later)] at sent
    simp at sent

end Positions

variable {traffic : UserTraffic} {session : PolicySession} {control : Option PendingControl}

section Push

variable {commands : List Command}

theorem SessionOk.push (ok : SessionOk commands session)
    (last : Command) : SessionOk (commands ++ [last]) session where
  asked := by
    have asked := ok.asked
    cases auth : session.auth with
    | waiting | authenticated => trivial
    | credential =>
      rw [auth] at asked
      exact ⟨asked.1, asked.2.1, sent_push asked.2.2 last⟩
    | user | clock =>
      rw [auth] at asked
      exact ⟨asked.1, sent_push asked.2 last⟩
  owned := ok.owned

theorem TrafficOk.push {userId : String} (ok : TrafficOk commands userId traffic) (last : Command) :
    TrafficOk (commands ++ [last]) userId traffic where
  debit pending waits :=
    have ⟨alone, named, sent⟩ := ok.debit pending waits
    ⟨alone, named, sent_push sent last⟩
  refund pending waits :=
    have ⟨alone, named, sent⟩ := ok.refund pending waits
    ⟨alone, named, sent_push sent last⟩

theorem WriteOk.push {write : PendingWrite} (ok : WriteOk env commands write) (last : Command) :
    WriteOk env (commands ++ [last]) write :=
  { ok with sent := sent_push ok.sent last }

theorem ControlOk.push (ok : ControlOk env commands control)
    (last : Command) : ControlOk env (commands ++ [last]) control := by
  match control with
  | none => trivial
  | some (.write write) => exact WriteOk.push ok last
  | some (.read _ (.user _) _) | some (.read _ (.credential _) _) => exact sent_push ok last
  | some (.backup _ _ _) => exact ⟨ok.1, sent_push ok.2 last⟩

end Push

/-- Commands that are not administrative writes. -/
def Command.Plain : Command → Prop
  | .put key value => ∃ userId record, key = .user userId ∧ value = .user (encodeUserRecord record)
  | .apply _ => False
  | _ => True

variable {worker : StorageWorker}

theorem QueueOk.send {old new : Option PendingControl} (ok : QueueOk worker old) (last : Command)
    (put : ∀ key value, last = .put key value →
      ∃ userId record, key = .user userId ∧ value = .user (encodeUserRecord record))
    (transaction : ∀ changes, last = .apply changes → ∃ write : PendingWrite,
      changes = write.changes ∧ new = some (.write write) ∧ write.reply = worker.commands.length)
    (kept : ∀ write, old = some (.write write) → new = some (.write write)) :
    QueueOk (worker.push last) new where
  answered := by
    have := ok.answered
    simp only [push, length_append, length_singleton]
    omega
  puts ticket key value sent := by
    rcases sent_cases sent with old | ⟨_, new⟩
    · exact ok.puts ticket key value old
    · exact put key value new.symm
  applies ticket changes sent := by
    rcases sent_cases sent with old | ⟨_, new⟩
    · exact ok.applies ticket changes old
    · obtain ⟨write, same, _⟩ := transaction changes new.symm
      exact ⟨write, same⟩
  serial running ticket changes sent := by
    rcases sent_cases sent with old | ⟨here, new⟩
    · exact (ok.serial running ticket changes old).imp_right
        fun ⟨write, waits, same⟩ => ⟨write, kept write waits, same⟩
    · obtain ⟨write, _, waits, same⟩ := transaction changes new.symm
      exact .inr ⟨write, waits, same.trans here.symm⟩

theorem QueueOk.push (ok : QueueOk worker control) (last : Command) (plain : last.Plain) :
    QueueOk (worker.push last) control :=
  ok.send last (by rintro _ _ rfl; exact plain) (by rintro _ rfl; exact plain.elim) fun _ => id

namespace Tickets

variable {s : State}

section

variable (ok : Tickets env s)
include ok

theorem push (last : Command) (plain : last.Plain) :
    Tickets env { s with storage := s.storage.push last } where
  sessions := ok.sessions.mono fun _ _ session => session.push last
  traffic := ok.traffic.mono fun _ _ traffic => traffic.push last
  users := ok.users
  control := ok.control.push last
  queue := ok.queue.push last plain

theorem putSession (handle : Nat) (new : SessionOk s.storage.commands session) :
    Tickets env { s with sessions := s.sessions.insert handle session } :=
  { ok with sessions := ok.sessions.insert new }

theorem setTraffic (new : TrafficOk s.storage.commands userId traffic) :
    Tickets env (s.setTraffic userId traffic) :=
  { ok with traffic := ok.traffic.insert new }

theorem setUser {user : UserRecord} (named : user.id = userId) :
    Tickets env (s.setUser userId user) :=
  { ok with users := ok.users.insert named }

theorem ask {last : Command} {pending : PendingControl} (plain : last.Plain)
    (idle : s.pendingControl = none)
    (control : ControlOk env (s.storage.commands ++ [last]) (some pending)) :
    Tickets env { s with storage := s.storage.push last, pendingControl := some pending } :=
  { ok.push last plain with
    control
    queue := ok.queue.send last (by rintro _ _ rfl; exact plain)
      (by rintro _ rfl; exact plain.elim) fun _ waits => by simp [idle] at waits }

theorem clear {maintenance : Bool}
    (answered : s.storage.running = true → ∀ write, s.pendingControl = some (.write write) →
      write.reply < s.storage.replies.length) :
    Tickets env { s with pendingControl := none, maintenance } :=
  { ok with
    control := trivial
    queue := { ok.queue with
      serial := fun running ticket changes sent => by
        rcases ok.queue.serial running ticket changes sent with old | ⟨write, waits, rfl⟩
        · exact .inl old
        · exact .inl (answered running write waits) } }

end

theorem answered_of_tryRecv {ticket : Nat}
    (running : worker.running = true) (late : worker.tryRecv ticket ≠ .error .empty) :
    ticket < worker.replies.length := by
  by_contra unanswered
  apply late
  unfold tryRecv
  rw [List.getElem?_eq_none (not_lt.mp unanswered)]
  simp [running]

end Tickets

theorem SessionOk.idle {commands : List Command}
    (ok : SessionOk commands session) (unnamed : session.userId = none) :
    session.pendingFlows = [] := by
  rw [eq_nil_iff_forall_not_mem]
  intro identity member
  have auth := (ok.owned identity member).2.1
  simp [userId, auth] at unnamed

theorem Tickets.write {write : PendingWrite} (ok : Tickets env s)
    (pending : s.pendingControl = some (.write write)) : WriteOk env s.storage.commands write := by
  have control := ok.control
  rwa [pending] at control

theorem Tickets.held_apply {changes : List (Key × Option Value)} (ok : Tickets env s)
    (holds : s.storage.held = some (.apply changes)) :
    ∃ write, s.pendingControl = some (.write write) ∧
      write.reply = s.storage.replies.length ∧ changes = write.changes := by
  have sent := held_eq_some holds
  rcases ok.queue.serial (held_running holds) _ _ sent with
    before | ⟨write, pending, here⟩
  · exact absurd before (lt_irrefl _)
  · have same := (ok.write pending).sent
    rw [here, sent, Option.some.injEq, Command.apply.injEq] at same
    exact ⟨write, pending, here, same⟩

theorem TrafficOk.settled (commands : List Command) (userId : String)
    (settled : Settled traffic) : TrafficOk commands userId traffic where
  debit pending waits := by simp [settled.1] at waits
  refund pending waits := by simp [settled.2] at waits

theorem Stalled.settled {s : State} {userId : String} {next : UserTraffic}
    (ok : TrafficOk s.storage.commands userId traffic) (stalled : Stalled s traffic next) :
    Settled next := by
  cases stalled with
  | unasked settled => exact settled
  | debit waits | credit waits => exact ⟨rfl, (ok.debit _ waits).1⟩
  | refund waits | refused waits => exact ⟨(ok.refund _ waits).1, rfl⟩

theorem Tickets.unread {request : Bytes} {kind : ReadKind} {reply : Nat} (ok : Tickets env s)
    (pending : s.pendingControl = some (.read request kind reply)) :
    Tickets env { s with pendingControl := none } :=
  ok.clear fun _ write other => by simp [pending] at other

theorem Tickets.acknowledge {write : PendingWrite} (ok : Tickets env s)
    (pending : s.pendingControl = some (.write write))
    (answered : s.storage.replies[write.reply]? = some .done) :
    Tickets env { s with pendingControl := none } := by
  refine ok.clear fun _ other same => ?_
  rw [pending, Option.some.injEq, PendingControl.write.injEq] at same
  exact same ▸ (List.getElem?_eq_some_iff.mp answered).1

/-- Quiet changes keep the tickets. -/
theorem Quiet.tickets (change : Quiet env s obs t) (ok : Tickets env s) : Tickets env t := by
  cases change with
  | received => exact { ok with queue := { ok.queue with } }
  | noted => exact ok
  | loadedUser _ pending _ loads =>
    refine { ok.unread pending with users := fun userId user found => ?_ }
    rcases loads userId user found with old | ⟨rfl, named, _⟩
    · exact ok.users userId user old
    · exact named
  | loadedCredential _ pending => exact { ok.unread pending with }
  | gaveUp maintenance forsaken =>
    exact ok.clear fun running write pending =>
      Tickets.answered_of_tryRecv running (forsaken write pending).1
  | acknowledged utc evict _ _ pending answered _ applied =>
    have idle := ok.acknowledge pending answered
    refine { idle with
      sessions := idle.sessions.sub applied.sessions
      traffic := idle.traffic.sub applied.traffic
      users := fun userId user found => ?_ }
    rcases applyCache_users _ _ _ _ userId user found with ⟨old, _⟩ | new
    · exact ok.users userId user old
    · exact (ok.write pending).named _ new user rfl
  | @backedUp request destination idle parsed =>
    have asked := @Tickets.ask _ _ ok (.backup destination)
      (.backup request destination s.storage.commands.length) trivial idle
      ⟨parsed, sent_last _ _⟩
    exact { asked with }
  | askedCredential request digest idle => exact ok.ask trivial idle (sent_last _ _)
  | observed =>
    refine { ok with users := fun userId user found => ?_ }
    simp only [observeUtc, Table.lookup_mapValues, Option.map_eq_some_iff] at found
    obtain ⟨old, cached, rfl⟩ := found
    exact ok.users userId old cached
  | opened absent cached built =>
    obtain ⟨undebited, unrefunded⟩ := newTraffic_ok built
    exact ok.setTraffic (.settled _ _ ⟨undebited, unrefunded⟩)
  | credited present healthy waiting =>
    obtain ⟨alone, named, _⟩ := (ok.traffic _ _ present).debit _ waiting
    refine Tickets.setUser ?_ named
    exact ok.setTraffic (.settled _ _ ⟨rfl, alone⟩)
  | refunded checkpointAt present healthy waiting =>
    obtain ⟨alone, named, _⟩ := (ok.traffic _ _ present).refund _ waiting
    refine Tickets.setUser ?_ named
    exact ok.setTraffic (.settled _ _ ⟨alone, rfl⟩)
  | stalled present healthy stalled =>
    exact ok.setTraffic (.settled _ _ (stalled.settled (ok.traffic _ _ present)))
  | retimed checkpointAt present => exact ok.setTraffic { ok.traffic _ _ present with }
  | retired => exact { ok with traffic := ok.traffic.sub (.retain _ _) }
  | cut => exact { ok with }
  | tuned channel subscribed lastStatus found =>
    exact ok.putSession _ { ok.sessions _ _ found with }
  | denied channel found unnamed =>
    have session := ok.sessions _ _ found
    exact ok.putSession _ ⟨trivial, by simp [session.idle unnamed]⟩
  | dropped => exact { ok with sessions := ok.sessions.sub (.erase _ _) }
  | @presented handle session digest found server waiting =>
    have idle := (ok.sessions _ _ found).idle (by simp [userId, waiting])
    exact (ok.push (.get (.credential digest)) trivial).putSession handle
      ⟨⟨server, rfl, sent_last _ _⟩, by simp [idle]⟩
  | @named handle session userId found client =>
    have session := ok.sessions _ _ found
    refine ok.putSession _ ⟨trivial, fun identity member => ?_⟩
    have server := (session.owned identity member).1
    simp [client] at server
  | closed => exact { ok with sessions := .empty }
  | stopping =>
    have pushed := ok.push .stop trivial
    exact { pushed with queue := { pushed.queue with } }

theorem Path.tickets (path : Path env s obs t) (ok : Tickets env s) : Tickets env t := by
  induction path with
  | refl => exact ok
  | step change _ ih => exact ih (change.tickets ok)

theorem prepareCommit_ok {sequencer : AdminSequencer} {clientId : String} {seq : Nat}
    {requestHash response : Bytes} {receipt : Receipt}
    (ok : sequencer.prepareCommit clientId seq requestHash response = .ok receipt) :
    receipt = { seq, requestHash, response } := by
  unfold AdminSequencer.prepareCommit at ok
  obtain ⟨_, _, ok⟩ := bind_ok ok
  split at ok <;> repeat' split at ok
  all_goals
    simp_all [throw, throwThe, MonadExceptOf.throw, Bind.bind, Except.bind, Pure.pure, Except.pure]

theorem Drafted.named {s : State} {input : ControlInput} {request : ControlRequest}
    {draft : Draft} (drafted : Drafted s input request draft) :
    ∀ entry ∈ draft.mutation.users, ∀ user, entry.2 = some user → user.id = entry.1 := by
  cases drafted <;> simp [putUser, putCredential]

theorem Drafted.changes_user {input : ControlInput} {request : ControlRequest} {draft : Draft}
    (drafted : Drafted s input request draft)
    (names : s.admin.users.All fun userId user => user.id = userId)
    (changed : request.changedUser = some userId) :
    ∃ record, (userId, record) ∈ draft.mutation.users := by
  cases drafted with
  | @rewritten _ id old new cached rewritten =>
    rw [rewritten.changedUser, Option.some.injEq] at changed
    have named : new.id = userId := by rw [rewritten.next.1, names id old cached, changed]
    exact ⟨some new, by simp [putUser, named]⟩
  | deleted =>
    simp only [ControlRequest.changedUser, Option.some.injEq] at changed
    exact ⟨none, by simp [changed]⟩
  | _ => simp [ControlRequest.changedUser] at changed

/-- Starting an operation keeps the tickets. -/
theorem Loud.tickets (change : Loud env event s t) (ok : Tickets env s) : Tickets env t := by
  cases change with
  | debited present healthy settled asked cached =>
    refine Tickets.setTraffic (ok.push (.put _ _) ⟨_, _, rfl, rfl⟩) ⟨?_, by simp [settled.2]⟩
    rintro pending ⟨⟩
    exact ⟨settled.2, (ok.users _ _ cached :), sent_last _ _⟩
  | refunding present healthy settled asked cached =>
    refine Tickets.setTraffic (ok.push (.put _ _) ⟨_, _, rfl, rfl⟩) ⟨by simp [settled.1], ?_⟩
    rintro pending ⟨⟩
    exact ⟨settled.1, (ok.users _ _ cached :), sent_last _ _⟩
  | askedUser request userId idle => exact ok.ask trivial idle (sent_last _ _)
  | @submitted input request clientId seq draft response receipt called idle parsed sequenced
      loaded checked drafts encoded stamped =>
    have drafted := draftMutation_drafted drafts
    have receipt := prepareCommit_ok stamped
    subst receipt
    exact
      { sessions := ok.sessions.mono fun _ _ session => session.push _
        traffic := ok.traffic.mono fun _ _ traffic => traffic.push _
        users := ok.users
        control :=
          { sent := by
              rw [PendingWrite.changes, ← drafted.changes_eq]
              exact sent_last _ _
            named := drafted.named
            response := rfl
            hashed := rfl
            parsed := ⟨request, parsed, sequenced, fun _ => drafted.changes_user ok.users,
              s, input, draft, drafted, rfl, encoded⟩ }
        queue := by
          refine ok.queue.send _ (by simp) ?_ fun write waits => by simp [idle] at waits
          rintro _ ⟨⟩
          exact ⟨_, by rw [PendingWrite.changes, ← drafted.changes_eq], rfl, rfl⟩ }

theorem Begun.tickets (change : Begun s t) (ok : Tickets env s) : Tickets env t := by
  cases change with
  | @lookedUp handle session digest reply credential found auth =>
    have session := ok.sessions _ _ found
    have asked := session.asked
    rw [auth] at asked
    have idle := session.idle (by simp [userId, auth])
    exact (ok.push (.get _) trivial).putSession handle ⟨⟨asked.1, sent_last _ _⟩, by simp [idle]⟩
  | @clocked handle session userId reply utc stored user found auth answered decoded named
      available room late =>
    have session := ok.sessions _ _ found
    have asked := session.asked
    rw [auth] at asked
    have idle := session.idle (by simp [PolicySession.userId, auth])
    subst named
    exact (ok.push (.put _ _) ⟨_, _, rfl, rfl⟩).putSession handle
      ⟨⟨asked.1, sent_last _ _⟩, by simp [idle]⟩

theorem Login.tickets (change : Login s t) (ok : Tickets env s) : Tickets env t := by
  cases change with
  | direct found auth | confirmed found auth =>
    -- Both put the session back as authenticated and cache the record under its own name.
    have idle := (ok.sessions _ _ found).idle (by simp [userId, auth])
    exact { ok with
      sessions := ok.sessions.insert ⟨trivial, by simp [idle]⟩
      users := ok.users.insert rfl }

theorem Host.tickets (change : Host env s event obs t) (ok : Tickets env s) : Tickets env t := by
  cases change with
  | refused | skipped | unmetered | unmeteredDatagram => exact { ok with }
  | joined later waiting undigested empty =>
    exact { ok with sessions := ok.sessions.insert ⟨by rw [waiting]; trivial, by simp [empty]⟩ }
  | @admitted handle flow utc metadata session identity admitted found =>
    have held := ok.sessions _ _ found
    obtain ⟨open_, there, server, auth, digest, _⟩ := admission_session admitted
    rw [found, Option.some.injEq] at there
    subst there
    refine ok.putSession handle ⟨held.asked, fun other member => ?_⟩
    rcases mem_append.mp member with old | new
    · exact held.owned other old
    rw [mem_singleton] at new
    subst new
    exact ⟨server, auth, digest⟩
  | consumed _ found _ waiting | streamed _ found _ waiting | datagrammed _ found _ waiting =>
    -- Taking an identity off a session leaves fewer of them.
    have held := ok.sessions _ _ found
    refine { ok with sessions := ok.sessions.insert ⟨held.asked, fun identity member => ?_⟩ }
    exact held.owned identity (by rw [waiting]; simp [member])

theorem Tickets.finish (ok : Tickets env s) (outcome : Outcome) :
    Tickets env { s with storage := s.storage.finish outcome } := by
  have room {command : Command} (holds : s.storage.held = some command) :
      s.storage.replies.length < s.storage.commands.length :=
    (List.getElem?_eq_some_iff.mp (held_eq_some holds)).1
  have later (reply : Reply) {ticket : Nat}
      (old : ticket < s.storage.replies.length ∨
        ∃ write, s.pendingControl = some (.write write) ∧ write.reply = ticket) :
      ticket < (s.storage.replies ++ [reply]).length ∨
        ∃ write, s.pendingControl = some (.write write) ∧ write.reply = ticket := by
    rcases old with before | waits
    · exact .inl (by simp only [length_append, length_singleton]; omega)
    · exact .inr waits
  have finished := s.storage.finish_cases outcome
  generalize s.storage.finish outcome = worker at finished
  cases finished with
  | idle => exact ok
  | stop holds =>
    have := room holds
    exact { ok with queue := { ok.queue with
      answered := by simp only [length_append, length_singleton]; omega
      serial := by simp } }
  | done holds =>
    have := room holds
    exact { ok with queue := { ok.queue with
      answered := by simp only [length_append, length_singleton]; omega
      serial := fun running ticket changes sent =>
        later _ (ok.queue.serial running ticket changes sent) } }
  | failed holds =>
    have := room holds
    exact { ok with queue := { ok.queue with
      answered := by simp only [length_append, length_singleton]; omega
      serial := fun _ ticket changes sent =>
        later _ (ok.queue.serial (held_running holds) ticket changes sent) } }

theorem Tickets.pumped {s t : State} (ok : Tickets env s) (pumps : Pumps s t) :
    Tickets env t := by
  have users : t.admin.users.All fun userId user => user.id = userId := by
    intro userId user found
    obtain ⟨old, cached, _, _, rfl⟩ := pumps.users userId user found
    exact ok.users userId old cached
  have traffic : t.traffic.All (TrafficOk s.storage.commands) := by
    intro userId traffic found
    obtain ⟨old, present, _, _, _, _, _, rfl⟩ := pumps.traffic userId traffic found
    exact { ok.traffic userId old present with }
  obtain ⟨_, _, _, _, _, _, _, _, rfl⟩ := pumps.rest
  exact { ok with users, traffic }

theorem Move.tickets (move : Move env s event obs t) (ok : Tickets env s) : Tickets env t := by
  cases move with
  | finished => exact ok.finish _
  | pumped _ rest => exact ok.pumped (rest ▸ s.pumpFlows_pumps _)
  | quiet path => exact path.tickets ok
  | loud path loud => exact loud.tickets (path.tickets ok)
  | begun _ begun => exact begun.tickets ok
  | login _ login path => exact path.tickets (login.tickets ok)
  | host host => exact host.tickets ok

/-- An instance that has just started. -/
structure Started (options : Options) (store : Table Key Value) (s : State) : Prop where
  options : s.options = options
  storage : s.storage = StorageWorker.start store s.storage.capacity
  users : s.admin.users = ∅
  credentials : s.admin.credentials = ∅
  rules : s.admin.rules = ∅
  control : s.pendingControl = none
  sessions : s.sessions = ∅
  flows : s.flows = ∅
  datagramFlows : s.datagramFlows = ∅
  traffic : s.traffic = ∅
  receipts : ∃ sequencer receipts limit, AdminSequencer.new limit = .ok sequencer ∧
    StorageWorker.scanClients store limit = .ok receipts ∧
    State.restoreReceipts sequencer receipts = .ok s.admin.sequencer

variable {started sessionNext flowNext : Nat} {options : Options}

theorem initializeInstance_started {store : Table Key Value}
    (ok : State.initializeInstance env options store started sessionNext flowNext = .ok s) :
    Started options store s := by
  unfold initializeInstance at ok
  obtain ⟨_, _, ok⟩ := bind_ok ok
  obtain ⟨globalRate, _, ok⟩ := bind_ok ok
  obtain ⟨sequencer, opened, ok⟩ := bind_ok ok
  obtain ⟨receipts, scanned, ok⟩ := bind_ok ok
  obtain ⟨restored, restores, ok⟩ := bind_ok ok
  obtain ⟨clientCredential, _, ok⟩ := bind_ok ok
  simp only [Pure.pure, Except.pure, Except.ok.injEq] at ok
  subst ok
  exact ⟨rfl, rfl, rfl, rfl, rfl, rfl, rfl, rfl, rfl, rfl,
    sequencer, receipts, _, mapStatus_ok opened, mapStatus_ok scanned, restores⟩

theorem Started.store {store : Table Key Value} (started : Started options store s) :
    s.storage.store = store := by
  rw [started.storage]
  rfl

theorem Started.tickets {store : Table Key Value} (started : Started options store s) :
    Tickets env s where
  sessions := by rw [started.sessions]; exact .empty
  traffic := by rw [started.traffic]; exact .empty
  users := by rw [started.users]; exact .empty
  control := by rw [started.control]; trivial
  queue := by
    rw [started.storage]
    exact ⟨Nat.zero_le _, by simp [start], by simp [start],
      by simp [start]⟩

/-- The instance of a running world. -/
def World.Holds (holds : State → Prop) : World → Prop
  | .down _ => True
  | .up _ s => holds s

instance (holds : State → Prop) [DecidablePred holds] (world : World) :
    Decidable (world.Holds holds) :=
  match world with
  | .down _ => isTrue trivial
  | .up _ s => inferInstanceAs (Decidable (holds s))

/-- The tickets are in order in every state of every run. -/
theorem run_tickets {guard : List Obs → World → Event → Prop} {history : List Obs}
    {world : World} (run : (machine env).Run Fresh guard history world) :
    world.Holds (Tickets env) := by
  refine machine_invariant (fun _ world => world.Holds (Tickets env)) trivial ?_ run
  rintro history world event obs next _ held _ advance
  cases advance with
  | idle => exact held
  | started started => exact (initializeInstance_started started).tickets
  | moved move => exact move.tickets held
  | stopped | crashed => trivial

end Snolc.Policy
