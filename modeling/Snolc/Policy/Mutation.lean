import Snolc.Policy.Calls
import Snolc.Policy.Receipts
import Snolc.Policy.Register

/-! No administrative change of a user is lost while nothing else handles its record. -/

namespace Snolc.Policy

open List StorageWorker

variable {env : Env} {userId : String} {may : PendingWrite → Prop}

/-- While the user is being changed, no login and no settlement of it is under way. -/
def State.MutationAlone (userId : String) (s : State) : Prop :=
  s.MutationUnderWay userId → ¬ s.LoginUnderWay userId ∧ ¬ s.SettlementUnderWay userId

instance (userId : String) : DecidablePred (State.MutationAlone userId) :=
  fun s => inferInstanceAs (Decidable (s.MutationUnderWay userId → _))

/-- A record that shows a version. -/
def Shows (value : Option Version) (record : Option UserRecord) : Prop :=
  record.map UserRecord.version = value

/-- How far the instance has come with what the register is doing. -/
def Register.Reached (userId : String) (s : State) : Register → Prop
  | still _ => ¬ s.MutationUnderWay userId
  | moving write _ _ executed => s.pendingControl = some (.write write) ∧
      (executed = true → s.storage.replies[write.reply]? = some .done) ∧
      (executed = false → s.storage.replies.length ≤ write.reply)

/-- What the copies of the record show while the register does what it does. -/
def Register.views : Register → Views
  | still value => .steady (Shows value) False
  | moving write old new _ => .passing (Shows old) (Shows new) write.reply True

/-- An instance over the durable half of a register. -/
structure Represents (userId : String) (register : Register) (s : State) : Prop where
  store : ∃ record, s.storage.store.lookup (.user userId) = storedAs record ∧
    Shows register.current record
  cached : s.Caches userId fun user => some user.version = register.known
  reached : register.Reached userId s
  copies : s.MutationAlone userId → Ledger register.views userId s

/--
A register that takes observations along and ends at a state.

One of a user that does not exist stands still, and nothing concerns the user.
-/
def Register.Follows (env : Env) (userId : String) (may : PendingWrite → Prop)
    (history : List Obs) (register : Register) (obs : List Obs) (t : State) : Prop :=
  ∃ next, Register.Run env userId may (history ++ obs) next ∧ Represents userId next t ∧
    (register = .still none → next = register ∧ Silent env userId obs)

/-- As long as its name is not drawn, nothing concerns a user, and its register stands still. -/
def Register.Unnamed (env : Env) (userId : String) (history : List Obs) (register : Register) :
    Prop :=
  .drew userId ∉ history → Silent env userId history ∧ ∃ value, register = .still value

section Steps

variable {s t : State} {obs history : List Obs} {register : Register} {write : PendingWrite}

theorem Quiet.pendingControl_write (change : Quiet env s obs t)
    (pending : s.pendingControl = some (.write write)) :
    t.pendingControl = some (.write write) ∧ (∀ o ∈ obs, o.plain = true) ∨
      t.pendingControl = none ∧ obs = [] ∧ Forsaken s write ∨
      t.pendingControl = none ∧ obs = [.acknowledged write] ∧
        s.storage.replies[write.reply]? = some .done := by
  cases change with
  | noted obs plain => exact .inl ⟨pending, by simpa using plain⟩
  | loadedUser _ other | loadedCredential _ other => simp [pending] at other
  | gaveUp maintenance forsaken => exact .inr (.inl ⟨rfl, rfl, forsaken write pending⟩)
  | acknowledged _ _ _ _ waits answered =>
    rw [pending, Option.some.injEq, PendingControl.write.injEq] at waits
    subst waits
    exact .inr (.inr ⟨rfl, rfl, answered⟩)
  | backedUp idle | askedCredential _ _ idle => simp [pending] at idle
  | _ => exact .inl ⟨pending, by simp⟩

theorem Quiet.obs_cases {o : Obs} (change : Quiet env s obs t) (member : o ∈ obs) :
    o.plain = true ∨ ∃ write, o = .acknowledged write ∧
      s.pendingControl = some (.write write) := by
  cases change with
  | noted obs plain =>
    rw [mem_singleton] at member
    exact .inl (member ▸ plain)
  | acknowledged _ _ _ _ pending =>
    rw [mem_singleton] at member
    exact .inr ⟨_, member, pending⟩
  | _ => simp at member

theorem Obs.not_concerns_of_plain {o : Obs} (plain : o.plain = true) :
    ¬ o.Concerns env userId := by
  cases o <;> simp_all [Obs.plain, Obs.Concerns]

/-- Observations that concern nobody are noted one after another. -/
theorem Register.Run.notes (run : Register.Run env userId may history register)
    (silent : Silent env userId obs) :
    Register.Run env userId may (history ++ obs) register := by
  induction obs generalizing history with
  | nil => simpa using run
  | cons first rest ih =>
    have noted := ih (run.note (silent first (by simp))) fun o member => silent o (by simp [member])
    simpa using noted

theorem Tickets.not_concerns (tickets : Tickets env s)
    (pending : s.pendingControl = some (.write write)) (unnamed : ¬ s.MutationUnderWay userId) :
    ¬ (Obs.acknowledged write).Concerns env userId := by
  rintro (⟨record, member⟩ | ⟨request, asked, changed⟩)
  · exact unnamed ⟨write, record, pending, member⟩
  · obtain ⟨parsed, ok, _, names, _⟩ := (tickets.write pending).parsed
    simp only [PendingWrite.asked, ok, Except.toOption, Option.some.injEq] at asked
    obtain ⟨record, member⟩ := names userId (asked ▸ changed)
    exact unnamed ⟨write, record, pending, member⟩

variable {user : UserRecord}

theorem Recached.version (recached : Recached s obs userId user)
    (alone : s.MutationAlone userId) (rep : Represents userId register s)
    (unconfirmed : Silent env userId obs) : some user.version = register.known := by
  have ledger := rep.copies alone
  cases recached with
  | @kept old maxObservedUtc cached => exact rep.cached old cached
  | loaded pending answered decoded =>
    have copy := ledger.control
    rw [pending] at copy
    cases register with
    | still => exact (copy rfl).decoded answered decoded
    | moving => exact (copy rfl).1.elim
  | @settled traffic pending present waits =>
    have copy := ledger.traffic _ present _ waits
    cases register with
    | still => exact copy
    | moving => exact (copy.1 trivial).elim
  | written pending member named =>
    exact absurd (.inl ⟨_, named⟩) (unconfirmed _ member)

theorem Recached.confirmed {old new : Option Version}
    {executed : Bool} (recached : Recached s [.acknowledged write] userId user)
    (alone : s.MutationAlone userId) (rep : Represents userId (.moving write old new executed) s)
    (run : Register.Run env userId may history (.moving write old new executed)) :
    some user.version = new := by
  obtain ⟨_, _, submits⟩ := run.submitted
  obtain ⟨record, users, version⟩ := submits.names
  obtain ⟨waits, _⟩ := rep.reached
  cases recached with
  | kept maxObservedUtc cached unconfirmed =>
    exact absurd ⟨record, by simp [users]⟩ (unconfirmed (.acknowledged write) (by simp))
  | loaded pending => simp [waits] at pending
  | settled present settling =>
    exact (((rep.copies alone).traffic _ present _ settling).1 trivial).elim
  | written pending _ named =>
    rw [waits, Option.some.injEq, PendingControl.write.injEq] at pending
    rw [← pending, users, mem_singleton, Prod.mk.injEq] at named
    rw [← version, ← named.2]
    rfl

/-- A register that moves has a write of its user under way. -/
theorem Register.Run.underWay {old new : Option Version} {executed : Bool}
    (run : Register.Run env userId may history (.moving write old new executed))
    (pending : t.pendingControl = some (.write write)) : t.MutationUnderWay userId := by
  obtain ⟨_, _, submits⟩ := run.submitted
  obtain ⟨record, users, _⟩ := submits.names
  exact ⟨write, record, pending, by simp [users]⟩

theorem Quiet.represents_same (change : Quiet env s obs t) (alone : s.MutationAlone userId)
    (rep : Represents userId register s) (silent : Silent env userId obs)
    (reached : register.Reached userId t) : Represents userId register t where
  store := by
    rw [change.queues.store]
    exact rep.store
  cached user found := (change.recached user found).version alone rep silent
  reached := reached
  copies _ := change.ledger (rep.copies alone)

/-- Quiet changes take the register along; one that stands still stays as it is. -/
theorem Quiet.represents (change : Quiet env s obs t) (tickets : Tickets env s)
    (seqs : Sequences history s) (alone : s.MutationAlone userId)
    (run : Register.Run env userId may history register) (rep : Represents userId register s) :
    register.Follows env userId may history obs t := by
  cases register with
  | still =>
    have idle : ¬ s.MutationUnderWay userId := rep.reached
    have silent : Silent env userId obs := by
      intro o member
      rcases change.obs_cases member with plain | ⟨write, rfl, pending⟩
      · exact Obs.not_concerns_of_plain plain
      · exact tickets.not_concerns pending idle
    refine ⟨_, run.notes silent, ?_, fun _ => ⟨rfl, silent⟩⟩
    exact change.represents_same alone rep silent
      fun underWay => idle (change.fewer.mutation underWay)
  | moving write old new executed =>
    obtain ⟨pending, done⟩ := rep.reached
    have unsettled : ¬ t.SettlementUnderWay userId := fun underWay =>
      (alone (run.underWay pending)).2 (change.fewer.settlement underWay)
    have idle (idleNow : t.pendingControl = none) : ¬ t.MutationUnderWay userId := by
      rintro ⟨_, _, other, _⟩
      simp [idleNow] at other
    have ledger := change.ledger (rep.copies alone)
    rcases change.pendingControl_write pending with ⟨same, plain⟩ | ⟨idleNow, rfl, late, forsaken⟩ |
      ⟨idleNow, rfl, answered⟩
    · -- The write goes on.
      have silent : Silent env userId obs :=
        fun o member => Obs.not_concerns_of_plain (plain o member)
      refine ⟨_, run.notes silent, change.represents_same alone rep silent ⟨same, ?_⟩, by simp⟩
      rw [change.queues.replies]
      exact done
    · -- A write that is given up was not executed, and never will be.
      cases executed with
      | true =>
        obtain ⟨fault, refused⟩ := forsaken (tryRecv_ok.mpr (done.1 rfl))
        obtain ⟨sequencer, committed⟩ := seqs.next write (by simp [State.pendingWrite, pending])
        simp [committed] at refused
      | false =>
        have late : s.storage.replies.length ≤ write.reply := done.2 rfl
        have stopped : s.storage.running = false := by
          by_contra running
          have unanswered := Tickets.answered_of_tryRecv (by simpa using running) ‹_›
          omega
        refine ⟨.still old, by simpa using run.lose, ⟨?_, ?_, idle idleNow, fun _ => ?_⟩, by simp⟩
        · rw [change.queues.store]
          exact rep.store
        · intro user found
          have silent : Silent env userId [] := by simp
          have known := (change.recached user found).version alone rep silent
          exact known
        · refine ledger.lose ?_ ?_ unsettled (idle idleNow)
          · rw [change.queues.replies]
            exact late
          · rw [change.queues.running]
            exact stopped
    · -- An acknowledged write was executed.
      have before := (List.getElem?_eq_some_iff.mp answered).1
      cases executed with
      | false =>
        have late : s.storage.replies.length ≤ write.reply := done.2 rfl
        omega
      | true =>
        refine ⟨.still new, run.acknowledge, ⟨?_, fun user found => ?_, idle idleNow, fun _ => ?_⟩,
          by simp⟩
        · rw [change.queues.store]
          exact rep.store
        · exact (change.recached user found).confirmed alone rep run
        · refine ledger.land ?_ unsettled (idle idleNow)
          rw [change.queues.replies]
          exact before

theorem Fewer.mutationAlone (fewer : Fewer userId s t) (alone : s.MutationAlone userId) :
    t.MutationAlone userId := fun underWay =>
  have ⟨noLogin, noSettlement⟩ := alone (fewer.mutation underWay)
  ⟨fun login => noLogin (fewer.login login),
    fun settlement => noSettlement (fewer.settlement settlement)⟩

theorem Path.represents (path : Path env s obs t) (tickets : Tickets env s)
    (seqs : Sequences history s) (alone : s.MutationAlone userId)
    (run : Register.Run env userId may history register) (rep : Represents userId register s) :
    register.Follows env userId may history obs t := by
  induction path generalizing history register with
  | refl => exact ⟨register, by simpa using run, rep, fun _ => ⟨rfl, by simp⟩⟩
  | @step s mid t obs rest change _ ih =>
    obtain ⟨between, reaches, held, stands⟩ := change.represents tickets seqs alone run rep
    obtain ⟨next, arrives, holds, stays⟩ := ih (change.tickets tickets) (change.sequences seqs)
      (change.fewer.mutationAlone alone) reaches held
    refine ⟨next, by simpa using arrives, holds, fun unborn => ?_⟩
    obtain ⟨same, silent⟩ := stands unborn
    obtain ⟨again, quiet⟩ := stays (same.trans unborn)
    exact ⟨again.trans same, fun o member =>
      (mem_append.mp member).elim (silent o) (quiet o)⟩

theorem Represents.keep (rep : Represents userId register s)
    (store : t.storage.store = s.storage.store) (replies : t.storage.replies = s.storage.replies)
    (admin : t.admin = s.admin) (write : ∀ write,
      t.pendingControl = some (.write write) ↔ s.pendingControl = some (.write write))
    (copies : t.MutationAlone userId → Ledger register.views userId t) :
    Represents userId register t where
  store := by
    rw [store]
    exact rep.store
  cached user found := rep.cached user (by rwa [admin] at found)
  reached := by
    have reached := rep.reached
    cases register with
    | still =>
      rintro ⟨other, record, pending, member⟩
      exact reached ⟨other, record, (write other).mp pending, member⟩
    | moving other =>
      obtain ⟨pending, done⟩ := reached
      refine ⟨(write other).mpr pending, ?_⟩
      rw [replies]
      exact done
  copies := copies

variable {event : Event}

theorem Loud.pendingControl (change : Loud env event s t) :
    s.pendingControl = none ∨ t.pendingControl = s.pendingControl := by
  cases change with
  | debited | refunding => exact .inr rfl
  | askedUser _ _ idle | submitted _ idle => exact .inl idle

theorem Loud.views (change : Loud env event s t) (tickets : Tickets env s)
    (alone : s.MutationAlone userId) (run : Register.Run env userId may history register)
    (rep : Represents userId register s)
    (other : s.pendingControl = none → ¬ t.MutationUnderWay userId)
    (still : t.MutationAlone userId) : Ledger register.views userId t := by
  refine change.ledger tickets (rep.copies alone) ?_ ?_ ?_
  · intro user charged cached underWay
    have known : some user.version = register.known := rep.cached user cached
    cases register with
    | still => exact ⟨known, known⟩
    | moving write =>
      obtain ⟨pending, _⟩ := rep.reached
      have same : t.pendingControl = some (.write write) := by
        rcases change.pendingControl with idle | same
        · simp [pending] at idle
        · exact same.trans pending
      exact absurd underWay (still (run.underWay same)).2
  · rintro ⟨request, reply, reads⟩
    cases register with
    | still => trivial
    | moving =>
      obtain ⟨pending, _⟩ := rep.reached
      rcases change.pendingControl with idle | same
      · simp [pending] at idle
      · simp [same, pending] at reads
  · exact fun idle write pending record member =>
      absurd ⟨write, record, pending, member⟩ (other idle)

theorem Drafted.revised {input : ControlInput} {request : ControlRequest} {draft : Draft}
    {record : Option UserRecord} (drafted : Drafted s input request draft)
    (names : s.admin.users.All fun userId user => user.id = userId)
    (member : (userId, record) ∈ draft.mutation.users) :
    draft.mutation.users = [(userId, record)] ∧
      ((∃ bytes, input.entropy = some bytes ∧ encodeHex bytes = userId ∧
        Revised userId request none (record.map UserRecord.version)) ∨
      ∃ old, s.admin.users.lookup userId = some old ∧
        Revised userId request (some old.version) (record.map UserRecord.version)) := by
  cases drafted with
  | created drawn =>
    simp only [putUser, mem_singleton, Prod.mk.injEq] at member ⊢
    obtain ⟨rfl, rfl⟩ := member
    exact ⟨rfl, .inl ⟨_, drawn, rfl, .created⟩⟩
  | @rewritten _ id old new cached rewritten =>
    simp only [putUser, mem_singleton, Prod.mk.injEq] at member ⊢
    obtain ⟨rfl, rfl⟩ := member
    have named : new.id = id := by rw [rewritten.next.1, names id old cached]
    exact ⟨rfl, .inr ⟨old, named ▸ cached, .rewritten (named ▸ rewritten)⟩⟩
  | deleted cached =>
    simp only [mem_singleton, Prod.mk.injEq] at member ⊢
    obtain ⟨rfl, rfl⟩ := member
    exact ⟨rfl, .inr ⟨_, cached, .deleted⟩⟩
  | _ => simp [putCredential] at member

/-- Starting an operation takes the register along. -/
theorem Loud.represents (change : Loud env event s t) (tickets : Tickets env s)
    (alone : s.MutationAlone userId) (run : Register.Run env userId may history register)
    (rep : Represents userId register s)
    (fresh : ∀ input bytes, event = .control input → input.entropy = some bytes →
      encodeHex bytes = userId → ∀ o ∈ history, ¬ o.Concerns env userId) :
    ∃ next, Register.Run env userId may history next ∧ Represents userId next t ∧
      (register = .still none → next = register ∨
        ∃ input bytes, event = .control input ∧ input.entropy = some bytes ∧
          encodeHex bytes = userId) := by
  have views := change.views tickets alone run rep
  have whole := change
  cases change with
  | debited | refunding =>
    refine ⟨register, run, rep.keep rfl rfl rfl (fun _ => Iff.rfl) (views fun idle => ?_),
      fun _ => .inl rfl⟩
    rintro ⟨_, _, pending, _⟩
    have : s.pendingControl = some _ := pending
    simp [idle] at this
  | askedUser request id idle =>
    refine ⟨register, run, rep.keep rfl rfl rfl (by simp [idle]) (views fun _ => ?_),
      fun _ => .inl rfl⟩
    simp [State.MutationUnderWay]
  | @submitted input request clientId seq draft response receipt called idle parsed sequenced
      loaded checked drafts encoded stamped =>
    have drafted := State.draftMutation_drafted drafts
    cases register with
    | moving =>
      obtain ⟨pending, _⟩ := rep.reached
      simp [idle] at pending
    | still value =>
      by_cases named : ∃ record, (userId, record) ∈ draft.mutation.users
      · obtain ⟨record, member⟩ := named
        obtain ⟨single, revision⟩ := drafted.revised tickets.users member
        -- A new user has never been heard of, and any other is what the cache knows.
        have revised : Revised userId request value (record.map UserRecord.version) ∧
            (value = none → (∀ o ∈ history, ¬ o.Concerns env userId) ∧
              ∃ bytes, input.entropy = some bytes ∧ encodeHex bytes = userId) := by
          rcases revision with ⟨bytes, drawn, same, revised⟩ | ⟨old, cached, revised⟩
          · have silent := fresh input bytes called drawn same
            have unborn : value = none := (run.none_of_silent silent).1
            exact ⟨unborn ▸ revised, fun _ => ⟨silent, bytes, drawn, same⟩⟩
          · have known : some old.version = value := rep.cached old cached
            exact ⟨known ▸ revised, fun unborn => by simp [unborn] at known⟩
        refine ⟨.moving _ value (record.map UserRecord.version) false,
          run.submit ⟨⟨record, single, rfl⟩, ⟨request, ?_, revised.1⟩,
            fun unborn => (revised.2 unborn).1⟩,
          ⟨rep.store, rep.cached, ⟨rfl, by simp, fun _ => tickets.queue.answered⟩,
            fun still => ?_⟩, fun unborn => ?_⟩
        · simp [PendingWrite.asked, parsed, Except.toOption]
        · obtain ⟨noLogin, noSettlement⟩ := still ⟨_, record, rfl, member⟩
          have launched : Ledger (.passing (Shows value) (Shows (record.map UserRecord.version))
              s.storage.commands.length True) userId s :=
            (rep.copies alone).launch ⟨noLogin, noSettlement⟩ rep.reached
              (by simp [State.LoadUnderWay, idle]) tickets
          refine whole.ledger tickets launched ?_ ?_ ?_
          · exact fun _ _ _ underWay => absurd underWay noSettlement
          · rintro ⟨_, _, reads⟩
            simp at reads
          · intro _ write pending other entry
            simp only [Option.some.injEq, PendingControl.write.injEq] at pending
            rw [← pending] at entry
            rw [single, mem_singleton, Prod.mk.injEq] at entry
            rw [entry.2]
            exact ⟨.inr ⟨rfl, rfl⟩, trivial, rfl⟩
        · rw [Register.still.injEq] at unborn
          obtain ⟨_, bytes, drawn, same⟩ := revised.2 unborn
          exact .inr ⟨input, bytes, called, drawn, same⟩
      · refine ⟨.still value, run, ⟨rep.store, rep.cached, ?_, views fun _ => ?_⟩,
          fun _ => .inl rfl⟩
        all_goals
          rintro ⟨write, record, pending, member⟩
          simp only [Option.some.injEq, PendingControl.write.injEq] at pending
          rw [← pending] at member
          exact named ⟨record, member⟩

theorem Begun.represents (change : Begun s t) (tickets : Tickets env s)
    (alone : s.MutationAlone userId) (run : Register.Run env userId may history register)
    (rep : Represents userId register s) : Represents userId register t := by
  have copies (still : t.MutationAlone userId) : Ledger register.views userId t := by
    refine change.ledger tickets (rep.copies alone) ?_ ?_
    · rintro ⟨handle, session, reply, found, auth⟩
      cases register with
      | still => trivial
      | moving write =>
        obtain ⟨pending, _⟩ := rep.reached
        have same : t.pendingControl = some (.write write) := by cases change <;> exact pending
        exact (still (run.underWay same)).1
          ⟨handle, session, found, by simp [PolicySession.Handles, auth]⟩
    · intro user utc reading read enabled
      cases register with
      | still => exact ⟨read, read, enabled⟩
      | moving => exact reading.elim
  cases change <;> exact rep.keep rfl rfl rfl (fun _ => Iff.rfl) copies

theorem Login.represents (change : Login s t) (alone : s.MutationAlone userId)
    (rep : Represents userId register s) : Represents userId register t := by
  have cached : t.Caches userId fun user => some user.version = register.known := by
    intro user found
    rcases change.recached (rep.copies alone) user found with old | ⟨reading, read⟩ | clock
    · exact rep.cached user old
    · cases register with
      | still => exact read
      | moving => exact reading.elim
    · cases register with
      | still => exact clock.1
      | moving => exact clock.elim
  have copies : Ledger register.views userId t := change.ledger (rep.copies alone)
  have reached := rep.reached
  cases change <;> exact ⟨rep.store, cached, by cases register <;> exact reached, fun _ => copies⟩

theorem Pumps.represents (pumps : Pumps s t) (alone : s.MutationAlone userId)
    (rep : Represents userId register s) : Represents userId register t := by
  have cached : t.Caches userId fun user => some user.version = register.known := by
    intro user found
    obtain ⟨old, there, _, _, rfl⟩ := pumps.users userId user found
    exact rep.cached old there
  have copies := pumps.ledger (rep.copies alone)
  have reached := rep.reached
  obtain ⟨_, _, _, _, _, _, _, _, rfl⟩ := pumps.rest
  exact ⟨rep.store, cached, by cases register <;> exact reached, fun _ => copies⟩

theorem Host.represents (change : Host env s event obs t)
    (alone : s.MutationAlone userId) (rep : Represents userId register s) :
    Represents userId register t := by
  have copies : Ledger register.views userId t := change.ledger (rep.copies alone)
  cases change <;> exact rep.keep rfl rfl rfl (fun _ => Iff.rfl) fun _ => copies

theorem Register.Reached.store (reached : register.Reached userId s)
    (ledger : Ledger register.views userId s) :
    ∃ record, s.storage.store.lookup (.user userId) = storedAs record ∧
      Shows register.current record := by
  obtain ⟨record, stored, view⟩ := ledger.store
  refine ⟨record, stored, ?_⟩
  cases register with
  | still => exact view
  | moving write old new executed =>
    obtain ⟨_, done⟩ := reached
    simp only [Register.views, Views.passing] at view
    cases executed with
    | false => rwa [if_pos (done.2 rfl)] at view
    | true =>
      have before := (List.getElem?_eq_some_iff.mp (done.1 rfl)).1
      rwa [if_neg (not_le.mpr before)] at view

theorem Represents.put (rep : Represents userId register s) (alone : s.MutationAlone userId)
    (holds : s.storage.held = some (.put (.user userId) (.user (encodeUserRecord user))))
    (unsent : ∀ write old new executed, register = .moving write old new executed →
      s.storage.replies.length ≠ write.reply) : register.current = some user.version := by
  obtain ⟨record, same, queued⟩ := (rep.copies alone).queue (held_running holds) _ _ _
    le_rfl (held_eq_some holds) (by simp [writes]; rfl)
  obtain ⟨copy, rfl, encoded⟩ := Option.map_eq_some_iff.mp same.symm
  rw [Value.user.injEq] at encoded
  obtain rfl := encodeUserRecord_injective encoded
  cases register with
  | still => exact queued.symm
  | moving write old new executed =>
    obtain ⟨_, done⟩ := rep.reached
    rcases queued with ⟨before, shows⟩ | ⟨here, _⟩
    · cases executed with
      | false => exact shows.symm
      | true =>
        have := (List.getElem?_eq_some_iff.mp (done.1 rfl)).1
        omega
    · exact absurd here (unsent _ _ _ _ rfl)

/-- What the worker executes moves the register on. -/
theorem Represents.finish (rep : Represents userId register s) (tickets : Tickets env s)
    (alone : s.MutationAlone userId) (run : Register.Run env userId may history register) :
    register.Follows env userId may history (finishObs s.storage .success)
      { s with storage := s.storage.finish .success } := by
  cases holds : s.storage.held with
  | none =>
    have same : s.storage.finish .success = s.storage := by
      simp [StorageWorker.finish, holds]
    rw [same]
    exact ⟨register, by simpa [finishObs, holds] using run, rep, by simp [finishObs, holds]⟩
  | some command =>
    have obs : finishObs s.storage .success = [.executed command] := by simp [finishObs, holds]
    have replies := finish_success_replies holds
    rw [obs]
    -- Whatever the register does next, the copies follow from its views.
    have arrive {next : Register} (views : next.views = register.views)
        (known : next.known = register.known)
        (reached : next.Reached userId { s with storage := s.storage.finish .success }) :
        Represents userId next { s with storage := s.storage.finish .success } := by
      have ledger : Ledger next.views userId { s with storage := s.storage.finish .success } := by
        rw [views]
        cases register with
        | still => exact (rep.copies alone).steady_finish tickets .success
        | moving =>
          obtain ⟨pending, _⟩ := rep.reached
          obtain ⟨_, _, submits⟩ := run.submitted
          obtain ⟨record, _, _, touches⟩ := submits.touches
          exact (rep.copies alone).passing_finish tickets (tickets.write pending).sent touches
      exact ⟨reached.store ledger, known ▸ rep.cached, reached, fun _ => ledger⟩
    cases register with
    | still value =>
      have idle : ¬ s.MutationUnderWay userId := rep.reached
      rcases tickets.held_cases holds userId with none | ⟨user, rfl⟩ |
        ⟨write, record, pending, _, _, member⟩
      · have silent : ¬ (Obs.executed command).Concerns env userId := by
          simpa [Obs.Concerns] using none
        exact ⟨.still value, run.note silent, arrive rfl rfl idle,
          fun _ => ⟨rfl, by simpa using silent⟩⟩
      · have durable := rep.put alone holds (by simp)
        refine ⟨.still value, run.put durable, arrive rfl rfl idle, fun unborn => ?_⟩
        rw [unborn] at durable
        simp [Register.current] at durable
      · exact absurd ⟨write, record, pending, member⟩ idle
    | moving write old new executed =>
      obtain ⟨pending, yes, no⟩ := rep.reached
      by_cases here : s.storage.replies.length = write.reply
      · have same := (tickets.write pending).sent
        rw [← here, held_eq_some holds, Option.some.injEq] at same
        subst same
        cases executed with
        | true =>
          have := (List.getElem?_eq_some_iff.mp (yes rfl)).1
          omega
        | false =>
          refine ⟨.moving write old new true, run.execute, arrive rfl rfl ⟨pending, ?_, by simp⟩,
            by simp⟩
          intro _
          rw [replies, ← here]
          exact sent_last _ _
      · refine ⟨.moving write old new executed, ?_, arrive rfl rfl ⟨pending, ?_, ?_⟩, by simp⟩
        · rcases tickets.held_cases holds userId with none | ⟨user, rfl⟩ |
            ⟨other, record, waits, there, _, member⟩
          · exact run.note (by simpa [Obs.Concerns] using none)
          · refine run.put (rep.put alone holds fun _ _ _ _ same => ?_)
            cases same
            exact here
          · rw [pending, Option.some.injEq, PendingControl.write.injEq] at waits
            exact absurd (waits ▸ there.symm) here
        · intro done
          rw [replies]
          exact sent_push (yes done) _
        · intro waits
          have := no waits
          rw [replies, length_append, length_singleton]
          omega

/-- Every move takes the register along; a silent one that stands still stays so. -/
theorem Move.represents (move : Move env s event obs t) (tickets : Tickets env s)
    (seqs : Sequences history s) (alone : s.MutationAlone userId)
    (reliable : Reliable history event) (unnamed : register.Unnamed env userId history)
    (run : Register.Run env userId may history register) (rep : Represents userId register s) :
    ∃ next, Register.Run env userId may (history ++ obs) next ∧ Represents userId next t ∧
      next.Unnamed env userId (history ++ obs) := by
  -- A user without a name does not exist, and stays so unless its name is drawn.
  have arrive {next : Register}
      (stays : register = .still none → .drew userId ∉ obs →
        next = register ∧ Silent env userId obs) : next.Unnamed env userId (history ++ obs) := by
    intro undrawn
    rw [mem_append, not_or] at undrawn
    obtain ⟨silent, value, rfl⟩ := unnamed undrawn.1
    obtain rfl : value = none := (run.none_of_silent silent).1
    obtain ⟨same, quiet⟩ := stays rfl undrawn.2
    exact ⟨fun o member => (mem_append.mp member).elim (silent o) (quiet o), none, same⟩
  have keep (silent : Silent env userId obs) (rep : Represents userId register t) :
      ∃ next, Register.Run env userId may (history ++ obs) next ∧ Represents userId next t ∧
        next.Unnamed env userId (history ++ obs) :=
    ⟨register, run.notes silent, rep, arrive fun _ _ => ⟨rfl, silent⟩⟩
  cases move with
  | @finished outcome called =>
    obtain rfl := reliable.succeeds outcome called
    obtain ⟨next, arrives, holds, stays⟩ := rep.finish tickets alone run
    exact ⟨next, arrives, holds, arrive fun unborn _ => stays unborn⟩
  | pumped _ rest =>
    refine keep (fun o member => ?_) ((rest ▸ s.pumpFlows_pumps _ : Pumps s _).represents alone rep)
    obtain ⟨event, _, rfl⟩ := mem_map.mp member
    exact id
  | quiet path =>
    obtain ⟨next, arrives, holds, stays⟩ := path.represents tickets seqs alone run rep
    exact ⟨next, arrives, holds, arrive fun unborn _ => stays unborn⟩
  | loud path loud drew =>
    obtain ⟨between, reaches, held, stands⟩ := path.represents tickets seqs alone run rep
    obtain ⟨next, arrives, holds, stays⟩ := loud.represents (path.tickets tickets)
      (path.fewer.mutationAlone alone) reaches held fun input bytes called drawn same => by
        obtain ⟨silent, value, rfl⟩ := unnamed (same ▸ reliable.fresh input bytes called drawn)
        obtain rfl : value = none := (run.none_of_silent silent).1
        exact fun o member => (mem_append.mp member).elim (silent o) ((stands rfl).2 o)
    refine ⟨next, arrives, holds, arrive fun unborn undrawn => ?_⟩
    obtain ⟨same, silent⟩ := stands unborn
    rcases stays (same.trans unborn) with still | ⟨input, bytes, called, drawn, named⟩
    · exact ⟨still.trans same, silent⟩
    · exact absurd (named ▸ drew input bytes called drawn) undrawn
  | begun _ begun => exact keep (by simp) (begun.represents tickets alone run rep)
  | login _ login path =>
    obtain ⟨next, arrives, holds, stays⟩ := path.represents (login.tickets tickets)
      (login.sequences seqs) (login.fewer.mutationAlone alone) run (login.represents alone rep)
    exact ⟨next, arrives, holds, arrive fun unborn _ => stays unborn⟩
  | host host =>
    refine keep (fun o member => ?_) (host.represents alone rep)
    cases host <;> simp_all [Obs.Concerns]

end Steps

/-- The process ends with the event. -/
def World.Ends : World → Event → Prop
  | .up _ _, .crash _ => True
  | .up (.quota pass) _, .endQuota => pass.shutdown = true
  | _, _ => False

instance (world : World) (event : Event) : Decidable (world.Ends event) :=
  decidable_of_iff
    ((match world, event with
      | .up _ _, .crash _ => true
      | .up (.quota pass) _, .endQuota => pass.shutdown
      | _, _ => false) = true) <| by
    cases world with
    | down => simp [World.Ends]
    | up phase s => cases event <;> cases phase <;> simp [World.Ends]

/-- A world over the durable half of a register. -/
def World.Represents (userId : String) (register : Register) : World → Prop
  | .down store => ∃ value record, register = .still value ∧
      store.lookup (.user userId) = storedAs record ∧ Shows value record
  | .up _ s => Policy.Represents userId register s

theorem World.Represents.store {world : World} {register : Register}
    (rep : world.Represents userId register) :
    ∃ record, world.store.lookup (.user userId) = storedAs record ∧
      Shows register.current record := by
  cases world with
  | down =>
    obtain ⟨value, record, rfl, stored, shows⟩ := rep
    exact ⟨record, stored, shows⟩
  | up => exact Policy.Represents.store rep

/--
The conditions under which no administrative change of the user is lost.

Nothing else handles the record while it is changed, storage succeeds, and no random name is drawn
twice.
-/
structure Orderly (userId : String) (history : List Obs) (world : World) (event : Event) :
    Prop where
  alone : world.Holds (State.MutationAlone userId)
  succeeds : ∀ outcome, event = .finish outcome → outcome = .success
  fresh : ∀ input bytes, event = .control input → input.entropy = some bytes →
    .drew (encodeHex bytes) ∉ history

instance (userId : String) (history : List Obs) (world : World) (event : Event) :
    Decidable (Orderly userId history world event) :=
  decidable_of_iff (world.Holds (State.MutationAlone userId) ∧ Reliable history event)
    ⟨fun ⟨alone, reliable⟩ => ⟨alone, reliable.succeeds, reliable.fresh⟩,
      fun orderly => ⟨orderly.alone, orderly.succeeds, orderly.fresh⟩⟩

variable {history : List Obs}

theorem Represents.ended {s : State} {register : Register} (rep : Represents userId register s)
    (adopts : ∀ write record, s.pendingControl = some (.write write) →
      (userId, record) ∈ write.mutation.users →
      s.storage.replies[write.reply]? = some .done → may write)
    (run : Register.Run env userId may history register) :
    ∃ value record, Register.Run env userId may history (.still value) ∧
      s.storage.store.lookup (.user userId) = storedAs record ∧ Shows value record := by
  obtain ⟨record, stored, shows⟩ := rep.store
  refine ⟨register.current, record, ?_, stored, shows⟩
  cases register with
  | still => exact run
  | moving write old new executed =>
    obtain ⟨pending, yes, _⟩ := rep.reached
    cases executed with
    | false => exact run.lose
    | true =>
      obtain ⟨_, _, submits⟩ := run.submitted
      obtain ⟨entry, users, _⟩ := submits.names
      exact run.adopt (adopts write entry pending (by simp [users]) (yes rfl))

variable {guard : List Obs → World → Event → Prop} {world : World}

section

variable (orderly : ∀ history world event, guard history world event →
    Orderly userId history world event)
include orderly

/-- Along every orderly run the instance stands over the durable half of a register. -/
theorem run_register (adopts : ∀ history world event, guard history world event → world.Ends event →
      world.Holds fun s => ∀ write record, s.pendingControl = some (.write write) →
        (userId, record) ∈ write.mutation.users →
        s.storage.replies[write.reply]? = some .done → may write)
    {history : List Obs} {world : World} (run : (machine env).Run Fresh guard history world) :
    ∃ register, Register.Run env userId may history register ∧
      world.Represents userId register ∧ register.Unnamed env userId history := by
  refine machine_invariant (fun history world => ∃ register,
    Register.Run env userId may history register ∧ world.Represents userId register ∧
      register.Unnamed env userId history) ?_ ?_ run
  · exact ⟨.still none, .start, ⟨none, none, rfl, by simp [storedAs], rfl⟩,
      fun _ => ⟨silent_nil, none, rfl⟩⟩
  · rintro history world event obs next before ⟨register, reaches, rep, unnamed⟩ admitted advance
    have tickets := run_tickets before
    have seqs := run_sequences before
    have conditions := orderly _ _ _ admitted
    have adopted := adopts _ _ _ admitted
    cases advance with
    | idle => exact ⟨register, by simpa using reaches, rep, by simpa using unnamed⟩
    | started started =>
      have fresh := initializeInstance_started started
      obtain ⟨value, record, rfl, stored, shows⟩ := rep
      refine ⟨.still value, by simpa using reaches, ⟨?_, ?_, ?_, fun _ => ?_⟩,
        by simpa using unnamed⟩
      · rw [fresh.storage]
        exact ⟨record, stored, shows⟩
      · intro user found
        rw [fresh.users] at found
        simp at found
      · rintro ⟨_, _, pending, _⟩
        simp [fresh.control] at pending
      · exact fresh.ledger ⟨record, stored, shows⟩
    | moved move =>
      exact move.represents tickets seqs conditions.alone
        ⟨conditions.succeeds, conditions.fresh⟩ unnamed reaches rep
    | stopped ends path =>
      obtain ⟨next, arrives, holds, stays⟩ :=
        path.represents tickets seqs conditions.alone reaches rep
      obtain ⟨value, record, ended, stored, shows⟩ := holds.ended (fun write record pending => by
        rw [path.queues.replies]
        have fewer : Fewer userId _ _ := path.fewer
        exact adopted ends write record (fewer.write write pending))
        arrives
      refine ⟨.still value, ended, ⟨value, record, rfl, stored, shows⟩, fun undrawn => ?_⟩
      obtain ⟨silent, _⟩ := unnamed (by simpa using undrawn)
      exact ⟨by simpa using silent, value, rfl⟩
    | @crashed phase s pumping =>
      obtain ⟨value, record, ended, stored, shows⟩ := rep.ended (adopted trivial) reaches
      have quiet : Silent env userId (crashObs s phase pumping) := by
        intro o member
        rcases mem_crashObs member with rfl | ⟨event, rfl⟩ <;> exact id
      refine ⟨.still value, ended.notes quiet, ⟨value, record, rfl, stored, shows⟩,
        fun undrawn => ?_⟩
      obtain ⟨silent, _⟩ := unnamed fun drawn => undrawn (mem_append_left _ drawn)
      exact ⟨fun o member => (mem_append.mp member).elim (silent o) (quiet o), value, rfl⟩

/-- A process may end with any write executed but not acknowledged. -/
theorem run_anyRegister (run : (machine env).Run Fresh guard history world) :
    ∃ register, Register.Run env userId (fun _ => True) history register ∧
      world.Represents userId register := by
  obtain ⟨register, reaches, rep, _⟩ := @run_register env userId (fun _ => True) _ orderly
    (fun _ world _ _ _ => by
      cases world with
      | down => trivial
      | up => exact fun _ _ _ _ _ => trivial) _ _ run
  exact ⟨register, reaches, rep⟩

end

/--
No administrative change of a user is lost while no login and no settlement overlaps with it.

The last acknowledged version stays durable and cached until the next administrative write, the
stored revision never decreases, and no revision is expected by two acknowledged writes.
-/
theorem adminChanges_kept (run : (machine env).Run Fresh (Orderly userId) history world) :
    (∀ before write after user, history = before ++ .acknowledged write :: after →
      (userId, some user) ∈ write.mutation.users → (∀ obs ∈ after, ¬ obs.Mutates userId) →
      (∃ stored, world.store.lookup (.user userId) = some (.user (encodeUserRecord stored)) ∧
        stored.spec = user.spec ∧ stored.revision = user.revision) ∧
      world.Holds fun s => s.Caches userId fun cached =>
        cached.spec = user.spec ∧ cached.revision = user.revision) ∧
    (storedRevisions userId history).Pairwise (· ≤ ·) ∧
    (expectedRevisions env userId history).Nodup := by
  obtain ⟨register, reaches, rep⟩ := run_anyRegister (fun _ _ _ orderly => orderly) run
  refine ⟨fun before write after user split named quiet => ?_, reaches.storedRevisions_sorted.1,
    reaches.expectedRevisions_sorted.1.imp fun less => less.ne⟩
  obtain ⟨durable, known⟩ := reaches.last_acknowledged split named quiet
  have shown {record : Option UserRecord} (shows : Shows register.current record) :
      ∃ stored, record = some stored ∧ stored.spec = user.spec ∧
        stored.revision = user.revision := by
    rw [Shows, durable] at shows
    obtain ⟨stored, rfl, same⟩ := Option.map_eq_some_iff.mp shows
    exact ⟨stored, rfl, congrArg Version.spec same, congrArg Version.revision same⟩
  cases world with
  | down =>
    obtain ⟨value, record, rfl, found, shows⟩ := rep
    obtain ⟨stored, rfl, same⟩ := shown shows
    exact ⟨⟨stored, found, same⟩, trivial⟩
  | up =>
    obtain ⟨record, found, shows⟩ := rep.store
    obtain ⟨stored, rfl, same⟩ := shown shows
    refine ⟨⟨stored, found, same⟩, fun cached there => ?_⟩
    have version := rep.cached cached there
    rw [known, Option.map_some, Option.some.injEq] at version
    exact ⟨congrArg Version.spec version, congrArg Version.revision version⟩

open Deployment

/-- A change of the user is kept where nothing overlaps with it. -/
theorem adminChanges_kept_addQuota :
    (machine (libraries [addQuota])).Run Fresh (Orderly firstUser)
        (reached [addQuota] (setup options ++ addQuota.issue)).1
        (reached [addQuota] (setup options ++ addQuota.issue)).2 ∧
      (storedRevisions firstUser
        (reached [addQuota] (setup options ++ addQuota.issue)).1).Pairwise (· ≤ ·) :=
  have run := reached_run [addQuota] (setup options ++ addQuota.issue) (by decide +kernel)
  ⟨run, (adminChanges_kept run).2.1⟩

/-- Where nothing overlaps with its changes, a record refines a register that is written in turn. -/
theorem records_refine_register (run : (machine env).Run Fresh (Orderly userId) history world) :
    ∃ register, Register.Run env userId (fun _ => True) history register ∧
      world.Represents userId register :=
  run_anyRegister (fun _ _ _ orderly => orderly) run

theorem records_refine_register_addQuota :
    ∃ register, Register.Run (libraries [addQuota]) firstUser (fun _ => True)
        (reached [addQuota] (setup options ++ addQuota.issue)).1 register ∧
      (reached [addQuota] (setup options ++ addQuota.issue)).2.Represents firstUser register :=
  records_refine_register (reached_run [addQuota] _ (by decide +kernel))

/--
A login that has read the record before a change writes it back after the change.
The change was acknowledged, and the stored revision decreases.
-/
theorem adminChanges_lost :
    ∃ history world, (machine (libraries [addQuota])).Run Fresh
        (fun history _ event => Reliable history event) history world ∧
      acknowledgedRequests (libraries [addQuota]) history =
        [some createUser.request, some addCredential.request, some addQuota.request] ∧
      storedRevisions firstUser history = [1, 2, 1] :=
  ⟨_, _, reached_run [addQuota]
    (setup options ++ presented ++ addQuota.issue ++ poll 0 [silent 20] ++ worked)
    (by decide +kernel), by decide +kernel⟩

end Snolc.Policy
