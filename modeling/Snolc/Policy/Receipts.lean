import Snolc.Policy.Tickets

/-! The receipts of administrative requests: numbered without a gap, durable before known. -/

namespace Snolc.Policy

open List State StorageWorker

variable {s t : State} {history obs : List Obs} {receipt : Receipt} {sequencer : AdminSequencer}
  {clientId : String} {event : Event} {store : Table Key Value}

variable {env : Env}

/-- The receipts of a client that a transaction stores. -/
def receiptsIn (clientId : String) (changes : List (Key × Option Value)) : List Receipt :=
  changes.filterMap fun
    | (.client other, some (.receipt receipt)) => if other = clientId then some receipt else none
    | _ => none

def Obs.receipts (clientId : String) : Obs → List Receipt
  | executed (.apply changes) => receiptsIn clientId changes
  | _ => []

/-- The receipts of a client that have become durable so far, oldest first. -/
def receiptsOf (clientId : String) (history : List Obs) : List Receipt :=
  history.flatMap (Obs.receipts clientId)

/-- Receipts that are numbered from one without a gap. -/
def Numbered (receipts : List Receipt) : Prop :=
  receipts.map (·.seq) = List.range' 1 receipts.length ∧ receipts.length ≤ u64Max

namespace Numbered

variable {receipts : List Receipt}

variable (numbered : Numbered receipts)
include numbered

theorem last_seq : (receipts.getLast?.map (·.seq)).getD 0 = receipts.length := by
  have last : receipts.getLast?.map (·.seq) = (receipts.map (·.seq)).getLast? := by simp
  rw [last, numbered.1]
  cases receipts.length with
  | zero => rfl
  | succ => simp [List.range'_1_concat, Nat.add_comm]

theorem concat (next : receipt.seq = receipts.length + 1)
    (fits : receipt.seq ≤ u64Max) : Numbered (receipts ++ [receipt]) := by
  refine ⟨?_, by simpa [← next] using fits⟩
  simp only [map_append, map_cons, map_nil, length_append,
    length_singleton, List.range'_1_concat, numbered.1, next]
  rw [Nat.add_comm]

theorem unique {first second : Receipt} (one : first ∈ receipts)
    (other : second ∈ receipts) (same : first.seq = second.seq) : first = second :=
  inj_on_of_nodup_map (numbered.1 ▸ nodup_range') one other same

theorem seq_le (member : receipt ∈ receipts) : receipt.seq ≤ receipts.length := by
  have inside : receipt.seq ∈ receipts.map (·.seq) := mem_map_of_mem member
  rw [numbered.1, mem_range'_1] at inside
  omega

end Numbered

theorem receiptsOf_append (clientId : String) (first second : List Obs) :
    receiptsOf clientId (first ++ second) =
      receiptsOf clientId first ++ receiptsOf clientId second := by
  simp [receiptsOf]

theorem AdminMutation.changes_client (mutation : AdminMutation) (clientId : String) :
    ∀ change ∈ mutation.changes, change.1 ≠ .client clientId := by
  intro change member
  simp only [AdminMutation.changes, mem_append, mem_map] at member
  rcases member with (⟨entry, _, rfl⟩ | ⟨entry, _, rfl⟩) | ⟨entry, _, rfl⟩ <;> simp

theorem PendingWrite.receiptsIn_changes (write : PendingWrite) (clientId : String) :
    receiptsIn clientId write.changes =
      if write.clientId = clientId then [write.receipt] else [] := by
  have none : receiptsIn clientId write.mutation.changes = [] := by
    rw [receiptsIn, filterMap_eq_nil_iff]
    rintro ⟨key, value⟩ member
    have other := write.mutation.changes_client
    cases key with
    | client name => exact absurd rfl (other name _ member)
    | _ => rfl
  rw [PendingWrite.changes, receiptsIn, filterMap_append]
  rw [receiptsIn] at none
  rw [none]
  by_cases same : write.clientId = clientId <;> simp [same]

theorem PendingWrite.written_client (write : PendingWrite) (clientId : String) :
    StorageWorker.written (.client clientId) write.changes =
      if write.clientId = clientId then some (some (.receipt write.receipt)) else none := by
  rw [PendingWrite.changes, written_append,
    written_eq_none (write.mutation.changes_client clientId)]
  by_cases same : write.clientId = clientId <;> simp [written, same]

/-- The administrative write in progress. -/
def State.pendingWrite (s : State) : Option PendingWrite :=
  match s.pendingControl with
  | some (.write write) => some write
  | _ => none

/-- The receipt that is durable but not acknowledged yet. -/
def State.unacknowledged (s : State) (clientId : String) : List Receipt :=
  match s.pendingWrite with
  | none => []
  | some write =>
    if write.clientId = clientId ∧ s.storage.replies[write.reply]? = some .done then
      [write.receipt]
    else []

/-- The store holds the last receipt of every client, and receipts are numbered. -/
structure Stored (history : List Obs) (store : Table Key Value) : Prop where
  numbered : ∀ clientId, Numbered (receiptsOf clientId history)
  last : ∀ clientId, store.lookup (.client clientId) =
    (receiptsOf clientId history).getLast?.map .receipt
  applied : ∀ changes, .executed (.apply changes) ∈ history →
    ∃ write : PendingWrite, changes = write.changes

/-- The sequencer holds the last acknowledged receipt of every client. -/
structure Sequences (history : List Obs) (s : State) : Prop where
  stored : Stored history s.storage.store
  known : ∀ clientId, ∃ acknowledged,
    s.admin.sequencer.clients.lookup clientId = acknowledged.getLast? ∧
      receiptsOf clientId history = acknowledged ++ s.unacknowledged clientId
  next : ∀ write, s.pendingWrite = some write →
    ∃ sequencer, s.admin.sequencer.applyCommit write.clientId write.receipt = .ok sequencer
  positive : ∀ write, s.pendingWrite = some write → 0 < write.receipt.seq

theorem Stored.keep {next : Table Key Value} (stored : Stored history store)
    (silent : ∀ clientId, receiptsOf clientId obs = [])
    (unapplied : ∀ changes, .executed (.apply changes) ∉ obs)
    (kept : ∀ clientId, next.lookup (.client clientId) = store.lookup (.client clientId)) :
    Stored (history ++ obs) next where
  numbered clientId := by
    rw [receiptsOf_append, silent, append_nil]
    exact stored.numbered clientId
  last clientId := by
    rw [receiptsOf_append, silent, append_nil]
    exact (kept clientId).trans (stored.last clientId)
  applied changes member := by
    rcases mem_append.mp member with old | new
    · exact stored.applied changes old
    · exact absurd new (unapplied changes)

theorem AdminSequencer.prepareCommit_seq {seq : Nat} {requestHash response : Bytes}
    (ok : sequencer.prepareCommit clientId seq requestHash response = .ok receipt) :
    match sequencer.clients.lookup clientId with
    | none => seq = 1
    | some last => seq = wrappingAdd last.seq 1 := by
  unfold AdminSequencer.prepareCommit at ok
  obtain ⟨_, _, ok⟩ := bind_ok ok
  cases known : sequencer.clients.lookup clientId with
  | none =>
    rw [known] at ok
    dsimp only at ok
    split at ok
    · cases ok
    split at ok
    · cases ok
    next same => exact not_not.mp same
  | some =>
    rw [known] at ok
    dsimp only at ok
    split at ok
    · cases ok
    next same => exact not_not.mp same

theorem AdminSequencer.applyCommit_ok {next : AdminSequencer}
    (ok : sequencer.applyCommit clientId receipt = .ok next) :
    (∃ prepared, sequencer.prepareCommit clientId receipt.seq receipt.requestHash
        receipt.response = .ok prepared) ∧
      next = { sequencer with clients := sequencer.clients.insert clientId receipt } := by
  unfold AdminSequencer.applyCommit at ok
  cases prepared : sequencer.prepareCommit clientId receipt.seq receipt.requestHash
      receipt.response with
  | error fault =>
    rw [prepared] at ok
    cases ok
  | ok value =>
    rw [prepared] at ok
    cases ok
    exact ⟨⟨value, rfl⟩, rfl⟩

theorem AdminSequencer.applyCommit_of_prepared {prepared : Receipt}
    (ok : sequencer.prepareCommit clientId receipt.seq receipt.requestHash receipt.response =
      .ok prepared) : ∃ next, sequencer.applyCommit clientId receipt = .ok next := by
  refine ⟨{ sequencer with clients := sequencer.clients.insert clientId receipt }, ?_⟩
  rw [AdminSequencer.applyCommit, ok]
  rfl

theorem wrappingAdd_one {last seq : Nat} (fits : last ≤ u64Max) (next : seq = wrappingAdd last 1)
    (positive : 0 < seq) : seq = last + 1 ∧ seq ≤ u64Max := by
  unfold wrappingAdd at next
  unfold u64Max at *
  rcases Nat.lt_or_ge (last + 1) (2 ^ 64) with small | large
  · rw [Nat.mod_eq_of_lt small] at next
    omega
  · have top : last + 1 = 2 ^ 64 := by omega
    rw [top, Nat.mod_self] at next
    omega

variable {write : PendingWrite}

namespace Sequences

variable {history : List Obs} {s t : State}

variable (seqs : Sequences history s)
include seqs

theorem seq_next {acknowledged : List Receipt} (pending : s.pendingWrite = some write)
    (lookup : s.admin.sequencer.clients.lookup write.clientId = acknowledged.getLast?)
    (numbered : Numbered acknowledged) :
    write.receipt.seq = acknowledged.length + 1 ∧ write.receipt.seq ≤ u64Max := by
  obtain ⟨sequencer, committed⟩ := seqs.next write pending
  obtain ⟨⟨prepared, prepares⟩, _⟩ := AdminSequencer.applyCommit_ok committed
  have next := AdminSequencer.prepareCommit_seq prepares
  have count := numbered.last_seq
  rw [lookup] at next
  cases last : acknowledged.getLast? with
  | none =>
    rw [last] at next count
    simp only [Option.map_none, Option.getD_none] at count
    rw [← count]
    exact ⟨next, next ▸ by decide⟩
  | some =>
    rw [last] at next count
    simp only [Option.map_some, Option.getD_some] at count
    rw [← count]
    exact wrappingAdd_one (count ▸ numbered.2) next (seqs.positive write pending)

theorem frame (silent : ∀ clientId, receiptsOf clientId obs = [])
    (unapplied : ∀ changes, .executed (.apply changes) ∉ obs)
    (store : t.storage.store = s.storage.store) (replies : t.storage.replies = s.storage.replies)
    (write : t.pendingWrite = s.pendingWrite) (sequencer : t.admin.sequencer = s.admin.sequencer) :
    Sequences (history ++ obs) t where
  stored := seqs.stored.keep silent unapplied fun _ => by rw [store]
  known clientId := by
    rw [receiptsOf_append, silent, append_nil, sequencer, unacknowledged, write,
      replies]
    exact seqs.known clientId
  next other pending := by
    rw [sequencer]
    exact seqs.next other (write ▸ pending)
  positive other pending := seqs.positive other (write ▸ pending)

theorem still (store : t.storage.store = s.storage.store)
    (replies : t.storage.replies = s.storage.replies) (write : t.pendingWrite = s.pendingWrite)
    (sequencer : t.admin.sequencer = s.admin.sequencer) : Sequences history t := by
  have framed : Sequences (history ++ []) t :=
    seqs.frame (fun _ => rfl) (by simp) store replies write sequencer
  simpa using framed

theorem giveUp {maintenance : Bool}
    (forsaken : ∀ write, s.pendingControl = some (.write write) → Forsaken s write) :
    Sequences history { s with pendingControl := none, maintenance } := by
  have lost (clientId : String) : s.unacknowledged clientId = [] := by
    unfold unacknowledged pendingWrite
    split
    · rfl
    next write pending =>
    split at pending
    · next other control =>
      cases pending
      split
      · next durable =>
        -- A durable write can always be committed, so it is never given up.
        obtain ⟨_, failed⟩ := forsaken write control
        obtain ⟨fault, refused⟩ := failed (tryRecv_ok.mpr durable.2)
        obtain ⟨sequencer, committed⟩ := seqs.next write (by simp [pendingWrite, control])
        simp [refused] at committed
      · rfl
    · cases pending
  exact
    { stored := seqs.stored
      known := fun clientId => by
        obtain ⟨acknowledged, last, all⟩ := seqs.known clientId
        exact ⟨acknowledged, last, by rw [all, lost]; rfl⟩
      next := fun write pending => by simp [pendingWrite] at pending
      positive := fun write pending => by simp [pendingWrite] at pending }

theorem acknowledge {sequencer : AdminSequencer} (pending : s.pendingControl = some (.write write))
    (durable : s.storage.replies[write.reply]? = some .done)
    (committed : s.admin.sequencer.applyCommit write.clientId write.receipt = .ok sequencer) :
    Sequences history { s with pendingControl := none, admin := { s.admin with sequencer } } := by
  have waits : s.pendingWrite = some write := by simp [pendingWrite, pending]
  obtain ⟨_, rfl⟩ := AdminSequencer.applyCommit_ok committed
  exact
    { stored := seqs.stored
      known := fun clientId => by
        obtain ⟨acknowledged, last, all⟩ := seqs.known clientId
        refine ⟨receiptsOf clientId history, ?_, by simp [unacknowledged, pendingWrite]⟩
        simp only [Table.lookup_insert_eq]
        split
        · next same =>
          subst same
          rw [all]
          simp [unacknowledged, waits, durable]
        · next other =>
          rw [all, last]
          simp [unacknowledged, waits, Ne.symm other]
      next := fun other pending => by simp [pendingWrite] at pending
      positive := fun other pending => by simp [pendingWrite] at pending }

end Sequences

theorem receiptsOf_plain {obs : Obs} (plain : obs.plain = true) (clientId : String) :
    receiptsOf clientId [obs] = [] := by
  cases obs <;> simp_all [Obs.plain, receiptsOf, Obs.receipts]

theorem Quiet.sequences (change : Quiet env s obs t) (seqs : Sequences history s) :
    Sequences (history ++ obs) t := by
  have idle {t : State} (same : Sequences history t) : Sequences (history ++ []) t := by
    simpa using same
  cases change with
  | noted obs plain =>
    refine seqs.frame (receiptsOf_plain plain) (fun changes member => ?_) rfl rfl rfl rfl
    rw [mem_singleton] at member
    subst member
    simp [Obs.plain] at plain
  | loadedUser _ pending | loadedCredential _ pending =>
    exact idle (seqs.still rfl rfl (by simp [pendingWrite, pending]) rfl)
  | gaveUp maintenance forsaken => exact idle (seqs.giveUp forsaken)
  | acknowledged _ _ _ _ pending answered committed =>
    refine (seqs.acknowledge pending answered committed).frame (fun _ => rfl) (by simp) rfl rfl
      rfl ?_
    exact applyCache_sequencer _ _ _ _
  | backedUp idles | askedCredential _ _ idles =>
    exact idle (seqs.still rfl rfl (by simp [pendingWrite, idles]) rfl)
  | _ => exact idle (seqs.still rfl rfl rfl rfl)

theorem Path.sequences (path : Path env s obs t) (seqs : Sequences history s) :
    Sequences (history ++ obs) t := by
  induction path generalizing history with
  | refl => simpa using seqs
  | step change _ ih => simpa [append_assoc] using ih (change.sequences seqs)

theorem Loud.sequences (change : Loud env event s t) (tickets : Tickets env s)
    (seqs : Sequences history s) : Sequences history t := by
  cases change with
  | debited | refunding => exact seqs.still rfl rfl rfl rfl
  | askedUser request userId idle =>
    exact seqs.still rfl rfl (by simp [pendingWrite, idle]) rfl
  | @submitted input request clientId seq draft response receipt called idle parsed sequenced
      loaded checked drafts encoded stamped =>
    have same := prepareCommit_ok stamped
    have empty (client : String) : s.unacknowledged client = [] := by
      simp [unacknowledged, pendingWrite, idle]
    have unanswered : s.storage.replies[s.storage.commands.length]? = none :=
      List.getElem?_eq_none tickets.queue.answered
    refine
      { stored := seqs.stored
        known := fun client => ?_
        next := fun write waits => ?_
        positive := fun write waits => ?_ }
    · obtain ⟨acknowledged, last, all⟩ := seqs.known client
      refine ⟨acknowledged, last, ?_⟩
      rw [all, empty]
      simp [unacknowledged, pendingWrite, push, unanswered]
    · cases waits
      exact AdminSequencer.applyCommit_of_prepared (by rw [same]; exact stamped)
    · cases waits
      rw [same]
      exact ControlRequest.parse_sequence_pos parsed sequenced

theorem Begun.sequences (change : Begun s t) (seqs : Sequences history s) :
    Sequences history t := by
  cases change <;> exact seqs.still rfl rfl rfl rfl

theorem Login.sequences (change : Login s t) (seqs : Sequences history s) :
    Sequences history t := by
  cases change <;> exact seqs.still rfl rfl rfl rfl

theorem Host.sequences (change : Host env s event obs t) (seqs : Sequences history s) :
    Sequences (history ++ obs) t := by
  cases change <;> exact seqs.frame (fun _ => rfl) (by simp) rfl rfl rfl rfl

theorem State.unacknowledged_reply {reply : Reply} (other : ∀ write, s.pendingWrite = some write →
      write.reply ≠ s.storage.replies.length ∨ reply ≠ .done) (store : Table Key Value)
    (running : Bool) (clientId : String) :
    State.unacknowledged
        { s with
          storage := { s.storage with
            store, running, replies := s.storage.replies ++ [reply] } } clientId =
      s.unacknowledged clientId := by
  have still : pendingWrite
      { s with
        storage := { s.storage with
          store, running, replies := s.storage.replies ++ [reply] } } = s.pendingWrite := rfl
  unfold unacknowledged
  rw [still]
  cases waits : s.pendingWrite with
  | none => rfl
  | some write =>
    have answered : (s.storage.replies ++ [reply])[write.reply]? = some .done ↔
        s.storage.replies[write.reply]? = some .done := by
      refine ⟨fun sent => ?_, fun sent => sent_push sent reply⟩
      rcases sent_cases sent with old | ⟨last, done⟩
      · exact old
      rcases other write waits with late | failed
      · exact absurd last late
      · exact absurd done.symm failed
    simp only [answered]

theorem Sequences.reply (seqs : Sequences history s) {reply : Reply} {running : Bool}
    (other : ∀ write, s.pendingWrite = some write →
      write.reply ≠ s.storage.replies.length ∨ reply ≠ .done)
    (silent : ∀ clientId, receiptsOf clientId obs = [])
    (unapplied : ∀ changes, .executed (.apply changes) ∉ obs)
    (kept : ∀ clientId, store.lookup (.client clientId) =
      s.storage.store.lookup (.client clientId)) :
    Sequences (history ++ obs)
      { s with
        storage := { s.storage with
          store, running, replies := s.storage.replies ++ [reply] } } where
  stored := seqs.stored.keep silent unapplied kept
  known clientId := by
    rw [receiptsOf_append, silent, append_nil, unacknowledged_reply other]
    exact seqs.known clientId
  next := seqs.next
  positive := seqs.positive

/-- The write in progress becomes durable. -/
theorem Sequences.durable (seqs : Sequences history s)
    (waits : s.pendingWrite = some write) (turn : write.reply = s.storage.replies.length) :
    Sequences (history ++ [.executed (.apply write.changes)])
      { s with
        storage := { s.storage with
          store := StorageWorker.effect s.storage.store (.apply write.changes)
          replies := s.storage.replies ++ [.done] } } := by
  -- Until now nothing of the write was durable, so its client knows all receipts.
  have unanswered : s.storage.replies[write.reply]? = none :=
    List.getElem?_eq_none (by rw [turn])
  have before (clientId : String) : s.unacknowledged clientId = [] := by
    simp [unacknowledged, waits, unanswered]
  have more (clientId : String) :
      receiptsOf clientId (history ++ [.executed (.apply write.changes)]) =
        receiptsOf clientId history ++
          if write.clientId = clientId then [write.receipt] else [] := by
    rw [receiptsOf_append]
    simp [receiptsOf, Obs.receipts, write.receiptsIn_changes]
  have still : pendingWrite
      { s with
        storage := { s.storage with
          store := effect s.storage.store (.apply write.changes)
          replies := s.storage.replies ++ [.done] } } = some write := waits
  refine
    { stored := { numbered := fun clientId => ?_, last := fun clientId => ?_
                  applied := fun changes member => ?_ }
      known := fun clientId => ?_
      next := seqs.next
      positive := seqs.positive }
  · rw [more]
    split
    · next same =>
      subst same
      obtain ⟨acknowledged, last, all⟩ := seqs.known write.clientId
      rw [before, append_nil] at all
      have numbered := seqs.stored.numbered write.clientId
      rw [all] at numbered ⊢
      obtain ⟨next, fits⟩ := seqs.seq_next waits last numbered
      exact numbered.concat next fits
    · simpa using seqs.stored.numbered clientId
  · rw [more]
    change (effect _ _).lookup _ = _
    rw [lookup_effect, writes, write.written_client]
    split
    · simp
    · simpa using seqs.stored.last clientId
  · rcases mem_append.mp member with old | new
    · exact seqs.stored.applied changes old
    · simp only [mem_singleton, Obs.executed.injEq, Command.apply.injEq] at new
      exact ⟨write, new⟩
  · obtain ⟨acknowledged, last, all⟩ := seqs.known clientId
    refine ⟨acknowledged, last, ?_⟩
    rw [more, all, before, append_nil]
    simp only [unacknowledged, still, turn, sent_last, and_true]

/-- The worker makes the receipt of the write in progress durable, or no receipt at all. -/
theorem Sequences.finish (tickets : Tickets env s) (seqs : Sequences history s)
    (outcome : Outcome) :
    Sequences (history ++ finishObs s.storage outcome)
      { s with storage := s.storage.finish outcome } := by
  have write_sent (write : PendingWrite) (waits : s.pendingWrite = some write) :
      s.storage.commands[write.reply]? = some (.apply write.changes) := by
    unfold pendingWrite at waits
    split at waits
    · next other control =>
      cases waits
      exact (tickets.write control).sent
    · cases waits
  have finished := s.storage.finish_cases outcome
  generalize s.storage.finish outcome = worker at finished
  cases finished with
  | idle holds =>
    have silent : finishObs s.storage outcome = [] := by
      cases outcome <;> simp [finishObs, holds]
    rw [silent]
    simpa using seqs
  | stop holds =>
    have sent := held_eq_some holds
    refine seqs.reply (fun write waits => .inl fun turn => ?_) ?_ ?_ fun _ => rfl
    · have apply := write_sent write waits
      rw [turn, sent] at apply
      simp at apply
    · cases outcome <;> simp [finishObs, holds, receiptsOf, Obs.receipts]
    · cases outcome <;> simp [finishObs, holds]
  | failed holds unsuccessful =>
    have silent : finishObs s.storage outcome = [] := by
      cases outcome with
      | success => exact absurd rfl unsuccessful
      | _ => rfl
    rw [silent]
    exact seqs.reply (fun _ _ => .inr (by simp)) (fun _ => rfl) (by simp) fun _ => rfl
  | @done command holds running =>
    have sent := held_eq_some holds
    simp only [finishObs, holds, Option.toList_some, map_cons, map_nil]
    have skip (plain : ∀ changes, command ≠ .apply changes)
        (kept : ∀ clientId, writes (.client clientId) command = none) :
        Sequences (history ++ [.executed command])
          { s with
            storage := { s.storage with
              store := effect s.storage.store command
              replies := s.storage.replies ++
                [answer s.storage.store command] } } := by
      refine seqs.reply (fun write waits => .inl fun turn => ?_) (fun clientId => ?_)
        (fun changes member => ?_) fun clientId => ?_
      · have apply := write_sent write waits
        rw [turn, sent, Option.some.injEq] at apply
        exact plain _ apply
      · cases command with
        | apply changes => exact absurd rfl (plain changes)
        | _ => rfl
      · rw [mem_singleton, Obs.executed.injEq] at member
        exact plain _ member.symm
      · rw [lookup_effect, kept]
        rfl
    cases command with
    | apply =>
      -- Only one administrative write is ever unanswered, and it is the one in progress.
      rcases tickets.queue.serial (held_running holds) _ _ sent with
        early | ⟨write, control, turn⟩
      · exact absurd early (lt_irrefl _)
      · have waits : s.pendingWrite = some write := by simp [pendingWrite, control]
        have apply := write_sent write waits
        rw [turn, sent, Option.some.injEq, Command.apply.injEq] at apply
        rw [apply]
        exact seqs.durable waits turn
    | put =>
      obtain ⟨userId, record, rfl, rfl⟩ := tickets.queue.puts _ _ _ sent
      exact skip (by simp) (by simp [writes])
    | get | backup => exact skip (by simp) (by simp [writes])
    | stop => exact absurd rfl running

theorem Move.sequences (move : Move env s event obs t) (tickets : Tickets env s)
    (seqs : Sequences history s) : Sequences (history ++ obs) t := by
  cases move with
  | finished => exact Sequences.finish tickets seqs _
  | pumped =>
    refine seqs.frame (fun clientId => ?_) (by simp) rfl rfl rfl rfl
    simp [receiptsOf, flatMap_map, Obs.receipts]
  | quiet path => exact path.sequences seqs
  | loud path loud => exact loud.sequences (path.tickets tickets) (path.sequences seqs)
  | begun _ begun => simpa using begun.sequences seqs
  | login _ login path => exact path.sequences (login.sequences seqs)
  | host host => exact host.sequences seqs

/-- Restoring receipts takes over exactly those that were found. -/
theorem restoreReceipts_lookup {entries : List (String × Value)} {restored : AdminSequencer}
    (distinct : (entries.map Prod.fst).Nodup)
    (ok : State.restoreReceipts sequencer entries = .ok restored) (clientId : String) :
    (∀ value, (clientId, value) ∈ entries →
      ∃ receipt, value = .receipt receipt ∧ restored.clients.lookup clientId = some receipt) ∧
    ((∀ value, (clientId, value) ∉ entries) →
      restored.clients.lookup clientId = sequencer.clients.lookup clientId) := by
  -- The induction is on the entries; a client appears once, so later entries leave it alone.
  induction entries generalizing sequencer with
  | nil =>
    cases ok
    simp
  | cons entry entries ih =>
    obtain ⟨name, value⟩ := entry
    rw [map_cons, nodup_cons] at distinct
    cases value with
    | receipt receipt =>
      simp only [restoreReceipts] at ok
      obtain ⟨next, taken, ok⟩ := bind_ok ok
      have restores := mapStatus_ok taken
      unfold AdminSequencer.restore at restores
      obtain ⟨_, _, restores⟩ := bind_ok restores
      have same : next = { sequencer with clients := sequencer.clients.insert name receipt } := by
        split at restores
        · cases restores
        · cases restores
          rfl
      subst same
      obtain ⟨found, absent⟩ := ih distinct.2 ok
      constructor
      · intro value member
        rcases mem_cons.mp member with first | later
        · cases first
          refine ⟨receipt, rfl, ?_⟩
          rw [absent fun value inside => distinct.1 (mem_map.mpr ⟨_, inside, rfl⟩)]
          simp
        · exact found value later
      · intro none
        rw [absent fun value inside => none value (by simp [inside]), Table.lookup_insert_eq]
        split
        · next same => exact absurd (by simp [same]) (none (.receipt receipt))
        · rfl
    | _ => simp [restoreReceipts] at ok

theorem scanClients_ok {limit : Nat} {found : List (String × Value)}
    (ok : StorageWorker.scanClients store limit = .ok found) :
    (found.map Prod.fst).Nodup ∧ ∀ clientId value,
      (clientId, value) ∈ found ↔ store.lookup (.client clientId) = some value := by
  unfold scanClients at ok
  dsimp only at ok
  split at ok
  · cases ok
  cases ok
  constructor
  · -- The names are the client keys of the table, in the order of its distinct keys.
    have names : (store.entries.filterMap fun entry =>
        entry.1.clientId?.map fun clientId => (clientId, entry.2)).map Prod.fst =
        (store.entries.map Sigma.fst).filterMap Key.clientId? := by
      rw [map_filterMap, filterMap_map]
      congr 1
      funext entry
      simp [Function.comp_def]
    rw [names]
    refine List.Nodup.filterMap ?_ store.nodupKeys
    intro first second clientId one other
    cases first <;> cases second <;> simp_all [Key.clientId?]
  · intro clientId value
    rw [Table.mem_entries, mem_filterMap]
    constructor
    · rintro ⟨⟨key, stored⟩, member, same⟩
      cases key <;> simp_all [Key.clientId?]
    · exact fun member => ⟨_, member, rfl⟩

theorem Started.sequences {options : Options} (started : Started options store s)
    (stored : Stored history store) : Sequences history s := by
  have idle : s.pendingWrite = none := by simp [pendingWrite, started.control]
  refine
    { stored := by rw [started.storage]; exact stored
      known := fun clientId =>
        ⟨receiptsOf clientId history, ?_, by simp [unacknowledged, idle]⟩
      next := by simp [idle]
      positive := by simp [idle] }
  obtain ⟨sequencer, receipts, limit, opened, scanned, restored⟩ := started.receipts
  obtain ⟨distinct, found⟩ := scanClients_ok scanned
  obtain ⟨present, absent⟩ := restoreReceipts_lookup distinct restored clientId
  have last := stored.last clientId
  cases known : (receiptsOf clientId history).getLast? with
  | none =>
    rw [known] at last
    have fresh : sequencer.clients = ∅ := by
      unfold AdminSequencer.new at opened
      split at opened
      · cases opened
      · cases opened
        rfl
    rw [absent fun value member => by simp [(found clientId value).mp member] at last, fresh]
    rfl
  | some =>
    rw [known] at last
    obtain ⟨same, is, lookup⟩ := present _ ((found clientId _).mpr last)
    simp only [Value.receipt.injEq] at is
    rw [lookup, is]

/-- The receipts are in order in every world. -/
def World.Sequences (history : List Obs) : World → Prop
  | .down store => Stored history store
  | .up _ s => Policy.Sequences history s

theorem crashObs_receipts (s : State) (phase : Phase) (pumping : Option (PumpInput × Nat)) :
    (∀ clientId, receiptsOf clientId (crashObs s phase pumping) = []) ∧
      ∀ changes, .executed (.apply changes) ∉ crashObs s phase pumping := by
  constructor
  · intro clientId
    rw [receiptsOf, flatMap_eq_nil_iff]
    intro obs member
    rcases mem_crashObs member with rfl | ⟨event, rfl⟩ <;> rfl
  · intro changes member
    rcases mem_crashObs member with other | ⟨event, other⟩ <;> simp at other

/-- The sequence is in order along every run. -/
theorem run_sequences {guard : List Obs → World → Event → Prop} {world : World}
    (run : (machine env).Run Fresh guard history world) : world.Sequences history := by
  refine machine_invariant (fun history world => world.Sequences history) ?_ ?_ run
  · exact ⟨fun _ => ⟨rfl, Nat.zero_le _⟩, fun _ => by simp [receiptsOf], by simp⟩
  rintro history world event obs next before seqs _ advance
  cases advance with
  | idle => simpa using seqs
  | started started =>
    rw [append_nil]
    exact (initializeInstance_started started).sequences seqs
  | moved move => exact move.sequences (run_tickets before) seqs
  | stopped _ path => exact (path.sequences seqs).stored
  | crashed pumping =>
    obtain ⟨silent, unapplied⟩ := crashObs_receipts _ _ pumping
    exact (Sequences.frame seqs silent unapplied rfl rfl rfl rfl).stored

end Snolc.Policy
