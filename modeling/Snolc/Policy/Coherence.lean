import Snolc.Policy.Copies
import Snolc.Policy.Receipts

/-! The cached credentials and rules are the stored ones, except for the write in progress. -/

namespace Snolc.Policy

open List State Option StorageWorker

variable {env : Env}

theorem PendingWrite.written_mutation (write : PendingWrite) {key : Key}
    (other : ∀ clientId, key ≠ .client clientId) :
    written key write.changes = written key write.mutation.changes := by
  rw [PendingWrite.changes, written_append]
  have receipt : written key [(.client write.clientId, some (.receipt write.receipt))] = none :=
    written_eq_none fun change member => by
      rw [mem_singleton] at member
      rw [member]
      exact (other write.clientId).symm
  rw [receipt, none_or]

theorem AdminMutation.written_credential (mutation : AdminMutation) (digest : String) :
    written (.credential digest) mutation.changes =
      written (.credential digest) (mutation.credentials.map fun entry =>
        (Key.credential entry.1, entry.2.map Value.credential)) := by
  rw [AdminMutation.changes, written_append, written_append, written_map mutation.rules (by simp),
    written_map mutation.users (by simp), none_or, or_none]

variable {write : PendingWrite}

theorem PendingWrite.credential_of_written {digest : String}
    {change : Option Value} (touched : written (.credential digest) write.changes = some change) :
    ∃ record, change = record.map .credential ∧
      (digest, record) ∈ write.mutation.credentials := by
  rw [write.written_mutation (by simp), write.mutation.written_credential] at touched
  obtain ⟨⟨other, record⟩, member, same⟩ := mem_map.mp (written_mem touched)
  rw [Prod.mk.injEq, Key.credential.injEq] at same
  exact ⟨record, same.2.symm, same.1 ▸ member⟩

theorem PendingWrite.written_of_credential {digest : String}
    {record : Option CredentialRecord} (named : (digest, record) ∈ write.mutation.credentials) :
    written (.credential digest) write.changes ≠ none := by
  rw [write.written_mutation (by simp), write.mutation.written_credential]
  exact written_ne_none (mem_map.mpr ⟨_, named, rfl⟩)

theorem AdminMutation.written_rules (mutation : AdminMutation) (profile : String) :
    written (.rules profile) mutation.changes =
      written (.rules profile) (mutation.rules.map fun entry =>
        (Key.rules entry.1, some (Value.rules entry.2))) := by
  rw [AdminMutation.changes, written_append, written_append,
    written_map mutation.credentials (by simp), written_map mutation.users (by simp)]
  simp

namespace State

theorem foldl_applyUser (maxCachedUsers : Nat) (evict : String)
    (entries : List (String × Option UserRecord)) (admin : AdminState) :
    (entries.foldl (applyUser maxCachedUsers evict) admin).credentials = admin.credentials ∧
      (entries.foldl (applyUser maxCachedUsers evict) admin).rules = admin.rules := by
  induction entries generalizing admin with
  | nil => exact ⟨rfl, rfl⟩
  | cons entry entries ih =>
    obtain ⟨userId, record⟩ := entry
    rw [foldl_cons]
    obtain ⟨credentials, rules⟩ := ih (applyUser maxCachedUsers evict admin (userId, record))
    rw [credentials, rules]
    cases record with
    | none => exact ⟨rfl, rfl⟩
    | some =>
      obtain ⟨users, loadedUsers, evicted, _⟩ := evictUser_cases admin evict
      simp only [applyUser, evicted]
      split <;> exact ⟨rfl, rfl⟩

theorem applyCache_credential (maxCachedUsers : Nat) (evict : String) (admin : AdminState)
    (mutation : AdminMutation) (digest : String) :
    ∃ change : Option (Option CredentialRecord),
      written (.credential digest) mutation.changes = change.map (Option.map .credential) ∧
      (applyCache maxCachedUsers evict admin mutation).credentials.lookup digest =
        change.getD (admin.credentials.lookup digest) := by
  have cache : (applyCache maxCachedUsers evict admin mutation).credentials =
      (mutation.credentials.foldl applyCredential
        (mutation.users.foldl (applyUser maxCachedUsers evict) admin)).credentials := rfl
  rw [mutation.written_credential, cache,
    ← (foldl_applyUser maxCachedUsers evict mutation.users admin).1]
  generalize mutation.users.foldl (applyUser maxCachedUsers evict) admin = admin
  generalize mutation.credentials = entries
  -- The last change of the credential decides in both, by induction on the changes.
  induction entries generalizing admin with
  | nil => exact ⟨none, rfl, rfl⟩
  | cons entry entries ih =>
    obtain ⟨other, record⟩ := entry
    obtain ⟨change, stored, cached⟩ := ih (applyCredential admin (other, record))
    refine ⟨change.or (if other = digest then some record else none), ?_, ?_⟩
    · rw [map_cons, written, stored]
      by_cases same : other = digest
      · cases change <;> simp [same]
      · cases change <;> simp [same]
    · rw [foldl_cons, cached]
      have step : (applyCredential admin (other, record)).credentials.lookup digest =
          if other = digest then record else admin.credentials.lookup digest := by
        cases record with
        | none => simp only [applyCredential, Table.lookup_erase_eq, eq_comm]
        | some => simp only [applyCredential, Table.lookup_insert_eq, eq_comm]
      rw [step]
      by_cases same : other = digest
      · cases change <;> simp [same]
      · cases change <;> simp [same]

theorem applyCache_rules (maxCachedUsers : Nat) (evict : String) (admin : AdminState)
    (mutation : AdminMutation) (profile : String) :
    ∃ change : Option String,
      written (.rules profile) mutation.changes = change.map (some ∘ .rules) ∧
      (applyCache maxCachedUsers evict admin mutation).rules.lookup profile =
        change.or (admin.rules.lookup profile) := by
  have cache : (applyCache maxCachedUsers evict admin mutation).rules =
      mutation.rules.foldl (fun rules entry => rules.insert entry.1 entry.2) admin.rules := by
    rw [applyCache]
    dsimp only
    rw [(foldl_applyCredential _ _).2, (foldl_applyUser _ _ _ _).2]
  rw [mutation.written_rules, cache]
  generalize admin.rules = rules
  generalize mutation.rules = entries
  induction entries generalizing rules with
  | nil => exact ⟨none, rfl, rfl⟩
  | cons entry entries ih =>
    obtain ⟨other, toml⟩ := entry
    obtain ⟨change, stored, cached⟩ := ih (rules.insert other toml)
    refine ⟨change.or (if other = profile then some toml else none), ?_, ?_⟩
    · rw [map_cons, written, stored]
      by_cases same : other = profile
      · cases change <;> simp [same]
      · cases change <;> simp [same]
    · rw [foldl_cons, cached, Table.lookup_insert_eq]
      by_cases same : other = profile
      · cases change <;> simp [same]
      · cases change <;> simp [same, Ne.symm same]

/-- The write in progress has been executed and changes what is under a key. -/
def Outdated (s : State) (key : Key) : Prop :=
  ∃ write, s.pendingControl = some (.write write) ∧
    s.storage.replies[write.reply]? = some .done ∧ written key write.changes ≠ none

end State

/-- The cached credentials and rules are the stored ones, except for the write in progress. -/
structure Coherent (s : State) : Prop where
  /-- What only administrative writes touch is as the executed one has left it. -/
  landed : ∀ write key change, s.pendingControl = some (.write write) →
    s.storage.replies[write.reply]? = some .done → (∀ userId, key ≠ .user userId) →
    written key write.changes = some change → s.storage.store.lookup key = change
  credentials : s.admin.credentials.All fun digest record => s.Outdated (.credential digest) ∨
    s.storage.store.lookup (.credential digest) = some (.credential record)
  rules : s.admin.rules.All fun profile toml => s.Outdated (.rules profile) ∨
    s.storage.store.lookup (.rules profile) = some (.rules toml)
  /-- A credential that was read is still what the store holds. -/
  reading : ∀ request digest reply value,
    s.pendingControl = some (.read request (.credential digest) reply) →
    s.storage.replies[reply]? = some (.value value) →
    s.storage.store.lookup (.credential digest) = value

namespace Coherent

variable {s t : State}

theorem frame (coherent : Coherent s) (queues : Queues s.storage t.storage)
    (control : t.pendingControl = s.pendingControl)
    (credentials : t.admin.credentials = s.admin.credentials)
    (rules : t.admin.rules = s.admin.rules) : Coherent t where
  landed := by
    rw [control, queues.replies, queues.store]
    exact coherent.landed
  credentials := by
    simp only [State.Outdated, control, queues.replies, queues.store, credentials]
    exact coherent.credentials
  rules := by
    simp only [State.Outdated, control, queues.replies, queues.store, rules]
    exact coherent.rules
  reading := by
    rw [control, queues.replies, queues.store]
    exact coherent.reading

theorem not_outdated
    (undone : ∀ write, s.pendingControl = some (.write write) →
      s.storage.replies[write.reply]? ≠ some .done) (key : Key) : ¬ s.Outdated key := by
  rintro ⟨write, pending, done, _⟩
  exact undone write pending done

/-- The operation in progress ends, or another one begins that has no answer yet. -/
theorem turn (coherent : Coherent s) (queues : Queues s.storage t.storage)
    (undone : ∀ write, s.pendingControl = some (.write write) →
      s.storage.replies[write.reply]? ≠ some .done)
    (unanswered : ∀ control, t.pendingControl = some control →
      (∃ request destination reply, control = .backup request destination reply) ∨
      (∃ request userId reply, control = .read request (.user userId) reply) ∨
      (∃ request digest reply, control = .read request (.credential digest) reply ∧
        s.storage.replies[reply]? = none) ∨
      ∃ write, control = .write write ∧ s.storage.replies[write.reply]? = none)
    (credentials : t.admin.credentials.All fun digest record =>
      s.admin.credentials.lookup digest = some record ∨
        s.storage.store.lookup (.credential digest) = some (.credential record))
    (rules : t.admin.rules = s.admin.rules) : Coherent t where
  landed := by
    intro write key change pending done
    rw [queues.replies] at done
    rcases unanswered _ pending with ⟨_, _, _, same⟩ | ⟨_, _, _, same⟩ | ⟨_, _, _, same, _⟩ |
      ⟨other, same, none⟩
    · simp at same
    · simp at same
    · simp at same
    · rw [PendingControl.write.injEq] at same
      simp [same, none] at done
  credentials := by
    intro digest record cached
    right
    rw [queues.store]
    rcases credentials digest record cached with old | stored
    · exact (coherent.credentials digest record old).resolve_left (not_outdated undone _)
    · exact stored
  rules := by
    intro profile toml cached
    rw [rules] at cached
    right
    rw [queues.store]
    exact (coherent.rules profile toml cached).resolve_left (not_outdated undone _)
  reading := by
    intro request digest reply value pending answered
    rw [queues.replies] at answered
    rcases unanswered _ pending with ⟨_, _, _, same⟩ | ⟨_, _, _, same⟩ | ⟨_, _, _, same, none⟩ |
      ⟨other, same, _⟩
    · simp at same
    · simp at same
    · simp only [PendingControl.read.injEq] at same
      simp [same.2.2, none] at answered
    · simp at same

/-- An acknowledged write takes its effect in the cache. -/
theorem acknowledge (coherent : Coherent s) {admin : AdminState}
    {maxCachedUsers : Nat} {evict : String} (pending : s.pendingControl = some (.write write))
    (done : s.storage.replies[write.reply]? = some .done) (storage : t.storage = s.storage)
    (idle : t.pendingControl = none)
    (cache : t.admin = State.applyCache maxCachedUsers evict admin write.mutation)
    (credentials : admin.credentials = s.admin.credentials)
    (rules : admin.rules = s.admin.rules) : Coherent t where
  landed := by simp [idle]
  credentials := by
    intro digest record cached
    right
    obtain ⟨change, written, applied⟩ :=
      applyCache_credential maxCachedUsers evict admin write.mutation digest
    rw [← write.written_mutation (by simp)] at written
    rw [cache, applied] at cached
    rw [storage]
    cases change with
    | none =>
      -- The write does not touch the credential, so it is not the outdated one.
      rw [getD_none, credentials] at cached
      refine (coherent.credentials digest record cached).resolve_left ?_
      rintro ⟨other, waits, _, touched⟩
      rw [pending, Option.some.injEq, PendingControl.write.injEq] at waits
      rw [← waits, written] at touched
      exact touched rfl
    | some =>
      rw [getD_some] at cached
      rw [coherent.landed write _ _ pending done (by simp) written, cached, map_some]
  rules := by
    intro profile toml cached
    right
    obtain ⟨change, written, applied⟩ :=
      applyCache_rules maxCachedUsers evict admin write.mutation profile
    rw [← write.written_mutation (by simp)] at written
    rw [cache, applied] at cached
    rw [storage]
    cases change with
    | none =>
      rw [none_or, rules] at cached
      refine (coherent.rules profile toml cached).resolve_left ?_
      rintro ⟨other, waits, _, touched⟩
      rw [pending, Option.some.injEq, PendingControl.write.injEq] at waits
      rw [← waits, written] at touched
      exact touched rfl
    | some =>
      rw [some_or, Option.some.injEq] at cached
      rw [coherent.landed write _ _ pending done (by simp) written, cached]
      rfl
  reading := by simp [idle]

end Coherent

variable {obs history : List Obs}

section Steps

variable {s t : State}

/-- Quiet changes keep the cache coherent. -/
theorem Quiet.coherent (change : Quiet env s obs t)
    (tickets : Tickets env s) (seqs : Sequences history s) (coherent : Coherent s) :
    Coherent t := by
  have queues := change.queues
  -- A command that has just been sent has no answer.
  have unanswered : s.storage.replies[s.storage.commands.length]? = none :=
    List.getElem?_eq_none tickets.queue.answered
  cases change with
  | loadedUser _ pending =>
    exact coherent.turn (.refl _) (by simp [pending]) (by simp) (fun _ _ => .inl) rfl
  | loadedCredential _ pending answered loads =>
    -- What was read is still stored, so it is what the cache has to hold.
    have stored := coherent.reading _ _ _ _ pending answered
    refine coherent.turn (.refl _) (by simp [pending]) (by simp) (fun other record cached => ?_) rfl
    rcases loads.known other record cached with old | ⟨here, found⟩
    · exact .inl old
    · exact .inr (by rw [here, stored, found])
  | gaveUp maintenance forsaken =>
    refine coherent.turn (.refl _) (fun write pending done => ?_) (by simp) (fun _ _ => .inl) rfl
    -- The number of the write is the next one, so an executed write is never given up.
    obtain ⟨sequencer, committed⟩ := seqs.next write (by simp [pendingWrite, pending])
    obtain ⟨fault, failed⟩ := (forsaken write pending).2 (tryRecv_ok.mpr done)
    simp [committed] at failed
  | acknowledged _ _ _ _ pending answered =>
    exact coherent.acknowledge pending answered rfl rfl rfl rfl rfl
  | backedUp idle => exact coherent.turn queues (by simp [idle]) (by simp) (fun _ _ => .inl) rfl
  | askedCredential request digest idle =>
    refine coherent.turn queues (by simp [idle]) (fun control same => ?_) (fun _ _ => .inl) rfl
    rw [Option.some.injEq] at same
    exact .inr (.inr (.inl ⟨request, digest, _, same.symm, unanswered⟩))
  | _ => exact coherent.frame queues rfl rfl rfl

theorem Path.coherent (path : Path env s obs t)
    (tickets : Tickets env s) (seqs : Sequences history s) (coherent : Coherent s) :
    Coherent t := by
  induction path generalizing history with
  | refl => exact coherent
  | step change _ ih =>
    exact ih (change.tickets tickets) (change.sequences seqs)
      (change.coherent tickets seqs coherent)

theorem Loud.coherent {event : Event} (change : Loud env event s t) (tickets : Tickets env s)
    (coherent : Coherent s) : Coherent t := by
  have unanswered : s.storage.replies[s.storage.commands.length]? = none :=
    List.getElem?_eq_none tickets.queue.answered
  cases change with
  | debited | refunding => exact coherent.frame (.push _ _) rfl rfl rfl
  | askedUser request userId idle =>
    exact coherent.turn (.push _ _) (by simp [idle]) (by simp) (fun _ _ => .inl) rfl
  | submitted _ idle =>
    refine coherent.turn (.push _ _) (by simp [idle]) (fun control same => ?_) (fun _ _ => .inl)
      rfl
    rw [Option.some.injEq] at same
    exact .inr (.inr (.inr ⟨_, same.symm, unanswered⟩))

/-- An answer that does not end a write, over what is the same store but for users. -/
theorem Coherent.answer (coherent : Coherent s) {store : Table Key Value} {reply : Reply}
    {running : Bool}
    (kept : ∀ key, (∀ userId, key ≠ .user userId) → store.lookup key = s.storage.store.lookup key)
    (undone : ∀ write, s.pendingControl = some (.write write) →
      write.reply = s.storage.replies.length → reply ≠ .done)
    (read : ∀ request digest value,
      s.pendingControl = some (.read request (.credential digest) s.storage.replies.length) →
      reply = .value value → s.storage.store.lookup (.credential digest) = value) :
    Coherent
      { s with
        storage := { s.storage with
          store, running, replies := s.storage.replies ++ [reply] } } := by
  -- A write that is done now was done before.
  have earlier : ∀ write, s.pendingControl = some (.write write) →
      (s.storage.replies ++ [reply])[write.reply]? = some .done →
      s.storage.replies[write.reply]? = some .done := by
    intro write pending done
    rcases sent_cases done with old | ⟨here, last⟩
    · exact old
    · exact absurd last.symm (undone write pending here)
  have outdated (key : Key) (touched : s.Outdated key) :
      State.Outdated
        { s with
          storage := { s.storage with
            store, running, replies := s.storage.replies ++ [reply] } } key := by
    obtain ⟨write, pending, done, changes⟩ := touched
    exact ⟨write, pending, sent_push done reply, changes⟩
  exact
    { landed := fun write key change pending done other touched =>
        (kept key other).trans
          (coherent.landed write key change pending (earlier write pending done) other touched)
      credentials := fun digest record cached =>
        (coherent.credentials digest record cached).imp (outdated _) fun stored =>
          (kept _ (by simp)).trans stored
      rules := fun profile toml cached =>
        (coherent.rules profile toml cached).imp (outdated _) fun stored =>
          (kept _ (by simp)).trans stored
      reading := fun request digest position value pending answered => by
        refine (kept _ (by simp)).trans ?_
        rcases sent_cases answered with old | ⟨here, last⟩
        · exact coherent.reading request digest position value pending old
        · exact read request digest value (here ▸ pending) last.symm }

/-- The write in progress is executed. -/
theorem Coherent.execute (coherent : Coherent s) (pending : s.pendingControl = some (.write write))
    (turn : write.reply = s.storage.replies.length) : Coherent
      { s with
        storage := { s.storage with
          store := effect s.storage.store (.apply write.changes)
          replies := s.storage.replies ++ [.done] } } := by
  have done : (s.storage.replies ++ [.done])[write.reply]? = some Reply.done := by
    rw [turn]
    exact sent_last _ _
  have fresh (key : Key) : ¬ s.Outdated key := by
    refine Coherent.not_outdated (fun other waits answered => ?_) key
    rw [pending, Option.some.injEq, PendingControl.write.injEq] at waits
    rw [← waits, turn] at answered
    simp at answered
  -- What the write touches is outdated from now on, and the rest is as it was.
  have entry (key : Key) {found : Option Value}
      (stored : s.Outdated key ∨ s.storage.store.lookup key = found) :
      State.Outdated
        { s with
          storage := { s.storage with
            store := effect s.storage.store (.apply write.changes)
            replies := s.storage.replies ++ [.done] } } key ∨
        (effect s.storage.store (.apply write.changes)).lookup key = found := by
    cases touched : written key write.changes with
    | none =>
      right
      rw [lookup_effect, writes, touched, getD_none]
      exact stored.resolve_left (fresh key)
    | some => exact .inl ⟨write, pending, done, by simp [touched]⟩
  exact
    { landed := fun other key change waits _ _ touched => by
        rw [pending, Option.some.injEq, PendingControl.write.injEq] at waits
        rw [lookup_effect, writes, waits, touched, getD_some]
      credentials := fun digest record cached =>
        entry _ (coherent.credentials digest record cached)
      rules := fun profile toml cached => entry _ (coherent.rules profile toml cached)
      reading := by simp [pending] }

/-- The worker keeps the cache coherent. -/
theorem Coherent.finish (coherent : Coherent s) (tickets : Tickets env s) (outcome : Outcome) :
    Coherent { s with storage := s.storage.finish outcome } := by
  -- The command at the turn of an operation is the one it was sent for.
  have write {command : Command} (holds : s.storage.held = some command)
      (other : ∀ changes, command ≠ .apply changes) (write : PendingWrite)
      (pending : s.pendingControl = some (.write write)) :
      write.reply ≠ s.storage.replies.length := by
    intro turn
    have sent := (tickets.write pending).sent
    rw [turn, held_eq_some holds, Option.some.injEq] at sent
    exact other _ sent
  have read {command : Command} (holds : s.storage.held = some command) (request : Bytes)
      (digest : String)
      (pending : s.pendingControl =
        some (.read request (.credential digest) s.storage.replies.length)) :
      command = .get (.credential digest) := by
    have sent := tickets.control
    rw [pending] at sent
    exact Option.some.inj ((held_eq_some holds).symm.trans sent)
  generalize finished : s.storage.finish outcome = worker
  have cases := s.storage.finish_cases outcome
  rw [finished] at cases
  cases cases with
  | idle => exact coherent
  | stop holds =>
    refine coherent.answer (fun _ _ => rfl) (fun other pending turn => ?_) (by simp)
    exact absurd turn (write holds (by simp) other pending)
  | failed =>
    exact coherent.answer (fun _ _ => rfl) (by simp) (by simp)
  | @done command holds =>
    cases command with
    | apply =>
      obtain ⟨write, pending, turn, rfl⟩ := tickets.held_apply holds
      exact coherent.execute pending turn
    | get =>
      refine coherent.answer (fun _ _ => rfl) (by simp [StorageWorker.answer]) ?_
      intro request digest value pending answered
      have same := read holds request digest pending
      rw [Command.get.injEq] at same
      rw [← same]
      simpa [StorageWorker.answer] using answered
    | put key =>
      obtain ⟨userId, record, rfl, rfl⟩ := tickets.queue.puts _ _ _ (held_eq_some holds)
      refine coherent.answer (fun key other => ?_) (fun other pending turn => ?_)
        (by simp [StorageWorker.answer])
      · simp [lookup_effect, writes, (other userId).symm]
      · exact absurd turn (write holds (by simp) other pending)
    | backup =>
      refine coherent.answer (fun _ _ => rfl) (fun other pending turn => ?_)
        (by simp [StorageWorker.answer])
      exact absurd turn (write holds (by simp) other pending)
    | stop => contradiction

theorem Login.coherent (change : Login s t) (coherent : Coherent s) : Coherent t := by
  cases change <;> exact coherent.frame (.refl _) rfl rfl rfl

theorem Move.coherent {event : Event} (move : Move env s event obs t)
    (tickets : Tickets env s) (seqs : Sequences history s) (coherent : Coherent s) :
    Coherent t := by
  cases move with
  | finished => exact coherent.finish tickets _
  | pumped => exact coherent.frame (.refl _) rfl rfl rfl
  | quiet path => exact path.coherent tickets seqs coherent
  | loud path loud =>
    exact loud.coherent (path.tickets tickets) (path.coherent tickets seqs coherent)
  | begun _ begun => cases begun <;> exact coherent.frame (.push _ _) rfl rfl rfl
  | login _ login path =>
    exact path.coherent (login.tickets tickets) (login.sequences seqs) (login.coherent coherent)
  | host host => cases host <;> exact coherent.frame (.refl _) rfl rfl rfl

end Steps

/-- The cache is coherent in every state of every run. -/
theorem run_coherent {guard : List Obs → World → Event → Prop}
    {world : World} (run : (machine env).Run Fresh guard history world) : world.Holds Coherent := by
  refine machine_invariant (fun _ world => world.Holds Coherent) trivial ?_ run
  intro history world event obs next before coherent _ advance
  have tickets := run_tickets before
  have seqs := run_sequences before
  cases advance with
  | idle => exact coherent
  | started ok =>
    have started := initializeInstance_started ok
    exact
      { landed := by simp [started.control]
        credentials := by
          rw [started.credentials]
          exact .empty
        rules := by
          rw [started.rules]
          exact .empty
        reading := by simp [started.control] }
  | moved move => exact move.coherent tickets seqs coherent
  | stopped | crashed => trivial

end Snolc.Policy
