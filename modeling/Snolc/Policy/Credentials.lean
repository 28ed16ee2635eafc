import Snolc.Policy.Coherence
import Snolc.Policy.Mutation

/-! Every stored credential belongs to a stored user, if a deletion finds all of them cached. -/

namespace Snolc.Policy

open StorageWorker

def State.CachesCredentials (userId : String) (s : State) : Prop :=
  ∀ digest record, s.storage.store.lookup (.credential digest) = some (.credential record) →
    record.userId = userId → s.admin.credentials.lookup digest ≠ none

/-- The user is deleted only where the cache holds every stored credential of it. -/
def World.DeletesAll (env : Env) (userId : String) (world : World) (event : Event) : Prop :=
  ∀ input clientId seq revision, event = .control input →
    ControlRequest.parse env.decodeControl input.request =
      .ok (.userDelete clientId seq userId revision) →
    world.Holds (State.CachesCredentials userId)

/-- Stored credentials of the user belong to a stored user. -/
def StoreTethered (userId : String) (store : Table Key Value) : Prop :=
  ∀ digest record, store.lookup (.credential digest) = some (.credential record) →
    record.userId = userId → store.lookup (.user userId) ≠ none

/-- Credentials of the user are stored and being stored only while the user is. -/
structure Tethered (userId : String) (s : State) : Prop where
  store : StoreTethered userId s.storage.store
  granting : ∀ write digest record, s.pendingControl = some (.write write) →
    (digest, some record) ∈ write.mutation.credentials → record.userId = userId →
    write.mutation.users = [] ∧ s.storage.store.lookup (.user userId) ≠ none
  deleting : ∀ write, s.pendingControl = some (.write write) →
    (userId, none) ∈ write.mutation.users → ∀ digest record,
    s.storage.store.lookup (.credential digest) = some (.credential record) →
    record.userId = userId → (digest, none) ∈ write.mutation.credentials

variable {obs history : List Obs}

section Tethered

variable {env : Env} {userId : String} {s t : State}

theorem Tethered.grow (tethered : Tethered userId s)
    (credentials : ∀ digest, t.storage.store.lookup (.credential digest) =
      s.storage.store.lookup (.credential digest))
    (user : s.storage.store.lookup (.user userId) ≠ none →
      t.storage.store.lookup (.user userId) ≠ none)
    (write : ∀ write, t.pendingControl = some (.write write) →
      s.pendingControl = some (.write write)) : Tethered userId t where
  store digest record stored owner :=
    user (tethered.store digest record (credentials digest ▸ stored) owner)
  granting waiting digest record pending granted owner :=
    (tethered.granting waiting digest record (write _ pending) granted owner).imp_right user
  deleting waiting pending deletes digest record stored owner :=
    tethered.deleting waiting (write _ pending) deletes digest record (credentials digest ▸ stored)
      owner

theorem Tethered.frame (tethered : Tethered userId s) (store : t.storage.store = s.storage.store)
    (write : ∀ write, t.pendingControl = some (.write write) →
      s.pendingControl = some (.write write)) : Tethered userId t :=
  tethered.grow (fun _ => by rw [store]) (fun present => by rwa [store]) write

variable {register : Register}

theorem Represents.stored_of_cached (rep : Represents userId register s)
    (idle : s.pendingControl = none) {user : UserRecord}
    (cached : s.admin.users.lookup userId = some user) :
    s.storage.store.lookup (.user userId) ≠ none := by
  cases register with
  | still value =>
    have known : some user.version = value := rep.cached user cached
    obtain ⟨record, stored, shows⟩ := rep.store
    have shown : record.map UserRecord.version = value := shows
    rw [stored]
    rintro absent
    rw [storedAs, Option.map_eq_none_iff] at absent
    simp [absent, ← known] at shown
  | moving =>
    have waits := rep.reached.1
    simp [idle] at waits

/-- A new write grants credentials to a stored user, or deletes the user with all of them. -/
theorem Loud.tethered {event : Event} (change : Loud env event s t)
    (coherent : Coherent s) (rep : Represents userId register s) (tethered : Tethered userId s)
    (cached : ∀ input clientId seq revision, event = .control input →
      ControlRequest.parse env.decodeControl input.request =
        .ok (.userDelete clientId seq userId revision) → s.CachesCredentials userId) :
    Tethered userId t := by
  cases change with
  | debited | refunding => exact tethered.frame rfl fun _ => id
  | askedUser => exact tethered.frame rfl (by simp)
  | @submitted input request clientId seq draft response receipt called idle parsed sequenced
      loaded checked drafts encoded stamped =>
    -- With no write in progress, a cached credential is the stored one.
    have mirrored (digest : String) (record : CredentialRecord)
        (found : s.admin.credentials.lookup digest = some record) :
        s.storage.store.lookup (.credential digest) = some (.credential record) :=
      (coherent.credentials digest record found).resolve_left
        (Coherent.not_outdated (by simp [idle]) _)
    have drafted := State.draftMutation_drafted drafts
    refine ⟨tethered.store, ?_, ?_⟩
    · rintro write digest record pending granted rfl
      rw [Option.some.injEq, PendingControl.write.injEq] at pending
      subst pending
      cases drafted with
      | granted found =>
        simp only [putCredential, List.mem_singleton, Prod.mk.injEq, Option.some.injEq] at granted
        obtain ⟨rfl, rfl⟩ := granted
        exact ⟨rfl, rep.stored_of_cached idle found⟩
      | revoked found =>
        simp only [putCredential, List.mem_singleton, Prod.mk.injEq, Option.some.injEq] at granted
        obtain ⟨rfl, rfl⟩ := granted
        exact ⟨rfl, tethered.store _ _ (mirrored _ _ found) rfl⟩
      | created | rewritten => simp [putUser] at granted
      | deleted | kept | disconnected | ruled => simp at granted
    · intro write pending deletes digest record found owner
      have stored : s.storage.store.lookup (.credential digest) = some (.credential record) := found
      rw [Option.some.injEq, PendingControl.write.injEq] at pending
      subst pending
      cases drafted with
      | deleted =>
        simp only [List.mem_singleton, Prod.mk.injEq, and_true] at deletes
        subst deletes
        -- The deletion collects what the cache holds, and the cache holds all of them.
        have present := cached _ _ _ _ called parsed digest record stored owner
        obtain ⟨held, lookup⟩ := Option.ne_none_iff_exists'.mp present
        have same := mirrored digest held lookup
        rw [stored, Option.some.injEq, Value.credential.injEq] at same
        subst same
        refine List.mem_map.mpr ⟨digest, ?_, rfl⟩
        refine List.mem_map.mpr ⟨⟨digest, record⟩, ?_, rfl⟩
        exact List.mem_filter.mpr ⟨Table.mem_entries.mp lookup, by simpa using owner⟩
      | created | rewritten => simp [putUser] at deletes
      | granted | revoked => simp [putCredential] at deletes
      | kept | disconnected | ruled => simp at deletes

theorem Quiet.cachesCredentials (change : Quiet env s obs t)
    (coherent : Coherent s) (cached : s.CachesCredentials userId) : t.CachesCredentials userId := by
  cases change with
  | loadedCredential _ _ _ loads =>
    exact fun digest record stored owner => loads.kept digest (cached digest record stored owner)
  | @acknowledged write sequencer _ evict _ _ _ _ _ _ pending answered =>
    intro digest record found owner absent
    have stored : s.storage.store.lookup (.credential digest) = some (.credential record) := found
    obtain ⟨change, written, applied⟩ := State.applyCache_credential s.options.maxCachedUsers evict
      { s.admin with sequencer } write.mutation digest
    rw [← write.written_mutation (by simp)] at written
    rw [absent] at applied
    -- What is removed from the cache has been removed from the store.
    cases change with
    | none => exact cached digest record stored owner applied.symm
    | some =>
      have landed := coherent.landed write _ _ pending answered (by simp) written
      rw [Option.getD_some] at applied
      rw [stored, ← applied] at landed
      simp at landed
  | _ => exact cached

theorem Path.cachesCredentials (path : Path env s obs t)
    (tickets : Tickets env s) (seqs : Sequences history s) (coherent : Coherent s)
    (cached : s.CachesCredentials userId) : t.CachesCredentials userId := by
  induction path generalizing history with
  | refl => exact cached
  | step change _ ih =>
    exact ih (change.tickets tickets) (change.sequences seqs)
      (change.coherent tickets seqs coherent) (change.cachesCredentials coherent cached)

/-- The write in progress keeps credentials and users together. -/
theorem Tethered.execute (tethered : Tethered userId s) {write : PendingWrite}
    (pending : s.pendingControl = some (.write write)) :
    Tethered userId
      { s with
        storage := { s.storage with
          store := effect s.storage.store (.apply write.changes)
          replies := s.storage.replies ++ [.done] } } := by
  -- Whether the user is deleted decides whether its credentials have to go.
  by_cases deletes : (userId, none) ∈ write.mutation.users
  · -- All of its credentials were stored ones, and all of those go.
    have gone : ∀ digest record,
        (effect s.storage.store (.apply write.changes)).lookup (.credential digest) =
          some (.credential record) → record.userId ≠ userId := by
      intro digest record stored owner
      rw [lookup_effect, writes] at stored
      cases touched : written (.credential digest) write.changes with
      | none =>
        rw [touched, Option.getD_none] at stored
        have named := tethered.deleting write pending deletes digest record stored owner
        exact PendingWrite.written_of_credential named touched
      | some =>
        obtain ⟨changed, same, member⟩ := PendingWrite.credential_of_written touched
        rw [touched, Option.getD_some, same, Option.map_eq_some_iff] at stored
        obtain ⟨found, rfl, granted⟩ := stored
        rw [Value.credential.injEq] at granted
        subst granted
        have only := (tethered.granting write digest found pending member owner).1
        simp [only] at deletes
    refine ⟨fun digest record stored owner => absurd owner (gone digest record stored),
      fun other digest record waits granted owner => ?_,
      fun _ _ _ digest record stored owner => absurd owner (gone digest record stored)⟩
    rw [pending, Option.some.injEq, PendingControl.write.injEq] at waits
    subst waits
    have only := (tethered.granting write digest record pending granted owner).1
    simp [only] at deletes
  · -- A user that is not deleted stays.
    have stays (present : s.storage.store.lookup (.user userId) ≠ none) :
        (effect s.storage.store (.apply write.changes)).lookup (.user userId) ≠ none := by
      rw [lookup_effect]
      cases touched : writes (.user userId) (.apply write.changes) with
      | none => exact present
      | some =>
        obtain ⟨record, member, rfl⟩ := writes_changes touched
        rw [Option.getD_some]
        intro absent
        rw [storedAs, Option.map_eq_none_iff] at absent
        exact deletes (absent ▸ member)
    refine ⟨fun digest record stored owner => stays ?_,
      fun other digest record waits granted owner =>
        (tethered.granting other digest record waits granted owner).imp_right stays,
      fun other waits deletion => ?_⟩
    · rw [lookup_effect, writes] at stored
      cases touched : written (.credential digest) write.changes with
      | none =>
        rw [touched, Option.getD_none] at stored
        exact tethered.store digest record stored owner
      | some =>
        obtain ⟨changed, same, member⟩ := PendingWrite.credential_of_written touched
        rw [touched, Option.getD_some, same, Option.map_eq_some_iff] at stored
        obtain ⟨found, rfl, granted⟩ := stored
        rw [Value.credential.injEq] at granted
        subst granted
        exact (tethered.granting write digest found pending member owner).2
    · rw [pending, Option.some.injEq, PendingControl.write.injEq] at waits
      exact absurd (waits ▸ deletion) deletes

theorem Tethered.finish (tethered : Tethered userId s) (tickets : Tickets env s)
    (outcome : Outcome) : Tethered userId { s with storage := s.storage.finish outcome } := by
  generalize finished : s.storage.finish outcome = worker
  have cases := s.storage.finish_cases outcome
  rw [finished] at cases
  cases cases with
  | idle => exact tethered
  | stop | failed => exact tethered.frame rfl fun _ => id
  | @done command holds =>
    cases command with
    | apply =>
      obtain ⟨write, pending, _, rfl⟩ := tickets.held_apply holds
      exact tethered.execute pending
    | put =>
      obtain ⟨other, record, rfl, rfl⟩ := tickets.queue.puts _ _ _ (held_eq_some holds)
      refine tethered.grow (fun digest => ?_) (fun present => ?_) fun _ => id
      · simp [lookup_effect, writes]
      rw [lookup_effect, writes]
      split
      · simp
      · exact present
    | _ => exact tethered.frame rfl fun _ => id

/-- Every move keeps credentials and users together. -/
theorem Move.tethered {event : Event}
    {may : PendingWrite → Prop} (move : Move env s event obs t) (tickets : Tickets env s)
    (seqs : Sequences history s) (coherent : Coherent s) (alone : s.MutationAlone userId)
    (run : Register.Run env userId may history register) (rep : Represents userId register s)
    (tethered : Tethered userId s) (cached : ∀ input clientId seq revision, event = .control input →
      ControlRequest.parse env.decodeControl input.request =
        .ok (.userDelete clientId seq userId revision) → s.CachesCredentials userId) :
    Tethered userId t := by
  -- What starts no operation leaves the store and the write in progress as they are.
  have goesOn {next : State} (queues : Queues s.storage next.storage)
      (fewer : Fewer userId s next) : Tethered userId next :=
    tethered.frame queues.store fewer.write
  cases move with
  | finished => exact tethered.finish tickets _
  | pumped => exact tethered.frame rfl fun _ => id
  | quiet path => exact goesOn path.queues path.fewer
  | loud path loud =>
    obtain ⟨next, _, held, _⟩ := path.represents tickets seqs alone run rep
    refine loud.tethered (path.coherent tickets seqs coherent) held
      (goesOn path.queues path.fewer) ?_
    intro input clientId seq revision called parsed
    exact path.cachesCredentials tickets seqs coherent
      (cached input clientId seq revision called parsed)
  | begun _ begun => cases begun <;> exact tethered.frame rfl fun _ => id
  | login _ login path =>
    have fewer : Fewer userId s t := login.fewer.trans path.fewer
    refine tethered.frame ?_ fewer.write
    rw [path.queues.store]
    cases login <;> rfl
  | host host => cases host <;> exact tethered.frame rfl fun _ => id

end Tethered

section Run

variable {env : Env} {userId : String}

/-- Credentials and users stay together along every run in which deletions find all of them. -/
theorem run_tethered {guard : List Obs → World → Event → Prop}
    (orderly : ∀ history world event, guard history world event →
      Orderly userId history world event ∧ world.DeletesAll env userId event) {world : World}
    (run : (machine env).Run Fresh guard history world) :
    StoreTethered userId world.store ∧ world.Holds (Tethered userId) := by
  refine machine_invariant (fun _ world => StoreTethered userId world.store ∧
    world.Holds (Tethered userId)) ⟨by simp [StoreTethered, World.store], trivial⟩ ?_ run
  rintro history world event obs next before ⟨store, tethered⟩ admitted advance
  have tickets := run_tickets before
  have seqs := run_sequences before
  have coherent := run_coherent before
  obtain ⟨conditions, deletes⟩ := orderly _ _ _ admitted
  obtain ⟨register, reaches, rep⟩ :=
    run_anyRegister (fun _ _ _ admitted => (orderly _ _ _ admitted).1) before
  cases advance with
  | idle => exact ⟨store, tethered⟩
  | @started stored _ _ _ _ s ok =>
    have started := initializeInstance_started ok
    have kept : StoreTethered userId s.storage.store := by
      rw [started.store]
      exact store
    exact ⟨kept, kept, by simp [started.control], by simp [started.control]⟩
  | moved move =>
    have kept := move.tethered tickets seqs coherent conditions.alone reaches rep tethered deletes
    exact ⟨kept.store, kept⟩
  | stopped _ path =>
    refine ⟨?_, trivial⟩
    rw [World.store, path.queues.store]
    exact store
  | crashed => exact ⟨store, trivial⟩

/--
Deleting a user deletes all its credentials, if each deletion finds all of them in the cache.
No login and no settlement of the user overlaps with a change of it, storage succeeds, and no
random name is drawn twice.
-/
theorem credentials_deleted {world : World}
    (run : (machine env).Run Fresh (fun history world event =>
      Orderly userId history world event ∧ world.DeletesAll env userId event) history world) :
    (∀ before write after clientId seq revision,
      history = before ++ .acknowledged write :: after →
      write.asked env = some (.userDelete clientId seq userId revision) →
      ∀ digest record, world.store.lookup (.credential digest) = some (.credential record) →
        record.userId ≠ userId) ∧
    ∀ digest record, world.store.lookup (.credential digest) = some (.credential record) →
      record.userId = userId → ∃ user,
        world.store.lookup (.user userId) = some (.user (encodeUserRecord user)) := by
  have tethered := (run_tethered (fun _ _ _ admitted => admitted) run).1
  obtain ⟨register, reaches, rep⟩ := run_anyRegister (fun _ _ _ admitted => admitted.1) run
  obtain ⟨found, stored, shows⟩ := rep.store
  refine ⟨?_, fun digest record present owner => ?_⟩
  · intro before write after clientId seq revision split deletes digest record present owner
    -- A user that was deleted stays deleted, and so does what belongs to it.
    obtain rfl := reaches.deleted split deletes
    have absent : found = none := by simpa [Shows, Register.current] using shows
    exact tethered digest record present owner (by rw [stored, absent]; rfl)
  · cases found with
    | none => exact absurd stored (tethered digest record present owner)
    | some user => exact ⟨user, stored⟩

end Run

open Deployment

instance (userId : String) (s : State) : Decidable (s.CachesCredentials userId) :=
  decidable_of_iff (Table.All (fun key value =>
      (match key, value with
      | .credential digest, .credential record =>
        record.userId ≠ userId || (s.admin.credentials.lookup digest).isSome
      | _, _ => true) = true) s.storage.store) <| by
    constructor
    · intro all digest record stored owner
      have checked := all _ _ stored
      simp only [Bool.or_eq_true, decide_eq_true_eq] at checked
      exact Option.isSome_iff_ne_none.mp (checked.resolve_left fun other => other owner)
    · intro cached key value stored
      split
      · next digest record =>
        rw [Bool.or_eq_true, decide_eq_true_eq, Option.isSome_iff_ne_none]
        by_cases owner : record.userId = userId
        · exact .inr (cached digest record stored owner)
        · exact .inl owner
      · rfl

instance (env : Env) (userId : String) (world : World) (event : Event) :
    Decidable (world.DeletesAll env userId event) :=
  decidable_of_iff
    ((match event with
      | .control input =>
        match ControlRequest.parse env.decodeControl input.request with
        | .ok (.userDelete _ _ other _) =>
          other ≠ userId || decide (world.Holds (State.CachesCredentials userId))
        | _ => true
      | _ => true) = true) <| by
    cases event with
    | control input =>
      constructor
      · rintro checked _ clientId seq revision ⟨⟩ parsed
        simpa [parsed] using checked
      · intro deletes
        dsimp only
        split
        · next other _ parsed =>
          rw [Bool.or_eq_true, decide_eq_true_eq, decide_eq_true_eq]
          by_cases same : other = userId
          · exact .inr (deletes _ _ _ _ rfl (same ▸ parsed))
          · exact .inl same
        · rfl
    | _ => simp [World.DeletesAll]

def deleteUser : Sample where
  lines :=
    ["method = \"user.delete\"", "client_id = \"panel\"", "seq = 3",
      "user_id = \"000102030405060708090a0b0c0d0e0f\"", "expected_revision = 1"]
  digest := 0x786fd66aa9c304361d47a736e045764774c4ac9d258eaf60623b5fe4f5011a5a
  request := .userDelete "panel" 3 firstUser 1

/-- The credential of a user is deleted with it, where it is in the cache. -/
theorem credentials_deleted_cached :
    (machine (libraries [deleteUser])).Run Fresh
        (fun history world event => Orderly firstUser history world event ∧
          world.DeletesAll (libraries [deleteUser]) firstUser event)
        (reached [deleteUser] (setup options ++ deleteUser.issue)).1
        (reached [deleteUser] (setup options ++ deleteUser.issue)).2 ∧
      ∀ digest record, (reached [deleteUser] (setup options ++ deleteUser.issue)).2.store.lookup
          (.credential digest) = some (.credential record) →
        record.userId = firstUser → ∃ user,
          (reached [deleteUser] (setup options ++ deleteUser.issue)).2.store.lookup
            (.user firstUser) = some (.user (encodeUserRecord user)) :=
  have run := reached_run [deleteUser] (setup options ++ deleteUser.issue) (by decide +kernel)
  ⟨run, (credentials_deleted run).2⟩

/-- The process ends, another one starts, and it is asked to delete the user. -/
def deletion : List Event :=
  setup options ++ [.crash none, .start options 0 1 1, deleteUser.call 10 none] ++ worked ++
    deleteUser.issue

/--
After a restart nothing has loaded the credential, so the deletion does not know of it.
The user is gone, and its credential stays in the store.
-/
theorem credentials_left :
    (machine (libraries [deleteUser])).Run Fresh
        (fun history _ event => Reliable history event)
        (reached [deleteUser] deletion).1 (reached [deleteUser] deletion).2 ∧
      acknowledgedRequests (libraries [deleteUser]) (reached [deleteUser] deletion).1 =
        [some createUser.request, some addCredential.request, some deleteUser.request] ∧
      (reached [deleteUser] deletion).2.store.lookup (.user firstUser) = none ∧
      ∃ record, (reached [deleteUser] deletion).2.store.lookup (.credential credentialSha256) =
        some (.credential record) ∧ record.userId = firstUser := by
  refine ⟨reached_run [deleteUser] deletion (by decide +kernel), by decide +kernel,
    by decide +kernel, ⟨credentialSha256, firstUser, false, 2⟩, by decide +kernel, rfl⟩

end Snolc.Policy
