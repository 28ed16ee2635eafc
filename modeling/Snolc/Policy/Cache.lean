import Snolc.Policy.Calls
import Snolc.Policy.Tickets

/-! The cache of user records: what each step does to it, and how it stays within its bound. -/

namespace Snolc.Policy

variable {env : Env}

/-- The cache is within its bound, and every cached user is one that was loaded. -/
structure AdminState.Bounded (limit : Nat) (admin : AdminState) : Prop where
  len : admin.users.len ≤ limit
  loaded : ∀ userId, admin.users.lookup userId ≠ none → userId ∈ admin.loadedUsers

namespace AdminState.Bounded

variable {limit : Nat} {admin next : AdminState} {userId : String}

variable (bounded : admin.Bounded limit)
include bounded

theorem kept (users : ∀ userId, next.users.lookup userId ≠ none → admin.users.lookup userId ≠ none)
    (loaded : next.loadedUsers = admin.loadedUsers) : next.Bounded limit where
  len := (Table.len_le users).trans bounded.len
  loaded userId cached := by
    rw [loaded]
    exact bounded.loaded userId (users userId cached)

theorem replace (cached : admin.users.lookup userId ≠ none) (user : UserRecord) :
    AdminState.Bounded limit { admin with users := admin.users.insert userId user } := by
  refine bounded.kept (fun other found => ?_) rfl
  by_cases same : other = userId
  · rwa [same]
  · rwa [Table.lookup_insert_eq, if_neg same] at found

theorem insert (userId : String)
    (room : admin.users.lookup userId ≠ none ∨ admin.users.len < limit) (user : UserRecord) :
    AdminState.Bounded limit
      { admin with
        loadedUsers := Insert.insert userId admin.loadedUsers
        users := admin.users.insert userId user } where
  len := by
    rw [Table.len_insert]
    rcases room with cached | room
    · rw [← Table.len_erase cached]
      exact bounded.len
    · have fewer : Table.len (admin.users.erase userId) ≤ admin.users.len :=
        Table.len_le fun other found => by
          rw [Table.lookup_erase_eq] at found
          split at found <;> simp_all
      omega
  loaded other found := by
    by_cases same : other = userId
    · exact Finset.mem_insert.mpr (.inl same)
    · rw [Table.lookup_insert_eq, if_neg same] at found
      exact Finset.mem_insert_of_mem (bounded.loaded other found)

theorem erase (userId : String) {loadedUsers : Finset String}
    (loaded : ∀ other, other ≠ userId → other ∈ admin.loadedUsers → other ∈ loadedUsers) :
    AdminState.Bounded limit
      { admin with users := admin.users.erase userId, loadedUsers } where
  len := by
    refine (Table.len_le fun other found => ?_).trans bounded.len
    rw [Table.lookup_erase_eq] at found
    split at found <;> simp_all
  loaded other found := by
    rw [Table.lookup_erase_eq] at found
    split at found
    · simp at found
    · next apart => exact loaded other apart (bounded.loaded other found)

theorem load (userId : String) : AdminState.Bounded limit
      { admin with loadedUsers := Insert.insert userId admin.loadedUsers } where
  len := bounded.len
  loaded other found := Finset.mem_insert_of_mem (bounded.loaded other found)

/-- An eviction makes room and drops a cached user only. -/
theorem evict (positive : 0 < limit) (hint : String) :
    (State.evictUser admin hint).Bounded limit ∧ (State.evictUser admin hint).users.len < limit ∧
      ∀ userId, admin.users.lookup userId = none → userId ∈ admin.loadedUsers →
        userId ∈ (State.evictUser admin hint).loadedUsers := by
  unfold State.evictUser
  cases first : admin.users.first hint with
  | none =>
    -- Nothing is cached.
    have empty : admin.users.len = 0 := by
      unfold Table.first at first
      split at first
      · simp at first
      have keys : admin.users.keys = [] := List.head?_eq_none_iff.mp first
      rw [Table.len, ← List.length_map (f := Sigma.fst)]
      exact congrArg List.length keys
    exact ⟨bounded, by simpa [empty] using positive, fun _ _ loaded => loaded⟩
  | some evicted =>
    have cached : admin.users.lookup evicted ≠ none := by
      have member : evicted ∈ admin.users.keys := by
        unfold Table.first at first
        split at first
        · next hinted =>
          rw [Option.some.injEq] at first
          rwa [← first]
        · exact List.mem_of_head? first
      exact Option.isSome_iff_ne_none.mp (AList.lookup_isSome.mpr (AList.mem_keys.mp member))
    refine ⟨bounded.erase evicted fun other apart loaded => Finset.mem_erase.mpr ⟨apart, loaded⟩,
      ?_, fun userId absent loaded => Finset.mem_erase.mpr ⟨?_, loaded⟩⟩
    · have fewer := Table.len_erase cached
      have within := bounded.len
      simp only
      omega
    · rintro rfl
      exact cached absent

theorem applyUser (positive : 0 < limit) (hint : String) (entry : String × Option UserRecord) :
    (State.applyUser limit hint admin entry).Bounded limit := by
  obtain ⟨id, user⟩ := entry
  cases user with
  | none =>
    exact bounded.erase id fun other _ loaded => Finset.mem_insert_of_mem loaded
  | some user =>
    simp only [State.applyUser]
    split
    · obtain ⟨evicted, room, -⟩ := bounded.evict positive hint
      exact evicted.insert id (.inr room) user
    · next fits =>
      refine bounded.insert id ?_ user
      rw [not_and_or, Option.isNone_iff_eq_none, not_le] at fits
      exact fits

theorem applyCache (positive : 0 < limit) (hint : String)
    (mutation : AdminMutation) : (State.applyCache limit hint admin mutation).Bounded limit := by
  have users : (mutation.users.foldl (State.applyUser limit hint) admin).Bounded limit := by
    generalize mutation.users = entries
    induction entries generalizing admin with
    | nil => exact bounded
    | cons entry entries ih => exact ih (bounded.applyUser positive hint entry)
  have credentials : ∀ (entries : List (String × Option CredentialRecord)) (admin : AdminState),
      admin.Bounded limit →
      (entries.foldl State.applyCredential admin).Bounded limit := by
    intro entries
    induction entries with
    | nil => exact fun _ bounded => bounded
    | cons entry entries ih =>
      intro admin bounded
      refine ih _ ?_
      obtain ⟨digest, _ | credential⟩ := entry <;> exact bounded.kept (fun _ => id) rfl
  exact (credentials mutation.credentials _ users).kept (fun _ => id) rfl

end AdminState.Bounded

/-- The cache of an instance is within its bound. -/
structure State.CacheOk (s : State) : Prop where
  positive : 0 < s.options.maxCachedUsers
  bounded : s.admin.Bounded s.options.maxCachedUsers

/-- Whether a user is cached, or there is room for one more. -/
def State.HasPlace (s : State) (userId : String) : Prop :=
  s.admin.users.lookup userId ≠ none ∨ s.admin.users.len < s.options.maxCachedUsers

instance (userId : String) : DecidablePred (State.HasPlace · userId) :=
  fun _ => inferInstanceAs (Decidable (_ ∨ _))

/-- The user whose record a session has read and will cache without another check. -/
def PolicySession.loggingIn (session : PolicySession) : Option String :=
  match session.auth with
  | .user userId _ => some userId
  | .clock user _ => some user.id
  | _ => none

/-- Whether a debit or a refund of a user waits for its answer. -/
def State.settles (s : State) (userId : String) : Bool :=
  (s.traffic.lookup userId).any fun traffic => traffic.debit.isSome || traffic.refund.isSome

/-- Neither the cache nor the options change. -/
structure SameCache (s t : State) : Prop where
  admin : t.admin = s.admin
  options : t.options = s.options

namespace SameCache

variable {s mid t : State}

theorem refl (s : State) : SameCache s s :=
  ⟨rfl, rfl⟩

theorem trans (first : SameCache s mid) (second : SameCache mid t) : SameCache s t :=
  ⟨second.admin.trans first.admin, second.options.trans first.options⟩

theorem cacheOk (same : SameCache s t) (ok : s.CacheOk) : t.CacheOk := by
  refine ⟨?_, ?_⟩
  · rw [same.options]
    exact ok.positive
  · rw [same.options, same.admin]
    exact ok.bounded

end SameCache

variable {mid s : State}

section Turn

variable {s t : State} {userId : String}

/--
A turn of the quota pass leaves the cache as it is, or replaces the record of its user.

The record is replaced only where a debit or a refund of the user was waiting.
-/
inductive Recorded (userId : String) (s t : State) : Prop
  | same : SameCache s t → Recorded userId s t
  | replaced {record : UserRecord} : s.settles userId = true → t.options = s.options →
      t.admin = { s.admin with users := s.admin.users.insert userId record } → Recorded userId s t

theorem openTraffic_settled (active : Bool) (now instant : Nat) :
    SameCache s (s.openTraffic active now instant userId).state ∧
      ((s.openTraffic active now instant userId).state.settles userId = true →
        s.settles userId = true) := by
  unfold State.openTraffic
  split
  · exact ⟨.refl s, id⟩
  split
  · exact ⟨.refl s, id⟩
  split
  · exact ⟨.refl s, id⟩
  split
  · exact ⟨.refl s, id⟩
  next traffic opened =>
  -- A new account waits for nothing.
  obtain ⟨debit, refund⟩ := newTraffic_ok opened
  refine ⟨⟨rfl, rfl⟩, fun settles => ?_⟩
  simp [Stage.state, State.settles, State.setTraffic, debit, refund] at settles

theorem checkFailed_state (s : State) (active : Bool) (userId : String) :
    (s.checkFailed active userId).state = s := by
  unfold State.checkFailed
  split
  · rfl
  split
  · split <;> rfl
  · rfl

theorem settleDebit_settled (s : State) (userId : String) :
    Recorded userId s (s.settleDebit userId).state ∧
      ((s.settleDebit userId).state.settles userId = true → s.settles userId = true) := by
  unfold State.settleDebit
  cases found : s.traffic.lookup userId with
  | none => exact ⟨.same (.refl s), id⟩
  | some traffic =>
    cases debit : traffic.debit with
    | none => simp only [debit]; exact ⟨.same (.refl s), id⟩
    | some =>
      have settles : s.settles userId = true := by simp [State.settles, found, debit]
      refine ⟨?_, fun _ => settles⟩
      simp only [debit]
      split
      · split
        · exact .same ⟨rfl, rfl⟩
        · exact .replaced settles rfl rfl
      · exact .same (.refl s)
      · exact .same ⟨rfl, rfl⟩

theorem settleRefund_settled (s : State) (active : Bool) (now : Nat) (userId : String) :
    Recorded userId s (s.settleRefund active now userId).state := by
  unfold State.settleRefund
  cases found : s.traffic.lookup userId with
  | none => exact .same (.refl s)
  | some traffic =>
    cases refund : traffic.refund with
    | none => simp only [refund]; exact .same (.refl s)
    | some =>
      have settles : s.settles userId = true := by simp [State.settles, found, refund]
      simp only [refund]
      split
      · split
        · exact .same ⟨rfl, rfl⟩
        · split <;> exact .replaced settles rfl rfl
      · exact .same (.refl s)
      · exact .same ⟨rfl, rfl⟩

theorem requestRefund_same (s : State) (active : Bool) (now : Nat) (userId : String) :
    SameCache s (s.requestRefund active now userId).state := by
  unfold State.requestRefund
  split
  · exact .refl s
  dsimp only
  repeat' split
  all_goals exact ⟨rfl, rfl⟩

theorem requestCredit_same (s : State) (userId : String) :
    SameCache s (s.requestCredit userId).state := by
  unfold State.requestCredit
  split
  · exact .refl s
  dsimp only
  repeat' split
  all_goals exact ⟨rfl, rfl⟩

theorem Recorded.stays (first : Recorded userId s mid) (second : SameCache mid t) :
    Recorded userId s t := by
  cases first with
  | same same => exact .same (same.trans second)
  | replaced waits options admin =>
    exact .replaced waits (second.options.trans options) (second.admin.trans admin)

theorem Recorded.trans (first : Recorded userId s mid)
    (settles : mid.settles userId = true → s.settles userId = true)
    (second : Recorded userId mid t) : Recorded userId s t := by
  cases second with
  | same same => exact first.stays same
  | @replaced record waits options admin =>
    cases first with
    | same same =>
      rw [same.admin] at admin
      exact .replaced (settles waits) (options.trans same.options) admin
    | replaced waited options' admin' =>
      have joined : t.admin =
          { s.admin with users := s.admin.users.insert userId record } := by
        rw [admin, admin']
        simp only [AList.insert_insert]
      exact .replaced waited (options.trans options') joined

theorem Recorded.andThen {stage : Stage} {rest : State → Stage}
    (first : Recorded userId s stage.state)
    (settles : stage.state.settles userId = true → s.settles userId = true)
    (second : ∀ mid, Recorded userId mid (rest mid).state) :
    Recorded userId s (stage.andThen rest).state := by
  cases stage with
  | next mid => exact first.trans settles (second mid)
  | done => exact first

theorem quotaTurn_recorded (s : State) (active : Bool) (now instant : Nat) (userId : String) :
    Recorded userId s (s.quotaTurn active now instant userId).state := by
  obtain ⟨opened, waits⟩ := @openTraffic_settled s userId active now instant
  refine .andThen (.same opened) waits fun s => ?_
  have unchanged := checkFailed_state s active userId
  refine .andThen (by rw [unchanged]; exact .same (.refl s)) (by rw [unchanged]; exact id)
    fun s => ?_
  obtain ⟨settled, waits⟩ := settleDebit_settled s userId
  refine .andThen settled waits fun s => ?_
  -- What is started at the end of the turn changes the cache no more.
  have last : ∀ s, SameCache s
      ((s.requestRefund active now userId).andThen fun s => s.requestCredit userId).state := by
    intro s
    have refund := requestRefund_same s active now userId
    cases stage : s.requestRefund active now userId with
    | next mid =>
      rw [stage] at refund
      exact refund.trans (requestCredit_same mid userId)
    | done =>
      rw [stage] at refund
      exact refund
  have refunded := settleRefund_settled s active now userId
  cases stage : s.settleRefund active now userId with
  | next mid =>
    rw [stage] at refunded
    exact refunded.stays (last mid)
  | done =>
    rw [stage] at refunded
    exact refunded

end Turn

section Sessions

variable {s : State} {session : PolicySession}

theorem presentCredential_same (s : State) (session : PolicySession) (credential : String) :
    SameCache s (presentCredential env s session credential).1 := by
  unfold presentCredential
  split
  · exact .refl s
  split
  · exact .refl s
  dsimp only
  split <;> exact ⟨rfl, rfl⟩

theorem handleMessages_same (instant : Nat) (messages : List String) (s : State)
    (session : PolicySession) :
    SameCache s (handleMessages env instant messages s session).1 := by
  induction messages generalizing s session with
  | nil => exact .refl s
  | cons message rest ih =>
    have one : SameCache s (handleMessage env s session instant message).1 := by
      unfold handleMessage handleClientRequest
      repeat' split
      all_goals first
        | exact .refl s
        | exact presentCredential_same s session _
    rw [handleMessages]
    cases step : handleMessage env s session instant message with
    | mk mid result =>
      rw [step] at one
      cases result with
      | error => exact one
      | ok next => exact one.trans (ih mid next)

theorem receiveMessages_same (input : SessionInput) (s : State) (session : PolicySession) :
    SameCache s (receiveMessages env input s session).1 := by
  unfold receiveMessages
  split
  · exact .refl s
  · exact handleMessages_same _ _ _ _

/-- The step of a session leaves the cache as it is, or caches the user that has logged in. -/
theorem advanceSession_cases (input : SessionInput) (s : State) (session : PolicySession) :
    SameCache s (advanceSession env input s session).1 ∨
      ∃ user, session.loggingIn = some user.id ∧
        SameCache (s.cacheUser user) (advanceSession env input s session).1 := by
  have first : SameCache s (advanceAuthentication env s session input.utc).1 ∨
      ∃ user, session.loggingIn = some user.id ∧
        SameCache (s.cacheUser user) (advanceAuthentication env s session input.utc).1 := by
    unfold advanceAuthentication
    cases auth : session.auth with
    | waiting | authenticated => exact .inl (.refl s)
    | credential =>
      left
      simp only [advanceCredential]
      repeat' split
      all_goals exact ⟨rfl, rfl⟩
    | user =>
      simp only [advanceUser]
      split
      · split
        · exact .inl (.refl s)
        next user decoded =>
        split
        · exact .inl (.refl s)
        next fine =>
        split
        · exact .inl (.refl s)
        split
        · left
          split <;> exact ⟨rfl, rfl⟩
        · push Not at fine
          exact .inr ⟨user, by rw [PolicySession.loggingIn, auth, fine.1], rfl, rfl⟩
      all_goals exact .inl (.refl s)
    | clock user =>
      simp only [advanceClock]
      split
      · exact .inr ⟨user, by rw [PolicySession.loggingIn, auth], rfl, rfl⟩
      all_goals exact .inl (.refl s)
  -- The snapshot that may follow changes the session only.
  have state : (advanceSession env input s session).1 =
      (advanceAuthentication env s session input.utc).1 := by
    unfold advanceSession
    cases step : advanceAuthentication env s session input.utc with
    | mk mid result => cases result <;> rfl
  rw [state]
  exact first

theorem withSession_cases (s : State) (handle : Nat)
    (work : State → PolicySession → SessionStep) :
    s.withSession handle work = s ∨ ∃ session, s.sessions.lookup handle = some session ∧
      SameCache (work (s.without handle) session).1 (s.withSession handle work) := by
  unfold State.withSession
  cases found : s.sessions.lookup handle with
  | none => exact .inl rfl
  | some session =>
    refine .inr ⟨session, rfl, ?_⟩
    simp only
    change SameCache _ (landSession handle (work (s.without handle) session))
    cases step : work (s.without handle) session with
    | mk mid result => cases result <;> exact ⟨rfl, rfl⟩

end Sessions

section Control

theorem startControl_same (s : State) (input : ControlInput) :
    SameCache s (s.startControl env input).2 := by
  unfold State.startControl
  split
  · exact .refl s
  split
  · exact .refl s
  · unfold State.startBackup
    split <;> exact ⟨rfl, rfl⟩
  · unfold State.routeRequest
    split
    · split <;> exact ⟨rfl, rfl⟩
    split
    · exact .refl s
    unfold State.submitMutation
    repeat' split
    all_goals exact ⟨rfl, rfl⟩

/-- Whether the administrative read in progress is of a user that has no record in the cache. -/
def State.ReadsAbsent (s : State) : Prop :=
  match s.pendingControl with
  | some (.read _ (.user userId) _) =>
    s.admin.users.lookup userId = none ∨ s.admin.users.len < s.options.maxCachedUsers
  | _ => True

instance : DecidablePred State.ReadsAbsent := fun s => by
  unfold State.ReadsAbsent
  split <;> infer_instance

theorem finishUserRead_cacheOk (ok : s.CacheOk) {id : String}
    (place : s.admin.users.lookup id = none ∨ s.admin.users.len < s.options.maxCachedUsers)
    (value : Option Value) (hint : String) : (s.finishUserRead id value hint).1.CacheOk := by
  have loaded := ok.bounded.load id
  unfold State.finishUserRead
  dsimp only
  split
  · exact ⟨ok.positive, loaded⟩
  · split
    · exact ⟨ok.positive, loaded⟩
    next user decoded =>
    split
    · exact ⟨ok.positive, loaded⟩
    split
    next full =>
      -- The evicted user is not the one that was read.
      have absent : s.admin.users.lookup id = none :=
        place.resolve_right (Nat.not_lt.mpr full)
      obtain ⟨bounded, room, others⟩ := loaded.evict ok.positive hint
      have known := others id absent (Finset.mem_insert_self _ _)
      have next := bounded.insert id (.inr room) user
      rw [Finset.insert_eq_self.mpr known] at next
      exact ⟨ok.positive, next⟩
    next room =>
      have next := loaded.insert id (.inr (Nat.lt_of_not_le room)) user
      simp only [Finset.insert_idem] at next
      exact ⟨ok.positive, next⟩
  · exact ⟨ok.positive, loaded⟩

theorem applyAdminMutation_cacheOk (ok : s.CacheOk) (mutation : AdminMutation)
    (utc : Nat) (hint : String) : (s.applyAdminMutation mutation utc hint).CacheOk := by
  have bounded := ok.bounded.applyCache ok.positive hint mutation
  have shape : SameCache { s with
      admin := State.applyCache s.options.maxCachedUsers hint s.admin mutation }
      (s.applyAdminMutation mutation utc hint) := by
    unfold State.applyAdminMutation State.stopCredentials State.stopUsers State.disconnect
    cases mutation.disconnect <;> exact ⟨rfl, rfl⟩
  exact shape.cacheOk ⟨ok.positive, bounded⟩

/-- An administrative call leaves the cache within its bound. -/
theorem controlInstance_cacheOk (ok : s.CacheOk) (reads : s.ReadsAbsent)
    (input : ControlInput) : (s.controlInstance env input).2.CacheOk := by
  unfold State.controlInstance
  cases pending : s.pendingControl with
  | none => exact (startControl_same s input).cacheOk ok
  | some control =>
    simp only
    split
    · exact ok
    cases control with
    | write =>
      simp only [State.finishWrite]
      split
      · split
        · exact ⟨ok.positive, ok.bounded⟩
        next sequencer committed =>
          have sequenced : State.CacheOk
              { s with pendingControl := none, admin := { s.admin with sequencer } } :=
            ⟨ok.positive, ok.bounded.kept (fun _ => id) rfl⟩
          exact applyAdminMutation_cacheOk sequenced _ _ _
      · exact ok
      · exact ⟨ok.positive, ok.bounded⟩
    | read request kind =>
      simp only [State.finishRead]
      split
      next value answered =>
        have settled : State.CacheOk { s with pendingControl := none } :=
          ⟨ok.positive, ok.bounded⟩
        have finished : (State.finishAdminRead { s with pendingControl := none } kind value
            input.evict).1.CacheOk := by
          cases kind with
          | user =>
            rw [State.ReadsAbsent, pending] at reads
            exact finishUserRead_cacheOk settled reads value input.evict
          | credential =>
            rw [State.finishAdminRead, State.finishCredentialRead_eq]
            exact ⟨ok.positive, ok.bounded.kept (fun _ => id) rfl⟩
        cases result : State.finishAdminRead { s with pendingControl := none } kind value
            input.evict with
        | mk next status =>
          rw [result] at finished
          cases status with
          | error => exact finished
          | ok => exact (startControl_same next input).cacheOk finished
      · exact ok
      · exact ⟨ok.positive, ok.bounded⟩
    | backup =>
      simp only [State.finishBackup]
      repeat' split
      all_goals exact ⟨ok.positive, ok.bounded⟩

end Control

section Calls

variable {s : State}

theorem attachSession_same (s : State) (context : Bytes) (instant elsewhere : Nat) :
    SameCache s (s.attachSession env context instant elsewhere).2 := by
  unfold State.attachSession
  dsimp only
  repeat' split
  all_goals exact ⟨rfl, rfl⟩

theorem admitFlow_same (s : State) (session : Nat) (metadata : FlowMetadata) (utc : Nat) :
    SameCache s (s.admitFlow env session metadata utc).2 := by
  unfold State.admitFlow State.pushIdentity
  repeat' split
  all_goals exact ⟨rfl, rfl⟩

theorem attachWith_same (s : State) (session : Nat) (input : State.AttachInput)
    {install : State → Nat → Option FlowIdentity → State}
    (same : ∀ s handle identity, SameCache s (install s handle identity)) :
    SameCache s (s.attachWith session input install).2 := by
  unfold State.attachWith
  cases taken : s.takeIdentity session with
  | error => exact .refl s
  | ok pair =>
    obtain ⟨identity, next⟩ := pair
    have after : SameCache s next := by
      rcases State.takeIdentity_cases taken with ⟨_, rfl⟩ | ⟨_, _, _, _, _, _, _, rfl⟩ <;>
        exact ⟨rfl, rfl⟩
    dsimp only
    split
    · exact after
    split
    · exact after.trans ⟨rfl, rfl⟩
    have installed := same { next with flowNext := next.flowNext + input.elsewhere + 1 }
      (next.flowNext + input.elsewhere) identity
    exact after.trans ⟨installed.admin, installed.options⟩

end Calls

/--
The step finds a place in the cache for what it caches.

A session that may finish its login finds its user cached or room for it, the record of a debit or a
refund is still cached when its answer is read, and so is no record that an administrative read
will cache where the cache is full.
-/
def World.FindsPlace : World → Event → Prop
  | .up (.sessions (handle :: _) true) s, .advanceSession _ =>
    ∀ session ∈ s.sessions.lookup handle, ∀ userId ∈ session.loggingIn, s.HasPlace userId
  | .up (.quota pass) s, .quotaTurn _ =>
    ∀ userId ∈ pass.todo.head?, s.settles userId = true → s.admin.users.lookup userId ≠ none
  | .up .idle s, .control _ => s.ReadsAbsent
  | _, _ => True

instance (world : World) (event : Event) : Decidable (world.FindsPlace event) := by
  unfold World.FindsPlace
  split <;> infer_instance

theorem Recorded.cacheOk {userId : String} {t : State} (recorded : Recorded userId s t)
    (cached : s.settles userId = true → s.admin.users.lookup userId ≠ none) (ok : s.CacheOk) :
    t.CacheOk := by
  cases recorded with
  | same same => exact same.cacheOk ok
  | replaced settles options admin =>
    refine ⟨by rw [options]; exact ok.positive, ?_⟩
    rw [options, admin]
    exact ok.bounded.replace (cached settles) _

theorem Pumps.cacheOk {t : State} (pumps : Pumps s t) (ok : s.CacheOk) : t.CacheOk := by
  have cached := pumps.cached
  obtain ⟨_, _, _, _, _, _, _, _, rfl⟩ := pumps.rest
  refine ⟨ok.positive, ok.bounded.kept (fun userId there => ?_) rfl⟩
  rw [← Option.isSome_iff_ne_none, cached userId] at there
  exact Option.isSome_iff_ne_none.mp there

variable {next world : World} {event : Event}

/-- A step between polls leaves the cache within its bound. -/
theorem idleStep_cacheOk (ok : s.CacheOk)
    (place : (World.up .idle s).FindsPlace event) {obs : List Obs}
    (steps : idleStep env s event = some (next, obs)) : next.Holds State.CacheOk := by
  cases event with
  | attachSession context instant elsewhere =>
    cases steps
    exact (attachSession_same s context instant elsewhere).cacheOk ok
  | admitFlow session flow metadata utc =>
    cases steps
    exact (admitFlow_same s session metadata utc).cacheOk ok
  | attachFlow session flow input =>
    have same : SameCache s (s.attachFlow session input).2 :=
      attachWith_same s session input fun _ _ _ => ⟨rfl, rfl⟩
    cases steps
    exact same.cacheOk ok
  | attachDatagramFlow session flow input =>
    have same : SameCache s (s.attachDatagramFlow session input).2 :=
      attachWith_same s session input fun _ _ _ => ⟨rfl, rfl⟩
    cases steps
    exact same.cacheOk ok
  | control input =>
    cases steps
    exact controlInstance_cacheOk ok place input
  | beginPoll =>
    simp only [idleStep] at steps
    split at steps
    · cases steps
      exact ok
    · cases steps
      refine ⟨ok.positive, ok.bounded.kept (fun userId cached => ?_) rfl⟩
      simpa [State.observeUtc, Table.lookup_mapValues] using cached
  | beginShutdown =>
    cases steps
    have same : SameCache s s.closeAll := by
      unfold State.closeAll
      split <;> exact ⟨rfl, rfl⟩
    exact same.cacheOk ok
  | admitResolved | abandonFlow =>
    cases steps
    exact ok
  | _ => simp [idleStep] at steps

/-- A step in the middle of a poll or a shutdown leaves the cache within its bound. -/
theorem busyStep_cacheOk (ok : s.CacheOk) {phase : Phase}
    (place : (World.up phase s).FindsPlace event) {obs : List Obs}
    (steps : busyStep env s phase event = some (next, obs)) : next.Holds State.CacheOk := by
  unfold busyStep at steps
  split at steps
  · -- The turn of a user.
    next pass instant =>
    cases todo : pass.todo with
    | nil => simp [todo] at steps
    | cons userId =>
      simp only [todo, Option.some.injEq, Prod.mk.injEq] at steps
      rw [← steps.1]
      exact (quotaTurn_recorded s _ _ _ userId).cacheOk (place userId (by simp [todo])) ok
  · next pass =>
    split at steps
    · cases steps
      unfold endQuota
      dsimp only
      split
      · exact ⟨ok.positive, ok.bounded⟩
      split
      · exact ⟨ok.positive, ok.bounded⟩
      split
      · trivial
      · exact ⟨ok.positive, ok.bounded⟩
    · simp at steps
  · next input order =>
    cases steps
    exact (s.pumpFlows_pumps input).cacheOk ok
  · next handle rest input =>
    cases steps
    rcases withSession_cases s handle (receiveMessages env input) with same | ⟨session, _, same⟩
    · rw [World.Holds, same]
      exact ok
    · exact (receiveMessages_same input _ session).trans same |>.cacheOk ⟨ok.positive, ok.bounded⟩
  · -- A session that may finish its login.
    next handle rest input =>
    cases steps
    rcases withSession_cases s handle (advanceSession env input) with same | ⟨session, found, same⟩
    · rw [World.Holds, same]
      exact ok
    rcases advanceSession_cases input (s.without handle) session with kept | ⟨user, login, cached⟩
    · exact (kept.trans same).cacheOk ⟨ok.positive, ok.bounded⟩
    · have room := place session found user.id login
      exact (cached.trans same).cacheOk ⟨ok.positive, ok.bounded.insert user.id room user⟩
  · cases steps
    exact ⟨ok.positive, ok.bounded⟩
  · simp at steps

theorem initializeInstance_positive {options : Options} {store : Table Key Value}
    {started sessionNext flowNext : Nat}
    (ok : State.initializeInstance env options store started sessionNext flowNext = .ok s) :
    0 < s.options.maxCachedUsers := by
  rw [(initializeInstance_started ok).options]
  unfold State.initializeInstance at ok
  obtain ⟨_, valid, _⟩ := bind_ok ok
  replace valid := mapStatus_ok valid
  by_contra none
  have zero : options.maxCachedUsers = 0 := by omega
  unfold Options.validate at valid
  simp only [zero, true_or, if_true] at valid
  split at valid <;> simp [Bind.bind, Except.bind, throw, throwThe, MonadExceptOf.throw] at valid

theorem World.step_cacheOk (place : world.FindsPlace event)
    (ok : world.Holds State.CacheOk) : (world.step env event).1.Holds State.CacheOk := by
  unfold World.step
  split
  · next store options at_ sessionNext flowNext =>
    cases started : State.initializeInstance env options store at_ sessionNext flowNext with
    | error => trivial
    | ok =>
      have fresh := initializeInstance_started started
      refine ⟨initializeInstance_positive started, ?_, ?_⟩
      · simp [fresh.users, Table.len]
      · simp [fresh.users]
  · trivial
  · exact ⟨ok.positive, ok.bounded⟩
  · exact ⟨ok.positive, ok.bounded⟩
  · trivial
  · next s _ _ _ =>
    cases steps : idleStep env s event with
    | none => exact ok
    | some => exact idleStep_cacheOk ok place steps
  · next phase s _ _ _ _ =>
    cases steps : busyStep env s phase event with
    | none => exact ok
    | some => exact busyStep_cacheOk ok place steps

/--
The cache of user records stays within its bound and consistent, as long as every step finds a place
for what it caches.
-/
theorem userCache_bounded {history : List Obs}
    (run : (machine env).Run Fresh (fun _ world event => world.FindsPlace event) history world) :
    world.Holds fun s => s.admin.users.len ≤ s.options.maxCachedUsers ∧
      s.admin.users.All fun userId user => user.id = userId ∧ userId ∈ s.admin.loadedUsers := by
  have ok : world.Holds State.CacheOk := by
    refine run.stateInvariant (fun world => world.Holds State.CacheOk) ?_ ?_
    · rintro world rfl
      trivial
    · intro history world event ok place
      exact World.step_cacheOk place ok
  have tickets := run_tickets run
  cases world with
  | down => trivial
  | up =>
    refine ⟨ok.bounded.len, fun userId user cached => ⟨tickets.users userId user cached, ?_⟩⟩
    exact ok.bounded.loaded userId (by simp [cached])

open Deployment

/-- Options with room for one user in the cache. -/
def narrow : Options :=
  { options with maxCachedUsers := 1 }

/-- A login of the user that is cached keeps to the bound. -/
theorem userCache_bounded_login :
    (machine (libraries [])).Run Fresh (fun _ world event => world.FindsPlace event)
        (reached [] (setup narrow ++ login)).1 (reached [] (setup narrow ++ login)).2 ∧
      ∀ phase s, (reached [] (setup narrow ++ login)).2 = .up phase s →
        s.admin.users.len ≤ s.options.maxCachedUsers := by
  have run : (machine (libraries [])).Run Fresh (fun _ world event => world.FindsPlace event)
      (reached [] (setup narrow ++ login)).1 (reached [] (setup narrow ++ login)).2 :=
    reached_run [] (setup narrow ++ login) (by decide +kernel)
  refine ⟨run, fun phase s up => ?_⟩
  rw [up] at run
  exact (userCache_bounded run).1

/-- A second user takes the place of the first, which then logs in. -/
def crowded : List Event :=
  setup narrow ++ another ++ login

/-- A login caches its user without making room for it. -/
theorem userCache_exceeded :
    (machine (libraries [createOther])).Run Fresh (fun history _ event => Reliable history event)
        (reached [createOther] crowded).1 (reached [createOther] crowded).2 ∧
      (reached [createOther] crowded).2.Holds fun s =>
        s.options.maxCachedUsers < s.admin.users.len :=
  ⟨reached_run [createOther] crowded (by decide +kernel), by decide +kernel⟩

end Snolc.Policy
