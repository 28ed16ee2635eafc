import Snolc.Policy.Control

/-! Everything an administrative request can draft, and the writes that make it durable. -/

namespace Snolc.Policy

variable {userId : String} {request : ControlRequest} {draft : Draft}

/-- The writes that make a mutation durable. -/
def AdminMutation.changes (mutation : AdminMutation) : List (Key × Option Value) :=
  (mutation.users.map fun entry =>
    (Key.user entry.1, entry.2.map fun user => Value.user (encodeUserRecord user))) ++
  (mutation.credentials.map fun entry =>
    (Key.credential entry.1, entry.2.map Value.credential)) ++
  mutation.rules.map fun entry => (Key.rules entry.1, some (Value.rules entry.2))

/-- The transaction of an administrative write: its mutation and its receipt. -/
def PendingWrite.changes (write : PendingWrite) : List (Key × Option Value) :=
  write.mutation.changes ++ [(.client write.clientId, some (.receipt write.receipt))]

/-- How a request rewrites the record of a user it names. -/
inductive Rewritten : ControlRequest → String → UserRecord → UserRecord → Prop
  | update {clientId userId : String} {seq : Nat} {spec : UserSpec} {old : UserRecord} :
      Rewritten (.userUpdate clientId seq userId old.revision spec) userId old
        { old with spec, revision := old.revision + 1 }
  | disable {clientId userId : String} {seq : Nat} {old : UserRecord} :
      Rewritten (.userDisable clientId seq userId old.revision) userId old
        { old with spec := { old.spec with status := .disabled }, revision := old.revision + 1 }
  | add {clientId userId : String} {seq bytes limit total : Nat} {old : UserRecord} :
      old.spec.quota = .limited limit → checkedAdd limit bytes = some total →
      Rewritten (.quotaAdd clientId seq userId bytes) userId old
        { old with
          spec := { old.spec with quota := .limited total }
          revision := old.revision + 1 }
  | period {clientId userId : String} {seq : Nat} {quota : ByteLimit} {old : UserRecord} :
      Rewritten (.quotaNewPeriod clientId seq userId quota) userId old
        { old with
          spec := { old.spec with quota }
          durableChargedBytes := 0
          uploadBytes := 0
          downloadBytes := 0
          revision := old.revision + 1 }

variable {old new user : UserRecord}

theorem Rewritten.next (rewritten : Rewritten request userId old new) :
    new.id = old.id ∧ new.revision = old.revision + 1 := by
  cases rewritten <;> exact ⟨rfl, rfl⟩

def ControlRequest.changedUser : ControlRequest → Option String
  | .userUpdate _ _ id _ _ | .userDisable _ _ id _ | .userDelete _ _ id _ | .quotaAdd _ _ id _
  | .quotaNewPeriod _ _ id _ => some id
  | _ => none

theorem Rewritten.changedUser
    (rewritten : Rewritten request userId old new) : request.changedUser = some userId := by
  cases rewritten <;> rfl

/-- A new user under the name the random bytes give it. -/
def newUser (bytes : Bytes) (spec : UserSpec) (utc : Nat) : UserRecord where
  id := encodeHex bytes
  spec
  revision := 1
  durableChargedBytes := 0
  uploadBytes := 0
  downloadBytes := 0
  maxObservedUtc := utc

/-- The digests of the cached credentials of a user. -/
def State.digestsOf (state : State) (userId : String) : List String :=
  (state.admin.credentials.entries.filter fun entry => entry.2.userId = userId).map Sigma.fst

/-- Everything a request can draft. -/
inductive Drafted (s : State) (input : ControlInput) : ControlRequest → Draft → Prop
  | created {clientId : String} {seq : Nat} {spec : UserSpec} {bytes : Bytes} :
      input.entropy = some bytes →
      Drafted s input (.userCreate clientId seq spec) (putUser (newUser bytes spec input.utc))
  | rewritten {request : ControlRequest} {userId : String} {old new : UserRecord} :
      s.admin.users.lookup userId = some old → Rewritten request userId old new →
      Drafted s input request { putUser new with userId := some userId }
  | deleted {clientId userId : String} {seq : Nat} {old : UserRecord} :
      s.admin.users.lookup userId = some old →
      Drafted s input (.userDelete clientId seq userId old.revision)
        { userId := some userId
          revision := old.revision + 1
          mutation :=
            { users := [(userId, none)]
              credentials := (s.digestsOf userId).map fun digest => (digest, none) }
          changes := (.user userId, none) ::
            (s.digestsOf userId).map fun digest => (.credential digest, none) }
  | kept {clientId userId digest : String} {seq : Nat} {user : UserRecord}
      {existing : CredentialRecord} : s.admin.users.lookup userId = some user →
      s.admin.credentials.lookup digest = some existing → existing.userId = userId →
      existing.revoked = false →
      Drafted s input (.credentialAdd clientId seq userId digest)
        { userId := some userId, revision := user.revision + 1, mutation := {}, changes := [] }
  | granted {clientId userId digest : String} {seq : Nat} {user : UserRecord} :
      s.admin.users.lookup userId = some user → s.admin.credentials.lookup digest = none →
      Drafted s input (.credentialAdd clientId seq userId digest)
        (putCredential digest
          { digest, userId, revoked := false, revision := user.revision + 1 })
  | revoked {clientId digest : String} {seq : Nat} {record : CredentialRecord} :
      s.admin.credentials.lookup digest = some record →
      Drafted s input (.credentialRevoke clientId seq digest)
        (putCredential digest { record with revoked := true, revision := record.revision + 1 })
  | disconnected {clientId : String} {seq sessionId : Nat} :
      Drafted s input (.sessionsDisconnect clientId seq sessionId)
        { userId := none, revision := 0, mutation := { disconnect := some sessionId }
          changes := [] }
  | ruled {clientId profile rulesToml : String} {seq : Nat} {apply : RuleApply} :
      Drafted s input (.rulesReplace clientId seq profile apply rulesToml)
        { userId := none
          revision := 0
          mutation :=
            { rules := [(profile, rulesToml)]
              activeRuleProfiles := if apply = .active then [profile] else [] }
          changes := [(.rules profile, some (.rules rulesToml))] }

theorem nextRevision_ok {revision next : Nat} (ok : nextRevision revision = .ok next) :
    next = revision + 1 := by
  unfold nextRevision at ok
  split at ok
  · cases ok
  next sum =>
    cases ok
    exact checkedAdd_eq_some sum

namespace State

variable {env : Env} {s : State}

theorem checkedUser_ok {expected : Nat} (ok : s.checkedUser userId expected = .ok user) :
    s.admin.users.lookup userId = some user ∧ user.revision = expected := by
  unfold checkedUser at ok
  split at ok
  · cases ok
  next cached =>
  split at ok
  · cases ok
  next same =>
    cases ok
    exact ⟨cached, not_not.mp same⟩

theorem cachedUser_ok (ok : s.cachedUser userId = .ok user) :
    s.admin.users.lookup userId = some user := by
  unfold cachedUser at ok
  split at ok
  · cases ok
  next cached =>
    cases ok
    exact cached

theorem revise_ok {expected : Nat} {build : UserRecord → Nat → Draft} (ok : (do
      let record ← s.checkedUser userId expected
      let revision ← nextRevision record.revision
      pure (build record revision)) = .ok draft) :
    ∃ old, s.admin.users.lookup userId = some old ∧ old.revision = expected ∧
      build old (old.revision + 1) = draft := by
  obtain ⟨old, found, rest⟩ := bind_ok ok
  obtain ⟨revision, next, done⟩ := bind_ok rest
  obtain ⟨cached, same⟩ := checkedUser_ok found
  cases nextRevision_ok next
  cases done
  exact ⟨old, cached, same, rfl⟩

section Handlers

variable {input : ControlInput} {clientId digest : String} {seq : Nat}

/-- Where the digest is known already, it must be a valid credential of the user. -/
theorem addCredential_drafted (drafts : s.addCredential userId digest = .ok draft) :
    Drafted s input (.credentialAdd clientId seq userId digest) draft := by
  obtain ⟨user, found, rest⟩ := bind_ok drafts
  obtain ⟨revision, next, done⟩ := bind_ok rest
  obtain rfl := nextRevision_ok next
  have user := cachedUser_ok found
  split at done
  next existing cached =>
    split at done
    · cases done
    next valid =>
    simp only [not_or, not_not, Bool.not_eq_true] at valid
    cases done
    exact .kept user cached valid.1 valid.2
  next cached =>
    cases done
    exact .granted user cached

theorem revokeCredential_drafted (drafts : s.revokeCredential digest = .ok draft) :
    Drafted s input (.credentialRevoke clientId seq digest) draft := by
  unfold revokeCredential at drafts
  split at drafts
  · cases drafts
  next cached =>
  obtain ⟨revision, next, done⟩ := bind_ok drafts
  obtain rfl := nextRevision_ok next
  cases done
  exact .revoked cached

theorem addQuota_drafted {bytes : Nat} (drafts : s.addQuota userId bytes = .ok draft) :
    Drafted s input (.quotaAdd clientId seq userId bytes) draft := by
  obtain ⟨old, found, rest⟩ := bind_ok drafts
  have cached := cachedUser_ok found
  split at rest
  · cases rest
  next limited =>
  split at rest
  · cases rest
  next sum =>
  obtain ⟨revision, next, done⟩ := bind_ok rest
  obtain rfl := nextRevision_ok next
  cases done
  exact .rewritten cached (.add limited sum)

theorem newPeriod_drafted {quota : ByteLimit} (drafts : s.newPeriod userId quota = .ok draft) :
    Drafted s input (.quotaNewPeriod clientId seq userId quota) draft := by
  obtain ⟨old, found, rest⟩ := bind_ok drafts
  obtain ⟨revision, next, done⟩ := bind_ok rest
  obtain rfl := nextRevision_ok next
  cases done
  exact .rewritten (cachedUser_ok found) .period

end Handlers

/-- A draft is one of the listed ones. -/
theorem draftMutation_drafted {input : ControlInput}
    (drafts : s.draftMutation env input request = .ok draft) : Drafted s input request draft := by
  cases request with
  | userCreate =>
    simp only [draftMutation, createUser] at drafts
    split at drafts
    · cases drafts
    next drawn =>
      cases drafts
      exact .created drawn
  | userUpdate =>
    simp only [draftMutation, updateUser] at drafts
    obtain ⟨old, cached, rfl, rfl⟩ := revise_ok drafts
    exact .rewritten cached .update
  | userDisable =>
    simp only [draftMutation, disableUser] at drafts
    obtain ⟨old, cached, rfl, rfl⟩ := revise_ok drafts
    exact .rewritten cached .disable
  | userDelete =>
    simp only [draftMutation, deleteUser] at drafts
    obtain ⟨old, cached, rfl, rfl⟩ := revise_ok drafts
    exact .deleted cached
  | credentialAdd => exact addCredential_drafted drafts
  | credentialRevoke => exact revokeCredential_drafted drafts
  | quotaAdd => exact addQuota_drafted drafts
  | quotaNewPeriod => exact newPeriod_drafted drafts
  | sessionsDisconnect =>
    simp only [draftMutation, disconnectSession] at drafts
    split at drafts
    · cases drafts
    · cases drafts
      exact .disconnected
  | rulesReplace =>
    simp only [draftMutation, replaceRules] at drafts
    split at drafts
    · cases drafts
    split at drafts
    · cases drafts
    · cases drafts
      exact .ruled
  | usageGet | sessionsList | maintenanceBackup => simp [draftMutation] at drafts

end State

theorem Drafted.changes_eq {s : State} {input : ControlInput}
    (drafted : Drafted s input request draft) : draft.changes = draft.mutation.changes := by
  cases drafted <;> simp [AdminMutation.changes, putUser, putCredential]

namespace State

theorem evictUser_cases (admin : AdminState) (evict : String) :
    ∃ users loadedUsers, evictUser admin evict = { admin with users, loadedUsers } ∧
      Table.Sub users admin.users := by
  unfold evictUser
  split
  · exact ⟨_, _, rfl, .refl _⟩
  · exact ⟨_, _, rfl, .erase _ _⟩

section Reads

variable {s : State} {id digest evict : String} {value : Option Value}

theorem finishUserRead_eq : (s.finishUserRead id value evict).1 =
    { s with
      admin :=
        { s.admin with
          users := (s.finishUserRead id value evict).1.admin.users
          loadedUsers := (s.finishUserRead id value evict).1.admin.loadedUsers } } := by
  unfold finishUserRead evictUser
  dsimp only
  repeat' split
  all_goals rfl

/-- A cached user was cached before, or is the one that was read. -/
def LoadsUser (admin : AdminState) (id : String) (value : Option Value)
    (users : Table String UserRecord) : Prop :=
  users.All fun userId user => admin.users.lookup userId = some user ∨
    userId = id ∧ user.id = id ∧
      ∃ stored, value = some (.user stored) ∧ decodeUserRecord stored = .ok user

theorem finishUserRead_loads :
    LoadsUser s.admin id value (s.finishUserRead id value evict).1.admin.users := by
  have old : LoadsUser s.admin id value s.admin.users := fun _ _ found => .inl found
  unfold finishUserRead
  dsimp only
  split
  · exact old
  · next stored =>
    split
    · exact old
    next user decoded =>
    split
    · exact old
    next named =>
    have read : user.id = id := not_not.mp named
    split
    · obtain ⟨users, loadedUsers, evicted, sub⟩ := evictUser_cases
        { s.admin with loadedUsers := insert id s.admin.loadedUsers } evict
      rw [evicted]
      exact (Table.All.sub old sub).insert (.inr ⟨rfl, read, stored, rfl, decoded⟩)
    · exact Table.All.insert old (.inr ⟨rfl, read, stored, rfl, decoded⟩)
  · exact old

theorem finishCredentialRead_eq : (s.finishCredentialRead digest value).1 =
    { s with
      admin :=
        { s.admin with
          credentials := (s.finishCredentialRead digest value).1.admin.credentials
          loadedCredentials :=
            (s.finishCredentialRead digest value).1.admin.loadedCredentials } } := by
  unfold finishCredentialRead
  repeat' split
  all_goals rfl

/-- A cached credential was cached before, or is the one that was read; none is dropped. -/
structure LoadsCredential (admin : AdminState) (digest : String) (value : Option Value)
    (credentials : Table String CredentialRecord) : Prop where
  known : credentials.All fun other record => admin.credentials.lookup other = some record ∨
    other = digest ∧ value = some (.credential record)
  kept : ∀ other, admin.credentials.lookup other ≠ none → credentials.lookup other ≠ none

theorem finishCredentialRead_loads : LoadsCredential s.admin digest value
    (s.finishCredentialRead digest value).1.admin.credentials := by
  unfold finishCredentialRead
  dsimp only
  split
  · exact ⟨fun _ _ => .inl, fun _ => id⟩
  · next record =>
    split
    · exact ⟨fun _ _ => .inl, fun _ => id⟩
    refine ⟨fun other found cached => ?_, fun other cached => ?_⟩
    · rcases Table.of_lookup_insert cached with ⟨same, rfl⟩ | ⟨_, old⟩
      · exact .inr ⟨same, rfl⟩
      · exact .inl old
    · rw [Table.lookup_insert_eq]
      split
      · simp
      · exact cached
  · exact ⟨fun _ _ => .inl, fun _ => id⟩

end Reads

theorem applyCache_sequencer (maxCachedUsers : Nat) (evict : String) (admin : AdminState)
    (mutation : AdminMutation) :
    (applyCache maxCachedUsers evict admin mutation).sequencer = admin.sequencer := by
  have users (entries : List (String × Option UserRecord)) (admin : AdminState) :
      (entries.foldl (applyUser maxCachedUsers evict) admin).sequencer = admin.sequencer := by
    induction entries generalizing admin with
    | nil => rfl
    | cons entry entries ih =>
      rw [List.foldl_cons, ih]
      obtain ⟨id, user⟩ := entry
      cases user with
      | none => rfl
      | some =>
        simp only [applyUser]
        split
        · obtain ⟨_, _, evicted, _⟩ := evictUser_cases admin evict
          rw [evicted]
        · rfl
  have credentials (entries : List (String × Option CredentialRecord)) (admin : AdminState) :
      (entries.foldl applyCredential admin).sequencer = admin.sequencer := by
    induction entries generalizing admin with
    | nil => rfl
    | cons entry entries ih =>
      rw [List.foldl_cons, ih]
      obtain ⟨digest, credential⟩ := entry
      cases credential <;> rfl
  exact (credentials _ _).trans (users _ _)

theorem foldl_applyCredential (entries : List (String × Option CredentialRecord))
    (admin : AdminState) :
    (entries.foldl applyCredential admin).users = admin.users ∧
      (entries.foldl applyCredential admin).rules = admin.rules := by
  induction entries generalizing admin with
  | nil => exact ⟨rfl, rfl⟩
  | cons entry entries ih =>
    obtain ⟨digest, credential⟩ := entry
    rw [List.foldl_cons]
    obtain ⟨users, rules⟩ := ih (applyCredential admin (digest, credential))
    rw [users, rules]
    cases credential <;> exact ⟨rfl, rfl⟩

/-- A cached user after a mutation is part of it, or was cached before and is not named by it. -/
theorem applyCache_users (maxCachedUsers : Nat) (evict : String) (admin : AdminState)
    (mutation : AdminMutation) :
    (applyCache maxCachedUsers evict admin mutation).users.All fun userId user =>
      (admin.users.lookup userId = some user ∧ ∀ record, (userId, record) ∉ mutation.users) ∨
        (userId, some user) ∈ mutation.users := by
  have first (entry : String × Option UserRecord) (admin : AdminState) :
      (applyUser maxCachedUsers evict admin entry).users.All fun userId user =>
        (admin.users.lookup userId = some user ∧ userId ≠ entry.1) ∨
          (userId, some user) = entry := by
    intro userId user found
    obtain ⟨id, record⟩ := entry
    cases record with
    | none =>
      simp only [applyUser, Table.lookup_erase_eq] at found
      split at found
      · simp at found
      · next different => exact .inl ⟨found, different⟩
    | some =>
      rcases Table.of_lookup_insert found with ⟨rfl, rfl⟩ | ⟨different, found⟩
      · exact .inr rfl
      refine .inl ⟨?_, different⟩
      split at found
      · obtain ⟨users, loadedUsers, evicted, sub⟩ := evictUser_cases admin evict
        rw [evicted] at found
        exact sub _ _ found
      · exact found
  unfold applyCache
  dsimp only
  rw [(foldl_applyCredential _ _).1]
  -- The induction is on the users of the mutation, over any cache reached so far.
  generalize mutation.users = entries
  induction entries generalizing admin with
  | nil => exact fun userId user found => .inl ⟨found, by simp⟩
  | cons entry entries ih =>
    intro userId user found
    rw [List.foldl_cons] at found
    rcases ih _ userId user found with ⟨old, unnamed⟩ | member
    · rcases first entry admin userId user old with ⟨older, different⟩ | same
      · refine .inl ⟨older, fun record member => ?_⟩
        rcases List.mem_cons.mp member with here | later
        · exact different (congrArg Prod.fst here)
        · exact unnamed record later
      · exact .inr (by simp [same])
    · exact .inr (by simp [member])

theorem disconnect_cases (s : State) (session : Option Nat) :
    ∃ sessions, s.disconnect session = { s with sessions } ∧ Table.Sub sessions s.sessions := by
  cases session with
  | none => exact ⟨_, rfl, .refl _⟩
  | some => exact ⟨_, rfl, .erase _ _⟩

theorem applyAdminMutation_eq {s : State} {mutation : AdminMutation} {utc : Nat} {evict : String} :
    s.applyAdminMutation mutation utc evict =
      { s with
        admin := applyCache s.options.maxCachedUsers evict s.admin mutation
        sessions := (s.applyAdminMutation mutation utc evict).sessions
        flows := (s.applyAdminMutation mutation utc evict).flows
        datagramFlows := (s.applyAdminMutation mutation utc evict).datagramFlows
        traffic := (s.applyAdminMutation mutation utc evict).traffic
        flowCursor := (s.applyAdminMutation mutation utc evict).flowCursor
        userDeficit := (s.applyAdminMutation mutation utc evict).userDeficit } := by
  unfold applyAdminMutation
  dsimp only
  generalize profileUsers _ _ = users
  cases mutation.disconnect <;> rfl

/-- What a mutation leaves of sessions, flows and traffic. -/
structure Applied (s : State) (mutation : AdminMutation) (utc : Nat) (t : State) : Prop where
  sessions : Table.Sub t.sessions s.sessions
  flows : Table.Sub t.flows s.flows
  datagramFlows : Table.Sub t.datagramFlows s.datagramFlows
  traffic : Table.Sub t.traffic s.traffic
  stopped : ∀ userId ∈ mutation.stoppedUsers utc, t.traffic.lookup userId = none ∧
    (t.flows.All fun _ flow => flow.userId ≠ some userId) ∧
    (t.datagramFlows.All fun _ flow => flow.userId ≠ some userId) ∧
    t.sessions.All fun _ session => session.userId ≠ some userId
  revoked : ∀ digest ∈ mutation.revokedCredentials,
    (t.flows.All fun _ flow => flow.credentialDigest ≠ some digest) ∧
    (t.datagramFlows.All fun _ flow => flow.credentialDigest ≠ some digest) ∧
    t.sessions.All fun _ session => session.credentialDigest ≠ some digest
  /-- The flows of the cached users whose rules are replaced are dropped. -/
  activated : ∀ userId user, t.admin.users.lookup userId = some user →
    user.spec.ruleProfile ∈ mutation.activeRuleProfiles →
    (t.flows.All fun _ flow => flow.userId ≠ some user.id) ∧
    t.datagramFlows.All fun _ flow => flow.userId ≠ some user.id

theorem retain_without {κ α : Type} [DecidableEq κ] (table : Table κ α)
    (label : α → Option String) {dropped : List String} {text : String} (member : text ∈ dropped) :
    (table.retain fun _ value => !(label value).any (· ∈ dropped)).All
      fun _ value => label value ≠ some text := by
  intro key value found has
  have kept := (Table.lookup_retain_eq_some.mp found).2
  simp [has, member] at kept

/-- A mutation drops everything of the users and the credentials it leaves without access. -/
theorem applyAdminMutation_applied (s : State) (mutation : AdminMutation) (utc : Nat)
    (evict : String) : Applied s mutation utc (s.applyAdminMutation mutation utc evict) := by
  have named (userId : String) (user : UserRecord)
      (found : (applyCache s.options.maxCachedUsers evict s.admin mutation).users.lookup userId =
        some user) (active : user.spec.ruleProfile ∈ mutation.activeRuleProfiles) :
      user.id ∈ profileUsers
        { s with admin := applyCache s.options.maxCachedUsers evict s.admin mutation }
        mutation.activeRuleProfiles := by
    refine List.mem_map.mpr ⟨user, List.mem_filter.mpr ⟨?_, by simpa using active⟩, rfl⟩
    exact Table.mem_values.mpr ⟨userId, found⟩
  unfold applyAdminMutation
  dsimp only
  generalize profileUsers _ _ = users at named ⊢
  obtain ⟨sessions, closed, fewer⟩ := disconnect_cases (dropFlows { s with
    admin := applyCache s.options.maxCachedUsers evict s.admin mutation } users)
    mutation.disconnect
  rw [closed]
  -- Flows are dropped by profile, then by user, then by credential.
  refine ⟨?_, ?_, ?_, .retain _ _, fun userId member => ⟨?_, ?_, ?_, ?_⟩,
    fun digest member => ⟨?_, ?_, ?_⟩, fun userId user found active => ⟨?_, ?_⟩⟩
  · refine (Table.Sub.retain _ _).trans ?_
    exact (Table.Sub.retain _ _).trans fewer
  · refine (Table.Sub.retain _ _).trans ?_
    exact (Table.Sub.retain _ _).trans (.retain _ _)
  · refine (Table.Sub.retain _ _).trans ?_
    exact (Table.Sub.retain _ _).trans (.retain _ _)
  · cases found : (stopCredentials _ _).traffic.lookup userId with
    | none => rfl
    | some =>
      have kept := (Table.lookup_retain_eq_some.mp found).2
      simp [member] at kept
  · exact (retain_without _ PolicyFlow.userId member).sub (.retain _ _)
  · exact (retain_without _ PolicyDatagramFlow.userId member).sub (.retain _ _)
  · exact (retain_without _ PolicySession.userId member).sub (.retain _ _)
  · exact retain_without _ PolicyFlow.credentialDigest member
  · exact retain_without _ PolicyDatagramFlow.credentialDigest member
  · exact retain_without _ PolicySession.credentialDigest member
  · have dropped := retain_without s.flows PolicyFlow.userId (named userId user found active)
    exact (dropped.sub (.retain _ _)).sub (.retain _ _)
  · have dropped :=
      retain_without s.datagramFlows PolicyDatagramFlow.userId (named userId user found active)
    exact (dropped.sub (.retain _ _)).sub (.retain _ _)

end State

end Snolc.Policy
