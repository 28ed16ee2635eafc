import Snolc.Policy.Calls
import Snolc.Policy.Tickets

/-! The revision an answer names, and the revision the record has once the change is applied. -/

namespace Snolc.Policy

/-- The request writes a credential record, not the record of a user. -/
def ControlRequest.ofCredential : ControlRequest → Bool
  | credentialAdd _ _ _ _ | credentialRevoke _ _ _ => true
  | _ => false

namespace State

theorem applyAdminMutation_user (s : State) {mutation : AdminMutation} {user : UserRecord}
    (only : mutation.users = [(user.id, some user)]) (utc : Nat) (evict : String) :
    (s.applyAdminMutation mutation utc evict).admin.users.lookup user.id = some user := by
  rw [applyAdminMutation_eq]
  -- An eviction makes room before the record is inserted, so it cannot remove it.
  simp [applyCache, foldl_applyCredential, only, applyUser]

theorem checkedUser_of_lookup {s : State} {userId : String} {user : UserRecord}
    (cached : s.admin.users.lookup userId = some user) :
    s.checkedUser userId user.revision = .ok user := by
  simp [checkedUser, cached]

end State

theorem Drafted.writes {s : State} {input : ControlInput} {request : ControlRequest}
    {draft : Draft} {userId : String} (drafted : Drafted s input request draft)
    (names : s.admin.users.All fun id user => user.id = id) (named : draft.userId = some userId)
    (stays : (userId, none) ∉ draft.mutation.users) (record : request.ofCredential = false) :
    ∃ user : UserRecord, user.id = userId ∧ user.revision = draft.revision ∧
      draft.mutation.users = [(user.id, some user)] := by
  cases drafted with
  | @created _ _ spec bytes =>
    refine ⟨newUser bytes spec input.utc, ?_, rfl, rfl⟩
    simpa [putUser] using named
  | @rewritten _ other old new cached rewritten =>
    -- The answer names the user of the request, which is the one the cached record names.
    have same : other = userId := by simpa using named
    refine ⟨new, ?_, rfl, rfl⟩
    rw [rewritten.next.1, names other old cached, same]
  | deleted =>
    rw [Option.some.injEq] at named
    simp [named] at stays
  | kept | granted | revoked => simp [ControlRequest.ofCredential] at record
  | disconnected | ruled => simp at named

namespace Deployment

/-- A new user. -/
def member (userId : String) : UserRecord :=
  { newUser entropy spec 10 with id := userId }

/-- An instance that has just started, with a new user and its credential in the cache. -/
def holding (userId digest : String) : State where
  started := 0
  shuttingDown := false
  maintenance := false
  globalRate := none
  userDeficit := ∅
  userCursor := 0
  options := options
  storage := .start ∅ 64
  admin :=
    { sequencer := ⟨16, ∅⟩
      users := (∅ : Table String UserRecord).insert userId (member userId)
      loadedUsers := {userId}
      credentials := (∅ : Table String CredentialRecord).insert digest ⟨digest, userId, false, 2⟩
      loadedCredentials := {digest}
      rules := ∅ }
  pendingControl := none
  clientCredential := none
  sessions := ∅
  flows := ∅
  datagramFlows := ∅
  traffic := ∅
  flowCursor := ∅
  sessionNext := 1
  flowNext := 1

theorem holding_names (userId digest : String) :
    (holding userId digest).admin.users.All fun id user => user.id = id :=
  Table.All.insert Table.All.empty rfl

theorem holding_user (userId digest : String) :
    (holding userId digest).admin.users.lookup userId = some (member userId) :=
  AList.lookup_insert _

theorem holding_credential (userId digest : String) :
    (holding userId digest).admin.credentials.lookup digest =
      some ⟨digest, userId, false, 2⟩ :=
  AList.lookup_insert _

theorem holding_unusable (userId digest : String) {mutation : AdminMutation}
    (none : mutation.users = []) (utc : Nat) (evict : String) {revision : Nat}
    (later : 1 < revision) (user : UserRecord) :
    ((holding userId digest).applyAdminMutation mutation utc evict).checkedUser userId revision ≠
      .ok user := by
  intro accepted
  obtain ⟨cached, same⟩ := State.checkedUser_ok accepted
  rw [State.applyAdminMutation_eq] at cached
  rcases State.applyCache_users _ _ _ _ _ _ cached with ⟨before, _⟩ | written
  · have found : member userId = user := by simpa [holding_user] using before
    rw [← found] at same
    exact absurd same later.ne
  · simp [none] at written

end Deployment

open Deployment

/--
Whatever the instance does before the change is applied, the revision that the answer names is
the one at which the record is then accepted, exactly for requests that write no credential.
The answer to a request encodes the revision and the user of its draft.
-/
theorem answeredRevision_usable_iff (env : Env) (request : ControlRequest) :
    (∀ (s later : State) (input : ControlInput) (draft : Draft) (userId : String) (utc : Nat)
      (evict : String), (s.admin.users.All fun id user => user.id = id) →
      s.draftMutation env input request = .ok draft → draft.userId = some userId →
      (userId, none) ∉ draft.mutation.users →
      ∃ user, (later.applyAdminMutation draft.mutation utc evict).checkedUser userId
        draft.revision = .ok user) ↔ request.ofCredential = false := by
  constructor
  · intro usable
    by_contra credential
    cases request with
    | credentialAdd clientId seq userId digest =>
      -- The answer counts the user's revision up, and the record is left as it is.
      have drafts : (holding userId digest).draftMutation env ⟨[], none, 0, ""⟩
          (.credentialAdd clientId seq userId digest) =
          .ok ⟨some userId, 2, {}, []⟩ := by
        simp [State.draftMutation, State.addCredential, State.cachedUser, holding_user,
          holding_credential, member, newUser, nextRevision, checkedAdd, u64Max, bind, Except.bind,
          pure, Except.pure]
      obtain ⟨user, accepted⟩ := usable (holding userId digest) (holding userId digest) _ _
        userId 0 "" (holding_names userId digest) drafts rfl (by simp)
      exact holding_unusable userId digest rfl 0 "" (by simp) user accepted
    | credentialRevoke clientId seq digest =>
      -- The answer counts the revision of the credential up.
      have drafts : (holding firstUser digest).draftMutation env ⟨[], none, 0, ""⟩
          (.credentialRevoke clientId seq digest) =
          .ok (putCredential digest ⟨digest, firstUser, true, 3⟩) := by
        simp [State.draftMutation, State.revokeCredential, holding_credential,
          nextRevision, checkedAdd, u64Max, bind, Except.bind, pure, Except.pure]
      obtain ⟨user, accepted⟩ := usable (holding firstUser digest) (holding firstUser digest) _ _
        firstUser 0 "" (holding_names firstUser digest) drafts rfl (by simp [putCredential])
      exact holding_unusable firstUser digest rfl 0 "" (by simp [putCredential]) user accepted
    | _ => exact credential rfl
  · intro record s later input draft userId utc evict names drafts named stays
    obtain ⟨user, rfl, revision, only⟩ :=
      (State.draftMutation_drafted drafts).writes names named stays record
    rw [← revision]
    exact ⟨user, State.checkedUser_of_lookup (later.applyAdminMutation_user only utc evict)⟩

/--
The user has just been given its credential, and the answer said that its revision is 2.
An update that expects this revision is refused.
-/
theorem answeredRevision_unusable :
    (machine (libraries [])).Run Fresh (fun history _ event => Reliable history event)
        (reached [] (setup options)).1 (reached [] (setup options)).2 ∧
      .answered (toml addCredential.lines) (.ok (tomlResponse (.mutation 2 (some firstUser)))) ∈
        (reached [] (setup options)).1 ∧
      (reached [] (setup options)).2.Holds fun s =>
        s.checkedUser firstUser 2 = .error .denied :=
  ⟨reached_run [] (setup options) (by decide +kernel), by decide +kernel⟩

end Snolc.Policy
