import Snolc.Policy.Windows

/-! A user's settings as its administrators see them: a register changed by one write at a time. -/

namespace Snolc.Policy

open List StorageWorker ControlRequest

variable {userId : String} {old new : Option Version} {env : Env} {history : List Obs}
  {request : ControlRequest} {write : PendingWrite} {revision : Nat}

/-- The settings of a user, with their revision. -/
structure Version where
  spec : UserSpec
  revision : Nat
  deriving DecidableEq, Repr

/-- The part of a record that administrators change. -/
def UserRecord.version (user : UserRecord) : Version where
  spec := user.spec
  revision := user.revision

/-- The request a write was made for. -/
def PendingWrite.asked (env : Env) (write : PendingWrite) : Option ControlRequest :=
  (ControlRequest.parse env.decodeControl write.request).toOption

def acknowledgedRequests (env : Env) (history : List Obs) : List (Option ControlRequest) :=
  history.filterMap fun
    | .acknowledged write => some (write.asked env)
    | _ => none

theorem acknowledgedRequests_split {first rest : List (Option ControlRequest)}
    {request : Option ControlRequest}
    (requests : acknowledgedRequests env history = first ++ request :: rest) :
    ∃ before write after, history = before ++ .acknowledged write :: after ∧
      write.asked env = request ∧ acknowledgedRequests env after = rest := by
  obtain ⟨before, tail, rfl, _, found⟩ := filterMap_eq_append_iff.mp requests
  obtain ⟨skipped, obs, after, rfl, _, shown, remaining⟩ := filterMap_eq_cons_iff.mp found
  cases obs with
  | acknowledged write =>
    exact ⟨before ++ skipped, write, after, by simp, Option.some.inj shown, remaining⟩
  | _ => simp at shown

theorem acknowledged_at {env : Env} {history : List Obs} (position : Nat)
    {request : ControlRequest}
    (found : (history[position]?.bind fun
      | .acknowledged write => write.asked env
      | _ => none) = some request) :
    ∃ write, history = history.take position ++ .acknowledged write :: history.drop (position + 1) ∧
      write.asked env = some request := by
  obtain ⟨obs, here, asked⟩ := Option.bind_eq_some_iff.mp found
  obtain ⟨inside, same⟩ := List.getElem?_eq_some_iff.mp here
  split at asked
  · next write =>
    refine ⟨write, ?_, asked⟩
    rw [← same, cons_getElem_drop_succ, take_append_drop]
  · simp at asked

theorem not_acknowledged (none : acknowledgedRequests env history = []) (write : PendingWrite) :
    .acknowledged write ∉ history := fun member => by
  simpa using List.filterMap_eq_nil_iff.mp none _ member

def ControlRequest.expectedRevision (userId : String) : ControlRequest → Option Nat
  | .userUpdate _ _ id revision _ => if id = userId then some revision else none
  | .userDisable _ _ id revision => if id = userId then some revision else none
  | .userDelete _ _ id revision => if id = userId then some revision else none
  | _ => none

/-- How a request changes the version of the user it names. -/
inductive Revised (userId : String) : ControlRequest → Option Version → Option Version → Prop
  | created {clientId : String} {seq : Nat} {spec : UserSpec} :
      Revised userId (.userCreate clientId seq spec) none (some ⟨spec, 1⟩)
  | rewritten {request : ControlRequest} {old new : UserRecord} :
      Rewritten request userId old new →
      Revised userId request (some old.version) (some new.version)
  | deleted {clientId : String} {seq revision : Nat} {spec : UserSpec} :
      Revised userId (.userDelete clientId seq userId revision) (some ⟨spec, revision⟩) none

/-- The version of a user: settled, or being changed by a write that is executed or not yet. -/
inductive Register
  | still (value : Option Version)
  | moving (write : PendingWrite) (old new : Option Version) (executed : Bool)
  deriving DecidableEq, Repr

namespace Register

/-- What is durable. -/
def current : Register → Option Version
  | still value => value
  | moving _ old new executed => if executed then new else old

def known : Register → Option Version
  | still value => value
  | moving _ old _ _ => old

end Register

/-- Whether an observation is a write of the user's record that was executed or acknowledged. -/
def Obs.Concerns (env : Env) (userId : String) : Obs → Prop
  | .executed command => StorageWorker.writes (.user userId) command ≠ none
  | .acknowledged write => (∃ record, (userId, record) ∈ write.mutation.users) ∨
      ∃ request, write.asked env = some request ∧ request.changedUser = some userId
  | _ => False

/-- Observations of which none concerns the user. -/
def Silent (env : Env) (userId : String) (history : List Obs) : Prop :=
  ∀ obs ∈ history, ¬ obs.Concerns env userId

@[simp] theorem silent_nil {env : Env} {userId : String} : Silent env userId [] := by
  simp [Silent]

@[simp] theorem silent_singleton {env : Env} {userId : String} {obs : Obs} :
    Silent env userId [obs] ↔ ¬ obs.Concerns env userId := by
  simp [Silent]

/-- Whether an observation is an administrative write of the user's record. -/
def Obs.Mutates (userId : String) : Obs → Prop
  | .executed (.apply changes) => StorageWorker.written (.user userId) changes ≠ none
  | .acknowledged write => ∃ record, (userId, record) ∈ write.mutation.users
  | _ => False

/-- A write that changes a user from one version to the next. -/
structure Submits (env : Env) (userId : String) (history : List Obs) (write : PendingWrite)
    (old new : Option Version) : Prop where
  names : ∃ record, write.mutation.users = [(userId, record)] ∧
    record.map UserRecord.version = new
  revised : ∃ request, write.asked env = some request ∧ Revised userId request old new
  /-- A user is created under a name that was never used. -/
  fresh : old = none → ∀ obs ∈ history, ¬ obs.Concerns env userId

theorem Submits.touches (submits : Submits env userId history write old new) :
    ∃ record, write.mutation.users = [(userId, record)] ∧
      record.map UserRecord.version = new ∧
      StorageWorker.written (.user userId) write.changes = some (storedAs record) := by
  obtain ⟨record, users, version⟩ := submits.names
  refine ⟨record, users, version, ?_⟩
  rw [write.written_user, users]
  simp [written]

/--
The runs of a register, with the history they leave.

The process may end between the execution and the acknowledgement of the writes that `may` lets
it, and the next process then finds what was executed.
-/
inductive Register.Run (env : Env) (userId : String) (may : PendingWrite → Prop) :
    List Obs → Register → Prop
  | start : Run env userId may [] (.still none)
  | note {history : List Obs} {register : Register} {obs : Obs} :
      Run env userId may history register → ¬ obs.Concerns env userId →
      Run env userId may (history ++ [obs]) register
  | put {history : List Obs} {register : Register} {user : UserRecord} :
      Run env userId may history register → register.current = some user.version →
      Run env userId may
        (history ++ [.executed (.put (.user userId) (.user (encodeUserRecord user)))]) register
  | submit {history : List Obs} {write : PendingWrite} {old new : Option Version} :
      Run env userId may history (.still old) → Submits env userId history write old new →
      Run env userId may history (.moving write old new false)
  | execute {history : List Obs} {write : PendingWrite} {old new : Option Version} :
      Run env userId may history (.moving write old new false) →
      Run env userId may (history ++ [.executed (.apply write.changes)])
        (.moving write old new true)
  | acknowledge {history : List Obs} {write : PendingWrite} {old new : Option Version} :
      Run env userId may history (.moving write old new true) →
      Run env userId may (history ++ [.acknowledged write]) (.still new)
  | lose {history : List Obs} {write : PendingWrite} {old new : Option Version} :
      Run env userId may history (.moving write old new false) →
      Run env userId may history (.still old)
  | adopt {history : List Obs} {write : PendingWrite} {old new : Option Version} :
      Run env userId may history (.moving write old new true) → may write →
      Run env userId may history (.still new)

/-- The revisions under which the user's record was stored, in order. -/
def storedRevisions (userId : String) (history : List Obs) : List Nat :=
  history.flatMap fun
    | .executed command =>
      match StorageWorker.writes (.user userId) command with
      | some (some (.user stored)) => [stored.revision]
      | _ => []
    | _ => []

/-- The revisions the acknowledged writes of the user had expected, in order. -/
def expectedRevisions (env : Env) (userId : String) (history : List Obs) : List Nat :=
  history.flatMap fun
    | .acknowledged write => ((write.asked env).bind (·.expectedRevision userId)).toList
    | _ => []

/-- A version that is durable, or will be when the write in progress is executed. -/
def Register.Ahead (version : Version) : Register → Prop
  | still value => value = some version
  | moving _ old new executed => executed = false ∧ old = some version ∨ new = some version

theorem Register.ahead_current {register : Register} {now : Version}
    (durable : register.current = some now) : register.Ahead now := by
  cases register with
  | still => exact durable
  | moving write old new executed =>
    cases executed with
    | true => exact .inr durable
    | false => exact .inl ⟨rfl, durable⟩

/-- A version that is known, or will be when the write in progress is acknowledged. -/
def Register.Knows (version : Version) : Register → Prop
  | still value => value = some version
  | moving _ old new _ => old = some version ∨ new = some version

theorem Revised.next {old new : Version} (revised : Revised userId request (some old) (some new)) :
    new.revision = old.revision + 1 := by
  cases revised with
  | rewritten rewritten => exact rewritten.next.2

theorem Revised.expected (revised : Revised userId request old new)
    (expected : request.expectedRevision userId = some revision) :
    ∃ spec, old = some ⟨spec, revision⟩ := by
  cases revised with
  | created => simp [expectedRevision] at expected
  | deleted =>
    simp only [expectedRevision, if_true, Option.some.injEq] at expected
    exact ⟨_, by rw [expected]⟩
  | @rewritten _ old _ rewritten =>
    cases rewritten with
    | update | disable =>
      simp only [expectedRevision, if_true, Option.some.injEq] at expected
      exact ⟨old.spec, by rw [← expected]; rfl⟩
    | add | period => simp [expectedRevision] at expected

theorem ControlRequest.changedUser_of_expected
    (expected : request.expectedRevision userId = some revision) :
    request.changedUser = some userId := by
  cases request <;> simp_all [expectedRevision, changedUser]

theorem storedRevisions_eq_nil (silent : Silent env userId history) :
    storedRevisions userId history = [] := by
  rw [storedRevisions, flatMap_eq_nil_iff]
  intro obs member
  have unconcerned := silent obs member
  cases obs with
  | executed =>
    simp only [Obs.Concerns, ne_eq, not_not] at unconcerned
    simp [unconcerned]
  | _ => rfl

theorem expectedRevisions_eq_nil (silent : Silent env userId history) :
    expectedRevisions env userId history = [] := by
  rw [expectedRevisions, flatMap_eq_nil_iff]
  intro obs member
  have unconcerned := silent obs member
  cases obs with
  | acknowledged =>
    simp only [Option.toList_eq_nil_iff, Option.bind_eq_none_iff]
    intro request asked
    by_contra expects
    obtain ⟨revision, expected⟩ := Option.ne_none_iff_exists'.mp expects
    exact unconcerned (.inr ⟨request, asked, request.changedUser_of_expected expected⟩)
  | _ => rfl

theorem storedRevisions_append (userId : String) (first second : List Obs) :
    storedRevisions userId (first ++ second) =
      storedRevisions userId first ++ storedRevisions userId second :=
  flatMap_append

theorem expectedRevisions_append (env : Env) (userId : String) (first second : List Obs) :
    expectedRevisions env userId (first ++ second) =
      expectedRevisions env userId first ++ expectedRevisions env userId second :=
  flatMap_append

variable {before after : List Obs}

namespace Register.Run

variable {env : Env} {userId : String} {may : PendingWrite → Prop} {history : List Obs}
  {register : Register}

theorem submitted {write : PendingWrite} {old new : Option Version} {executed : Bool}
    (run : Run env userId may history (.moving write old new executed)) :
    ∃ before, before <+: history ∧ Submits env userId before write old new := by
  generalize reached : Register.moving write old new executed = register at run
  induction run generalizing executed with
  | start | acknowledge | lose | adopt => cases reached
  | note _ _ ih | put _ _ ih =>
    obtain ⟨before, inside, submits⟩ := ih reached
    exact ⟨before, inside.trans (prefix_append _ _), submits⟩
  | submit _ submits =>
    cases reached
    exact ⟨_, prefix_refl _, submits⟩
  | execute _ ih =>
    cases reached
    obtain ⟨before, inside, submits⟩ := @ih false rfl
    exact ⟨before, inside.trans (prefix_append _ _), submits⟩

variable (run : Run env userId may history register)
include run

theorem current_le {now ahead : Version}
    (durable : register.current = some now) (next : register.Ahead ahead) :
    now.revision ≤ ahead.revision := by
  cases register with
  | still =>
    cases (durable.symm.trans next : some now = some ahead)
    exact le_rfl
  | moving write old new executed =>
    cases executed with
    | true =>
      rcases next with ⟨⟨⟩, _⟩ | next
      cases (durable.symm.trans next : some now = some ahead)
      exact le_rfl
    | false =>
      have old : old = some now := durable
      rcases next with ⟨_, next⟩ | next
      · cases old.symm.trans next
        exact le_rfl
      · obtain ⟨_, _, submits⟩ := run.submitted
        obtain ⟨request, _, revised⟩ := submits.revised
        rw [old, next] at revised
        rw [revised.next]
        exact Nat.le_succ _

theorem none_of_silent (silent : Silent env userId history) :
    register.current = none ∧ register.known = none := by
  induction run with
  | start => exact ⟨rfl, rfl⟩
  | note run unconcerned ih => exact ih fun obs member => silent obs (by simp [member])
  | @put history register user =>
    refine absurd ?_ (silent (.executed (.put (.user userId) (.user (encodeUserRecord user))))
      (by simp))
    simp [Obs.Concerns, writes]
  | submit run submits ih => exact ih silent
  | @execute history write old new run =>
    obtain ⟨_, _, submits⟩ := run.submitted
    obtain ⟨record, _, _, touches⟩ := submits.touches
    refine absurd ?_ (silent (.executed (.apply write.changes)) (by simp))
    simp [Obs.Concerns, writes, touches]
  | @acknowledge history write old new run =>
    obtain ⟨_, _, submits⟩ := run.submitted
    obtain ⟨record, users, _⟩ := submits.names
    exact absurd (.inl ⟨record, by simp [users]⟩) (silent (.acknowledged write) (by simp))
  | lose run ih =>
    have both := ih silent
    exact ⟨both.2, both.2⟩
  | adopt run _ ih =>
    have both := ih silent
    exact ⟨both.1, both.1⟩

/-- A record is never stored under an earlier revision. -/
theorem storedRevisions_sorted : (storedRevisions userId history).Pairwise (· ≤ ·) ∧
      ∀ version, register.Ahead version → ∀ revision ∈ storedRevisions userId history,
        revision ≤ version.revision := by
  -- What is durable, or will be, bounds everything stored so far.
  induction run with
  | start => exact ⟨.nil, by simp [storedRevisions]⟩
  | @note history register obs run unconcerned =>
    have silent : storedRevisions userId [obs] = [] :=
      storedRevisions_eq_nil (by simpa using unconcerned)
    rwa [storedRevisions_append, silent, append_nil]
  | @put history register user run durable ih =>
    have stored : storedRevisions userId
        [.executed (.put (.user userId) (.user (encodeUserRecord user)))] = [user.revision] := by
      simp [storedRevisions, writes, encodeUserRecord]
    rw [storedRevisions_append, stored]
    refine ⟨pairwise_append.mpr ⟨ih.1, by simp,
      by simpa [UserRecord.version] using ih.2 user.version (Register.ahead_current durable)⟩, ?_⟩
    intro version ahead revision member
    rcases mem_append.mp member with before | last
    · exact ih.2 version ahead revision before
    · rw [mem_singleton.mp last]
      exact run.current_le durable ahead
  | @submit history write old new run submits ih =>
    refine ⟨ih.1, fun version ahead revision member => ?_⟩
    rcases ahead with ⟨_, ahead⟩ | ahead
    · exact ih.2 version ahead revision member
    obtain ⟨request, _, revised⟩ := submits.revised
    cases old with
    | none =>
      rw [storedRevisions_eq_nil (submits.fresh rfl)] at member
      simp at member
    | some old =>
      rw [ahead] at revised
      rw [revised.next]
      exact Nat.le_succ_of_le (ih.2 old rfl revision member)
  | @execute history write old new run ih =>
    obtain ⟨_, _, submits⟩ := run.submitted
    obtain ⟨record, _, version, touches⟩ := submits.touches
    replace touches : writes (.user userId) (.apply write.changes) =
        some (storedAs record) := touches
    rw [storedRevisions_append]
    cases record with
    | none =>
      have stored : storedRevisions userId [.executed (.apply write.changes)] = [] := by
        simp [storedRevisions, touches, storedAs]
      rw [stored, append_nil]
      refine ⟨ih.1, ?_⟩
      rintro version (⟨⟨⟩, _⟩ | ahead)
      exact ih.2 version (.inr ahead)
    | some user =>
      have stored : storedRevisions userId [.executed (.apply write.changes)] =
          [user.revision] := by
        simp [storedRevisions, touches, storedAs, encodeUserRecord]
      rw [stored]
      refine ⟨pairwise_append.mpr ⟨ih.1, by simp,
        by simpa [UserRecord.version] using ih.2 user.version (.inr version.symm)⟩, ?_⟩
      rintro other (⟨⟨⟩, _⟩ | ahead) revision member
      rcases mem_append.mp member with before | last
      · exact ih.2 other (.inr ahead) revision before
      cases mem_singleton.mp last
      cases version.trans ahead
      exact le_rfl
  | @acknowledge history write old new run ih =>
    have silent : storedRevisions userId [.acknowledged write] = [] := rfl
    rw [storedRevisions_append, silent, append_nil]
    exact ⟨ih.1, fun version ahead => ih.2 version (.inr ahead)⟩
  | lose run ih => exact ⟨ih.1, fun version ahead => ih.2 version (.inl ⟨rfl, ahead⟩)⟩
  | adopt run _ ih => exact ⟨ih.1, fun version ahead => ih.2 version (.inr ahead)⟩

/-- Acknowledged writes have expected later and later revisions. -/
theorem expectedRevisions_sorted : (expectedRevisions env userId history).Pairwise (· < ·) ∧
      ∀ version, register.Knows version → ∀ revision ∈ expectedRevisions env userId history,
        revision < version.revision := by
  -- What is known, or will be, is later than everything that was expected.
  induction run with
  | start => exact ⟨.nil, by simp [expectedRevisions]⟩
  | @note history register obs run unconcerned =>
    have silent : expectedRevisions env userId [obs] = [] :=
      expectedRevisions_eq_nil (by simpa using unconcerned)
    rwa [expectedRevisions_append, silent, append_nil]
  | @put history _ _ _ _ ih | @execute history _ _ _ _ ih =>
    rw [expectedRevisions_append]
    exact (append_nil (expectedRevisions env userId history)).symm ▸ ih
  | @submit history write old new run submits ih =>
    refine ⟨ih.1, fun version knows revision member => ?_⟩
    rcases knows with knows | knows
    · exact ih.2 version knows revision member
    obtain ⟨request, _, revised⟩ := submits.revised
    cases old with
    | none =>
      rw [expectedRevisions_eq_nil (submits.fresh rfl)] at member
      simp at member
    | some old =>
      rw [knows] at revised
      rw [revised.next]
      exact Nat.lt_succ_of_lt (ih.2 old rfl revision member)
  | @acknowledge history write old new run ih =>
    obtain ⟨_, _, submits⟩ := run.submitted
    obtain ⟨request, asked, revised⟩ := submits.revised
    rw [expectedRevisions_append]
    cases expects : request.expectedRevision userId with
    | none =>
      have silent : expectedRevisions env userId [.acknowledged write] = [] := by
        simp [expectedRevisions, asked, expects]
      rw [silent, append_nil]
      exact ⟨ih.1, fun version knows => ih.2 version (.inr knows)⟩
    | some expected =>
      obtain ⟨spec, rfl⟩ := revised.expected expects
      have last : expectedRevisions env userId [.acknowledged write] = [expected] := by
        simp [expectedRevisions, asked, expects]
      rw [last]
      refine ⟨pairwise_append.mpr ⟨ih.1, by simp,
        by simpa using ih.2 ⟨spec, expected⟩ (.inl rfl)⟩, ?_⟩
      intro version knows revision member
      rcases mem_append.mp member with before | last
      · exact ih.2 version (.inr knows) revision before
      have knows : new = some version := knows
      rw [knows] at revised
      rw [mem_singleton.mp last, revised.next]
      exact Nat.lt_succ_self _
  | lose run ih => exact ⟨ih.1, fun version knows => ih.2 version (.inl knows)⟩
  | adopt run _ ih => exact ⟨ih.1, fun version knows => ih.2 version (.inr knows)⟩

/-- Until the next write of the user, the last acknowledged one is what is durable and known. -/
theorem last_acknowledged
    {record : Option UserRecord} (split : history = before ++ .acknowledged write :: after)
    (named : (userId, record) ∈ write.mutation.users)
    (quiet : ∀ obs ∈ after, ¬ obs.Mutates userId) :
    register.current = record.map UserRecord.version ∧
      register.known = record.map UserRecord.version := by
  induction run generalizing after with
  | start => simp at split
  | @note history register obs run unconcerned ih =>
    rcases snoc_eq_append_cons split with ⟨rfl, rfl, rfl⟩ | ⟨rest, rfl, shorter⟩
    · exact absurd (.inl ⟨record, named⟩) unconcerned
    · exact ih shorter fun other member => quiet other (by simp [member])
  | put run durable ih =>
    rcases snoc_eq_append_cons split with ⟨_, ⟨⟩, _⟩ | ⟨rest, rfl, shorter⟩
    exact ih shorter fun other member => quiet other (by simp [member])
  | submit run submits ih => exact ih split quiet
  | @execute history other old new run =>
    rcases snoc_eq_append_cons split with ⟨_, ⟨⟩, _⟩ | ⟨rest, rfl, shorter⟩
    obtain ⟨_, _, submits⟩ := run.submitted
    obtain ⟨mine, _, _, touches⟩ := submits.touches
    refine absurd ?_ (quiet (.executed (.apply other.changes)) (by simp))
    simp [Obs.Mutates, touches]
  | @acknowledge history other old new run =>
    obtain ⟨_, _, submits⟩ := run.submitted
    obtain ⟨mine, users, version⟩ := submits.names
    rcases snoc_eq_append_cons split with ⟨_, ⟨⟩, _⟩ | ⟨rest, rfl, shorter⟩
    · rw [users, mem_singleton, Prod.mk.injEq] at named
      rw [named.2]
      exact ⟨version.symm, version.symm⟩
    · exact absurd ⟨mine, by simp [users]⟩ (quiet (.acknowledged other) (by simp))
  | lose run ih =>
    have both := ih split quiet
    exact ⟨both.2, both.2⟩
  | adopt run _ ih =>
    have both := ih split quiet
    exact ⟨both.1, both.1⟩

end Register.Run

section Closed

variable {env : Env} {userId : String} {may : PendingWrite → Prop} {history : List Obs}
  {register : Register}

/-- The write was asked for to keep the user out. -/
def PendingWrite.Bars (env : Env) (userId : String) (write : PendingWrite) : Prop :=
  ∃ clientId seq revision, write.asked env = some (.userDisable clientId seq userId revision) ∨
    write.asked env = some (.userDelete clientId seq userId revision)

/-- The write was asked for to let the user in. -/
def PendingWrite.Enables (env : Env) (userId : String) (write : PendingWrite) : Prop :=
  ∃ clientId seq revision spec,
    write.asked env = some (.userUpdate clientId seq userId revision spec) ∧
    spec.status = .enabled

/-- There is no user, or one that is kept out. -/
def Closed (value : Option Version) : Prop :=
  ∀ version, value = some version → version.spec.status = .disabled

theorem Revised.closed {request : ControlRequest} {old new : Option Version}
    (revised : Revised userId request old new) (closed : Closed old)
    (created : old ≠ none)
    (unenabled : ∀ clientId seq revision spec,
      request = .userUpdate clientId seq userId revision spec → spec.status ≠ .enabled) :
    Closed new := by
  rintro version rfl
  cases revised with
  | created => exact absurd rfl created
  | @rewritten _ old new rewritten =>
    have before := closed old.version rfl
    cases rewritten with
    | @update _ _ _ spec =>
      have different := unenabled _ _ _ _ rfl
      cases status : spec.status with
      | enabled => exact absurd status different
      | disabled => exact status
    | disable => rfl
    | add | period => exact before

theorem Revised.barred (revised : Revised userId request old new)
    (bars : ∃ clientId seq revision, request = .userDisable clientId seq userId revision ∨
      request = .userDelete clientId seq userId revision) : Closed new := by
  rintro version rfl
  obtain ⟨clientId, seq, revision, rfl | rfl⟩ := bars
  · cases revised with
    | rewritten rewritten => cases rewritten; rfl
  · cases revised with
    | rewritten rewritten => cases rewritten

theorem PendingWrite.Bars.concerns (bars : write.Bars env userId) :
    (Obs.acknowledged write).Concerns env userId := by
  obtain ⟨clientId, seq, revision, asked | asked⟩ := bars
  · exact .inr ⟨_, asked, rfl⟩
  · exact .inr ⟨_, asked, rfl⟩

/-- A user that was kept out stays out until a write lets it in. -/
theorem Register.Run.closed (run : Register.Run env userId may history register)
    (cautious : ∀ write, may write → ¬ write.Enables env userId)
    {barring : PendingWrite} (split : history = before ++ .acknowledged barring :: after)
    (bars : barring.Bars env userId)
    (unenabled : ∀ write, .acknowledged write ∈ after → ¬ write.Enables env userId) :
    Closed register.known ∧ ∀ write old new executed,
      register = .moving write old new executed → ¬ write.Enables env userId → Closed new := by
  induction run generalizing after with
  | start => simp at split
  | @note history register obs run unconcerned ih =>
    rcases snoc_eq_append_cons split with ⟨rfl, rfl, rfl⟩ | ⟨rest, rfl, shorter⟩
    · exact absurd bars.concerns unconcerned
    · exact ih shorter fun other member => unenabled other (by simp [member])
  | put run durable ih =>
    rcases snoc_eq_append_cons split with ⟨_, ⟨⟩, _⟩ | ⟨rest, rfl, shorter⟩
    exact ih shorter fun other member => unenabled other (by simp [member])
  | @submit history write old new run submits ih =>
    obtain ⟨known, _⟩ := ih split unenabled
    refine ⟨known, ?_⟩
    rintro _ _ _ _ ⟨⟩ disabling
    obtain ⟨request, asked, revised⟩ := submits.revised
    refine revised.closed known (fun created => ?_) ?_
    · exact submits.fresh created (.acknowledged barring) (by simp [split]) bars.concerns
    · rintro clientId seq revision spec rfl enabled
      exact disabling ⟨clientId, seq, revision, spec, asked, enabled⟩
  | execute run ih =>
    rcases snoc_eq_append_cons split with ⟨_, ⟨⟩, _⟩ | ⟨rest, rfl, shorter⟩
    obtain ⟨known, ahead⟩ := ih shorter fun other member => unenabled other (by simp [member])
    refine ⟨known, ?_⟩
    rintro _ _ _ _ ⟨⟩ disabling
    exact ahead _ _ _ _ rfl disabling
  | @acknowledge history write old new run ih =>
    refine ⟨?_, by simp⟩
    rcases snoc_eq_append_cons split with ⟨_, ⟨⟩, _⟩ | ⟨rest, rfl, shorter⟩
    · obtain ⟨_, _, submits⟩ := run.submitted
      obtain ⟨request, asked, revised⟩ := submits.revised
      obtain ⟨clientId, seq, revision, bars⟩ := bars
      refine revised.barred ⟨clientId, seq, revision, ?_⟩
      simpa only [asked, Option.some.injEq] using bars
    · exact (ih shorter fun other member => unenabled other (by simp [member])).2 _ _ _ _ rfl
        (unenabled write (by simp))
  | lose run ih => exact ⟨(ih split unenabled).1, by simp⟩
  | adopt run allowed ih =>
    exact ⟨(ih split unenabled).2 _ _ _ _ rfl (cautious _ allowed), by simp⟩

/-- A user that was deleted stays deleted. -/
theorem Register.Run.deleted (run : Register.Run env userId may history register)
    {deleting : PendingWrite} {clientId : String} {seq : Nat}
    (split : history = before ++ .acknowledged deleting :: after)
    (deletes : deleting.asked env = some (.userDelete clientId seq userId revision)) :
    register = .still none := by
  have concerned : (Obs.acknowledged deleting).Concerns env userId := .inr ⟨_, deletes, rfl⟩
  induction run generalizing after with
  | start => simp at split
  | @note history register obs run unconcerned ih =>
    rcases snoc_eq_append_cons split with ⟨rfl, rfl, rfl⟩ | ⟨rest, rfl, shorter⟩
    · exact absurd concerned unconcerned
    · exact ih shorter
  | put run durable ih =>
    rcases snoc_eq_append_cons split with ⟨_, ⟨⟩, _⟩ | ⟨rest, rfl, shorter⟩
    exact ih shorter
  | submit run submits ih =>
    have gone := ih split
    rw [Register.still.injEq] at gone
    exact absurd concerned (submits.fresh gone (.acknowledged deleting) (by simp [split]))
  | execute run ih =>
    rcases snoc_eq_append_cons split with ⟨_, ⟨⟩, _⟩ | ⟨rest, rfl, shorter⟩
    simpa using ih shorter
  | acknowledge run ih =>
    rcases snoc_eq_append_cons split with ⟨_, ⟨⟩, _⟩ | ⟨rest, rfl, shorter⟩
    · obtain ⟨_, _, submits⟩ := run.submitted
      obtain ⟨request, asked, revised⟩ := submits.revised
      rw [deletes, Option.some.injEq] at asked
      subst asked
      cases revised with
      | deleted => rfl
      | rewritten rewritten => cases rewritten
    · simpa using ih shorter
  | lose _ ih | adopt _ _ ih => simpa using ih split

end Closed

end Snolc.Policy
