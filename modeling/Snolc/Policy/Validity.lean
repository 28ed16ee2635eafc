import Snolc.Policy.Calls
import Snolc.Policy.Settings
import Snolc.Policy.Windows

/-! Settings that are stored and cached pass the check that requests for users have to pass. -/

namespace Snolc.Policy

variable {spec : UserSpec} {decode : Bytes → Option ControlRequest} {input : Bytes}

/-- Settings that pass the check. -/
def UserSpec.Valid (spec : UserSpec) : Prop :=
  spec.validate = .ok ()

theorem UserSpec.valid_iff (spec : UserSpec) :
    spec.Valid ↔ ¬ (spec.weight = 0 ∨ spec.burstBytes < 65507 ∨ spec.group.isEmpty ∨
      spec.group.utf8ByteSize > 64 ∨ spec.ruleProfile.isEmpty ∨
      spec.ruleProfile.utf8ByteSize > 64 ∨ spec.quota = .limited 0 ∨
      spec.uploadRate = .limited 0 ∨ spec.downloadRate = .limited 0 ∨
      spec.combinedRate = .limited 0 ∨ spec.maxSessions = .limited 0 ∨
      spec.maxFlows = .limited 0 ∨ !spec.weeklyAccess.valid) := by
  unfold UserSpec.Valid UserSpec.validate
  split
  · next refused => exact ⟨fun checked => by simp at checked, fun passed => absurd refused passed⟩
  · next passed => exact ⟨fun _ => passed, fun _ => rfl⟩

theorem UserSpec.Valid.disable (valid : spec.Valid) :
    UserSpec.Valid { spec with status := .disabled } := by
  rw [UserSpec.valid_iff] at valid ⊢
  exact valid

theorem UserSpec.Valid.requota (valid : spec.Valid) {quota : ByteLimit}
    (some : quota ≠ .limited 0) : UserSpec.Valid { spec with quota } := by
  rw [UserSpec.valid_iff] at valid ⊢
  simp only [not_or] at valid ⊢
  exact ⟨valid.1, valid.2.1, valid.2.2.1, valid.2.2.2.1, valid.2.2.2.2.1, valid.2.2.2.2.2.1,
    some, valid.2.2.2.2.2.2.2⟩

namespace ControlRequest

theorem parse_validateBody {request : ControlRequest} (parsed : parse decode input = .ok request) :
    request.validateBody = .ok () := by
  -- Decoding comes first, then the checks of the sequence number, then those of the body.
  unfold parse at parsed
  cases decoded : decode input with
  | none => simp [decoded] at parsed
  | some candidate =>
    simp only [decoded] at parsed
    obtain ⟨_, checked, same⟩ := bind_ok parsed
    simp only [Pure.pure, Except.pure, Except.ok.injEq] at same
    subst same
    unfold validate at checked
    cases sequenced : candidate.sequence with
    | none => simpa [sequenced] using checked
    | some =>
      simp only [sequenced] at checked
      obtain ⟨_, _, numbered⟩ := bind_ok checked
      split at numbered
      · simp [throw, throwThe, MonadExceptOf.throw, Bind.bind, Except.bind] at numbered
      · exact numbered

theorem parse_userCreate {clientId : String} {seq : Nat}
    (parsed : parse decode input = .ok (.userCreate clientId seq spec)) : spec.Valid :=
  parse_validateBody parsed

theorem parse_rewritten {request : ControlRequest} {userId : String} {old new : UserRecord}
    (parsed : parse decode input = .ok request)
    (some : ∀ clientId seq, request ≠ .quotaNewPeriod clientId seq userId (.limited 0))
    (rewritten : Rewritten request userId old new) (valid : old.spec.Valid) : new.spec.Valid := by
  have body := parse_validateBody parsed
  cases rewritten with
  | update =>
    -- The whole settings come from the request, which checks them before the name of the user.
    obtain ⟨_, checked, _⟩ := bind_ok body
    exact checked
  | disable => exact valid.disable
  | @add clientId _ seq bytes limit total _ limited sum =>
    refine valid.requota fun nothing => ?_
    rw [ByteLimit.limited.injEq, checkedAdd_eq_some sum] at nothing
    -- A limit that passed the check is not nothing, and neither is what is added to it.
    refine ((UserSpec.valid_iff _).mp valid) ?_
    have zero : limit = 0 := by omega
    simp [limited, zero]
  | @period clientId _ seq =>
    refine valid.requota fun nothing => some clientId seq ?_
    rw [nothing]

end ControlRequest

section Asks

variable {env : Env} {holds : UserSpec → Prop} {userId : String} {s t : State}

/-- What the requests of an event make of settings with a property has it again. -/
def Event.Keeps (env : Env) (holds : UserSpec → Prop) (userId : String) (event : Event) : Prop :=
  ∀ input request, event = .control input →
    ControlRequest.parse env.decodeControl input.request = .ok request →
    (∀ clientId seq spec, request = .userCreate clientId seq spec → holds spec) ∧
      ∀ old new, Rewritten request userId old new → holds old.spec → holds new.spec

theorem SpecHolds.asks (ok : SpecHolds holds userId s) : s.Asks holds userId := by
  intro write pending user member
  have control := ok.ledger.control
  rw [pending] at control
  exact control _ member rfl user rfl

theorem Loud.asks {event : Event} (change : Loud env event s t) (tickets : Tickets env s)
    (ok : SpecHolds holds userId s) (keeps : event.Keeps env holds userId) :
    t.Asks holds userId := by
  intro write pending user member
  cases change with
  | debited | refunding => exact ok.asks write pending user member
  | askedUser => simp at pending
  | @submitted input request clientId seq draft response receipt called idle parsed sequenced
      loaded checked drafts encoded stamped =>
    simp only [Option.some.injEq, PendingControl.write.injEq] at pending
    subst pending
    obtain ⟨creates, rewrites⟩ := keeps input request called parsed
    -- Only two kinds of drafts write a record.
    cases State.draftMutation_drafted drafts with
    | created =>
      simp only [putUser, newUser, List.mem_singleton, Prod.mk.injEq, Option.some.injEq] at member
      rw [member.2]
      exact creates _ _ _ rfl
    | @rewritten _ other old new cached rewritten =>
      simp only [putUser, List.mem_singleton, Prod.mk.injEq, Option.some.injEq] at member
      -- Records are cached under their own names, so the rewritten one is the user's.
      have same : other = userId := by
        rw [member.1, rewritten.next.1]
        exact (tickets.users other old cached).symm
      subst same
      rw [member.2]
      exact rewrites old new rewritten (ok.cached old cached)
    | deleted | kept | disconnected | ruled => simp at member
    | granted | revoked => simp [putCredential] at member

theorem Move.asks {event : Event} {obs : List Obs} (move : Move env s event obs t)
    (tickets : Tickets env s) (ok : SpecHolds holds userId s)
    (keeps : event.Keeps env holds userId) : t.Asks holds userId := by
  -- A write that goes on asks for what it asked for; only a control call starts one.
  have goesOn {state : State} (fewer : Fewer userId s state) : state.Asks holds userId :=
    fun write pending => ok.asks write (fewer.write write pending)
  cases move with
  | finished => exact ok.asks
  | pumped => exact ok.asks
  | quiet path => exact goesOn path.fewer
  | loud path loud => exact loud.asks (path.tickets tickets) (path.specHolds ok) keeps
  | begun _ begun => cases begun <;> exact ok.asks
  | login _ login path => exact goesOn (login.fewer.trans path.fewer)
  | host host => cases host <;> exact ok.asks

/-- A property that requests keep holds of all settings of the user along every run. -/
theorem run_keeps {guard : List Obs → World → Event → Prop}
    (keeps : ∀ history world event, guard history world event → event.Keeps env holds userId)
    {history : List Obs} {world : World} (run : (machine env).Run Fresh guard history world) :
    StoredSpec holds userId world.store ∧ world.Holds (SpecHolds holds userId) := by
  have both : world.SpecHolds holds userId ∧ world.Holds (State.Asks holds userId) := by
    refine machine_invariant
      (fun _ world => world.SpecHolds holds userId ∧ world.Holds (State.Asks holds userId))
      ⟨World.specHolds_empty, trivial⟩ ?_ run
    rintro history world event obs next before ⟨ok, asks⟩ admitted advance
    have tickets := run_tickets before
    refine ⟨advance.specHolds tickets asks ok, ?_⟩
    cases advance with
    | idle => exact asks
    | started started =>
      intro write pending
      rw [(initializeInstance_started started).control] at pending
      simp at pending
    | moved move => exact move.asks tickets (ok.2 asks) (keeps _ _ _ admitted)
    | stopped | crashed => trivial
  refine ⟨both.1.1, ?_⟩
  cases world with
  | down => trivial
  | up => exact both.1.2 both.2

end Asks

/--
Every user record in the store and in the cache has settings that pass the check.
No request starts an accounting period with a quota of nothing.
-/
theorem specs_valid {env : Env} {history : List Obs} {world : World}
    (run : (machine env).Run Fresh (fun _ _ event => ∀ input clientId seq userId,
      event = .control input → ControlRequest.parse env.decodeControl input.request ≠
        .ok (.quotaNewPeriod clientId seq userId (.limited 0))) history world) :
    (∀ userId value, world.store.lookup (.user userId) = some value →
      ∃ user, value = .user (encodeUserRecord user) ∧ user.spec.validate = .ok ()) ∧
    world.Holds fun s => ∀ userId user, s.admin.users.lookup userId = some user →
      user.spec.validate = .ok () := by
  -- The property is kept by every kind of request, one user at a time.
  have all (userId : String) : StoredSpec UserSpec.Valid userId world.store ∧
      world.Holds (SpecHolds UserSpec.Valid userId) := by
    refine run_keeps (fun _ _ event admitted input request called parsed => ⟨?_, ?_⟩) run
    · rintro clientId seq spec rfl
      exact ControlRequest.parse_userCreate parsed
    · intro old new rewritten valid
      refine ControlRequest.parse_rewritten parsed (fun clientId seq same => ?_) rewritten valid
      exact admitted input clientId seq userId called (same ▸ parsed)
  refine ⟨fun userId value found => ?_, ?_⟩
  · obtain ⟨record, stored, valid⟩ := (all userId).1
    rw [found] at stored
    cases record with
    | none => simp [storedAs] at stored
    | some user =>
      rw [storedAs, Option.map_some, Option.some.injEq] at stored
      exact ⟨user, stored, valid user rfl⟩
  · cases world with
    | down => trivial
    | up => exact fun userId user found => (all userId).2.cached user found

open Deployment

instance (env : Env) (event : Event) : Decidable (∀ input clientId seq userId,
    event = .control input → ControlRequest.parse env.decodeControl input.request ≠
      .ok (.quotaNewPeriod clientId seq userId (.limited 0))) :=
  decidable_of_iff
    ((match event with
      | .control input =>
        match ControlRequest.parse env.decodeControl input.request with
        | .ok (.quotaNewPeriod _ _ _ quota) => decide (quota ≠ .limited 0)
        | _ => true
      | _ => true) = true) <| by
    cases event with
    | control input =>
      simp only [Event.control.injEq]
      constructor
      · rintro checked _ clientId seq userId rfl parsed
        simp [parsed] at checked
      · intro refused
        split
        · rename_i quota parsed
          have some : quota ≠ .limited 0 := by
            rintro rfl
            exact refused _ _ _ _ rfl parsed
          simpa using some
        · rfl
    | _ => simp

/-- The settings of a new user are valid, and stay so when its quota grows. -/
theorem specs_valid_addQuota :
    ((reached [addQuota] (setup options ++ addQuota.issue)).2.store.lookup
        (.user firstUser)).isSome = true ∧
      ∀ userId value, (reached [addQuota] (setup options ++ addQuota.issue)).2.store.lookup
          (.user userId) = some value →
        ∃ user, value = .user (encodeUserRecord user) ∧ user.spec.validate = .ok () :=
  ⟨by decide +kernel,
    (specs_valid (reached_run [addQuota] (setup options ++ addQuota.issue)
      (by decide +kernel))).1⟩

/-- The request that starts a period with a quota of nothing. -/
def emptyPeriod : Sample where
  lines :=
    ["method = \"quota.new_period\"", "client_id = \"panel\"", "seq = 3",
      "user_id = \"000102030405060708090a0b0c0d0e0f\"", "[quota]", "mode = \"limited\"",
      "bytes = 0"]
  digest := 0x6d8d8b32e7050eb9ae1596e51bb76ef1aee86b06fc4665ab7c5c8a25e5b998c6
  request := .quotaNewPeriod "panel" 3 firstUser (.limited 0)

/-- A new period is not checked, so settings that no request for a user may have are stored. -/
theorem specs_invalid :
    (machine (libraries [emptyPeriod])).Run Fresh
        (fun history _ event => Reliable history event)
        (reached [emptyPeriod] (setup options ++ emptyPeriod.issue)).1
        (reached [emptyPeriod] (setup options ++ emptyPeriod.issue)).2 ∧
      ∃ user, (reached [emptyPeriod] (setup options ++ emptyPeriod.issue)).2.store.lookup
          (.user firstUser) = some (.user (encodeUserRecord user)) ∧
        user.spec.validate = .error .invalid := by
  refine ⟨reached_run [emptyPeriod] (setup options ++ emptyPeriod.issue) (by decide +kernel),
    { id := firstUser
      spec := { spec with quota := .limited 0 }
      revision := 2
      durableChargedBytes := 0
      uploadBytes := 0
      downloadBytes := 0
      maxObservedUtc := 10 }, by decide +kernel⟩

end Snolc.Policy
