import Snolc.Policy.Calls
import Snolc.Policy.Coherence
import Snolc.Policy.Register

/-! Replaced rules decide until the process ends. -/

namespace Snolc.Policy

open StorageWorker

def ControlRequest.replaces (profile : String) : ControlRequest → Option String
  | rulesReplace _ _ other _ rulesToml => if other = profile then some rulesToml else none
  | _ => none

variable (env : Env)

/-- The rules of a profile that were acknowledged last, in any process. -/
def replacedRules (profile : String) (history : List Obs) : Option String :=
  (history.filterMap fun
    | .acknowledged write => (write.asked env).bind (·.replaces profile)
    | _ => none).getLast?

theorem replacedRules_append (profile : String) (history obs : List Obs) :
    replacedRules env profile (history ++ obs) =
      (replacedRules env profile obs).or (replacedRules env profile history) := by
  rw [replacedRules, List.filterMap_append, List.getLast?_append]
  rfl

variable {obs history : List Obs} {profile : String}

theorem replacedRules_eq_none {env : Env}
    (silent : ∀ write, .acknowledged write ∉ obs) : replacedRules env profile obs = none := by
  rw [replacedRules, List.getLast?_eq_none_iff, List.filterMap_eq_nil_iff]
  intro o member
  split
  · next write => exact absurd member (silent write)
  · rfl

theorem replacedRules_acknowledged (profile : String) (write : PendingWrite) :
    replacedRules env profile [.acknowledged write] =
      (write.asked env).bind (·.replaces profile) := by
  cases found : (write.asked env).bind (·.replaces profile) <;> simp [replacedRules, found]

theorem Drafted.rules {s : State} {input : ControlInput} {request : ControlRequest}
    {draft : Draft} (drafted : Drafted s input request draft) (profile : String) :
    written (.rules profile) draft.mutation.changes =
      (request.replaces profile).map (some ∘ Value.rules) := by
  rw [draft.mutation.written_rules]
  cases drafted with
  | @ruled _ other =>
    by_cases same : other = profile <;> simp [written, ControlRequest.replaces, same]
  | rewritten _ rewritten =>
    cases rewritten <;> simp [written, ControlRequest.replaces, putUser]
  | _ => simp [written, ControlRequest.replaces, putUser, putCredential]

/-- A change after which the rules of the profile are those it acknowledges, or as before. -/
structure Ruled (env : Env) (profile : String) (s : State) (obs : List Obs) (t : State) :
    Prop where
  rules : t.admin.rules.lookup profile =
    (replacedRules env profile obs).or (s.admin.rules.lookup profile)
  options : t.options = s.options

section Ruled

variable {env : Env} {profile : String} {s t : State} {obs : List Obs}

namespace Ruled

theorem same (rules : t.admin.rules = s.admin.rules) (options : t.options = s.options)
    (silent : ∀ write, .acknowledged write ∉ obs) : Ruled env profile s obs t where
  rules := by rw [replacedRules_eq_none silent, Option.none_or, rules]
  options := options

theorem trans {mid : State} {rest : List Obs} (first : Ruled env profile s obs mid)
    (second : Ruled env profile mid rest t) : Ruled env profile s (obs ++ rest) t where
  rules := by rw [second.rules, first.rules, replacedRules_append, Option.or_assoc]
  options := second.options.trans first.options

end Ruled

theorem Quiet.ruled (change : Quiet env s obs t) (tickets : Tickets env s) :
    Ruled env profile s obs t := by
  -- Only an acknowledgement touches the rules; every other change leaves them as they are.
  cases change with
  | noted obs plain =>
    refine .same rfl rfl fun write member => ?_
    rw [List.mem_singleton] at member
    simp [← member, Obs.plain] at plain
  | @acknowledged write sequencer _ evict _ _ _ _ _ _ pending =>
    obtain ⟨request, parsed, _, _, before, input, draft, drafted, mutation, _⟩ :=
      (tickets.write pending).parsed
    obtain ⟨change, touched, applied⟩ := State.applyCache_rules s.options.maxCachedUsers evict
      { s.admin with sequencer } write.mutation profile
    -- The write was drafted from the request, so both say which rules are replaced.
    have named : request.replaces profile = change := by
      rw [mutation, drafted.rules] at touched
      refine Option.map_injective (fun first second equal => ?_) touched
      simpa using equal
    have asked : (write.asked env).bind (·.replaces profile) = change := by
      rw [PendingWrite.asked, parsed, ← named]
      rfl
    exact ⟨by rw [replacedRules_acknowledged, asked]; exact applied, rfl⟩
  | _ => exact .same rfl rfl (by simp)

theorem Path.ruled (path : Path env s obs t) (tickets : Tickets env s) :
    Ruled env profile s obs t := by
  induction path with
  | refl => exact .same rfl rfl (by simp)
  | step change _ ih => exact (change.ruled tickets).trans (ih (change.tickets tickets))

theorem Move.ruled {event : Event} (move : Move env s event obs t) (tickets : Tickets env s) :
    Ruled env profile s obs t := by
  -- Rules are touched on the quiet path of an administrative call only.
  cases move with
  | @finished outcome =>
    refine .same rfl rfl fun write member => ?_
    cases outcome <;> simp [finishObs] at member
  | pumped => exact .same rfl rfl (by simp)
  | quiet path => exact path.ruled tickets
  | loud path loud =>
    have ruled : Ruled env profile s obs _ := path.ruled tickets
    cases loud <;> exact ⟨ruled.rules, ruled.options⟩
  | begun _ begun => cases begun <;> exact .same rfl rfl (by simp)
  | @login _ mid _ _ login path =>
    have proved : Ruled env profile s [] mid := by
      cases login <;> exact .same rfl rfl (by simp)
    exact proved.trans (path.ruled (login.tickets tickets))
  | host host => cases host <;> exact .same rfl rfl (by simp)

end Ruled

/-- The process that starts has the rules of the profile that were acknowledged last, if any. -/
def Restores (profile : String) (history : List Obs) : Event → Prop
  | .start options _ _ _ => ∀ toml, replacedRules env profile history = some toml →
      env.decodeRules toml = some options.rules
  | _ => True

instance (profile : String) (history : List Obs) (event : Event) :
    Decidable (Restores env profile history event) :=
  match event with
  | .start options _ _ _ => inferInstanceAs (Decidable (∀ toml,
      replacedRules env profile history = some toml → env.decodeRules toml = some options.rules))
  | .receive | .finish _ | .attachSession .. | .admitFlow .. | .admitResolved .. | .abandonFlow ..
  | .attachFlow .. | .attachDatagramFlow .. | .control _ | .beginPoll .. | .quotaTurn _
  | .endQuota | .pump .. | .receiveMessages _ | .advanceSession _ | .endPoll | .beginShutdown ..
  | .crash _ => isTrue trivial

/-- The rules of the profile are those acknowledged last, kept or found in the configuration. -/
def InForce (profile : String) (history : List Obs) (s : State) : Prop :=
  s.admin.rules.lookup profile = replacedRules env profile history ∨
    s.admin.rules.lookup profile = none ∧
      (replacedRules env profile history).bind env.decodeRules = some s.options.rules

theorem Ruled.inForce {env : Env} {s t : State}
    (ruled : Ruled env profile s obs t) (inForce : InForce env profile history s) :
    InForce env profile (history ++ obs) t := by
  rw [InForce, replacedRules_append, ruled.rules, ruled.options]
  cases replacedRules env profile obs with
  | some => exact .inl rfl
  | none => exact inForce

/-- The rules acknowledged last are in force wherever a process has started with them. -/
theorem run_inForce {env : Env} {guard : List Obs → World → Event → Prop}
    (restores : ∀ history world event, guard history world event →
      Restores env profile history event) {world : World}
    (run : (machine env).Run Fresh guard history world) :
    world.Holds (InForce env profile history) := by
  -- A process that ends forgets the rules, and the next one has those of its configuration.
  refine machine_invariant (fun history world => world.Holds (InForce env profile history))
    trivial ?_ run
  intro history world event obs next earlier inForce admitted advance
  cases advance with
  | idle => simpa using inForce
  | @started store options at_ sessionNext flowNext s ok =>
    have started := initializeInstance_started ok
    have given := restores _ _ _ admitted
    rw [List.append_nil]
    cases last : replacedRules env profile history with
    | none => exact .inl (by rw [started.rules, last]; rfl)
    | some toml =>
      refine .inr ⟨by rw [started.rules]; rfl, ?_⟩
      rw [last, started.options]
      exact given toml last
  | moved move => exact (move.ruled (run_tickets earlier)).inForce inForce
  | stopped | crashed => trivial

theorem InForce.decides {env : Env} {s other : State}
    (inForce : InForce env profile history s) (options : other.options = s.options)
    (replaced : other.admin.rules.lookup profile = replacedRules env profile history)
    {user : UserRecord} (named : user.spec.ruleProfile = profile) (metadata : FlowMetadata) :
    destinationPolicy env s user metadata = destinationPolicy env other user metadata := by
  -- Both states have the same rules, one of them perhaps in its configuration.
  have rules : activeRules env s user = activeRules env other user := by
    rw [activeRules, activeRules, named, replaced, options]
    rcases inForce with kept | ⟨forgotten, found⟩
    · rw [kept]
    obtain ⟨toml, last, decoded⟩ := Option.bind_eq_some_iff.mp found
    rw [forgotten, last]
    simp only [decoded]
  rw [destinationPolicy, destinationPolicy, rules, options]

/--
Replaced rules decide until a process starts with other rules in its configuration.
Wherever the instance runs, it decides every flow of every user of the profile like an instance of
the same configuration that holds the rules acknowledged last.
-/
theorem replacedRules_kept {env : Env} {world : World}
    (run : (machine env).Run Fresh (fun history _ event => Restores env profile history event)
      history world) : world.Holds fun s => ∀ other : State, other.options = s.options →
      other.admin.rules.lookup profile = replacedRules env profile history →
      ∀ user metadata, user.spec.ruleProfile = profile →
        destinationPolicy env s user metadata = destinationPolicy env other user metadata := by
  have inForce := run_inForce (fun _ _ _ restores => restores) run
  cases world with
  | down => trivial
  | up =>
    intro other options replaced user metadata named
    exact InForce.decides inForce options replaced named metadata

open Deployment

/-- The request that denies every flow of the profile. -/
def denyRules : Sample where
  lines :=
    ["method = \"rules.replace\"", "client_id = \"panel\"", "seq = 3", "profile = \"default\"",
      "apply = \"active\"", "rules_toml = \"terminal = \\\"deny\\\"\\nentries = []\\n\""]
  digest := 0x05de30e981c969aeaf4c8be5074be12724a53dbd9586f59e6be11dff4a402ce5
  request := .rulesReplace "panel" 3 "default" .active denyAll

/-- The rules are replaced while the user is in the cache. -/
def replacement : List Event :=
  setup options ++ denyRules.issue

/-- The instance decides as the replaced rules do. -/
theorem replacedRules_kept_denyRules :
    (machine (libraries [denyRules])).Run Fresh
        (fun history _ event => Restores (libraries [denyRules]) "default" history event)
        (reached [denyRules] replacement).1 (reached [denyRules] replacement).2 ∧
      ∀ phase s, (reached [denyRules] replacement).2 = .up phase s →
        ∀ other : State, other.options = s.options →
          other.admin.rules.lookup "default" =
            replacedRules (libraries [denyRules]) "default" (reached [denyRules] replacement).1 →
          ∀ user metadata, user.spec.ruleProfile = "default" →
            destinationPolicy (libraries [denyRules]) s user metadata =
              destinationPolicy (libraries [denyRules]) other user metadata := by
  have run : (machine (libraries [denyRules])).Run Fresh
      (fun history _ event => Restores (libraries [denyRules]) "default" history event)
      (reached [denyRules] replacement).1 (reached [denyRules] replacement).2 :=
    reached_run [denyRules] replacement (by decide +kernel)
  refine ⟨run, fun phase s up => ?_⟩
  rw [up] at run
  exact replacedRules_kept run

/-- The process ends, another one starts with the same options, and the user logs in. -/
def restart : List Event :=
  replacement ++ [.crash none, .start options 0 1 1] ++ login

/--
The next process has the rules of its configuration.
The last acknowledged rules of the profile deny the flow before the restart, and the user is
allowed the same flow after it.
-/
theorem replacedRules_forgotten :
    (machine (libraries [denyRules])).Run Fresh (fun history _ event => Reliable history event)
        (reached [denyRules] restart).1 (reached [denyRules] restart).2 ∧
      replacedRules (libraries [denyRules]) "default" (reached [denyRules] restart).1 =
        some denyAll ∧
      ((reached [denyRules] replacement).2.Holds fun s =>
        ∃ userId user, s.admin.users.lookup userId = some user ∧
          user.spec.ruleProfile = "default" ∧
          destinationPolicy (libraries [denyRules]) s user metadata = .error ()) ∧
      (reached [denyRules] restart).2.Holds fun s =>
        ∃ userId user, s.admin.users.lookup userId = some user ∧
          user.spec.ruleProfile = "default" ∧
          destinationPolicy (libraries [denyRules]) s user metadata = .ok none :=
  ⟨reached_run [denyRules] restart (by decide +kernel), by decide +kernel⟩

end Snolc.Policy
