import Snolc.Policy.Revisions

/-! Deciding a flow in two stages is one pass over the rules that apply to it. -/

namespace Snolc.Policy

/-- What the rules that apply decide before anything is observed, if they do. -/
def immediate (terminal : Action) : List RuleEntry → Option Action
  | [] => some terminal
  | entry :: _ => if ruleRequiresObservation entry then none else some entry.action

section Stages

variable {applies : RuleEntry → Bool} {terminal : Action}

theorem scanRules_waiting (entries : List RuleEntry) {observed : List RuleEntry}
    (waiting : observed ≠ []) :
    scanRules applies terminal entries observed = .ok (observed ++ entries.filter applies) := by
  -- The queue only grows, so it stays nonempty along the list.
  induction entries generalizing observed with
  | nil => simp [scanRules, waiting]
  | cons entry rest ih =>
    rw [scanRules]
    by_cases apply : applies entry = true
    · rw [if_neg (by simp [apply]), if_pos (by simp [waiting]), ih (by simp)]
      simp [apply]
    · rw [if_pos (by simp [apply]), ih waiting, List.filter_cons_of_neg apply]

theorem scanRules_eq (entries : List RuleEntry) :
    scanRules applies terminal entries [] =
      match immediate terminal (entries.filter applies) with
      | some .deny => .error ()
      | some .allow => .ok []
      | none => .ok (entries.filter applies) := by
  induction entries with
  | nil => cases terminal <;> simp [scanRules, immediate]
  | cons entry rest ih =>
    rw [scanRules]
    by_cases apply : applies entry = true
    · rw [if_neg (by simp [apply]), List.filter_cons_of_pos apply, immediate]
      by_cases observes : ruleRequiresObservation entry = true
      · -- The rule waits, and with it all that follow.
        rw [if_pos (by simp [observes]), if_pos observes, scanRules_waiting rest (by simp)]
        rfl
      · rw [if_neg (by simp [observes]), if_neg observes]
        cases entry.action <;> rfl
    · rw [if_pos (by simp [apply]), ih, List.filter_cons_of_neg apply]

end Stages

section Policy

variable {env : Env} {state : State} {user : UserRecord} {rules : Rules}

/-- The rules that are about a user and a destination. -/
def Rules.applicable (rules : Rules) (env : Env) (user : UserRecord) (metadata : FlowMetadata) :
    List RuleEntry :=
  rules.entries.filter (ruleApplies env user metadata)

/-- What is decided once the first bytes of a flow are seen. -/
def State.sniffPolicy (state : State) (terminal : Action) (entries : List RuleEntry) :
    SniffPolicy where
  entries
  terminal
  unknown := state.options.onUnknownProtocol
  maxBytes := state.options.sniffBytes
  timeout := millis state.options.sniffTimeoutMs

theorem destinationPolicy_eq (active : activeRules env state user = .ok rules)
    (metadata : FlowMetadata) :
    destinationPolicy env state user metadata =
      match immediate rules.terminal (rules.applicable env user metadata) with
      | some .deny => .error ()
      | some .allow => .ok none
      | none => .ok (some
          (state.sniffPolicy rules.terminal (rules.applicable env user metadata))) := by
  rw [destinationPolicy, active, Rules.applicable]
  simp only [Bind.bind, Except.bind, scanRules_eq]
  cases first : rules.entries.filter (ruleApplies env user metadata) with
  | nil => cases rules.terminal <;> rfl
  | cons entry =>
    simp only [immediate]
    by_cases observes : ruleRequiresObservation entry = true
    · simp only [if_pos observes]
      rfl
    · simp only [if_neg observes]
      cases entry.action <;> rfl

end Policy

/--
What a rule decides about an observation on its own.
It decides nothing where the policy would fall back on what comes after it.
-/
def RuleEntry.decides (entry : RuleEntry) (observed : Observed) : Option Action :=
  if observedAllowed ⟨[entry], .deny, .deny, 0, 0⟩ observed then some .allow
  else if observedAllowed ⟨[entry], .allow, .allow, 0, 0⟩ observed then none
  else some .deny

theorem decideObserved_first (entry : RuleEntry) (observed : Observed) :
    ∃ outcome : Option Action, ∀ policy rest, decideObserved policy observed (entry :: rest) =
      match outcome with
      | some action => decide (action = .allow)
      | none => decideObserved policy observed rest := by
  -- One outcome for each branch of the evaluator, in its order.
  simp only [decideObserved]
  by_cases blind : observed = .unknown ∧ entry.protocol ≠ .unknown
  · exact ⟨some entry.unavailable, fun policy rest => by rw [if_pos blind]⟩
  simp only [if_neg blind]
  cases observedProtocolMatches entry.protocol observed with
  | false => exact ⟨none, fun policy rest => rfl⟩
  | true =>
    cases hostMatch entry.tlsSni observed.sni with
    | different => exact ⟨none, fun policy rest => rfl⟩
    | unavailable => exact ⟨some entry.unavailable, fun policy rest => rfl⟩
    | same =>
      cases hostMatch entry.httpHost observed.host with
      | different => exact ⟨none, fun policy rest => rfl⟩
      | unavailable => exact ⟨some entry.unavailable, fun policy rest => rfl⟩
      | same => exact ⟨some entry.action, fun policy rest => rfl⟩

theorem decideObserved_cons (policy : SniffPolicy) (observed : Observed) (entry : RuleEntry)
    (rest : List RuleEntry) :
    decideObserved policy observed (entry :: rest) =
      match entry.decides observed with
      | some action => decide (action = .allow)
      | none => decideObserved policy observed rest := by
  -- Alone the rule shows its outcome against both fallbacks.
  obtain ⟨outcome, same⟩ := decideObserved_first entry observed
  have decides : entry.decides observed = outcome := by
    rw [RuleEntry.decides, observedAllowed, observedAllowed, same, same]
    cases outcome with
    | none => simp [decideObserved]
    | some action => cases action <;> rfl
  rw [same, decides]

/-- One pass over the rules in order, with the observation known from the start. -/
def firstMatch (applies : RuleEntry → Bool) (observed : Observed) (terminal : Action) :
    List RuleEntry → Action
  | [] => terminal
  | entry :: rest =>
    if !applies entry then firstMatch applies observed terminal rest
    else if !ruleRequiresObservation entry then entry.action
    else
      match entry.decides observed with
      | some action => action
      | none => firstMatch applies observed terminal rest

theorem firstMatch_filter (applies : RuleEntry → Bool) (observed : Observed) (terminal : Action)
    (entries : List RuleEntry) :
    firstMatch applies observed terminal entries =
      firstMatch (fun _ => true) observed terminal (entries.filter applies) := by
  induction entries with
  | nil => rfl
  | cons entry rest ih =>
    by_cases apply : applies entry = true
    · simp [firstMatch, apply, ih]
    · simp [firstMatch, apply, ih]

variable {entry : RuleEntry}

theorem RuleEntry.decides_action
    (plain : ruleRequiresObservation entry = false) {observed : Observed}
    (seen : observed ≠ .unknown) : entry.decides observed = some entry.action := by
  simp only [ruleRequiresObservation, Bool.or_eq_false_iff, Option.isSome_eq_false_iff,
    Option.isNone_iff_eq_none, decide_eq_false_iff_not, not_not] at plain
  obtain ⟨⟨sni, host⟩, any⟩ := plain
  have alone (policy : SniffPolicy) :
      decideObserved policy observed [entry] = decide (entry.action = .allow) := by
    simp [decideObserved, seen, any, observedProtocolMatches, sni, host, hostMatch]
  rw [RuleEntry.decides, observedAllowed, observedAllowed, alone, alone]
  cases entry.action <;> rfl

theorem RuleEntry.decides_unknown {parseIp : String → Option IpAddr}
    (valid : entry.malformed parseIp = false) : ∃ action, entry.decides .unknown = some action := by
  -- Only rules about unknown protocols are compared with it, and they name no host.
  by_cases about : entry.protocol = .unknown
  · have hosts : entry.tlsSni = none ∧ entry.httpHost = none := by
      simp only [RuleEntry.malformed, about, Bool.or_eq_false_iff] at valid
      obtain ⟨⟨⟨_, sni⟩, host⟩, _⟩ := valid
      exact ⟨by simpa using sni, by simpa using host⟩
    have alone (policy : SniffPolicy) :
        decideObserved policy .unknown [entry] = decide (entry.action = .allow) := by
      simp [decideObserved, about, observedProtocolMatches, hosts, hostMatch]
    refine ⟨entry.action, ?_⟩
    rw [RuleEntry.decides, observedAllowed, observedAllowed, alone, alone]
    cases entry.action <;> rfl
  · have alone (policy : SniffPolicy) :
        decideObserved policy .unknown [entry] = decide (entry.unavailable = .allow) := by
      simp [decideObserved, about]
    refine ⟨entry.unavailable, ?_⟩
    rw [RuleEntry.decides, observedAllowed, observedAllowed, alone, alone]
    cases entry.unavailable <;> rfl

/-- The outcome of the two stages. -/
def decided (result : Except Unit (Option SniffPolicy)) (observed : Observed) : Bool :=
  match result with
  | .error () => false
  | .ok none => true
  | .ok (some policy) => observedAllowed policy observed

variable {rules : Rules}

theorem Rules.validate_mem {parseIp : String → Option IpAddr}
    (valid : rules.validate parseIp = .ok ()) (member : entry ∈ rules.entries) :
    entry.malformed parseIp = false := by
  rw [Rules.validate] at valid
  split at valid
  · cases valid
  next sound =>
  simp only [List.any_eq_true, not_exists, not_and, Bool.not_eq_true] at sound
  exact sound entry member

theorem decideObserved_eq {policy : SniffPolicy} {observed : Observed}
    (seen : observed ≠ .unknown) (entries : List RuleEntry) :
    decideObserved policy observed entries =
      decide (firstMatch (fun _ => true) observed policy.terminal entries = .allow) := by
  induction entries with
  | nil =>
    rw [decideObserved, if_neg seen, firstMatch]
  | cons entry rest ih =>
    rw [decideObserved_cons, firstMatch, if_neg (by simp)]
    cases observes : ruleRequiresObservation entry with
    | false =>
      -- The rule was deferred behind one that waits, and decides as it would have at once.
      rw [RuleEntry.decides_action observes seen]
      rfl
    | true =>
      cases entry.decides observed with
      | none => exact ih
      | some => rfl

variable {user : UserRecord} {env : Env} {state s : State}

/--
Two stages decide as one pass over the rules.
The first stage defers every rule behind the first that needs an observation, and the second stage
decides the deferred ones.
-/
theorem stages_eq_firstMatch (active : activeRules env state user = .ok rules)
    (valid : rules.validate env.parseIp = .ok ()) (metadata : FlowMetadata) (observed : Observed) :
    decided (destinationPolicy env state user metadata) observed =
      decide (firstMatch (ruleApplies env user metadata) observed rules.terminal rules.entries =
        .allow) := by
  rw [destinationPolicy_eq active, firstMatch_filter, ← Rules.applicable]
  cases applicable : rules.applicable env user metadata with
  | nil =>
    simp only [immediate, firstMatch]
    cases rules.terminal <;> rfl
  | cons entry rest =>
    simp only [immediate]
    cases observes : ruleRequiresObservation entry with
    | false =>
      simp only [firstMatch, observes]
      cases entry.action <;> rfl
    | true =>
      simp only [if_true, decided, observedAllowed, State.sniffPolicy]
      by_cases seen : observed = .unknown
      · -- The first rule that waits decides that nothing was recognised.
        have member : entry ∈ rules.entries := by
          have within : entry ∈ rules.applicable env user metadata := by simp [applicable]
          exact List.mem_of_mem_filter within
        obtain ⟨action, decides⟩ := RuleEntry.decides_unknown (Rules.validate_mem valid member)
        rw [seen, decideObserved_cons, firstMatch]
        simp [observes, decides]
      · exact decideObserved_eq seen (entry :: rest)

namespace Deployment

/-- A rule about nothing in particular. -/
def anyRule (action : Action) : RuleEntry :=
  ⟨action, .both, .any, .deny, none, none, none, none, none, none, none⟩

/-- An instance with rules in its configuration and an authenticated session of a user. -/
def serving (rules : Rules) : State :=
  { holding firstUser credentialSha256 with
    options := { options with rules }
    sessions := (∅ : Table Nat PolicySession).insert 1
      { channel := ⟨⟨[], none, 16384⟩, 4096, [], none, none, 0, 16384, false⟩
        role := .server
        auth := .authenticated firstUser
        subscribed := false
        lastStatus := 0
        credentialDigest := some credentialSha256
        pendingFlows := [] } }

/-- A server name is denied, everything else to the port is allowed. -/
def guarded : Rules :=
  ⟨.deny, [{ anyRule .deny with protocol := .tls, tlsSni := some "example.com" },
    { anyRule .allow with port := some 443 }]⟩

end Deployment

open Deployment

/-- Another server name is compared with the first rule, and allowed by the one behind it. -/
theorem stages_eq_firstMatch_guarded :
    guarded.validate (libraries []).parseIp = .ok () ∧
      decided (destinationPolicy (libraries []) (serving guarded) (member firstUser)
          ⟨.ipv4, [192, 0, 2, 1], 443⟩) (.tls (some "example.org")) =
        decide (firstMatch
          (ruleApplies (libraries []) (member firstUser) ⟨.ipv4, [192, 0, 2, 1], 443⟩)
          (.tls (some "example.org")) guarded.terminal guarded.entries = .allow) :=
  ⟨by decide +kernel, stages_eq_firstMatch rfl (by decide +kernel) _ _⟩

variable {metadata resolved : FlowMetadata}

theorem destinationPolicy_waiting
    (active : activeRules env state user = .ok rules) {policy : SniffPolicy}
    (waits : destinationPolicy env state user metadata = .ok (some policy)) :
    ∃ entry rest, policy.entries = entry :: rest ∧ entry ∈ rules.entries ∧
      ruleRequiresObservation entry = true := by
  rw [destinationPolicy_eq active] at waits
  split at waits
  · cases waits
  · cases waits
  next undecided =>
  cases waits
  cases applicable : rules.applicable env user metadata with
  | nil => simp [applicable, immediate] at undecided
  | cons entry rest =>
    rw [applicable, immediate] at undecided
    have member : entry ∈ rules.applicable env user metadata := by simp [applicable]
    refine ⟨entry, rest, rfl, List.mem_of_mem_filter member, ?_⟩
    by_contra plain
    rw [if_neg plain] at undecided
    cases undecided

/--
The option for unknown protocols has no influence.
Two configurations that differ in it alone give the same first answer, and every policy they build
is led by a rule that decides what is not recognised, so both policies decide every observation
alike.
-/
theorem onUnknownProtocol_unused (valid : ∀ rules, activeRules env state user = .ok rules →
      rules.validate env.parseIp = .ok ()) (unknown : UnknownAction) (metadata : FlowMetadata) :
    destinationPolicy env
        { state with options := { state.options with onUnknownProtocol := unknown } } user
        metadata =
      (destinationPolicy env state user metadata).map (Option.map ({ · with unknown })) ∧
    ∀ policy, destinationPolicy env state user metadata = .ok (some policy) →
      (∃ entry rest action, policy.entries = entry :: rest ∧
        entry.decides .unknown = some action) ∧
      ∀ observed, observedAllowed { policy with unknown } observed =
        observedAllowed policy observed := by
  -- The rules in force do not depend on the option.
  have same : activeRules env
      { state with options := { state.options with onUnknownProtocol := unknown } } user =
        activeRules env state user := rfl
  cases active : activeRules env state user with
  | error =>
    rw [destinationPolicy, destinationPolicy, same, active]
    exact ⟨rfl, nofun⟩
  | ok rules =>
    refine ⟨?_, fun policy waits => ?_⟩
    · rw [destinationPolicy_eq (same.trans active), destinationPolicy_eq active]
      split <;> rfl
    obtain ⟨entry, rest, first, member, _⟩ := destinationPolicy_waiting active waits
    obtain ⟨action, decides⟩ :=
      RuleEntry.decides_unknown (Rules.validate_mem (valid rules active) member)
    refine ⟨⟨entry, rest, action, first, decides⟩, fun observed => ?_⟩
    rw [observedAllowed, observedAllowed]
    by_cases seen : observed = .unknown
    · -- The first rule decides, before the option would be looked at.
      rw [seen, first, decideObserved_cons, decideObserved_cons, decides]
    · rw [decideObserved_eq seen, decideObserved_eq seen]

/-- A rule about server names leads the policy, whatever the option says. -/
theorem onUnknownProtocol_unused_guarded :
    (∃ policy, destinationPolicy (libraries []) (serving guarded) (member firstUser)
      ⟨.ipv4, [192, 0, 2, 1], 443⟩ = .ok (some policy)) ∧
    ∀ policy, destinationPolicy (libraries []) (serving guarded) (member firstUser)
        ⟨.ipv4, [192, 0, 2, 1], 443⟩ = .ok (some policy) →
      ∀ observed, observedAllowed { policy with unknown := .deny } observed =
        observedAllowed policy observed := by
  refine ⟨⟨_, rfl⟩, fun policy waits => ?_⟩
  refine ((onUnknownProtocol_unused (fun rules active => ?_) .deny _).2 policy waits).2
  cases active
  decide +kernel

theorem destinationPolicy_error_iff (active : activeRules env state user = .ok rules)
    (undenied : ∀ entry ∈ rules.entries, ruleApplies env user metadata entry = true →
      entry.action ≠ .deny) : destinationPolicy env state user metadata = .error () ↔
      rules.terminal = .deny ∧
        ∀ entry ∈ rules.entries, ruleApplies env user metadata entry = false := by
  rw [destinationPolicy_eq active]
  cases applicable : rules.applicable env user metadata with
  | nil =>
    have none : ∀ entry ∈ rules.entries, ruleApplies env user metadata entry = false := by
      simpa [Rules.applicable] using applicable
    cases rules.terminal with
    | allow => simp [immediate]
    | deny => exact ⟨fun _ => ⟨rfl, none⟩, fun _ => rfl⟩
  | cons entry =>
    have within : entry ∈ rules.applicable env user metadata := by simp [applicable]
    obtain ⟨member, apply⟩ := List.mem_filter.mp within
    have allows : entry.action = .allow := by
      cases action : entry.action with
      | allow => rfl
      | deny => exact absurd action (undenied entry member apply)
    have some : ¬ ∀ entry ∈ rules.entries, ruleApplies env user metadata entry = false := by
      intro none
      simp [none entry member] at apply
    simp only [immediate, allows, some, and_false, iff_false]
    split <;> simp_all

variable {session utc : Nat}

theorem State.admitFlow_admitted {identity : FlowIdentity} {found : PolicySession}
    (admitted : s.admission env session metadata utc = .ok (some identity))
    (lookup : s.sessions.lookup session = some found) : s.admitFlow env session metadata utc = (.ok,
      { s with
        sessions := s.sessions.insert session
          { found with pendingFlows := found.pendingFlows ++ [identity] } }) := by
  simp [State.admitFlow, admitted, State.pushIdentity, lookup]

theorem State.admitResolved_eq {t : State} {found : PolicySession} {userId : String}
    (address : resolved.addressType ≠ .domain) (running : t.maintenance = false)
    (lookup : t.sessions.lookup session = some found) (server : found.role = .server)
    (auth : found.auth = .authenticated userId) (cached : t.admin.users.lookup userId = some user)
    (available : t.flowAvailableAt user utc = true) : t.admitResolved env session resolved utc =
      match destinationPolicy env t user resolved with
      | .error () => .denied
      | .ok _ => .ok := by
  cases decision : destinationPolicy env t user resolved <;>
    simp [State.admitResolved, address, running, State.authenticatedSession, lookup, server, auth,
      cached, available, decision]

/--
An address of an admitted domain that no rule denies is admitted exactly where the rules end with
allowing, or one of them applies to the address.
-/
theorem admitResolved_iff {identity : FlowIdentity}
    (admitted : s.admission env session metadata utc = .ok (some identity))
    (address : resolved.addressType ≠ .domain)
    (cached : s.admin.users.lookup identity.userId = some user)
    (active : activeRules env s user = .ok rules)
    (undenied : ∀ entry ∈ rules.entries, ruleApplies env user resolved entry = true →
      entry.action ≠ .deny) :
    (s.admitFlow env session metadata utc).2.admitResolved env session resolved utc = .ok ↔
      rules.terminal = .allow ∨
        ∃ entry ∈ rules.entries, ruleApplies env user resolved entry = true := by
  obtain ⟨found, lookup, server, auth, _, other, same, available, _⟩ :=
    State.admission_session admitted
  have running : s.maintenance = false := by
    by_contra standing
    rw [Bool.not_eq_false] at standing
    simp [State.admission, standing, throw, throwThe, MonadExceptOf.throw, Bind.bind,
      Except.bind] at admitted
  rw [cached, Option.some.injEq] at same
  subst same
  rw [State.admitFlow_admitted admitted lookup]
  -- The session, its user and the time are as they were, so only the rules are asked again.
  have asks : State.admitResolved env
      { s with
        sessions := s.sessions.insert session
          { found with pendingFlows := found.pendingFlows ++ [identity] } } session resolved utc =
      match destinationPolicy env s user resolved with
      | .error () => .denied
      | .ok _ => .ok :=
    State.admitResolved_eq address running (AList.lookup_insert _) server auth cached available
  rw [asks]
  have denied := destinationPolicy_error_iff active undenied
  cases decision : destinationPolicy env s user resolved with
  | error =>
    obtain ⟨terminal, none⟩ := denied.mp decision
    simp only [terminal, reduceCtorEq, false_or, false_iff, not_exists, not_and,
      Bool.not_eq_true]
    exact none
  | ok =>
    simp only [true_iff]
    by_contra neither
    simp only [not_or, not_exists, not_and, Bool.not_eq_true] at neither
    have terminal : rules.terminal = .deny := by
      cases terminal : rules.terminal with
      | allow => exact absurd terminal neither.1
      | deny => rfl
    rw [denied.mpr ⟨terminal, neither.2⟩] at decision
    simp at decision

namespace Deployment

/-- A domain and what is below it is allowed. -/
def listed : Rules :=
  ⟨.deny, [{ anyRule .allow with domainSuffix := some "example.com" }]⟩

/-- A flow to a name below the domain. -/
def named : FlowMetadata :=
  ⟨.domain, toUtf8 "www.example.com", 443⟩

/-- A flow to an address of the name. -/
def numbered : FlowMetadata :=
  ⟨.ipv4, [192, 0, 2, 1], 443⟩

end Deployment

/-- Where the rules end with allowing, the address of the name is admitted. -/
theorem admitResolved_iff_numbered :
    ((serving ⟨.allow, listed.entries⟩).admitFlow (libraries []) 1 named 20).2.admitResolved
        (libraries []) 1 numbered 20 = .ok ↔
      (Action.allow = .allow ∨ ∃ entry ∈ listed.entries,
        ruleApplies (libraries []) (member firstUser) numbered entry = true) := by
  have admitted : (serving ⟨.allow, listed.entries⟩).admission (libraries []) 1 named 20 =
      .ok (some ⟨firstUser, some credentialSha256, none⟩) := by decide +kernel
  have cached : (serving ⟨.allow, listed.entries⟩).admin.users.lookup firstUser =
      some (member firstUser) := holding_user firstUser credentialSha256
  have undenied : ∀ entry ∈ listed.entries,
      ruleApplies (libraries []) (member firstUser) numbered entry = true →
        entry.action ≠ .deny := by decide +kernel
  exact admitResolved_iff admitted (by decide) cached rfl undenied

/--
A domain that is allowed cannot be reached where the rules end with denying.
The flow to the name is admitted, no rule denies anything, and the address of the name is denied.
-/
theorem admitResolved_denied :
    listed.validate (libraries []).parseIp = .ok () ∧
      ((serving listed).admitFlow (libraries []) 1 named 20).1 = .ok ∧
      (∀ entry ∈ listed.entries, entry.action ≠ .deny) ∧
      ((serving listed).admitFlow (libraries []) 1 named 20).2.admitResolved (libraries []) 1
        numbered 20 = .denied := by
  decide +kernel

end Snolc.Policy
