import Snolc.Lib.Utf8
import Snolc.Policy.Evaluation

/-! One destination in two spellings, and what the rules decide about each. -/

namespace Snolc.Policy

variable {env : Env} {entry : RuleEntry} {port : Nat} {user : UserRecord} {cidr : String}
  {address : Bytes}

/-- Two policies that differ at most in what a change of spelling makes of their rules. -/
def SamePolicy (fold : RuleEntry → RuleEntry) :
    Except Unit (Option SniffPolicy) → Except Unit (Option SniffPolicy) → Prop
  | .error _, .error _ => True
  | .ok none, .ok none => True
  | .ok (some first), .ok (some second) =>
    first.entries.map fold = second.entries.map fold ∧
      second = { first with entries := second.entries }
  | _, _ => False

theorem samePolicy_id_iff (first second : Except Unit (Option SniffPolicy)) :
    SamePolicy id first second ↔ first = second := by
  rcases first with ⟨⟩ | (_ | first) <;> rcases second with ⟨⟩ | (_ | second) <;>
    simp only [SamePolicy, List.map_id, reduceCtorEq, Except.ok.injEq, Option.some.injEq]
  constructor
  · rintro ⟨entries, same⟩
    rw [same, ← entries]
  · rintro rfl
    exact ⟨rfl, rfl⟩

/-- Both lists of rules decide at once, and by the same action. -/
def DecideAlike (terminal : Action) (first second : List RuleEntry) : Prop :=
  ∃ action, immediate terminal first = some action ∧ immediate terminal second = some action

/-- A change of spelling that leaves alone what a rule does and what it waits for. -/
def KeepsDecision (fold : RuleEntry → RuleEntry) : Prop :=
  ∀ entry, (fold entry).action = entry.action ∧
    ruleRequiresObservation (fold entry) = ruleRequiresObservation entry

theorem immediate_map {fold : RuleEntry → RuleEntry} (keeps : KeepsDecision fold)
    (terminal : Action) (entries : List RuleEntry) :
    immediate terminal (entries.map fold) = immediate terminal entries := by
  cases entries with
  | nil => rfl
  | cons entry entries => rw [List.map_cons, immediate, immediate, (keeps entry).1, (keeps entry).2]

section Same

variable {state other : State} {rules rules' : Rules} {fold : RuleEntry → RuleEntry}

/-- Policies agree if the rules that apply do, and else only where both decide alike at once. -/
theorem destinationPolicy_same_iff (keeps : KeepsDecision fold)
    (active : activeRules env state user = .ok rules)
    (otherActive : activeRules env other user = .ok rules')
    (terminal : rules'.terminal = rules.terminal) (settings : other.sniffPolicy = state.sniffPolicy)
    (first second : FlowMetadata) :
    SamePolicy fold (destinationPolicy env state user first)
        (destinationPolicy env other user second) ↔
      (rules.applicable env user first).map fold = (rules'.applicable env user second).map fold ∨
      DecideAlike rules.terminal (rules.applicable env user first)
        (rules'.applicable env user second) := by
  rw [destinationPolicy_eq active, destinationPolicy_eq otherActive, terminal, settings]
  generalize rules.applicable env user first = left
  generalize rules'.applicable env user second = right
  constructor
  · intro same
    cases one : immediate rules.terminal left with
    | some action =>
      cases two : immediate rules.terminal right with
      | some other =>
        refine .inr ⟨action, one, two.trans ?_⟩
        cases action <;> cases other <;> simp_all [SamePolicy]
      | none => cases action <;> simp [one, two, SamePolicy] at same
    | none =>
      cases two : immediate rules.terminal right with
      | some other => cases other <;> simp [one, two, SamePolicy] at same
      | none =>
        simp only [one, two, SamePolicy] at same
        exact .inl same.1
  · rintro (same | ⟨action, one, two⟩)
    · -- The same rules lead to the same stage.
      have stage := congrArg (immediate rules.terminal) same
      rw [immediate_map keeps, immediate_map keeps] at stage
      rw [← stage]
      cases immediate rules.terminal left with
      | some action => cases action <;> trivial
      | none => exact ⟨same, rfl⟩
    · rw [one, two]
      cases action <;> trivial

theorem destinationPolicy_eq_iff (active : activeRules env state user = .ok rules)
    (first second : FlowMetadata) :
    destinationPolicy env state user first = destinationPolicy env state user second ↔
      rules.applicable env user first = rules.applicable env user second ∨
      DecideAlike rules.terminal (rules.applicable env user first)
        (rules.applicable env user second) := by
  have keeps : KeepsDecision id := fun _ => ⟨rfl, rfl⟩
  rw [← samePolicy_id_iff, destinationPolicy_same_iff keeps active active rfl rfl, List.map_id,
    List.map_id]

theorem filter_eq_filter_iff {first second : RuleEntry → Bool} {entries : List RuleEntry} :
    entries.filter first = entries.filter second ↔
      ∀ entry ∈ entries, first entry = second entry := by
  refine ⟨fun same entry member => Bool.eq_iff_iff.mpr ?_, List.filter_congr⟩
  have both := congrArg (entry ∈ ·) same
  simpa [List.mem_filter, member] using both

end Same

/-- A flow to an address of four bytes. -/
def ipv4Flow (address : Bytes) (port : Nat) : FlowMetadata :=
  ⟨.ipv4, address, port⟩

/-- A flow to the address of sixteen bytes that stands for an address of four. -/
def mappedFlow (address : Bytes) (port : Nat) : FlowMetadata :=
  ⟨.ipv6, List.replicate 10 0 ++ [255, 255] ++ address, port⟩

theorem ruleApplies_mapped (unbound : entry.cidr = none) (address : Bytes) (port : Nat) :
    ruleApplies env user (mappedFlow address port) entry =
      ruleApplies env user (ipv4Flow address port) entry := by
  rw [ruleApplies, ruleApplies, addressRuleMatches, addressRuleMatches, unbound]
  rfl

/-- The two families of addresses. -/
inductive Family
  | v4
  | v6
  deriving DecidableEq, Repr

def IpAddr.family : IpAddr → Family
  | .v4 _ => .v4
  | .v6 _ => .v6

/-- The family of the network that a text names. -/
def networkFamily (env : Env) (cidr : String) : Option Family :=
  (splitOnce '/' cidr).bind fun parts => (env.parseIp parts.1).map IpAddr.family

/-- A network holds addresses of its own family only. -/
theorem cidrMatches_family {found : IpAddr} (inside : cidrMatches env cidr found = true) :
    networkFamily env cidr = some found.family := by
  unfold cidrMatches at inside
  unfold networkFamily
  cases split : splitOnce '/' cidr with
  | none => simp [split] at inside
  | some parts =>
    simp only [split] at inside
    cases network : env.parseIp parts.1 with
    | none => simp [network] at inside
    | some address =>
      cases address <;> cases found <;> cases bits : parseU8 parts.2 <;>
        simp_all [IpAddr.family]

theorem metadataIp_family {metadata : FlowMetadata} {found : IpAddr}
    (named : metadataIp metadata = some found) :
    metadata.addressType = .ipv4 ∧ found.family = .v4 ∨
      metadata.addressType = .ipv6 ∧ found.family = .v6 := by
  unfold metadataIp at named
  split at named
  · next kind =>
    split at named
    · cases named
      exact .inl ⟨kind, rfl⟩
    · cases named
  · next kind =>
    split at named
    · cases named
      exact .inr ⟨kind, rfl⟩
    · cases named
  · cases named

/-- A rule about a network applies to flows to addresses of the family of the network. -/
theorem ruleApplies_network {metadata : FlowMetadata} (network : entry.cidr = some cidr)
    (applies : ruleApplies env user metadata entry = true) :
    metadata.addressType = .ipv4 ∧ networkFamily env cidr = some .v4 ∨
      metadata.addressType = .ipv6 ∧ networkFamily env cidr = some .v6 := by
  rw [ruleApplies, Bool.and_eq_true] at applies
  have matched := applies.2
  simp only [addressRuleMatches, network, Bool.and_eq_true] at matched
  obtain ⟨found, named, inside⟩ := Option.any_eq_true _ _ |>.mp matched.1.1
  rw [cidrMatches_family inside]
  simpa using metadataIp_family named

section Mapped

variable (env : Env) (user : UserRecord) (entry : RuleEntry) (address : Bytes) (port : Nat)

/-- A rule about a network applies to at most one spelling, that of the family of the network. -/
theorem ruleApplies_family (network : entry.cidr = some cidr) :
    (ruleApplies env user (ipv4Flow address port) entry = true →
      networkFamily env cidr = some .v4) ∧
    (ruleApplies env user (mappedFlow address port) entry = true →
      networkFamily env cidr = some .v6) := by
  constructor
  · intro applies
    rcases ruleApplies_network network applies with ⟨_, family⟩ | ⟨other, _⟩
    · exact family
    · cases other
  · intro applies
    rcases ruleApplies_network network applies with ⟨other, _⟩ | ⟨_, family⟩
    · cases other
    · exact family

/-- Only a rule about a network tells the spellings apart, and it does so wherever it applies. -/
theorem ruleApplies_mapped_iff : ruleApplies env user (ipv4Flow address port) entry =
      ruleApplies env user (mappedFlow address port) entry ↔
    (entry.cidr ≠ none → ruleApplies env user (ipv4Flow address port) entry = false ∧
      ruleApplies env user (mappedFlow address port) entry = false) := by
  cases network : entry.cidr with
  | none => simp [ruleApplies_mapped network]
  | some cidr =>
    obtain ⟨four, six⟩ := ruleApplies_family env user entry address port network
    cases first : ruleApplies env user (ipv4Flow address port) entry <;>
      cases second : ruleApplies env user (mappedFlow address port) entry <;> simp_all

end Mapped

/--
The family of the spelling decides which networks are looked at.
Rules without a network are about both spellings or neither, a rule about a network is about one at
most, that of the family of the network.
The policies agree where no rule about a network applies to either spelling, and else only where
both are decided at once by the same action.
-/
theorem mappedAddress_decided {env : Env} {state : State} {user : UserRecord} {rules : Rules}
    (active : activeRules env state user = .ok rules) (address : Bytes) (port : Nat) :
    (∀ entry ∈ rules.entries, entry.cidr = none →
      ruleApplies env user (mappedFlow address port) entry =
        ruleApplies env user (ipv4Flow address port) entry) ∧
    (∀ entry ∈ rules.entries, ∀ cidr, entry.cidr = some cidr →
      (ruleApplies env user (ipv4Flow address port) entry = true →
        networkFamily env cidr = some .v4) ∧
      (ruleApplies env user (mappedFlow address port) entry = true →
        networkFamily env cidr = some .v6)) ∧
    (destinationPolicy env state user (ipv4Flow address port) =
        destinationPolicy env state user (mappedFlow address port) ↔
      (∀ entry ∈ rules.entries, entry.cidr ≠ none →
        ruleApplies env user (ipv4Flow address port) entry = false ∧
          ruleApplies env user (mappedFlow address port) entry = false) ∨
      DecideAlike rules.terminal (rules.applicable env user (ipv4Flow address port))
        (rules.applicable env user (mappedFlow address port))) := by
  refine ⟨fun entry _ unbound => ruleApplies_mapped unbound address port,
    fun entry _ cidr network => ruleApplies_family env user entry address port network, ?_⟩
  rw [destinationPolicy_eq_iff active]
  refine or_congr_left (filter_eq_filter_iff.trans ?_)
  exact forall₂_congr fun entry _ => ruleApplies_mapped_iff env user entry address port

namespace Deployment

/-- The libraries, as far as they read the networks below. -/
def resolver : Env :=
  { libraries [] with
    parseIp := fun text => if text = "10.0.0.0" then some (.v4 0x0a000000) else none }

/-- A network is denied. -/
def walled : Rules :=
  ⟨.allow, [{ anyRule .deny with cidr := some "10.0.0.0/8" }]⟩

end Deployment

open Deployment

/-- An address outside the network has one policy in both spellings. -/
theorem mappedAddress_decided_outside :
    destinationPolicy resolver (serving walled) (member firstUser) (ipv4Flow [192, 0, 2, 1] 443) =
      destinationPolicy resolver (serving walled) (member firstUser)
        (mappedFlow [192, 0, 2, 1] 443) := by
  refine (mappedAddress_decided rfl [192, 0, 2, 1] 443).2.2.mpr (.inl ?_)
  decide +kernel

/-- An address in the network is denied in one spelling and allowed in the other. -/
theorem mappedAddress_differs :
    walled.validate resolver.parseIp = .ok () ∧
      destinationPolicy resolver (serving walled) (member firstUser)
        (ipv4Flow [10, 1, 2, 3] 443) = .error () ∧
      destinationPolicy resolver (serving walled) (member firstUser)
        (mappedFlow [10, 1, 2, 3] 443) = .ok none := by
  decide +kernel

def domainFlow (domain : String) (port : Nat) : FlowMetadata :=
  ⟨.domain, toUtf8 domain, port⟩

/-- A rule with its domains in lower case. -/
def RuleEntry.folded (entry : RuleEntry) : RuleEntry :=
  { entry with
    domainExact := entry.domainExact.map asciiLower
    domainSuffix := entry.domainSuffix.map asciiLower }

/-- Rules with their domains in lower case. -/
def Rules.folded (rules : Rules) : Rules :=
  { rules with entries := rules.entries.map RuleEntry.folded }

/-- The domains of a rule are spelled as a domain is, as far as they are in it. -/
def RuleEntry.spelledAs (entry : RuleEntry) (domain : String) : Bool :=
  entry.domainExact.all (· = domain) &&
    entry.domainSuffix.all fun suffix => suffix.toList.isSuffixOf domain.toList

/-- The rules that are about a domain when case is put aside. -/
def Rules.concerned (rules : Rules) (env : Env) (user : UserRecord) (domain : String) (port : Nat) :
    List RuleEntry :=
  rules.entries.filter fun entry =>
    ruleApplies env user (domainFlow (asciiLower domain) port) entry.folded

theorem asciiLower_toList (text : String) :
    (asciiLower text).toList = text.toList.map Char.toLower := by
  rw [asciiLower, String.toList_ofList]

/-- A dot has no case. -/
theorem eq_dot_of_toLower {c : Char} (dot : c.toLower = '.') : c = '.' := by
  unfold Char.toLower at dot
  split at dot
  · next upper =>
    -- A capital letter becomes a small one, and no small letter is a dot.
    have code := congrArg (fun c => c.val.toNat) dot
    have large := UInt32.le_iff_toNat_le.mp upper.1
    have small := UInt32.le_iff_toNat_le.mp upper.2
    simp [UInt32.toNat_add] at code large small
    omega
  · exact dot

/-- A domain is below another one if it is so in lower case and the spellings agree. -/
theorem domainBelow_iff (suffix domain : String) : domainBelow suffix domain =
    (domainBelow (asciiLower suffix) (asciiLower domain) &&
      suffix.toList.isSuffixOf domain.toList) := by
  rw [Bool.eq_iff_iff]
  simp only [domainBelow, Bool.or_eq_true, Bool.and_eq_true, decide_eq_true_eq,
    List.isSuffixOf_iff_suffix, asciiLower_toList, List.length_map, ← List.map_take,
    List.getLast?_map]
  constructor
  · rintro (rfl | ⟨ends, dot⟩)
    · exact ⟨.inl rfl, List.suffix_rfl⟩
    · exact ⟨.inr ⟨ends.map Char.toLower, by rw [dot]; rfl⟩, ends⟩
  · rintro ⟨whole | ⟨_, dot⟩, ends⟩
    · -- Texts of one length of which one ends the other are the same text.
      have long := congrArg (fun text => text.toList.length) whole
      simp only [asciiLower_toList, List.length_map] at long
      exact .inl (String.ext (ends.eq_of_length long.symm).symm)
    · obtain ⟨c, last, lower⟩ := Option.map_eq_some_iff.mp dot
      exact .inr ⟨ends, by rw [last, eq_dot_of_toLower lower]⟩

theorem addressRuleMatches_domain (env : Env) (entry : RuleEntry) (domain : String) (port : Nat) :
    addressRuleMatches env entry (domainFlow domain port) =
      (entry.cidr.isNone && entry.domainExact.all (· = domain) &&
        entry.domainSuffix.all fun suffix => domainBelow suffix domain) := by
  simp only [addressRuleMatches, domainFlow, metadataIp, fromUtf8_toUtf8]
  cases entry.cidr <;> cases entry.domainExact <;> cases entry.domainSuffix <;>
    simp [eq_comm]

/-- A rule applies to a domain if it does so in lower case and is spelled as the domain is. -/
theorem ruleApplies_spelled (env : Env) (user : UserRecord) (entry : RuleEntry) (domain : String)
    (port : Nat) : ruleApplies env user (domainFlow domain port) entry =
      (ruleApplies env user (domainFlow (asciiLower domain) port) entry.folded &&
        entry.spelledAs domain) := by
  have exact : entry.domainExact.all (· = domain) =
      (entry.folded.domainExact.all (· = asciiLower domain) &&
        entry.domainExact.all (· = domain)) := by
    cases named : entry.domainExact with
    | none => simp [RuleEntry.folded, named]
    | some name => by_cases same : name = domain <;> simp [RuleEntry.folded, named, same]
  have below : (entry.domainSuffix.all fun suffix => domainBelow suffix domain) =
      ((entry.folded.domainSuffix.all fun suffix => domainBelow suffix (asciiLower domain)) &&
        entry.domainSuffix.all fun suffix => suffix.toList.isSuffixOf domain.toList) := by
    cases named : entry.domainSuffix with
    | none => simp [RuleEntry.folded, named]
    | some suffix => simp [RuleEntry.folded, named, domainBelow_iff suffix domain]
  simp only [ruleApplies, addressRuleMatches_domain, RuleEntry.spelledAs]
  rw [exact, below]
  dsimp only [RuleEntry.folded, domainFlow]
  ac_rfl

theorem Rules.applicable_spelled (rules : Rules) (env : Env) (user : UserRecord) (domain : String)
    (port : Nat) : rules.applicable env user (domainFlow domain port) =
      (rules.concerned env user domain port).filter (·.spelledAs domain) := by
  rw [Rules.applicable, Rules.concerned, List.filter_filter]
  exact List.filter_congr fun entry _ => by rw [ruleApplies_spelled, Bool.and_comm]

/--
The spelling of a domain decides which rules about domains are looked at.
A rule applies to a spelling exactly if it is about the domain when case is put aside and its own
domains are spelled the same way.
Two spellings have the same policy where no rule about the domain is spelled like one of them only,
and else only where both are decided at once by the same action; and so have two spellings of the
rules, where the rules that wait are compared when case is put aside.
-/
theorem domainCase_decided {env : Env} {state other : State} {user : UserRecord}
    {rules respelled : Rules} {domain spelled : String}
    (active : activeRules env state user = .ok rules)
    (otherActive : activeRules env other user = .ok respelled)
    (folded : respelled.folded = rules.folded) (settings : other.sniffPolicy = state.sniffPolicy)
    (same : eqIgnoreAsciiCase domain spelled = true) (port : Nat) :
    let concerned := rules.concerned env user domain port
    let others := respelled.concerned env user domain port
    (∀ spelling ∈ [domain, spelled], rules.applicable env user (domainFlow spelling port) =
      concerned.filter (·.spelledAs spelling)) ∧
    others.map RuleEntry.folded = concerned.map RuleEntry.folded ∧
    (destinationPolicy env state user (domainFlow domain port) =
        destinationPolicy env state user (domainFlow spelled port) ↔
      (∀ entry ∈ concerned, entry.spelledAs domain = entry.spelledAs spelled) ∨
      DecideAlike rules.terminal (concerned.filter (·.spelledAs domain))
        (concerned.filter (·.spelledAs spelled))) ∧
    (SamePolicy RuleEntry.folded (destinationPolicy env state user (domainFlow domain port))
        (destinationPolicy env other user (domainFlow domain port)) ↔
      (concerned.filter (·.spelledAs domain)).map RuleEntry.folded =
        (others.filter (·.spelledAs domain)).map RuleEntry.folded ∨
      DecideAlike rules.terminal (concerned.filter (·.spelledAs domain))
        (others.filter (·.spelledAs domain))) := by
  intro concerned others
  have lower : asciiLower domain = asciiLower spelled := of_decide_eq_true same
  have first := rules.applicable_spelled env user domain port
  have second := rules.applicable_spelled env user spelled port
  rw [Rules.concerned, ← lower, ← Rules.concerned] at second
  refine ⟨by simp [first, second, concerned], ?_, ?_, ?_⟩
  · -- Which rules are about the domain is asked of the rules in lower case.
    have entries := congrArg (fun rules => rules.entries.filter
      (ruleApplies env user (domainFlow (asciiLower domain) port))) folded
    simp only [Rules.folded, List.filter_map] at entries
    exact entries
  · rw [destinationPolicy_eq_iff active, first, second]
    exact or_congr_left filter_eq_filter_iff
  · have terminal := congrArg Rules.terminal folded
    have keeps : KeepsDecision RuleEntry.folded := fun _ => ⟨rfl, rfl⟩
    rw [destinationPolicy_same_iff keeps active otherActive terminal settings, first,
      respelled.applicable_spelled]

namespace Deployment

/-- A domain and those below it are denied. -/
def blocked (domain : String) : Rules :=
  ⟨.allow, [{ anyRule .deny with domainSuffix := some domain }]⟩

end Deployment

/-- A domain that no rule is about has one policy in every spelling. -/
theorem domainCase_decided_elsewhere :
    destinationPolicy resolver (serving (blocked "example.com")) (member firstUser)
        (domainFlow "snolc.test" 443) =
      destinationPolicy resolver (serving (blocked "example.com")) (member firstUser)
        (domainFlow "Snolc.TEST" 443) := by
  have decided := @domainCase_decided resolver (serving (blocked "example.com"))
    (serving (blocked "example.com")) (member firstUser) _ _ "snolc.test" "Snolc.TEST"
    rfl rfl rfl rfl (by decide +kernel) 443
  exact decided.2.2.1.mpr (.inl (by decide +kernel))

/-- A capital letter in the flow or in the rule leads past the rule. -/
theorem domainCase_differs :
    (blocked "example.com").validate resolver.parseIp = .ok () ∧
      (blocked "Example.com").validate resolver.parseIp = .ok () ∧
      destinationPolicy resolver (serving (blocked "example.com")) (member firstUser)
        (domainFlow "example.com" 443) = .error () ∧
      destinationPolicy resolver (serving (blocked "example.com")) (member firstUser)
        (domainFlow "Example.com" 443) = .ok none ∧
      destinationPolicy resolver (serving (blocked "Example.com")) (member firstUser)
        (domainFlow "example.com" 443) = .ok none := by
  decide +kernel

end Snolc.Policy
