import Snolc.Policy.Grants

/-! The shares of the global tokens fit together, so the order of the users does not matter. -/

namespace Snolc.Policy

open List State Option TokenBucket

theorem foldl_saturatingAdd (counts : List Nat) (start : Nat) (small : start ≤ u64Max) :
    counts.foldl saturatingAdd start = min (start + counts.sum) u64Max := by
  induction counts generalizing start with
  | nil =>
    rw [foldl_nil, sum_nil, Nat.add_zero]
    exact (Nat.min_eq_left small).symm
  | cons count counts ih =>
    have next : saturatingAdd start count ≤ u64Max := Nat.min_le_right _ _
    rw [foldl_cons, sum_cons, ih _ next]
    unfold saturatingAdd
    omega

theorem weightedShare_mul_le (available weight totalWeight : Nat) :
    weightedShare available weight totalWeight * totalWeight ≤ available * weight := by
  unfold weightedShare
  split
  · next zero => rw [zero, Nat.mul_zero]; exact Nat.zero_le _
  dsimp only
  split
  · exact Nat.div_mul_le_self _ _
  · next large =>
    exact (Nat.mul_le_mul_right _ (Nat.le_of_not_le large)).trans (Nat.div_mul_le_self _ _)

theorem sum_weightedShare_le (available : Nat) (weights : List Nat) :
    (weights.map fun weight => weightedShare available weight weights.sum).sum ≤ available := by
  -- Each share times the total is at most its exact part, whatever the total is.
  have general (total : Nat) :
      (weights.map fun weight => weightedShare available weight total).sum * total ≤
        available * weights.sum := by
    induction weights with
    | nil => simp
    | cons weight weights ih =>
      simp only [map_cons, sum_cons, Nat.add_mul, Nat.mul_add]
      exact Nat.add_le_add (weightedShare_mul_le _ _ _) ih
  rcases Nat.eq_zero_or_pos weights.sum with nothing | positive
  · -- Without weights nobody gets anything.
    have zero : (fun weight => weightedShare available weight weights.sum) = fun _ => 0 := by
      funext weight
      rw [weightedShare, if_pos nothing]
    rw [zero]
    simp
  · exact Nat.le_of_mul_le_mul_right (general weights.sum) positive

namespace State

/-- Two states in which the turn of a user is the same, up to the global bucket. -/
structure SameTurn (userId : String) (s t : State) : Prop where
  traffic : t.traffic.lookup userId = s.traffic.lookup userId
  deficit : t.userDeficit.lookup userId = s.userDeficit.lookup userId
  cursor : t.flowCursor.lookup userId = s.flowCursor.lookup userId
  flows : t.flows = s.flows
  datagramFlows : t.datagramFlows = s.datagramFlows
  users : t.admin.users = s.admin.users
  options : t.options = s.options

namespace SameTurn

variable {userId : String} {s t u : State}

theorem trans (first : SameTurn userId s t) (second : SameTurn userId t u) :
    SameTurn userId s u :=
  ⟨second.traffic.trans first.traffic, second.deficit.trans first.deficit,
    second.cursor.trans first.cursor, second.flows.trans first.flows,
    second.datagramFlows.trans first.datagramFlows, second.users.trans first.users,
    second.options.trans first.options⟩

variable (same : SameTurn userId s t)
include same

theorem selectFlow : t.selectFlow userId = s.selectFlow userId := by
  simp only [State.selectFlow, State.flowsOf, same.cursor, same.flows, same.datagramFlows]

theorem turnTraffic : t.turnTraffic userId = s.turnTraffic userId := by
  rw [State.turnTraffic, same.traffic, State.turnTraffic]

theorem weightOf : t.weightOf userId = s.weightOf userId := by
  rw [State.weightOf, same.users, State.weightOf]

theorem turnBudget (totalWeight : Nat) (available : Option Nat) (traffic : UserTraffic) :
    t.turnBudget totalWeight available userId traffic =
      s.turnBudget totalWeight available userId traffic := by
  have work : t.turnWork userId = s.turnWork userId := by
    rw [State.turnWork, same.selectFlow, same.datagramFlows, same.options, State.turnWork]
  simp only [State.turnBudget, State.turnDeficit, State.turnShare, same.weightOf, work,
    same.deficit]

end SameTurn

theorem grantTurn_others (nowNanos totalWeight : Nat) (available : Option Nat) (s : State)
    (grants : Table Nat RateGrant) {userId other : String} (different : other ≠ userId) :
    SameTurn other s (grantTurn nowNanos totalWeight available (s, grants) userId).1 := by
  have moved : (s.flowCursor.insert userId
      (wrappingAdd ((s.flowCursor.lookup userId).getD 0) 1)).lookup other =
      s.flowCursor.lookup other := by
    rw [Table.lookup_insert_eq, if_neg different]
  cases found : s.turnTraffic userId with
  | none =>
    rw [grantTurn_of_none found]
    exact ⟨rfl, rfl, moved, rfl, rfl, rfl, rfl⟩
  | some traffic =>
    rw [grantTurn_of_some found]
    obtain ⟨_, globalRate, same⟩ := takeGlobal_spec (s.beginTurn userId)
      (s.turnBudget totalWeight available userId traffic) nowNanos
    dsimp only
    rw [same]
    have paid (next : UserTraffic) : (s.traffic.insert userId next).lookup other =
        s.traffic.lookup other := by rw [Table.lookup_insert_eq, if_neg different]
    have grown : (s.userDeficit.insert userId (s.turnDeficit userId)).lookup other =
        s.userDeficit.lookup other := by rw [Table.lookup_insert_eq, if_neg different]
    split <;> exact ⟨paid _, grown, moved, rfl, rfl, rfl, rfl⟩

/-- The global bucket, where there is one, is up to date and holds some tokens. -/
def Covers (nowNanos left : Nat) (s : State) : Prop :=
  ∀ bucket ∈ s.globalRate, bucket.Current nowNanos ∧ left ≤ bucket.tokens

/-- The global bucket cannot be brought up to a time. -/
def Stuck (nowNanos : Nat) (s : State) : Prop :=
  ∃ fault, refillTokens s.globalRate nowNanos = .error fault

section Global

variable {nowNanos left budget : Nat} {s : State}

theorem Covers.takeGlobal (covers : s.Covers nowNanos left) (within : budget ≤ left) :
    s.takeGlobal budget nowNanos =
      (budget, { s with globalRate := spendTokens s.globalRate budget }) := by
  rw [takeGlobal_eq]
  cases present : s.globalRate with
  | none => rfl
  | some bucket =>
    obtain ⟨current, enough⟩ := covers bucket present
    have all : grantedBy (some bucket) budget = budget := Nat.min_eq_left (within.trans enough)
    simp only [refillTokens, current.refill, Except.map, all]

theorem Stuck.takeGlobal (stuck : s.Stuck nowNanos) (budget : Nat) :
    s.takeGlobal budget nowNanos = (0, s) := by
  obtain ⟨fault, refused⟩ := stuck
  rw [takeGlobal_eq, refused]

theorem Covers.spend {rest : Nat} (covers : s.Covers nowNanos left)
    (within : budget + rest ≤ left) {t : State}
    (paid : (∃ count, t.globalRate = (spendTokens s.globalRate budget).map (·.refund count)) ∨
      t.globalRate = spendTokens s.globalRate budget) : t.Covers nowNanos rest := by
  intro bucket present
  cases before : s.globalRate with
  | none =>
    have absent : t.globalRate = none := by simpa [before, spendTokens] using paid
    rw [absent] at present
    cases present
  | some old =>
    obtain ⟨current, enough⟩ := covers old before
    have spent := current.spend budget
    have remains : rest ≤ (old.spend budget).tokens := by
      simp only [TokenBucket.spend]
      omega
    rw [before] at paid
    simp only [spendTokens, map_some, mem_def.mp present, Option.some.injEq] at paid
    rcases paid with ⟨count, rfl⟩ | rfl
    · refine ⟨spent.refund count, ?_⟩
      -- A refund stops at the burst, which the tokens do not exceed.
      have within := spent.within
      have word := spent.word
      simp only [refund, saturatingAdd]
      omega
    · exact ⟨spent, remains⟩

theorem Stuck.refund (stuck : s.Stuck nowNanos) {t : State} {count : Nat}
    (returned : t.globalRate = s.globalRate.map (·.refund count)) : t.Stuck nowNanos := by
  obtain ⟨fault, refused⟩ := stuck
  cases present : s.globalRate with
  | none => simp [present, refillTokens] at refused
  | some bucket =>
    rw [present, map_some] at returned
    rw [Stuck, returned]
    cases refilled : (bucket.refund count).refill nowNanos with
    | error other => exact ⟨other, by simp only [refillTokens, refilled, Except.map]⟩
    | ok =>
      -- What decides about a refill is not touched by a refund.
      obtain ⟨later, fits, _⟩ := refill_eq_ok.mp refilled
      have before := @TokenBucket.refill_fits nowNanos bucket later fits
      simp [present, refillTokens, before, Except.map] at refused

end Global

section Turns

variable (nowNanos totalWeight : Nat) (available : Option Nat) (s : State) (paid : Bool)

/-- What a user is granted in its turn if the global bucket pays all of its budget, or nothing. -/
def soloGrant (userId : String) : Option (Nat × RateGrant) :=
  (s.turnTraffic userId).bind fun traffic =>
    let budget := if paid then s.turnBudget totalWeight available userId traffic else 0
    match (takeRateGrant traffic budget nowNanos).2 with
    | .ok grant => some (s.selectFlow userId, { grant with global := grant.combined })
    | .error _ => none

/-- The users still to be served, and what those before them have left. -/
structure Serving (served todo : List String) (progress : State × Table Nat RateGrant) :
    Prop where
  same : ∀ userId ∈ todo, SameTurn userId s progress.1
  funds :
    if paid then
      progress.1.Covers nowNanos (todo.map (s.turnShare totalWeight available)).sum
    else progress.1.Stuck nowNanos
  granted (handle : Nat) (grant : RateGrant) : progress.2.lookup handle = some grant ↔
    ∃ userId ∈ served,
      soloGrant nowNanos totalWeight available s paid userId = some (handle, grant)

variable {nowNanos totalWeight available s paid} {served todo : List String}
  {progress : State × Table Nat RateGrant} {userId : String}

section

variable (serving : Serving nowNanos totalWeight available s paid served (userId :: todo) progress)
include serving

theorem Serving.takeGlobal (traffic : UserTraffic) : ((progress.1.beginTurn userId).takeGlobal
        (s.turnBudget totalWeight available userId traffic) nowNanos) =
      if paid then
        (s.turnBudget totalWeight available userId traffic,
          { progress.1.beginTurn userId with
            globalRate := spendTokens progress.1.globalRate
              (s.turnBudget totalWeight available userId traffic) })
      else (0, progress.1.beginTurn userId) := by
  have funds := serving.funds
  cases paid with
  | true =>
    have covers : (progress.1.beginTurn userId).Covers nowNanos _ := funds
    rw [if_pos rfl, covers.takeGlobal]
    · rfl
    -- The budget is within the share of the user, which is one of those that are covered.
    rw [map_cons, sum_cons]
    exact (Nat.min_le_right _ _).trans (Nat.le_add_right _ _)
  | false =>
    have stuck : (progress.1.beginTurn userId).Stuck nowNanos := funds
    exact stuck.takeGlobal _

/-- What the turn of a user adds to the grants, and what it leaves in the global bucket. -/
theorem Serving.turn_cases : (grantTurn nowNanos totalWeight available progress userId).2 =
        (match soloGrant nowNanos totalWeight available s paid userId with
          | none => progress.2
          | some (handle, grant) => progress.2.insert handle grant) ∧
      (if paid then
        (grantTurn nowNanos totalWeight available progress userId).1.Covers nowNanos
          (todo.map (s.turnShare totalWeight available)).sum
      else (grantTurn nowNanos totalWeight available progress userId).1.Stuck nowNanos) := by
  obtain ⟨t, grants⟩ := progress
  have same := serving.same userId (by simp)
  have funds := serving.funds
  cases found : s.turnTraffic userId with
  | none =>
    -- A user without traffic that takes part leaves the bucket alone.
    rw [grantTurn_of_none (same.turnTraffic.trans found)]
    refine ⟨by simp only [soloGrant, found, bind_none], ?_⟩
    cases paid with
    | false => exact funds
    | true =>
      intro bucket present
      have covers : t.Covers nowNanos _ := funds
      obtain ⟨current, enough⟩ := covers bucket present
      rw [map_cons, sum_cons] at enough
      exact ⟨current, (Nat.le_add_left _ _).trans enough⟩
  | some traffic =>
    have turned := @grantTurn_of_some traffic t userId nowNanos totalWeight available grants
      (same.turnTraffic.trans found)
    have taken := serving.takeGlobal traffic
    rw [same.turnBudget] at turned
    dsimp only at turned taken
    rw [turned, taken]
    cases paid with
    | false =>
      have stuck : t.Stuck nowNanos := funds
      simp only [soloGrant, found, bind_some, Bool.false_eq_true, if_false]
      cases granted : (takeRateGrant traffic 0 nowNanos).2 with
      | error => exact ⟨rfl, stuck⟩
      | ok =>
        simp only [same.selectFlow, true_and]
        exact stuck.refund rfl
    | true =>
      have covers : t.Covers nowNanos _ := funds
      simp only [soloGrant, found, bind_some, if_true]
      have within : s.turnBudget totalWeight available userId traffic +
          (todo.map (s.turnShare totalWeight available)).sum ≤
          ((userId :: todo).map (s.turnShare totalWeight available)).sum := by
        rw [map_cons, sum_cons]
        exact Nat.add_le_add_right (Nat.min_le_right _ _) _
      cases granted : (takeRateGrant traffic
          (s.turnBudget totalWeight available userId traffic) nowNanos).2 with
      | error fault => exact ⟨rfl, covers.spend within (.inr rfl)⟩
      | ok grant =>
        simp only [same.selectFlow, true_and]
        exact covers.spend within (.inl ⟨_, rfl⟩)

end

/-- The turn of a user serves it. -/
theorem Serving.turn (distinct : s.Distinct)
    (serving : Serving nowNanos totalWeight available s paid served (userId :: todo) progress)
    (unserved : userId ∉ served) (waiting : userId ∉ todo)
    (active : ∀ other ∈ userId :: served, s.flowsOf other ≠ []) :
    Serving nowNanos totalWeight available s paid (userId :: served) todo
      (grantTurn nowNanos totalWeight available progress userId) := by
  obtain ⟨grown, funds⟩ := serving.turn_cases
  refine ⟨fun other member => ?_, funds, fun handle grant => ?_⟩
  · have different : other ≠ userId := fun same => waiting (same ▸ member)
    exact (serving.same other (by simp [member])).trans
      (grantTurn_others nowNanos totalWeight available progress.1 progress.2 different)
  · rw [grown]
    cases solo : soloGrant nowNanos totalWeight available s paid userId with
    | none => simp [serving.granted, solo]
    | some own =>
      obtain ⟨mine, given⟩ := own
      rw [Table.lookup_insert_eq]
      -- The flow of this user is nobody else's, so no grant is overwritten.
      have alone (other : String) (member : other ∈ served) (found : RateGrant) :
          soloGrant nowNanos totalWeight available s paid other ≠ some (mine, found) := by
        intro taken
        have selected {who : String} {which : Nat} {what : RateGrant}
            (has : soloGrant nowNanos totalWeight available s paid who = some (which, what)) :
            which = s.selectFlow who := by
          obtain ⟨traffic, _, has⟩ := bind_eq_some_iff.mp has
          dsimp only at has
          split at has
          · simp only [Option.some.injEq, Prod.mk.injEq] at has
            exact has.1.symm
          · cases has
        have first := selectFlow_mem (active other (by simp [member]))
        have second := selectFlow_mem (active userId (by simp))
        rw [← selected taken] at first
        rw [← selected solo] at second
        exact unserved (distinct.owner first second ▸ member)
      by_cases here : handle = mine
      · subst here
        simp only [if_true, Option.some.injEq, mem_cons, exists_eq_or_imp, solo,
          Prod.mk.injEq, true_and]
        constructor
        · exact .inl
        rintro (same | ⟨other, member, taken⟩)
        · exact same
        · exact absurd taken (alone other member grant)
      · simp only [if_neg here, serving.granted, mem_cons, exists_eq_or_imp, solo,
          Option.some.injEq, Prod.mk.injEq, Ne.symm here, false_and, false_or]

theorem Serving.loop (distinct : s.Distinct) {first rest : List String}
    (serving : Serving nowNanos totalWeight available s paid served (first ++ rest) progress)
    (nodup : (served ++ (first ++ rest)).Nodup)
    (active : ∀ other ∈ served ++ (first ++ rest), s.flowsOf other ≠ []) :
    ∃ all, (∀ other, other ∈ all ↔ other ∈ served ∨ other ∈ first) ∧
      Serving nowNanos totalWeight available s paid all rest
        (first.foldl (grantTurn nowNanos totalWeight available) progress) := by
  -- The induction is on the users that are served here.
  induction first generalizing served progress with
  | nil => exact ⟨served, by simp, serving⟩
  | cons userId first ih =>
    rw [cons_append] at serving nodup active
    have apart := nodup_append.mp nodup
    have waiting := (nodup_cons.mp apart.2.1).1
    have unserved : userId ∉ served := fun member =>
      apart.2.2 userId member userId (by simp) rfl
    have next := serving.turn distinct unserved waiting fun other member =>
      active other (by
        rcases mem_cons.mp member with rfl | before
        · simp
        · simp [before])
    have order : (served ++ userId :: (first ++ rest)).Perm
        ((userId :: served) ++ (first ++ rest)) := perm_middle
    obtain ⟨all, members, done⟩ := ih next (order.nodup_iff.mp nodup)
      fun other member => active other (order.mem_iff.mpr member)
    refine ⟨all, fun other => (members other).trans ?_, done⟩
    simp only [mem_cons]
    tauto

end Turns

section Pass

variable {s : State} {nowNanos : Nat}

/-- The weights of all users with flows. -/
def totalWeight (s : State) : Nat :=
  (s.schedule.map s.weightOf).foldl saturatingAdd 0

/-- The tokens that are shared out in a pass, if there is a bucket that answers. -/
def shared (s : State) (nowNanos : Nat) : Option Nat :=
  (s.surveyGlobal nowNanos).1

theorem shared_congr {t : State} (same : t.globalRate = s.globalRate) :
    t.shared nowNanos = s.shared nowNanos := by
  rw [shared, shared, surveyGlobal, surveyGlobal, same]
  cases s.globalRate with
  | none => rfl
  | some bucket => cases looked : bucket.available nowNanos <;> simp only [looked]

/-- Whether the global rate lets anything pass: there is none, or its bucket answers. -/
def paying (s : State) (nowNanos : Nat) : Bool :=
  s.globalRate.isNone || (s.shared nowNanos).isSome

theorem schedule_perm (s : State) : s.schedule.Perm s.activeUsers :=
  (rotate_perm _ _).trans (perm_insertionSort _ _)

/-- The state from which a pass hands out its grants. -/
def opened (s : State) (nowNanos : Nat) : State :=
  (s.turnSchedule.surveyGlobal nowNanos).2

theorem surveyGlobal_turnSchedule (s : State) (nowNanos : Nat) :
    (s.turnSchedule.surveyGlobal nowNanos).1 = s.shared nowNanos ∧
      ∃ userCursor, s.opened nowNanos =
        { (s.surveyGlobal nowNanos).2 with userCursor } := by
  have turned : ∃ userCursor, s.turnSchedule = { s with userCursor } := by
    unfold turnSchedule
    split
    · exact ⟨_, rfl⟩
    · exact ⟨_, rfl⟩
  obtain ⟨userCursor, turned⟩ := turned
  rw [opened, turned, shared]
  -- The bucket is looked at in the same way, whoever goes first.
  cases present : s.globalRate with
  | none => exact ⟨by simp [surveyGlobal, present], userCursor, by simp [surveyGlobal, present]⟩
  | some bucket =>
    cases looked : bucket.available nowNanos with
    | error | ok =>
      exact ⟨by simp [surveyGlobal, present, looked], userCursor,
        by simp [surveyGlobal, present, looked]⟩

theorem surveyGlobal_cases (s : State) (nowNanos : Nat) :
    s.globalRate = none ∧ s.surveyGlobal nowNanos = (none, s) ∨
      s.Stuck nowNanos ∧ s.globalRate ≠ none ∧ s.surveyGlobal nowNanos = (none, s) ∨
      ∃ bucket, refillTokens s.globalRate nowNanos = .ok (some bucket) ∧
        bucket.Current nowNanos ∧
        s.surveyGlobal nowNanos = (some bucket.tokens, { s with globalRate := some bucket }) := by
  unfold surveyGlobal
  cases present : s.globalRate with
  | none => exact .inl ⟨rfl, rfl⟩
  | some bucket =>
    right
    dsimp only
    unfold available
    cases refilled : bucket.refill nowNanos with
    | error fault =>
      refine .inl ⟨⟨fault, ?_⟩, by simp, rfl⟩
      rw [present]
      simp only [refillTokens, refilled, Except.map]
    | ok next =>
      refine .inr ⟨next, ?_, current_of_refill refilled, rfl⟩
      simp only [refillTokens, refilled, Except.map]

/-- Before its first turn, a pass covers the shares of all its users. -/
theorem serving_opened (fits : (s.schedule.map s.weightOf).sum ≤ u64Max) :
    Serving nowNanos s.totalWeight (s.shared nowNanos) s (s.paying nowNanos) [] s.schedule
      (s.opened nowNanos, ∅) := by
  obtain ⟨_, userCursor, opened⟩ := s.surveyGlobal_turnSchedule nowNanos
  have weights : s.totalWeight = (s.schedule.map s.weightOf).sum := by
    rw [totalWeight, foldl_saturatingAdd _ _ (Nat.zero_le _), Nat.zero_add]
    exact Nat.min_eq_left fits
  rw [opened]
  have nothing (handle : Nat) (grant : RateGrant) :
      (∅ : Table Nat RateGrant).lookup handle = some grant ↔
        ∃ userId ∈ ([] : List String), soloGrant nowNanos s.totalWeight (s.shared nowNanos) s
          (s.paying nowNanos) userId = some (handle, grant) := by simp
  rcases s.surveyGlobal_cases nowNanos with
    ⟨absent, surveyed⟩ | ⟨stuck, present, surveyed⟩ | ⟨bucket, _, current, surveyed⟩
  · -- Without a global rate, everything is covered.
    have paying : s.paying nowNanos = true := by simp [paying, absent]
    rw [paying] at nothing ⊢
    rw [surveyed]
    refine ⟨fun _ _ => ⟨rfl, rfl, rfl, rfl, rfl, rfl, rfl⟩, ?_, nothing⟩
    intro bucket there
    exact absurd (there.symm.trans absent) (by simp)
  · have paying : s.paying nowNanos = false := by
      simpa [paying, shared, surveyed] using isSome_iff_ne_none.mpr present
    rw [paying] at nothing ⊢
    rw [surveyed]
    exact ⟨fun _ _ => ⟨rfl, rfl, rfl, rfl, rfl, rfl, rfl⟩, stuck, nothing⟩
  · -- The shares of the tokens on hand are together no more than these tokens.
    have sharing : s.shared nowNanos = some bucket.tokens := by rw [shared, surveyed]
    have paying : s.paying nowNanos = true := by simp [paying, sharing]
    rw [paying] at nothing ⊢
    rw [surveyed]
    refine ⟨fun _ _ => ⟨rfl, rfl, rfl, rfl, rfl, rfl, rfl⟩, ?_, nothing⟩
    intro other there
    cases there
    refine ⟨current, ?_⟩
    have sum := sum_weightedShare_le bucket.tokens (s.schedule.map s.weightOf)
    rw [List.map_map, ← weights] at sum
    rw [sharing]
    exact sum

theorem grantAll_granted (distinct : s.Distinct)
    (fits : (s.schedule.map s.weightOf).sum ≤ u64Max) (handle : Nat) (grant : RateGrant) :
    (s.grantAll nowNanos).2.lookup handle = some grant ↔
      ∃ userId ∈ s.activeUsers,
        soloGrant nowNanos s.totalWeight (s.shared nowNanos) s (s.paying nowNanos) userId =
          some (handle, grant) := by
  obtain ⟨surveyed, _⟩ := s.surveyGlobal_turnSchedule nowNanos
  obtain ⟨nodup, active⟩ := s.schedule_spec
  have start := @serving_opened s nowNanos fits
  rw [← append_nil s.schedule] at start
  obtain ⟨all, members, served⟩ := start.loop distinct (by simpa using nodup)
    (by simpa using active)
  have pass : s.grantAll nowNanos =
      s.schedule.foldl (grantTurn nowNanos s.totalWeight (s.shared nowNanos))
        (s.opened nowNanos, ∅) := by
    rw [← surveyed]
    rfl
  rw [pass, served.granted]
  simp only [members, not_mem_nil, false_or, s.schedule_perm.mem_iff]

end Pass

end State

/--
The shares of the global tokens are together no more than there are, so in a pass every user is paid
the whole budget it asks for, and each flow is granted the same whoever goes first.

The weights of the users add up to a word, as those of four billion users do.
-/
theorem globalShares_orderFree {s : State} (distinct : s.Distinct)
    (fits : (s.schedule.map s.weightOf).sum ≤ u64Max) (nowNanos : Nat) :
    (∀ tokens, s.shared nowNanos = some tokens →
      (s.schedule.map fun userId =>
        weightedShare tokens (s.weightOf userId) s.totalWeight).sum ≤ tokens) ∧
      (∀ served userId rest traffic, s.schedule = served ++ userId :: rest →
        let reached := (served.foldl
          (State.grantTurn nowNanos s.totalWeight (s.shared nowNanos)) (s.opened nowNanos, ∅)).1
        let budget := reached.turnBudget s.totalWeight (s.shared nowNanos) userId traffic
        reached.turnTraffic userId = some traffic →
        ((reached.beginTurn userId).takeGlobal budget nowNanos).1 =
          if s.paying nowNanos then budget else 0) ∧
      ∀ userCursor handle,
        ({ s with userCursor }.grantAll nowNanos).2.lookup handle =
          (s.grantAll nowNanos).2.lookup handle := by
  have weights (t : State) (small : (t.schedule.map t.weightOf).sum ≤ u64Max) :
      t.totalWeight = (t.schedule.map t.weightOf).sum := by
    rw [totalWeight, foldl_saturatingAdd _ _ (Nat.zero_le _), Nat.zero_add]
    exact Nat.min_eq_left small
  refine ⟨fun tokens _ => ?_, ?_, fun userCursor handle => ?_⟩
  · have sum := sum_weightedShare_le tokens (s.schedule.map s.weightOf)
    rw [List.map_map, ← weights s fits] at sum
    exact sum
  · intro served userId rest traffic split reached budget _
    -- The users before this one leave its turn as it was, and its share in the bucket.
    obtain ⟨nodup, active⟩ := s.schedule_spec
    have start := @State.serving_opened s nowNanos fits
    rw [split] at start nodup active
    obtain ⟨all, _, serving⟩ := start.loop distinct (by simpa using nodup) (by simpa using active)
    have same := (serving.same userId (by simp)).turnBudget s.totalWeight (s.shared nowNanos)
      traffic
    simp only [budget, reached, same, serving.takeGlobal traffic]
    split <;> rfl
  · -- Both passes grant what the turns of the users alone do.
    have order : { s with userCursor }.schedule.Perm s.schedule :=
      (schedule_perm _).trans s.schedule_perm.symm
    have total : ({ s with userCursor }.schedule.map { s with userCursor }.weightOf).sum =
        (s.schedule.map s.weightOf).sum := (order.map s.weightOf).sum_eq
    have others : ({ s with userCursor } : State).Distinct := distinct
    have small : ({ s with userCursor }.schedule.map { s with userCursor }.weightOf).sum ≤
        u64Max := total.trans_le fits
    have sameWeight : { s with userCursor }.totalWeight = s.totalWeight := by
      rw [weights s fits, weights _ small, total]
    have sameShared : { s with userCursor }.shared nowNanos = s.shared nowNanos :=
      shared_congr rfl
    refine Option.ext fun grant => ?_
    rw [grantAll_granted others small, grantAll_granted distinct fits, sameWeight,
      paying, sameShared]
    rfl

namespace Deployment

/-- Another user with credit and no limits of its own. -/
def freeUploader : UserTraffic :=
  { fastUploader with upload := none, combined := none }

/-- Two users with a stream each share a global rate. -/
def pairInstance : State :=
  { idleInstance with
    globalRate := some thousandBytes
    flows := AList.insert 2 (streamOf secondUser) (AList.singleton 1 (streamOf firstUser))
    traffic := AList.insert secondUser freeUploader (AList.singleton firstUser freeUploader) }

end Deployment

open Deployment in
/-- Two users of one weight are granted the same, whoever goes first. -/
theorem globalShares_orderFree_pair :
    pairInstance.shared 0 = some 65536 ∧
      (pairInstance.schedule.map fun userId =>
        weightedShare 65536 (pairInstance.weightOf userId) pairInstance.totalWeight).sum ≤ 65536 ∧
      (∀ userCursor handle,
        ({ pairInstance with userCursor }.grantAll 0).2.lookup handle =
          (pairInstance.grantAll 0).2.lookup handle) ∧
      ((pairInstance.grantAll 0).2.lookup 1).isSome = true := by
  have distinct : pairInstance.Distinct := fun handle flow _ => rfl
  have fits : (pairInstance.schedule.map pairInstance.weightOf).sum ≤ u64Max := by
    decide +kernel
  have shared : pairInstance.shared 0 = some 65536 := by decide +kernel
  obtain ⟨shares, _, same⟩ := globalShares_orderFree distinct fits 0
  exact ⟨shared, shares 65536 shared, same, by decide +kernel⟩

namespace Deployment

/-- A table of numbered entries. -/
def tabulated {κ α : Type} (key : Nat → κ) (injective : Function.Injective key) (value : Nat → α)
    (count : Nat) : Table κ α where
  entries := (List.range count).map fun index => ⟨key index, value index⟩
  nodupKeys := by
    rw [List.NodupKeys, List.keys, List.map_map]
    exact List.nodup_range.map injective

/-- The name of a user in a crowd. -/
def nameOf (index : Nat) : String :=
  String.ofList (List.replicate index 'a')

theorem nameOf_injective : Function.Injective nameOf := by
  intro first second same
  have lists := String.ofList_injective same
  simpa using congrArg List.length lists

/-- A user of the largest weight. -/
def heavyUser (index : Nat) : UserRecord where
  id := nameOf index
  spec := { spec with weight := 2 ^ 32 - 1 }
  revision := 1
  durableChargedBytes := 0
  uploadBytes := 0
  downloadBytes := 0
  maxObservedUtc := 0

/-- A global bucket with a little more than four gigabytes. -/
def fourGigabytes : TokenBucket where
  rateBytesPerSecond := 1000
  burstBytes := 2 ^ 32 + 1
  tokens := 2 ^ 32 + 1
  lastNanos := 0
  fractional := 0

/-- Many users of the largest weight with credit and a stream each. -/
def crowd (count : Nat) : State :=
  { idleInstance with
    globalRate := some fourGigabytes
    flows := tabulated id Function.injective_id (fun index => streamOf (nameOf index)) count
    traffic := tabulated nameOf nameOf_injective (fun _ => freeUploader) count
    admin := { idleInstance.admin with
      users := tabulated nameOf nameOf_injective heavyUser count } }

theorem crowd_schedule (count : Nat) :
    (crowd count).schedule.Perm ((List.range count).map nameOf) := by
  have streams : (crowd count).flows.values =
      (List.range count).map fun index => streamOf (nameOf index) := by
    simp [crowd, tabulated, Table.values]
  have datagrams : (crowd count).datagramFlows.values = [] := rfl
  have names : (List.range count).filterMap (PolicyFlow.userId ∘ fun index =>
      streamOf (nameOf index)) = (List.range count).map nameOf := by
    rw [← filterMap_eq_map]
    rfl
  have users : (crowd count).activeUsers = (List.range count).map nameOf := by
    rw [activeUsers, streams, datagrams, filterMap_nil, append_nil,
      filterMap_map, names]
    exact (nodup_range.map nameOf_injective).dedup
  exact users ▸ schedule_perm (crowd count)

theorem tabulated_lookup {κ α : Type} [DecidableEq κ] {key : Nat → κ}
    (injective : Function.Injective key) (value : Nat → α) {count index : Nat}
    (there : index ∈ List.range count) :
    (tabulated key injective value count).lookup (key index) = some (value index) := by
  rw [AList.lookup, ← mem_def, mem_dlookup_iff (AList.nodupKeys _)]
  exact mem_map.mpr ⟨index, there, rfl⟩

section Crowd

variable {count : Nat} {userId : String}

theorem crowd_user (scheduled : userId ∈ (crowd count).schedule) :
    (crowd count).turnTraffic userId = some freeUploader ∧
      (crowd count).weightOf userId = 2 ^ 32 - 1 := by
  obtain ⟨index, there, rfl⟩ := mem_map.mp ((crowd_schedule count).mem_iff.mp scheduled)
  constructor
  · have found : (crowd count).traffic.lookup (nameOf index) = some freeUploader :=
      tabulated_lookup nameOf_injective _ there
    rw [turnTraffic, found]
    rfl
  · have found : (crowd count).admin.users.lookup (nameOf index) = some (heavyUser index) :=
      tabulated_lookup nameOf_injective _ there
    rw [weightOf, found]
    rfl

theorem crowd_weights (count : Nat) :
    (crowd count).schedule.map (crowd count).weightOf = List.replicate count (2 ^ 32 - 1) := by
  rw [eq_replicate_iff]
  refine ⟨by simp [(crowd_schedule count).length_eq], fun weight member => ?_⟩
  obtain ⟨userId, scheduled, rfl⟩ := mem_map.mp member
  exact (crowd_user scheduled).2

theorem crowd_total (many : u64Max ≤ count * (2 ^ 32 - 1)) :
    (crowd count).totalWeight = u64Max := by
  rw [totalWeight, crowd_weights, foldl_saturatingAdd _ _ (Nat.zero_le _),
    sum_replicate_nat, Nat.zero_add]
  exact Nat.min_eq_right many

theorem crowd_shared (count : Nat) : (crowd count).shared 0 = some (2 ^ 32 + 1) := by
  have looked : fourGigabytes.available 0 = .ok (2 ^ 32 + 1, fourGigabytes) := by decide
  have present : (crowd count).globalRate = some fourGigabytes := rfl
  simp only [shared, surveyGlobal, present, looked]

/-- With the weights cut off, every user has a budget of one byte. -/
theorem crowd_budget (scheduled : userId ∈ (crowd count).schedule) :
    (crowd count).turnBudget u64Max (some (2 ^ 32 + 1)) userId freeUploader = 1 := by
  have work : (crowd count).turnWork userId = options.sniffBytes := rfl
  have none_yet : (crowd count).userDeficit.lookup userId = none := rfl
  simp only [turnBudget, turnDeficit, turnShare, (crowd_user scheduled).2, work,
    none_yet]
  decide

/-- A full bucket from which some tokens were taken. -/
def lessBytes (count : Nat) : TokenBucket :=
  { fourGigabytes with tokens := 2 ^ 32 + 1 - count }

theorem lessBytes_current (taken : Nat) : (lessBytes taken).Current 0 := by
  have word : 2 ^ 32 + 1 ≤ u64Max := by decide
  have less : 2 ^ 32 + 1 - taken ≤ 2 ^ 32 + 1 := Nat.sub_le _ _
  exact ⟨rfl, by simp [lessBytes, fourGigabytes], less, less.trans word⟩

/-- A user whose turn comes while there are tokens takes one of them. -/
theorem crowd_turn {s : State} {grants : Table Nat RateGrant} {taken : Nat}
    (scheduled : userId ∈ (crowd count).schedule) (same : State.SameTurn userId (crowd count) s)
    (held : s.globalRate = some (lessBytes taken)) (few : taken < 2 ^ 32 + 1) :
    (State.grantTurn 0 u64Max (some (2 ^ 32 + 1)) (s, grants) userId).1.globalRate =
      some (lessBytes (taken + 1)) := by
  have found := same.turnTraffic.trans (crowd_user scheduled).1
  have budget := (same.turnBudget u64Max (some (2 ^ 32 + 1)) freeUploader).trans
    (crowd_budget scheduled)
  have covers : (s.beginTurn userId).Covers 0 1 := by
    intro bucket present
    cases held.symm.trans present
    refine ⟨lessBytes_current taken, ?_⟩
    simp only [lessBytes]
    omega
  have paid := covers.takeGlobal (Nat.le_refl 1)
  have granted : (takeRateGrant freeUploader 1 0).2 = .ok ⟨1, 1, 1, 1⟩ := by decide
  rw [grantTurn_of_some found, budget]
  dsimp only
  rw [paid]
  dsimp only
  rw [granted]
  -- The grant is the whole budget, so nothing goes back into the bucket.
  have before : (s.beginTurn userId).globalRate = some (lessBytes taken) := held
  simp only [before, spendTokens, map_some, refund, spend,
    lessBytes, fourGigabytes, saturatingAdd, Nat.sub_self, Nat.add_zero, Option.some.injEq,
    TokenBucket.mk.injEq, true_and, and_true]
  have word : 2 ^ 32 + 1 ≤ u64Max := by decide
  omega

theorem crowd_empty {s : State} (held : s.globalRate = some (lessBytes (2 ^ 32 + 1))) :
    ((s.beginTurn userId).takeGlobal 1 0).1 = 0 := by
  have bucket : (s.beginTurn userId).globalRate = some (lessBytes (2 ^ 32 + 1)) := held
  have full : refillTokens (some (lessBytes (2 ^ 32 + 1))) 0 =
      .ok (some (lessBytes (2 ^ 32 + 1))) := by
    simp only [refillTokens, (lessBytes_current _).refill, Except.map]
  rw [takeGlobal_eq, bucket, full]
  simp [grantedBy, lessBytes]

/-- As long as there are tokens, each user of the crowd takes one. -/
theorem crowd_spent {served rest : List String} (nodup : (served ++ rest).Nodup)
    (users : ∀ userId ∈ served ++ rest, userId ∈ (crowd count).schedule)
    (few : served.length ≤ 2 ^ 32 + 1) :
    let reached := (served.foldl (State.grantTurn 0 u64Max (some (2 ^ 32 + 1)))
      ((crowd count).opened 0, ∅)).1
    (∀ userId ∈ rest, State.SameTurn userId (crowd count) reached) ∧
      reached.globalRate = some (lessBytes served.length) := by
  -- By induction on the users that were served, from the last one.
  induction served using List.reverseRecOn generalizing rest with
  | nil =>
    have looked : fourGigabytes.available 0 = .ok (2 ^ 32 + 1, fourGigabytes) := by decide
    have present : (crowd count).globalRate = some fourGigabytes := rfl
    obtain ⟨_, userCursor, opened⟩ := (crowd count).surveyGlobal_turnSchedule 0
    rw [foldl_nil, opened]
    simp only [surveyGlobal, present, looked]
    exact ⟨fun _ _ => ⟨rfl, rfl, rfl, rfl, rfl, rfl, rfl⟩, rfl⟩
  | append_singleton served userId ih =>
    rw [length_append, length_singleton] at few ⊢
    rw [append_assoc, singleton_append] at nodup users
    obtain ⟨same, held⟩ := ih nodup users (by omega)
    have scheduled := users userId (by simp)
    have here := same userId mem_cons_self
    rw [foldl_append, foldl_cons, foldl_nil]
    refine ⟨fun other member => ?_, crowd_turn scheduled here held (by omega)⟩
    have apart : other ≠ userId := by
      rintro rfl
      exact (nodup_cons.mp nodup.of_append_right).1 member
    exact (same other (mem_cons_of_mem _ member)).trans
      (grantTurn_others _ _ _ _ _ apart)

/-- A user whose turn comes after all tokens are taken asks for one more. -/
theorem crowd_starved {served rest : List String}
    (split : (crowd count).schedule = served ++ userId :: rest)
    (long : served.length = 2 ^ 32 + 1) :
    let reached := (served.foldl (State.grantTurn 0 u64Max (some (2 ^ 32 + 1)))
      ((crowd count).opened 0, ∅)).1
    reached.turnTraffic userId = some freeUploader ∧
      reached.turnBudget u64Max (some (2 ^ 32 + 1)) userId freeUploader = 1 ∧
      ((reached.beginTurn userId).takeGlobal 1 0).1 = 0 := by
  obtain ⟨same, held⟩ := crowd_spent (split ▸ (crowd count).schedule_spec.1)
    (fun userId member => by rwa [split]) (Nat.le_of_eq long)
  have scheduled : userId ∈ (crowd count).schedule := by
    rw [split]
    simp
  have here := same userId mem_cons_self
  rw [long] at held
  exact ⟨here.turnTraffic.trans (crowd_user scheduled).1,
    (here.turnBudget _ _ _).trans (crowd_budget scheduled), crowd_empty held⟩

end Crowd

end Deployment

open Deployment

/--
Eight billion users of the largest weight: weights are cut off, and the shares too large.
When all tokens are taken, the next user asks for its share and gets nothing.
-/
theorem globalShares_exceed :
    let s := crowd (2 ^ 33)
    s.shared 0 = some (2 ^ 32 + 1) ∧
      2 ^ 32 + 1 < (s.schedule.map fun userId =>
        weightedShare (2 ^ 32 + 1) (s.weightOf userId) s.totalWeight).sum ∧
      ∃ served userId rest, s.schedule = served ++ userId :: rest ∧
        let reached := (served.foldl (State.grantTurn 0 s.totalWeight (s.shared 0))
          (s.opened 0, ∅)).1
        reached.turnTraffic userId = some freeUploader ∧
          reached.turnBudget s.totalWeight (s.shared 0) userId freeUploader = 1 ∧
          ((reached.beginTurn userId).takeGlobal 1 0).1 = 0 := by
  intro s
  have total : s.totalWeight = u64Max := crowd_total (by decide)
  have shared : s.shared 0 = some (2 ^ 32 + 1) := crowd_shared _
  refine ⟨shared, ?_, ?_⟩
  · have whole : weightedShare (2 ^ 32 + 1) (2 ^ 32 - 1) u64Max = 1 := by decide
    have each : (s.schedule.map fun userId =>
        weightedShare (2 ^ 32 + 1) (s.weightOf userId) s.totalWeight) =
        (s.schedule.map s.weightOf).map fun weight =>
          weightedShare (2 ^ 32 + 1) weight u64Max := by
      rw [total, List.map_map]
      rfl
    rw [each, crowd_weights, map_replicate, whole, sum_replicate_nat, Nat.mul_one]
    decide
  · -- The schedule is cut where the tokens are gone.
    have long : s.schedule.length = 2 ^ 33 := by
      rw [(crowd_schedule _).length_eq, length_map, length_range]
    obtain ⟨userId, rest, behind⟩ : ∃ userId rest,
        s.schedule.drop (2 ^ 32 + 1) = userId :: rest := by
      refine exists_cons_of_length_pos ?_
      rw [length_drop, long]
      decide
    have split : s.schedule = s.schedule.take (2 ^ 32 + 1) ++ userId :: rest := by
      rw [← behind, take_append_drop]
    have short : (s.schedule.take (2 ^ 32 + 1)).length = 2 ^ 32 + 1 := by
      rw [length_take, long]
      decide
    refine ⟨_, userId, rest, split, ?_⟩
    rw [total, shared]
    exact crowd_starved split short

end Snolc.Policy
