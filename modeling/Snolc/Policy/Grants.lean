import Snolc.Policy.Buckets
import Snolc.Policy.Calls
import Snolc.Policy.Forwarding

/-! What the turn of a user takes out of the token buckets, and what it costs when it fails. -/

namespace Snolc.Policy

namespace TokenBucket

/-- A bucket that was refilled at a time. -/
structure Current (nowNanos : Nat) (bucket : TokenBucket) : Prop where
  refilled : bucket.lastNanos = nowNanos
  carried : bucket.fractional < 1000000000
  within : bucket.tokens ≤ bucket.burstBytes
  word : bucket.tokens ≤ u64Max

/-- A bucket without some of its tokens. -/
def spend (bucket : TokenBucket) (count : Nat) : TokenBucket :=
  { bucket with tokens := bucket.tokens - count }

section Current

variable {nowNanos : Nat} {bucket next : TokenBucket}

theorem current_of_refill (ok : bucket.refill nowNanos = .ok next) : next.Current nowNanos := by
  obtain ⟨_, _, rfl⟩ := refill_eq_ok.mp ok
  refine ⟨rfl, Nat.mod_lt _ (by decide), Nat.min_le_right _ _, ?_⟩
  exact (Nat.min_le_left _ _).trans (Nat.min_le_right _ _)

variable (current : bucket.Current nowNanos)
include current

theorem Current.refill : bucket.refill nowNanos = .ok bucket := by
  have carried := current.carried
  have produced : bucket.produced nowNanos = bucket.fractional := by
    rw [TokenBucket.produced, current.refilled, Nat.sub_self, Nat.zero_mul, Nat.zero_add]
  rw [refill_eq_ok, produced]
  refine ⟨current.refilled.le, ?_, ?_⟩
  · unfold u64Max
    omega
  · -- Less than a token was carried, so none is added.
    have none_ : bucket.fractional / 1000000000 = 0 := Nat.div_eq_of_lt carried
    have full : min (saturatingAdd bucket.tokens 0) bucket.burstBytes = bucket.tokens := by
      have word := current.word
      have within := current.within
      unfold saturatingAdd
      omega
    rw [none_, full, Nat.mod_eq_of_lt carried, ← current.refilled]

theorem Current.spend (count : Nat) : (bucket.spend count).Current nowNanos :=
  ⟨current.refilled, current.carried, (Nat.sub_le _ _).trans current.within,
    (Nat.sub_le _ _).trans current.word⟩

theorem Current.refund (count : Nat) : (bucket.refund count).Current nowNanos :=
  ⟨current.refilled, current.carried, Nat.min_le_right _ _,
    (Nat.min_le_left _ _).trans (Nat.min_le_right _ _)⟩

end Current

end TokenBucket

variable (bucket : Option TokenBucket) (nowNanos : Nat)

/-- A bucket, where there is one, brought up to a time. -/
def refillTokens : Except QuotaError (Option TokenBucket) :=
  match bucket with
  | none => .ok none
  | some bucket => (bucket.refill nowNanos).map some

/-- What a request is granted by a bucket, or in full where there is none. -/
def grantedBy (requested : Nat) : Nat :=
  match bucket with
  | none => requested
  | some bucket => min requested bucket.tokens

/-- A bucket, where there is one, without some of its tokens. -/
def spendTokens (count : Nat) : Option TokenBucket :=
  bucket.map (·.spend count)

theorem takeTokens_eq (requested nowNanos : Nat) : takeTokens bucket requested nowNanos =
      (refillTokens bucket nowNanos).map fun full =>
        (grantedBy full requested, spendTokens full (grantedBy full requested)) := by
  cases bucket with
  | none => rfl
  | some bucket =>
    simp only [takeTokens, refillTokens, TokenBucket.take]
    cases bucket.refill nowNanos <;> rfl

/-- A bucket is as it was, up to a refill. -/
def Kept (old new : Option TokenBucket) : Prop :=
  new = old ∨ refillTokens old nowNanos = .ok new

instance (old new : Option TokenBucket) : Decidable (Kept nowNanos old new) :=
  inferInstanceAs (Decidable (_ ∨ _))

/-- The tokens that a request takes out of a bucket. -/
def lostTo (requested : Nat) : Nat :=
  match bucket with
  | none => 0
  | some bucket => min requested bucket.tokens

/-- Taking tokens leaves a bucket as it was exactly when there were none to take. -/
theorem kept_spend_iff {nowNanos requested : Nat} {old full : Option TokenBucket}
    (refilled : refillTokens old nowNanos = .ok full) :
    Kept nowNanos old (spendTokens full (grantedBy full requested)) ↔
      lostTo full requested = 0 := by
  cases old with
  | none =>
    cases refilled
    simp [Kept, spendTokens, lostTo]
  | some bucket =>
    cases done : bucket.refill nowNanos with
    | error => simp [refillTokens, done, Except.map] at refilled
    | ok next =>
      simp only [refillTokens, done, Except.map, Except.ok.injEq] at refilled
      subst refilled
      simp only [Kept, refillTokens, done, Except.map, spendTokens, Option.map_some, lostTo,
        grantedBy, Except.ok.injEq, Option.some.injEq]
      constructor
      · rintro (same | same)
        · -- The old bucket itself was up to date, so the refill has added nothing.
          have current := (TokenBucket.current_of_refill done).spend (min requested next.tokens)
          rw [same] at current
          rw [current.refill, Except.ok.injEq] at done
          subst done
          have tokens := congrArg TokenBucket.tokens same
          simp only [TokenBucket.spend] at tokens
          omega
        · have tokens := congrArg TokenBucket.tokens same
          simp only [TokenBucket.spend] at tokens
          omega
      · intro nothing
        right
        rw [nothing]
        rfl

/--
A grant that fails costs the user nothing: each bucket that is asked before the one that fails has
nothing to give.
-/
def CostsNothing (traffic : UserTraffic) (budget nowNanos : Nat) : Prop :=
  match refillTokens traffic.combined nowNanos with
  | .error _ => True
  | .ok combined =>
    lostTo combined budget = 0 ∧
      match refillTokens traffic.upload nowNanos with
      | .error _ => True
      | .ok upload => lostTo upload (grantedBy combined budget) = 0

/-- The buckets of a user are as they were, up to a refill. -/
def UserTraffic.Keeps (old new : UserTraffic) : Prop :=
  Kept nowNanos old.combined new.combined ∧ Kept nowNanos old.upload new.upload ∧
    Kept nowNanos old.download new.download

instance (old new : UserTraffic) : Decidable (old.Keeps nowNanos new) :=
  inferInstanceAs (Decidable (_ ∧ _))

variable {traffic : UserTraffic}

theorem takeRateGrant_failed {budget nowNanos : Nat} {fault : QuotaError}
    (failed : (takeRateGrant traffic budget nowNanos).2 = .error fault) :
    traffic.Keeps nowNanos (takeRateGrant traffic budget nowNanos).1 ↔
      CostsNothing traffic budget nowNanos := by
  have still (bucket : Option TokenBucket) : Kept nowNanos bucket bucket := .inl rfl
  simp only [takeRateGrant, takeTokens_eq, CostsNothing, UserTraffic.Keeps] at failed ⊢
  -- The first bucket fails: nothing has been taken.
  cases first : refillTokens traffic.combined nowNanos with
  | error => simp [Except.map, still]
  | ok =>
    simp only [first, Except.map] at failed ⊢
    cases second : refillTokens traffic.upload nowNanos with
    | error =>
      -- The second bucket fails: the first one has paid.
      simp [still, kept_spend_iff first]
    | ok =>
      simp only [second] at failed ⊢
      cases third : refillTokens traffic.download nowNanos with
      | error =>
        -- The third bucket fails: the first two have paid.
        simp [still, kept_spend_iff first, kept_spend_iff second]
      | ok => simp [third] at failed

variable (userId : String)

namespace State

variable (state : State)

/-- The bytes that the flow whose turn it is may move at most. -/
def turnWork : Nat :=
  if (state.datagramFlows.lookup (state.selectFlow userId)).isSome then maxUdpPayload
  else state.options.sniffBytes

/-- The deficit of a user once its quantum for the turn is added. -/
def turnDeficit : Nat :=
  saturatingAdd ((state.userDeficit.lookup userId).getD 0)
    (saturatingMul (state.turnWork userId) (state.weightOf userId))

/-- The part of the global tokens that a turn may use. -/
def turnShare (totalWeight : Nat) (available : Option Nat) (userId : String) : Nat :=
  match available with
  | some available => weightedShare available (state.weightOf userId) totalWeight
  | none => u64Max

/-- What a turn asks the buckets for. -/
def turnBudget (totalWeight : Nat) (available : Option Nat) (userId : String)
    (traffic : UserTraffic) : Nat :=
  min (min (min traffic.quota.creditRemaining (state.turnWork userId))
    (state.turnDeficit userId)) (state.turnShare totalWeight available userId)

def turnTraffic : Option UserTraffic :=
  (state.traffic.lookup userId).filter fun traffic =>
    traffic.debit.isNone && traffic.refund.isNone && !traffic.failed

/-- The state after the cursor of a user has moved and its deficit has grown. -/
def beginTurn : State :=
  { state.advanceCursor userId with
    userDeficit := state.userDeficit.insert userId (state.turnDeficit userId) }

variable {s : State} {userId : String} {nowNanos totalWeight : Nat} {available : Option Nat}
  {grants : Table Nat RateGrant}

theorem grantTurn_of_none (absent : s.turnTraffic userId = none) :
    grantTurn nowNanos totalWeight available (s, grants) userId =
      (s.advanceCursor userId, grants) := by
  unfold grantTurn
  dsimp only
  cases found : s.traffic.lookup userId with
  | none =>
    have same : (s.advanceCursor userId).traffic.lookup userId = none := found
    simp only [same]
  | some traffic =>
    have same : (s.advanceCursor userId).traffic.lookup userId = some traffic := found
    have waiting : traffic.debit.isSome = true ∨ traffic.refund.isSome = true ∨
        traffic.failed = true := by
      rw [turnTraffic, found] at absent
      cases debit : traffic.debit <;> cases refund : traffic.refund <;> simp_all
    simp only [same, if_pos waiting]

theorem grantTurn_of_some (found : s.turnTraffic userId = some traffic) :
    grantTurn nowNanos totalWeight available (s, grants) userId =
      let budget := s.turnBudget totalWeight available userId traffic
      let taken := (s.beginTurn userId).takeGlobal budget nowNanos
      let granted := takeRateGrant traffic taken.1 nowNanos
      match granted.2 with
      | .error _ => (taken.2.setTraffic userId granted.1, grants)
      | .ok grant =>
        ({ taken.2.setTraffic userId granted.1 with
            globalRate := taken.2.globalRate.map (·.refund (taken.1 - grant.combined)) },
          grants.insert (s.selectFlow userId) { grant with global := grant.combined }) := by
  obtain ⟨there, idle⟩ := Option.filter_eq_some_iff.mp found
  have same : (s.advanceCursor userId).traffic.lookup userId = some traffic := there
  have free : ¬ (traffic.debit.isSome = true ∨ traffic.refund.isSome = true ∨
      traffic.failed = true) := by
    cases debit : traffic.debit <;> cases refund : traffic.refund <;> simp_all
  unfold grantTurn
  simp only [same, if_neg free]
  rfl

theorem takeGlobal_eq (s : State) (budget nowNanos : Nat) :
    s.takeGlobal budget nowNanos =
      match refillTokens s.globalRate nowNanos with
      | .ok full =>
        (grantedBy full budget, { s with globalRate := spendTokens full (grantedBy full budget) })
      | .error _ => (0, s) := by
  rw [takeGlobal, takeTokens_eq]
  cases refillTokens s.globalRate nowNanos <;> rfl

end State

/--
When the grant of a user fails, its own buckets are as they were exactly when those that were asked
before the one that fails had nothing to give.

The global bucket is as it was exactly when it had nothing to give to the user either.
-/
theorem failedGrant_costs {budget nowNanos : Nat} {fault : QuotaError}
    (failed : (takeRateGrant traffic budget nowNanos).2 = .error fault) :
    (traffic.Keeps nowNanos (takeRateGrant traffic budget nowNanos).1 ↔
        CostsNothing traffic budget nowNanos) ∧
      ∀ (s : State) (totalWeight : Nat) (available : Option Nat) (grants : Table Nat RateGrant)
        (userId : String), s.turnTraffic userId = some traffic →
        ((s.beginTurn userId).takeGlobal
          (s.turnBudget totalWeight available userId traffic) nowNanos).1 = budget →
        let next := (State.grantTurn nowNanos totalWeight available (s, grants) userId).1
        next.traffic.lookup userId = some (takeRateGrant traffic budget nowNanos).1 ∧
          (Kept nowNanos s.globalRate next.globalRate ↔
            ∀ full, refillTokens s.globalRate nowNanos = .ok full →
              lostTo full (s.turnBudget totalWeight available userId traffic) = 0) := by
  refine ⟨takeRateGrant_failed failed, ?_⟩
  intro s totalWeight available grants userId found same next
  have turned : next = ((s.beginTurn userId).takeGlobal
      (s.turnBudget totalWeight available userId traffic) nowNanos).2.setTraffic userId
        (takeRateGrant traffic budget nowNanos).1 := by
    simp only [next, State.grantTurn_of_some found, same, failed]
  rw [turned, State.takeGlobal_eq]
  refine ⟨AList.lookup_insert _, ?_⟩
  -- The turn has not touched the global bucket before it asks it.
  have before : (s.beginTurn userId).globalRate = s.globalRate := rfl
  rw [before]
  cases refilled : refillTokens s.globalRate nowNanos with
  | error =>
    simp only [State.setTraffic, before]
    exact ⟨fun _ full wrong => (by cases wrong), fun _ => .inl rfl⟩
  | ok =>
    simp only [State.setTraffic, Except.ok.injEq, forall_eq']
    exact kept_spend_iff refilled

namespace Deployment

/-- An instance that does nothing yet. -/
def idleInstance : State where
  started := 0
  shuttingDown := false
  maintenance := false
  globalRate := none
  userDeficit := ∅
  userCursor := 0
  options := options
  storage := .start ∅ 64
  admin := ⟨⟨16, ∅⟩, ∅, ∅, ∅, ∅, ∅⟩
  pendingControl := none
  clientCredential := none
  sessions := ∅
  flows := ∅
  datagramFlows := ∅
  traffic := ∅
  flowCursor := ∅
  sessionNext := 1
  flowNext := 1

/-- A stream of a user with no rules to wait for. -/
def streamOf : PolicyFlow where
  session := 1
  userId := some userId
  credentialDigest := none
  sniff := none
  prefixOffset := 0

def thousandBytes : TokenBucket where
  rateBytesPerSecond := 1000
  burstBytes := 65536
  tokens := 65536
  lastNanos := 0
  fractional := 0

/-- A user with credit whose uploads may take ten gigabits a second, all in all a thousand bytes. -/
def fastUploader : UserTraffic where
  quota := ⟨none, 1048576, 1048576, 1048576, false, false⟩
  upload := some tenGigabit
  download := none
  combined := some thousandBytes
  debit := none
  refund := none
  failed := false
  checkpointAt := 0

/-- The user has one stream, and shares a global rate. -/
def sharedInstance : State :=
  { idleInstance with
    globalRate := some thousandBytes
    flows := AList.singleton 1 (streamOf firstUser)
    traffic := AList.singleton firstUser fastUploader }

end Deployment

open Deployment

/-- Without a budget, a grant that fails costs nothing. -/
theorem failedGrant_costs_empty :
    (takeRateGrant fastUploader 0 15000000000).2 = .error .overflow ∧
      fastUploader.Keeps 15000000000 (takeRateGrant fastUploader 0 15000000000).1 := by
  have failed : (takeRateGrant fastUploader 0 15000000000).2 = .error .overflow := by decide
  exact ⟨failed, (failedGrant_costs failed).1.mpr ⟨rfl, trivial⟩⟩

/-- After fifteen idle seconds a failed grant takes the tokens of the user and of everybody. -/
theorem failedGrant_drains :
    let nowNanos := 15000000000
    let budget := sharedInstance.turnBudget 1 (some 65536) firstUser fastUploader
    let next := (State.grantTurn nowNanos 1 (some 65536) (sharedInstance, ∅) firstUser).1
    budget = 16384 ∧ (takeRateGrant fastUploader budget nowNanos).2 = .error .overflow ∧
      ((next.traffic.lookup firstUser).bind (·.combined)).map (·.tokens) = some (65536 - 16384) ∧
      next.globalRate.map (·.tokens) = some (65536 - 16384) ∧
      ¬ fastUploader.Keeps nowNanos (takeRateGrant fastUploader budget nowNanos).1 ∧
      ¬ Kept nowNanos sharedInstance.globalRate next.globalRate := by
  decide +kernel

end Snolc.Policy
