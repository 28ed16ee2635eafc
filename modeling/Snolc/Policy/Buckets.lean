import Mathlib.Data.List.Chain
import Snolc.Policy.Accounting

/-! Token buckets over a sequence of calls: when a call is answered, and when it never is again. -/

namespace Snolc.Policy

/-- A call of a token bucket. -/
inductive BucketCall
  | take (requested nowNanos : Nat)
  | available (nowNanos : Nat)
  | refund (bytes : Nat)
  deriving DecidableEq, Repr

def BucketCall.time : BucketCall → Option Nat
  | take _ nowNanos => some nowNanos
  | available nowNanos => some nowNanos
  | refund _ => none

variable {burst bytes wait nowNanos : Nat}

namespace TokenBucket

/-- One call, with the bucket it leaves. -/
def call (bucket : TokenBucket) : BucketCall → Except QuotaError (Nat × TokenBucket)
  | .take requested nowNanos => bucket.take requested nowNanos
  | .available nowNanos => bucket.available nowNanos
  | .refund bytes => .ok (0, bucket.refund bytes)

/-- The bucket after calls one after another; a call that fails leaves it alone. -/
def after : TokenBucket → List BucketCall → TokenBucket
  | bucket, [] => bucket
  | bucket, call :: calls =>
    match bucket.call call with
    | .ok (_, next) => next.after calls
    | .error _ => bucket.after calls

/-- What a bucket produces between two times fits the word, with the remainder it carries. -/
def GapFits (rate start earlier later : Nat) : Prop :=
  (later - earlier) * rate + (earlier - start) * rate % 1000000000 ≤ u64Max

instance (rate start earlier later : Nat) : Decidable (GapFits rate start earlier later) :=
  inferInstanceAs (Decidable (_ ≤ _))

/-- A bucket that was refilled last at a time, with the remainder of all it has produced. -/
structure At (rate start last : Nat) (bucket : TokenBucket) : Prop where
  steady : bucket.rateBytesPerSecond = rate
  refilled : bucket.lastNanos = last
  carried : bucket.fractional = (last - start) * rate % 1000000000

variable {rate start last nowNanos : Nat} {bucket next : TokenBucket}

/-- What a bucket produces up to a time, in billionths, with the remainder it carries. -/
def produced (bucket : TokenBucket) (nowNanos : Nat) : Nat :=
  (nowNanos - bucket.lastNanos) * bucket.rateBytesPerSecond + bucket.fractional

theorem refill_overflow (later : bucket.lastNanos ≤ nowNanos)
    (large : ¬ bucket.produced nowNanos ≤ u64Max) :
    bucket.refill nowNanos = .error .overflow := by
  have sum : (checkedMul (nowNanos - bucket.lastNanos) bucket.rateBytesPerSecond).bind
      (checkedAdd · bucket.fractional) = none := by
    rw [checkedMul]
    split
    · exact if_neg large
    · rfl
  simp only [TokenBucket.refill, if_neg (Nat.not_lt.mpr later), sum]

theorem refill_fits (later : bucket.lastNanos ≤ nowNanos)
    (fits : bucket.produced nowNanos ≤ u64Max) :
    bucket.refill nowNanos = .ok
      { bucket with
        fractional := bucket.produced nowNanos % 1000000000
        tokens := min (saturatingAdd bucket.tokens (bucket.produced nowNanos / 1000000000))
          bucket.burstBytes
        lastNanos := nowNanos } := by
  -- The product alone is no larger than the sum that fits.
  have product : (nowNanos - bucket.lastNanos) * bucket.rateBytesPerSecond ≤ u64Max :=
    Nat.le_trans (Nat.le_add_right _ _) fits
  have sum : (checkedMul (nowNanos - bucket.lastNanos) bucket.rateBytesPerSecond).bind
      (checkedAdd · bucket.fractional) = some (bucket.produced nowNanos) := by
    rw [checkedMul, if_pos product, Option.bind_some, checkedAdd]
    exact if_pos fits
  simp only [TokenBucket.refill, if_neg (Nat.not_lt.mpr later), sum]

theorem refill_eq_ok :
    bucket.refill nowNanos = .ok next ↔
      bucket.lastNanos ≤ nowNanos ∧ bucket.produced nowNanos ≤ u64Max ∧
        next =
          { bucket with
            fractional := bucket.produced nowNanos % 1000000000
            tokens := min (saturatingAdd bucket.tokens (bucket.produced nowNanos / 1000000000))
              bucket.burstBytes
            lastNanos := nowNanos } := by
  by_cases later : bucket.lastNanos ≤ nowNanos
  · by_cases fits : bucket.produced nowNanos ≤ u64Max
    · rw [refill_fits later fits, Except.ok.injEq]
      simp only [later, fits, true_and]
      exact eq_comm
    · rw [refill_overflow later fits]
      simp [fits]
  · rw [TokenBucket.refill, if_pos (Nat.lt_of_not_le later)]
    simp [later]

theorem At.new (made : TokenBucket.new rate burst start = .ok bucket) :
    bucket.At rate start start := by
  unfold TokenBucket.new at made
  split at made
  · cases made
  · cases made
    exact ⟨rfl, rfl, by simp⟩

section

variable (here : bucket.At rate start last)
include here

theorem At.produced : bucket.produced nowNanos =
      (nowNanos - last) * rate + (last - start) * rate % 1000000000 := by
  rw [TokenBucket.produced, here.refilled, here.steady, here.carried]

theorem At.refill (began : start ≤ last) (ok : bucket.refill nowNanos = .ok next) :
    last ≤ nowNanos ∧ next.At rate start nowNanos := by
  obtain ⟨later, _, rfl⟩ := refill_eq_ok.mp ok
  rw [here.refilled] at later
  refine ⟨later, here.steady, rfl, ?_⟩
  -- What is carried on is the remainder of everything since the start.
  have whole : (nowNanos - start) * rate = (nowNanos - last) * rate + (last - start) * rate := by
    rw [← Nat.add_mul]
    congr 1
    omega
  dsimp only
  rw [here.produced, whole, Nat.add_mod_mod]

theorem refill_of_fits (began : start ≤ last)
    (later : last ≤ nowNanos) (fits : GapFits rate start last nowNanos) :
    ∃ next, bucket.refill nowNanos = .ok next ∧ next.At rate start nowNanos := by
  rw [GapFits, ← here.produced] at fits
  have refilled := refill_eq_ok.mpr ⟨by rw [here.refilled]; exact later, fits, rfl⟩
  exact ⟨_, refilled, (here.refill began refilled).2⟩

theorem refill_of_not_fits (later : last ≤ nowNanos)
    (large : ¬ GapFits rate start last nowNanos) : bucket.refill nowNanos = .error .overflow := by
  rw [GapFits, ← here.produced] at large
  exact refill_overflow (by rw [here.refilled]; exact later) large

end

theorem not_gapFits_of_le {time : Nat} (large : ¬ GapFits rate start last nowNanos)
    (later : nowNanos ≤ time) : ¬ GapFits rate start last time := by
  intro fits
  have grows : (nowNanos - last) * rate ≤ (time - last) * rate :=
    Nat.mul_le_mul_right rate (by omega)
  exact large (Nat.le_trans (Nat.add_le_add_right grows _) fits)

section

variable (here : bucket.At rate start last)
include here

theorem At.setTokens (tokens : Nat) : TokenBucket.At rate start last { bucket with tokens } :=
  ⟨here.steady, here.refilled, here.carried⟩

/-- A call that names a time is answered exactly when the production since the last one fits. -/
theorem call_at {call : BucketCall} (began : start ≤ last)
    (named : call.time = some nowNanos) (later : last ≤ nowNanos) :
    if GapFits rate start last nowNanos then
      ∃ value next, bucket.call call = .ok (value, next) ∧ next.At rate start nowNanos
    else bucket.call call = .error .overflow := by
  split
  · next fits =>
    obtain ⟨next, refilled, there⟩ := refill_of_fits here began later fits
    cases call with
    | take requested =>
      cases named
      refine ⟨min requested next.tokens, _, ?_,
        there.setTokens (next.tokens - min requested next.tokens)⟩
      simp only [TokenBucket.call, TokenBucket.take, refilled]
      rfl
    | available =>
      cases named
      refine ⟨next.tokens, next, ?_, there⟩
      simp only [TokenBucket.call, TokenBucket.available, refilled]
      rfl
    | refund => cases named
  · next large =>
    have refused := refill_of_not_fits here later large
    cases call with
    | take =>
      cases named
      simp only [TokenBucket.call, TokenBucket.take, refused]
      rfl
    | available =>
      cases named
      simp only [TokenBucket.call, TokenBucket.available, refused]
      rfl
    | refund => cases named

theorem At.timed {call : BucketCall} {answer : Nat}
    (began : start ≤ last) (named : call.time = some nowNanos)
    (ok : bucket.call call = .ok (answer, next)) :
    last ≤ nowNanos ∧ next.At rate start nowNanos := by
  cases call with
  | take =>
    cases named
    simp only [TokenBucket.call, TokenBucket.take] at ok
    obtain ⟨full, refilled, ok⟩ := bind_ok ok
    cases ok
    obtain ⟨later, there⟩ := here.refill began refilled
    exact ⟨later, there.setTokens _⟩
  | available =>
    cases named
    simp only [TokenBucket.call, TokenBucket.available] at ok
    obtain ⟨full, refilled, ok⟩ := bind_ok ok
    cases ok
    exact here.refill began refilled
  | refund => cases named

theorem call_untimed {call : BucketCall} (unnamed : call.time = none) :
    ∃ value next, bucket.call call = .ok (value, next) ∧ next.At rate start last := by
  cases call with
  | take | available => cases unnamed
  | refund => exact ⟨0, _, rfl, here.setTokens _⟩

theorem after_stuck {calls : List BucketCall}
    (began : start ≤ last) (later : last ≤ nowNanos) (large : ¬ GapFits rate start last nowNanos)
    (ordered : ∀ time ∈ calls.filterMap BucketCall.time, nowNanos ≤ time) :
    (bucket.after calls).At rate start last := by
  induction calls generalizing bucket with
  | nil => exact here
  | cons first calls ih =>
    cases timed : first.time with
    | none =>
      simp only [List.filterMap_cons, timed] at ordered
      obtain ⟨value, next, called, there⟩ := call_untimed here timed
      simp only [after, called]
      exact ih there ordered
    | some time =>
      simp only [List.filterMap_cons, timed, List.forall_mem_cons] at ordered
      obtain ⟨past, ordered⟩ := ordered
      -- The gap to the last time only grows.
      have refused := call_at here began timed (Nat.le_trans later past)
      rw [if_neg (not_gapFits_of_le large past)] at refused
      simp only [after, refused]
      exact ih here ordered

/-- After calls at ever later times, a call is answered exactly when every gap up to it fits. -/
theorem call_after {calls : List BucketCall} {call : BucketCall}
    (began : start ≤ last) (named : call.time = some nowNanos)
    (ordered : (last :: (calls.filterMap BucketCall.time ++ [nowNanos])).Pairwise (· ≤ ·)) :
    (last :: (calls.filterMap BucketCall.time ++ [nowNanos])).IsChain (GapFits rate start) ∧
        (∃ value next, (bucket.after calls).call call = .ok (value, next)) ∨
      ¬ (last :: (calls.filterMap BucketCall.time ++ [nowNanos])).IsChain (GapFits rate start) ∧
        (bucket.after calls).call call = .error .overflow := by
  -- The induction is on the calls; each one that is answered moves the bucket to its time.
  induction calls generalizing bucket last with
  | nil =>
    simp only [List.filterMap_nil, List.nil_append, List.pairwise_pair] at ordered
    simp only [List.filterMap_nil, List.nil_append, List.isChain_pair, after]
    have answered := call_at here began named ordered
    split at answered
    · next fits =>
      obtain ⟨value, next, called, _⟩ := answered
      exact .inl ⟨fits, value, next, called⟩
    · next large => exact .inr ⟨large, answered⟩
  | cons first calls ih =>
    cases timed : first.time with
    | none =>
      simp only [List.filterMap_cons, timed] at ordered ⊢
      obtain ⟨value, next, called, there⟩ := call_untimed here timed
      simp only [after, called]
      exact ih there began ordered
    | some time =>
      simp only [List.filterMap_cons, timed, List.cons_append] at ordered ⊢
      obtain ⟨least, ordered⟩ := List.pairwise_cons.mp ordered
      have later : last ≤ time := least time (by simp)
      have answered := call_at here began timed later
      rw [List.isChain_cons_cons]
      by_cases fits : GapFits rate start last time
      · rw [if_pos fits] at answered
        obtain ⟨value, next, called, there⟩ := answered
        simp only [after, called, fits, true_and]
        exact ih there (Nat.le_trans began later) ordered
      · -- The first gap that does not fit stops the bucket for good.
        rw [if_neg fits] at answered
        simp only [after, answered, fits, false_and, not_false_eq_true, true_and, false_or]
        obtain ⟨least, _⟩ := List.pairwise_cons.mp ordered
        have stuck : (bucket.after calls).At rate start last :=
          after_stuck here began later fits fun other member => least other (by simp [member])
        have past : time ≤ nowNanos := least nowNanos (by simp)
        have refused := call_at stuck began named (Nat.le_trans later past)
        rwa [if_neg (not_gapFits_of_le fits past)] at refused

end

/-- A wait is rounded up: at the rate it produces all that is missing, and none is none. -/
theorem nanosUntil_ok (rated : bucket.rateBytesPerSecond ≠ 0)
    (ok : bucket.nanosUntil bytes nowNanos = (.ok wait, next)) : bucket.refill nowNanos = .ok next ∧
      (bytes - next.tokens) * 1000000000 ≤ wait * next.rateBytesPerSecond ∧
      (wait = 0 → bytes ≤ next.tokens) := by
  unfold nanosUntil at ok
  split at ok
  · cases ok
  next full refilled =>
  split at ok
  · next enough =>
    cases ok
    exact ⟨refilled, by rw [Nat.sub_eq_zero_of_le enough, Nat.zero_mul]; exact Nat.zero_le _,
      fun _ => enough⟩
  next missing =>
  split at ok
  · cases ok
  next rounded sum =>
  cases ok
  obtain ⟨product, first, second⟩ := Option.bind_eq_some_iff.mp sum
  rw [checkedAdd_eq_some second, checkedMul_eq_some first]
  have rate : next.rateBytesPerSecond ≠ 0 := by
    obtain ⟨_, _, rfl⟩ := refill_eq_ok.mp refilled
    exact rated
  -- Rounding up by less than the divisor reaches the dividend.
  have cover : (bytes - next.tokens) * 1000000000 ≤
      ((bytes - next.tokens) * 1000000000 + (next.rateBytesPerSecond - 1)) /
        next.rateBytesPerSecond * next.rateBytesPerSecond := by
    have remainder := Nat.div_add_mod ((bytes - next.tokens) * 1000000000 +
      (next.rateBytesPerSecond - 1)) next.rateBytesPerSecond
    have small := Nat.mod_lt ((bytes - next.tokens) * 1000000000 +
      (next.rateBytesPerSecond - 1)) (Nat.pos_of_ne_zero rate)
    rw [Nat.mul_comm] at remainder
    omega
  refine ⟨refilled, cover, fun none_ => ?_⟩
  rw [none_, Nat.zero_mul] at cover
  omega

end TokenBucket

open TokenBucket

/--
A call of a token bucket is answered exactly when what the bucket produced between any two calls up
to it fits the word.

After the first gap that does not fit, the bucket answers no call that names a time.
-/
theorem bucketCall_answered {rate start : Nat} {bucket : TokenBucket}
    (made : TokenBucket.new rate burst start = .ok bucket) (calls : List BucketCall)
    {call : BucketCall} (named : call.time = some nowNanos)
    (ordered : (start :: (calls.filterMap BucketCall.time ++ [nowNanos])).Pairwise (· ≤ ·)) :
    ((∃ value next, (bucket.after calls).call call = .ok (value, next)) ↔
        (start :: (calls.filterMap BucketCall.time ++ [nowNanos])).IsChain (GapFits rate start)) ∧
      ((bucket.after calls).call call = .error .overflow ↔
        ¬ (start :: (calls.filterMap BucketCall.time ++ [nowNanos])).IsChain
          (GapFits rate start)) := by
  have here := At.new made
  -- The two answers exclude each other, so each equivalence is one case of the lemma.
  rcases call_after here (Nat.le_refl _) named ordered with
    ⟨fits, value, next, called⟩ | ⟨large, refused⟩
  · simp [fits, called]
  · simp [large, refused]

def tenGigabit : TokenBucket where
  rateBytesPerSecond := 1250000000
  burstBytes := 65536
  tokens := 65536
  lastNanos := 0
  fractional := 0

/-- Ten gigabits a second are measured over fourteen seconds. -/
theorem bucketCall_answered_soon :
    TokenBucket.new 1250000000 65536 0 = .ok tenGigabit ∧
      ∃ value next, (tenGigabit.after []).call (.take 1 14000000000) = .ok (value, next) := by
  have made : TokenBucket.new 1250000000 65536 0 = .ok tenGigabit := by decide
  have named : (BucketCall.take 1 14000000000).time = some 14000000000 := rfl
  exact ⟨made, (bucketCall_answered made [] named (by decide)).1.mpr (by decide)⟩

/-- After fifteen idle seconds the bucket refuses the next call and every call after it. -/
theorem bucketCall_refused :
    TokenBucket.new 1250000000 65536 0 = .ok tenGigabit ∧
      tenGigabit.call (.take 1 15000000000) = .error .overflow ∧
      ∀ nowNanos, 15000000000 ≤ nowNanos →
        (tenGigabit.after [.take 1 15000000000]).call (.available nowNanos) =
          .error .overflow := by
  refine ⟨by decide, by decide, fun nowNanos later => ?_⟩
  have here : tenGigabit.At 1250000000 0 0 := ⟨rfl, rfl, rfl⟩
  have large : ¬ GapFits 1250000000 0 0 15000000000 := by decide
  have refused := refill_of_not_fits here (Nat.zero_le _) (not_gapFits_of_le large later)
  have unchanged : tenGigabit.after [.take 1 15000000000] = tenGigabit := by decide
  rw [unchanged, TokenBucket.call, TokenBucket.available, refused]
  rfl

/--
After the wait all the tokens are there, exactly when what the bucket produces during it, with the
remainder it carries, fits the word; and without a wait they are there already.
-/
theorem nanosUntil_suffices {bucket next : TokenBucket}
    (rated : bucket.rateBytesPerSecond ≠ 0) (word : bucket.burstBytes ≤ u64Max)
    (within : bytes ≤ bucket.burstBytes)
    (ok : bucket.nanosUntil bytes nowNanos = (.ok wait, next)) :
    ((∃ last, next.take bytes (nowNanos + wait) = .ok (bytes, last)) ↔
        wait * next.rateBytesPerSecond + next.fractional ≤ u64Max) ∧
      (wait = 0 → bytes ≤ next.tokens) := by
  obtain ⟨refilled, cover, there⟩ := nanosUntil_ok rated ok
  refine ⟨?_, there⟩
  obtain ⟨_, _, full⟩ := refill_eq_ok.mp refilled
  have clock : next.lastNanos = nowNanos := by rw [full]
  have burst : next.burstBytes = bucket.burstBytes := by rw [full]
  have made : next.produced (nowNanos + wait) =
      wait * next.rateBytesPerSecond + next.fractional := by
    rw [produced, clock, Nat.add_sub_cancel_left]
  rw [← made]
  constructor
  · rintro ⟨last, taken⟩
    obtain ⟨_, again, _⟩ := bind_ok taken
    exact (refill_eq_ok.mp again).2.1
  · intro fits
    -- What is missing is produced in whole tokens.
    have enough : bytes ≤ min (saturatingAdd next.tokens
        (next.produced (nowNanos + wait) / 1000000000)) next.burstBytes := by
      rw [made, saturatingAdd]
      omega
    have again := refill_fits (by omega) fits
    rw [take, again]
    simp only [Bind.bind, Except.bind, Pure.pure, Except.pure, Nat.min_eq_left enough]
    exact ⟨_, rfl⟩

/-- A bucket of which all has been taken. -/
def drained : TokenBucket where
  rateBytesPerSecond := 700000000
  burstBytes := 20000000000
  tokens := 0
  lastNanos := 0
  fractional := 0

theorem nanosUntil_suffices_drained :
    drained.nanosUntil 7 0 = (.ok 10, drained) ∧
      ∃ last, drained.take 7 (0 + 10) = .ok (7, last) := by
  have ok : drained.nanosUntil 7 0 = (.ok 10, drained) := by decide
  exact ⟨ok, (nanosUntil_suffices (by decide) (by decide) (by decide) ok).1.mpr (by decide)⟩

/-- The remainder that the wait leaves out makes the call after it overflow. -/
theorem nanosUntil_overflows :
    (do let full ← TokenBucket.new 700000000 20000000000 0
        full.take 20000000000 0) = .ok (20000000000, drained) ∧
      (drained.nanosUntil 18446744077 7).1 = .ok 26352491533 ∧
      (drained.nanosUntil 18446744077 7).2.take 18446744077 (7 + 26352491533) =
        .error .overflow := by
  decide

end Snolc.Policy
