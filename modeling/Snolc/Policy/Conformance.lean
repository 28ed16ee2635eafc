import Mathlib.Algebra.BigOperators.Group.List.Basic
import Mathlib.Tactic.Linarith
import Snolc.Policy.Buckets

/-! Token buckets over a window of time: what they grant at most, and what they never lose. -/

namespace Snolc.Policy

open List TokenBucket

/-- The tokens that the answer to a call hands out. -/
def BucketCall.grantOf : BucketCall → Nat → Nat
  | take _ _, answer => answer
  | _, _ => 0

/-- The tokens that a call returns. -/
def BucketCall.refundOf : BucketCall → Nat
  | refund bytes => bytes
  | _ => 0

/-- The tokens that the answers to calls hand out. -/
def grantedTokens (calls : List BucketCall) (answers : List Nat) : Nat :=
  (List.zipWith BucketCall.grantOf calls answers).sum

/-- The tokens that calls return. -/
def refundedTokens (calls : List BucketCall) : Nat :=
  (calls.map BucketCall.refundOf).sum

variable {start answer stop : Nat}

namespace TokenBucket

/-- Calls one after another that all succeed, with their answers. -/
def serve : TokenBucket → List BucketCall → Except QuotaError (List Nat × TokenBucket)
  | bucket, [] => .ok ([], bucket)
  | bucket, call :: calls => do
    let (answer, bucket) ← bucket.call call
    let (answers, bucket) ← bucket.serve calls
    return (answer :: answers, bucket)

/-- The tokens of a bucket in billionths, with the part of a token it carries. -/
def wealth (bucket : TokenBucket) : Nat :=
  bucket.tokens * 1000000000 + bucket.fractional

/-- A bucket within its burst, that carries less than a token. -/
structure Sound (rate burst : Nat) (bucket : TokenBucket) : Prop where
  steady : bucket.rateBytesPerSecond = rate
  fixed : bucket.burstBytes = burst
  within : bucket.tokens ≤ burst
  carried : bucket.fractional < 1000000000

section Calls

variable {rate burst nowNanos : Nat} {bucket next : TokenBucket}

theorem sound_new (made : TokenBucket.new rate burst start = .ok bucket) :
    bucket.Sound rate burst := by
  unfold new at made
  split at made
  · cases made
  · cases made
    exact ⟨rfl, rfl, Nat.le_refl _, Nat.zero_lt_of_lt (by decide : 0 < 1000000000)⟩

variable (sound : bucket.Sound rate burst)
include sound

theorem Sound.refill (ok : bucket.refill nowNanos = .ok next) :
    next.Sound rate burst ∧ bucket.lastNanos ≤ nowNanos ∧ next.lastNanos = nowNanos ∧
      next.wealth ≤ bucket.wealth + rate * (nowNanos - bucket.lastNanos) := by
  obtain ⟨later, _, rfl⟩ := refill_eq_ok.mp ok
  refine ⟨⟨sound.steady, sound.fixed, ?_, Nat.mod_lt _ (by decide)⟩, later, rfl, ?_⟩
  · rw [← sound.fixed]
    exact Nat.min_le_right _ _
  · -- Whole tokens and remainder together are all that was produced.
    rw [← sound.steady, Nat.mul_comm]
    simp only [wealth, saturatingAdd, produced]
    omega

theorem Sound.wealth_le : bucket.wealth ≤ burst * 1000000000 + 999999999 := by
  have within := sound.within
  have carried := sound.carried
  unfold wealth
  omega

theorem Sound.refund (bytes : Nat) : (bucket.refund bytes).Sound rate burst ∧
      (bucket.refund bytes).lastNanos = bucket.lastNanos ∧
      (bucket.refund bytes).wealth ≤ bucket.wealth + bytes * 1000000000 := by
  refine ⟨⟨sound.steady, sound.fixed, ?_, sound.carried⟩, rfl, ?_⟩
  · rw [← sound.fixed]
    exact Nat.min_le_right _ _
  · simp only [wealth, TokenBucket.refund, saturatingAdd]
    omega

theorem Sound.timed {call : BucketCall}
    (named : call.time = some nowNanos) (ok : bucket.call call = .ok (answer, next)) :
    ∃ full, bucket.refill nowNanos = .ok full ∧ next.Sound rate burst ∧
      next.lastNanos = nowNanos ∧
      call.grantOf answer * 1000000000 + next.wealth = full.wealth ∧ call.refundOf = 0 := by
  cases call with
  | refund => cases named
  | take =>
    cases named
    simp only [call, take] at ok
    obtain ⟨full, refilled, ok⟩ := bind_ok ok
    cases ok
    obtain ⟨filled, _, clock, _⟩ := sound.refill refilled
    refine ⟨full, refilled, ⟨filled.steady, filled.fixed, ?_, filled.carried⟩, clock, ?_, rfl⟩
    · exact Nat.le_trans (Nat.sub_le _ _) filled.within
    · simp only [BucketCall.grantOf, wealth]
      omega
  | available =>
    cases named
    simp only [call, available] at ok
    obtain ⟨full, refilled, ok⟩ := bind_ok ok
    cases ok
    obtain ⟨filled, _, clock, _⟩ := sound.refill refilled
    refine ⟨_, refilled, filled, clock, ?_, rfl⟩
    simp [BucketCall.grantOf]

end Calls

section Windows

variable {rate burst : Nat} {bucket last : TokenBucket} {calls : List BucketCall}
  {answers : List Nat}

theorem serve_cons {call : BucketCall} (ok : bucket.serve (call :: calls) = .ok (answers, last)) :
    ∃ answer next rest, bucket.call call = .ok (answer, next) ∧
      next.serve calls = .ok (rest, last) ∧ answers = answer :: rest := by
  rw [serve] at ok
  obtain ⟨⟨answer, next⟩, called, ok⟩ := bind_ok ok
  obtain ⟨⟨rest, end_⟩, served, ok⟩ := bind_ok ok
  cases ok
  exact ⟨answer, next, rest, called, served, rfl⟩

theorem At.serve {before : Nat} (here : bucket.At rate start before) (began : start ≤ before)
    (ok : bucket.serve calls = .ok (answers, last)) :
    ∃ now, start ≤ now ∧ last.At rate start now := by
  induction calls generalizing bucket before answers with
  | nil =>
    cases ok
    exact ⟨before, began, here⟩
  | cons call calls ih =>
    obtain ⟨answer, next, rest, called, served, _⟩ := serve_cons ok
    cases timed : call.time with
    | none =>
      obtain ⟨value, other, same, there⟩ := call_untimed here timed
      rw [called] at same
      cases same
      exact ih there began served
    | some =>
      obtain ⟨later, there⟩ := here.timed began timed called
      exact ih there (Nat.le_trans began later) served

variable (sound : bucket.Sound rate burst)
include sound

variable (ok : bucket.serve calls = .ok (answers, last))
include ok

theorem Sound.serve : last.Sound rate burst := by
  induction calls generalizing bucket answers with
  | nil =>
    cases ok
    exact sound
  | cons call calls ih =>
    obtain ⟨answer, next, rest, called, served, _⟩ := serve_cons ok
    cases call with
    | refund bytes =>
      cases called
      exact ih (sound.refund bytes).1 served
    | take | available => exact ih (sound.timed rfl called).choose_spec.2.1 served

/-- What calls hand out comes from the bucket, from refunds, and from the time that has passed. -/
theorem Sound.serve_wealth (began : bucket.lastNanos ≤ stop)
    (within : ∀ time ∈ calls.filterMap BucketCall.time, time ≤ stop) :
    grantedTokens calls answers * 1000000000 ≤
      bucket.wealth + refundedTokens calls * 1000000000 + rate * (stop - bucket.lastNanos) := by
  -- The induction is on the calls; every one of them starts a shorter stretch of time.
  induction calls generalizing bucket answers with
  | nil => simp [grantedTokens]
  | cons call calls ih =>
    obtain ⟨answer, next, rest, called, served, rfl⟩ := serve_cons ok
    simp only [grantedTokens, refundedTokens, zipWith_cons_cons, map_cons,
      sum_cons] at ih ⊢
    cases timed : call.time with
    | none =>
      rw [filterMap_cons_none timed] at within
      cases call with
      | refund bytes =>
        cases called
        obtain ⟨sound, clock, rise⟩ := sound.refund bytes
        have rest := ih sound served (by rw [clock]; exact began) within
        rw [clock] at rest
        simp only [BucketCall.grantOf, BucketCall.refundOf]
        linarith
      | take | available => cases timed
    | some time =>
      rw [filterMap_cons_some timed, forall_mem_cons] at within
      obtain ⟨full, refilled, nextSound, clock, hands, nothing⟩ := sound.timed timed called
      obtain ⟨_, later, _, rise⟩ := sound.refill refilled
      have rest := ih nextSound served (by rw [clock]; exact within.1) within.2
      rw [clock] at rest
      -- The stretch up to the call and the stretch after it make up the whole one.
      have whole : rate * (stop - bucket.lastNanos) =
          rate * (stop - time) + rate * (time - bucket.lastNanos) := by
        rw [← Nat.mul_add]
        congr 1
        omega
      rw [nothing, whole]
      linarith

/-- Within a window, a bucket hands out its burst and what the rate produces, and a rounding. -/
theorem Sound.window
    (within : ∀ time ∈ calls.filterMap BucketCall.time, start ≤ time ∧ time ≤ stop) :
    grantedTokens calls answers * 1000000000 ≤
      burst * 1000000000 + 999999999 + refundedTokens calls * 1000000000 +
        rate * (stop - start) := by
  -- Up to the first call that names a time nothing is handed out.
  induction calls generalizing bucket answers with
  | nil => simp [grantedTokens]
  | cons call calls ih =>
    obtain ⟨answer, next, rest, called, served, rfl⟩ := serve_cons ok
    cases timed : call.time with
    | none =>
      rw [filterMap_cons_none timed] at within
      cases call with
      | refund bytes =>
        cases called
        have rest := ih (sound.refund bytes).1 served within
        simp only [grantedTokens, refundedTokens, zipWith_cons_cons, map_cons,
          sum_cons, BucketCall.grantOf, BucketCall.refundOf] at rest ⊢
        linarith
      | take | available => cases timed
    | some =>
      rw [filterMap_cons_some timed, forall_mem_cons] at within
      obtain ⟨full, refilled, nextSound, clock, hands, nothing⟩ := sound.timed timed called
      -- From that call on, a full bucket and the rest of the window pay for everything.
      have most := (sound.refill refilled).1.wealth_le
      have rest := nextSound.serve_wealth served (by rw [clock]; exact within.1.2)
        fun other among => (within.2 other among).2
      have shorter : rate * (stop - next.lastNanos) ≤ rate * (stop - start) := by
        rw [clock]
        exact Nat.mul_le_mul_left rate (Nat.sub_le_sub_left within.1.1 stop)
      simp only [grantedTokens, refundedTokens, zipWith_cons_cons, map_cons,
        sum_cons] at rest ⊢
      rw [nothing]
      linarith

end Windows

section Cuts

variable {bucket middle last direct : TokenBucket} {time later : Nat}

theorem refill_between (first : bucket.refill time = .ok middle) (order : time ≤ later)
    (once : bucket.refill later = .ok direct) : middle.refill later = .ok direct := by
  obtain ⟨early, _, rfl⟩ := refill_eq_ok.mp first
  obtain ⟨_, fits, rfl⟩ := refill_eq_ok.mp once
  -- Nothing of what was produced up to the first time is lost: the remainder is added again.
  have whole : bucket.produced later =
      (later - time) * bucket.rateBytesPerSecond + bucket.produced time := by
    unfold produced
    rw [← Nat.add_assoc, ← Nat.add_mul]
    congr 2
    omega
  rw [refill_eq_ok]
  simp only [produced] at fits whole ⊢
  rw [whole] at fits ⊢
  refine ⟨order, by omega, ?_⟩
  simp only [mk.injEq, true_and, saturatingAdd]
  constructor <;> omega

theorem available_ok (ok : bucket.call (.available time) = .ok (answer, middle)) :
    bucket.refill time = .ok middle := by
  simp only [call, available] at ok
  obtain ⟨full, refilled, ok⟩ := bind_ok ok
  cases ok
  exact refilled

theorem serve_available {cuts answers : List Nat}
    (ok : bucket.serve ((cuts ++ [later]).map .available) = .ok (answers, last)) :
    bucket.lastNanos ≤ later ∧ ∀ direct, bucket.refill later = .ok direct → last = direct := by
  -- The induction is on the times in between, each of which is one refill.
  induction cuts generalizing bucket answers with
  | nil =>
    obtain ⟨answer, next, rest, called, served, _⟩ := serve_cons ok
    cases served
    have refilled := available_ok called
    refine ⟨(refill_eq_ok.mp refilled).1, fun direct once => ?_⟩
    rw [refilled] at once
    exact Except.ok.inj once
  | cons time cuts ih =>
    obtain ⟨answer, next, rest, called, served, _⟩ := serve_cons ok
    have refilled := available_ok called
    obtain ⟨order, same⟩ := ih served
    have clock : next.lastNanos = time := by
      obtain ⟨_, _, rfl⟩ := refill_eq_ok.mp refilled
      rfl
    rw [clock] at order
    refine ⟨Nat.le_trans (refill_eq_ok.mp refilled).1 order, fun direct once => ?_⟩
    exact same direct (refill_between refilled order once)

end Cuts

end TokenBucket

open TokenBucket

/--
The tokens that a bucket hands out within a window of time, less those that are returned to it, are
at most its burst, what its rate produces in the window, and one.

The tokens never exceed the burst. However often a bucket is looked at, it holds what it would hold
without that, so the part of a token it carries is never lost.
-/
theorem bucket_conforms {rate burst : Nat} {bucket : TokenBucket}
    (made : TokenBucket.new rate burst start = .ok bucket) {before window : List BucketCall}
    {earlier answers : List Nat} {middle last : TokenBucket}
    (served : bucket.serve before = .ok (earlier, middle))
    (serving : middle.serve window = .ok (answers, last)) {t0 t1 : Nat}
    (within : ∀ time ∈ window.filterMap BucketCall.time, t0 ≤ time ∧ time ≤ t1) :
    last.tokens ≤ burst ∧
      grantedTokens window answers ≤
        refundedTokens window + burst + rate * (t1 - t0) / 1000000000 + 1 ∧
      last.fractional = (last.lastNanos - start) * rate % 1000000000 ∧
      ∀ cuts time looks cut direct,
        last.serve ((cuts ++ [time]).map .available) = .ok (looks, cut) →
          last.refill time = .ok direct → cut = direct := by
  have sound := (sound_new made).serve served
  obtain ⟨_, began, there⟩ := (At.new made).serve (Nat.le_refl _) served
  obtain ⟨_, _, there⟩ := there.serve began serving
  refine ⟨(sound.serve serving).within, ?_, ?_, fun cuts time looks cut direct cutting once => ?_⟩
  · -- The bound in billionths leaves less than two tokens over when it is rounded.
    have most := sound.window serving within
    omega
  · rw [there.refilled]
    exact there.carried
  · exact (serve_available cutting).2 direct once

def threeBytes : TokenBucket where
  rateBytesPerSecond := 3
  burstBytes := 10
  tokens := 10
  lastNanos := 0
  fractional := 0

/-- An empty bucket hands out what a second produces, however the second is cut. -/
theorem bucket_conforms_second :
    let empty : TokenBucket := { threeBytes with tokens := 0 }
    let last : TokenBucket := { empty with lastNanos := 1000000000 }
    let window : List BucketCall :=
      [.take 5 500000000, .refund 1, .available 700000000, .take 5 1000000000]
    threeBytes.serve [.take 10 0] = .ok ([10], empty) ∧
      empty.serve window = .ok ([1, 0, 2, 3], last) ∧
      grantedTokens window [1, 0, 2, 3] ≤
        refundedTokens window + 10 + 3 * (1000000000 - 500000000) / 1000000000 + 1 := by
  intro empty last window
  have drained : threeBytes.serve [.take 10 0] = .ok ([10], empty) := by decide
  have serving : empty.serve window = .ok ([1, 0, 2, 3], last) := by decide
  have made : new 3 10 0 = .ok threeBytes := by decide
  have within : ∀ time ∈ window.filterMap BucketCall.time,
      500000000 ≤ time ∧ time ≤ 1000000000 := by decide
  exact ⟨drained, serving, (bucket_conforms made drained serving within).2.1⟩

end Snolc.Policy
