import Snolc.Lib.Run
import Snolc.Policy.Accounting

/-! The ledger of a quota account: where every durable byte has gone, after any calls. -/

namespace Snolc.Policy

open List QuotaAccount

variable (account : QuotaAccount)

namespace QuotaAccount

/-- Return all unspent credit at once; a commit that fails leaves the refund pending. -/
def checkpointRefund : Except QuotaError Nat × QuotaAccount :=
  match account.requestRefund with
  | .error fault => (.error fault, account)
  | .ok (refund, requested) =>
    match requested.commitRefund refund with
    | .error fault => (.error fault, requested)
    | .ok committed => (.ok refund, committed)

end QuotaAccount

/-- A call of a quota account. -/
inductive QuotaCall
  | requestCredit
  | commitCredit (amount : Nat)
  | failCredit
  | charge (acceptedBytes : Nat)
  | requestRefund
  | commitRefund (refund : Nat)
  | failRefund
  | checkpointRefund
  deriving DecidableEq, Repr

/-- What a call of a quota account leaves in its history. -/
inductive QuotaObs
  /-- Bytes were charged. -/
  | charged (bytes : Nat)
  /-- Credit was given up. -/
  | forfeited (bytes : Nat)
  /-- The call was answered with an error. -/
  | refused (call : QuotaCall) (fault : QuotaError)
  deriving DecidableEq, Repr

namespace QuotaAccount

/-- The account and the observations of a call that either changes the account or is refused. -/
def answered (call : QuotaCall) (seen : List QuotaObs) :
    Except QuotaError QuotaAccount → QuotaAccount × List QuotaObs
  | .error fault => (account, [.refused call fault])
  | .ok next => (next, seen)

/-- One call, with the account it leaves. -/
def call : QuotaCall → QuotaAccount × List QuotaObs
  | .requestCredit => account.answered .requestCredit [] (account.requestCredit.map Prod.snd)
  | .commitCredit amount =>
    account.answered (.commitCredit amount) [] (account.commitCredit amount)
  | .failCredit => (account.failCredit, [.forfeited account.creditRemaining])
  | .charge acceptedBytes =>
    account.answered (.charge acceptedBytes) [.charged acceptedBytes]
      (account.charge acceptedBytes)
  | .requestRefund => account.answered .requestRefund [] (account.requestRefund.map Prod.snd)
  | .commitRefund refund =>
    account.answered (.commitRefund refund) [] (account.commitRefund refund)
  | .failRefund => (account.failRefund, [.forfeited account.creditRemaining])
  | .checkpointRefund =>
    match account.checkpointRefund with
    | (.error fault, next) => (next, [.refused .checkpointRefund fault])
    | (.ok _, next) => (next, [])

/-- The calls of an account. -/
def machine : System QuotaAccount QuotaCall QuotaObs where
  step := call

end QuotaAccount

def QuotaObs.chargedBytes : QuotaObs → Nat
  | charged bytes => bytes
  | _ => 0

/-- The credit an observation shows to be given up. -/
def QuotaObs.forfeitedBytes : QuotaObs → Nat
  | forfeited bytes => bytes
  | _ => 0

/-- The bytes that were charged in a history. -/
def quotaCharged (history : List QuotaObs) : Nat :=
  (history.map QuotaObs.chargedBytes).sum

/-- The credit that was given up in a history. -/
def quotaForfeited (history : List QuotaObs) : Nat :=
  (history.map QuotaObs.forfeitedBytes).sum

/-- The books of an account are balanced after a history. -/
structure QuotaAccount.Balanced (limit : Option Nat) (initial : Nat) (history : List QuotaObs)
    (account : QuotaAccount) : Prop where
  steady : account.limitBytes = limit
  /-- Every durable byte was charged, given up, or is credit that is left. -/
  ledger : account.durableCharged =
    initial + quotaCharged history + account.creditRemaining + quotaForfeited history
  within : ∀ bound ∈ limit, account.durableCharged ≤ bound
  /-- While a debit is pending, the last block is used up. -/
  spent : account.debitPending = true → account.creditRemaining = 0

variable {durableCharged blockBytes : Nat} {limit : Option Nat} {history : List QuotaObs}

namespace QuotaAccount

section Answers

variable {account next : QuotaAccount} {amount : Nat}

theorem new_ok (made : QuotaAccount.new limit durableCharged blockBytes = .ok account) :
    (∀ bound ∈ limit, durableCharged ≤ bound) ∧
      account =
        { limitBytes := limit
          durableCharged
          creditRemaining := 0
          blockBytes
          debitPending := false
          refundPending := false } := by
  unfold new at made
  split at made
  · cases made
  next passes =>
  cases made
  refine ⟨fun bound limited => ?_, rfl⟩
  -- The check has turned away a counter that is past its limit.
  rw [not_or] at passes
  obtain ⟨_, below⟩ := passes
  rw [Option.mem_def.mp limited] at below
  simpa using below

/-- A block is asked for once the last one is used up. -/
theorem requestCredit_ok (ok : account.requestCredit = .ok (amount, next)) :
    account.creditRemaining = 0 ∧ next = { account with debitPending := true } := by
  unfold requestCredit at ok
  split at ok
  · cases ok
  next idle =>
  simp only [not_or, not_not] at idle
  dsimp only at ok
  generalize min _ account.blockBytes = block at ok
  split at ok
  · cases ok
  · cases ok
    exact ⟨idle.1, rfl⟩

theorem commitCredit_ok (ok : account.commitCredit amount = .ok next) :
    account.debitPending = true ∧
      (∀ bound ∈ account.limitBytes, account.durableCharged + amount ≤ bound) ∧
      next =
        { account with
          durableCharged := account.durableCharged + amount
          creditRemaining := amount
          debitPending := false } := by
  unfold commitCredit at ok
  split at ok
  · cases ok
  next pending =>
  simp only [not_or, Bool.not_eq_true, Bool.not_eq_false'] at pending
  cases summed : checkedAdd account.durableCharged amount with
  | none => simp [summed] at ok
  | some =>
    simp only [summed] at ok
    split at ok
    · cases ok
    next below =>
    rw [checkedAdd_eq_some summed] at ok below
    cases ok
    refine ⟨pending.1, fun bound limited => ?_, rfl⟩
    rw [Option.mem_def.mp limited] at below
    simpa using below

theorem charge_ok (ok : account.charge amount = .ok next) :
    amount ≤ account.creditRemaining ∧
      next = { account with creditRemaining := account.creditRemaining - amount } := by
  unfold charge at ok
  split at ok
  · cases ok
  next enough =>
  cases ok
  exact ⟨Nat.le_of_not_lt enough, rfl⟩

theorem requestRefund_ok (ok : account.requestRefund = .ok (amount, next)) :
    amount = account.creditRemaining ∧ amount ≠ 0 ∧
      next = { account with refundPending := true } := by
  unfold requestRefund at ok
  split at ok
  · cases ok
  split at ok
  · cases ok
  next some_ =>
  cases ok
  exact ⟨rfl, some_, rfl⟩

theorem commitRefund_ok (ok : account.commitRefund amount = .ok next) :
    amount = account.creditRemaining ∧ amount ≤ account.durableCharged ∧
      next =
        { account with
          durableCharged := account.durableCharged - amount
          creditRemaining := 0
          refundPending := false } := by
  unfold commitRefund at ok
  split at ok
  · cases ok
  next pending =>
  simp only [not_or, not_not, Bool.not_eq_true, Bool.not_eq_false'] at pending
  cases left : checkedSub account.durableCharged amount with
  | none => simp [left] at ok
  | some =>
    simp only [left] at ok
    cases ok
    obtain ⟨enough, same⟩ := checkedSub_eq_some left
    exact ⟨pending.2.2, enough, by rw [same]⟩

theorem commitRefund_of_covered (pending : account.refundPending = true)
    (some_ : account.creditRemaining ≠ 0)
    (covered : account.creditRemaining ≤ account.durableCharged) :
    account.commitRefund account.creditRemaining =
      .ok
        { account with
          durableCharged := account.durableCharged - account.creditRemaining
          creditRemaining := 0
          refundPending := false } := by
  simp [commitRefund, pending, some_, checkedSub, covered]

end Answers

section Books

variable {limit : Option Nat} {initial : Nat} {history : List QuotaObs}
  {account : QuotaAccount}

theorem Balanced.new (made : QuotaAccount.new limit durableCharged blockBytes = .ok account) :
    account.Balanced limit durableCharged [] := by
  obtain ⟨below, rfl⟩ := new_ok made
  exact ⟨rfl, by simp [quotaCharged, quotaForfeited], below, fun wrong => by cases wrong⟩

variable (balanced : account.Balanced limit initial history)
include balanced

theorem Balanced.covered : account.creditRemaining ≤ account.durableCharged := by
  have ledger := balanced.ledger
  omega

theorem Balanced.refused (call : QuotaCall) (fault : QuotaError) :
    account.Balanced limit initial (history ++ [.refused call fault]) where
  steady := balanced.steady
  ledger := by
    rw [balanced.ledger]
    simp [quotaCharged, quotaForfeited, QuotaObs.chargedBytes, QuotaObs.forfeitedBytes]
  within := balanced.within
  spent := balanced.spent

theorem Balanced.answered {call : QuotaCall}
    {seen : List QuotaObs} {answer : Except QuotaError QuotaAccount}
    (accepted : ∀ next, answer = .ok next → next.Balanced limit initial (history ++ seen)) :
    (account.answered call seen answer).1.Balanced limit initial
      (history ++ (account.answered call seen answer).2) := by
  cases answer with
  | error fault => exact balanced.refused call fault
  | ok next => exact accepted next rfl

theorem Balanced.forfeit (debitPending refundPending : Bool) :
    Balanced limit initial (history ++ [.forfeited account.creditRemaining])
      { account with creditRemaining := 0, debitPending, refundPending } where
  steady := balanced.steady
  ledger := by
    have ledger := balanced.ledger
    simp only [quotaCharged, quotaForfeited, map_append, map_cons, map_nil,
      sum_append, sum_cons, sum_nil, QuotaObs.chargedBytes,
      QuotaObs.forfeitedBytes] at ledger ⊢
    omega
  within := balanced.within
  spent _ := rfl

theorem Balanced.refund : Balanced limit initial history
      { account with
        durableCharged := account.durableCharged - account.creditRemaining
        creditRemaining := 0
        refundPending := false } where
  steady := balanced.steady
  ledger := by
    have ledger := balanced.ledger
    dsimp only
    omega
  within bound limited := Nat.le_trans (Nat.sub_le _ _) (balanced.within bound limited)
  spent _ := rfl

theorem Balanced.checkpointRefund : (∃ fault, account.checkpointRefund = (.error fault, account)) ∨
      account.checkpointRefund =
        (.ok account.creditRemaining,
          { account with
            durableCharged := account.durableCharged - account.creditRemaining
            creditRemaining := 0
            refundPending := false }) := by
  unfold QuotaAccount.checkpointRefund
  cases requested : account.requestRefund with
  | error fault => exact .inl ⟨fault, rfl⟩
  | ok answer =>
    obtain ⟨refund, next⟩ := answer
    obtain ⟨rfl, some_, rfl⟩ := requestRefund_ok requested
    -- The request has just made the refund pending, and the ledger covers it.
    have committed := @commitRefund_of_covered { account with refundPending := true } rfl some_
      balanced.covered
    simp only at committed
    exact .inr (by simp only [committed])

/-- A call keeps the books balanced. -/
theorem Balanced.call (event : QuotaCall) :
    (account.call event).1.Balanced limit initial (history ++ (account.call event).2) := by
  have ledger := balanced.ledger
  cases event with
  | requestCredit =>
    refine balanced.answered fun next accepted => ?_
    cases asked : account.requestCredit with
    | error => simp [asked, Except.map] at accepted
    | ok answer =>
      obtain ⟨amount, requested⟩ := answer
      obtain ⟨unspent, rfl⟩ := requestCredit_ok asked
      rw [asked] at accepted
      cases accepted
      rw [append_nil]
      exact ⟨balanced.steady, ledger, balanced.within, fun _ => unspent⟩
  | commitCredit =>
    refine balanced.answered fun next accepted => ?_
    obtain ⟨pending, below, rfl⟩ := commitCredit_ok accepted
    -- The last block was used up, so nothing is overwritten.
    have unspent := balanced.spent pending
    rw [balanced.steady] at below
    rw [append_nil]
    refine ⟨balanced.steady, ?_, below, fun wrong => by cases wrong⟩
    dsimp only
    omega
  | failCredit => exact balanced.forfeit false account.refundPending
  | charge =>
    refine balanced.answered fun next accepted => ?_
    obtain ⟨enough, rfl⟩ := charge_ok accepted
    refine ⟨balanced.steady, ?_, balanced.within, fun pending => ?_⟩
    · -- What the credit loses is what the history gains.
      simp only [quotaCharged, quotaForfeited, map_append, map_cons, map_nil,
        sum_append, sum_cons, sum_nil, QuotaObs.chargedBytes,
        QuotaObs.forfeitedBytes] at ledger ⊢
      omega
    · have unspent := balanced.spent pending
      dsimp only
      omega
  | requestRefund =>
    refine balanced.answered fun next accepted => ?_
    cases asked : account.requestRefund with
    | error => simp [asked, Except.map] at accepted
    | ok answer =>
      obtain ⟨amount, requested⟩ := answer
      obtain ⟨_, _, rfl⟩ := requestRefund_ok asked
      rw [asked] at accepted
      cases accepted
      rw [append_nil]
      exact ⟨balanced.steady, ledger, balanced.within, balanced.spent⟩
  | commitRefund =>
    refine balanced.answered fun next accepted => ?_
    obtain ⟨rfl, covered, rfl⟩ := commitRefund_ok accepted
    rw [append_nil]
    exact balanced.refund
  | failRefund => exact balanced.forfeit account.debitPending false
  | checkpointRefund =>
    rcases balanced.checkpointRefund with ⟨fault, refused⟩ | committed
    · simp only [QuotaAccount.call, refused]
      exact balanced.refused _ _
    · simp only [QuotaAccount.call, committed, List.append_nil]
      exact balanced.refund

end Books

theorem call_refused {initial : Nat}
    {account : QuotaAccount} (balanced : account.Balanced limit initial history)
    {event call : QuotaCall} {fault : QuotaError}
    (refused : .refused call fault ∈ (account.call event).2) :
    (account.call event).1 = account := by
  -- All but the last call either answer with a new account or leave the old one.
  have left {asked : QuotaCall} {seen : List QuotaObs} {answer : Except QuotaError QuotaAccount}
      (quiet : .refused call fault ∉ seen)
      (among : .refused call fault ∈ (account.answered asked seen answer).2) :
      (account.answered asked seen answer).1 = account := by
    cases answer with
    | error => rfl
    | ok => exact absurd among quiet
  cases event with
  | checkpointRefund =>
    rcases balanced.checkpointRefund with ⟨other, same⟩ | committed
    · simp only [QuotaAccount.call, same]
    · simp [QuotaAccount.call, committed] at refused
  | failCredit | failRefund => simp [QuotaAccount.call] at refused
  | charge | requestCredit | requestRefund | commitCredit | commitRefund =>
    exact left (by simp) refused

end QuotaAccount

open QuotaAccount

/--
What the durable counter has gained was charged, is credit that is left, or was given up.

The counter never passes the limit, and a call that is refused, that of a checkpoint included,
leaves the account as it was.
-/
theorem quota_conserved {account : QuotaAccount}
    (made : QuotaAccount.new limit durableCharged blockBytes = .ok account) {last : QuotaAccount}
    (run : QuotaAccount.machine.Run (· = account) (fun _ _ _ => True) history last) :
    last.durableCharged =
        durableCharged + quotaCharged history + last.creditRemaining + quotaForfeited history ∧
      (∀ bound ∈ limit, last.durableCharged ≤ bound) ∧
      ∀ event call fault, .refused call fault ∈ (last.call event).2 →
        (last.call event).1 = last := by
  have balanced : last.Balanced limit durableCharged history := by
    -- Each call keeps the books balanced, whatever the calls before it were.
    refine @System.Run.invariant _ _ _ machine _ _
      (fun history state => state.Balanced limit durableCharged history) ?_ ?_ _ _ run
    · rintro state rfl
      exact .new made
    · intro history state event before _
      exact before.call event
  exact ⟨balanced.ledger, balanced.within, fun event call fault => call_refused balanced⟩

/-- An account of a hundred bytes in blocks of sixty, as it is made. -/
def hundredBytes : QuotaAccount where
  limitBytes := some 100
  durableCharged := 10
  creditRemaining := 0
  blockBytes := 60
  debitPending := false
  refundPending := false

/-- A block is drawn, spent in part, and what is left of it is returned or given up. -/
theorem quota_conserved_block :
    let calls : List QuotaCall :=
      [.requestCredit, .commitCredit 60, .charge 20, .requestRefund, .charge 5, .commitRefund 40,
        .failRefund]
    let reached := machine.execute ([], hundredBytes) calls
    new (some 100) 10 60 = .ok hundredBytes ∧
      reached.2.durableCharged = 10 + quotaCharged reached.1 + reached.2.creditRemaining +
        quotaForfeited reached.1 ∧
      quotaCharged reached.1 = 25 ∧ quotaForfeited reached.1 = 35 := by
  have made : new (some 100) 10 60 = .ok hundredBytes := by decide
  refine ⟨made, ?_, by decide, by decide⟩
  have start : machine.Run (· = hundredBytes) (fun _ _ _ => True) [] hundredBytes :=
    .start rfl
  exact (quota_conserved made (start.replay (by decide))).1

end Snolc.Policy
