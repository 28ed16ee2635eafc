import Snolc.Lib.Word

/-! Durable quota credit and integer token buckets. -/

namespace Snolc.Policy

/-- Why an accounting operation is refused. -/
inductive QuotaError
  | invalid
  | state
  | exhausted
  | overflow
  | clock
  deriving DecidableEq, Repr

/-- Credit drawn in blocks from a durable counter. -/
structure QuotaAccount where
  limitBytes : Option Nat
  durableCharged : Nat
  creditRemaining : Nat
  blockBytes : Nat
  debitPending : Bool
  refundPending : Bool
  deriving DecidableEq, Repr

namespace QuotaAccount

/-- An account over a durable counter that has not passed its limit. -/
def new (limitBytes : Option Nat) (durableCharged blockBytes : Nat) :
    Except QuotaError QuotaAccount :=
  if blockBytes = 0 ∨ limitBytes.any (fun limit => durableCharged > limit) then
    .error .invalid
  else
    .ok
      { limitBytes
        durableCharged
        creditRemaining := 0
        blockBytes
        debitPending := false
        refundPending := false }

variable (account : QuotaAccount)

/-- Ask for the next block, or for what the limit still leaves of it. -/
def requestCredit : Except QuotaError (Nat × QuotaAccount) :=
  if account.creditRemaining ≠ 0 ∨ account.debitPending ∨ account.refundPending then
    .error .state
  else
    let available := match account.limitBytes with
      | some limit => limit - account.durableCharged
      | none => account.blockBytes
    let amount := min available account.blockBytes
    if amount = 0 then .error .exhausted
    else .ok (amount, { account with debitPending := true })

/-- Turn a durable debit into spendable credit. -/
def commitCredit (amount : Nat) : Except QuotaError QuotaAccount :=
  if !account.debitPending ∨ amount = 0 ∨ amount > account.blockBytes then .error .state
  else
    match checkedAdd account.durableCharged amount with
    | none => .error .overflow
    | some next =>
      if account.limitBytes.any (fun limit => next > limit) then .error .exhausted
      else
        .ok
          { account with
            durableCharged := next
            creditRemaining := amount
            debitPending := false }

/-- Give up a debit that did not become durable. -/
def failCredit : QuotaAccount :=
  { account with debitPending := false, creditRemaining := 0 }

/-- Spend credit for bytes a sink has accepted. -/
def charge (acceptedBytes : Nat) : Except QuotaError QuotaAccount :=
  if acceptedBytes > account.creditRemaining then .error .exhausted
  else .ok { account with creditRemaining := account.creditRemaining - acceptedBytes }

/-- Ask to return all unspent credit. -/
def requestRefund : Except QuotaError (Nat × QuotaAccount) :=
  if account.debitPending ∨ account.refundPending then .error .state
  else if account.creditRemaining = 0 then .error .state
  else .ok (account.creditRemaining, { account with refundPending := true })

/-- Take a durable refund out of the counter. -/
def commitRefund (refund : Nat) : Except QuotaError QuotaAccount :=
  if !account.refundPending ∨ refund = 0 ∨ refund ≠ account.creditRemaining then .error .state
  else
    match checkedSub account.durableCharged refund with
    | none => .error .state
    | some durableCharged =>
      .ok { account with durableCharged, creditRemaining := 0, refundPending := false }

/-- Give up a refund that did not become durable. -/
def failRefund : QuotaAccount :=
  { account with refundPending := false, creditRemaining := 0 }

end QuotaAccount

/-- An integer token bucket with an exactly carried remainder. -/
structure TokenBucket where
  rateBytesPerSecond : Nat
  burstBytes : Nat
  tokens : Nat
  lastNanos : Nat
  fractional : Nat
  deriving DecidableEq, Repr

namespace TokenBucket

/-- A full bucket. -/
def new (rateBytesPerSecond burstBytes nowNanos : Nat) : Except QuotaError TokenBucket :=
  if rateBytesPerSecond = 0 ∨ burstBytes = 0 then .error .invalid
  else
    .ok
      { rateBytesPerSecond
        burstBytes
        tokens := burstBytes
        lastNanos := nowNanos
        fractional := 0 }

variable (bucket : TokenBucket)

/-- Add the tokens produced since the last refill, up to the burst. -/
def refill (nowNanos : Nat) : Except QuotaError TokenBucket :=
  if nowNanos < bucket.lastNanos then .error .clock
  else
    let elapsed := nowNanos - bucket.lastNanos
    match (checkedMul elapsed bucket.rateBytesPerSecond).bind
        (checkedAdd · bucket.fractional) with
    | none => .error .overflow
    | some produced =>
      .ok
        { bucket with
          fractional := produced % 1000000000
          tokens := min (saturatingAdd bucket.tokens (produced / 1000000000)) bucket.burstBytes
          lastNanos := nowNanos }

/-- Take up to the requested tokens. -/
def take (requested nowNanos : Nat) : Except QuotaError (Nat × TokenBucket) := do
  let bucket ← bucket.refill nowNanos
  let granted := min requested bucket.tokens
  return (granted, { bucket with tokens := bucket.tokens - granted })

/-- How long to wait for tokens, in nanoseconds, and the bucket, which is refilled first. -/
def nanosUntil (bytes nowNanos : Nat) : Except QuotaError Nat × TokenBucket :=
  match bucket.refill nowNanos with
  | .error fault => (.error fault, bucket)
  | .ok bucket =>
    if bucket.tokens ≥ bytes then (.ok 0, bucket)
    else
      match (checkedMul (bytes - bucket.tokens) 1000000000).bind
          (checkedAdd · (bucket.rateBytesPerSecond - 1)) with
      | none => (.error .overflow, bucket)
      | some rounded => (.ok (rounded / bucket.rateBytesPerSecond), bucket)

/-- Return tokens, up to the burst. -/
def refund (bytes : Nat) : TokenBucket :=
  { bucket with tokens := min (saturatingAdd bucket.tokens bytes) bucket.burstBytes }

/-- The tokens on hand after a refill. -/
def available (nowNanos : Nat) : Except QuotaError (Nat × TokenBucket) := do
  let bucket ← bucket.refill nowNanos
  return (bucket.tokens, bucket)

end TokenBucket

end Snolc.Policy
