import Snolc.Lib.Table
import Snolc.Lib.Word

/-! The numbered streams that the carriers hand out, each with the instance it belongs to. -/

namespace Snolc.Carrier

/-- The answers of the calls of a carrier. -/
inductive Status
  | ok
  | pending
  | invalid
  | unsupported
  | resource
  | io
  deriving DecidableEq, Repr

/-- A stream that is open, over the kind of connection its carrier makes. -/
structure StreamState (ι : Type) where
  owner : Nat
  io : ι
  deriving DecidableEq, Repr

/-- The open streams of a carrier and the number that the next one takes. -/
structure Streams (ι : Type) where
  table : Table Nat (StreamState ι) := ∅
  next : Nat := 1

namespace Streams

variable {ι : Type} (streams : Streams ι)

/-- Take a number for a stream and open it, unless the number is zero. -/
def finish (owner : Nat) (io : ι) : Except Status Nat × Streams ι :=
  let handle := streams.next
  let streams := { streams with next := wrappingAdd handle 1 }
  if handle = 0 then (.error .resource, streams)
  else (.ok handle, { streams with table := streams.table.insert handle ⟨owner, io⟩ })

/-- Remove a stream, and tell whose it was. -/
def close (handle : Nat) : Option Nat × Streams ι :=
  ((streams.table.lookup handle).map StreamState.owner,
    { streams with table := streams.table.erase handle })

/-- Drop the streams of an instance. -/
def destroy (owner : Nat) : Streams ι :=
  { streams with table := streams.table.retain fun _ stream => stream.owner ≠ owner }

/-- How many open streams belong to an instance. -/
def owned (owner : Nat) : Nat :=
  Table.count (fun stream => stream.owner = owner) streams.table

theorem owned_finish {streams : Streams ι} (free : streams.table.lookup streams.next = none)
    (numbered : streams.next ≠ 0) (owner : Nat) (io : ι) (other : Nat) :
    (streams.finish owner io).2.owned other =
      streams.owned other + if owner = other then 1 else 0 := by
  simp only [finish, if_neg numbered, owned, Table.count_insert, Table.erase_absent free,
    decide_eq_true_eq]

theorem owned_finish_taken {streams : Streams ι} {stream : StreamState ι}
    (taken : streams.table.lookup streams.next = some stream) (numbered : streams.next ≠ 0)
    (owner : Nat) (io : ι) (other : Nat) :
    (streams.finish owner io).2.owned other + (if stream.owner = other then 1 else 0) =
      streams.owned other + if owner = other then 1 else 0 := by
  have whole := Table.count_erase taken fun stream => decide (stream.owner = other)
  simp only [finish, if_neg numbered, owned, Table.count_insert, decide_eq_true_eq] at whole ⊢
  omega

theorem owned_close {streams : Streams ι} {handle : Nat} {stream : StreamState ι}
    (found : streams.table.lookup handle = some stream) (other : Nat) :
    streams.owned other =
      (streams.close handle).2.owned other + if stream.owner = other then 1 else 0 := by
  simpa only [owned, close, decide_eq_true_eq] using
    Table.count_erase found fun stream => decide (stream.owner = other)

theorem owned_destroy (owner other : Nat) :
    (streams.destroy owner).owned other = if other = owner then 0 else streams.owned other := by
  simp only [destroy, owned, Table.count, Table.values, Table.retain, List.countP_map,
    List.countP_filter]
  split
  · rename_i same
    rw [List.countP_eq_zero]
    intro entry _
    simp [same]
  · rename_i different
    refine List.countP_congr fun entry _ => ?_
    simp only [Function.comp_apply, ne_eq, decide_not, Bool.and_eq_true, decide_eq_true_eq,
      Bool.not_eq_true', decide_eq_false_iff_not, and_iff_left_iff_imp]
    rintro rfl
    exact different

end Streams

end Snolc.Carrier
