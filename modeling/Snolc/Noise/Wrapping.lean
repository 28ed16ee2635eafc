import Snolc.Lib.Skip
import Snolc.Noise.Handshake

/-! A handshake goes on as it would alone, unless another one is pending under its number. -/

namespace Snolc.Noise

open PendingHandshake

variable {κ η τ : Type} (thread : Thread κ η τ)

/-- The handshake that is pending for an instance, a lower stream and its functions. -/
def Thread.pendingOf (triple : Triple) : Option (PendingHandshake η) :=
  (thread.pending.lookup triple.lower).filter fun pending =>
    pending.owner = triple.instance_ && pending.io = triple.io

def WrapCall.valid (call : WrapCall) : Bool :=
  call.lower ≠ 0 && call.validIo && call.output

/-- Whether no handshake of another instance or other functions is pending under a number. -/
def Thread.matching (call : WrapCall) : Bool :=
  (thread.pending.lookup call.lower).all fun pending =>
    pending.owner = call.instance_ && pending.io = call.io

/--
A call finds no handshake of another instance or other functions under the number of its lower
stream, and there is a number for the stream it may come to.
-/
def Apart (_ : List (Wrapping τ)) (thread : Thread κ η τ) (call : WrapCall) : Prop :=
  call.valid = true → thread.matching call = true ∧ thread.wrappedNext ≠ 0

instance (history : List (Wrapping τ)) (thread : Thread κ η τ) (call : WrapCall) :
    Decidable (Apart history thread call) :=
  inferInstanceAs (Decidable (_ → _))

/-- Whether an answer takes a number for a stream. -/
def Answer.opens : Answer τ → Bool
  | .ok _ => true
  | _ => false

variable {instances : Table Nat (RoleKey κ)} {pending : PendingHandshake η}

section Drives

variable {snow : Handshaking κ η τ} {call : WrapCall}

/-- A handshake stays with what it was begun for. -/
def PendingHandshake.For (pending : PendingHandshake η) (triple : Triple) : Prop :=
  pending.owner = triple.instance_ ∧ pending.lower = triple.lower ∧ pending.io = triple.io

variable {triple : Triple}

theorem PendingHandshake.finishing_for (begun : pending.For triple) (wire written : Bytes) :
    (pending.finishing snow wire written).pending.For triple := by
  have finished : (pending.finish snow).2.For triple := by
    unfold finish
    split
    · exact begun
    dsimp only
    repeat' split
    all_goals exact begun
  exact finished

theorem PendingHandshake.reply_for (begun : pending.For triple) (state : η) (wire : Bytes) :
    (pending.reply snow state call wire).pending.For triple := by
  unfold reply
  split
  · exact begun
  dsimp only
  split
  · exact begun
  next next _ _ outbound _ =>
  have flushed : (flush { pending with handshake := some next, outbound }
      call.writes).2.1.For triple := begun
  split <;> rename_i handed <;> rw [handed] at flushed
  · exact flushed
  · exact flushed
  · exact finishing_for flushed _ _

theorem PendingHandshake.receive_for
    (begun : pending.For triple) : (pending.receive snow call).pending.For triple := by
  unfold receive
  split
  · exact begun
  · exact begun
  dsimp only
  split
  · exact begun
  split
  · exact begun
  split
  · exact begun
  split
  · exact reply_for (by exact begun) _ _
  · exact finishing_for (by exact begun) _ _

theorem PendingHandshake.drive_for {pending : PendingHandshake η} {triple : Triple}
    (begun : pending.For triple) : (pending.drive snow call).pending.For triple := by
  unfold drive
  split
  · exact receive_for begun
  have flushed : (pending.flush call.writes).2.1.For triple := begun
  split <;> rename_i handed <;> rw [handed] at flushed
  · exact flushed
  · exact flushed
  dsimp only
  split
  · exact finishing_for (by exact flushed) _ _
  · exact receive_for (by exact flushed)

theorem beginHandshake_for
    (begins : beginHandshake snow instances call = .ok pending) : pending.For call.triple := by
  unfold beginHandshake at begins
  repeat' split at begins
  all_goals first
    | cases begins
      exact ⟨rfl, rfl, rfl⟩
    | cases begins

theorem beginHandshake_refuses {answer : Answer τ}
    (refuses : beginHandshake snow instances call = .error answer) : answer.opens = false := by
  unfold beginHandshake at refuses
  repeat' split at refuses
  all_goals cases refuses
  all_goals rfl

end Drives

/-- What a handshake comes to in a call: what stays pending, and what is answered. -/
structure Outcome (η τ : Type) where
  pending : Option (PendingHandshake η)
  answer : Answer τ
  closedLower : Bool

variable (snow : Handshaking κ η τ)

/-- A handshake on its own goes on as far as the lower stream allows. -/
def PendingHandshake.alone (call : WrapCall) (pending : PendingHandshake η) : Outcome η τ :=
  let driven := pending.drive snow call
  match driven.result with
  | .ok (some transport) => ⟨none, .ok transport, false⟩
  | .ok none => ⟨some driven.pending, .pending, false⟩
  | .error _ => ⟨none, .io, true⟩

/-- A handshake on its own goes on, or begins. -/
def alone (instances : Table Nat (RoleKey κ))
    (own : Option (PendingHandshake η)) (call : WrapCall) : Outcome η τ :=
  match own with
  | some pending => pending.alone snow call
  | none =>
    match beginHandshake snow instances call with
    | .error answer => ⟨none, answer, false⟩
    | .ok pending => pending.alone snow call

/-- A table of handshakes with what stays pending under a number. -/
def put (table : Table Nat (PendingHandshake η)) (lower : Nat) :
    Option (PendingHandshake η) → Table Nat (PendingHandshake η)
  | none => table.erase lower
  | some pending => table.insert lower pending

section Alone

variable {snow : Handshaking κ η τ} {thread : Thread κ η τ} {call : WrapCall}
  {pending : PendingHandshake η}

theorem PendingHandshake.alone_for (begun : pending.For call.triple) :
    ∀ kept ∈ (pending.alone snow call).pending, kept.For call.triple := by
  have still := @PendingHandshake.drive_for _ _ _ snow call pending _ begun
  unfold alone
  dsimp only
  split
  · simp
  · simpa using still
  · simp

theorem alone_for {own : Option (PendingHandshake η)}
    (begun : ∀ pending ∈ own, pending.For call.triple) :
    ∀ kept ∈ (alone snow instances own call).pending, kept.For call.triple := by
  unfold alone
  split
  · rename_i pending
    exact PendingHandshake.alone_for (begun pending rfl)
  · split
    · simp
    · rename_i pending begins
      exact PendingHandshake.alone_for (beginHandshake_for begins)

theorem proceed_instances : (thread.proceed snow call pending).1.instances = thread.instances := by
  unfold Thread.proceed
  dsimp only
  split
  · split <;> rfl
  · rfl
  · rfl

theorem proceed_pending (absent : thread.pending.lookup call.lower = none) :
    (thread.proceed snow call pending).1.pending =
      put thread.pending call.lower (pending.alone snow call).pending := by
  have gone := Table.erase_absent absent
  rcases driven : pending.drive snow call with ⟨fault | (_ | transport), next, wire, written⟩
  · simp [Thread.proceed, PendingHandshake.alone, driven, put, gone]
  · simp [Thread.proceed, PendingHandshake.alone, driven, put]
  · by_cases zero : thread.wrappedNext = 0 <;>
      simp [Thread.proceed, PendingHandshake.alone, driven, put, gone, zero]

theorem proceed_answer (numbered : thread.wrappedNext ≠ 0) :
    (thread.proceed snow call pending).2 =
        [⟨call.triple, (pending.alone snow call).answer, (pending.alone snow call).closedLower⟩] ∧
      (thread.proceed snow call pending).1.wrappedNext =
        if (pending.alone snow call).answer.opens then wrappingAdd thread.wrappedNext 1
        else thread.wrappedNext := by
  rcases driven : pending.drive snow call with ⟨fault | (_ | transport), next, wire, written⟩ <;>
    simp [Thread.proceed, PendingHandshake.alone, driven, Answer.opens, numbered]

end Alone

/-- Every pending handshake is under the number of its lower stream. -/
def Thread.Placed : Prop :=
  thread.pending.All fun lower pending => pending.lower = lower

/-- A thread whose pending handshake of a lower stream was taken out. -/
def Thread.without (lower : Nat) : Thread κ η τ :=
  { thread with pending := thread.pending.erase lower }

section Wraps

variable {snow : Handshaking κ η τ} {thread : Thread κ η τ} {call : WrapCall} {triple : Triple}

theorem Thread.pendingOf_eq_some : thread.pendingOf triple = some pending ↔
      thread.pending.lookup triple.lower = some pending ∧ pending.owner = triple.instance_ ∧
        pending.io = triple.io := by
  simp [Thread.pendingOf, Option.filter_eq_some_iff]

theorem Thread.lookup_matching (matching : thread.matching call = true) :
    thread.pending.lookup call.lower = thread.pendingOf call.triple := by
  rw [Thread.matching] at matching
  cases found : thread.pending.lookup call.lower with
  | none => simp [Thread.pendingOf, WrapCall.triple, found]
  | some =>
    rw [found, Option.all_some, Bool.and_eq_true, decide_eq_true_eq, decide_eq_true_eq] at matching
    exact (Thread.pendingOf_eq_some.mpr ⟨found, matching⟩).symm

theorem Thread.pendingOf_for (placed : thread.Placed) :
    ∀ pending ∈ thread.pendingOf triple, pending.For triple := by
  intro pending own
  obtain ⟨found, owner, io⟩ := Thread.pendingOf_eq_some.mp own
  exact ⟨owner, placed _ _ found, io⟩

theorem refused_eq_not_valid (call : WrapCall) :
    (call.lower = 0 || !call.validIo || !call.output) = !call.valid := by
  unfold WrapCall.valid
  cases call.validIo <;> cases call.output <;> simp

theorem wrap_invalid (invalid : call.valid = false) :
    thread.wrap snow call = (thread, [⟨call.triple, .invalid, false⟩]) := by
  rw [Thread.wrap, refused_eq_not_valid, invalid, Bool.not_false, if_pos rfl]

theorem wrap_matching (valid : call.valid = true) (matching : thread.matching call = true) :
    thread.wrap snow call =
      match thread.pendingOf call.triple with
      | some pending => (thread.without call.lower).proceed snow call pending
      | none =>
        match beginHandshake snow thread.instances call with
        | .error answer => (thread.without call.lower, [⟨call.triple, answer, false⟩])
        | .ok pending => (thread.without call.lower).proceed snow call pending := by
  rw [Thread.wrap, refused_eq_not_valid, valid, Bool.not_true, if_neg (by simp),
    Thread.lookup_matching matching]
  cases own : thread.pendingOf call.triple with
  | none => rfl
  | some =>
    have same := Thread.pendingOf_eq_some.mp own
    simp only [same.2.1, same.2.2, WrapCall.triple, decide_true, Bool.and_self, if_true]
    rfl

theorem put_without (lower : Nat) (kept : Option (PendingHandshake η)) :
    put (thread.without lower).pending lower kept = put thread.pending lower kept := by
  cases kept with
  | none => exact Table.erase_erase _ _
  | some => exact Table.insert_erase _ _ _

theorem wrap_pending (valid : call.valid = true) (matching : thread.matching call = true) :
    (thread.wrap snow call).1.pending =
      put thread.pending call.lower
        (alone snow thread.instances (thread.pendingOf call.triple) call).pending := by
  have absent : (thread.without call.lower).pending.lookup call.lower = none := by
    simp [Thread.without]
  rw [wrap_matching valid matching]
  cases thread.pendingOf call.triple with
  | some => exact (proceed_pending absent).trans (put_without _ _)
  | none =>
    cases begins : beginHandshake snow thread.instances call with
    | error =>
      rw [alone, begins]
      rfl
    | ok =>
      rw [alone, begins]
      exact (proceed_pending absent).trans (put_without _ _)

theorem wrap_answer (valid : call.valid = true) (matching : thread.matching call = true)
    (numbered : thread.wrappedNext ≠ 0) :
    (thread.wrap snow call).2 =
        [⟨call.triple, (alone snow thread.instances (thread.pendingOf call.triple) call).answer,
          (alone snow thread.instances (thread.pendingOf call.triple) call).closedLower⟩] ∧
      (thread.wrap snow call).1.wrappedNext =
        if (alone snow thread.instances (thread.pendingOf call.triple) call).answer.opens then
          wrappingAdd thread.wrappedNext 1
        else thread.wrappedNext := by
  rw [wrap_matching valid matching]
  cases thread.pendingOf call.triple with
  | some => exact @proceed_answer _ _ _ snow (thread.without call.lower) _ _ numbered
  | none =>
    cases begins : beginHandshake snow thread.instances call with
    | error =>
      rw [alone, begins]
      refine ⟨rfl, ?_⟩
      rw [if_neg (by rw [beginHandshake_refuses begins]; simp)]
      rfl
    | ok =>
      rw [alone, begins]
      exact @proceed_answer _ _ _ snow (thread.without call.lower) _ _ numbered

end Wraps

section Others

variable {thread next : Thread κ η τ} {call : WrapCall} {triple other : Triple}
  {kept : Option (PendingHandshake η)}

theorem Thread.pendingOf_put (begun : ∀ pending ∈ kept, pending.For other)
    (stored : next.pending = put thread.pending other.lower kept) :
    next.pendingOf triple =
      if triple = other then kept
      else if triple.lower = other.lower then none else thread.pendingOf triple := by
  by_cases lower : triple.lower = other.lower
  · cases kept with
    | none =>
      rw [if_pos lower, ite_self, Thread.pendingOf, stored, put, lower, AList.lookup_erase]
      rfl
    | some pending =>
      obtain ⟨owner, _, io⟩ := begun pending rfl
      rw [if_pos lower, Thread.pendingOf, stored, put, lower, AList.lookup_insert]
      by_cases same : triple = other
      · subst same
        simp [owner, io]
      · have apart : ¬ (other.instance_ = triple.instance_ ∧ other.io = triple.io) := by
          rintro ⟨instances, ios⟩
          apply same
          cases triple
          cases other
          simp_all
        rw [if_neg same]
        simpa [owner, io] using apart
  · have different : triple ≠ other := fun same => lower (by rw [same])
    rw [if_neg different, if_neg lower]
    cases kept with
    | none | some => simp [Thread.pendingOf, stored, put, lower]

theorem Thread.pendingOf_other (matching : thread.matching call = true)
    (different : triple ≠ call.triple) (lower : triple.lower = call.lower) :
    thread.pendingOf triple = none := by
  cases found : thread.pendingOf triple with
  | none => rfl
  | some =>
    obtain ⟨stored, owner, io⟩ := Thread.pendingOf_eq_some.mp found
    rw [lower] at stored
    simp only [Thread.matching, stored, Option.all_some, Bool.and_eq_true, decide_eq_true_eq]
      at matching
    exfalso
    apply different
    cases triple
    simp_all [WrapCall.triple]

variable {snow : Handshaking κ η τ}

theorem wrap_others_iff (placed : thread.Placed) (valid : call.valid = true) :
    (∀ triple, triple ≠ call.triple →
      (thread.wrap snow call).1.pendingOf triple = thread.pendingOf triple) ↔
        thread.matching call = true := by
  constructor
  · intro same
    by_contra mismatch
    rw [Bool.not_eq_true] at mismatch
    cases found : thread.pending.lookup call.lower with
    | none => simp [Thread.matching, found] at mismatch
    | some pending =>
      -- The handshake that does not match is taken out and not put back.
      simp only [Thread.matching, found, Option.all_some] at mismatch
      have here : thread.pendingOf ⟨pending.owner, call.lower, pending.io⟩ = some pending :=
        Thread.pendingOf_eq_some.mpr ⟨found, rfl, rfl⟩
      have gone : (thread.wrap snow call).1.pendingOf ⟨pending.owner, call.lower, pending.io⟩ =
          none := by
        rw [Thread.wrap, refused_eq_not_valid, valid, Bool.not_true, if_neg (by simp), found]
        simp [mismatch, Thread.pendingOf]
      have other : (⟨pending.owner, call.lower, pending.io⟩ : Triple) ≠ call.triple := by
        intro wrong
        simp only [WrapCall.triple, Triple.mk.injEq] at wrong
        simp [wrong.1, wrong.2.2] at mismatch
      rw [same _ other, here] at gone
      cases gone
  · intro matching triple different
    rw [Thread.pendingOf_put (alone_for (Thread.pendingOf_for placed))
      (wrap_pending valid matching), if_neg different]
    split
    · rename_i lower
      exact (Thread.pendingOf_other matching different lower).symm
    · rfl

end Others

/-- A thread that has had all calls, and one that has had those on one triple only. -/
structure Related (triple : Triple) (full short : Thread κ η τ) : Prop where
  instances : full.instances = short.instances
  own : full.pendingOf triple = short.pendingOf triple
  placed : full.Placed
  only : short.pending.All fun lower pending => pending.For triple ∧ pending.lower = lower
  /-- The numbers of the first have not gone round, or no call comes any more. -/
  numbers : full.wrappedNext = 0 ∨
    0 < short.wrappedNext ∧ short.wrappedNext ≤ full.wrappedNext ∧ full.wrappedNext < 2 ^ 64

section Relation

variable {triple : Triple} {full short : Thread κ η τ} {snow : Handshaking κ η τ}
  {history : List (Wrapping τ)} {call : WrapCall}

theorem put_all {table : Table Nat (PendingHandshake η)} {lower : Nat}
    {kept : Option (PendingHandshake η)} {holds : Nat → PendingHandshake η → Prop}
    (all : table.All holds) (new : ∀ pending ∈ kept, holds lower pending) :
    (put table lower kept).All holds := by
  cases kept with
  | none => exact all.sub (.erase _ _)
  | some pending => exact all.insert (new pending rfl)

theorem wrap_placed (placed : full.Placed) (apart : Apart history full call) :
    (full.wrap snow call).1.Placed := by
  cases valid : call.valid with
  | false =>
    rw [wrap_invalid valid]
    exact placed
  | true =>
    rw [Thread.Placed, wrap_pending valid (apart valid).1]
    exact put_all placed fun pending kept =>
      (alone_for (Thread.pendingOf_for placed) pending kept).2.1

theorem wrap_instances : (full.wrap snow call).1.instances = full.instances := by
  unfold Thread.wrap
  split
  · rfl
  dsimp only
  split
  · split
    · exact proceed_instances
    · rfl
  · split
    · rfl
    · exact proceed_instances

section

variable (related : Related triple full short)
include related

theorem Related.matching (same : call.triple = triple) : short.matching call = true := by
  rw [Thread.matching]
  cases found : short.pending.lookup call.lower with
  | none => rfl
  | some =>
    obtain ⟨begun, _⟩ := related.only _ _ found
    subst same
    simp [begun.1, begun.2.2, WrapCall.triple]

theorem Related.taken (apart : Apart history full call) (same : call.triple = triple) :
    Related triple (full.wrap snow call).1 (short.wrap snow call).1 ∧
      (full.wrap snow call).2 = (short.wrap snow call).2 := by
  cases valid : call.valid with
  | false =>
    rw [wrap_invalid valid, wrap_invalid valid]
    exact ⟨related, rfl⟩
  | true =>
    subst same
    obtain ⟨matching, numbered⟩ := apart valid
    have numbers := related.numbers
    have shortMatching := related.matching rfl
    have shortPlaced : short.Placed := related.only.mono fun _ _ both => both.2
    obtain ⟨fullObs, fullNext⟩ := @wrap_answer _ _ _ snow full call valid matching numbered
    obtain ⟨shortObs, shortNext⟩ :=
      @wrap_answer _ _ _ snow short call valid shortMatching (by omega)
    -- Both threads have the same handshake, so it does the same on both.
    rw [← related.own, ← related.instances] at shortObs shortNext
    refine ⟨⟨?_, ?_, wrap_placed related.placed apart, ?_, ?_⟩, fullObs.trans shortObs.symm⟩
    · rw [wrap_instances, wrap_instances, related.instances]
    · rw [Thread.pendingOf_put (alone_for (Thread.pendingOf_for related.placed))
          (wrap_pending valid matching),
        Thread.pendingOf_put (alone_for (Thread.pendingOf_for shortPlaced))
          (wrap_pending valid shortMatching), if_pos rfl, if_pos rfl, related.own,
        related.instances]
    · rw [wrap_pending valid shortMatching]
      refine put_all related.only fun pending kept => ?_
      have begun := alone_for (Thread.pendingOf_for shortPlaced) pending kept
      exact ⟨begun, begun.2.1⟩
    · rw [fullNext, shortNext]
      unfold wrappingAdd
      split <;> omega

theorem Related.skipped (apart : Apart history full call)
    (different : call.triple ≠ triple) : Related triple (full.wrap snow call).1 short := by
  cases valid : call.valid with
  | false =>
    rw [wrap_invalid valid]
    exact related
  | true =>
    obtain ⟨matching, numbered⟩ := apart valid
    have numbers := related.numbers
    refine ⟨wrap_instances.trans related.instances, ?_, wrap_placed related.placed apart,
      related.only, ?_⟩
    · rw [(wrap_others_iff related.placed valid).mpr matching triple (Ne.symm different)]
      exact related.own
    · rw [(wrap_answer valid matching numbered).2]
      unfold wrappingAdd
      split <;> omega

end

theorem wrap_about {obs : Wrapping τ} (apart : Apart history full call)
    (among : obs ∈ (full.wrap snow call).2) : obs.triple = call.triple := by
  cases valid : call.valid with
  | false =>
    rw [wrap_invalid valid, List.mem_singleton] at among
    rw [among]
  | true =>
    obtain ⟨matching, numbered⟩ := apart valid
    rw [(wrap_answer valid matching numbered).1, List.mem_singleton] at among
    rw [among]

end Relation

/-- Handshakes that count their messages, and have finished after two. -/
def counting : Handshaking Nat Nat Nat where
  buildInitiator key := some key
  buildResponder key := some key
  writeMessage state random := some ([random.toUInt8], state + 1)
  readMessage state message := some (0, state + message.length)
  isHandshakeFinished state := 2 ≤ state
  intoTransportMode state := some state

/-- A thread with a client and a server that has wrapped nothing yet. -/
def freshThread : Thread Nat Nat Nat where
  instances := AList.insert 2 (.server 0) (AList.singleton 1 (.client 0))
  pending := ∅
  wrapped := ∅
  wrappedNext := 1

/-- The client sends its message and gets nothing back yet. -/
def beginCall : WrapCall where
  instance_ := 1
  lower := 1
  io := 1
  validIo := true
  output := true
  random := 7
  writes := [.progress 3]
  reads := [.pending]
  wire := []

/-- The answer of the server comes, and the lower stream takes nothing. -/
def answerCall : WrapCall :=
  { beginCall with writes := [], reads := [.progress 2, .progress 1], wire := [0, 1, 9] }

/--
Handshakes go on and are answered as if the calls on other triples had not been made, as long as no
call finds a handshake of another triple under the number of its lower stream.

After such calls, the next one leaves the handshakes of others alone exactly when it finds none.
-/
theorem handshakes_apart {thread : Thread κ η τ}
    (fresh : thread.pending = ∅) (numbered : 0 < thread.wrappedNext)
    (small : thread.wrappedNext < 2 ^ 64) {calls : List WrapCall}
    (apart : (machine snow).admits Apart ([], thread) calls = true) : (∀ triple : Triple,
      let full := (machine snow).execute ([], thread) calls
      let short := (machine snow).execute ([], thread)
        (calls.filter fun call => call.triple = triple)
      (full.1.filter fun obs => obs.triple = triple) = short.1 ∧
        full.2.pendingOf triple = short.2.pendingOf triple) ∧
      ∀ call : WrapCall, call.valid = true →
        let last := ((machine snow).execute ([], thread) calls).2
        (∀ triple, triple ≠ call.triple →
          (last.wrap snow call).1.pendingOf triple = last.pendingOf triple) ↔
            last.matching call = true := by
  have start (triple : Triple) : Related triple thread thread := by
    refine ⟨rfl, rfl, ?_, ?_, Or.inr ⟨numbered, le_rfl, small⟩⟩
    · rw [Thread.Placed, fresh]
      exact Table.All.empty
    · rw [fresh]
      exact Table.All.empty
  have both (triple : Triple) := @System.execute_skip _ _ _ (machine snow) Apart _
    (Related triple) (fun call => call.triple = triple) (fun obs => obs.triple = triple)
    (fun history full short call related apart same => by
      have own := of_decide_eq_true same
      obtain ⟨next, answers⟩ := related.taken apart own
      exact ⟨next, answers, fun obs among =>
        decide_eq_true ((wrap_about apart among).trans own)⟩)
    (fun history full short call related apart other => by
      have different := of_decide_eq_false other
      exact ⟨related.skipped apart different, fun obs among =>
        decide_eq_false fun same => different ((wrap_about apart among).symm.trans same)⟩)
    [] thread thread calls (start triple) apart
  constructor
  · intro triple
    exact ⟨(both triple).2, (both triple).1.own⟩
  · intro call valid
    exact wrap_others_iff (both call.triple).1.placed valid

theorem handshakes_apart_two :
    let calls := [beginCall, { beginCall with lower := 2 }, answerCall]
    (machine counting).admits Apart ([], freshThread) calls = true ∧
      (∀ triple : Triple,
        let full := (machine counting).execute ([], freshThread) calls
        let short := (machine counting).execute ([], freshThread)
          (calls.filter fun call => call.triple = triple)
        (full.1.filter fun obs => obs.triple = triple) = short.1 ∧
          full.2.pendingOf triple = short.2.pendingOf triple) ∧
      ((machine counting).execute ([], freshThread) calls).1.map Wrapping.answer =
        [.pending, .pending, .ok 2] :=
  ⟨by decide +kernel,
    (handshakes_apart counting rfl (by decide) (by decide) (by decide +kernel)).1,
    by decide +kernel⟩

/--
A call with other functions on the number of a pending handshake is refused and drops the handshake.

The answer of the server, which would have finished the handshake, then finds a new one.
-/
theorem handshake_dropped :
    let other : WrapCall := { beginCall with io := 2 }
    let before := ((machine counting).execute ([], freshThread) [beginCall]).2
    other.triple ≠ beginCall.triple ∧
      (before.pendingOf beginCall.triple).isSome = true ∧
      (before.wrap counting other).2.map Wrapping.answer = [.invalid] ∧
      (before.wrap counting other).1.pendingOf beginCall.triple = none ∧
      ((machine counting).execute ([], freshThread) [beginCall, answerCall]).1.map
        Wrapping.answer = [.pending, .ok 2] ∧
      ((machine counting).execute ([], freshThread) [beginCall, other, answerCall]).1.map
        Wrapping.answer = [.pending, .invalid, .pending] := by
  decide +kernel

end Snolc.Noise
