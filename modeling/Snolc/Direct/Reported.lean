import Snolc.Direct.Steps
import Snolc.Lib.Trace

/-! The direct adapter has only those addresses connected that it has stored and handed out. -/

namespace Snolc.Direct

variable {early late : List Obs} {addresses : List SocketAddr} {operation : Nat}

/-- The addresses stored for an operation, since it was removed last. -/
def storedFor (operation : Nat) (history : List Obs) : Option (List SocketAddr) :=
  history.foldl (fun known obs =>
    match obs with
    | .stored other addresses => if other = operation then some addresses else known
    | .removed other => if other = operation then none else known
    | _ => known) none

/-- The addresses handed to the caller for an operation, since it was removed last. -/
def offeredFor (operation : Nat) (history : List Obs) : Option (List SocketAddr) :=
  history.foldl (fun known obs =>
    match obs with
    | .offered other addresses => if other = operation then some addresses else known
    | .removed other => if other = operation then none else known
    | _ => known) none

/-- What a caller has been told of an operation: nothing, or the addresses stored for it. -/
structure Ledger where
  stored : Option (List SocketAddr)
  offered : Option (List SocketAddr)
  deriving DecidableEq

/--
How the ledger of an operation goes on.

Addresses are stored where there are none, and only stored ones are handed out or connected.
-/
def Ledger.Next (operation : Nat) (ledger : Ledger) : Obs → Ledger → Prop
  | .stored other addresses, next =>
    if other = operation then ledger.stored = none ∧ next = ⟨some addresses, ledger.offered⟩
    else next = ledger
  | .offered other addresses, next =>
    if other = operation then
      ledger.stored = some addresses ∧ next = ⟨some addresses, some addresses⟩
    else next = ledger
  | .requested other addresses, next =>
    next = ledger ∧ (other = operation → ledger.stored = some addresses)
  | .removed other, next => next = if other = operation then ⟨none, none⟩ else ledger
  | _, next => next = ledger

section Ledgers

variable {operation : Nat} {first last : Ledger} {history : List Obs}

theorem Ledger.Next.cases {obs : Obs} (one : Ledger.Next operation first obs last) :
    (∃ addresses, obs = .stored operation addresses ∧ first.stored = none ∧
        last = ⟨some addresses, first.offered⟩) ∨
      (∃ addresses, obs = .offered operation addresses ∧ first.stored = some addresses ∧
        last = ⟨some addresses, some addresses⟩) ∨
      (obs = .removed operation ∧ last = ⟨none, none⟩) ∨
      last = first ∧ ∀ history,
        storedFor operation (history ++ [obs]) = storedFor operation history ∧
        offeredFor operation (history ++ [obs]) = offeredFor operation history := by
  cases obs <;> grind [Ledger.Next, storedFor, offeredFor]

theorem Ledger.Next.folds (follows : Follows (Ledger.Next operation) ⟨none, none⟩ history last) :
    last = ⟨storedFor operation history, offeredFor operation history⟩ := by
  -- The induction is from the back, since the folds take the last observation last.
  induction history using List.reverseRecOn generalizing last with
  | nil =>
    cases follows
    rfl
  | append_singleton history obs ih =>
    obtain ⟨middle, before, one⟩ := Follows.append_iff.mp follows
    cases one with
    | cons one rest =>
      cases rest
      cases ih before
      rcases one.cases with ⟨_, rfl, _, rfl⟩ | ⟨_, rfl, stored, rfl⟩ | ⟨rfl, rfl⟩ | ⟨rfl, same⟩
      · simp [storedFor, offeredFor]
      · simpa [storedFor, offeredFor] using stored.symm
      · simp [storedFor, offeredFor]
      · rw [(same history).1, (same history).2]

theorem Ledger.Next.stays (follows : Follows (Ledger.Next operation) first history last)
    (stored : first.stored = some addresses) (kept : .removed operation ∉ history) :
    last.stored = some addresses := by
  induction follows with
  | nil => exact stored
  | @cons first second last obs history one rest ih =>
    refine ih ?_ fun among => kept (List.mem_cons_of_mem obs among)
    rcases one.cases with ⟨_, _, absent, _⟩ | ⟨_, _, found, rfl⟩ | ⟨rfl, _⟩ | ⟨rfl, _⟩
    · -- Nothing is stored over what is there.
      cases absent.symm.trans stored
    · rw [← found, stored]
    · exact absurd List.mem_cons_self kept
    · exact stored

theorem Ledger.Next.agrees (follows : Follows (Ledger.Next operation) first history last)
    (agrees : first.offered ≠ none → first.offered = first.stored) :
    last.offered ≠ none → last.offered = last.stored := by
  induction follows with
  | nil => exact agrees
  | cons one rest ih =>
    refine ih ?_
    rcases one.cases with ⟨_, _, absent, rfl⟩ | ⟨_, _, _, rfl⟩ | ⟨_, rfl⟩ | ⟨rfl, _⟩
    · intro handed
      exact absurd ((agrees handed).trans absent) handed
    · exact fun _ => rfl
    · exact fun _ => rfl
    · exact agrees

theorem Ledger.Next.offered (follows : Follows (Ledger.Next operation) first
      (early ++ .offered operation addresses :: late) last) :
    ∃ before after, Follows (Ledger.Next operation) first early before ∧
      before.stored = some addresses ∧ after.stored = some addresses ∧
      Follows (Ledger.Next operation) after late last := by
  obtain ⟨before, one, rest⟩ := Follows.append_iff.mp follows
  cases rest with
  | cons offer rest =>
    simp only [Ledger.Next, ↓reduceIte] at offer
    exact ⟨before, _, one, offer.1, by rw [offer.2], rest⟩

theorem Ledger.Next.requested (follows : Follows (Ledger.Next operation) first
      (early ++ .requested operation addresses :: late) last) :
    ∃ before, Follows (Ledger.Next operation) first early before ∧
      before.stored = some addresses := by
  obtain ⟨before, one, rest⟩ := Follows.append_iff.mp follows
  cases rest with
  | cons request => exact ⟨before, one, request.2 rfl⟩

theorem Plain.follows {replies : List Obs} (plain : Plain replies) (ledger : Ledger) :
    Follows (Ledger.Next operation) ledger replies ledger := by
  apply Follows.stay
  intro obs among
  obtain ⟨status, rfl⟩ := plain obs among
  rfl

theorem overwrites_follows (flows : Table Nat DirectFlow) (flow : Nat) (ledger : Ledger) :
    Follows (Ledger.Next operation) ledger (State.overwrites flows flow) ledger := by
  unfold State.overwrites
  split
  · exact .single rfl
  · exact .nil ledger

end Ledgers

section Turns

variable {s t : State} {event : Event} {obs : List Obs} {operation : Nat}

theorem Ledger.Next.offer {other : Nat} {addresses : List SocketAddr} {ledger : Ledger}
    (found : other = operation → ledger.stored = some addresses) :
    ∃ next, Ledger.Next operation ledger (.offered other addresses) ⟨ledger.stored, next⟩ := by
  by_cases same : other = operation
  · refine ⟨some addresses, ?_⟩
    simp [Ledger.Next, same, found same]
  · refine ⟨ledger.offered, ?_⟩
    simp [Ledger.Next, same]

theorem Ledger.Next.remove (state : State) (other : Nat) (offered : Option (List SocketAddr)) :
    ∃ next, Ledger.Next operation ⟨state.resolved.lookup operation, offered⟩ (.removed other)
      ⟨(state.resolved.erase other).lookup operation, next⟩ := by
  rw [Table.lookup_erase_eq]
  by_cases same : other = operation
  · exact ⟨none, by simp [Ledger.Next, same]⟩
  · exact ⟨offered, by simp [Ledger.Next, same, Ne.symm same]⟩

/-- A change moves the ledger of an operation from what is stored before to what is stored after. -/
theorem Turn.ledger (turn : Turn s event t obs) (operation : Nat)
    (offered : Option (List SocketAddr)) :
    ∃ next, Follows (Ledger.Next operation) ⟨s.resolved.lookup operation, offered⟩ obs
      ⟨t.resolved.lookup operation, next⟩ := by
  cases turn with
  | @offer other addresses replies found plain =>
    obtain ⟨next, one⟩ := @Ledger.Next.offer operation other addresses
      ⟨s.resolved.lookup operation, offered⟩ fun same => same ▸ found
    exact ⟨next, .cons one (plain.follows _)⟩
  | @store other addresses offers replies absent handed plain =>
    -- The new list is in the ledger before it is handed out.
    have first : Ledger.Next operation ⟨s.resolved.lookup operation, offered⟩
        (.stored other addresses)
        ⟨(s.resolved.insert other addresses).lookup operation, offered⟩ := by
      rw [Table.lookup_insert_eq]
      by_cases same : other = operation
      · subst same
        simp [Ledger.Next, absent]
      · simp [Ledger.Next, same, Ne.symm same]
    rcases handed with rfl | rfl
    · exact ⟨offered, .cons first (plain.follows _)⟩
    obtain ⟨next, second⟩ := @Ledger.Next.offer operation other addresses
      ⟨(s.resolved.insert other addresses).lookup operation, offered⟩ fun same => by
        subst same
        simp
    exact ⟨next, .cons first (.cons second (plain.follows _))⟩
  | @request call addresses entry replies worker opens starts found plain =>
    refine ⟨offered, .cons ⟨rfl, ?_⟩ (plain.follows _)⟩
    intro same
    exact same ▸ found
  | quiet _ plain | unresolved plain | resolving _ _ plain | opening _ plain | opened _ _ plain
  | unopened plain | poll _ _ plain => exact ⟨offered, plain.follows _⟩
  | mismatched _ plain | dropped plain | close plain =>
    obtain ⟨next, one⟩ := Ledger.Next.remove s _ offered
    exact ⟨next, .cons one (plain.follows _)⟩
  | attached _ plain | attachedDatagram _ plain =>
    obtain ⟨next, one⟩ := Ledger.Next.remove s _ offered
    exact ⟨next, .cons one ((overwrites_follows _ _ _).append (plain.follows _))⟩

/-- A change keeps the number of pending requests within its limit. -/
theorem Turn.bounded (turn : Turn s event t obs)
    (bounded : s.pending.len + s.pendingResolutions.len ≤ s.options.maxPendingOpens) :
    t.pending.len + t.pendingResolutions.len ≤ t.options.maxPendingOpens := by
  have shorter := Table.len_erase_le s.pendingResolutions
  have fewer := Table.len_erase_le s.pending
  cases turn with
  | quiet | offer | mismatched | dropped | attached | attachedDatagram | poll => exact bounded
  | @store operation | @unresolved operation =>
    have := shorter operation
    simp only
    omega
  | @resolving operation _ _ _ room =>
    have := shorter operation
    simp only [Table.len_insert]
    rcases room with room | present
    · simp only [State.hasRoom, decide_eq_true_eq] at room
      omega
    · have := Table.len_erase present
      omega
  | @request call _ _ _ _ _ starts =>
    have := fewer call.operation
    have room : s.hasRoom = true := by
      simp only [State.startsOpen, Bool.and_eq_true] at starts
      exact starts.1.1.1.2
    simp only [State.hasRoom, decide_eq_true_eq] at room
    simp only [Table.len_insert]
    omega
  | @opening operation _ _ found =>
    have present : s.pending.lookup operation ≠ none := by simp [found]
    have := Table.len_erase present
    simp only [Table.len_insert]
    omega
  | @opened operation | @unopened operation =>
    have := fewer operation
    simp only
    omega
  | @close operation =>
    have := fewer operation
    have := shorter operation
    simp only
    omega

theorem Plain.noRequest {replies : List Obs} (plain : Plain replies) (operation : Nat)
    (addresses : List SocketAddr) : .requested operation addresses ∉ replies := by
  intro among
  obtain ⟨status, wrong⟩ := plain _ among
  cases wrong

theorem overwrites_noRequest (flows : Table Nat DirectFlow) (flow operation : Nat)
    (addresses : List SocketAddr) :
    .requested operation addresses ∉ State.overwrites flows flow := by
  unfold State.overwrites
  split <;> simp

theorem Turn.requests (turn : Turn s event t obs) {operation : Nat} {before after : List Obs}
    (requests : obs = before ++ .requested operation addresses :: after) :
    before = [] ∧ s.resolved.lookup operation = some addresses ∧
      ∃ call, event = .open_ call ∧ call.operation = operation ∧ s.startsOpen call = true := by
  have among : .requested operation addresses ∈ obs := by simp [requests]
  cases turn with
  | @request call _ _ _ worker opens starts found plain =>
    cases before with
    | nil =>
      rw [List.nil_append, List.cons.injEq] at requests
      cases requests.1
      exact ⟨rfl, found, call, opens, rfl, starts⟩
    | cons =>
      rw [List.cons_append, List.cons.injEq] at requests
      exact absurd (by simp [requests.2]) (plain.noRequest operation addresses)
  | store _ handed plain =>
    rcases handed with rfl | rfl
    all_goals exact absurd (by simpa using among) (plain.noRequest operation addresses)
  | attached _ plain | attachedDatagram _ plain =>
    rw [List.mem_append, List.mem_cons] at among
    rcases among with (wrong | flow) | reply
    · cases wrong
    · exact absurd flow (overwrites_noRequest _ _ _ _)
    · exact absurd reply (plain.noRequest operation addresses)
  | quiet _ plain | offer _ plain | unresolved plain | resolving _ _ plain | opening _ plain
  | opened _ _ plain | unopened plain | mismatched _ plain | dropped plain | close plain
  | poll _ _ plain => exact absurd (by simpa using among) (plain.noRequest operation addresses)

end Turns

/-- An open that starts comes after a resolve that has handed its addresses to the caller. -/
def Asked (history : List Obs) (state : State) : Event → Prop
  | .open_ call => state.startsOpen call = true →
      (offeredFor call.operation history).isSome = true
  | _ => True

instance (history : List Obs) (state : State) (event : Event) :
    Decidable (Asked history state event) :=
  match event with
  | .open_ _ => inferInstanceAs (Decidable (_ → _))
  | .resolve _ | .attach _ | .attachDatagram _ | .complete _ _ _ | .closeFlow _ | .poll _ _ | .recv
  | .respond _ _ | .stop => isTrue trivial

section Runs

variable {env : Env} {guard : List Obs → State → Event → Prop} {history : List Obs}
  {state : State}

variable (run : (machine env).Run (Fresh env) guard history state)
include run

/-- In every run the ledger of an operation ends with what is stored for it. -/
theorem run_ledger (operation : Nat) : Follows (Ledger.Next operation) ⟨none, none⟩ history
      ⟨state.resolved.lookup operation, offeredFor operation history⟩ := by
  have follows : ∃ offered, Follows (Ledger.Next operation) ⟨none, none⟩ history
      ⟨state.resolved.lookup operation, offered⟩ := by
    refine @System.Run.invariant _ _ _ (machine env) _ _ (fun history state =>
      ∃ offered, Follows (Ledger.Next operation) ⟨none, none⟩ history
        ⟨state.resolved.lookup operation, offered⟩) ?_ ?_ _ _ run
    · rintro state ⟨options, _, rfl⟩
      exact ⟨none, .nil _⟩
    · rintro history state event ⟨offered, before⟩ _
      obtain ⟨next, after⟩ := (step_turn event).ledger operation offered
      exact ⟨next, before.append after⟩
  obtain ⟨offered, follows⟩ := follows
  have known := Ledger.Next.folds follows
  rw [Ledger.mk.injEq] at known
  rw [← known.2]
  exact follows

/-- In every run the pending requests stay within their limit. -/
theorem run_bounded :
    state.pending.len + state.pendingResolutions.len ≤ state.options.maxPendingOpens := by
  refine run.stateInvariant (fun state =>
    state.pending.len + state.pendingResolutions.len ≤ state.options.maxPendingOpens) ?_ ?_
  · rintro state ⟨options, _, rfl⟩
    exact Nat.zero_le _
  · intro history state event bounded _
    exact (step_turn event).bounded bounded

theorem offeredFor_stored (handed : (offeredFor operation history).isSome = true) :
    offeredFor operation history = state.resolved.lookup operation :=
  Ledger.Next.agrees (run_ledger run operation) (by simp)
    (Option.isSome_iff_ne_none.mp handed)

theorem storedFor_requested (cut : history = early ++ .requested operation addresses :: late) :
    storedFor operation early = some addresses := by
  have follows := run_ledger run operation
  rw [cut] at follows
  obtain ⟨before, one, stored⟩ := Ledger.Next.requested follows
  rw [Ledger.Next.folds one] at stored
  exact stored

theorem storedFor_offered (cut : history = early ++ .offered operation addresses :: late)
    (kept : .removed operation ∉ late) : storedFor operation history = some addresses ∧
      ∀ other, .offered operation other ∈ late → other = addresses := by
  have follows := run_ledger run operation
  rw [cut] at follows
  have folds := Ledger.Next.folds follows
  obtain ⟨_, after, _, _, stored, rest⟩ := Ledger.Next.offered follows
  refine ⟨?_, ?_⟩
  · have last := Ledger.Next.stays rest stored kept
    rw [folds, ← cut] at last
    exact last
  · intro other among
    obtain ⟨middle, more, rfl⟩ := List.append_of_mem among
    obtain ⟨before, _, one, again, _, _⟩ := Ledger.Next.offered rest
    -- Between the two offers nothing is removed, so the same addresses are stored.
    have same := Ledger.Next.stays one stored fun removed =>
      kept (List.mem_append_left _ removed)
    exact Option.some.inj (again.symm.trans same)

theorem offeredFor_requested
    {event : Event} (requests : .requested operation addresses ∈ (state.step env event).2) :
    offeredFor operation history = some addresses ↔
      (offeredFor operation history).isSome = true := by
  constructor
  · intro handed
    simp [handed]
  · intro handed
    obtain ⟨before, after, cut⟩ := List.append_of_mem requests
    rw [offeredFor_stored run handed]
    exact ((step_turn event).requests cut).2.1

end Runs

/--
The addresses that go to the worker are those stored for their operation, which stay the same from
the first successful resolve to the removal, and requests stay within their limit.

They were handed to the caller exactly when some resolve of the operation has succeeded since it was
removed last; so they always were in runs in which no open starts before that.
-/
theorem connected_reported (env : Env) :
    (∀ history state, (machine env).Run (Fresh env) (fun _ _ _ => True) history state →
      state.pending.len + state.pendingResolutions.len ≤ state.options.maxPendingOpens ∧
      (∀ operation early addresses late,
        history = early ++ .requested operation addresses :: late →
          storedFor operation early = some addresses) ∧
      (∀ operation early addresses late, history = early ++ .offered operation addresses :: late →
        .removed operation ∉ late → storedFor operation history = some addresses ∧
          ∀ other, .offered operation other ∈ late → other = addresses) ∧
      ∀ event operation addresses, .requested operation addresses ∈ (state.step env event).2 →
        (offeredFor operation history = some addresses ↔
          (offeredFor operation history).isSome = true)) ∧
      ∀ history state, (machine env).Run (Fresh env) Asked history state →
        ∀ operation early addresses late,
          history = early ++ .requested operation addresses :: late →
            offeredFor operation early = some addresses := by
  refine ⟨fun history state run => ⟨run_bounded run, ?_, ?_, ?_⟩, fun history state run => ?_⟩
  · intro operation early addresses late cut
    exact storedFor_requested run cut
  · intro operation early addresses late cut kept
    exact storedFor_offered run cut kept
  · intro event operation addresses requests
    exact offeredFor_requested run requests
  · intro operation early addresses late cut
    refine run.occurrences (fun early item => ∀ operation addresses,
      item = .requested operation addresses → offeredFor operation early = some addresses)
      ?_ cut _ _ rfl
    rintro history state event before item after run asked now operation addresses rfl
    obtain ⟨rfl, _, call, rfl, rfl, starts⟩ := (step_turn event).requests now
    rw [List.append_nil]
    have among : .requested call.operation addresses ∈ (state.step env (.open_ call)).2 :=
      now ▸ List.mem_cons_self
    exact (offeredFor_requested run among).mpr (asked starts)

open Sample

/-- An operation that is resolved and opened has the addresses connected that were handed out. -/
theorem connected_reported_opened :
    .requested 42 [⟨.v4 0xc0000201#32, 53⟩] ∈ (reached (connects 42 .tcp)).1 ∧
      ∀ early addresses late,
        (reached (connects 42 .tcp)).1 = early ++ .requested 42 addresses :: late →
          offeredFor 42 early = some addresses := by
  have run : (machine env).Run (Fresh env) Asked (reached (connects 42 .tcp)).1
      (reached (connects 42 .tcp)).2 := .reached ⟨options, rfl, rfl⟩ (by decide +kernel)
  exact ⟨by decide +kernel, (connected_reported env).2 _ _ run 42⟩

/-- A resolve whose output is too small, and an open. -/
def unreported : List Event :=
  [resolves 7 .tcp 0, opens 7 .tcp]

/-- Addresses that have not fitted into the output of the caller are connected. -/
theorem connected_unreported :
    (machine env).Run (Fresh env) (fun _ _ _ => True) (reached unreported).1
        (reached unreported).2 ∧
      (reached unreported).1 =
        [.stored 7 [⟨.v4 0xc0000201#32, 53⟩], .returned .resource,
          .requested 7 [⟨.v4 0xc0000201#32, 53⟩], .returned .pending] ∧
      offeredFor 7 (reached unreported).1 = none :=
  ⟨.reached ⟨options, rfl, rfl⟩ (by decide +kernel), by decide +kernel⟩

end Snolc.Direct
