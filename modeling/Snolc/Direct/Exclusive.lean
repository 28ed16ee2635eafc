import Snolc.Direct.Steps

/-! An operation of the direct adapter is in one place at a time. -/

namespace Snolc.Direct

open State Option Table

/-- Where an operation can be, once its addresses are known. -/
inductive Place
  | pending
  | ready
  | active
  | activeDatagrams
  deriving DecidableEq, Repr

/-- Whether an operation is a key of a table. -/
def State.holds (state : State) (operation : Nat) : Place → Bool
  | .pending => (state.pending.lookup operation).isSome
  | .ready => (state.ready.lookup operation).isSome
  | .active => (state.active.lookup operation).isSome
  | .activeDatagrams => (state.activeDatagrams.lookup operation).isSome

/-- Every operation is in at most one place. -/
def State.Exclusive (state : State) : Prop :=
  ∀ operation first second, state.holds operation first = true →
    state.holds operation second = true → first = second

/-- An open that starts does not find its operation among the datagram flows. -/
def Apart (_ : List Obs) (state : State) : Event → Prop
  | .open_ call => state.startsOpen call = true →
      state.holds call.operation .activeDatagrams = false
  | _ => True

instance (history : List Obs) (state : State) (event : Event) :
    Decidable (Apart history state event) :=
  match event with
  | .open_ _ => inferInstanceAs (Decidable (_ → _))
  | .resolve _ | .attach _ | .attachDatagram _ | .complete _ _ _ | .closeFlow _ | .poll _ _ | .recv
  | .respond _ _ | .stop => isTrue trivial

section Preservation

variable {env : Env} {s t : State} {operation : Nat}

theorem State.Exclusive.shrink (exclusive : s.Exclusive)
    (fewer : ∀ operation place, t.holds operation place = true →
      s.holds operation place = true) : t.Exclusive :=
  fun operation first second one two =>
    exclusive operation first second (fewer _ _ one) (fewer _ _ two)

theorem State.Exclusive.take (exclusive : s.Exclusive) (operation : Nat) (place : Place)
    (nowhere : ∀ other, other ≠ place → t.holds operation other = false)
    (fewer : ∀ other held, other ≠ operation → t.holds other held = true →
      s.holds other held = true) : t.Exclusive := by
  have only : ∀ held, t.holds operation held = true → held = place := by
    intro held here
    by_contra different
    rw [nowhere held different] at here
    cases here
  intro other first second one two
  by_cases same : other = operation
  · subst same
    rw [only first one, only second two]
  · exact exclusive other first second (fewer other first same one) (fewer other second same two)

theorem State.Exclusive.move (exclusive : s.Exclusive) (operation : Nat) {before : Place}
    (place : Place) (held : s.holds operation before = true)
    (left : t.holds operation before = false)
    (fewer : ∀ other held, other ≠ operation ∨ held ≠ place → t.holds other held = true →
      s.holds other held = true) : t.Exclusive := by
  refine exclusive.take operation place ?_ fun other held different =>
    fewer other held (.inl different)
  intro other different
  by_contra here
  -- The operation would have been in two places before.
  have there := fewer operation other (.inr different) (by simpa using here)
  rw [exclusive operation other before there held] at here
  exact here left

theorem State.startsOpen_free {call : OpenCall} (starts : s.startsOpen call = true) :
    s.pending.lookup call.operation = none ∧ s.ready.lookup call.operation = none ∧
      s.active.lookup call.operation = none := by
  simp only [startsOpen, Bool.and_eq_true, isNone_iff_eq_none] at starts
  obtain ⟨⟨⟨⟨⟨⟨⟨_, ready⟩, active⟩, pending⟩, _⟩, _⟩, _⟩, _⟩ := starts
  exact ⟨pending, ready, active⟩

theorem Plain.kept {replies : List Obs} (plain : Plain replies) (operation : Nat) :
    .overwritten operation ∉ replies := by
  intro among
  obtain ⟨status, wrong⟩ := plain _ among
  cases wrong

theorem overwrites_absent {flows : Table Nat DirectFlow} (absent : flows.lookup operation = none) :
    State.overwrites flows operation = [] := by
  simp [overwrites, absent]

theorem State.Exclusive.ready_only (exclusive : s.Exclusive)
    (ready : s.holds operation .ready = true) {place : Place} (other : place ≠ .ready) :
    s.holds operation place = false := by
  by_contra held
  exact other (exclusive operation place .ready (by simpa using held) ready)

/-- A change keeps every operation in one place, if an open that starts finds it nowhere. -/
theorem Turn.exclusive {event : Event} {obs : List Obs} (turn : Turn s event t obs)
    (exclusive : s.Exclusive) {history : List Obs} (apart : Apart history s event) :
    t.Exclusive ∧ ∀ operation, .overwritten operation ∉ obs := by
  cases turn with
  | quiet _ plain | offer _ plain | unresolved plain | resolving _ _ plain =>
    exact ⟨exclusive, fun other among => plain.kept other (by simpa using among)⟩
  | store _ offered plain =>
    refine ⟨exclusive, fun other among => plain.kept other ?_⟩
    rcases offered with rfl | rfl <;> simpa using among
  | @request call _ _ _ worker opens starts found plain =>
    subst opens
    refine ⟨?_, fun other among => plain.kept other (by simpa using among)⟩
    obtain ⟨_, ready, active⟩ := startsOpen_free starts
    have datagrams : s.holds call.operation .activeDatagrams = false := apart starts
    refine exclusive.take call.operation .pending ?_ ?_
    · intro place different
      cases place <;> simp_all [holds]
    · intro other place different held
      cases place <;> simpa [holds, isSome_insert, different] using held
  | opening found plain | mismatched found plain =>
    refine ⟨exclusive.shrink ?_, fun other among => plain.kept other (by simpa using among)⟩
    intro other place held
    cases place <;> grind [holds, isSome_insert]
  | @opened operation _ _ found notActive plain =>
    have present : s.holds operation .pending = true := isSome_iff_ne_none.mpr found
    refine ⟨exclusive.move operation .ready present ?_ ?_, plain.kept⟩
    · simp [holds]
    · intro other place different held
      cases place <;> simp_all [holds, isSome_erase]
  | unopened plain | dropped plain | close plain =>
    refine ⟨exclusive.shrink ?_, fun other among => plain.kept other (by simpa using among)⟩
    intro other place held
    cases place <;> simp_all [holds, isSome_erase]
  | @attached operation _ _ found plain =>
    have present : s.holds operation .ready = true := isSome_iff_ne_none.mpr found
    have free : s.active.lookup operation = none := by
      simpa [holds] using exclusive.ready_only present (show Place.active ≠ .ready by simp)
    refine ⟨exclusive.move operation .active present ?_ ?_, ?_⟩
    · simp [holds]
    · intro other place different held
      cases place <;> simp_all [holds, isSome_erase]
    · intro other among
      rw [overwrites_absent free] at among
      exact plain.kept other (by simpa using among)
  | @attachedDatagram operation _ _ found plain =>
    have present : s.holds operation .ready = true := isSome_iff_ne_none.mpr found
    have free : s.activeDatagrams.lookup operation = none := by
      simpa [holds] using
        exclusive.ready_only present (show Place.activeDatagrams ≠ .ready by simp)
    refine ⟨exclusive.move operation .activeDatagrams present ?_ ?_, ?_⟩
    · simp [holds]
    · intro other place different held
      cases place <;> simp_all [holds, isSome_erase]
    · intro other among
      rw [overwrites_absent free] at among
      exact plain.kept other (by simpa using among)
  | poll stays staysToo plain =>
    refine ⟨exclusive.shrink ?_, plain.kept⟩
    intro other place held
    cases place with
    | pending | ready => exact held
    | active | activeDatagrams =>
      obtain ⟨flow, found⟩ := isSome_iff_exists.mp held
      exact isSome_iff_exists.mpr ⟨flow, (lookup_retain_eq_some.mp found).1⟩

end Preservation

theorem State.startsOpen_step {s : State} {call : OpenCall} (starts : s.startsOpen call = true) :
    (s.open_ call).1.holds call.operation .pending = true ∧
      (s.open_ call).1.activeDatagrams = s.activeDatagrams := by
  obtain ⟨pending, ready, active⟩ := startsOpen_free starts
  simp only [startsOpen, Worker.accepts, Bool.and_eq_true, Bool.not_eq_true',
    decide_eq_true_eq] at starts
  obtain ⟨⟨⟨⟨⟨⟨⟨⟨⟨numbered, given⟩, output⟩, _⟩, _⟩, _⟩, room⟩, found⟩, woken⟩, alive, short⟩ :=
    starts
  obtain ⟨addresses, found⟩ := isSome_iff_exists.mp found
  cases metadata : call.metadata with
  | error => simp [metadata, Except.toOption] at given
  | ok metadata_ =>
    cases wake : retainWake call.wake with
    | error => simp [wake, Except.isOk, Except.toBool] at woken
    | ok =>
      have kind : metadata_.kind ≠ .other := by simpa [metadata, Except.toOption] using given
      simp [open_, startOpen, holds, numbered, metadata, kind, output, ready,
        active, pending, room, found, wake, Worker.trySend, alive, Nat.not_le.mpr short]

/--
Every operation is in at most one place and no flow is overwritten, as long as no open starts for an
operation that is still a datagram flow.

After such a run, the next event keeps this exactly when it is no such open.
-/
theorem operations_exclusive {env : Env} {history : List Obs} {state : State}
    (run : (machine env).Run (Fresh env) Apart history state) :
    state.Exclusive ∧ (∀ operation, .overwritten operation ∉ history) ∧
      ∀ event, (state.step env event).1.Exclusive ↔ Apart history state event := by
  have holds : state.Exclusive ∧ ∀ operation, .overwritten operation ∉ history := by
    refine @System.Run.invariant _ _ _ (machine env) _ _ (fun history state =>
      state.Exclusive ∧ ∀ operation, .overwritten operation ∉ history) ?_ ?_ _ _ run
    · rintro state ⟨options, _, rfl⟩
      refine ⟨?_, by simp⟩
      intro operation first second one
      cases first <;> simp [holds] at one
    · rintro history state event ⟨exclusive, kept⟩ apart
      obtain ⟨next, keeps⟩ := (step_turn event).exclusive exclusive apart
      refine ⟨next, fun operation among => ?_⟩
      rcases List.mem_append.mp among with early | now
      · exact kept operation early
      · exact keeps operation now
  refine ⟨holds.1, holds.2, fun event => ⟨?_, fun apart => ?_⟩⟩
  · intro next
    cases event with
    | open_ call =>
      intro starts
      obtain ⟨pending, same⟩ := startsOpen_step starts
      by_contra present
      -- The operation would be pending and a datagram flow.
      have datagrams : (state.open_ call).1.holds call.operation .activeDatagrams = true := by
        rw [State.holds, same]
        exact Bool.eq_true_of_not_eq_false present
      cases next call.operation _ _ pending datagrams
    | _ => trivial
  · exact ((step_turn event).exclusive holds.1 apart).1

open Sample

/-- A stream and a datagram flow, each attached. -/
def twoFlows : List Event :=
  connects 42 .tcp ++ [.attach ⟨42, 5, true, .ok ()⟩] ++ connects 43 .udp ++
    [.attachDatagram ⟨43, 6, true, .ok ()⟩]

/-- Each of two flows is in the table of its kind. -/
theorem operations_exclusive_twoFlows :
    (reached twoFlows).2.holds 42 .active = true ∧
      (reached twoFlows).2.holds 43 .activeDatagrams = true ∧
      (reached twoFlows).2.Exclusive ∧
      ∀ operation, .overwritten operation ∉ (reached twoFlows).1 := by
  have run : (machine env).Run (Fresh env) Apart (reached twoFlows).1 (reached twoFlows).2 :=
    .reached ⟨options, rfl, rfl⟩ (by decide +kernel)
  have exclusive := operations_exclusive run
  exact ⟨by decide +kernel, by decide +kernel, exclusive.1, exclusive.2.1⟩

/-- A datagram flow whose operation is resolved and opened once more. -/
def reopened : List Event :=
  connects 43 .udp ++ [.attachDatagram ⟨43, 6, true, .ok ()⟩, resolves 43 .udp 100, opens 43 .udp]

/-- The second socket takes the place of the first one. -/
def reattached : List Event :=
  reopened ++ [.recv, .respond none fun _ => true, opens 43 .udp,
    .attachDatagram ⟨43, 7, true, .ok ()⟩]

/-- A datagram flow is opened again under its number, and then overwritten. -/
theorem operations_shared :
    (machine env).Run (Fresh env) (fun _ _ _ => True) (reached reopened).1 (reached reopened).2 ∧
      (reached reopened).2.holds 43 .pending = true ∧
      (reached reopened).2.holds 43 .activeDatagrams = true ∧
      (machine env).Run (Fresh env) (fun _ _ _ => True) (reached reattached).1
        (reached reattached).2 ∧
      .overwritten 43 ∈ (reached reattached).1 :=
  ⟨.reached ⟨options, rfl, rfl⟩ (by decide +kernel), by decide +kernel, by decide +kernel,
    .reached ⟨options, rfl, rfl⟩ (by decide +kernel), by decide +kernel⟩

end Snolc.Direct
