import Snolc.Policy.Copies

/-! A property of a user's settings that every write asks for holds of every copy of its record. -/

namespace Snolc.Policy

variable {env : Env}

/-- Every copy of the record has settings with a property. -/
def Views.spec (holds : UserSpec → Prop) : Views where
  stored _ record := ∀ user, record = some user → holds user.spec
  queued _ record := ∀ user, record = some user → holds user.spec
  reading := True
  read user := holds user.spec
  settling user := holds user.spec
  clock user := holds user.spec
  writing record := ∀ user, record = some user → holds user.spec

section Spec

variable (holds : UserSpec → Prop) (userId : String)

/-- The administrative write in progress gives the user settings with a property. -/
def State.Asks (s : State) : Prop :=
  ∀ write, s.pendingControl = some (.write write) →
    ∀ user, (userId, some user) ∈ write.mutation.users → holds user.spec

instance [DecidablePred holds] : DecidablePred (State.Asks holds userId) := fun s =>
  decidable_of_iff
    ((match s.pendingControl with
      | some (.write write) => decide (∀ entry ∈ write.mutation.users, ∀ user ∈ entry.2,
        entry.1 = userId → holds user.spec)
      | _ => true) = true) <| by
    unfold State.Asks
    split
    · next write pending =>
      simp only [pending, decide_eq_true_eq, Option.some.injEq, PendingControl.write.injEq,
        forall_eq']
      constructor
      · exact fun asks user member => asks _ member user rfl rfl
      · rintro asks ⟨_, _⟩ member user rfl rfl
        exact asks user member
    · simp_all

/-- Every copy of the user's record, the cached one too, has settings with a property. -/
structure SpecHolds (s : State) : Prop where
  ledger : Ledger (.spec holds) userId s
  cached : s.Caches userId fun user => holds user.spec

/-- The stored record of the user has settings with a property. -/
def StoredSpec (store : Table Key Value) : Prop :=
  ∃ record, store.lookup (.user userId) = storedAs record ∧
    ∀ user, record = some user → holds user.spec

/-- The settings of the user in every world: none of its copies but a new one is without it. -/
def World.SpecHolds (world : World) : Prop :=
  StoredSpec holds userId world.store ∧
    world.Holds fun s => s.Asks holds userId → Policy.SpecHolds holds userId s

end Spec

section SpecChanges

variable {holds : UserSpec → Prop} {userId : String} {s t : State} {obs : List Obs}

theorem Recached.spec {user : UserRecord} (recached : Recached s obs userId user)
    (ok : SpecHolds holds userId s) : holds user.spec := by
  cases recached with
  | @kept old maxObservedUtc cached => exact ok.cached old cached
  | loaded pending answered decoded =>
    have control := ok.ledger.control
    rw [pending] at control
    exact (control rfl).decoded answered decoded
  | settled present waits => exact ok.ledger.traffic _ present _ waits
  | written pending answered member =>
    have control := ok.ledger.control
    rw [pending] at control
    exact control _ member rfl _ rfl

theorem Path.specHolds (path : Path env s obs t)
    (ok : SpecHolds holds userId s) : SpecHolds holds userId t := by
  induction path with
  | refl => exact ok
  | step change _ ih =>
    exact ih ⟨change.ledger ok.ledger, fun user found => (change.recached user found).spec ok⟩

/-- Every move keeps the settings, unless it starts a write that does not. -/
theorem Move.specHolds {event : Event} (move : Move env s event obs t)
    (tickets : Tickets env s) (ok : SpecHolds holds userId s) (asks : t.Asks holds userId) :
    SpecHolds holds userId t := by
  cases move with
  | finished =>
    refine ⟨ok.ledger.finish tickets _ ?_ ?_ ?_, ok.cached⟩
    · exact fun _ record _ _ _ queued => queued
    · exact fun _ record _ _ stored => stored
    · exact fun user _ stored => stored user rfl
  | @pumped input _ _ _ _ _ _ _ _ _ _ rest =>
    have pumps := rest ▸ s.pumpFlows_pumps input
    refine ⟨pumps.ledger ok.ledger, fun user found => ?_⟩
    obtain ⟨old, cached, _, _, rfl⟩ := pumps.users userId user found
    exact ok.cached old cached
  | quiet path => exact path.specHolds ok
  | loud path loud =>
    have mid := path.specHolds ok
    refine ⟨loud.ledger (path.tickets tickets) mid.ledger ?_ ?_ ?_, fun user found => ?_⟩
    · intro user charged cached _
      refine ⟨fun copy same => ?_, mid.cached user cached⟩
      rw [Option.some.injEq] at same
      exact same ▸ mid.cached user cached
    · exact fun _ => trivial
    · intro _ write pending record member
      have asked : ∀ user, record = some user → holds user.spec :=
        fun user same => asks write pending user (same ▸ member)
      exact ⟨asked, asked⟩
    · exact mid.cached user (by cases loud <;> exact found)
  | begun _ begun =>
    refine ⟨begun.ledger tickets ok.ledger (fun _ => trivial) ?_, fun user found => ?_⟩
    · intro user utc _ read _
      refine ⟨fun copy same => ?_, read⟩
      rw [Option.some.injEq] at same
      exact same ▸ read
    · exact ok.cached user (by cases begun <;> exact found)
  | login _ login path =>
    refine path.specHolds ⟨login.ledger ok.ledger, fun user found => ?_⟩
    rcases login.recached ok.ledger user found with old | ⟨_, read⟩ | clock
    · exact ok.cached user old
    · exact read
    · exact clock
  | host host =>
    exact ⟨host.ledger ok.ledger, fun user found =>
      ok.cached user (by cases host <;> exact found)⟩

theorem Advance.specHolds {world next : World} {event : Event}
    (advance : Advance env world event obs next) (tickets : world.Holds (Tickets env))
    (asked : world.Holds (State.Asks holds userId)) (ok : world.SpecHolds holds userId) :
    next.SpecHolds holds userId := by
  obtain ⟨stored, ok⟩ := ok
  cases advance with
  | idle => exact ⟨stored, ok⟩
  | started started =>
    have fresh := initializeInstance_started started
    refine ⟨?_, fun _ => ⟨fresh.ledger stored, fun user found => ?_⟩⟩
    · rw [World.store, fresh.storage]
      exact stored
    · rw [fresh.users] at found
      simp at found
  | moved move =>
    refine ⟨?_, move.specHolds tickets (ok asked)⟩
    -- Only the end of a command changes the store, and the command was queued as a copy.
    rcases move.queues with ⟨outcome, rfl, rfl, rfl⟩ | queues
    · exact (Move.specHolds (.finished rfl) tickets (ok asked) asked).ledger.store
    · rw [World.store, queues.store]
      exact stored
  | stopped _ path =>
    refine ⟨?_, trivial⟩
    rw [World.store, path.queues.store]
    exact stored
  | crashed => exact ⟨stored, trivial⟩

theorem World.specHolds_empty : (World.down ∅).SpecHolds holds userId :=
  ⟨⟨none, by simp [World.store, storedAs], by simp⟩, trivial⟩

/-- The settings of the user stay as every write in progress asks for, along every run. -/
theorem run_specHolds {guard : List Obs → World → Event → Prop}
    (asks : ∀ history world event, guard history world event →
      world.Holds (State.Asks holds userId))
    {history : List Obs} {world : World} (run : (machine env).Run Fresh guard history world) :
    world.SpecHolds holds userId :=
  machine_invariant (fun _ world => world.SpecHolds holds userId) World.specHolds_empty
    (fun before ok admitted advance =>
      advance.specHolds (run_tickets before) (asks _ _ _ admitted) ok) run

end SpecChanges

end Snolc.Policy
