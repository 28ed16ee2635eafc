import Snolc.Ssh.Steps

/-! The connections of an instance of the SSH carrier are its open streams, within their limit. -/

namespace Snolc.Ssh

open Snolc.Carrier (Status Streams StreamState)

variable {instance_ : Nat} {state : InstanceState} {guard : List Status → Carrier → Event → Prop}

/-- Every instance is sound and every stream belongs to an instance. -/
structure Carrier.Valid (carrier : Carrier) : Prop where
  sound : carrier.instances.All fun _ state => state.Sound
  owned : carrier.streams.table.All fun _ stream => carrier.instances.lookup stream.owner ≠ none

/-- Every instance counts its open streams, and has no more of them than it may. -/
def Carrier.Limited (carrier : Carrier) : Prop :=
  ∀ instance_ state, carrier.instances.lookup instance_ = some state →
    carrier.streams.owned instance_ = state.activeConnections ∧
      state.activeConnections ≤ state.maxConnections

/-- Whether an instance is a client's, or has fewer connections than it may. -/
def Carrier.hasRoom (carrier : Carrier) (instance_ : Nat) : Bool :=
  (carrier.instances.lookup instance_).all fun state =>
    state.client || state.activeConnections < state.maxConnections

/--
A stream that is handed out gets a number that is free, and room where it is a server's.
An instance that is made gets a number that no stream belongs to.
-/
def Fits (_ : List Status) (carrier : Carrier) (event : Event) : Prop :=
  (∀ instance_ ∈ carrier.opens event, carrier.hasRoom instance_ = true ∧
    (carrier.streams.table.lookup carrier.streams.next).isNone = true) ∧
  (carrier.creates event = true → carrier.streams.owned carrier.instanceNext = 0)

instance (history : List Status) (carrier : Carrier) (event : Event) :
    Decidable (Fits history carrier event) :=
  inferInstanceAs (Decidable (_ ∧ _))

section Turns

variable {carrier next : Carrier} {event : Event}

theorem owned_congr {first second : Streams EngineIo} (same : first.table = second.table)
    (owner : Nat) : first.owned owner = second.owned owner := by
  rw [Streams.owned, Streams.owned, same]

theorem owners_insert {table : Table Nat (StreamState EngineIo)}
    {instances : Table Nat InstanceState}
    (owned : table.All fun _ stream => instances.lookup stream.owner ≠ none) :
    table.All fun _ stream => (instances.insert instance_ state).lookup stream.owner ≠ none := by
  intro handle stream found
  rw [Table.lookup_insert_eq]
  split
  · simp
  · exact owned handle stream found

theorem Turn.valid (turn : Turn carrier event next) (valid : carrier.Valid) : next.Valid := by
  obtain ⟨sound, owned⟩ := valid
  cases turn with
  | quiet _ _ instances table => exact ⟨instances ▸ sound, by rw [table, instances]; exact owned⟩
  | changed _ _ found instances table _ _ keeps =>
    exact ⟨instances ▸ sound.insert (keeps (sound _ _ found)), by
      rw [table, instances]; exact owners_insert owned⟩
  | @opened instance_ state after stream _ _ found instances streams numbered _ _ _ keeps =>
    refine ⟨instances ▸ sound.insert (keeps (sound _ _ found)), ?_⟩
    rw [streams, instances]
    simp only [Streams.finish, if_neg numbered]
    exact Table.All.insert (owners_insert owned) (by simp)
  | created _ _ instances table _ fresh =>
    exact ⟨instances ▸ sound.insert fresh, by rw [table, instances]; exact owners_insert owned⟩
  | closed _ _ open_ found instances streams _ _ keeps =>
    refine ⟨instances ▸ sound.insert (keeps (sound _ _ found)), ?_⟩
    rw [streams, instances]
    exact (owners_insert owned).sub (.erase _ _)
  | orphaned _ _ open_ absent => exact absurd absent (owned _ _ open_)
  | @destroyed instance_ _ _ instances streams =>
    refine ⟨instances ▸ sound.sub (.erase _ _), ?_⟩
    rw [streams, instances]
    intro handle stream found
    obtain ⟨before, other⟩ := Table.lookup_retain_eq_some.mp found
    rw [Table.lookup_erase_eq, if_neg (by simpa using other)]
    exact owned handle stream before

theorem Carrier.Limited.keep (limited : carrier.Limited)
    (streams : ∀ owner, next.streams.owned owner = carrier.streams.owned owner)
    (instances : ∀ instance_ state, next.instances.lookup instance_ = some state →
      ∃ before, carrier.instances.lookup instance_ = some before ∧
        state.activeConnections = before.activeConnections ∧
        state.maxConnections = before.maxConnections) : next.Limited := by
  intro instance_ state found
  obtain ⟨before, was, active, limit⟩ := instances instance_ state found
  rw [streams, active, limit]
  exact limited instance_ before was

theorem fits_of_quiet (history : List Status) (opens : carrier.opens event = none)
    (creates : carrier.creates event = false) : Fits history carrier event := by
  simp [Fits, opens, creates]

/-- A stream under a free number and with room keeps the limit, and no other one does. -/
theorem opened_limited {after : InstanceState} {stream : EngineIo} (valid : carrier.Valid)
    (limited : carrier.Limited) (found : carrier.instances.lookup instance_ = some state)
    (instances : next.instances = carrier.instances.insert instance_ after)
    (streams : next.streams = (carrier.streams.finish instance_ stream).2)
    (numbered : carrier.streams.next ≠ 0) (client : after.client = state.client)
    (active : after.activeConnections = state.activeConnections + 1)
    (limit : after.maxConnections = state.maxConnections) (sound : after.Sound) :
    next.Limited ↔ carrier.hasRoom instance_ = true ∧
      (carrier.streams.table.lookup carrier.streams.next).isNone = true := by
  have here : next.instances.lookup instance_ = some after := by
    rw [instances, Table.lookup_insert_eq, if_pos rfl]
  obtain ⟨count, bound⟩ := limited instance_ state found
  constructor
  · intro after_
    obtain ⟨countAfter, boundAfter⟩ := after_ instance_ after here
    refine ⟨?_, ?_⟩
    · simp only [Carrier.hasRoom, found, Option.all_some, Bool.or_eq_true, decide_eq_true_eq]
      right
      omega
    · -- A number in use would belong to this instance or to another one.
      cases taken : carrier.streams.table.lookup carrier.streams.next with
      | none => rfl
      | some other =>
        exfalso
        have counts := Streams.owned_finish_taken taken numbered instance_ stream
        rw [← streams] at counts
        by_cases same : other.owner = instance_
        · have one := counts instance_
          rw [if_pos same, if_pos rfl] at one
          omega
        · have present := valid.owned _ _ taken
          obtain ⟨owner, ownerFound⟩ := Option.ne_none_iff_exists'.mp present
          have unchanged : next.instances.lookup other.owner = some owner := by
            rw [instances, Table.lookup_insert_eq, if_neg same, ownerFound]
          have one := counts other.owner
          rw [if_pos rfl, if_neg (Ne.symm same)] at one
          have before := (limited _ _ ownerFound).1
          have now := (after_ _ _ unchanged).1
          omega
  · rintro ⟨room, free⟩
    rw [Option.isNone_iff_eq_none] at free
    intro other otherState otherFound
    rw [instances, Table.lookup_insert_eq] at otherFound
    rw [streams, Streams.owned_finish free numbered]
    by_cases same : other = instance_
    · subst same
      rw [if_pos rfl] at otherFound ⊢
      cases otherFound
      refine ⟨by omega, ?_⟩
      simp only [Carrier.hasRoom, found, Option.all_some, Bool.or_eq_true, decide_eq_true_eq]
        at room
      rcases room with isClient | fewer
      · have space := sound.room (client.trans isClient)
        omega
      · omega
    · rw [if_neg same] at otherFound
      rw [if_neg (Ne.symm same), Nat.add_zero]
      exact limited other otherState otherFound

theorem created_limited {after : InstanceState} (limited : carrier.Limited)
    (instances : next.instances = carrier.instances.insert carrier.instanceNext after)
    (table : next.streams.table = carrier.streams.table)
    (active : after.activeConnections = 0) :
    next.Limited ↔ carrier.streams.owned carrier.instanceNext = 0 := by
  constructor
  · intro after_
    have here : next.instances.lookup carrier.instanceNext = some after := by
      rw [instances, Table.lookup_insert_eq, if_pos rfl]
    rw [← owned_congr table, (after_ _ _ here).1, active]
  · intro none_ other state found
    rw [owned_congr table]
    rw [instances] at found
    rcases Table.of_lookup_insert found with ⟨rfl, rfl⟩ | ⟨_, old⟩
    · rw [none_, active]
      exact ⟨rfl, Nat.zero_le _⟩
    · exact limited other state old

/-- A change keeps the limit exactly when what it hands out or makes fits. -/
theorem Turn.limited (turn : Turn carrier event next) (valid : carrier.Valid)
    (limited : carrier.Limited) (history : List Status) :
    next.Limited ↔ Fits history carrier event := by
  cases turn with
  | quiet opens creates instances table =>
    refine iff_of_true (limited.keep (owned_congr table) ?_) (fits_of_quiet history opens creates)
    intro instance_ state found
    exact ⟨state, instances ▸ found, rfl, rfl⟩
  | @changed instance_ before after opens creates found instances table active limit =>
    refine iff_of_true (limited.keep (owned_congr table) ?_) (fits_of_quiet history opens creates)
    intro other state otherFound
    rw [instances] at otherFound
    rcases Table.of_lookup_insert otherFound with ⟨rfl, rfl⟩ | ⟨_, old⟩
    · exact ⟨before, found, active, limit⟩
    · exact ⟨state, old, rfl, rfl⟩
  | @opened instance_ before after stream opens creates found instances streams numbered client
      active limit keeps =>
    rw [opened_limited valid limited found instances streams numbered client active limit
      (keeps (valid.sound _ _ found))]
    simp [Fits, opens, creates]
  | created opens creates instances table active =>
    rw [created_limited limited instances table active]
    simp [Fits, opens, creates]
  | @closed handle stream before after opens creates open_ found instances streams active limit
      _ =>
    refine iff_of_true ?_ (fits_of_quiet history opens creates)
    intro other state otherFound
    have counts := Streams.owned_close open_ other
    rw [← streams] at counts
    rw [instances] at otherFound
    rcases Table.of_lookup_insert otherFound with ⟨rfl, rfl⟩ | ⟨different, old⟩
    · rw [if_pos rfl] at counts
      obtain ⟨count, bound⟩ := limited _ _ found
      omega
    · rw [if_neg (Ne.symm different), Nat.add_zero] at counts
      rw [← counts]
      exact limited other state old
  | orphaned _ _ open_ absent => exact absurd absent (valid.owned _ _ open_)
  | @destroyed instance_ opens creates instances streams =>
    refine iff_of_true ?_ (fits_of_quiet history opens creates)
    intro other state otherFound
    rw [instances, Table.lookup_erase_eq] at otherFound
    split at otherFound
    · cases otherFound
    next different =>
      rw [streams, Streams.owned_destroy, if_neg different]
      exact limited other state otherFound

end Turns

variable {history : List Status} {carrier : Carrier}

/-- In every run the instances are sound and the streams belong to one. -/
theorem run_valid (run : machine.Run Fresh guard history carrier) : carrier.Valid := by
  refine run.stateInvariant Carrier.Valid ?_ ?_
  · rintro carrier rfl
    exact ⟨.empty, .empty⟩
  · intro history carrier event valid _
    exact (step_turn event).valid valid

/-- In every reachable state a client has room for what is open, ready and asked for. -/
theorem clientConnections_limited (events : List Event) :
    Table.All (fun _ state => state.client = true →
        state.activeConnections + state.ready.length + state.awaited ≤ state.maxConnections)
      (machine.execute ([], {}) events).2.instances := by
  have valid : Carrier.Valid _ := run_valid (.unguarded (.start (show Fresh {} from rfl)) events)
  exact fun _ _ found client => (valid.sound _ _ found).room client

/--
Every instance counts its open streams and keeps to its limit, in runs in which every stream that is
handed out fits.

After such a run the next event keeps this exactly when it fits.
-/
theorem connections_limited (run : machine.Run Fresh Fits history carrier) :
    carrier.Limited ∧ ∀ event, (carrier.step event).1.Limited ↔ Fits history carrier event := by
  have limited : carrier.Limited := by
    -- By induction on the run, with the streams of every instance counted at each step.
    induction run with
    | start fresh =>
      cases fresh
      intro instance_ state found
      simp at found
    | step before fits ih => exact ((step_turn _).limited (run_valid before) ih _).mpr fits
  exact ⟨limited, fun event => (step_turn event).limited (run_valid run) limited history⟩

namespace Sample

/-- A server for one connection. -/
def options : Options where
  mode := .listen
  port := 22
  username := "snolc"
  maxConnections := 1
  queueChunks := 4
  chunkBytes := 1024
  inactivityTimeoutMs := 1000
  credentials := .ok ()

def creates : Event :=
  .create ⟨some options, true, .ok (), true⟩

/-- A session opens a channel and asks for the subsystem. -/
def offers (session channel : Nat) : List Event :=
  [.work 1 (.channelOpenSession session channel),
    .work 1 (.subsystemRequest session channel "snolc")]

def accepts : Event :=
  .accept ⟨1, .ok true, true⟩

/-- What a list of events leads to. -/
def reached (events : List Event) : List Status × Carrier :=
  machine.execute ([], {}) events

end Sample

open Sample

/-- A stream is closed before the session offers another one. -/
def inTurn : List Event :=
  [creates, .work 1 .accepted] ++ offers 0 0 ++ [accepts, .close 1] ++ offers 0 1 ++ [accepts]

/-- A session that offers one stream after the other stays within the limit. -/
theorem connections_limited_inTurn :
    (reached inTurn).2.streams.table.lookup 2 = some ⟨1, ⟨4, 1024⟩⟩ ∧
      (reached inTurn).2.streams.owned 1 = 1 ∧ (reached inTurn).2.Limited := by
  have run : machine.Run Fresh Fits (reached inTurn).1 (reached inTurn).2 :=
    .reached (show Fresh {} from rfl) (by decide +kernel)
  exact ⟨by decide +kernel, by decide +kernel, (connections_limited run).1⟩

/-- A session offers a second stream while the first is open. -/
def twice : List Event :=
  [creates, .work 1 .accepted] ++ offers 0 0 ++ [accepts] ++ offers 0 1 ++ [accepts]

/-- One session of a server for one connection has two streams open. -/
theorem connections_exceeded :
    machine.Run Fresh (fun _ _ _ => True) (reached twice).1 (reached twice).2 ∧
      ((reached twice).2.instances.lookup 1).map
        (fun state => (state.activeConnections, state.maxConnections)) = some (2, 1) ∧
      (reached twice).2.streams.owned 1 = 2 :=
  ⟨.reached (show Fresh {} from rfl) (by decide +kernel), by decide +kernel⟩

end Snolc.Ssh
