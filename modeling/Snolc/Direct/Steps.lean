import Snolc.Direct.State

/-! What a call or a step of the worker can do to the tables of the direct adapter. -/

namespace Snolc.Direct

/-- Observations that only tell what a call has returned. -/
def Plain (replies : List Obs) : Prop :=
  ∀ obs ∈ replies, ∃ status, obs = .returned status

theorem Plain.nil : Plain [] := by
  simp [Plain]

theorem Plain.single (status : Status) : Plain [.returned status] := by
  simp [Plain]

/-- Whether a request can be queued. -/
def Worker.accepts (worker : Worker) (capacity : Nat) : Bool :=
  !worker.stopped && worker.queue.length < capacity

/-- Whether an open has the stored addresses of its operation connected. -/
def State.startsOpen (state : State) (call : OpenCall) : Bool :=
  call.operation ≠ 0 && (call.metadata.toOption.any fun metadata => metadata.kind ≠ .other) &&
    call.output && (state.ready.lookup call.operation).isNone &&
    (state.active.lookup call.operation).isNone && (state.pending.lookup call.operation).isNone &&
    state.hasRoom && (state.resolved.lookup call.operation).isSome &&
    (retainWake call.wake).isOk && state.worker.accepts state.options.maxPendingOpens

/-- The changes that calls and steps of the worker make. -/
inductive Turn (s : State) (event : Event) : State → List Obs → Prop
  /-- At most the worker changes. -/
  | quiet (worker : Worker) {replies : List Obs} (plain : Plain replies) :
      Turn s event { s with worker } replies
  /-- Stored addresses are handed to the caller. -/
  | offer {operation : Nat} {addresses : List SocketAddr} {replies : List Obs}
      (found : s.resolved.lookup operation = some addresses) (plain : Plain replies) :
      Turn s event s (.offered operation addresses :: replies)
  /-- Addresses are stored where there are none, and may reach the caller. -/
  | store {operation : Nat} {addresses : List SocketAddr} {offers replies : List Obs}
      (absent : s.resolved.lookup operation = none)
      (offered : offers = [] ∨ offers = [.offered operation addresses]) (plain : Plain replies) :
      Turn s event
        { s with
          pendingResolutions := s.pendingResolutions.erase operation
          resolved := s.resolved.insert operation addresses }
        (.stored operation addresses :: offers ++ replies)
  /-- A resolution ends without addresses. -/
  | unresolved {operation : Nat} {replies : List Obs} (plain : Plain replies) :
      Turn s event { s with pendingResolutions := s.pendingResolutions.erase operation } replies
  /-- A resolution waits for the worker. -/
  | resolving {operation : Nat} {entry : PendingResolution} {replies : List Obs}
      (worker : Worker) (room : s.hasRoom = true ∨ s.pendingResolutions.lookup operation ≠ none)
      (plain : Plain replies) :
      Turn s event
        { s with
          worker
          pendingResolutions := s.pendingResolutions.insert operation entry }
        replies
  /-- Stored addresses go to the worker. -/
  | request {call : OpenCall} {addresses : List SocketAddr} {entry : PendingOpen}
      {replies : List Obs} (worker : Worker) (opens : event = .open_ call)
      (starts : s.startsOpen call = true)
      (found : s.resolved.lookup call.operation = some addresses) (plain : Plain replies) :
      Turn s event { s with worker, pending := s.pending.insert call.operation entry }
        (.requested call.operation addresses :: replies)
  /-- An open goes on waiting for the worker. -/
  | opening {operation : Nat} {entry : PendingOpen} {replies : List Obs}
      (found : s.pending.lookup operation = some entry) (plain : Plain replies) :
      Turn s event { s with pending := s.pending.insert operation entry } replies
  /-- An open has its socket. -/
  | opened {operation : Nat} {endpoint : Endpoint} {replies : List Obs}
      (found : s.pending.lookup operation ≠ none) (notActive : s.active.lookup operation = none)
      (plain : Plain replies) :
      Turn s event
        { s with
          pending := s.pending.erase operation
          ready := s.ready.insert operation endpoint }
        replies
  /-- An open has failed. -/
  | unopened {operation : Nat} {replies : List Obs} (plain : Plain replies) :
      Turn s event { s with pending := s.pending.erase operation } replies
  /-- An attach finds a socket of the other kind and leaves it. -/
  | mismatched {operation : Nat} {endpoint : Endpoint} {replies : List Obs}
      (found : s.ready.lookup operation = some endpoint) (plain : Plain replies) :
      Turn s event
        { s with
          ready := s.ready.insert operation endpoint
          resolved := s.resolved.erase operation }
        (.removed operation :: replies)
  /-- An attach fails and drops the socket. -/
  | dropped {operation : Nat} {replies : List Obs} (plain : Plain replies) :
      Turn s event
        { s with
          ready := s.ready.erase operation
          resolved := s.resolved.erase operation }
        (.removed operation :: replies)
  /-- A stream is attached. -/
  | attached {operation : Nat} {flow : DirectFlow} {replies : List Obs}
      (found : s.ready.lookup operation ≠ none) (plain : Plain replies) :
      Turn s event
        { s with
          ready := s.ready.erase operation
          resolved := s.resolved.erase operation
          active := s.active.insert operation flow }
        (.removed operation :: State.overwrites s.active operation ++ replies)
  /-- A datagram socket is attached. -/
  | attachedDatagram {operation : Nat} {flow : DirectFlow} {replies : List Obs}
      (found : s.ready.lookup operation ≠ none) (plain : Plain replies) :
      Turn s event
        { s with
          ready := s.ready.erase operation
          resolved := s.resolved.erase operation
          activeDatagrams := s.activeDatagrams.insert operation flow }
        (.removed operation :: State.overwrites s.activeDatagrams operation ++ replies)
  /-- An operation is forgotten. -/
  | close {operation : Nat} {replies : List Obs} (plain : Plain replies) :
      Turn s event
        { s with
          pendingResolutions := s.pendingResolutions.erase operation
          resolved := s.resolved.erase operation
          pending := s.pending.erase operation
          ready := s.ready.erase operation
          active := s.active.erase operation
          activeDatagrams := s.activeDatagrams.erase operation }
        (.removed operation :: replies)
  /-- Flows that have ended are removed. -/
  | poll (stays staysToo : Nat → DirectFlow → Bool) {replies : List Obs} (plain : Plain replies) :
      Turn s event
        { s with
          active := s.active.retain stays
          activeDatagrams := s.activeDatagrams.retain staysToo }
        replies

section Calls

variable {env : Env} {s : State} {event : Event}

theorem Turn.refuse (status : Status) : Turn s event s [.returned status] :=
  .quiet s.worker (.single status)

theorem offer_cases (env : Env) (call : ResolveCall) (addresses : List SocketAddr) :
    (∃ status, State.offer env call addresses = [.returned status]) ∨
      State.offer env call addresses =
        [.offered call.operation addresses, .returned .ok] := by
  unfold State.offer
  dsimp only
  split
  · exact .inr rfl
  · exact .inl ⟨_, rfl⟩

variable {call : ResolveCall} {addresses : List SocketAddr}

theorem Turn.offering (found : s.resolved.lookup call.operation = some addresses) :
    Turn s event s (State.offer env call addresses) := by
  rcases offer_cases env call addresses with ⟨status, said⟩ | said <;> rw [said]
  · exact .refuse status
  · exact .offer found (.single _)

section

variable (absent : s.resolved.lookup call.operation = none)
include absent

theorem Turn.storing : Turn s event
      { s with
        pendingResolutions := s.pendingResolutions.erase call.operation
        resolved := s.resolved.insert call.operation addresses }
      (.stored call.operation addresses :: State.offer env call addresses) := by
  rcases offer_cases env call addresses with ⟨status, said⟩ | said <;> rw [said]
  · exact .store absent (.inl rfl) (.single status)
  · exact .store absent (.inr rfl) (.single _)

theorem finishResolution_turn {pending : PendingResolution}
    (found : s.pendingResolutions.lookup call.operation = some pending) :
    Turn s event (s.finishResolution env call pending).1
      (s.finishResolution env call pending).2 := by
  unfold State.finishResolution
  dsimp only
  split
  · exact .storing absent
  · exact .unresolved (.single _)
  · split
    · exact .unresolved (.single _)
    · rw [Table.insert_erase]
      exact .resolving s.worker (.inr (by simp [found])) (.single _)
  · exact .unresolved (.single _)

theorem resolveDestination_turn {metadata : FlowMetadata}
    (idle : s.pendingResolutions.lookup call.operation = none) :
    Turn s event (s.resolveDestination env call metadata).1
      (s.resolveDestination env call metadata).2 := by
  unfold State.resolveDestination
  split
  case isFalse => exact .refuse _
  next room =>
  split
  · exact .refuse _
  · next address _ =>
    have stored := @Turn.storing env s event call [address] absent
    rwa [Table.erase_absent idle] at stored
  split
  · exact .refuse _
  unfold State.startResolution
  split
  · exact .refuse _
  dsimp only
  split
  · exact .refuse _
  split
  · exact .resolving _ (.inl room) (.single _)
  · exact .refuse _
  · exact .refuse _

end

theorem resolve_turn (call : ResolveCall) :
    Turn s event (s.resolve env call).1 (s.resolve env call).2 := by
  unfold State.resolve
  split
  · exact .refuse _
  split
  · exact .refuse _
  split
  · exact .refuse _
  split
  · next addresses found => exact .offering found
  next absent =>
  split
  · next pending found => exact finishResolution_turn absent found
  · next idle => exact resolveDestination_turn absent idle

theorem finishOpen_turn {call : OpenCall} {pending : PendingOpen}
    (notActive : s.active.lookup call.operation = none)
    (found : s.pending.lookup call.operation = some pending) :
    Turn s event (s.finishOpen call pending).1 (s.finishOpen call pending).2 := by
  unfold State.finishOpen
  dsimp only
  split
  · exact .opened (by simp [found]) notActive (.single _)
  · exact .unopened (.single _)
  · rw [Table.insert_erase]
    exact .opening found (.single _)
  · exact .unopened (.single _)

theorem startOpen_turn {call : OpenCall} {metadata : FlowMetadata}
    (numbered : call.operation ≠ 0) (given : call.metadata = .ok metadata)
    (kind : metadata.kind ≠ .other) (output : call.output = true)
    (notPending : s.pending.lookup call.operation = none)
    (notReady : s.ready.lookup call.operation = none)
    (notActive : s.active.lookup call.operation = none) :
    Turn s (.open_ call) (s.startOpen call metadata).1 (s.startOpen call metadata).2 := by
  unfold State.startOpen
  split
  case isFalse => exact .refuse _
  next room =>
  split
  · exact .refuse _
  next addresses found =>
  split
  · exact .refuse _
  next woken =>
  split
  · next response worker sent =>
    have accepts : s.worker.accepts s.options.maxPendingOpens = true := by
      unfold Worker.trySend at sent
      unfold Worker.accepts
      split at sent
      · cases sent
      next alive =>
      split at sent
      · cases sent
      next short => simpa [alive] using short
    have starts : s.startsOpen call = true := by
      simp [State.startsOpen, numbered, given, kind, output, notReady, notActive,
        notPending, room, found, woken, accepts, Except.toOption, Except.isOk, Except.toBool]
    exact .request worker rfl starts found (.single _)
  · exact .refuse _
  · exact .refuse _

theorem open_turn (call : OpenCall) : Turn s (.open_ call) (s.open_ call).1 (s.open_ call).2 := by
  unfold State.open_
  split
  · exact .refuse _
  next numbered =>
  split
  · exact .refuse _
  next metadata given =>
  split
  · exact .refuse _
  next kind =>
  split
  · exact .refuse _
  next output =>
  split
  · exact .refuse _
  next notReady =>
  split
  · exact .refuse _
  next notActive =>
  rw [Bool.not_eq_true, Option.isSome_eq_false_iff, Option.isNone_iff_eq_none] at notReady notActive
  split
  · next pending found => exact finishOpen_turn notActive found
  · next notPending =>
    exact startOpen_turn numbered given kind (by simpa using output) notPending notReady notActive

theorem attach_turn (call : AttachCall) : Turn s event (s.attach call).1 (s.attach call).2 := by
  unfold State.attach
  split
  · exact .refuse _
  split
  · exact .refuse _
  next endpoint found =>
  dsimp only
  split
  · rw [Table.insert_erase]
    exact .mismatched found (.single _)
  split
  · split
    · exact .dropped (.single _)
    · exact .attached (by simp [found]) (.single _)
  · exact .dropped (.single _)

theorem attachDatagram_turn (call : AttachCall) :
    Turn s event (s.attachDatagram call).1 (s.attachDatagram call).2 := by
  unfold State.attachDatagram
  split
  · exact .refuse _
  split
  · exact .refuse _
  next endpoint found =>
  dsimp only
  split
  · rw [Table.insert_erase]
    exact .mismatched found (.single _)
  split
  · split
    · exact .dropped (.single _)
    · exact .attachedDatagram (by simp [found]) (.single _)
  · exact .dropped (.single _)

theorem closeFlow_turn (flow : Nat) : Turn s event (s.closeFlow flow).1 (s.closeFlow flow).2 := by
  unfold State.closeFlow
  split
  · exact .refuse _
  · exact .close (.single _)

theorem complete_turn (flow : Nat) (status : Status) (reasonLength : Nat) :
    Turn s event (s.complete flow status reasonLength).1
      (s.complete flow status reasonLength).2 := by
  unfold State.complete
  split
  · exact .refuse _
  split
  · exact .refuse _
  · exact closeFlow_turn flow

theorem step_turn (event : Event) : Turn s event (s.step env event).1 (s.step env event).2 := by
  cases event with
  | resolve call => exact resolve_turn call
  | open_ call => exact open_turn call
  | attach call => exact attach_turn call
  | attachDatagram call => exact attachDatagram_turn call
  | complete flow status reasonLength => exact complete_turn flow status reasonLength
  | closeFlow flow => exact closeFlow_turn flow
  | poll => exact .poll _ _ (.single _)
  | recv | respond | stop => exact .quiet _ .nil

end Calls

namespace Sample

/-- A kit whose encoding of addresses takes seventeen bytes for each. -/
def env : Env where
  maxResolvedAddresses := 16
  writeResolvedAddresses addresses capacity :=
    if 17 * addresses.length ≤ capacity then .ok else .resource
  lastInstant := 1000000

def options : Options where
  dnsMode := .system
  maxPendingOpens := 2
  maxResolvedAddresses := 16
  resolveTimeoutMs := 1000
  connectTimeoutMs := 1000

/-- Port 53 of the address 192.0.2.1. -/
def destination (kind : FlowKind) : FlowMetadata :=
  ⟨kind, .ipv4, [192, 0, 2, 1], 53⟩

def resolves (operation : Nat) (kind : FlowKind) (capacity : Nat) : Event :=
  .resolve ⟨operation, .ok (destination kind), .absent, capacity, true, 0⟩

def opens (operation : Nat) (kind : FlowKind) : Event :=
  .open_ ⟨operation, .ok (destination kind), .absent, true⟩

/-- An operation is resolved and opened, and the worker connects its address. -/
def connects (operation : Nat) (kind : FlowKind) : List Event :=
  [resolves operation kind 100, opens operation kind, .recv, .respond none fun _ => true,
    opens operation kind]

/-- What a list of events leads to from a new instance. -/
def reached (events : List Event) : List Obs × State :=
  (machine env).execute ([], { options }) events

end Sample

end Snolc.Direct
