import Snolc.Ssh.Carrier

/-! What a call or a step of a worker can do to the instances and streams of the SSH carrier. -/

namespace Snolc.Ssh

open List Snolc.Ssh.Carrier

open Snolc.Carrier (Status Streams StreamState)

/-- The attempts of a client that have not come to the engine yet. -/
def Worker.tokens (worker : Worker) : Nat :=
  worker.commands.count .connect + worker.attempts +
    worker.events.countP fun event => event ≠ .fatal

/-- How many attempts the engine waits for. -/
def InstanceState.awaited (state : InstanceState) : Nat :=
  if state.connectPending then 1 else 0

/-- An instance of a client waits for all its attempts, and has room for what they bring. -/
structure InstanceState.Sound (state : InstanceState) : Prop where
  mode : state.client = true → state.worker.options.mode = .connect
  attempts : state.client = true → state.worker.tokens ≤ state.awaited
  room : state.client = true →
    state.activeConnections + state.ready.length + state.awaited ≤ state.maxConnections

variable {event : WorkerEvent}

namespace Worker

variable {worker : Worker}

theorem trySend_spec {next : Worker} (sent : worker.trySend event = some next) :
    next = { worker with events := worker.events ++ [event] } := by
  unfold trySend at sent
  split at sent
  · exact (Option.some.inj sent).symm
  · cases sent

theorem send_options (event : WorkerEvent) : (worker.send event).options = worker.options := by
  unfold send trySend
  split <;> rfl

theorem send_tokens (event : WorkerEvent) :
    (worker.send event).tokens ≤ worker.tokens + if event = .fatal then 0 else 1 := by
  unfold send trySend
  split
  · simp only [Option.getD_some, tokens, countP_append, countP_singleton]
    split <;> simp_all [Nat.add_assoc]
  · exact Nat.le_add_right _ _

theorem stop_tokens : worker.stop.tokens ≤ worker.tokens := by
  simp only [tokens, stop]
  omega

theorem command_tokens (mode : worker.options.mode = .connect) :
    worker.command.tokens ≤ worker.tokens ∧ worker.command.options = worker.options := by
  unfold command
  split
  · exact ⟨Nat.le_refl _, rfl⟩
  next queued =>
    simp only [mode, tokens, queued, count_cons_self, and_true]
    omega
  next queued => simp [tokens, stop, queued]

theorem runClientSession_tokens (connected : Bool) :
    (worker.runClientSession connected).tokens ≤ worker.tokens ∧
      (worker.runClientSession connected).options = worker.options := by
  unfold runClientSession
  split
  · exact ⟨Nat.le_refl _, rfl⟩
  next some_ =>
  -- One attempt fewer is under way, and at most one event more is queued.
  have fewer : Worker.tokens { worker with attempts := worker.attempts - 1 } + 1 =
      worker.tokens := by
    simp only [tokens]
    omega
  have failing := @send_tokens { worker with attempts := worker.attempts - 1 } .attemptFailed
  simp only [reduceCtorEq, ↓reduceIte, fewer] at failing
  dsimp only
  split
  · split
    next sent =>
      rw [trySend_spec sent, ← fewer]
      simp [tokens]
      omega
    · exact ⟨failing, send_options _⟩
  · exact ⟨failing, send_options _⟩

theorem step_tokens (step : WorkerStep) (mode : worker.options.mode = .connect) :
    (worker.step step).tokens ≤ worker.tokens ∧ (worker.step step).options = worker.options := by
  unfold Worker.step
  split
  · unfold work
    rw [mode]
    cases step with
    | fails => exact ⟨Nat.le_trans (send_tokens _) stop_tokens, send_options _⟩
    | command => exact command_tokens mode
    | attempt connected => exact runClientSession_tokens connected
    | _ => exact ⟨Nat.le_refl _, rfl⟩
  · exact ⟨Nat.le_refl _, rfl⟩

end Worker

namespace InstanceState

variable {state : InstanceState}

/-- An instance keeps its mode, its connections and their limit, and stays sound. -/
structure Keeps (before after : InstanceState) : Prop where
  client : after.client = before.client
  active : after.activeConnections = before.activeConnections
  limit : after.maxConnections = before.maxConnections
  sound : before.Sound → after.Sound

theorem Keeps.refl (state : InstanceState) : state.Keeps state :=
  ⟨rfl, rfl, rfl, id⟩

theorem Keeps.trans {first second third : InstanceState} (one : first.Keeps second)
    (two : second.Keeps third) : first.Keeps third :=
  ⟨two.client.trans one.client, two.active.trans one.active, two.limit.trans one.limit,
    two.sound ∘ one.sound⟩

/-- What an event has brought was waited for, and there is room for it. -/
theorem Sound.receive {events : List WorkerEvent} (sound : state.Sound)
    (queued : state.worker.events = event :: events) :
    ({ state with worker := { state.worker with events } }.receive event).Sound := by
  obtain ⟨mode, attempts, room⟩ := sound
  have tokens : state.worker.tokens =
      Worker.tokens { state.worker with events } + if event = .fatal then 0 else 1 := by
    simp only [Worker.tokens, queued, countP_cons]
    split <;> simp_all [Nat.add_assoc]
  cases event with
  | fatal =>
    simp only [↓reduceIte, Nat.add_zero] at tokens
    exact ⟨mode, fun client => tokens ▸ attempts client, room⟩
  | ready =>
    simp only [reduceCtorEq, ↓reduceIte] at tokens
    refine ⟨mode, fun client => ?_, fun client => ?_⟩
    · have one := attempts client
      simp only [InstanceState.receive, awaited] at one ⊢
      split at one <;> simp_all
    · have one := attempts client
      have space := room client
      simp only [InstanceState.receive, awaited, length_append, length_singleton]
        at one space ⊢
      split at one
      · simp_all
        omega
      · simp_all
  | attemptFailed =>
    simp only [reduceCtorEq, ↓reduceIte] at tokens
    refine ⟨mode, fun client => ?_, fun client => ?_⟩
    · have one := attempts client
      simp only [InstanceState.receive, awaited] at one ⊢
      split at one <;> simp_all
    · have space := room client
      simp only [InstanceState.receive, awaited] at space ⊢
      simp only [Bool.false_eq_true, ↓reduceIte]
      omega

theorem receive_keeps {events : List WorkerEvent} (queued : state.worker.events = event :: events) :
    state.Keeps ({ state with worker := { state.worker with events } }.receive event) :=
  ⟨by cases event <;> rfl, by cases event <;> rfl, by cases event <;> rfl,
    fun sound => sound.receive queued⟩

theorem receiveNext_keeps (state : InstanceState) : state.Keeps state.receiveNext := by
  unfold receiveNext
  split
  · exact .refl state
  next queued => exact receive_keeps queued

theorem receives_keeps (events : List WorkerEvent) :
    Keeps { state with worker := { state.worker with events } }
      (events.foldl InstanceState.receive
        { state with worker := { state.worker with events := [] } }) := by
  -- By induction on the events: one that is taken in leaves the rest queued.
  induction events generalizing state with
  | nil => exact .refl _
  | cons event events ih =>
    refine (receive_keeps rfl).trans ?_
    have later := @ih (state.receive event)
    cases event <;> exact later

theorem drainEvents_keeps (state : InstanceState) : state.Keeps state.drainEvents := by
  have drained := @receives_keeps state state.worker.events
  unfold drainEvents
  split
  · exact drained
  exact ⟨drained.client, drained.active, drained.limit, fun sound =>
    let ⟨mode, attempts, room⟩ := drained.sound sound
    ⟨mode, attempts, room⟩⟩

theorem start_keeps (empty : state.ready = [])
    (room : state.activeConnections < state.maxConnections) : state.Keeps state.start.2 := by
  unfold start
  repeat' split
  all_goals try exact .refl state
  next idle _ _ =>
  refine ⟨rfl, rfl, rfl, fun ⟨mode, attempts, _⟩ => ⟨mode, fun client => ?_, fun _ => ?_⟩⟩
  · have none_ := attempts client
    simp only [awaited, idle, Worker.tokens, Bool.false_eq_true, ↓reduceIte, count_append,
      count_singleton_self] at none_ ⊢
    omega
  · simp only [awaited, empty, length_nil, ↓reduceIte]
    omega

end InstanceState

section Taking

variable {streams : Streams EngineIo} {state : InstanceState} {owner : Nat} {output connect : Bool}

theorem takeOrStart_opened (ready : state.ready ≠ []) (numbered : streams.next ≠ 0) :
    ∃ stream next, takeOrStart streams state owner true connect =
        (.ok, next, (streams.finish owner stream).2) ∧
      next.client = state.client ∧ next.activeConnections = state.activeConnections + 1 ∧
      next.maxConnections = state.maxConnections ∧ (state.Sound → next.Sound) := by
  cases queued : state.ready with
  | nil => exact absurd queued ready
  | cons stream rest =>
    refine ⟨stream,
      { state with ready := rest, activeConnections := state.activeConnections + 1 }, ?_, rfl, rfl,
      rfl, ?_⟩
    · simp [takeOrStart, finishStream, queued, Streams.finish, numbered]
    · rintro ⟨mode, attempts, room⟩
      refine ⟨mode, attempts, fun client => ?_⟩
      have space := room client
      rw [queued, length_cons] at space
      simp only [InstanceState.awaited] at space ⊢
      omega

/-- Otherwise the streams and their number stay. -/
theorem takeOrStart_waiting
    (waits : (output && decide (streams.next ≠ 0) && !state.ready.isEmpty) = false) :
    (takeOrStart streams state owner output connect).2.2.table = streams.table ∧
      state.Keeps (takeOrStart streams state owner output connect).2.1 := by
  cases queued : state.ready with
  | cons stream rest =>
    have fewer : state.Keeps { state with ready := rest } := by
      refine ⟨rfl, rfl, rfl, fun ⟨mode, attempts, room⟩ => ⟨mode, attempts, fun client => ?_⟩⟩
      have space := room client
      rw [queued, length_cons] at space
      simp only [InstanceState.awaited] at space ⊢
      omega
    cases output with
    | false => simpa [takeOrStart, finishStream, queued] using fewer
    | true =>
      have zero : streams.next = 0 := by simpa [queued] using waits
      simpa [takeOrStart, finishStream, queued, Streams.finish, zero] using fewer
  | nil =>
    unfold takeOrStart
    rw [queued]
    dsimp only
    split
    · exact ⟨rfl, rfl, rfl, rfl, fun sound => ⟨sound.mode, sound.attempts, by
        simpa [InstanceState.awaited, queued] using sound.room⟩⟩
    split
    · exact ⟨rfl, .refl state⟩
    split
    · exact ⟨rfl, .refl state⟩
    next space =>
    split
    · exact ⟨rfl, InstanceState.start_keeps queued (by omega)⟩
    · exact ⟨rfl, .refl state⟩

end Taking

namespace Carrier

/-- Whether a call finds a stream to hand out and a number for it, once the events are in. -/
def finds (carrier : Carrier) (instance_ : Nat) (output connect : Bool) : Bool :=
  match carrier.instances.lookup instance_ with
  | none => false
  | some state =>
    state.client = connect &&
      (output && carrier.streams.next ≠ 0 && !state.drainEvents.ready.isEmpty)

/-- The instance that hands out a stream, if one does. -/
def opens (carrier : Carrier) : Event → Option Nat
  | .connect call =>
    match call.endpoint with
    | .ok true =>
      if carrier.finds call.instance_ call.output true then some call.instance_ else none
    | _ => none
  | .accept call =>
    if carrier.finds call.instance_ call.output false then some call.instance_ else none
  | _ => none

/-- Whether a call makes an instance. -/
def creates (carrier : Carrier) : Event → Bool
  | .create call =>
    (call.options.any fun options => options.validate.isOk) && call.output && call.host.isOk &&
      call.spawn && carrier.instanceNext ≠ 0
  | _ => false

end Carrier

/-- The changes that calls and steps of the workers make. -/
inductive Turn (carrier : Carrier) (event : Event) : Carrier → Prop
  /-- At most numbers are used up. -/
  | quiet {next : Carrier} (opens : carrier.opens event = none)
      (creates : carrier.creates event = false) (instances : next.instances = carrier.instances)
      (table : next.streams.table = carrier.streams.table) : Turn carrier event next
  /-- An instance changes, but not in its connections. -/
  | changed {next : Carrier} {instance_ : Nat} {state after : InstanceState}
      (opens : carrier.opens event = none) (creates : carrier.creates event = false)
      (found : carrier.instances.lookup instance_ = some state)
      (instances : next.instances = carrier.instances.insert instance_ after)
      (table : next.streams.table = carrier.streams.table)
      (active : after.activeConnections = state.activeConnections)
      (limit : after.maxConnections = state.maxConnections) (sound : state.Sound → after.Sound) :
      Turn carrier event next
  /-- An instance hands out a stream. -/
  | opened {next : Carrier} {instance_ : Nat} {state after : InstanceState} {stream : EngineIo}
      (opens : carrier.opens event = some instance_) (creates : carrier.creates event = false)
      (found : carrier.instances.lookup instance_ = some state)
      (instances : next.instances = carrier.instances.insert instance_ after)
      (streams : next.streams = (carrier.streams.finish instance_ stream).2)
      (numbered : carrier.streams.next ≠ 0) (client : after.client = state.client)
      (active : after.activeConnections = state.activeConnections + 1)
      (limit : after.maxConnections = state.maxConnections) (sound : state.Sound → after.Sound) :
      Turn carrier event next
  /-- An instance is made. -/
  | created {next : Carrier} {after : InstanceState} (opens : carrier.opens event = none)
      (creates : carrier.creates event = true)
      (instances : next.instances = carrier.instances.insert carrier.instanceNext after)
      (table : next.streams.table = carrier.streams.table)
      (active : after.activeConnections = 0) (sound : after.Sound) : Turn carrier event next
  /-- A stream is closed. -/
  | closed {next : Carrier} {handle : Nat} {stream : StreamState EngineIo}
      {state after : InstanceState} (opens : carrier.opens event = none)
      (creates : carrier.creates event = false)
      (open_ : carrier.streams.table.lookup handle = some stream)
      (found : carrier.instances.lookup stream.owner = some state)
      (instances : next.instances = carrier.instances.insert stream.owner after)
      (streams : next.streams = (carrier.streams.close handle).2)
      (active : after.activeConnections = state.activeConnections - 1)
      (limit : after.maxConnections = state.maxConnections) (sound : state.Sound → after.Sound) :
      Turn carrier event next
  /-- A stream of no instance is closed. -/
  | orphaned {next : Carrier} {handle : Nat} {stream : StreamState EngineIo}
      (opens : carrier.opens event = none) (creates : carrier.creates event = false)
      (open_ : carrier.streams.table.lookup handle = some stream)
      (absent : carrier.instances.lookup stream.owner = none) : Turn carrier event next
  /-- An instance is removed with its streams. -/
  | destroyed {next : Carrier} {instance_ : Nat} (opens : carrier.opens event = none)
      (creates : carrier.creates event = false)
      (instances : next.instances = carrier.instances.erase instance_)
      (streams : next.streams = carrier.streams.destroy instance_) : Turn carrier event next

section Turns

variable {carrier : Carrier} {event : Event}

theorem create_turn (call : CreateCall) :
    Turn carrier (.create call) (carrier.create call).1 := by
  unfold create
  split
  next unread => exact .quiet rfl (by simp [creates, unread]) rfl rfl
  next options read =>
  split
  next wrong =>
    exact .quiet rfl (by simp [creates, read, wrong, Except.isOk, Except.toBool]) rfl rfl
  next valid =>
  split
  next output => exact .quiet rfl (by simp_all [creates]) rfl rfl
  next output =>
  split
  next host =>
    exact .quiet rfl (by simp [creates, host, Except.isOk, Except.toBool]) rfl rfl
  next host =>
  split
  next spawn => exact .quiet rfl (by simp_all [creates]) rfl rfl
  next spawn =>
  dsimp only
  split
  next zero => exact .quiet rfl (by simp [creates, zero]) rfl rfl
  next numbered =>
  refine .created rfl ?_ rfl rfl rfl ⟨?_, fun _ => Nat.zero_le _, fun _ => Nat.zero_le _⟩
  · simp_all [creates, Except.isOk, Except.toBool]
  · simp

/-- A call that takes a stream hands one out where it finds one, and changes no other instance. -/
theorem take_turn {instance_ : Nat} {output connect : Bool}
    (opens : carrier.opens event =
      if carrier.finds instance_ output connect then some instance_ else none)
    (creates : carrier.creates event = false) :
    Turn carrier event (carrier.take instance_ output connect).1 := by
  unfold Carrier.take
  cases found : carrier.instances.lookup instance_ with
  | none =>
    rw [finds, found] at opens
    exact .quiet opens creates rfl rfl
  | some state =>
    have drained := state.drainEvents_keeps
    simp only [finds, found] at opens
    dsimp only
    by_cases mode : state.drainEvents.client ≠ connect
    · rw [if_pos mode]
      rw [drained.client] at mode
      exact .changed (by simpa [mode] using opens) creates found rfl rfl drained.active
        drained.limit drained.sound
    rw [if_neg mode]
    rw [drained.client, not_not] at mode
    simp only [mode, decide_true, Bool.true_and] at opens
    cases hands : output && decide (carrier.streams.next ≠ 0) &&
        !state.drainEvents.ready.isEmpty with
    | false =>
      obtain ⟨table, keeps⟩ :=
        @takeOrStart_waiting carrier.streams state.drainEvents instance_ output connect hands
      have both := drained.trans keeps
      rw [hands] at opens
      exact .changed opens creates found rfl table both.active both.limit both.sound
    | true =>
      rw [hands] at opens
      simp only [Bool.and_eq_true, decide_eq_true_eq, Bool.not_eq_true',
        isEmpty_eq_false_iff] at hands
      obtain ⟨⟨rfl, numbered⟩, ready⟩ := hands
      obtain ⟨stream, next, takes, client, active, limit, sound⟩ :=
        @takeOrStart_opened carrier.streams state.drainEvents instance_ connect ready numbered
      rw [takes]
      exact .opened opens creates found rfl rfl numbered (client.trans drained.client)
        (by rw [active, drained.active]) (limit.trans drained.limit) (sound ∘ drained.sound)

theorem connect_turn (call : TakeCall) :
    Turn carrier (.connect call) (carrier.connect call).1 := by
  unfold connect
  split
  next given => exact .quiet (by simp [opens, given]) rfl rfl rfl
  next given => exact .quiet (by simp [opens, given]) rfl rfl rfl
  next given => exact take_turn (by simp [opens, given]) rfl

theorem shutdown_turn (instance_ : Nat) :
    Turn carrier (.shutdown instance_) (carrier.shutdown instance_).1 := by
  unfold shutdown
  split
  · exact .quiet rfl rfl rfl rfl
  next state found =>
  split
  · exact .quiet rfl rfl rfl rfl
  split
  · exact .quiet rfl rfl rfl rfl
  refine .changed rfl rfl found rfl rfl rfl rfl fun ⟨mode, attempts, room⟩ =>
    ⟨mode, fun client => ?_, room⟩
  simpa [Worker.tokens, InstanceState.awaited] using attempts client

theorem close_turn (handle : Nat) : Turn carrier (.close handle) (carrier.close handle).1 := by
  unfold close Streams.close
  cases open_ : carrier.streams.table.lookup handle with
  | none => exact .quiet rfl rfl rfl rfl
  | some =>
    dsimp only [Option.map_some]
    split
    next absent => exact .orphaned rfl rfl open_ absent
    next state found =>
    refine .closed rfl rfl open_ found rfl rfl rfl rfl fun ⟨mode, attempts, room⟩ =>
      ⟨mode, attempts, fun client => ?_⟩
    have space := room client
    simp only [InstanceState.awaited] at space ⊢
    omega

theorem within_turn {instance_ : Nat} {change : InstanceState → InstanceState}
    (opens : carrier.opens event = none) (creates : carrier.creates event = false)
    (keeps : ∀ state : InstanceState, state.Keeps (change state)) :
    Turn carrier event (carrier.within instance_ change) := by
  unfold within
  split
  · exact .quiet opens creates rfl rfl
  next state found =>
  exact .changed opens creates found rfl rfl (keeps state).active (keeps state).limit
    (keeps state).sound

theorem InstanceState.Sound.work {state : InstanceState} (sound : state.Sound)
    (step : WorkerStep) :
    InstanceState.Sound { state with worker := state.worker.step step } := by
  obtain ⟨mode, attempts, room⟩ := sound
  refine ⟨fun client => ?_, fun client => ?_, room⟩
  · rw [(Worker.step_tokens step (mode client)).2]
    exact mode client
  · exact Nat.le_trans (Worker.step_tokens step (mode client)).1 (attempts client)

theorem step_turn (event : Event) : Turn carrier event (carrier.step event).1 := by
  cases event with
  | create call => exact create_turn call
  | poll =>
    simp only [step, poll]
    split
    · exact .quiet rfl rfl rfl rfl
    next state found =>
    have drained := state.drainEvents_keeps
    exact .changed rfl rfl found rfl rfl drained.active drained.limit drained.sound
  | connect call => exact connect_turn call
  | accept => exact take_turn rfl rfl
  | shutdown instance_ => exact shutdown_turn instance_
  | close handle => exact close_turn handle
  | destroy => exact .destroyed rfl rfl rfl rfl
  | receive => exact within_turn rfl rfl InstanceState.receiveNext_keeps
  | work instance_ step =>
    exact within_turn rfl rfl fun state => ⟨rfl, rfl, rfl, fun sound => sound.work step⟩
  | numbers => exact .quiet rfl rfl rfl rfl

end Turns

end Snolc.Ssh
