import Snolc.Tcp.Carrier

/-! A connect of the TCP carrier answers with the last attempt, for whichever endpoint that was. -/

namespace Snolc.Tcp

open List Snolc.Tcp.Carrier

open Snolc.Carrier (Status Streams)

variable {state : InstanceState} {call : ConnectCall} {streams : Streams TcpStream}

/-- An attempt to connect, with its result once it has ended. -/
structure Attempt where
  endpoint : SocketAddr
  outcome : Option (Except ErrorKind TcpStream)

/--
What an observation says about the attempts of an instance.

An attempt that begins comes behind those that are open; only an answer takes one away, the oldest.
-/
def Attempt.next (instance_ : Nat) (attempts : List Attempt) : Obs → List Attempt
  | .created other | .destroyed other => if other = instance_ then [] else attempts
  | .attempted other endpoint =>
    if other = instance_ then attempts ++ [⟨endpoint, none⟩] else attempts
  | .ended other result =>
    if other = instance_ then
      attempts.modifyHead fun attempt => { attempt with outcome := some result }
    else attempts
  | .answered other _ _ _ => if other = instance_ then attempts.tail else attempts
  | .returned _ => attempts

/-- The attempts of an instance that no connect has answered for. -/
def openAttempts (instance_ : Nat) (history : List Obs) : List Attempt :=
  history.foldl (Attempt.next instance_) []

/-- The attempt that the next result of an instance is of. -/
def attemptOf (instance_ : Nat) (history : List Obs) : Option Attempt :=
  (openAttempts instance_ history).head?

theorem openAttempts_append (instance_ : Nat) (history obs : List Obs) :
    openAttempts instance_ (history ++ obs) =
      obs.foldl (Attempt.next instance_) (openAttempts instance_ history) :=
  foldl_append

/-- The address that an attempt is made to. -/
def ConnectFuture.endpoint : ConnectFuture → SocketAddr
  | .start endpoint => endpoint
  | .writable stream => stream.peer

/-- What an instance stores is what the history says of its attempts, one at most of them open. -/
inductive Agrees : Option InstanceState → List Attempt → Prop
  | absent : Agrees none []
  | idle {state : InstanceState} (pending : state.pendingConnect = none)
      (result : state.connectResult = none) : Agrees (some state) []
  | trying {state : InstanceState} {connect : ConnectFuture}
      (pending : state.pendingConnect = some connect) (result : state.connectResult = none) :
      Agrees (some state) [⟨connect.endpoint, none⟩]
  | ended {state : InstanceState} {endpoint : SocketAddr} {outcome : Except ErrorKind TcpStream}
      (pending : state.pendingConnect = none) (result : state.connectResult = some outcome)
      (peer : ∀ stream, outcome = .ok stream → stream.peer = endpoint) :
      Agrees (some state) [⟨endpoint, some outcome⟩]

variable {attempts : List Attempt} {result : Except ErrorKind TcpStream}

section

variable (agrees : Agrees (some state) attempts)
include agrees

theorem Agrees.keep {other : InstanceState} (pending : other.pendingConnect = state.pendingConnect)
    (result : other.connectResult = state.connectResult) : Agrees (some other) attempts := by
  cases agrees with
  | idle noPending noResult => exact .idle (pending.trans noPending) (result.trans noResult)
  | trying one noResult => exact .trying (pending.trans one) (result.trans noResult)
  | ended noPending one peer => exact .ended (pending.trans noPending) (result.trans one) peer

theorem Agrees.pending {connect : ConnectFuture} (pending : state.pendingConnect = some connect) :
    attempts = [⟨connect.endpoint, none⟩] ∧ state.connectResult = none := by
  cases agrees with
  | trying one result =>
    cases pending.symm.trans one
    exact ⟨rfl, result⟩
  | idle none_ | ended none_ => cases pending.symm.trans none_

theorem Agrees.outcome (stored : state.connectResult = some result) :
    state.pendingConnect = none ∧ ∃ endpoint, attempts = [⟨endpoint, some result⟩] ∧
      ∀ stream, result = .ok stream → stream.peer = endpoint := by
  cases agrees with
  | idle _ none_ | trying _ none_ => cases stored.symm.trans none_
  | ended noPending one peer =>
    cases stored.symm.trans one
    exact ⟨noPending, _, rfl, peer⟩

end

section Attempts

variable {answers : ConnectAnswers} {connect next : ConnectFuture} {stream : TcpStream}

theorem awaitWritable_inl (goes : awaitWritable answers stream = .inl next) :
    next.endpoint = stream.peer := by
  unfold awaitWritable at goes
  split at goes
  · cases goes
    rfl
  · cases goes
  · split at goes <;> cases goes

theorem awaitWritable_ok {other : TcpStream}
    (ends : awaitWritable answers stream = .inr (.ok other)) : other = stream := by
  unfold awaitWritable at ends
  split at ends
  · cases ends
  · cases ends
  · split at ends <;> cases ends
    rfl

theorem protectedConnect_inl (goes : protectedConnect answers connect = .inl next) :
    next.endpoint = connect.endpoint := by
  cases connect with
  | start =>
    simp only [protectedConnect] at goes
    repeat' split at goes
    all_goals first
      | exact awaitWritable_inl goes
      | cases goes
  | writable => exact awaitWritable_inl goes

theorem protectedConnect_ok (ends : protectedConnect answers connect = .inr (.ok stream)) :
    stream.peer = connect.endpoint := by
  cases connect with
  | start =>
    simp only [protectedConnect] at ends
    repeat' split at ends
    all_goals first
      | exact congrArg TcpStream.peer (awaitWritable_ok ends)
      | cases ends
  | writable => exact congrArg TcpStream.peer (awaitWritable_ok ends)

end Attempts

theorem finishStream_state {owner : Nat} {stream : TcpStream} {output setNodelay : Bool} :
    (Carrier.finishStream streams owner stream state output setNodelay).2.1.pendingConnect =
        state.pendingConnect ∧
      (Carrier.finishStream streams owner stream state output setNodelay).2.1.connectResult =
        state.connectResult := by
  unfold finishStream
  repeat' split
  all_goals exact ⟨rfl, rfl⟩

theorem takeResult_state :
    (Carrier.takeResult streams call state result).2.1.pendingConnect = state.pendingConnect ∧
      (Carrier.takeResult streams call state result).2.1.connectResult = none := by
  cases result with
  | error => exact ⟨rfl, rfl⟩
  | ok => exact finishStream_state

section Steps

variable {env : Env} {carrier : Carrier} {instance_ : Nat}

theorem Agrees.insert {instances : Table Nat InstanceState} {other : Nat} {obs : List Obs}
    (agrees : Agrees (instances.lookup instance_) attempts)
    (here : Agrees (instances.lookup other) attempts →
      Agrees (some state) (obs.foldl (Attempt.next other) attempts))
    (elsewhere : instance_ ≠ other → obs.foldl (Attempt.next instance_) attempts = attempts) :
    Agrees ((instances.insert other state).lookup instance_)
      (obs.foldl (Attempt.next instance_) attempts) := by
  rw [Table.lookup_insert_eq]
  by_cases same : instance_ = other
  · subst same
    rw [if_pos rfl]
    exact here agrees
  · rw [if_neg same, elsewhere same]
    exact agrees

/-- A call leaves an instance that stores what the history says of its attempt. -/
def AgreesAfter (instance_ : Nat) (attempts : List Attempt) (after : Carrier × List Obs) : Prop :=
  Agrees (after.1.instances.lookup instance_) (after.2.foldl (Attempt.next instance_) attempts)

section Calls

variable (agrees : Agrees (carrier.instances.lookup instance_) attempts)
include agrees

theorem create_agrees (call : CreateCall) :
    AgreesAfter instance_ attempts (carrier.create call) := by
  unfold create
  repeat' split
  all_goals try exact agrees
  all_goals
    dsimp only
    split
    · exact agrees
    refine agrees.insert (fun _ => ?_) fun different => ?_
    · simpa [Attempt.next] using Agrees.idle rfl rfl
    · simp [Attempt.next, Ne.symm different]

theorem poll_agrees (other : Nat) (answers : ConnectAnswers) :
    AgreesAfter instance_ attempts (carrier.poll other answers) := by
  unfold poll
  split
  · exact agrees
  next state found =>
  split
  · exact agrees
  next connect pending =>
  split
  next next goes =>
    refine agrees.insert (fun before => ?_) fun _ => rfl
    -- A pending attempt goes on to the address it was made to.
    rw [found] at before
    obtain ⟨rfl, result⟩ := before.pending pending
    rw [← protectedConnect_inl goes]
    exact .trying rfl result
  next result ends =>
    refine agrees.insert (fun before => ?_) fun different => by simp [Attempt.next, different.symm]
    rw [found] at before
    obtain ⟨rfl, _⟩ := before.pending pending
    have peer : ∀ stream, result = .ok stream → stream.peer = connect.endpoint := by
      rintro stream rfl
      exact protectedConnect_ok ends
    simpa [Attempt.next] using Agrees.ended rfl rfl peer

theorem connect_agrees (call : ConnectCall) :
    AgreesAfter instance_ attempts (carrier.connect env call) := by
  unfold connect
  split
  · exact agrees
  split
  · exact agrees
  next state found =>
  split
  · exact agrees
  split
  · exact agrees
  dsimp only
  split
  next result stored =>
    refine agrees.insert (fun before => ?_) fun different => by simp [Attempt.next, different.symm]
    -- The result is taken, so there is no attempt any more.
    rw [found] at before
    obtain ⟨noPending, endpoint, rfl, _⟩ := before.outcome stored
    simpa [Attempt.next] using
      Agrees.idle (takeResult_state.1.trans noPending) takeResult_state.2
  next noResult =>
  split
  next free =>
    refine agrees.insert (fun before => ?_) fun different => by simp [Attempt.next, different.symm]
    -- An attempt begins only where none is open.
    rw [found] at before
    cases before with
    | idle =>
      simp only [foldl_cons, foldl_nil, Attempt.next, if_pos, nil_append]
      exact @Agrees.trying _ (.start _) rfl noResult
    | trying pending => simp [pending] at free
    | ended _ result => cases noResult.symm.trans result
  · exact agrees

theorem accept_agrees (call : AcceptCall) :
    AgreesAfter instance_ attempts (carrier.accept call) := by
  unfold accept
  split
  · exact agrees
  next state found =>
  dsimp only
  repeat' split
  all_goals try exact agrees
  refine agrees.insert (fun before => ?_) fun _ => rfl
  rw [found] at before
  exact before.keep finishStream_state.1 finishStream_state.2

theorem close_agrees (handle : Nat) :
    AgreesAfter instance_ attempts (carrier.close handle) := by
  unfold close
  split
  · exact agrees
  dsimp only
  split
  · exact agrees
  next state found =>
  refine agrees.insert (fun before => ?_) fun _ => rfl
  rw [found] at before
  exact before.keep rfl rfl

theorem destroy_agrees (other : Nat) :
    AgreesAfter instance_ attempts (carrier.destroy other) := by
  simp only [AgreesAfter, destroy, Table.lookup_erase_eq, foldl_cons, foldl_nil, Attempt.next]
  by_cases same : instance_ = other
  · rw [if_pos same, if_pos same.symm]
    exact .absent
  · rw [if_neg same, if_neg (Ne.symm same)]
    exact agrees

theorem step_agrees (event : Event) :
    AgreesAfter instance_ attempts (carrier.step env event) := by
  cases event with
  | create call => exact create_agrees agrees call
  | poll other answers => exact poll_agrees agrees other answers
  | connect call => exact connect_agrees agrees call
  | accept call => exact accept_agrees agrees call
  | close handle => exact close_agrees agrees handle
  | destroy other => exact destroy_agrees agrees other
  | numbers => exact agrees

end Calls

end Steps

/-- The endpoint that a connect asks for, if it takes the result of an attempt. -/
def Carrier.takes (env : Env) (carrier : Carrier) (call : ConnectCall) : Option SocketAddr :=
  match requested env call, carrier.instances.lookup call.instance_ with
  | .ok requested, some state =>
    match state.mode with
    | .connect configured =>
      if state.activeConnections < state.maxConnections && state.connectResult.isSome then
        some (requested.getD configured)
      else none
    | .listen => none
  | _, _ => none

/-- A connect that takes a result asks for the endpoint that the attempt was made to. -/
def Matches (env : Env) (history : List Obs) (carrier : Carrier) : Event → Prop
  | .connect call => ∀ endpoint ∈ carrier.takes env call,
      (attemptOf call.instance_ history).map Attempt.endpoint = some endpoint
  | _ => True

instance (env : Env) (history : List Obs) (carrier : Carrier) (event : Event) :
    Decidable (Matches env history carrier event) :=
  match event with
  | .connect _ => inferInstanceAs (Decidable (∀ _ ∈ _, _))
  | .create _ | .poll _ _ | .accept _ | .close _ | .destroy _ | .numbers _ _ => isTrue trivial

/-- A result is that of an attempt to connect to an endpoint. -/
def Outcome (history : List Obs) (instance_ : Nat) (endpoint : SocketAddr)
    (result : Except ErrorKind TcpStream) : Prop :=
  attemptOf instance_ history = some ⟨endpoint, some result⟩ ∧
    ∀ stream, result = .ok stream → stream.peer = endpoint

section Answers

variable {env : Env} {carrier : Carrier} {event : Event} {instance_ : Nat} {endpoint : SocketAddr}
  {result : Except ErrorKind TcpStream} {answer : Except Status Nat}

theorem connect_taken (takes : carrier.takes env call = some endpoint) :
    ∃ state result, carrier.instances.lookup call.instance_ = some state ∧
      state.connectResult = some result ∧
      (carrier.connect env call).1.streams =
        (Carrier.takeResult carrier.streams call state result).2.2 ∧
      (carrier.connect env call).2 =
        [.answered call.instance_ endpoint result
          (Carrier.takeResult carrier.streams call state result).1,
         .returned (Carrier.answerStatus
          (Carrier.takeResult carrier.streams call state result).1)] := by
  unfold Carrier.takes at takes
  split at takes
  next requested state asked found =>
    split at takes
    next configured mode =>
      split at takes
      next ready =>
        simp only [Bool.and_eq_true, decide_eq_true_eq] at ready
        obtain ⟨result, stored⟩ := Option.isSome_iff_exists.mp ready.2
        cases takes
        refine ⟨state, result, found, stored, ?_, ?_⟩ <;>
          simp [connect, asked, found, Nat.not_le.mpr ready.1, mode, stored]
      · cases takes
    · cases takes
  · cases takes

theorem connect_untaken (takes : carrier.takes env call = none) :
    (∀ instance_ endpoint result answer,
        .answered instance_ endpoint result answer ∉ (carrier.connect env call).2) ∧
      ((Carrier.requested env call).isOk = true → ∀ status,
        .returned status ∈ (carrier.connect env call).2 → status ≠ .ok ∧ status ≠ .io) := by
  unfold connect
  split
  next asked => simp [asked, Except.isOk, Except.toBool]
  next requested asked =>
  split
  · simp
  next state found =>
  split
  · simp
  next room =>
  split
  · simp
  next configured mode =>
  -- There is room and an endpoint, so only the result can be missing.
  have absent : state.connectResult = none := by
    simpa [Carrier.takes, asked, found, mode, Nat.not_le.mp room] using takes
  dsimp only
  rw [absent]
  dsimp only
  split <;> simp

theorem answered_taken {before after : List Obs}
    (answers : (carrier.step env event).2 =
      before ++ .answered instance_ endpoint result answer :: after) :
    before = [] ∧ ∃ call state, event = .connect call ∧ call.instance_ = instance_ ∧
      carrier.takes env call = some endpoint ∧ carrier.instances.lookup instance_ = some state ∧
      state.connectResult = some result ∧
      answer = (Carrier.takeResult carrier.streams call state result).1 := by
  have among : .answered instance_ endpoint result answer ∈ (carrier.step env event).2 := by
    simp [answers]
  cases event with
  | connect call =>
    cases takes : carrier.takes env call with
    | none => exact absurd among ((connect_untaken takes).1 _ _ _ _)
    | some =>
      obtain ⟨state, taken, found, stored, _, obs⟩ := connect_taken takes
      rw [show (carrier.step env (.connect call)).2 = _ from obs] at answers
      cases before with
      | nil =>
        rw [nil_append, List.cons.injEq, Obs.answered.injEq] at answers
        obtain ⟨⟨rfl, rfl, rfl, same⟩, _⟩ := answers
        exact ⟨rfl, call, state, rfl, rfl, takes, found, stored, same.symm⟩
      | cons =>
        rw [cons_append, List.cons.injEq] at answers
        -- All that follows the answer is the status.
        have later := congrArg (.answered instance_ endpoint result answer ∈ ·) answers.2
        simp at later
  | _ =>
    revert among
    simp only [step, create, poll, accept, close,
      destroy]
    repeat' split
    all_goals simp

theorem takeResult_handle {handle : Nat}
    (answers : (Carrier.takeResult streams call state result).1 = .ok handle) :
    ∃ stream, result = .ok stream ∧
      (Carrier.takeResult streams call state result).2.2.table.lookup handle =
        some ⟨call.instance_, stream⟩ := by
  cases result with
  | error => cases answers
  | ok stream =>
    refine ⟨stream, rfl, ?_⟩
    simp only [takeResult, finishStream, Streams.finish] at answers ⊢
    repeat' split at answers
    all_goals cases answers
    simp_all only [Bool.not_eq_true', Bool.not_eq_false, Bool.not_true, Bool.false_eq_true,
      if_false]
    next numbered =>
    split at numbered <;> cases numbered
    simp

end Answers

variable {guard : List Obs → Carrier → Event → Prop}

/-- In every run an instance stores what the history says of its attempt. -/
theorem run_agrees {env : Env} {history : List Obs}
    {carrier : Carrier} (run : (machine env).Run Fresh guard history carrier) (instance_ : Nat) :
    Agrees (carrier.instances.lookup instance_) (openAttempts instance_ history) := by
  refine @System.Run.invariant _ _ _ (machine env) _ _ (fun history carrier =>
    Agrees (carrier.instances.lookup instance_) (openAttempts instance_ history)) ?_ ?_ _ _ run
  · rintro carrier rfl
    exact .absent
  · intro history carrier event agrees _
    rw [openAttempts_append]
    exact step_agrees agrees event

/--
In every reachable state an instance is busy with what its history tells of: with no attempt, or
with the only one that was begun and is not answered.
-/
theorem attempts_agree (env : Env) (events : List Event) (instance_ : Nat) :
    let reached := (machine env).execute ([], {}) events
    Agrees (reached.2.instances.lookup instance_) (openAttempts instance_ reached.1) :=
  run_agrees (.unguarded (.start (show Fresh {} from rfl)) events) instance_

theorem outcome_iff {env : Env} {history : List Obs}
    {carrier : Carrier} {event : Event} {instance_ : Nat} {endpoint : SocketAddr}
    {result : Except ErrorKind TcpStream} {answer : Except Status Nat} {before after : List Obs}
    (run : (machine env).Run Fresh guard history carrier) (answers : (carrier.step env event).2 =
      before ++ .answered instance_ endpoint result answer :: after) :
    Outcome history instance_ endpoint result ↔ Matches env history carrier event := by
  obtain ⟨_, call, state, rfl, rfl, takes, found, stored, _⟩ := answered_taken answers
  have agrees := run_agrees run call.instance_
  rw [found] at agrees
  obtain ⟨_, target, only, peer⟩ := agrees.outcome stored
  have attempt : attemptOf call.instance_ history = some ⟨target, some result⟩ := by
    rw [attemptOf, only]
    rfl
  constructor
  · rintro ⟨same, _⟩ asked named
    rw [Option.mem_def, takes, Option.some.injEq] at named
    rw [same, ← named]
    rfl
  · intro matched
    have same : target = endpoint := by
      have known := matched endpoint takes
      rw [attempt] at known
      exact Option.some.inj known
    subst same
    exact ⟨attempt, peer⟩

/--
A connect answers with a stream or an error of an attempt to its endpoint exactly when the attempt
it takes the result of was made to that endpoint; so it always does in runs whose connects take
results of their own endpoints only.

It answers that it is connected or has failed only with such a result, and the number it hands out
stands for the stream of the result.
-/
theorem connect_answered (env : Env) :
    (∀ history carrier, (machine env).Run Fresh (fun _ _ _ => True) history carrier → ∀ call,
      (∀ instance_ endpoint result answer,
        .answered instance_ endpoint result answer ∈ (carrier.connect env call).2 →
          (Outcome history instance_ endpoint result ↔
            Matches env history carrier (.connect call)) ∧
          ∀ handle, answer = .ok handle → ∃ stream, result = .ok stream ∧
            (carrier.connect env call).1.streams.table.lookup handle =
              some ⟨instance_, stream⟩) ∧
      ((Carrier.requested env call).isOk = true → ∀ status,
        .returned status ∈ (carrier.connect env call).2 → status = .ok ∨ status = .io →
          ∃ endpoint result answer,
            .answered call.instance_ endpoint result answer ∈ (carrier.connect env call).2)) ∧
    ∀ history carrier, (machine env).Run Fresh (Matches env) history carrier →
      ∀ early instance_ endpoint result answer late,
        history = early ++ .answered instance_ endpoint result answer :: late →
          Outcome early instance_ endpoint result := by
  refine ⟨fun history carrier run call => ⟨?_, ?_⟩, fun history carrier run => ?_⟩
  · intro instance_ endpoint result answer among
    obtain ⟨before, after, answers⟩ := append_of_mem among
    refine ⟨@outcome_iff _ _ _ _ (.connect call) _ _ _ _ _ _ run answers, ?_⟩
    rintro handle rfl
    obtain ⟨_, other, state, same, named, takes, found, stored, handed⟩ :=
      @answered_taken _ _ (.connect call) _ _ _ _ _ _ answers
    cases same
    obtain ⟨state', result', found', stored', streams, _⟩ := connect_taken takes
    rw [named] at found'
    cases found.symm.trans found'
    cases stored.symm.trans stored'
    rw [streams, ← named]
    exact takeResult_handle handed.symm
  · intro asked status among reached
    cases takes : carrier.takes env call with
    | none =>
      have refused := (connect_untaken takes).2 asked status among
      rcases reached with ok | io
      · exact absurd ok refused.1
      · exact absurd io refused.2
    | some endpoint =>
      obtain ⟨state, result, _, _, _, obs⟩ := connect_taken takes
      exact ⟨endpoint, result, _, obs ▸ mem_cons_self⟩
  · intro early instance_ endpoint result answer late cut
    refine run.occurrences (fun early item => ∀ instance_ endpoint result answer,
      item = .answered instance_ endpoint result answer →
        Outcome early instance_ endpoint result) ?_ cut _ _ _ _ rfl
    rintro history carrier event before item after run matched now instance_ endpoint result answer
      rfl
    obtain ⟨rfl, _⟩ := answered_taken now
    rw [append_nil]
    exact (outcome_iff run now).mpr matched

namespace Sample

/-- The endpoint of the configuration: port 443 of the address 192.0.2.1. -/
def configured : SocketAddr := .v4 0xc0000201#32 443

/-- Another endpoint: port 22 of the address 198.51.100.7. -/
def other : SocketAddr := .v4 0xc6336407#32 22

def otherText : List UInt8 :=
  "198.51.100.7:22".toList.map fun letter => UInt8.ofNat letter.toNat

def env : Env where
  parseEndpoint bytes := if bytes = otherText then some other else none

def creates : Event :=
  .create ⟨some (.connect configured 2 true), true, .ok (), true⟩

def connects (endpoint : List UInt8) : Event :=
  .connect ⟨1, .ok endpoint, true, true⟩

/-- A poll in which the socket of the attempt turns out to be connected. -/
def polls : Event :=
  .poll 1 ⟨.ok (), true, .ok (), .ok (), some (.ok ()), .ok none⟩

/-- What a list of events leads to. -/
def reached (events : List Event) : List Obs × Carrier :=
  (machine env).execute ([], {}) events

end Sample

open Sample

/-- Each endpoint is asked for until it is connected. -/
def inTurn : List Event :=
  [creates, connects [], polls, connects [], connects otherText, polls, connects otherText]

/-- Endpoints that are asked for one after the other are connected each. -/
theorem connect_answered_inTurn :
    (reached inTurn).2.streams.table.lookup 1 = some ⟨1, ⟨configured⟩⟩ ∧
      (reached inTurn).2.streams.table.lookup 2 = some ⟨1, ⟨other⟩⟩ ∧
      ∀ early instance_ endpoint result answer late,
        (reached inTurn).1 = early ++ .answered instance_ endpoint result answer :: late →
          Outcome early instance_ endpoint result := by
  have run : (machine env).Run Fresh (Matches env) (reached inTurn).1 (reached inTurn).2 :=
    .reached (show Fresh {} from rfl) (by decide +kernel)
  exact ⟨by decide +kernel, by decide +kernel, (connect_answered env).2 _ _ run⟩

/-- The second connect asks for another endpoint than the first. -/
def crossed : List Event :=
  [creates, connects [], polls, connects otherText]

/-- A connect gets the stream that an earlier one has had connected elsewhere. -/
theorem connect_misanswered :
    (machine env).Run Fresh (fun _ _ _ => True) (reached crossed).1 (reached crossed).2 ∧
      .answered 1 other (.ok ⟨configured⟩) (.ok 1) ∈ (reached crossed).1 ∧
      (reached crossed).2.streams.table.lookup 1 = some ⟨1, ⟨configured⟩⟩ ∧
      configured ≠ other :=
  ⟨.reached (show Fresh {} from rfl) (by decide +kernel), by decide +kernel⟩

end Snolc.Tcp
