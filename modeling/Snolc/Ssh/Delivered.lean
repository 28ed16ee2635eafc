import Snolc.Ssh.Bridge

/-! Bytes cross a bridge in order, and a read may take them for the end of the stream. -/

namespace Snolc.Bridge

variable {bridge : Pair} {guard : List Obs → Pair → Event → Prop}

theorem Side.other_other (side : Side) : side.other.other = side := by
  cases side <;> rfl

theorem Side.other_ne (side : Side) : side.other ≠ side := by
  cases side <;> simp [other]

/-- What has gone into the pipe of a reader, and what has come out of it. -/
structure Log where
  accepted : List UInt8 := []
  delivered : List UInt8 := []
  /-- What was accepted before the pipe was closed. -/
  before : List UInt8 := []
  closed : Bool := false
  deriving DecidableEq, Repr

namespace Log

/-- What the reader of the pipe has done. -/
def reads (log : Log) : Action → Log
  | .delivered bytes => { log with delivered := log.delivered ++ bytes }
  | .closedIncoming => { log with closed := true }
  | _ => log

/-- What the writer of the pipe has done. -/
def writes (log : Log) : Action → Log
  | .accepted bytes =>
    { log with
      accepted := log.accepted ++ bytes
      before := if log.closed then log.before else log.before ++ bytes }
  | .closedOutgoing => { log with closed := true }
  | _ => log

/-- What an observation tells about the pipe of a reader. -/
def next (reader : Side) (log : Log) (obs : Obs) : Log :=
  if obs.side = reader then log.reads obs.action else log.writes obs.action

end Log

/-- What a history tells about the pipe of a reader. -/
def logOf (reader : Side) (history : List Obs) : Log :=
  history.foldl (Log.next reader) {}

theorem logOf_append (reader : Side) (history obs : List Obs) :
    logOf reader (history ++ obs) = obs.foldl (Log.next reader) (logOf reader history) :=
  List.foldl_append

variable (endpoint : Endpoint)

/-- Whether an end is in a read that has found nothing. -/
def Endpoint.waits : Bool :=
  match endpoint.activity with
  | .reading .pop _ => false
  | .reading _ _ => true
  | _ => false

/-- Whether an end has not closed its incoming pipe. -/
def Endpoint.alive : Bool :=
  match endpoint.activity with
  | .dropping .outgoing | .dropped => false
  | _ => true

def Endpoint.pushes : Bool :=
  match endpoint.activity with
  | .writing .push _ => true
  | _ => false

/-- How a pipe with its two ends and what has gone through it fit together. -/
structure Lane (reader : Endpoint) (pipe : Pipe) (writer : Endpoint) (log : Log) : Prop where
  conserved : log.accepted = log.delivered ++ reader.current ++ pipe.queue.flatten
  waiting : reader.waits = true → reader.current = []
  flag : log.closed = pipe.closed
  open_ : log.closed = false → log.before = log.accepted
  settled : log.closed = true → reader.alive = true →
    log.before = log.accepted ∧ writer.pushes = false

section Lanes

variable {view : View} {reader writer : Endpoint} {log : Log} {activity : Activity}

theorem Lane.reader_becomes (lane : Lane view.endpoint view.incoming writer log)
    (waiting : (view.become activity).endpoint.waits = true →
      view.endpoint.current = [])
    (alive : (view.become activity).endpoint.alive = true → view.endpoint.alive = true) :
    Lane (view.become activity).endpoint (view.become activity).incoming writer log :=
  ⟨lane.conserved, waiting, lane.flag, lane.open_,
    fun closed living => lane.settled closed (alive living)⟩

theorem Lane.writer_becomes (lane : Lane reader view.outgoing view.endpoint log)
    (pushes : (view.become activity).endpoint.pushes = true → log.closed = false) :
    Lane reader (view.become activity).outgoing (view.become activity).endpoint log := by
  refine ⟨lane.conserved, lane.waiting, lane.flag, lane.open_, fun closed living => ?_⟩
  refine ⟨(lane.settled closed living).1, ?_⟩
  by_contra pushing
  rw [Bool.not_eq_false] at pushing
  simp [pushes pushing] at closed

theorem Lane.deliver {current : List UInt8} {pipe : Pipe} {length : Nat}
    (conserved : log.accepted = log.delivered ++ current ++ pipe.queue.flatten)
    (lane : Lane view.endpoint view.incoming writer log)
    (closed : pipe.closed = view.incoming.closed) (living : view.endpoint.alive = true) :
    Lane (View.deliver { view with incoming := pipe } current length).1.endpoint pipe writer
      ((View.deliver { view with incoming := pipe } current length).2.foldl Log.reads log) := by
  refine ⟨?_, by simp [View.deliver, Endpoint.waits], lane.flag.trans closed.symm, lane.open_,
    fun shut _ => lane.settled shut living⟩
  simp only [View.deliver, List.foldl_cons, List.foldl_nil, Log.reads, List.append_assoc]
  rw [← List.append_assoc (current.take _), List.take_append_drop, conserved, List.append_assoc]

/-- A step of a read keeps the lane of its reader. -/
theorem pollRead_lane {step : ReadStep} {length : Nat}
    (reading : view.endpoint.activity = .reading step length)
    (lane : Lane view.endpoint view.incoming writer log) :
    Lane (view.pollRead length step).1.endpoint (view.pollRead length step).1.incoming writer
      ((view.pollRead length step).2.foldl Log.reads log) := by
  have living : view.endpoint.alive = true := by simp [Endpoint.alive, reading]
  have found (waits : view.endpoint.waits = true) {activity : Activity} :
      Lane (view.become activity).endpoint (view.become activity).incoming writer log :=
    lane.reader_becomes (fun _ => lane.waiting waits) fun _ => living
  cases step with
  | pop =>
    simp only [View.pollRead]
    split
    · exact Lane.deliver lane.conserved lane rfl living
    next none_ =>
    rw [not_not] at none_
    split
    · exact lane.reader_becomes (fun _ => none_) fun _ => living
    next chunk queue queued =>
    have taken : log.accepted = log.delivered ++ chunk ++ queue.flatten := by
      rw [lane.conserved, none_, queued]
      simp
    split
    · exact @Lane.deliver view writer log chunk { view.incoming with queue } length taken lane
        rfl living
    next empty =>
    rw [not_not] at empty
    subst empty
    refine ⟨?_, fun _ => none_, lane.flag, lane.open_, fun closed _ => lane.settled closed living⟩
    simpa [View.become, none_] using taken
  | popAgain =>
    have waits : view.endpoint.waits = true := by simp [Endpoint.waits, reading]
    simp only [View.pollRead]
    split
    · exact found waits
    next chunk queue queued =>
    refine ⟨?_, by simp [Endpoint.waits], lane.flag, lane.open_,
      fun closed _ => lane.settled closed living⟩
    rw [List.foldl_nil, lane.conserved, lane.waiting waits, queued]
    simp
  | register => exact found (by simp [Endpoint.waits, reading])
  | closed | closedAgain =>
    simp only [View.pollRead]
    split <;> exact found (by simp [Endpoint.waits, reading])

theorem pollWrite_reader {step : WriteStep} {input : List UInt8}
    (writing : view.endpoint.activity = .writing step input)
    (lane : Lane view.endpoint view.incoming writer log) :
    Lane (view.pollWrite input step).1.endpoint (view.pollWrite input step).1.incoming writer
      ((view.pollWrite input step).2.foldl Log.reads log) := by
  have living : view.endpoint.alive = true := by simp [Endpoint.alive, writing]
  have calm {activity : Activity} (calm : (view.become activity).endpoint.waits = false) :
      Lane (view.become activity).endpoint (view.become activity).incoming writer log :=
    lane.reader_becomes (fun waits => by simp [calm] at waits) fun _ => living
  cases step with
  | register => exact calm rfl
  | _ =>
    simp only [View.pollWrite]
    split <;> exact calm rfl

/-- Whatever an end does, the lane that it reads stays as it should be. -/
theorem act_reader (act : Act) (lane : Lane view.endpoint view.incoming writer log) :
    Lane (view.act act).1.endpoint (view.act act).1.incoming writer
      ((view.act act).2.foldl Log.reads log) := by
  cases act with
  | step =>
    simp only [View.act, View.step]
    split
    · exact lane
    · exact lane
    next reading => exact pollRead_lane reading lane
    next writing => exact pollWrite_reader writing lane
    · refine ⟨lane.conserved, ?_, rfl, ?_, ?_⟩
      · simp [View.become, View.closeIncoming, Endpoint.waits]
      · simp [Log.reads]
      · simp [View.become, Endpoint.alive]
    · refine ⟨lane.conserved, by simp [View.become, Endpoint.waits], lane.flag, lane.open_, ?_⟩
      simp [View.become, Endpoint.alive]
  | read | write =>
    simp only [View.act]
    split
    next begins =>
      simp only [Bool.and_eq_true, decide_eq_true_eq] at begins
      exact lane.reader_becomes (by simp [View.become, Endpoint.waits])
        fun _ => by simp [Endpoint.alive, begins.1]
    · exact lane
  | shutdown =>
    simp only [View.act]
    split <;> exact lane
  | drop =>
    simp only [View.act]
    split
    next begins =>
      exact lane.reader_becomes (by simp [View.become, Endpoint.waits])
        fun _ => by simp [Endpoint.alive, begins]
    · exact lane

theorem pollWrite_lane {step : WriteStep} {input : List UInt8}
    (writing : view.endpoint.activity = .writing step input)
    (lane : Lane reader view.outgoing view.endpoint log) :
    Lane reader (view.pollWrite input step).1.outgoing (view.pollWrite input step).1.endpoint
      ((view.pollWrite input step).2.foldl Log.writes log) := by
  cases step with
  | closed =>
    simp only [View.pollWrite]
    split
    · exact lane.writer_becomes (by simp [View.become, Endpoint.pushes])
    next unclosed =>
      exact lane.writer_becomes fun _ => lane.flag.trans (Bool.eq_false_iff.mpr unclosed)
  | push =>
    simp only [View.pollWrite]
    split
    · -- The reader of a closed pipe has gone, or the writer would not be here.
      refine ⟨?_, lane.waiting, lane.flag, fun unclosed => ?_, fun closed living => ?_⟩
      · simp [Log.writes, lane.conserved]
      · have same : log.closed = false := unclosed
        simp [Log.writes, same, lane.open_ same]
      · have here := (lane.settled closed living).2
        simp [Endpoint.pushes, writing] at here
    · exact lane.writer_becomes (by simp [View.become, Endpoint.pushes])
  | register => exact lane.writer_becomes (by simp [View.become, Endpoint.pushes])
  | isFull =>
    simp only [View.pollWrite]
    split <;> exact lane.writer_becomes (by simp [View.become, Endpoint.pushes])

theorem Lane.close {pipe : Pipe} {next : Endpoint} (lane : Lane reader pipe writer log)
    (pushes : next.pushes = false) :
    Lane reader { pipe with closed := true } next { log with closed := true } := by
  refine ⟨lane.conserved, lane.waiting, rfl, by simp, fun _ living => ⟨?_, pushes⟩⟩
  cases closed : log.closed with
  | false => exact lane.open_ closed
  | true => exact (lane.settled closed living).1

theorem pollRead_writer (step : ReadStep) (length : Nat)
    (lane : Lane reader view.outgoing view.endpoint log) :
    Lane reader (view.pollRead length step).1.outgoing (view.pollRead length step).1.endpoint
      ((view.pollRead length step).2.foldl Log.writes log) := by
  have calm {next : Endpoint} (pushes : next.pushes = false) :
      Lane reader view.outgoing next log :=
    ⟨lane.conserved, lane.waiting, lane.flag, lane.open_,
      fun closed living => ⟨(lane.settled closed living).1, pushes⟩⟩
  cases step with
  | register => exact calm rfl
  | _ =>
    simp only [View.pollRead]
    repeat' split
    all_goals exact calm rfl

theorem act_writer (act : Act) (lane : Lane reader view.outgoing view.endpoint log) :
    Lane reader (view.act act).1.outgoing (view.act act).1.endpoint
      ((view.act act).2.foldl Log.writes log) := by
  cases act with
  | step =>
    simp only [View.act, View.step]
    split
    · exact lane
    · exact lane
    · exact pollRead_writer _ _ lane
    next writing => exact pollWrite_lane writing lane
    · exact lane.writer_becomes (by simp [View.become, Endpoint.pushes])
    · exact lane.close rfl
  | shutdown =>
    simp only [View.act]
    split
    next idle => exact lane.close (by simp [View.closeOutgoing, Endpoint.pushes, idle])
    · exact lane
  | read | write | drop =>
    simp only [View.act]
    split
    · exact lane.writer_becomes (by simp [View.become, Endpoint.pushes])
    · exact lane

end Lanes

theorem step_lane {reader : Side} {log : Log} (event : Event)
    (lane : Lane (bridge.endpoint reader) (bridge.incoming reader) (bridge.endpoint reader.other)
      log) :
    Lane ((bridge.step event).1.endpoint reader) ((bridge.step event).1.incoming reader)
      ((bridge.step event).1.endpoint reader.other)
      ((bridge.step event).2.foldl (Log.next reader) log) := by
  obtain ⟨side, act⟩ := event
  simp only [Pair.step, Pair.update, List.foldl_map]
  by_cases same : side = reader
  · subst same
    -- The end that acts reads this lane.
    have reads := act_reader act (show Lane (bridge.view side).endpoint (bridge.view side).incoming
      (bridge.endpoint side.other) log from lane)
    simpa [Log.next, Function.update_of_ne side.other_ne, Function.update_of_ne side.other_ne.symm]
      using reads
  · have other : side = reader.other := by
      cases side <;> cases reader <;> simp_all [Side.other]
    subst other
    have writes := act_writer act (show Lane (bridge.endpoint reader)
      (bridge.view reader.other).outgoing (bridge.view reader.other).endpoint log by
        simpa [Pair.view, Side.other_other] using lane)
    simpa [Log.next, reader.other_ne, Side.other_other,
      Function.update_of_ne reader.other_ne.symm] using writes

variable {history before after : List Obs} {queueChunks chunkBytes : Nat}

/-- In every run each pipe, its ends and what has gone through it fit together. -/
theorem run_lane
    (run : machine.Run (Fresh queueChunks chunkBytes) guard history bridge) (reader : Side) :
    Lane (bridge.endpoint reader) (bridge.incoming reader) (bridge.endpoint reader.other)
      (logOf reader history) := by
  refine @System.Run.invariant _ _ _ machine _ _ (fun history bridge =>
    Lane (bridge.endpoint reader) (bridge.incoming reader) (bridge.endpoint reader.other)
      (logOf reader history)) ?_ ?_ _ _ run
  · rintro bridge rfl
    exact ⟨rfl, fun _ => rfl, rfl, fun _ => rfl, fun closed => by cases closed⟩
  · intro history bridge event lane _
    rw [logOf_append]
    exact step_lane event lane

/-- In every interleaving a pipe holds, in order, exactly what was accepted and not delivered. -/
theorem pipes_conserve (queueChunks chunkBytes : Nat) (events : List Event) (reader : Side) :
    let reached := machine.execute ([], pair queueChunks chunkBytes) events
    Lane (reached.2.endpoint reader) (reached.2.incoming reader) (reached.2.endpoint reader.other)
      (logOf reader reached.1) :=
  run_lane (.unguarded (.start (show Fresh queueChunks chunkBytes _ from rfl)) events) reader

/-- Whether the next step of an end is to look whether its pipe was closed, in a read. -/
def Endpoint.looks : Bool :=
  match endpoint.activity with
  | .reading .closed _ | .reading .closedAgain _ => true
  | _ => false

/-- A read that has found the queue empty and then finds the pipe closed has missed no chunk. -/
def Settled (_ : List Obs) (bridge : Pair) (event : Event) : Prop :=
  event.act = .step → (bridge.endpoint event.side).looks = true →
    (bridge.incoming event.side).closed = true →
      (bridge.incoming event.side).queue.flatten = []

instance (history : List Obs) (bridge : Pair) (event : Event) :
    Decidable (Settled history bridge event) :=
  inferInstanceAs (Decidable (_ → _))

/-- The end of a stream is reported by a read that finds its pipe closed, and nothing else is. -/
theorem act_ended {view : View} {act : Act} (ends : .ended ∈ (view.act act).2) :
    act = .step ∧ view.endpoint.looks = true ∧ view.incoming.closed = true ∧
      (view.act act).2 = [.ended] := by
  cases act with
  | step =>
    simp only [View.act, View.step] at ends ⊢
    cases activity : view.endpoint.activity with
    | idle | dropped => simp [activity] at ends
    | dropping step => cases step <;> simp [activity] at ends
    | writing step =>
      exfalso
      revert ends
      cases step <;> simp only [activity, View.pollWrite] <;> (try split) <;> simp
    | reading step =>
      simp only [activity] at ends ⊢
      cases step with
      | closed | closedAgain =>
        simp only [View.pollRead] at ends ⊢
        split at ends
        next closed => simp [Endpoint.looks, activity, closed]
        · simp at ends
      | register => simp [View.pollRead] at ends
      | _ =>
        exfalso
        revert ends
        simp only [View.pollRead, View.deliver]
        repeat' split
        all_goals simp
  | _ =>
    exfalso
    revert ends
    simp only [View.act]
    split <;> simp

theorem step_ended {event : Event} {side : Side}
    (ends : (bridge.step event).2 = before ++ ⟨side, .ended⟩ :: after) :
    before = [] ∧ event.side = side ∧ event.act = .step ∧
      (bridge.endpoint side).looks = true ∧ (bridge.incoming side).closed = true := by
  have among : ⟨side, .ended⟩ ∈ (bridge.step event).2 := by simp [ends]
  obtain ⟨action, acted, same⟩ := List.mem_map.mp among
  cases same
  obtain ⟨steps, looks, closed, only⟩ := act_ended acted
  refine ⟨?_, rfl, steps, looks, closed⟩
  simp only [Pair.step, only, List.map_cons, List.map_nil] at ends
  cases before with
  | nil => rfl
  | cons => simp at ends

theorem ended_iff {event : Event} {side : Side}
    (run : machine.Run (Fresh queueChunks chunkBytes) guard history bridge)
    (ends : (bridge.step event).2 = before ++ ⟨side, .ended⟩ :: after) :
    (logOf side history).before <+: (logOf side history).delivered ↔
      Settled history bridge event := by
  obtain ⟨_, rfl, steps, looks, closed⟩ := step_ended ends
  have lane := run_lane run event.side
  have living : (bridge.endpoint event.side).alive = true := by
    revert looks
    simp only [Endpoint.looks, Endpoint.alive]
    split <;> simp_all
  have waits : (bridge.endpoint event.side).waits = true := by
    revert looks
    simp only [Endpoint.looks, Endpoint.waits]
    split <;> simp_all
  -- The pipe was closed by its writer, so all that it took came before.
  have whole : (logOf event.side history).before = (logOf event.side history).delivered ++
      (bridge.incoming event.side).queue.flatten := by
    rw [(lane.settled (lane.flag.trans closed) living).1, lane.conserved, lane.waiting waits,
      List.append_nil]
  rw [whole]
  constructor
  · intro within _ _ _
    have short := within.length_le
    rw [List.length_append] at short
    exact List.eq_nil_of_length_eq_zero (by omega)
  · intro settled
    have nothing := settled steps looks closed
    exact ⟨[], by rw [nothing, List.append_nil, List.append_nil]⟩

/--
The bytes that a read returns are the first of those that the writes at the other end have taken, in
their order.

A read that reports the end of the stream has returned all that was taken before the close exactly
when no chunk came between its last look at the queue and its look at the flag; so it always has in
runs in which none does.
-/
theorem ended_delivered (queueChunks chunkBytes : Nat) :
    (∀ history bridge,
      machine.Run (Fresh queueChunks chunkBytes) (fun _ _ _ => True) history bridge →
      (∀ side, (logOf side history).delivered <+: (logOf side history).accepted) ∧
      ∀ event side, ⟨side, .ended⟩ ∈ (bridge.step event).2 →
        ((logOf side history).before <+: (logOf side history).delivered ↔
          Settled history bridge event)) ∧
    ∀ history bridge, machine.Run (Fresh queueChunks chunkBytes) Settled history bridge →
      ∀ early side late, history = early ++ ⟨side, .ended⟩ :: late →
        (logOf side early).before <+: (logOf side early).delivered := by
  refine ⟨fun history bridge run => ⟨fun side => ?_, fun event side among => ?_⟩,
    fun history bridge run => ?_⟩
  · rw [(run_lane run side).conserved, List.append_assoc]
    exact List.prefix_append _ _
  · obtain ⟨before, after, ends⟩ := List.append_of_mem among
    exact ended_iff run ends
  · intro early side late cut
    refine run.occurrences (fun early item => ∀ side, item = ⟨side, .ended⟩ →
      (logOf side early).before <+: (logOf side early).delivered) ?_ cut _ rfl
    rintro history bridge event before item after run settled now side rfl
    obtain ⟨rfl, _⟩ := step_ended now
    rw [List.append_nil]
    exact (ended_iff run now).mpr settled

namespace Sample

/-- So many atomic steps of an end. -/
def steps (side : Side) (count : Nat) : List Event :=
  List.replicate count ⟨side, .step⟩

/-- What a list of events leads to on a bridge for two chunks of four bytes. -/
def reached (events : List Event) : List Obs × Pair :=
  machine.execute ([], pair 2 4) events

end Sample

open Sample

/-- The engine writes and closes, and the worker reads until the end. -/
def inTurn : List Event :=
  ⟨.engine, .write [1, 2, 3]⟩ :: steps .engine 2 ++ [⟨.engine, .shutdown⟩, ⟨.worker, .read 8⟩] ++
    steps .worker 1 ++ ⟨.worker, .read 8⟩ :: steps .worker 2

/-- A reader that comes after the writer gets everything and then the end. -/
theorem ended_delivered_inTurn :
    (reached inTurn).1 =
        [⟨.engine, .accepted [1, 2, 3]⟩, ⟨.engine, .closedOutgoing⟩,
          ⟨.worker, .delivered [1, 2, 3]⟩, ⟨.worker, .ended⟩] ∧
      ∀ early side late, (reached inTurn).1 = early ++ ⟨side, .ended⟩ :: late →
        (logOf side early).before <+: (logOf side early).delivered := by
  have run : machine.Run (Fresh 2 4) Settled (reached inTurn).1 (reached inTurn).2 :=
    .reached (show Fresh 2 4 (pair 2 4) from rfl) (by decide +kernel)
  exact ⟨by decide +kernel, (ended_delivered 2 4).2 _ _ run⟩

/-- The worker finds its queue empty; then the engine writes and closes; then the worker goes on. -/
def raced : List Event :=
  ⟨.worker, .read 8⟩ :: steps .worker 1 ++ ⟨.engine, .write [1, 2, 3]⟩ :: steps .engine 2 ++
    ⟨.engine, .shutdown⟩ :: steps .worker 1

/-- A read reports the end of a stream of which it has returned nothing. -/
theorem ended_undelivered :
    machine.Run (Fresh 2 4) (fun _ _ _ => True) (reached raced).1 (reached raced).2 ∧
      (reached raced).1 =
        [⟨.engine, .accepted [1, 2, 3]⟩, ⟨.engine, .closedOutgoing⟩, ⟨.worker, .ended⟩] ∧
      ¬ (logOf .worker (reached raced).1).before <+:
        (logOf .worker (reached raced).1).delivered :=
  ⟨.reached (show Fresh 2 4 (pair 2 4) from rfl) (by decide +kernel), by decide +kernel⟩

end Snolc.Bridge
