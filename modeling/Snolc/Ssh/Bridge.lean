import Mathlib.Logic.Function.Basic
import Snolc.Lib.Run

/-! The bridge between the engine and the worker of the SSH carrier, one atomic step at a time. -/

namespace Snolc.Bridge

/-- The two ends of a bridge. -/
inductive Side
  | engine
  | worker
  deriving DecidableEq, Repr

def Side.other : Side → Side
  | .engine => .worker
  | .worker => .engine

/-- A queue of chunks in one direction, and whether one of its ends has closed it. -/
structure Pipe where
  capacity : Nat
  queue : List (List UInt8) := []
  closed : Bool := false
  deriving DecidableEq, Repr

/-- The atomic steps of a read, in their order. -/
inductive ReadStep
  | pop
  | closed
  | register
  | popAgain
  | closedAgain
  deriving DecidableEq, Repr

/-- The atomic steps of a write, in their order. -/
inductive WriteStep
  | closed
  | push
  | register
  | isFull
  deriving DecidableEq, Repr

/-- The pipes that a drop closes, in their order. -/
inductive DropStep
  | incoming
  | outgoing
  deriving DecidableEq, Repr

/-- What an end is doing, with the step that comes next. -/
inductive Activity
  | idle
  | reading (step : ReadStep) (length : Nat)
  | writing (step : WriteStep) (input : List UInt8)
  | dropping (step : DropStep)
  | dropped
  deriving DecidableEq, Repr

structure Endpoint where
  current : List UInt8 := []
  chunkBytes : Nat
  activity : Activity := .idle
  deriving DecidableEq, Repr

/-- An end with its two pipes. -/
structure View where
  endpoint : Endpoint
  incoming : Pipe
  outgoing : Pipe
  deriving DecidableEq, Repr

/-- What a step of an end does that others can notice. -/
inductive Action
  /-- A read has returned bytes. -/
  | delivered (bytes : List UInt8)
  /-- A read has returned that the stream has ended. -/
  | ended
  /-- A write has taken bytes. -/
  | accepted (bytes : List UInt8)
  /-- A write has found its pipe closed. -/
  | broken
  /-- A read or a write has to wait. -/
  | pending
  | closedIncoming
  | closedOutgoing
  deriving DecidableEq, Repr

/-- A call that an end begins, or the next atomic step of the one it is in. -/
inductive Act
  | read (length : Nat)
  | write (input : List UInt8)
  | shutdown
  | drop
  | step
  deriving DecidableEq, Repr

namespace View

variable (view : View)

/-- Go on with another activity. -/
def become (activity : Activity) : View :=
  { view with endpoint := { view.endpoint with activity } }

/-- Copy the first bytes into the output of a read. -/
def deliver (current : List UInt8) (length : Nat) : View × List Action :=
  let count := min length current.length
  ({ view with
      endpoint := { view.endpoint with current := current.drop count, activity := .idle } },
    [.delivered (current.take count)])

/-- One atomic step of a read into an output that is not empty. -/
def pollRead (length : Nat) : ReadStep → View × List Action
  | .pop =>
    if view.endpoint.current ≠ [] then view.deliver view.endpoint.current length
    else
      match view.incoming.queue with
      | [] => (view.become (.reading .closed length), [])
      | chunk :: queue =>
        let view := { view with incoming := { view.incoming with queue } }
        if chunk ≠ [] then view.deliver chunk length
        else (view.become (.reading .closed length), [])
  | .closed =>
    if view.incoming.closed then (view.become .idle, [.ended])
    else (view.become (.reading .register length), [])
  | .register => (view.become (.reading .popAgain length), [])
  | .popAgain =>
    match view.incoming.queue with
    | [] => (view.become (.reading .closedAgain length), [])
    | chunk :: queue =>
      ({ view with
          incoming := { view.incoming with queue }
          endpoint := { view.endpoint with
            current := chunk
            activity := .reading .pop length } }, [])
  | .closedAgain =>
    if view.incoming.closed then (view.become .idle, [.ended]) else (view.become .idle, [.pending])

/-- One atomic step of a write of an input that is not empty. -/
def pollWrite (input : List UInt8) : WriteStep → View × List Action
  | .closed =>
    if view.outgoing.closed then (view.become .idle, [.broken])
    else (view.become (.writing .push input), [])
  | .push =>
    let chunk := input.take (min input.length view.endpoint.chunkBytes)
    if view.outgoing.queue.length < view.outgoing.capacity then
      ({ view.become .idle with
          outgoing := { view.outgoing with queue := view.outgoing.queue ++ [chunk] } },
        [.accepted chunk])
    else (view.become (.writing .register input), [])
  | .register => (view.become (.writing .isFull input), [])
  | .isFull =>
    if view.outgoing.capacity ≤ view.outgoing.queue.length then (view.become .idle, [.pending])
    else (view.become (.writing .closed input), [])

def closeIncoming : View :=
  { view with incoming := { view.incoming with closed := true } }

def closeOutgoing : View :=
  { view with outgoing := { view.outgoing with closed := true } }

/-- The next atomic step of the call that an end is in. -/
def step : View × List Action :=
  match view.endpoint.activity with
  | .idle | .dropped => (view, [])
  | .reading step length => view.pollRead length step
  | .writing step input => view.pollWrite input step
  | .dropping .incoming =>
    (view.closeIncoming.become (.dropping .outgoing), [.closedIncoming])
  | .dropping .outgoing => (view.closeOutgoing.become .dropped, [.closedOutgoing])

/-- Begin a call, which an end does one at a time, or go on with one. -/
def act : Act → View × List Action
  | .step => view.step
  | .read length =>
    if view.endpoint.activity = .idle && length ≠ 0 then
      (view.become (.reading .pop length), [])
    else (view, [])
  | .write input =>
    if view.endpoint.activity = .idle && input ≠ [] then
      (view.become (.writing .closed input), [])
    else (view, [])
  | .shutdown =>
    if view.endpoint.activity = .idle then (view.closeOutgoing, [.closedOutgoing])
    else (view, [])
  | .drop =>
    if view.endpoint.activity = .idle then (view.become (.dropping .incoming), [])
    else (view, [])

end View

/-- A bridge: its ends, and the pipe that each end reads. -/
structure Pair where
  endpoint : Side → Endpoint
  incoming : Side → Pipe

/-- Two ends with empty pipes. -/
def pair (queueChunks chunkBytes : Nat) : Pair where
  endpoint _ := { chunkBytes }
  incoming _ := { capacity := queueChunks }

def Pair.view (pair : Pair) (side : Side) : View :=
  ⟨pair.endpoint side, pair.incoming side, pair.incoming side.other⟩

/-- Put an end and its pipes back. -/
def Pair.update (pair : Pair) (side : Side) (view : View) : Pair where
  endpoint := Function.update pair.endpoint side view.endpoint
  incoming := Function.update (Function.update pair.incoming side view.incoming) side.other
    view.outgoing

/-- What one of the ends has done. -/
structure Obs where
  side : Side
  action : Action
  deriving DecidableEq, Repr

structure Event where
  side : Side
  act : Act
  deriving DecidableEq, Repr

/-- One of the ends begins a call or goes on with one. -/
def Pair.step (pair : Pair) (event : Event) : Pair × List Obs :=
  let (view, actions) := (pair.view event.side).act event.act
  (pair.update event.side view, actions.map fun action => ⟨event.side, action⟩)

def machine : System Pair Event Obs where
  step := Pair.step

/-- A bridge is new. -/
def Fresh (queueChunks chunkBytes : Nat) (bridge : Pair) : Prop :=
  bridge = pair queueChunks chunkBytes

end Snolc.Bridge
