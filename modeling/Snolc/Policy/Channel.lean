import Snolc.Lib.Run
import Snolc.Lib.Trace
import Snolc.Policy.Service

/-! The control channel writes whole frames in order, whatever its stream takes at a time. -/

namespace Snolc.Policy

open List SessionChannel

/-- The decoder that a refused byte leaves. -/
def FrameDecoder.refused (decoder : FrameDecoder) (byte : UInt8) : FrameDecoder :=
  if decoder.buffer.length ≥ decoder.limit + 4 then decoder
  else
    let buffer := decoder.buffer ++ [byte]
    match { decoder with buffer }.expect with
    | .error _ => { decoder with buffer }
    -- The text is taken out of the buffer before it turns out to be none.
    | .ok decoder => { decoder with
        buffer := buffer.drop (4 + decoder.expected.getD 0), expected := none }

/-- The decoder that pushed bytes leave, also when one of them is refused. -/
def FrameDecoder.pushed (decoder : FrameDecoder) : Bytes → FrameDecoder
  | [] => decoder
  | byte :: rest =>
    match decoder.pushByte byte with
    | .error _ => decoder.refused byte
    | .ok (decoder, _) => decoder.pushed rest

variable (channel : SessionChannel)

namespace SessionChannel

def queueSecret (secret : String) : Except ServiceError SessionChannel :=
  channel.queueResponse secret

/-- The channel that a read leaves, also when it fails. -/
def afterRead (read : ReadOutcome) : SessionChannel :=
  if channel.eof then channel
  else
    match read with
    | .bytes data =>
      match data.take channel.readBytes with
      | [] => { channel with eof := true }
      | received => { channel with decoder := channel.decoder.pushed received }
    | _ => channel

/-- What the stream takes of the current frame. -/
def taken (write : WriteOutcome) : Bytes :=
  match channel.writing, write with
  | some frame, .taken count => (frame.drop channel.writeOffset).take count
  | _, _ => []

end SessionChannel

/-- Where a frame comes from. -/
inductive Source
  | response
  | snapshot
  deriving DecidableEq, Repr

/-- What calls on a channel show. -/
inductive ChannelObs
  /-- A response or a secret was accepted, as this frame. -/
  | queued (text : String) (frame : Bytes)
  /-- A snapshot was accepted, as this frame. -/
  | replaced (text : String) (frame : Bytes)
  /-- A frame begins to be written. -/
  | began (source : Source) (frame : Bytes)
  /-- The stream has taken bytes. -/
  | wrote (bytes : Bytes)
  /-- The end of the input was read. -/
  | ended
  /-- A poll has reported that the channel is closed. -/
  | closed
  deriving DecidableEq, Repr

/-- A call on a channel. -/
inductive ChannelCall
  | queueResponse (response : String)
  | queueSecret (secret : String)
  | replaceSnapshot (snapshot : String)
  | poll (input : ChannelInput)
  deriving DecidableEq, Repr

namespace SessionChannel

def frameOf (text : String) : Bytes :=
  match encodeFrame text channel.frameLimit with
  | .ok frame => frame
  | .error _ => []

/-- The end of the input, where a read has found it. -/
def endObs (before after : SessionChannel) : List ChannelObs :=
  if !before.eof && after.eof then [.ended] else []

/-- The frame that is chosen where none is being written. -/
def beginObs : List ChannelObs :=
  match channel.writing, channel.responses, channel.snapshot with
  | none, frame :: _, _ => [.began .response frame]
  | none, [], some frame => [.began .snapshot frame]
  | _, _, _ => []

/-- The writing half of a poll, with the channel that it leaves also when it fails. -/
def write (write : WriteOutcome) : SessionChannel × List ChannelObs :=
  let chosen := channel.choose
  match chosen.transmit write with
  | .error _ => (chosen, channel.beginObs)
  | .ok next =>
    (next, channel.beginObs ++ .wrote (chosen.taken write) ::
      if next.drained then [.closed] else [])

/-- One call, with the channel that it leaves also when it fails. -/
def call : ChannelCall → SessionChannel × List ChannelObs
  | .queueResponse response =>
    match channel.queueResponse response with
    | .error _ => (channel, [])
    | .ok next => (next, [.queued response (channel.frameOf response)])
  | .queueSecret secret =>
    match channel.queueSecret secret with
    | .error _ => (channel, [])
    | .ok next => (next, [.queued secret (channel.frameOf secret)])
  | .replaceSnapshot snapshot =>
    match channel.replaceSnapshot snapshot with
    | .error _ => (channel, [])
    | .ok next => (next, [.replaced snapshot (channel.frameOf snapshot)])
  | .poll input =>
    let received := channel.afterRead input.read
    match channel.receive input.read with
    | .error _ => (received, [])
    | .ok _ =>
      let (next, obs) := received.write input.write
      (next, channel.endObs received ++ obs)

/-- Calls on a channel in any order. -/
def machine : System SessionChannel ChannelCall ChannelObs where
  step := call

end SessionChannel

namespace SessionChannel

variable {channel next : SessionChannel}

end SessionChannel

/-- What a channel is for: frames that wait, one in a slot of its own, and the rest of another. -/
structure Desk where
  queue : List Bytes
  slot : Option Bytes
  current : Bytes
  ended : Bool
  deriving DecidableEq, Repr

namespace Desk

/-- A desk with nothing on it. -/
def clear : Desk where
  queue := []
  slot := none
  current := []
  ended := false

/-- What may be seen at a desk, and what it does there. -/
inductive Next (limit : Nat) : Desk → ChannelObs → Desk → Prop
  | queued {desk : Desk} {text : String} {frame : Bytes}
      (encoded : encodeFrame text limit = .ok frame) :
      Next limit desk (.queued text frame) { desk with queue := desk.queue ++ [frame] }
  | replaced {desk : Desk} {text : String} {frame : Bytes}
      (encoded : encodeFrame text limit = .ok frame) :
      Next limit desk (.replaced text frame) { desk with slot := some frame }
  /-- A response is begun in its turn, when no frame is being written. -/
  | response {desk : Desk} {frame : Bytes} {rest : List Bytes} (free : desk.current = [])
      (first : desk.queue = frame :: rest) :
      Next limit desk (.began .response frame) { desk with queue := rest, current := frame }
  /-- A snapshot is begun when nothing else waits. -/
  | snapshot {desk : Desk} {frame : Bytes} (free : desk.current = []) (idle : desk.queue = [])
      (waits : desk.slot = some frame) :
      Next limit desk (.began .snapshot frame) { desk with slot := none, current := frame }
  | wrote {desk : Desk} {bytes rest : Bytes} (cut : desk.current = bytes ++ rest) :
      Next limit desk (.wrote bytes) { desk with current := rest }
  | ended {desk : Desk} : Next limit desk .ended { desk with ended := true }
  | closed {desk : Desk} (over_ : desk = { clear with ended := true }) :
      Next limit desk .closed desk

end Desk

namespace ChannelObs

variable (history : List ChannelObs)

/-- The bytes that the stream has taken. -/
def written : Bytes :=
  history.flatMap fun
    | .wrote bytes => bytes
    | _ => []

/-- The frames that were accepted for the queue. -/
def accepted : List Bytes :=
  history.filterMap fun
    | .queued _ frame => some frame
    | _ => none

def begun : List Bytes :=
  history.filterMap fun
    | .began _ frame => some frame
    | _ => none

/-- The frames from the queue that were begun. -/
def begunResponses : List Bytes :=
  history.filterMap fun
    | .began .response frame => some frame
    | _ => none

/-- The last snapshot that was accepted, unless there was none since the given one. -/
def newest (slot : Option Bytes) (history : List ChannelObs) : Option Bytes :=
  history.foldl (fun
    | _, .replaced _ frame => some frame
    | slot, _ => slot) slot

/-- The snapshot that was accepted and not begun, unless none was since the given one. -/
def waiting (slot : Option Bytes) (history : List ChannelObs) : Option Bytes :=
  history.foldl (fun
    | _, .replaced _ frame => some frame
    | _, .began .snapshot _ => none
    | slot, _ => slot) slot

end ChannelObs

open ChannelObs

section Seen

variable {limit : Nat} {first last : Desk} {history : List ChannelObs}

variable (seen : Follows (Desk.Next limit) first history last)
include seen

theorem Desk.written_eq :
    written history ++ last.current = first.current ++ (begun history).flatten := by
  induction seen with
  | nil => simp [written, begun]
  | cons one rest ih =>
    rw [written, begun] at ih ⊢
    rw [flatMap_cons, filterMap_cons, append_assoc, ih]
    cases one with
    | response free | snapshot free => simp [free]
    | wrote cut => simp [cut]
    | _ => simp

theorem Desk.accepted_eq :
    begunResponses history ++ last.queue = first.queue ++ accepted history := by
  induction seen with
  | nil => simp [begunResponses, accepted]
  | cons one rest ih =>
    rw [begunResponses, accepted] at ih ⊢
    rw [filterMap_cons, filterMap_cons]
    cases one with
    | response free first => simp [first, ih]
    | queued => simp [ih]
    | _ => simpa using ih

theorem Desk.waiting_eq : waiting first.slot history = last.slot := by
  induction seen with
  | nil => rfl
  | cons one rest ih =>
    rw [waiting, foldl_cons]
    cases one <;> exact ih

theorem Desk.newest_eq {frame : Bytes} (waits : last.slot = some frame) {known : Option Bytes}
    (same : ∀ frame, first.slot = some frame → known = some frame) :
    newest known history = some frame := by
  induction seen generalizing known with
  | nil => exact same frame waits
  | cons one rest ih =>
    rw [newest, foldl_cons]
    refine ih waits ?_
    cases one with
    | replaced => exact fun _ there => there
    | snapshot => simp
    | _ => exact same

end Seen

namespace SessionChannel

variable {channel next : SessionChannel} {limit : Nat}

def desk (channel : SessionChannel) : Desk where
  queue := channel.responses
  slot := channel.snapshot
  current := (channel.writing.map (·.drop channel.writeOffset)).getD []
  ended := channel.eof

theorem queueResponse_follows (limited : channel.frameLimit = limit) {text : String}
    (ok : channel.queueResponse text = .ok next) :
    Desk.Next limit channel.desk (.queued text (channel.frameOf text)) next.desk ∧
      next.frameLimit = limit := by
  unfold queueResponse at ok
  split at ok
  · cases ok
  cases encoded : encodeFrame text channel.frameLimit with
  | error => simp [encoded] at ok
  | ok =>
    simp only [encoded, Except.ok.injEq] at ok
    subst ok limited
    refine ⟨?_, rfl⟩
    rw [frameOf, encoded]
    exact .queued encoded

theorem replaceSnapshot_follows (limited : channel.frameLimit = limit) {text : String}
    (ok : channel.replaceSnapshot text = .ok next) :
    Desk.Next limit channel.desk (.replaced text (channel.frameOf text)) next.desk ∧
      next.frameLimit = limit := by
  unfold replaceSnapshot at ok
  cases encoded : encodeFrame text channel.frameLimit with
  | error => simp [encoded] at ok
  | ok =>
    simp only [encoded, Except.ok.injEq] at ok
    subst ok limited
    refine ⟨?_, rfl⟩
    rw [frameOf, encoded]
    exact .replaced encoded

theorem afterRead_desk (channel : SessionChannel) (read : ReadOutcome) :
    (channel.afterRead read).frameLimit = channel.frameLimit ∧
      (channel.afterRead read = { channel with eof := true } ∧ channel.eof = false ∧
          (∃ messages, channel.receive read = .ok ({ channel with eof := true }, messages)) ∨
        (channel.afterRead read).desk = channel.desk) := by
  unfold afterRead receive
  split
  · exact ⟨rfl, .inr rfl⟩
  next more =>
  have open_ : channel.eof = false := by simpa using more
  cases read with
  | failed | pending => exact ⟨rfl, .inr rfl⟩
  | bytes data =>
    dsimp only
    cases data.take channel.readBytes with
    | nil => exact ⟨rfl, .inl ⟨rfl, open_, [], rfl⟩⟩
    | cons => exact ⟨rfl, .inr rfl⟩

theorem afterRead_follows (channel : SessionChannel) (read : ReadOutcome) :
    Follows (Desk.Next limit) channel.desk (channel.endObs (channel.afterRead read))
      (channel.afterRead read).desk := by
  obtain ⟨-, ⟨ended, open_, -⟩ | same⟩ := channel.afterRead_desk read
  · rw [ended]
    have shown : channel.endObs { channel with eof := true } = [.ended] := by
      simp [endObs, open_]
    rw [shown]
    exact .single .ended
  · have eof : (channel.afterRead read).eof = channel.eof := congrArg Desk.ended same
    have silent : channel.endObs (channel.afterRead read) = [] := by
      simp [endObs, eof]
    rw [silent, same]
    exact .nil _

theorem choose_follows (channel : SessionChannel) :
    Follows (Desk.Next limit) channel.desk channel.beginObs channel.choose.desk := by
  unfold beginObs choose
  cases writing : channel.writing with
  | some =>
    dsimp only
    exact .nil _
  | none =>
    -- Without a frame that is being written the desk is free.
    have free : channel.desk.current = [] := by simp [desk, writing]
    cases waiting : channel.responses with
    | cons => exact .single (.response free waiting)
    | nil =>
      cases slot : channel.snapshot with
      | some frame =>
        refine .single ?_
        show Desk.Next limit channel.desk _
          { queue := [], slot := none, current := frame, ended := channel.eof }
        rw [← waiting]
        exact .snapshot free waiting slot
      | none =>
        -- Nothing is chosen, and the offset of no frame is not seen.
        have same : channel.desk =
            { queue := [], slot := none, current := [], ended := channel.eof } := by
          simp [desk, writing, waiting, slot]
        rw [same]
        exact .nil _

/-- The stream takes a part of the rest of the current frame. -/
theorem transmit_follows {write : WriteOutcome} (ok : channel.transmit write = .ok next) :
    Desk.Next limit channel.desk (.wrote (channel.taken write)) next.desk ∧
      next.frameLimit = channel.frameLimit := by
  unfold transmit at ok
  cases writing : channel.writing with
  | none =>
    simp only [writing, Except.ok.injEq] at ok
    subst ok
    have nothing : channel.taken write = [] := by simp [taken, writing]
    rw [nothing]
    exact ⟨.wrote rfl, rfl⟩
  | some frame =>
    simp only [writing] at ok
    have rest : channel.desk.current = frame.drop channel.writeOffset := by simp [desk, writing]
    cases write with
    | failed => cases ok
    | pending =>
      cases ok
      have nothing : channel.taken .pending = [] := by simp [taken]
      rw [nothing]
      exact ⟨.wrote rfl, rfl⟩
    | taken count =>
      have part : channel.taken (.taken count) = (frame.drop channel.writeOffset).take count := by
        simp [taken, writing]
      rw [part]
      dsimp only at ok
      split at ok
      · cases ok
      split at ok
      next whole =>
        -- The last bytes of the frame: nothing is left of it.
        cases ok
        refine ⟨@Desk.Next.wrote limit channel.desk _ [] ?_, rfl⟩
        rw [rest, append_nil, take_of_length_le]
        rw [length_drop]
        omega
      next more =>
        cases ok
        have after : desk { channel with
            writing := some frame
            writeOffset := channel.writeOffset +
              min count (frame.length - channel.writeOffset) } =
            { channel.desk with current := (frame.drop channel.writeOffset).drop count } := by
          simp [desk, drop_eq_drop_iff]
          omega
        rw [after]
        refine ⟨.wrote ?_, rfl⟩
        rw [rest, take_append_drop]

theorem desk_of_drained (over_ : channel.drained = true) :
    channel.desk = { Desk.clear with ended := true } := by
  simp only [drained, Bool.and_eq_true, Option.isNone_iff_eq_none, List.isEmpty_iff] at over_
  obtain ⟨⟨⟨ended, writing⟩, responses⟩, snapshot⟩ := over_
  simp [desk, Desk.clear, ended, writing, responses, snapshot]

theorem choose_frameLimit (channel : SessionChannel) :
    channel.choose.frameLimit = channel.frameLimit := by
  unfold choose
  split <;> rfl

theorem write_follows (channel : SessionChannel) (write : WriteOutcome) :
    Follows (Desk.Next limit) channel.desk (channel.write write).2 (channel.write write).1.desk ∧
      (channel.write write).1.frameLimit = channel.frameLimit := by
  unfold SessionChannel.write
  have began := @choose_follows limit channel
  have limited := channel.choose_frameLimit
  cases sent : channel.choose.transmit write with
  | error =>
    simp only [sent]
    exact ⟨began, limited⟩
  | ok =>
    simp only [sent]
    obtain ⟨wrote, same⟩ := @transmit_follows _ _ limit _ sent
    refine ⟨began.append (.cons wrote ?_), same.trans limited⟩
    split
    next over_ => exact .single (.closed (desk_of_drained over_))
    · exact .nil _

/-- Each call is one that a desk allows. -/
theorem call_follows (limited : channel.frameLimit = limit) (call : ChannelCall) :
    Follows (Desk.Next limit) channel.desk (channel.call call).2 (channel.call call).1.desk ∧
      (channel.call call).1.frameLimit = limit := by
  -- A secret is queued as a response is.
  have response (text : String) :
      Follows (Desk.Next limit) channel.desk (channel.call (.queueResponse text)).2
          (channel.call (.queueResponse text)).1.desk ∧
        (channel.call (.queueResponse text)).1.frameLimit = limit := by
    unfold SessionChannel.call
    cases queued : channel.queueResponse text with
    | error =>
      simp only [queued]
      exact ⟨.nil _, limited⟩
    | ok =>
      simp only [queued]
      obtain ⟨one, same⟩ := queueResponse_follows limited queued
      exact ⟨.single one, same⟩
  cases call with
  | queueResponse text | queueSecret text => exact response text
  | replaceSnapshot text =>
    unfold call
    cases replaced : channel.replaceSnapshot text with
    | error =>
      simp only [replaced]
      exact ⟨.nil _, limited⟩
    | ok =>
      simp only [replaced]
      obtain ⟨one, same⟩ := replaceSnapshot_follows limited replaced
      exact ⟨.single one, same⟩
  | poll input =>
    have read := @afterRead_follows limit channel input.read
    have same := (channel.afterRead_desk input.read).1.trans limited
    unfold call
    cases received : channel.receive input.read with
    | error =>
      simp only [received]
      -- A read that fails has not found the end of the input.
      obtain ⟨-, ⟨-, -, messages, ok⟩ | desk⟩ := channel.afterRead_desk input.read
      · rw [received] at ok
        cases ok
      · rw [desk]
        exact ⟨.nil _, same⟩
    | ok =>
      simp only [received]
      obtain ⟨wrote, kept⟩ := @write_follows limit (channel.afterRead input.read) input.write
      exact ⟨read.append wrote, kept.trans same⟩

/-- What calls on a channel show is what is seen at a desk that was clear at first. -/
theorem run_follows {start : SessionChannel} (opened : SessionChannel.new limit = .ok start)
    {history : List ChannelObs}
    (run : SessionChannel.machine.Run (· = start) (fun _ _ _ => True) history channel) :
    Follows (Desk.Next limit) .clear history channel.desk ∧ channel.frameLimit = limit := by
  refine @System.Run.invariant _ _ _ machine _ _ (fun history channel =>
    Follows (Desk.Next limit) .clear history channel.desk ∧ channel.frameLimit = limit)
    ?_ ?_ _ _ run
  · rintro _ rfl
    unfold new at opened
    cases fresh : FrameDecoder.new limit with
    | error => simp [fresh] at opened
    | ok =>
      simp only [fresh, Except.ok.injEq] at opened
      subst opened
      exact ⟨.nil _, rfl⟩
  · intro history channel call before _
    obtain ⟨later, same⟩ := call_follows before.2 call
    exact ⟨before.1.append later, same⟩

end SessionChannel

section Seen

variable {limit : Nat} {first last : Desk} {history : List ChannelObs}

variable (seen : Follows (Desk.Next limit) first history last)
include seen

theorem Desk.encoded_of {text : String} {frame : Bytes}
    (there : .queued text frame ∈ history ∨ .replaced text frame ∈ history) :
    encodeFrame text limit = .ok frame := by
  induction seen with
  | nil => simp at there
  | cons one rest ih =>
    rw [mem_cons, mem_cons] at there
    rcases there with (rfl | there) | (rfl | there)
    · cases one with
      | queued encoded => exact encoded
    · exact ih (.inl there)
    · cases one with
      | replaced encoded => exact encoded
    · exact ih (.inr there)

theorem Desk.ended_mem (over_ : last.ended = true) : first.ended = true ∨ .ended ∈ history := by
  induction seen with
  | nil => exact .inl over_
  | cons one rest ih =>
    rcases ih over_ with earlier | later
    · cases one with
      | ended => exact .inr mem_cons_self
      | _ => exact .inl earlier
    · exact .inr (mem_cons_of_mem _ later)

end Seen

/--
A channel writes whole frames in order, for every sequence of calls on it and whatever its stream
takes at a time.

What is accepted is the frame of its text. The bytes that were taken are a prefix of the frames
that were begun, followed by the ones that wait, and among these each response and secret that was
accepted stands once, in the order of the queue. A snapshot is begun only while it is the newest
one. A channel reports that it is closed only after the end of its input, when all that was begun
is written and nothing that was accepted is left to begin.
-/
theorem channelFrames_ordered {limit : Nat} {start channel : SessionChannel}
    (opened : SessionChannel.new limit = .ok start) {history : List ChannelObs}
    (run : SessionChannel.machine.Run (· = start) (fun _ _ _ => True) history channel) :
    (∀ text frame, .queued text frame ∈ history ∨ .replaced text frame ∈ history →
      encodeFrame text limit = .ok frame) ∧
    written history <+: (begun history ++ channel.responses).flatten ∧
    begunResponses history ++ channel.responses = accepted history ∧
    (∀ before frame after, history = before ++ .began .snapshot frame :: after →
      newest none before = some frame) ∧
    (∀ before after, history = before ++ .closed :: after →
      .ended ∈ before ∧ written before = (begun before).flatten ∧
        begunResponses before = accepted before ∧ waiting none before = none) := by
  obtain ⟨seen, -⟩ := run_follows opened run
  refine ⟨fun text frame there => Desk.encoded_of seen there, ?_, ?_, ?_, ?_⟩
  · -- The rest of the current frame is what is missing of the frames that were begun.
    refine ⟨channel.desk.current ++ channel.responses.flatten, ?_⟩
    rw [← append_assoc, Desk.written_eq seen, flatten_append]
    rfl
  · exact Desk.accepted_eq seen
  · rintro before frame after rfl
    -- Before the snapshot was begun it was in the slot.
    obtain ⟨desk, earlier, later⟩ := Follows.append_iff.mp seen
    cases later with
    | cons one =>
      cases one with
      | snapshot free idle waits =>
        exact Desk.newest_eq earlier waits (fun _ there => (by cases there))
  · rintro before after rfl
    -- The desk is clear when the channel reports that it is closed.
    obtain ⟨desk, earlier, later⟩ := Follows.append_iff.mp seen
    cases later with
    | cons one =>
      cases one with
      | closed over_ =>
        have ended := Desk.ended_mem earlier (by rw [over_])
        have written := Desk.written_eq earlier
        have accepted := Desk.accepted_eq earlier
        have waiting := Desk.waiting_eq earlier
        subst over_
        refine ⟨ended.resolve_left (by decide), ?_, ?_, waiting⟩
        · simpa [Desk.clear] using written
        · simpa [Desk.clear] using accepted

/-- A channel over a fresh stream whose frames have at most sixteen bytes. -/
def freshChannel : SessionChannel where
  decoder := { buffer := [], expected := none, limit := 16 }
  readBytes := 16
  responses := []
  snapshot := none
  writing := none
  writeOffset := 0
  frameLimit := 16
  eof := false

/-- A poll that reads nothing, and whose stream takes so many bytes. -/
def takes (count : Nat) : ChannelCall :=
  .poll { read := .pending, write := .taken count }

/-- Two snapshots and a response, written in pieces until the channel is closed. -/
def piecewiseCalls : List ChannelCall :=
  [.replaceSnapshot "old", .queueResponse "ok", takes 3, .replaceSnapshot "new", takes 9,
    .poll { read := .bytes [], write := .taken 1 }, takes 9]

theorem channelFrames_ordered_piecewise :
    let reached := SessionChannel.machine.execute ([], freshChannel) piecewiseCalls
    SessionChannel.new 16 = .ok freshChannel ∧
      begun reached.1 = [[0, 0, 0, 2, 111, 107], [0, 0, 0, 3, 110, 101, 119]] ∧
      written reached.1 <+: (begun reached.1 ++ reached.2.responses).flatten ∧
      .closed ∈ reached.1 := by
  have start : machine.Run (· = freshChannel) (fun _ _ _ => True) [] freshChannel :=
    .start rfl
  have opened : new 16 = .ok freshChannel := rfl
  refine ⟨opened, by decide +kernel, ?_, by decide +kernel⟩
  exact (channelFrames_ordered opened (start.replay
    (show machine.admits _ _ piecewiseCalls = true by decide +kernel))).2.1

end Snolc.Policy
