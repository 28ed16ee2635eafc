import Snolc.Lib.Run

/-! The TUN adapter: one packet is held each way between a descriptor and a packet port. -/

namespace Snolc.Tun

abbrev Bytes := List UInt8

/-- The answer of the descriptor to a read: a packet, an error, or not yet. -/
inductive TunRead
  | packet (data : Bytes)
  | failed
  | wouldBlock
  deriving DecidableEq, Repr

/-- The answer of the descriptor to a write: how much was taken, an error, or not yet. -/
inductive TunWrite
  | written (count : Nat)
  | failed
  | wouldBlock
  deriving DecidableEq, Repr

/-- The answer of the port when a packet is sent. -/
inductive PortSend
  | done
  | failed
  | pending
  deriving DecidableEq, Repr

/-- The answer of the port when a packet is asked for. -/
inductive PortReceive
  | datagram (data : Bytes)
  | closed
  | failed
  | pending
  deriving DecidableEq, Repr

structure State where
  packetPort : Bool
  ingress : Bytes
  ingressLen : Option Nat
  egress : Bytes
  egressLen : Option Nat
  deriving DecidableEq, Repr

/-- An instance without a port, with buffers of the size of the largest packet. -/
def initializeInstance (mtu : Nat) : State :=
  ⟨false, List.replicate mtu 0, none, List.replicate mtu 0, none⟩

/-- A packet that passes the descriptor or the port. -/
inductive Passed
  | read (packet : Bytes)
  | sent (packet : Bytes)
  | received (packet : Bytes)
  | written (packet : Bytes)
  deriving DecidableEq, Repr

/-- A part of a poll: whether it goes on, the state it leaves, and the packets that passed. -/
structure Stage where
  goesOn : Bool
  state : State
  passed : List Passed := []

/-- The next part of a poll, unless an error has ended it. -/
def Stage.andThen (stage : Stage) (next : State → Stage) : Stage :=
  if stage.goesOn then { next stage.state with passed := stage.passed ++ (next stage.state).passed }
  else stage

/-- Put a packet at the front of a buffer. -/
def fill (buffer packet : Bytes) : Bytes :=
  packet ++ buffer.drop packet.length

namespace State

variable (state : State)

/-- Send the packet that was read, if there is one. -/
def sendIngress (answer : PortSend) : Stage :=
  match state.ingressLen with
  | none => { goesOn := true, state }
  | some length =>
    match answer with
    | .done =>
      { goesOn := true, state := { state with ingressLen := none }
        passed := [.sent (state.ingress.take length)] }
    | .failed => { goesOn := false, state }
    | .pending => { goesOn := true, state }

/-- Read a packet, as much of it as fits the buffer; nothing at all is an error. -/
def readPacket (answer : TunRead) : Stage :=
  match answer with
  | .packet data =>
    let packet := data.take state.ingress.length
    if packet.length = 0 then { goesOn := false, state }
    else
      { goesOn := true
        state := { state with
          ingress := fill state.ingress packet, ingressLen := some packet.length }
        passed := [.read packet] }
  | .wouldBlock => { goesOn := true, state }
  | .failed => { goesOn := false, state }

/-- Take a packet from the port; one that is larger than the buffer is an error. -/
def receivePacket (answer : PortReceive) : Stage :=
  match answer with
  | .datagram data =>
    if data.length ≤ state.egress.length then
      { goesOn := true
        state := { state with egress := fill state.egress data, egressLen := some data.length }
        passed := [.received data] }
    else { goesOn := false, state }
  | .pending => { goesOn := true, state }
  | .closed | .failed => { goesOn := false, state }

/-- Write the packet that was received, if there is one; a part of it is an error. -/
def writePacket (answer : TunWrite) : Stage :=
  match state.egressLen with
  | none => { goesOn := true, state }
  | some length =>
    match answer with
    | .written count =>
      if count = length then
        { goesOn := true, state := { state with egressLen := none }
          passed := [.written (state.egress.take length)] }
      else { goesOn := false, state }
    | .wouldBlock => { goesOn := true, state }
    | .failed => { goesOn := false, state }

end State

/-- What the descriptor and the port answer during one poll. -/
structure PollInput where
  retry : PortSend
  read : TunRead
  send : PortSend
  receive : PortReceive
  write : TunWrite

variable (state : State) (input : PollInput)

/-- Take the next packet of the descriptor, if none is held, and send it. -/
def State.relayIngress : Stage :=
  if state.ingressLen.isNone then
    (state.readPacket input.read).andThen (·.sendIngress input.send)
  else { goesOn := true, state }

/-- Take the next packet of the port, if none is held, and write what is held. -/
def State.relayEgress : Stage :=
  (if state.egressLen.isNone then state.receivePacket input.receive
  else { goesOn := true, state }).andThen (·.writePacket input.write)

/-- Retry what is held, then take the next packet each way; it goes on unless the status is I/O. -/
def State.pollInstance : Stage :=
  if !state.packetPort then { goesOn := true, state }
  else
    (state.sendIngress input.retry).andThen fun state =>
      (state.relayIngress input).andThen (·.relayEgress input)

/-- What happens to an instance: its port is attached, or it is polled. -/
inductive Event
  | attachPacketPort
  | poll (input : PollInput)

/-- An event, which fails if a port is attached twice or if the status is I/O. -/
def State.handle : Event → Stage
  | .attachPacketPort =>
    if state.packetPort then { goesOn := false, state }
    else { goesOn := true, state := { state with packetPort := true } }
  | .poll input => state.pollInstance input

/-- The life of an instance, with the packets that passed. -/
def relay : System State Event Passed where
  step state event := ((state.handle event).state, (state.handle event).passed)

variable (history : List Passed)

def reads : List Bytes :=
  history.filterMap fun | .read packet => some packet | _ => none

def sends : List Bytes :=
  history.filterMap fun | .sent packet => some packet | _ => none

def receipts : List Bytes :=
  history.filterMap fun | .received packet => some packet | _ => none

def writes : List Bytes :=
  history.filterMap fun | .written packet => some packet | _ => none

/-- The packet on its way to the port, if there is one. -/
def State.inbound : List Bytes :=
  (state.ingressLen.map state.ingress.take).toList

/-- The packet on its way to the descriptor, if there is one. -/
def State.outbound : List Bytes :=
  (state.egressLen.map state.egress.take).toList

/-- No packet is lost, repeated or changed between a state and another one. -/
structure Conserves (before : State) (passed : List Passed) (after : State) : Prop where
  inward : sends passed ++ after.inbound = before.inbound ++ reads passed
  outward : writes passed ++ after.outbound = before.outbound ++ receipts passed

namespace Conserves

theorem refl : Conserves state [] state :=
  ⟨by simp [sends, reads], by simp [writes, receipts]⟩

theorem trans {before between after : State} {first second : List Passed}
    (earlier : Conserves before first between) (later : Conserves between second after) :
    Conserves before (first ++ second) after where
  inward := by
    have step := earlier.inward
    have next := later.inward
    simp only [sends, reads, List.filterMap_append, List.append_assoc] at *
    rw [next, ← List.append_assoc, step, List.append_assoc]
  outward := by
    have step := earlier.outward
    have next := later.outward
    simp only [writes, receipts, List.filterMap_append, List.append_assoc] at *
    rw [next, ← List.append_assoc, step, List.append_assoc]

end Conserves

/-- A part of a poll that goes on conserves packets. -/
def Stage.Sound (before : State) (stage : Stage) : Prop :=
  stage.goesOn = true → Conserves before stage.passed stage.state

namespace Stage

theorem sound_andThen {before : State} {stage : Stage} {next : State → Stage}
    (first : stage.Sound before) (second : (next stage.state).Sound stage.state) :
    (stage.andThen next).Sound before := by
  unfold andThen
  split
  · next goesOn => exact fun later => (first goesOn).trans (second later)
  · exact first

theorem sound_skip : Sound state { goesOn := true, state } :=
  fun _ => .refl state

end Stage

namespace State

variable {state : State}

theorem sendIngress_sound (answer : PortSend) : (state.sendIngress answer).Sound state := by
  unfold sendIngress
  split
  · exact Stage.sound_skip state
  next length held =>
  cases answer with
  | done =>
    intro _
    exact ⟨by simp [sends, reads, inbound, held], by simp [writes, receipts, outbound]⟩
  | failed => nofun
  | pending => exact Stage.sound_skip state

theorem take_fill (buffer packet : Bytes) : (fill buffer packet).take packet.length = packet :=
  List.take_left

theorem readPacket_sound (empty : state.ingressLen = none) (answer : TunRead) :
    (state.readPacket answer).Sound state := by
  unfold readPacket
  cases answer with
  | packet =>
    dsimp only
    split
    · nofun
    intro _
    refine ⟨?_, by simp [writes, receipts, outbound]⟩
    simp only [inbound, empty, Option.map_some, take_fill]
    rfl
  | wouldBlock => exact Stage.sound_skip state
  | failed => nofun

theorem receivePacket_sound (empty : state.egressLen = none) (answer : PortReceive) :
    (state.receivePacket answer).Sound state := by
  unfold receivePacket
  cases answer with
  | datagram =>
    dsimp only
    split
    · intro _
      refine ⟨by simp [sends, reads, inbound], ?_⟩
      simp only [outbound, empty, Option.map_some, take_fill]
      rfl
    · nofun
  | pending => exact Stage.sound_skip state
  | closed | failed => nofun

theorem writePacket_sound (answer : TunWrite) : (state.writePacket answer).Sound state := by
  unfold writePacket
  split
  · exact Stage.sound_skip state
  next length held =>
  cases answer with
  | written =>
    dsimp only
    split
    · intro _
      exact ⟨by simp [sends, reads, inbound], by simp [writes, receipts, outbound, held]⟩
    · nofun
  | wouldBlock => exact Stage.sound_skip state
  | failed => nofun

theorem pollInstance_sound : (state.pollInstance input).Sound state := by
  unfold pollInstance
  split
  · exact Stage.sound_skip state
  refine Stage.sound_andThen (sendIngress_sound _) (Stage.sound_andThen ?_ ?_)
  · unfold relayIngress
    split
    · next empty =>
      exact Stage.sound_andThen (readPacket_sound (Option.isNone_iff_eq_none.mp empty) _)
        (sendIngress_sound _)
    · exact Stage.sound_skip _
  · refine Stage.sound_andThen ?_ (writePacket_sound _)
    split
    · next empty => exact receivePacket_sound (Option.isNone_iff_eq_none.mp empty) _
    · exact Stage.sound_skip _

end State

/--
Packets are relayed exactly once and in order, as long as no event fails.
What was sent to the port is what was read from the descriptor except for at most one packet, and
what was written to the descriptor is what was received from the port except for at most one.
-/
theorem relay_exact {mtu : Nat} {history : List Passed} {state : State}
    (run : relay.Run (· = initializeInstance mtu)
      (fun _ state event => (state.handle event).goesOn = true) history state) :
    sends history <+: reads history ∧ (reads history).length ≤ (sends history).length + 1 ∧
      writes history <+: receipts history ∧
      (receipts history).length ≤ (writes history).length + 1 := by
  have conserved : Conserves (initializeInstance mtu) history state := by
    induction run with
    | start same => exact same ▸ .refl _
    | @step history state event _ goesOn ih =>
      refine ih.trans ?_
      cases event with
      | attachPacketPort =>
        simp only [relay, State.handle]
        split <;> exact ⟨(Conserves.refl state).inward, (Conserves.refl state).outward⟩
      | poll input => exact State.pollInstance_sound input goesOn
  have inward : sends history ++ state.inbound = reads history := conserved.inward
  have outward : writes history ++ state.outbound = receipts history := conserved.outward
  have one {held : Option Bytes} : held.toList.length ≤ 1 := by cases held <;> simp
  refine ⟨⟨_, inward⟩, ?_, ⟨_, outward⟩, ?_⟩
  · rw [← inward, List.length_append]
    exact Nat.add_le_add_left one _
  · rw [← outward, List.length_append]
    exact Nat.add_le_add_left one _

/-- A poll that takes one packet each way, and sends what it has read at the next poll only. -/
def busy (inward outward : Bytes) : PollInput :=
  ⟨.done, .packet inward, .pending, .datagram outward, .written outward.length⟩

/-- What two such polls pass on. -/
def passed : List Passed :=
  (relay.execute ([], initializeInstance 1280)
    [.attachPacketPort, .poll (busy [1, 2] [3]), .poll (busy [4] [5, 6])]).1

/-- Two packets are read, of which one is still held, and two are received and written. -/
theorem relay_exact_busy :
    (reads passed = [[1, 2], [4]] ∧ sends passed = [[1, 2]] ∧
      receipts passed = [[3], [5, 6]] ∧ writes passed = [[3], [5, 6]]) ∧
    sends passed <+: reads passed ∧ (reads passed).length ≤ (sends passed).length + 1 ∧
      writes passed <+: receipts passed ∧
      (receipts passed).length ≤ (writes passed).length + 1 := by
  have started : relay.Run (· = initializeInstance 1280)
      (fun _ state event => (state.handle event).goesOn = true) [] (initializeInstance 1280) :=
    .start rfl
  exact ⟨by decide +kernel, relay_exact (started.replay (by decide +kernel))⟩

end Snolc.Tun
