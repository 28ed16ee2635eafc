import Snolc.Noise.Pipe
import Snolc.Noise.Wrapping

/-! A handshake sends one message and reads one, however the lower stream divides them up. -/

namespace Snolc.Noise

open List PendingHandshake

variable {κ η τ : Type}

/-- A handshake until it is over, and the bytes that its lower stream can still hand out. -/
structure Line (η : Type) where
  pending : Option (PendingHandshake η)
  wire : Bytes
  deriving DecidableEq, Repr

/-- What a call on a handshake shows. -/
inductive Driving (τ : Type)
  /-- Bytes that the lower stream has taken. -/
  | wrote (bytes : Bytes)
  | returned (transport : τ)
  | failed
  deriving DecidableEq, Repr

variable (snow : Handshaking κ η τ)

/-- One call on a handshake; one that has ended or failed is given up. -/
def Line.drive (line : Line η) (call : WrapCall) : Line η × List (Driving τ) :=
  match line.pending with
  | none => (line, [])
  | some pending =>
    let driven := pending.drive snow { call with wire := line.wire }
    match driven.result with
    | .ok none => (⟨some driven.pending, driven.wire⟩, [.wrote driven.written])
    | .ok (some transport) => (⟨none, driven.wire⟩, [.wrote driven.written, .returned transport])
    | .error _ => (⟨none, driven.wire⟩, [.wrote driven.written, .failed])

/-- Calls on one handshake, while its lower stream hands out the bytes of a wire. -/
def driver : System (Line η) WrapCall (Driving τ) where
  step line call := line.drive snow call

/-- The bytes that the lower stream has taken. -/
def writtenBy (history : List (Driving τ)) : Bytes :=
  history.flatMap fun
    | .wrote bytes => bytes
    | _ => []

@[simp] theorem writtenBy_append (first second : List (Driving τ)) :
    writtenBy (first ++ second) = writtenBy first ++ writtenBy second :=
  flatMap_append

/--
The framed message of a role.
A client makes it before anything is read; a server makes it once it has read that of its peer.
-/
inductive OwnMessage (snow : Handshaking κ η τ) (stream : Bytes) : RoleKey κ → Bytes → Prop
  | client {key : κ} {initiator next : η} {random : Nat} {message framed : Bytes}
      (built : snow.buildInitiator key = some initiator)
      (written : snow.writeMessage initiator random = some (message, next))
      (made : frame message maxHandshake = .ok framed) : OwnMessage snow stream (.client key) framed
  | server {key : κ} {responder state next : η} {random : Nat} {peer rest message framed : Bytes}
      (built : snow.buildResponder key = some responder)
      (read : (messageFraming maxHandshake).front stream = .ok (some (peer, rest)))
      (accepted : snow.readMessage responder peer = some (0, state))
      (written : snow.writeMessage state random = some (message, next))
      (made : frame message maxHandshake = .ok framed) : OwnMessage snow stream (.server key) framed

section Once

variable {snow : Handshaking κ η τ} {stream written wire : Bytes} {role : RoleKey κ}

theorem OwnMessage.nonempty {framed : Bytes} (own : OwnMessage snow stream role framed) :
    framed.isEmpty = false := by
  have nonempty {message : Bytes} (made : frame message maxHandshake = .ok framed) :
      framed.isEmpty = false := by
    rw [(framed_frame made).1]
    rfl
  cases own with
  | client _ _ made | server _ _ _ _ made => exact nonempty made

/-- At most one message is written, and nothing behind the message of the peer is read. -/
structure Once (snow : Handshaking κ η τ) (role : RoleKey κ) (stream written wire : Bytes) :
    Prop where
  sends : written = [] ∨ ∃ framed, OwnMessage snow stream role framed ∧ written <+: framed
  reads : wire <:+ stream
  within : ∀ peer rest, (messageFraming maxHandshake).front stream = .ok (some (peer, rest)) →
    rest <:+ wire

/-- The message of the role was written as a whole, and that of the peer was read. -/
def Complete (snow : Handshaking κ η τ) (role : RoleKey κ) (stream written wire : Bytes) : Prop :=
  OwnMessage snow stream role written ∧
    ∃ peer, (messageFraming maxHandshake).front stream = .ok (some (peer, wire))

/-- How far a handshake has come that waits for its lower stream. -/
inductive Phase (snow : Handshaking κ η τ) (role : RoleKey κ) (stream written wire : Bytes) :
    PendingHandshake η → Prop
  /-- The message is on its way: a client has read nothing yet, a server that of its peer. -/
  | sending {pending : PendingHandshake η} {framed : Bytes}
      (own : OwnMessage snow stream role framed) (outbound : pending.outbound = framed)
      (handed : written = framed.take pending.outboundOffset)
      (turn : pending.serverReply = false ∧ pending.inbound = {} ∧ wire = stream ∨
        pending.serverReply = true ∧
          ∃ peer, (messageFraming maxHandshake).front stream = .ok (some (peer, wire))) :
      Phase snow role stream written wire pending
  /-- The message of the peer is being read: a client has sent its own, a server nothing. -/
  | receiving {pending : PendingHandshake η} {data : Bytes}
      (outbound : pending.outbound = []) (offset : pending.outboundOffset = 0)
      (inbound : pending.inbound = .reading data)
      (incomplete : (messageFraming maxHandshake).front data = .ok none)
      (handed : stream = data ++ wire)
      (turn : pending.serverReply = false ∧ OwnMessage snow stream role written ∨
        pending.serverReply = true ∧ written = [] ∧ ∃ key responder, role = .server key ∧
          snow.buildResponder key = some responder ∧ pending.handshake = some responder) :
      Phase snow role stream written wire pending

variable {data peer out : Bytes}

section

variable (sends : written = [] ∨ ∃ framed, OwnMessage snow stream role framed ∧ written <+: framed)
include sends

theorem once_reading (incomplete : (messageFraming maxHandshake).front data = .ok none)
    (handed : stream = data ++ wire) : Once snow role stream written wire := by
  subst handed
  exact ⟨sends, suffix_append _ _, fun peer rest found =>
    Framing.front_suffix incomplete found⟩

theorem once_read (found : (messageFraming maxHandshake).front stream = .ok (some (peer, wire))) :
    Once snow role stream written wire := by
  obtain ⟨frame, -, rfl⟩ := Framing.framed_of_front found
  refine ⟨sends, suffix_append _ _, fun other rest also => ?_⟩
  rw [found] at also
  cases also
  exact suffix_refl _

theorem once_refused (bad : (messageFraming maxHandshake).front data = .error .length)
    (handed : stream = data ++ wire) : Once snow role stream written wire := by
  subst handed
  refine ⟨sends, suffix_append _ _, fun peer rest found => ?_⟩
  rw [Framing.front_append_error bad wire] at found
  cases found

end

variable {pending : PendingHandshake η}

theorem Phase.once
    (phase : Phase snow role stream written wire pending) : Once snow role stream written wire := by
  cases phase with
  | sending own outbound handed turn =>
    have sends : written = [] ∨ ∃ framed, OwnMessage snow stream role framed ∧
        written <+: framed := .inr ⟨_, own, handed ▸ take_prefix _ _⟩
    rcases turn with ⟨-, -, rfl⟩ | ⟨-, peer, found⟩
    · have nothing : (messageFraming maxHandshake).front [] = .ok none := rfl
      exact once_reading sends nothing rfl
    · exact once_read sends found
  | receiving outbound offset inbound incomplete handed turn =>
    refine once_reading ?_ incomplete handed
    rcases turn with ⟨-, own⟩ | ⟨-, nothing, -⟩
    · exact .inr ⟨_, own, prefix_refl _⟩
    · exact .inl nothing

/-- What a call makes of a handshake: it waits again, or it is over with both messages, or fails. -/
structure Advances (snow : Handshaking κ η τ) (role : RoleKey κ) (stream written : Bytes)
    (driven : Driven η τ) : Prop where
  once : Once snow role stream (written ++ driven.written) driven.wire
  waits : driven.result = .ok none →
    Phase snow role stream (written ++ driven.written) driven.wire driven.pending
  returns : ∀ transport, driven.result = .ok (some transport) →
    Complete snow role stream (written ++ driven.written) driven.wire

theorem Once.fails (once : Once snow role stream (written ++ out) wire) (fault : NoiseError) :
    Advances snow role stream written
      ⟨(.error fault : Except NoiseError (Option τ)), pending, wire, out⟩ :=
  ⟨once, fun waits => (by cases waits), fun _ returns => (by cases returns)⟩

theorem Phase.waits (phase : Phase snow role stream (written ++ out) wire pending) :
    Advances snow role stream written
      ⟨(.ok none : Except NoiseError (Option τ)), pending, wire, out⟩ :=
  ⟨phase.once, fun _ => phase, fun _ returns => (by cases returns)⟩

theorem Complete.finishing
    (complete : Complete snow role stream (written ++ out) wire) (pending : PendingHandshake η) :
    Advances snow role stream written (pending.finishing snow wire out) := by
  obtain ⟨own, peer, found⟩ := complete
  refine ⟨once_read (.inr ⟨_, own, prefix_refl _⟩) found, fun waits => ?_,
    fun _ _ => ⟨own, peer, found⟩⟩
  -- Finishing never waits.
  simp only [PendingHandshake.finishing] at waits
  cases result : (pending.finish snow).1 <;> simp [result, Except.map] at waits

theorem PendingHandshake.flush_spec {pending : PendingHandshake η} {framed : Bytes}
    (outbound : pending.outbound = framed)
    (handed : written = framed.take pending.outboundOffset) (writes : List IoResult) :
    written ++ (pending.flush writes).2.2 =
        framed.take (pending.flush writes).2.1.outboundOffset ∧
      ((pending.flush writes).1 = .ok true → written ++ (pending.flush writes).2.2 = framed) := by
  subst outbound handed
  have forward := flushBytes_le pending.outbound writes pending.outboundOffset
  have joined : pending.outbound.take pending.outboundOffset ++
      (pending.outbound.take (flushBytes pending.outbound writes pending.outboundOffset).2).drop
        pending.outboundOffset =
      pending.outbound.take (flushBytes pending.outbound writes pending.outboundOffset).2 := by
    rw [← Nat.min_eq_left forward, ← take_take, Nat.min_eq_left forward,
      take_append_drop]
  refine ⟨joined, fun complete => joined.trans ?_⟩
  exact take_of_length_le (flushBytes_complete complete)

/-- A server that has read the message of its peer answers it. -/
theorem reply_advances {key : κ} {responder state : η}
    (built : snow.buildResponder key = some responder)
    (found : (messageFraming maxHandshake).front stream = .ok (some (peer, wire)))
    (accepted : snow.readMessage responder peer = some (0, state))
    (offset : pending.outboundOffset = 0) (server : pending.serverReply = true) (call : WrapCall) :
    Advances snow (.server key) stream [] (pending.reply snow state call wire) := by
  have silent : Once snow (.server key) stream ([] ++ []) wire := once_read (.inl rfl) found
  unfold reply
  cases message : snow.writeMessage state call.random with
  | none => exact silent.fails _
  | some made =>
    obtain ⟨response, next⟩ := made
    dsimp only
    cases framing : frame response maxHandshake with
    | error => exact silent.fails _
    | ok framed =>
      have own : OwnMessage snow stream (.server key) framed :=
        .server built found accepted message framing
      dsimp only
      have flushed := @PendingHandshake.flush_spec η []
        { pending with handshake := some next, outbound := framed } framed rfl
        (by rw [offset]; rfl) call.writes
      have kept : (flush
          { pending with handshake := some next, outbound := framed } call.writes).2.1.outbound =
            framed ∧ (flush
          { pending with handshake := some next, outbound := framed }
            call.writes).2.1.serverReply = true := ⟨rfl, server⟩
      generalize flush
        { pending with handshake := some next, outbound := framed } call.writes = result
        at flushed kept
      obtain ⟨result, pending, out⟩ := result
      obtain ⟨joined, complete⟩ := flushed
      obtain ⟨outbound, server⟩ := kept
      have phase : Phase snow (.server key) stream ([] ++ out) wire pending :=
        .sending own outbound joined (.inr ⟨server, peer, found⟩)
      cases result with
      | error => exact phase.once.fails _
      | ok done =>
        cases done with
        | false => exact phase.waits
        | true =>
          refine Complete.finishing ⟨?_, peer, found⟩ _
          rw [complete rfl]
          exact own

/-- A call goes on reading the message of the peer, and with what that leads to. -/
theorem receive_advances {pending : PendingHandshake η} {data : Bytes}
    (offset : pending.outboundOffset = 0) (outbound : pending.outbound = [])
    (inbound : pending.inbound = .reading data)
    (incomplete : (messageFraming maxHandshake).front data = .ok none)
    (handed : stream = data ++ wire)
    (turn : pending.serverReply = false ∧ OwnMessage snow stream role written ∨
      pending.serverReply = true ∧ written = [] ∧ ∃ key responder, role = .server key ∧
        snow.buildResponder key = some responder ∧ pending.handshake = some responder)
    (call : WrapCall) (same : call.wire = wire) :
    Advances snow role stream written (pending.receive snow call) := by
  have sends : written ++ [] = [] ∨ ∃ framed, OwnMessage snow stream role framed ∧
      written ++ [] <+: framed := by
    rw [append_nil]
    rcases turn with ⟨-, own⟩ | ⟨-, nothing, -⟩
    · exact .inr ⟨_, own, prefix_refl _⟩
    · exact .inl nothing
  unfold receive
  rw [inbound, same]
  rcases @readFrame_outcome maxHandshake call.reads data wire incomplete with
    ⟨result, kept, left, read, open_, together, still⟩ | ⟨message, left, read, found⟩ |
    ⟨kept, left, read, together, bad⟩
  · -- The message is not complete yet, or the lower stream has failed.
    rw [read]
    rw [← together] at handed
    cases result with
    | error => exact (once_reading sends still handed).fails _
    | ok message =>
      cases message with
      | some message => exact absurd rfl (open_ message)
      | none =>
        refine Phase.waits (.receiving outbound offset rfl still handed ?_)
        rwa [append_nil]
  · -- The message of the peer is complete, and nothing behind it was read.
    rw [read]
    rw [← handed] at found
    have once := once_read sends found
    dsimp only
    split
    · exact once.fails _
    next state shaking =>
    split
    · exact once.fails _
    next payload next opened =>
    split
    · exact once.fails _
    next empty =>
    rw [not_not] at empty
    subst empty
    rcases turn with ⟨client, own⟩ | ⟨server, rfl, key, responder, rfl, built, begun⟩
    · rw [if_neg (by simp [client])]
      refine Complete.finishing ⟨?_, message, found⟩ _
      rwa [append_nil]
    · rw [if_pos server]
      rw [begun, Option.some.injEq] at shaking
      subst shaking
      exact reply_advances built found opened (by exact offset) (by exact server) call
  · rw [read]
    rw [← together] at handed
    exact (once_refused sends bad handed).fails _

/-- Every call keeps to one message each way. -/
theorem Phase.drive (phase : Phase snow role stream written wire pending) (call : WrapCall)
    (same : call.wire = wire) : Advances snow role stream written (pending.drive snow call) := by
  unfold PendingHandshake.drive
  cases phase with
  | receiving outbound offset inbound incomplete handed turn =>
    rw [if_pos (by rw [outbound]; rfl)]
    exact receive_advances offset outbound inbound incomplete handed turn call same
  | @sending framed own outbound handed turn =>
    rw [if_neg (by rw [outbound, own.nonempty]; simp)]
    have flushed := flush_spec outbound handed call.writes
    have kept : (pending.flush call.writes).2.1.outbound = pending.outbound ∧
        (pending.flush call.writes).2.1.serverReply = pending.serverReply ∧
        (pending.flush call.writes).2.1.inbound = pending.inbound := ⟨rfl, rfl, rfl⟩
    generalize pending.flush call.writes = result at flushed kept
    obtain ⟨result, next, out⟩ := result
    obtain ⟨joined, complete⟩ := flushed
    obtain ⟨sameOutbound, sameTurn, sameInbound⟩ := kept
    dsimp only at joined complete sameOutbound sameTurn sameInbound
    rw [← sameTurn, ← sameInbound] at turn
    rw [same]
    have phase : Phase snow role stream (written ++ out) wire next :=
      .sending own (sameOutbound.trans outbound) joined turn
    cases result with
    | error => exact phase.once.fails _
    | ok done =>
      cases done with
      | false => exact phase.waits
      | true =>
        -- The whole message has left, so a server is done and a client begins to read.
        have whole := complete rfl
        dsimp only
        rcases turn with ⟨client, inbound, rfl⟩ | ⟨server, peer, found⟩
        · rw [if_neg (by simp [client])]
          have own : OwnMessage snow wire role (written ++ out) := whole ▸ own
          have received := @receive_advances κ η τ snow wire (written ++ out) wire role
            { next with outbound := [], outboundOffset := 0 } [] rfl rfl
            inbound rfl rfl (.inl ⟨client, own⟩) call same
          obtain ⟨once, waits, returns⟩ := received
          exact ⟨by rwa [← append_assoc], by rwa [← append_assoc],
            by rwa [← append_assoc]⟩
        · rw [if_pos server]
          refine Complete.finishing ⟨?_, peer, found⟩ _
          rwa [whole]

theorem beginHandshake_phase {instances : Table Nat (RoleKey κ)} {first : WrapCall}
    {start : PendingHandshake η} (known : instances.lookup first.instance_ = some role)
    (begun : beginHandshake snow instances first = .ok start) :
    Phase snow role stream [] stream start := by
  unfold beginHandshake at begun
  rw [known] at begun
  cases role with
  | server key =>
    dsimp only at begun
    cases built : snow.buildResponder key with
    | none => simp [built] at begun
    | some responder =>
      rw [built] at begun
      cases begun
      exact .receiving rfl rfl rfl rfl rfl (.inr ⟨rfl, rfl, key, responder, rfl, built, rfl⟩)
  | client key =>
    dsimp only at begun
    cases built : snow.buildInitiator key with
    | none => simp [built] at begun
    | some initiator =>
      simp only [built] at begun
      cases composed : snow.writeMessage initiator first.random with
      | none => simp [composed] at begun
      | some made =>
        obtain ⟨message, next⟩ := made
        simp only [composed] at begun
        cases framing : frame message maxHandshake with
        | error => simp [framing] at begun
        | ok =>
          rw [framing] at begun
          cases begun
          exact .sending (.client built composed framing) rfl rfl (.inl ⟨rfl, rfl, rfl⟩)

/-- What holds of a handshake along every run. -/
structure Line.Keeps (snow : Handshaking κ η τ) (role : RoleKey κ) (stream : Bytes)
    (history : List (Driving τ)) (line : Line η) : Prop where
  once : Once snow role stream (writtenBy history) line.wire
  phase : ∀ pending, line.pending = some pending →
    Phase snow role stream (writtenBy history) line.wire pending
  complete : ∀ transport, .returned transport ∈ history →
    line.pending = none ∧ Complete snow role stream (writtenBy history) line.wire

theorem Line.Keeps.drive {history : List (Driving τ)} {line : Line η}
    (keeps : line.Keeps snow role stream history) (call : WrapCall) :
    (line.drive snow call).1.Keeps snow role stream (history ++ (line.drive snow call).2) := by
  cases waiting : line.pending with
  | none =>
    -- A handshake that is over takes no more calls.
    simp only [Line.drive, waiting, append_nil]
    exact keeps
  | some pending =>
    obtain ⟨once, waits, returns⟩ := (keeps.phase pending waiting).drive
      { call with wire := line.wire } rfl
    -- While it waits, no transport was returned.
    have fresh (transport : τ) : .returned transport ∉ history := fun returned => by
      rw [(keeps.complete transport returned).1] at waiting
      cases waiting
    simp only [Line.drive, waiting]
    generalize pending.drive snow { call with wire := line.wire } = driven at once waits returns
    cases result : driven.result with
    | error =>
      refine ⟨by simpa [writtenBy] using once, by simp, fun transport member => ?_⟩
      simp [fresh] at member
    | ok transport =>
      cases transport with
      | none =>
        refine ⟨by simpa [writtenBy] using once, ?_, fun transport member => ?_⟩
        · rintro _ ⟨⟩
          simpa [writtenBy] using waits result
        · simp [fresh] at member
      | some transport =>
        refine ⟨by simpa [writtenBy] using once, by simp, fun _ _ => ⟨rfl, ?_⟩⟩
        simpa [writtenBy] using returns transport result

end Once

/--
However the lower stream divides it up over any number of calls, a handshake of either role writes
a part of one framed message, and reads the framed message of its peer with no byte behind it.
A transport is returned only when its own message was written as a whole and the other one was read.
-/
theorem handshake_once {instances : Table Nat (RoleKey κ)}
    {first : WrapCall} {role : RoleKey κ} (known : instances.lookup first.instance_ = some role)
    {start : PendingHandshake η} (begun : beginHandshake snow instances first = .ok start)
    {stream : Bytes} {history : List (Driving τ)} {line : Line η}
    (run : (driver snow).Run (· = ⟨some start, stream⟩) (fun _ _ _ => True) history line) :
    Once snow role stream (writtenBy history) line.wire ∧
      ∀ transport, .returned transport ∈ history →
        Complete snow role stream (writtenBy history) line.wire := by
  have keeps : line.Keeps snow role stream history := by
    refine @System.Run.invariant _ _ _ (driver snow) _ _
      (fun history line => line.Keeps snow role stream history) ?_ ?_ _ _ run
    · rintro _ rfl
      have phase := @beginHandshake_phase κ η τ snow stream role instances first start known begun
      refine ⟨phase.once, ?_, by simp⟩
      rintro _ ⟨⟩
      exact phase
    · intro history line call keeps _
      exact keeps.drive call
  exact ⟨keeps.once, fun transport returned => (keeps.complete transport returned).2⟩

/-- The handshake that a client begins. -/
def begunClient : PendingHandshake Nat where
  owner := 1
  lower := 1
  io := 1
  handshake := some 1
  outbound := [0, 1, 7]
  serverReply := false

/-- The message of the client leaves in two parts, and that of the server comes in three. -/
def piecemeal : List WrapCall :=
  [{ beginCall with writes := [.progress 1, .pending] },
    { beginCall with writes := [.progress 2], reads := [.progress 1, .pending] },
    { beginCall with reads := [.progress 1, .progress 1] }]

/-- A client is done after both messages, and what follows is still there to be read. -/
theorem handshake_once_piecemeal :
    let reached := (driver counting).execute ([], ⟨some begunClient, [0, 1, 9, 42]⟩) piecemeal
    reached.1 = [.wrote [0], .wrote [1, 7], .wrote [], .returned 2] ∧
      reached.2.wire = [42] ∧
      Complete counting (.client 0) [0, 1, 9, 42] (writtenBy reached.1) reached.2.wire := by
  have start : (driver counting).Run (· = ⟨some begunClient, [0, 1, 9, 42]⟩) (fun _ _ _ => True) []
      ⟨some begunClient, [0, 1, 9, 42]⟩ := .start rfl
  have run := start.replay (show (driver counting).admits _ _ piecemeal = true by decide +kernel)
  have once := @handshake_once _ _ _ counting freshThread.instances beginCall (.client 0)
    (by decide +kernel) begunClient rfl _ _ _ run
  exact ⟨by decide +kernel, by decide +kernel, once.2 2 (by decide +kernel)⟩

end Snolc.Noise
