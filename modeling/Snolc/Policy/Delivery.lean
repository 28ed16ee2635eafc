import Snolc.Lib.Trace
import Snolc.Policy.Relay
import Snolc.Policy.Segments

/-! What comes out of a sniffed stream: the bytes that went in, in order, once they are allowed. -/

namespace Snolc.Policy

open List PolicyFlow TcpSniff Relay

variable {observed : Observed} {held : Bytes} {actions : List Copying} {flag : Bool} {relay : Relay}

/-- The same relay with other first bytes held back. -/
def Relay.holding (relay : Relay) (sniff : TcpSniff) : Relay :=
  { relay with flow := { relay.flow with sniff := some sniff } }

/-- The bytes of a relay that were read from the multiplexer and not yet written to the stack. -/
def Relay.undelivered (relay : Relay) : Bytes :=
  match relay.flow.sniff with
  | some sniff => sniff.prefixBytes.drop relay.flow.prefixOffset
  | none => relay.download

/-- A queue between two sides: what is read comes in, what is written leaves from the front. -/
def Passes (source sink : Side) (held : Bytes) : FlowEvent → Bytes → Prop
  | .read side data, next => next = if side = source then held ++ data else held
  | .written side data, next => if side = sink then held = data ++ next else next = held
  | .decided _ _, next => next = held

section Queues

variable {source sink : Side} {first last : Bytes} {events : List FlowEvent}

theorem Passes.conserved (follows : Follows (Passes source sink) first events last) :
    first ++ bytesRead source events = bytesWritten sink events ++ last := by
  induction follows with
  | nil => simp [bytesRead, bytesWritten]
  | @cons first second last event events one rest ih =>
    cases event with
    | read side =>
      simp only [Passes] at one
      subst one
      by_cases same : side = source <;> simpa [bytesRead, bytesWritten, same] using ih
    | written side =>
      by_cases same : side = sink
      all_goals
        simp only [Passes, same, if_true, if_false] at one
        subst one
        simpa [bytesRead, bytesWritten, same] using ih
    | decided =>
      have same : second = first := one
      subst same
      simpa [bytesRead, bytesWritten] using ih

theorem copy_passes {allowed : Nat} :
    Follows (Passes source sink) held (copy source sink held allowed actions).events
      (copy source sink held allowed actions).held := by
  induction actions generalizing held allowed with
  | nil => exact .nil held
  | cons action actions ih =>
    cases action with
    | take => exact .cons (by simp [Passes]) ih
    | give =>
      refine .cons ?_ ih
      simp only [Passes, if_true]
      exact (prefix_iff_eq_append.mp ( take_prefix _ _)).symm

end Queues

/-- The rules have allowed the stream, or not yet. -/
inductive Gate
  | closed
  | opened
  deriving DecidableEq, Repr

/-- Before the rules allow the stream, bytes are only read from the multiplexer. -/
def Gate.Admits : Gate → FlowEvent → Gate → Prop
  | closed, .read .mux _, next => next = closed
  | closed, .decided _ allowed, next => next = if allowed then opened else closed
  | opened, .read _ _, next => next = opened
  | opened, .written _ _, next => next = opened
  | _, _, _ => False

/-- Whether the rules have allowed the stream. -/
def Relay.gate (relay : Relay) : Gate :=
  match relay.flow.sniff with
  | some sniff => if sniff.allowed then .opened else .closed
  | none => .opened

variable (sniff : TcpSniff)

/-- A full prefix, a passed deadline or the end of the stream lets no more bytes be waited for. -/
def TcpSniff.Ripe (clock : Nat) (ended : Prop) : Prop :=
  sniff.policy.maxBytes ≤ sniff.prefixBytes.length ∨ sniff.deadline ≤ clock ∨ ended

/-- The first bytes with more of them read. -/
def TcpSniff.extend (chunks : List Bytes) : TcpSniff :=
  { sniff with prefixBytes := sniff.prefixBytes ++ chunks.flatten }

@[simp] theorem TcpSniff.extend_nil : sniff.extend [] = sniff := by
  simp [extend]

theorem TcpSniff.extend_cons (chunk : Bytes) (chunks : List Bytes) :
    sniff.extend (chunk :: chunks) =
      { sniff with prefixBytes := sniff.prefixBytes ++ chunk }.extend chunks := by
  simp [extend]

/--
What becomes of the first bytes in one poll.
Chunks are read behind them, and then they wait on, or the rules decide what they show.
-/
theorem collect_chunks (lastInstant : Nat) (reads : List (Nat × ReadOutcome)) :
    ∃ chunks : List Bytes,
      (∃ gate, sniff.collect lastInstant reads = (sniff.extend chunks, gate) ∧
        gate ≠ .ready (.ok ()) ∧
        sniff.collectEvents lastInstant reads = chunks.map (.read .mux)) ∨
      ∃ observed flag, classifyTcp (sniff.extend chunks).prefixBytes flag = .complete observed ∧
        (flag = true → (∀ read ∈ reads, read.1 ≤ lastInstant) →
          (sniff.extend chunks).Ripe lastInstant ([] ∈ chunks)) ∧
        sniff.collect lastInstant reads = (sniff.extend chunks).decide observed ∧
        sniff.collectEvents lastInstant reads =
          chunks.map (.read .mux) ++ [sniff.decision observed] := by
  -- The induction is on the reads; one that delivers bytes moves the state the rest starts from.
  induction reads generalizing sniff with
  | nil =>
    refine ⟨[], ?_⟩
    simp only [collect, collectEvents, extend_nil, map_nil,
      nil_append]
    cases shown : sniff.classify lastInstant with
    | complete observed =>
      refine .inr ⟨observed, _, shown, ?_, rfl, rfl⟩
      intro ripe _
      simp only [ge_iff_le, Bool.or_eq_true, decide_eq_true_eq] at ripe
      exact ripe.imp_right .inl
    | needMore => exact .inl ⟨_, rfl, by simp, rfl⟩
  | cons read reads ih =>
    obtain ⟨instant, read⟩ := read
    simp only [collect, collectEvents]
    cases shown : sniff.classify instant with
    | complete observed =>
      refine ⟨[], .inr ⟨observed, _, by rw [extend_nil]; exact shown, ?_, ?_, rfl⟩⟩
      · intro ripe steady
        have passed : instant ≤ lastInstant := steady (instant, read) mem_cons_self
        rw [extend_nil]
        simp only [ge_iff_le, Bool.or_eq_true, decide_eq_true_eq] at ripe
        exact ripe.imp_right fun late => .inl (late.trans passed)
      · rw [extend_nil]
    | needMore =>
      dsimp only
      split
      · obtain ⟨chunks, waiting | ⟨observed, flag, decided, ripe, same⟩⟩ := ih sniff
        · exact ⟨chunks, .inl waiting⟩
        · exact ⟨chunks, .inr ⟨observed, flag, decided, fun late steady => ripe late
            fun other among => steady other (mem_cons_of_mem _ among), same⟩⟩
      cases read with
      | failed | pending => exact ⟨[], .inl ⟨_, by rw [extend_nil], by simp, rfl⟩⟩
      | bytes data =>
        dsimp only
        generalize data.take (min (sniff.policy.maxBytes - sniff.prefixBytes.length) 1024) =
          received
        cases received with
        | nil =>
          -- The stream has ended, so what is there is classified as it is.
          cases final : classifyTcp sniff.prefixBytes true with
          | complete observed =>
            refine ⟨[[]], .inr ⟨observed, true, ?_, fun _ _ => ?_, ?_, rfl⟩⟩
            · simpa [extend] using final
            · exact .inr (.inr mem_cons_self)
            · simp [extend]
          | needMore => exact absurd final (classifyTcp_complete _)
        | cons byte received =>
          obtain ⟨chunks, rest⟩ :=
            ih { sniff with prefixBytes := sniff.prefixBytes ++ byte :: received }
          refine ⟨(byte :: received) :: chunks, ?_⟩
          dsimp only
          rw [extend_cons]
          rcases rest with ⟨gate, same, open_, events⟩ |
            ⟨observed, flag, decided, ripe, same, events⟩
          · exact .inl ⟨gate, same, open_, by rw [events, map_cons]⟩
          · refine .inr ⟨observed, flag, decided, fun late steady => ?_, same, ?_⟩
            · have early := ripe late fun other among =>
                steady other (mem_cons_of_mem _ among)
              exact early.imp_right (Or.imp_right (mem_cons_of_mem _))
            · rw [events, map_cons, cons_append]
              rfl

variable (policy : SniffPolicy)

/-- Every decision is about what the bytes read before it show. -/
def Grounded (history : List FlowEvent) : Prop :=
  ∀ early observed allowed late, history = early ++ .decided observed allowed :: late →
    allowed = observedAllowed policy observed ∧
      ∃ flag, classifyTcp (bytesRead .mux early) flag = .complete observed

/--
What holds between the history of a relay and its state.

The bytes on the way are those of a queue, and the rules have allowed the stream or nothing but
reads from the multiplexer has happened.
-/
structure Relay.Tied (policy : SniffPolicy) (history : List FlowEvent) (relay : Relay) :
    Prop where
  queue : Follows (Passes .mux .stack) [] history relay.undelivered
  gate : Follows Gate.Admits .closed history relay.gate
  grounded : Grounded policy history
  waiting : ∀ sniff, relay.flow.sniff = some sniff → sniff.policy = policy ∧
    relay.download = [] ∧ relay.flow.prefixOffset ≤ sniff.prefixBytes.length ∧
    (sniff.allowed = false → relay.flow.prefixOffset = 0 ∧
      sniff.prefixBytes = bytesRead .mux history)

section Histories

variable {policy : SniffPolicy} {history events : List FlowEvent}

theorem bytesRead_append (side : Side) (history events : List FlowEvent) :
    bytesRead side (history ++ events) = bytesRead side history ++ bytesRead side events := by
  simp [bytesRead]

theorem bytesRead_chunks (chunks : List Bytes) :
    bytesRead .mux (chunks.map (.read .mux)) = chunks.flatten := by
  induction chunks with
  | nil => rfl
  | cons chunk chunks ih => simpa [bytesRead] using ih

theorem Grounded.move (grounded : Grounded policy history)
    (moves : ∀ observed allowed, .decided observed allowed ∉ events) :
    Grounded policy (history ++ events) := by
  intro early observed allowed late split
  rcases append_eq_append_cons split with ⟨rest, before, _⟩ | ⟨rest, _, here⟩
  · exact grounded early observed allowed rest before
  · exact absurd (here ▸ mem_append_right rest mem_cons_self) (moves observed allowed)

theorem Grounded.decide (grounded : Grounded policy history)
    (shown : classifyTcp (bytesRead .mux history) flag = .complete observed) :
    Grounded policy (history ++ [.decided observed (observedAllowed policy observed)]) := by
  intro early other allowed late split
  rcases snoc_eq_append_cons split with ⟨_, here, rfl⟩ | ⟨rest, _, before⟩
  · cases here
    exact ⟨rfl, flag, shown⟩
  · exact grounded early other allowed rest before

end Histories

section Steps

variable {policy : SniffPolicy} {history : List FlowEvent} {relay : Relay} {sniff : TcpSniff}

section

variable (tied : relay.Tied policy history)
include tied

variable (waits : relay.flow.sniff = some sniff)
include waits

theorem Relay.Tied.readChunks (undecided : sniff.allowed = false)
    (chunks : List Bytes) : Relay.Tied policy (history ++ chunks.map (.read .mux))
      (relay.holding (sniff.extend chunks)) := by
  obtain ⟨same, empty, inside, fresh⟩ := tied.waiting sniff waits
  obtain ⟨start, held⟩ := fresh undecided
  refine ⟨tied.queue.append ?_, tied.gate.append ?_, tied.grounded.move (by simp), ?_⟩
  · -- Nothing has been forwarded, so all that is held back is on its way.
    have before : relay.undelivered = sniff.prefixBytes := by
      simp [undelivered, waits, start]
    rw [before]
    simp only [undelivered, holding, start, drop_zero, extend]
    generalize sniff.prefixBytes = bytes
    induction chunks generalizing bytes with
    | nil => simpa using Follows.nil bytes
    | cons chunk chunks ih =>
      rw [map_cons, flatten_cons, ← append_assoc]
      exact .cons (by simp [Passes]) (ih _)
  · have closed : relay.gate = .closed := by simp [Relay.gate, waits, undecided]
    have still : (relay.holding (sniff.extend chunks)).gate = .closed := by
      simp [Relay.gate, Relay.holding, TcpSniff.extend, undecided]
    rw [closed, still]
    apply Follows.stay
    intro event among
    obtain ⟨chunk, _, rfl⟩ := mem_map.mp among
    rfl
  · intro other here
    cases here
    refine ⟨same, empty, ?_, fun _ => ⟨start, ?_⟩⟩
    · simp only [holding, extend, length_append]
      omega
    · rw [bytesRead_append, bytesRead_chunks, ← held]
      rfl

theorem Relay.Tied.decide (undecided : sniff.allowed = false)
    (shown : classifyTcp sniff.prefixBytes flag = .complete observed) :
    Relay.Tied policy (history ++ [sniff.decision observed])
      (relay.holding (sniff.decide observed).1) := by
  obtain ⟨same, empty, inside, fresh⟩ := tied.waiting sniff waits
  obtain ⟨start, held⟩ := fresh undecided
  have bytes : (sniff.decide observed).1.prefixBytes = sniff.prefixBytes := by
    unfold TcpSniff.decide
    split <;> rfl
  have rules : (sniff.decide observed).1.policy = sniff.policy := by
    unfold TcpSniff.decide
    split <;> rfl
  refine ⟨tied.queue.append (.single ?_), tied.gate.append (.single ?_), ?_, ?_⟩
  · show Relay.undelivered _ = _
    simp only [Relay.undelivered, Relay.holding, waits, bytes]
  · have closed : relay.gate = .closed := by simp [Relay.gate, waits, undecided]
    rw [closed]
    simp only [TcpSniff.decision, Gate.Admits, Relay.gate, Relay.holding, TcpSniff.decide]
    by_cases allowed : observedAllowed sniff.policy observed = true
    · simp [allowed]
    · simp [allowed, undecided]
  · rw [TcpSniff.decision, same]
    rw [held] at shown
    exact tied.grounded.decide shown
  · intro other here
    cases here
    refine ⟨rules.trans same, empty, bytes ▸ inside, fun _ => ⟨start, ?_⟩⟩
    rw [bytesRead_append, bytes, held]
    simp [bytesRead, decision]

/-- Held back bytes are forwarded from where the last write has stopped. -/
theorem Relay.Tied.writePrefix (allowed : sniff.allowed = true)
    (write : WriteOutcome) (maxWrite : Nat) :
    Relay.Tied policy (history ++ relay.flow.prefixEvents sniff write maxWrite)
      { relay with flow := (relay.flow.writePrefix sniff write maxWrite).1 } := by
  obtain ⟨same, empty, inside, _⟩ := tied.waiting sniff waits
  have before : relay.undelivered = sniff.prefixBytes.drop relay.flow.prefixOffset := by
    rw [Relay.undelivered, waits]
  have opened : relay.gate = .opened := by simp [Relay.gate, waits, allowed]
  -- Where nothing is written, the relay stays tied to its history.
  have still : Relay.Tied policy (history ++ []) { relay with flow := relay.flow } := by
    rw [append_nil]
    exact tied
  unfold PolicyFlow.prefixEvents PolicyFlow.writePrefix
  by_cases left : relay.flow.prefixOffset < sniff.prefixBytes.length
  case neg =>
    rw [if_neg left, if_neg (fun room => left room.1), append_nil]
    refine ⟨?_, (opened ▸ tied.gate : Follows _ _ _ Gate.opened), tied.grounded, by simp⟩
    have nothing : sniff.prefixBytes.drop relay.flow.prefixOffset = [] :=
      drop_eq_nil_of_le (by omega)
    have queue := tied.queue
    rw [before, nothing] at queue
    rw [undelivered, empty]
    exact queue
  rw [if_pos left]
  by_cases none : maxWrite = 0
  · rw [if_pos none, if_neg (fun room => room.2 none)]
    exact still
  rw [if_neg none, if_pos ⟨left, none⟩]
  cases write with
  | failed | pending => exact still
  | taken count =>
    dsimp only
    rw [drop_take, take_take]
    generalize written : min count (min sniff.prefixBytes.length
      (relay.flow.prefixOffset + maxWrite) - relay.flow.prefixOffset) = size
    have decides : ∀ observed allowed, FlowEvent.decided observed allowed ∉
        [.written .stack ((sniff.prefixBytes.drop relay.flow.prefixOffset).take size)] := by
      simp
    -- What is written is the front of what is on its way.
    have passes : Passes .mux .stack relay.undelivered
        (.written .stack ((sniff.prefixBytes.drop relay.flow.prefixOffset).take size))
        (sniff.prefixBytes.drop (relay.flow.prefixOffset + size)) := by
      simp only [Passes, if_true]
      rw [before, ← drop_drop, take_append_drop]
    have admits : ∀ next, next = Gate.opened → Gate.Admits relay.gate
        (.written .stack ((sniff.prefixBytes.drop relay.flow.prefixOffset).take size))
        next := by
      intro next same
      rw [opened]
      exact same
    split
    · next zero =>
      subst zero
      refine ⟨tied.queue.append (.single ?_), tied.gate.append (.single (admits _ opened)),
        tied.grounded.move decides, ?_⟩
      · rw [Nat.add_zero, ← before] at passes
        exact passes
      · intro other here
        cases waits.symm.trans here
        exact ⟨same, empty, inside, by simp [allowed]⟩
    split
    · next finished =>
      -- The last held back bytes are gone, and the pump has none yet.
      refine ⟨tied.queue.append (.single ?_), tied.gate.append (.single (admits _ rfl)),
        tied.grounded.move decides, by simp⟩
      rw [finished, drop_length, ← empty] at passes
      exact passes
    refine ⟨tied.queue.append (.single ?_), tied.gate.append (.single (admits _ ?_)),
      tied.grounded.move decides, ?_⟩
    · convert passes using 1
      simp [Relay.undelivered, waits]
    · simp [Relay.gate, waits, allowed]
    · intro other here
      cases waits.symm.trans here
      refine ⟨same, empty, ?_, by simp [allowed]⟩
      show relay.flow.prefixOffset + size ≤ sniff.prefixBytes.length
      omega

end

theorem Follows.pumping {source sink : Side} {allowed : Nat} :
    Follows Gate.Admits .opened (copy source sink held allowed actions).events .opened := by
  apply Follows.stay
  intro event among
  rcases copy_events among with ⟨data, rfl⟩ | ⟨data, rfl⟩ <;> rfl

theorem pump_decides_nothing {source sink : Side} {allowed : Nat} (observed : Observed)
    (verdict : Bool) :
    .decided observed verdict ∉ (copy source sink held allowed actions).events := by
  intro among
  rcases copy_events among with ⟨data, wrong⟩ | ⟨data, wrong⟩ <;> cases wrong

variable (tied : relay.Tied policy history)
include tied

theorem Relay.Tied.upload (plain : relay.flow.sniff = none)
    (allowed : Nat) (actions : List Copying) :
    Relay.Tied policy (history ++ (copy .stack .mux relay.upload allowed actions).events)
      { relay with upload := (copy .stack .mux relay.upload allowed actions).held } := by
  refine ⟨tied.queue.append (.stay ?_), tied.gate.append ?_,
    tied.grounded.move pump_decides_nothing, by simp [plain]⟩
  · intro event among
    rcases copy_events among with ⟨data, rfl⟩ | ⟨data, rfl⟩ <;> rfl
  · have opened : relay.gate = .opened := by simp [Relay.gate, plain]
    show Follows _ relay.gate _ relay.gate
    rw [opened]
    exact Follows.pumping

theorem Relay.Tied.download (plain : relay.flow.sniff = none)
    (allowed : Nat) (actions : List Copying) :
    Relay.Tied policy (history ++ (copy .mux .stack relay.download allowed actions).events)
      { relay with download := (copy .mux .stack relay.download allowed actions).held } := by
  refine ⟨tied.queue.append ?_, tied.gate.append ?_,
    tied.grounded.move pump_decides_nothing, by simp [plain]⟩
  · have before : relay.undelivered = relay.download := by rw [undelivered, plain]
    rw [before, undelivered, plain]
    exact copy_passes
  · have opened : relay.gate = .opened := by simp [Relay.gate, plain]
    show Follows _ relay.gate _ relay.gate
    rw [opened]
    exact Follows.pumping

/-- Dealing with the first bytes keeps a relay tied to its history. -/
theorem Relay.Tied.sniffed (input : RelayInput) :
    Relay.Tied policy (history ++ relay.sniffEvents input)
      { relay with flow := (relay.sniffed input).1 } := by
  unfold Relay.sniffEvents Relay.sniffed PolicyFlow.sniffEvents PolicyFlow.pollSniff
  cases waits : relay.flow.sniff with
  | none =>
    rw [append_nil]
    exact tied
  | some sniff =>
    dsimp only [sniffing]
    by_cases allowed : sniff.allowed = true
    · rw [if_pos allowed, if_pos allowed]
      have same : { relay.flow with sniff := some sniff } = relay.flow := by rw [← waits]
      rw [same]
      exact tied.writePrefix waits allowed _ _
    have undecided : sniff.allowed = false := by simpa using allowed
    rw [if_neg allowed, if_neg allowed]
    obtain ⟨chunks, ⟨gate, held, shut, events⟩ | ⟨observed, flag, shown, _, held, events⟩⟩ :=
      collect_chunks sniff input.lastInstant input.reads
    · -- The first bytes wait on.
      rw [held, events]
      have next := tied.readChunks waits undecided chunks
      match gate, shut with
      | .pending, _ | .ready (.error fault), _ =>
        rw [append_nil]
        exact next
      | .ready (.ok ()), shut => exact absurd rfl shut
    have next := (tied.readChunks waits undecided chunks).decide rfl undecided shown
    rw [held, events, append_assoc]
    rw [List.append_assoc] at next
    unfold TcpSniff.decide at next ⊢
    by_cases passes : observedAllowed (sniff.extend chunks).policy observed = true
    · rw [if_pos passes] at next ⊢
      have last := next.writePrefix rfl rfl input.prefixWrite
        (min input.maxMuxToStack input.maxTotal)
      rw [append_assoc, append_assoc] at last
      exact last
    · rw [if_neg passes] at next ⊢
      rw [append_nil]
      exact next

theorem Relay.Tied.timed (clock : Nat) : Relay.Tied policy history { relay with clock } :=
  ⟨tied.queue, tied.gate, tied.grounded, tied.waiting⟩

theorem Relay.Tied.step (input : RelayInput) :
    Relay.Tied policy (history ++ (relay.step input).2) (relay.step input).1 := by
  have first := tied.sniffed input
  unfold Relay.step
  rcases sniffed : relay.sniffed input with ⟨flow, (fault | held) | _⟩ <;> rw [sniffed] at first
  · exact first.timed _
  · dsimp only at first ⊢
    by_cases waits : flow.sniff.isSome = true
    · rw [if_pos waits]
      exact first.timed _
    have plain : flow.sniff = none := by simpa using waits
    rw [if_neg waits]
    have second := first.upload plain (min input.maxStackToMux input.maxTotal)
      input.upload.actions
    rw [append_assoc] at second
    -- A failed upload ends the poll, otherwise the download pump has its turn.
    split
    · exact second.timed _
    have third := second.download plain
      (min input.maxMuxToStack (input.maxTotal - relay.uploadReport input - held.written))
      input.download.actions
    rw [append_assoc] at third
    exact third.timed _
  · exact first.timed _

end Steps

/-- A flow whose rules wait for the first bytes, before its first poll. -/
def Relay.Fresh (relay : Relay) : Prop :=
  (∃ deadline, relay.flow.sniff = some ⟨policy, [], deadline, false⟩) ∧
    relay.flow.prefixOffset = 0 ∧ relay.upload = [] ∧ relay.download = []

variable {history : List FlowEvent}

theorem relay_tied {policy : SniffPolicy} {guard : List FlowEvent → Relay → RelayInput → Prop}
    (run : relaying.Run (Relay.Fresh policy) guard history relay) :
    relay.Tied policy history := by
  refine run.invariant ?_ ?_
  · rintro relay ⟨⟨deadline, waits⟩, start, _, empty⟩
    refine ⟨?_, ?_, ?_, ?_⟩
    · simpa [undelivered, waits] using Follows.nil []
    · simpa [gate, waits] using Follows.nil Gate.closed
    · intro early observed allowed late split
      simp at split
    · intro sniff here
      rw [waits] at here
      cases here
      exact ⟨rfl, empty, by simp [start], fun _ => ⟨start, rfl⟩⟩
  · intro history relay input tied _
    exact tied.step input

section Gates

variable {history : List FlowEvent} {gate : Gate}

theorem Gate.Admits.allowed (follows : Follows Gate.Admits .closed history gate)
    (moved : (∃ side data, .written side data ∈ history) ∨ ∃ data, .read .stack data ∈ history) :
    ∃ observed, .decided observed true ∈ history := by
  induction history with
  | nil => simp at moved
  | cons event history ih =>
    cases follows with
    | @cons _ second _ _ _ one rest =>
      -- Either this event is the decision, or the gate is still closed behind it.
      have later : second = .closed →
          ((∃ side data, .written side data ∈ history) ∨ ∃ data, .read .stack data ∈ history) →
          ∃ observed, .decided observed true ∈ event :: history := by
        rintro rfl moved
        obtain ⟨observed, among⟩ := ih rest moved
        exact ⟨observed, mem_cons_of_mem event among⟩
      cases event with
      | read side =>
        cases side with
        | stack => exact one.elim
        | mux => exact later one (by simpa using moved)
      | written => exact one.elim
      | decided observed allowed =>
        cases allowed with
        | true => exact ⟨observed, mem_cons_self⟩
        | false => exact later one (by simpa using moved)

theorem Gate.Admits.opened (follows : Follows Gate.Admits .opened history gate) :
    gate = .opened := by
  induction history with
  | nil =>
    cases follows
    rfl
  | cons event history ih =>
    cases follows with
    | cons one rest =>
      cases event with
      | read | written => exact ih (one ▸ rest)
      | decided => exact one.elim

theorem Gate.Admits.closed (follows : Follows Gate.Admits .closed history .closed) (side : Side)
    (data : Bytes) : .written side data ∉ history := by
  intro among
  obtain ⟨before, after, rfl⟩ := append_of_mem among
  obtain ⟨middle, _, rest⟩ := Follows.append_iff.mp follows
  cases rest with
  | cons one rest =>
    cases middle with
    | closed => exact one
    | opened =>
      subst one
      cases Gate.Admits.opened rest

end Gates

/-- The clock goes on, and a stream that has ended hands out no more bytes. -/
structure Steady (history : List FlowEvent) (relay : Relay) (input : RelayInput) : Prop where
  reads : ∀ read ∈ input.reads, relay.clock ≤ read.1 ∧ read.1 ≤ input.lastInstant
  last : relay.clock ≤ input.lastInstant
  ended : .read .mux [] ∈ history → ∀ read ∈ input.reads, ∀ data, read.2 = .bytes data → data = []

/-- The rules refuse what the first bytes show, and no more bytes are waited for. -/
structure TcpSniff.Refused (sniff : TcpSniff) (clock : Nat) (ended : Prop) : Prop where
  undecided : sniff.allowed = false
  refused : ∃ observed, classifyTcp sniff.prefixBytes true = .complete observed ∧
    observedAllowed sniff.policy observed = false ∧
    (classifyTcp sniff.prefixBytes false = .complete observed ∨ sniff.Ripe clock ended)

variable {input : RelayInput}

section Refusals

variable {sniff : TcpSniff} {clock : Nat} {ended : Prop}

/-- Refused first bytes are refused again, by every later poll. -/
theorem TcpSniff.Refused.collect (refused : sniff.Refused clock ended) {lastInstant : Nat}
    {reads : List (Nat × ReadOutcome)} (later : clock ≤ lastInstant)
    (steady : ∀ read ∈ reads, clock ≤ read.1)
    (silent : ended → ∀ read ∈ reads, ∀ data, read.2 = .bytes data → data = []) :
    (sniff.collect lastInstant reads).1 = sniff ∧
      (sniff.collect lastInstant reads).2 ≠ .ready (.ok ()) := by
  obtain ⟨observed, shown, refuses, settled⟩ := refused.refused
  have denies : sniff.decide observed = (sniff, .ready (.error .denied)) := by
    simp [decide, refuses]
  -- At any time the bytes show what was refused, unless the end of the stream has shown it.
  have again : ∀ instant, clock ≤ instant →
      sniff.classify instant = .complete observed ∨
        sniff.classify instant = .needMore ∧ ended ∧
          ¬ sniff.policy.maxBytes ≤ sniff.prefixBytes.length := by
    intro instant after
    unfold classify
    by_cases ripe : (Decidable.decide (sniff.prefixBytes.length ≥ sniff.policy.maxBytes) ||
        Decidable.decide (instant ≥ sniff.deadline)) = true
    · rw [ripe]
      exact .inl shown
    rw [Bool.eq_false_iff.mpr ripe]
    simp only [ge_iff_le, Bool.or_eq_true, decide_eq_true_eq, not_or] at ripe
    cases early : classifyTcp sniff.prefixBytes false with
    | complete =>
      have same := classifyTcp_append early [] true
      rw [append_nil, shown] at same
      cases same
      exact .inl rfl
    | needMore =>
      rcases settled with wrong | full | late | ends
      · cases early.symm.trans wrong
      · exact absurd full ripe.1
      · exact absurd (late.trans after) ripe.2
      · exact .inr ⟨rfl, ends, ripe.1⟩
  cases reads with
  | nil =>
    rcases again lastInstant later with complete | ⟨waits, _, _⟩
    · simp [TcpSniff.collect, complete, denies]
    · simp [TcpSniff.collect, waits]
  | cons read =>
    obtain ⟨instant, read⟩ := read
    rcases again instant (steady (instant, read) mem_cons_self) with
      complete | ⟨waits, ends, room⟩
    · simp [TcpSniff.collect, complete, denies]
    · have left : ¬ sniff.policy.maxBytes - sniff.prefixBytes.length = 0 := by omega
      cases read with
      | bytes data =>
        obtain rfl := silent ends (instant, .bytes data) List.mem_cons_self data rfl
        simp [TcpSniff.collect, waits, left, shown, denies]
      | failed | pending => simp [TcpSniff.collect, waits, left]

theorem TcpSniff.Refused.of_decide (undecided : sniff.allowed = false)
    (shown : classifyTcp sniff.prefixBytes flag = .complete observed)
    (ripe : flag = true → sniff.Ripe clock ended)
    (refuses : observedAllowed sniff.policy observed = false) : sniff.Refused clock ended := by
  refine ⟨undecided, observed, ?_⟩
  cases flag with
  | true => exact ⟨shown, refuses, .inr (ripe rfl)⟩
  | false =>
    have later := classifyTcp_append shown [] true
    rw [append_nil] at later
    exact ⟨later, refuses, .inl shown⟩

theorem TcpSniff.Refused.weaken {other : Nat} {finished : Prop}
    (refused : sniff.Refused clock ended) (later : clock ≤ other) (still : ended → finished) :
    sniff.Refused other finished := by
  obtain ⟨undecided, observed, shown, refuses, settled⟩ := refused
  refine ⟨undecided, observed, shown, refuses, settled.imp_right ?_⟩
  rintro (full | late | ends)
  · exact .inl full
  · exact .inr (.inl (late.trans later))
  · exact .inr (.inr (still ends))

/-- The rules have decided against the stream of a relay. -/
def Relay.Denied (history : List FlowEvent) (relay : Relay) : Prop :=
  ∃ sniff, relay.flow.sniff = some sniff ∧ sniff.Refused relay.clock (.read .mux [] ∈ history)

theorem Relay.Denied.step {relay : Relay}
    (denied : relay.Denied history) (steady : Steady history relay input) :
    Relay.Denied (history ++ (relay.step input).2) (relay.step input).1 := by
  obtain ⟨sniff, waits, refused⟩ := denied
  obtain ⟨same, shut⟩ := refused.collect steady.last (fun read among =>
    (steady.reads read among).1) steady.ended
  have flow : ∃ result, relay.sniffed input = (relay.flow, result) ∧
      ∀ held, result ≠ .ready (.ok held) := by
    have kept : { relay.flow with sniff := some sniff } = relay.flow := by rw [← waits]
    unfold sniffed pollSniff
    rw [waits]
    dsimp only [sniffing]
    rw [if_neg (by simp [refused.undecided]), same, kept]
    match gate : (sniff.collect input.lastInstant input.reads).2, shut with
    | .pending, _ => exact ⟨_, rfl, by simp⟩
    | .ready (.error fault), _ => exact ⟨_, rfl, by simp⟩
    | .ready (.ok ()), shut => exact absurd rfl shut
  obtain ⟨result, sniffed, noReport⟩ := flow
  have stays : ∀ events, Relay.Denied (history ++ events)
      ⟨relay.flow, relay.upload, relay.download, input.lastInstant⟩ := fun events =>
    ⟨sniff, waits, refused.weaken steady.last (List.mem_append_left events)⟩
  unfold Relay.step
  rw [sniffed]
  match result, noReport with
  | .pending, _ => exact stays _
  | .ready (.error fault), _ => exact stays _
  | .ready (.ok held), noReport => exact absurd rfl (noReport held)

end Refusals

theorem Relay.step_decided {allowed : Bool}
    (decided : .decided observed allowed ∈ (relay.step input).2) :
    .decided observed allowed ∈ relay.sniffEvents input := by
  unfold step at decided
  rcases sniffed : relay.sniffed input with ⟨flow, (fault | held) | _⟩ <;> rw [sniffed] at decided
  · exact decided
  · dsimp only at decided
    split at decided
    · exact decided
    split at decided
    all_goals simpa only [uploaded, downloaded, mem_append, pump_decides_nothing,
      or_false] using decided
  · exact decided

theorem PolicyFlow.prefixEvents_written {flow : PolicyFlow} {sniff : TcpSniff}
    {write : WriteOutcome} {maxWrite : Nat} {event : FlowEvent}
    (among : event ∈ flow.prefixEvents sniff write maxWrite) :
    ∃ data, event = .written .stack data := by
  unfold prefixEvents at among
  split at among
  · split at among
    · exact ⟨_, mem_singleton.mp among⟩
    · simp at among
  · simp at among

/-- A poll that decides against the stream leaves it denied. -/
theorem Relay.step_denies (steady : Steady history relay input)
    (denies : .decided observed false ∈ (relay.step input).2) :
    Relay.Denied (history ++ (relay.step input).2) (relay.step input).1 := by
  have early := Relay.step_decided denies
  unfold Relay.sniffEvents PolicyFlow.sniffEvents at early
  split at early
  · simp at early
  next sniff waits =>
  split at early
  · obtain ⟨data, wrong⟩ := prefixEvents_written early
    cases wrong
  next undecided =>
  have undecided : sniff.allowed = false := by simpa using undecided
  dsimp only [sniffing] at early
  obtain ⟨chunks, ⟨gate, held, shut, events⟩ | ⟨other, flag, shown, ripe, held, events⟩⟩ :=
    collect_chunks sniff input.lastInstant input.reads
  · -- Nothing was decided, and nothing forwarded.
    rw [events, held] at early
    match gate, shut with
    | .pending, _ | .ready (.error fault), _ => simp at early
    | .ready (.ok ()), shut => exact absurd rfl shut
  by_cases allowed : observedAllowed (sniff.extend chunks).policy other = true
  · -- The rules have allowed the stream, so there is no such decision.
    have same : observedAllowed sniff.policy other = true := allowed
    rw [events, held, TcpSniff.decide, if_pos allowed, TcpSniff.decision, same] at early
    rcases List.mem_append.mp early with reads | forwards
    · simp at reads
    · obtain ⟨data, wrong⟩ := prefixEvents_written forwards
      cases wrong
  have refuses : observedAllowed (sniff.extend chunks).policy other = false := by
    simpa using allowed
  have decides : (sniff.extend chunks).decide other =
      (sniff.extend chunks, .ready (.error .denied)) := by
    rw [TcpSniff.decide, if_neg allowed]
  have sniffed : relay.sniffed input =
      ((relay.holding (sniff.extend chunks)).flow, .ready (.error .denied)) := by
    unfold sniffed pollSniff
    rw [waits]
    dsimp only [sniffing]
    rw [if_neg (by simp [undecided]), held, decides]
    rfl
  have happens : (relay.step input).2 = chunks.map (.read .mux) ++ [sniff.decision other] := by
    rw [Relay.step, sniffed]
    unfold Relay.sniffEvents PolicyFlow.sniffEvents
    rw [waits]
    dsimp only [sniffing]
    rw [if_neg (by simp [undecided]), held, decides, events, append_nil]
  have next : (relay.step input).1 = { relay.holding (sniff.extend chunks) with
      clock := input.lastInstant } := by
    rw [step, sniffed]
    rfl
  rw [next, happens]
  refine ⟨sniff.extend chunks, rfl, ?_⟩
  have waiting : (sniff.extend chunks).allowed = false := undecided
  refine (TcpSniff.Refused.of_decide waiting shown
    (fun late => ripe late fun read among => (steady.reads read among).2) refuses).weaken le_rfl ?_
  intro ended
  exact mem_append_right _ (mem_append_left _ (mem_map_of_mem ended))

/--
Sniffed streams are forwarded faithfully, whatever the two streams and the pumps do.

At every moment the stack has been given a front part of what was read from the multiplexer, and no
byte has been written to either side, or read from the stack, without a decision of the rules for
what the bytes read up to then show. After a denial nothing is ever written.
-/
theorem sniffedStream_faithful :
    (∀ history relay, relaying.Run (Relay.Fresh policy) (fun _ _ _ => True) history relay →
      Grounded policy history ∧ ∀ early late, history = early ++ late →
        bytesWritten .stack early <+: bytesRead .mux early ∧
        ((∃ side data, .written side data ∈ early) ∨ (∃ data, .read .stack data ∈ early) →
          ∃ observed, .decided observed true ∈ early)) ∧
      ∀ history relay, relaying.Run (Relay.Fresh policy) Steady history relay →
        ∀ observed, .decided observed false ∈ history →
          ∀ side data, .written side data ∉ history := by
  constructor
  · intro history relay run
    have tied := relay_tied run
    refine ⟨tied.grounded, ?_⟩
    rintro early late rfl
    obtain ⟨held, queue, _⟩ := Follows.append_iff.mp tied.queue
    obtain ⟨gate, opens, _⟩ := Follows.append_iff.mp tied.gate
    exact ⟨⟨held, (Passes.conserved queue).symm⟩, Gate.Admits.allowed opens⟩
  · intro history relay run observed decided side data
    have denied : (∃ observed, .decided observed false ∈ history) → relay.Denied history := by
      refine @System.Run.invariant _ _ _ relaying _ _ (fun history relay =>
        (∃ observed, .decided observed false ∈ history) → relay.Denied history) ?_ ?_ _ _ run
      · rintro relay _ ⟨observed, among⟩
        simp at among
      · intro history relay input before steady among
        by_cases already : ∃ observed, FlowEvent.decided observed false ∈ history
        · exact (before already).step steady
        obtain ⟨observed, among⟩ := among
        rcases mem_append.mp among with early | now
        · exact absurd ⟨observed, early⟩ already
        · exact step_denies steady now
    obtain ⟨sniff, waits, refused⟩ := denied ⟨observed, decided⟩
    have closed : relay.gate = .closed := by simp [gate, waits, refused.undecided]
    have follows := (relay_tied run).gate
    rw [closed] at follows
    exact Gate.Admits.closed follows side data

/-- A relay before its first poll. -/
def freshRelay : Relay :=
  ⟨⟨1, none, none, some ⟨policy, [], 100, false⟩, 0⟩, [], [], 0⟩

/-- A poll that reads a version line, forwards it, and then lets both pumps move bytes. -/
def versionPoll : RelayInput where
  reads := [(1, .bytes versionLine)]
  lastInstant := 2
  prefixWrite := .taken 7
  upload := ⟨[.take [1, 2], .give 1], .moved false⟩
  download := ⟨[.take [3, 4], .give 1], .moved false⟩
  maxStackToMux := 50
  maxMuxToStack := 50
  maxTotal := 50

def denyObserved : SniffPolicy :=
  { allowUnknown with terminal := .deny }

/-- A version line is forwarded with what the pump reads behind it, or not at all. -/
theorem sniffedStream_faithful_version :
    (bytesWritten .stack ((freshRelay allowUnknown).step versionPoll).2 = versionLine ++ [3] ∧
        versionLine ++ [3] <+: bytesRead .mux ((freshRelay allowUnknown).step versionPoll).2) ∧
      .decided .ssh false ∈ ((freshRelay denyObserved).step versionPoll).2 ∧
        ∀ side data, .written side data ∉ ((freshRelay denyObserved).step versionPoll).2 := by
  have forwarded : bytesWritten .stack ((freshRelay allowUnknown).step versionPoll).2 =
      versionLine ++ [3] := by decide +kernel
  have denied : .decided .ssh false ∈ ((freshRelay denyObserved).step versionPoll).2 := by
    decide +kernel
  have fresh : ∀ policy, (freshRelay policy).Fresh policy :=
    fun policy => ⟨⟨100, rfl⟩, rfl, rfl, rfl⟩
  have steady : Steady [] (freshRelay denyObserved) versionPoll :=
    ⟨by decide, by decide, by simp⟩
  refine ⟨⟨forwarded, ?_⟩, denied, ?_⟩
  · have first := ((sniffedStream_faithful allowUnknown).1 _ _
      (@System.Run.step _ _ _ relaying _ _ [] _ versionPoll (.start (fresh allowUnknown))
        trivial)).2 _ [] (append_nil _).symm
    rw [← forwarded]
    exact first.1
  · exact (sniffedStream_faithful denyObserved).2 _ _
      (@System.Run.step _ _ _ relaying _ _ [] _ versionPoll (.start (fresh denyObserved))
        steady) .ssh denied

end Snolc.Policy
