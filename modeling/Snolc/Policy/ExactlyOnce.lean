import Snolc.Policy.Calls
import Snolc.Policy.Receipts

/-! Administrative requests are applied exactly once, whatever is retried, lost or restarted. -/

namespace Snolc.Policy

open List State StorageWorker World ControlRequest

variable {s t : State} {obs history : List Obs} {response bytes : Bytes} {write : PendingWrite}
  {event : Event} {clientId : String} {receipt : Receipt} {world : World} {seq : Nat}
  {result : Except Status Bytes} {phase : Phase}

variable {env : Env} {sequencer : AdminSequencer} {sha256 : Bytes → Bytes}

theorem AdminSequencer.check_replay {request : Bytes}
    (checked : sequencer.check sha256 clientId seq request = .ok (.replay response)) :
    ∃ receipt, sequencer.clients.lookup clientId = some receipt ∧ receipt.seq = seq ∧
      receipt.requestHash = sha256 request ∧ receipt.response = response := by
  unfold AdminSequencer.check at checked
  obtain ⟨_, _, checked⟩ := bind_ok checked
  cases known : sequencer.clients.lookup clientId with
  | none =>
    simp only [known] at checked
    repeat' split at checked
    all_goals simp at checked
  | some receipt =>
    simp only [known] at checked
    split at checked
    · next same =>
      simp only [Except.ok.injEq, AdminDecision.replay.injEq] at checked
      exact ⟨receipt, rfl, same.1.symm, same.2.symm, checked⟩
    · split at checked <;> simp at checked

theorem AdminSequencer.check_used {request : Bytes} {last : Receipt} (positive : 0 < seq)
    (known : sequencer.clients.lookup clientId = some last) (used : seq ≤ last.seq)
    (fits : last.seq ≤ u64Max) (other : seq = last.seq → sha256 request ≠ last.requestHash) :
    ∃ fault, sequencer.check sha256 clientId seq request = .error fault := by
  unfold AdminSequencer.check
  cases named : validateClientId clientId with
  | error fault => exact ⟨fault, rfl⟩
  | ok =>
    have fresh : ¬(seq = last.seq ∧ sha256 request = last.requestHash) :=
      fun same => other same.1 same.2
    have early : seq ≠ wrappingAdd last.seq 1 := by
      intro next
      have := wrappingAdd_one fits next positive
      omega
    simp [known, fresh, early, Bind.bind, Except.bind]

/-- A call left the sequencer and the store alone and queued no write. -/
def Untouched (s t : State) : Prop :=
  t.admin.sequencer = s.admin.sequencer ∧ t.storage.store = s.storage.store ∧
    (t.storage.commands = s.storage.commands ∨
      ∃ key, t.storage.commands = s.storage.commands ++ [.get key])

section Calls

variable {s : State} {input : ControlInput} {request : ControlRequest} {clientId : String}
  {seq : Nat}

section

variable (parsed : ControlRequest.parse env.decodeControl input.request = .ok request)
include parsed

theorem startControl_answers (sequenced : request.sequence = some (clientId, seq))
    (ok : (s.startControl env input).1 = .ok response) :
    ∃ receipt, s.admin.sequencer.clients.lookup clientId = some receipt ∧ receipt.seq = seq ∧
      receipt.requestHash = env.sha256 input.request ∧ receipt.response = response := by
  unfold startControl at ok
  split at ok
  · simp at ok
  rw [parsed] at ok
  have routed : (s.routeRequest env input request).1 = .ok response := by
    cases request <;> first | exact ok | simp [ControlRequest.sequence] at sequenced
  unfold routeRequest at routed
  split at routed
  · split at routed <;> simp at routed
  rw [sequenced] at routed
  dsimp only at routed
  unfold submitMutation at routed
  cases checked : s.admin.sequencer.check env.sha256 clientId seq input.request with
  | error => simp [checked] at routed
  | ok decision =>
    cases decision with
    | replay =>
      simp only [checked, Except.ok.injEq] at routed
      exact routed ▸ AdminSequencer.check_replay checked
    | execute =>
      simp only [checked] at routed
      repeat' split at routed
      all_goals simp at routed

theorem startControl_refuses {last : Receipt} (sequenced : request.sequence = some (clientId, seq))
    (known : s.admin.sequencer.clients.lookup clientId = some last) (used : seq ≤ last.seq)
    (fits : last.seq ≤ u64Max)
    (other : seq = last.seq → env.sha256 input.request ≠ last.requestHash) :
    (∃ status, (s.startControl env input).1 = .error status) ∧
      Untouched s (s.startControl env input).2 := by
  have same : Untouched s s := ⟨rfl, rfl, .inl rfl⟩
  unfold startControl
  split
  · exact ⟨⟨_, rfl⟩, same⟩
  rw [parsed]
  have refused : (∃ status, (s.routeRequest env input request).1 = .error status) ∧
      Untouched s (s.routeRequest env input request).2 := by
    unfold routeRequest
    split
    · next key kind _ =>
      cases sent : s.storage.get key with
      | error => exact ⟨⟨_, rfl⟩, same⟩
      | ok result =>
        obtain ⟨reply, storage⟩ := result
        obtain ⟨rfl, rfl⟩ := get_ok sent
        exact ⟨⟨_, rfl⟩, rfl, rfl, .inr ⟨key, rfl⟩⟩
    · rw [sequenced]
      dsimp only
      unfold submitMutation
      obtain ⟨fault, checked⟩ := AdminSequencer.check_used
        (parse_sequence_pos parsed sequenced) known used fits other
      rw [checked]
      exact ⟨⟨_, rfl⟩, same⟩
  cases request <;> first | exact refused | simp [ControlRequest.sequence] at sequenced

end

variable {history : List Obs}

theorem Sequences.known_durable (seqs : Sequences history s)
    (known : s.admin.sequencer.clients.lookup clientId = some receipt) :
    receipt ∈ receiptsOf clientId history := by
  obtain ⟨acknowledged, last, all⟩ := seqs.known clientId
  rw [all, mem_append]
  exact .inl (mem_of_getLast? (last ▸ known))

theorem Sequences.used_known (seqs : Sequences history s)
    (settled : s.unacknowledged clientId = []) (member : receipt ∈ receiptsOf clientId history) :
    ∃ last, s.admin.sequencer.clients.lookup clientId = some last ∧ receipt.seq ≤ last.seq ∧
      last.seq ≤ u64Max ∧ (receipt.seq = last.seq → receipt = last) := by
  obtain ⟨acknowledged, lookup, all⟩ := seqs.known clientId
  have numbered := seqs.stored.numbered clientId
  rw [settled, append_nil] at all
  rw [all] at numbered member
  have count := numbered.last_seq
  cases last : acknowledged.getLast? with
  | none => simp [List.getLast?_eq_none_iff.mp last] at member
  | some final =>
    rw [last] at count
    simp only [Option.map_some, Option.getD_some] at count
    refine ⟨final, lookup.trans last, count ▸ numbered.seq_le member, count ▸ numbered.2, ?_⟩
    exact numbered.unique member (mem_of_getLast? last)

theorem Tickets.repeated (tickets : Tickets env s)
    (pending : s.pendingControl = some (.write write)) (same : write.request = input.request)
    (parsed : ControlRequest.parse env.decodeControl input.request = .ok request)
    (sequenced : request.sequence = some (clientId, seq)) :
    write.clientId = clientId ∧ write.receipt.seq = seq ∧
      write.receipt.requestHash = env.sha256 input.request := by
  have ok := tickets.write pending
  obtain ⟨again, reparsed, resequenced, _⟩ := ok.parsed
  rw [same, parsed, Except.ok.injEq] at reparsed
  subst reparsed
  rw [sequenced, Option.some.injEq, Prod.mk.injEq] at resequenced
  exact ⟨resequenced.1.symm, resequenced.2.symm, same ▸ ok.hashed⟩

theorem Tickets.not_backup {destination : String} {reply : Nat} (tickets : Tickets env s)
    (pending : s.pendingControl = some (.backup bytes destination reply))
    (same : bytes = input.request)
    (parsed : ControlRequest.parse env.decodeControl input.request = .ok request)
    (sequenced : request.sequence = some (clientId, seq)) : False := by
  have control := tickets.control
  rw [pending] at control
  cases (same ▸ control.1).symm.trans parsed
  simp [ControlRequest.sequence] at sequenced

theorem Sequences.pending_durable (seqs : Sequences history s)
    (pending : s.pendingControl = some (.write write))
    (durable : s.storage.replies[write.reply]? = some .done) :
    write.receipt ∈ receiptsOf write.clientId history := by
  obtain ⟨acknowledged, _, all⟩ := seqs.known write.clientId
  rw [all, mem_append]
  right
  simp [unacknowledged, pendingWrite, pending, durable]

theorem finishAdminRead_sequencer (kind : ReadKind) (value : Option Value) (evict : String) :
    (s.finishAdminRead kind value evict).1.admin.sequencer = s.admin.sequencer ∧
      (s.finishAdminRead kind value evict).1.storage = s.storage := by
  cases kind with
  | user =>
    rw [finishAdminRead, finishUserRead_eq]
    exact ⟨rfl, rfl⟩
  | credential =>
    rw [finishAdminRead, finishCredentialRead_eq]
    exact ⟨rfl, rfl⟩

/-- A call answers a sequenced request with the response that was stored with it. -/
theorem controlInstance_answers (tickets : Tickets env s) (seqs : Sequences history s)
    (parsed : ControlRequest.parse env.decodeControl input.request = .ok request)
    (sequenced : request.sequence = some (clientId, seq))
    (ok : (s.controlInstance env input).1 = .ok response) :
    ∃ receipt ∈ receiptsOf clientId history, receipt.seq = seq ∧
      receipt.requestHash = env.sha256 input.request ∧ receipt.response = response := by
  unfold controlInstance at ok
  cases pending : s.pendingControl with
  | none =>
    simp only [pending] at ok
    obtain ⟨receipt, known, rest⟩ := startControl_answers parsed sequenced ok
    exact ⟨receipt, seqs.known_durable known, rest⟩
  | some operation =>
    simp only [pending] at ok
    split at ok
    · simp at ok
    next same =>
    have same := not_not.mp same
    cases operation with
    | write write =>
      obtain ⟨rfl, rfl, hashed⟩ := tickets.repeated pending same parsed sequenced
      simp only [finishWrite] at ok
      split at ok
      · next received =>
        split at ok
        · simp at ok
        simp only [Except.ok.injEq] at ok
        exact ⟨write.receipt,
          seqs.pending_durable pending (tryRecv_ok.mp received), rfl, hashed,
          (tickets.write pending).response.trans ok⟩
      · simp at ok
      · simp at ok
    | read bytes kind =>
      simp only [finishRead] at ok
      split at ok
      · next value received =>
        have kept := finishAdminRead_sequencer (s := { s with pendingControl := none }) kind value
          input.evict
        split at ok
        · simp at ok
        next t _ finished =>
        rw [finished] at kept
        obtain ⟨receipt, known, rest⟩ := startControl_answers parsed sequenced ok
        exact ⟨receipt, seqs.known_durable (kept.1 ▸ known), rest⟩
      · simp at ok
      · simp at ok
    | backup => exact (tickets.not_backup pending same parsed sequenced).elim

/-- A call refuses other bytes under a used number and leaves everything durable alone. -/
theorem controlInstance_refuses (tickets : Tickets env s) (seqs : Sequences history s)
    (parsed : ControlRequest.parse env.decodeControl input.request = .ok request)
    (sequenced : request.sequence = some (clientId, receipt.seq))
    (used : receipt ∈ receiptsOf clientId history)
    (other : env.sha256 input.request ≠ receipt.requestHash) :
    (∃ status, (s.controlInstance env input).1 = .error status) ∧
      Untouched s (s.controlInstance env input).2 := by
  have afresh {t : State} (sequencer : t.admin.sequencer = s.admin.sequencer)
      (storage : t.storage = s.storage) (settled : s.unacknowledged clientId = []) :
      (∃ status, (t.startControl env input).1 = .error status) ∧
        Untouched s (t.startControl env input).2 := by
    obtain ⟨last, known, least, fits, unique⟩ := seqs.used_known settled used
    have refused := startControl_refuses parsed sequenced (sequencer ▸ known) least fits
      fun same => unique same ▸ other
    rw [Untouched, sequencer, storage] at refused
    exact refused
  unfold controlInstance
  cases pending : s.pendingControl with
  | none => exact afresh rfl rfl (by simp [unacknowledged, pendingWrite, pending])
  | some operation =>
    dsimp only
    split
    · exact ⟨⟨_, rfl⟩, rfl, rfl, .inl rfl⟩
    next same =>
    have same := not_not.mp same
    cases operation with
    | write write =>
      obtain ⟨rfl, number, hashed⟩ := tickets.repeated pending same parsed sequenced
      simp only [finishWrite]
      split
      · next received =>
        -- A durable write under this number is the one that used it, so its bytes are the same.
        have durable := seqs.pending_durable pending (tryRecv_ok.mp received)
        have is := (seqs.stored.numbered write.clientId).unique durable used number
        exact absurd (is ▸ hashed).symm other
      · exact ⟨⟨_, rfl⟩, rfl, rfl, .inl rfl⟩
      · exact ⟨⟨_, rfl⟩, rfl, rfl, .inl rfl⟩
    | read bytes kind =>
      have settled : s.unacknowledged clientId = [] := by
        simp [unacknowledged, pendingWrite, pending]
      simp only [finishRead]
      split
      · next value received =>
        have kept := finishAdminRead_sequencer (s := { s with pendingControl := none }) kind value
          input.evict
        split
        · next t _ finished =>
          rw [finished] at kept
          have storage : t.storage = s.storage := kept.2
          exact ⟨⟨_, rfl⟩, kept.1, by rw [storage], .inl (by rw [storage])⟩
        · next t _ finished =>
          rw [finished] at kept
          exact afresh kept.1 kept.2 settled
      · exact ⟨⟨_, rfl⟩, rfl, rfl, .inl rfl⟩
      · exact ⟨⟨_, rfl⟩, rfl, rfl, .inl rfl⟩
    | backup => exact (tickets.not_backup pending same parsed sequenced).elim

end Calls

theorem Quiet.pendingWrite (change : Quiet env s obs t) (waits : t.pendingWrite = some write) :
    s.pendingWrite = some write := by
  cases change with
  | loadedUser | loadedCredential | acknowledged | gaveUp | backedUp | askedCredential =>
    simp [pendingWrite] at waits
  | _ => exact waits

theorem Path.pendingWrite (path : Path env s obs t) (waits : t.pendingWrite = some write) :
    s.pendingWrite = some write := by
  induction path with
  | refl => exact waits
  | step change _ ih => exact change.pendingWrite (ih waits)

theorem Move.pendingWrite (move : Move env s event obs t) (waits : t.pendingWrite = some write) :
    s.pendingWrite = some write ∨
      ∃ input, event = .control input ∧ write.request = input.request := by
  cases move with
  | finished => exact .inl waits
  | pumped => exact .inl waits
  | quiet path => exact .inl (path.pendingWrite waits)
  | loud path loud =>
    cases loud with
    | debited | refunding => exact .inl (path.pendingWrite waits)
    | askedUser => simp [pendingWrite] at waits
    | @submitted input _ _ _ _ _ _ called =>
      simp only [pendingWrite, Option.some.injEq] at waits
      exact .inr ⟨input, called, by rw [← waits]⟩
  | begun _ begun => cases begun <;> exact .inl waits
  | login _ login path =>
    have before := path.pendingWrite waits
    cases login <;> exact .inl before
  | host host => cases host <;> exact .inl waits

theorem Path.receipts (path : Path env s obs t) (clientId : String) :
    receiptsOf clientId obs = [] := by
  induction path with
  | refl => rfl
  | step change _ ih =>
    rw [receiptsOf_append, ih, append_nil]
    cases change with
    | noted obs plain => exact receiptsOf_plain plain clientId
    | _ => rfl

theorem Move.receipts (move : Move env s event obs t) (tickets : Tickets env s)
    (new : receipt ∈ receiptsOf clientId obs) :
    ∃ write, s.pendingControl = some (.write write) ∧ write.clientId = clientId ∧
      write.receipt = receipt := by
  cases move with
  | @finished outcome =>
    have executed : ∃ changes, s.storage.held = some (.apply changes) ∧
        receipt ∈ receiptsIn clientId changes := by
      cases outcome with
      | success =>
        cases holds : s.storage.held with
        | none => simp [finishObs, holds, receiptsOf] at new
        | some command =>
          cases command <;> simp [finishObs, holds, receiptsOf, Obs.receipts] at new
          exact ⟨_, rfl, new⟩
      | _ => simp [finishObs, receiptsOf] at new
    obtain ⟨changes, holds, inside⟩ := executed
    have sent := held_eq_some holds
    rcases tickets.queue.serial (held_running holds) _ _ sent with
      early | ⟨write, control, turn⟩
    · exact absurd early (lt_irrefl _)
    · have apply := (tickets.write control).sent
      rw [turn, sent, Option.some.injEq, Command.apply.injEq] at apply
      rw [apply, write.receiptsIn_changes] at inside
      split at inside
      · next same => exact ⟨write, control, same, (mem_singleton.mp inside).symm⟩
      · simp at inside
  | pumped => simp [receiptsOf, flatMap_map, Obs.receipts] at new
  | quiet path | loud path => simp [path.receipts] at new
  | begun | login => simp [receiptsOf] at new
  | host host => cases host <;> simp [receiptsOf, Obs.receipts] at new

/-- Somebody has asked for what a receipt was stored for. -/
def Requested (env : Env) (history : List Obs) (clientId : String) (receipt : Receipt) : Prop :=
  ∃ bytes result request, .answered bytes result ∈ history ∧
    ControlRequest.parse env.decodeControl bytes = .ok request ∧
    request.sequence = some (clientId, receipt.seq) ∧ receipt.requestHash = env.sha256 bytes

theorem idleStep_answered {next : World} (steps : idleStep env s event = some (next, obs))
    (member : .answered bytes result ∈ obs) :
    ∃ input, event = .control input ∧ bytes = input.request ∧
      result = (s.controlInstance env input).1 := by
  cases event with
  | control input =>
    cases steps
    simp only [controlObs, mem_append, Option.mem_toList, Option.map_eq_some_iff,
      reduceCtorEq, and_false, exists_false, false_or, mem_cons, Obs.answered.injEq,
      mem_map, or_false] at member
    exact ⟨input, rfl, member⟩
  | attachFlow | attachDatagramFlow =>
    cases steps
    unfold attachObs at member
    split at member <;> simp at member
  | admitFlow =>
    cases steps
    unfold admitObs at member
    split at member <;> simp at member
  | admitResolved | abandonFlow =>
    cases steps
    simp at member
  | beginPoll =>
    simp only [idleStep] at steps
    split at steps <;> simp_all
  | _ => simp_all [idleStep]

theorem busyStep_answered {next : World} (steps : busyStep env s phase event = some (next, obs)) :
    .answered bytes result ∉ obs := by
  intro member
  unfold busyStep at steps
  split at steps
  · split at steps <;> simp_all
  · split at steps <;> simp_all
  · cases steps
    simp at member
  all_goals simp_all

theorem World.step_answered (member : .answered bytes result ∈ (world.step env event).2) :
    ∃ s input, world = .up .idle s ∧ event = .control input ∧ bytes = input.request ∧
      result = (s.controlInstance env input).1 := by
  unfold step at member
  split at member
  · split at member <;> simp at member
  · simp at member
  · simp at member
  · next outcome => cases outcome <;> simp [finishObs] at member
  · rcases mem_crashObs member with other | ⟨_, other⟩ <;> simp at other
  · next s _ _ _ =>
    cases steps : idleStep env s event with
    | none => simp [steps] at member
    | some =>
      rw [steps] at member
      obtain ⟨input, called, same, answer⟩ := idleStep_answered steps member
      exact ⟨s, input, rfl, called, same, answer⟩
  · next phase s _ _ _ _ =>
    cases steps : busyStep env s phase event with
    | none => simp [steps] at member
    | some =>
      rw [steps] at member
      exact absurd member (busyStep_answered steps)

theorem World.step_control (s : State) (input : ControlInput) :
    .answered input.request (s.controlInstance env input).1 ∈
      (World.step env (.up .idle s) (.control input)).2 := by
  simp [step, idleStep, controlObs]

variable {guard : List Obs → World → Event → Prop}

/-- Answers of sequenced requests come from durable receipts. -/
theorem run_answers (run : (machine env).Run Fresh guard history world) {request : ControlRequest}
    (answered : .answered bytes (.ok response) ∈ history)
    (parsed : ControlRequest.parse env.decodeControl bytes = .ok request)
    (sequenced : request.sequence = some (clientId, seq)) :
    ∃ receipt ∈ receiptsOf clientId history, receipt.seq = seq ∧
      receipt.requestHash = env.sha256 bytes ∧ receipt.response = response := by
  -- The induction is on the run; the answer of the last step rests on the state before it.
  induction run with
  | start => simp at answered
  | @step history world event before admitted ih =>
    rcases mem_append.mp answered with old | new
    · obtain ⟨receipt, member, rest⟩ := ih old
      exact ⟨receipt, by rw [receiptsOf_append]; exact mem_append_left _ member, rest⟩
    · obtain ⟨s, input, rfl, rfl, rfl, ok⟩ := step_answered new
      obtain ⟨receipt, member, rest⟩ := controlInstance_answers (run_tickets before)
        (run_sequences before) parsed sequenced ok.symm
      exact ⟨receipt, by rw [receiptsOf_append]; exact mem_append_left _ member, rest⟩

theorem Requested.append (requested : Requested env history clientId receipt) (obs : List Obs) :
    Requested env (history ++ obs) clientId receipt := by
  obtain ⟨bytes, result, request, member, rest⟩ := requested
  exact ⟨bytes, result, request, mem_append_left _ member, rest⟩

theorem World.step_control_busy (busy : phase ≠ .idle) (s : State) (input : ControlInput) :
    World.step env (.up phase s) (.control input) = (.up phase s, []) := by
  cases phase with
  | idle => exact absurd rfl busy
  | sessions todo received => cases todo <;> cases received <;> rfl
  | _ => rfl

theorem World.step_write
    (advance : Advance env world event (world.step env event).2 (world.step env event).1)
    (reached : (world.step env event).1 = .up phase t) (waits : t.pendingWrite = some write) :
    (∃ before s, world = .up before s ∧ s.pendingWrite = some write) ∨
      ∃ result, .answered write.request result ∈ (world.step env event).2 := by
  rw [reached] at advance
  generalize observed : (world.step env event).2 = obs at advance ⊢
  cases advance with
  | idle => exact .inl ⟨phase, t, rfl, waits⟩
  | started starts =>
    simp [pendingWrite, (initializeInstance_started starts).control] at waits
  | @moved before _ s _ _ _ move =>
    rcases move.pendingWrite waits with old | ⟨input, called, same⟩
    · exact .inl ⟨before, s, rfl, old⟩
    subst called
    by_cases idle : before = .idle
    · subst idle
      exact .inr ⟨_, observed ▸ same ▸ step_control s input⟩
    · rw [step_control_busy idle, up.injEq] at reached
      exact .inl ⟨before, s, rfl, reached.2 ▸ waits⟩

/-- What is durable or in progress was asked for. -/
theorem run_requested (run : (machine env).Run Fresh guard history world) :
    (∀ phase s write, world = .up phase s → s.pendingWrite = some write →
      ∃ result, .answered write.request result ∈ history) ∧
      ∀ clientId, ∀ receipt ∈ receiptsOf clientId history,
        Requested env history clientId receipt := by
  -- The induction is on the run: a receipt is that of a write in progress one step before.
  induction run with
  | start begins =>
    subst begins
    exact ⟨by simp, by simp [receiptsOf]⟩
  | @step history world event before admitted ih =>
    have advance := run_advance before event
    refine ⟨fun phase t write reached waits => ?_, fun clientId receipt member => ?_⟩
    · rcases step_write advance reached waits with ⟨phase, s, rfl, old⟩ | ⟨result, new⟩
      · obtain ⟨result, member⟩ := ih.1 phase s write rfl old
        exact ⟨result, mem_append_left _ member⟩
      · exact ⟨result, mem_append_right _ new⟩
    · rw [receiptsOf_append] at member
      rcases mem_append.mp member with old | new
      · exact (ih.2 clientId receipt old).append _
      obtain ⟨phase, s, write, rfl, pending, rfl, rfl⟩ :
          ∃ phase s write, world = .up phase s ∧ s.pendingControl = some (.write write) ∧
            write.clientId = clientId ∧ write.receipt = receipt := by
        have tickets := run_tickets before
        generalize ((machine env).step world event).2 = obs at advance new
        generalize ((machine env).step world event).1 = next at advance
        cases advance with
        | @moved phase _ s _ _ _ move =>
          obtain ⟨write, rest⟩ := move.receipts tickets new
          exact ⟨phase, s, write, rfl, rest⟩
        | crashed pumping => simp [(crashObs_receipts _ _ pumping).1] at new
        | _ => simp [receiptsOf] at new
      have ok := (show Tickets env s from run_tickets before).write pending
      obtain ⟨request, parsed, sequenced, _⟩ := ok.parsed
      obtain ⟨result, answered⟩ := ih.1 phase s write rfl (by simp [pendingWrite, pending])
      exact ⟨write.request, result, request, mem_append_left _ answered, parsed, sequenced,
        ok.hashed⟩

/--
Administrative requests are applied exactly once.

Clients may repeat, reorder and skip requests, writes may fail and the process may end anywhere.
The receipts of a client that become durable are numbered one, two, three and so on.
Every transaction carries one receipt and was asked for.
A sequenced request is only ever answered with the response of its receipt.
Other bytes under a used number, as far as their digest tells, are refused without any effect.
A durable write can always be committed.
-/
theorem adminRequests_exactlyOnce {history : List Obs} {world : World}
    (run : (machine env).Run Fresh (fun _ _ _ => True) history world) :
    (∀ clientId, (receiptsOf clientId history).map (·.seq) =
      List.range' 1 (receiptsOf clientId history).length) ∧
    (∀ changes, .executed (.apply changes) ∈ history →
      ∃ clientId receipt, receiptsIn clientId changes = [receipt] ∧
        Requested env history clientId receipt ∧
        ∀ other, other ≠ clientId → receiptsIn other changes = []) ∧
    (∀ bytes response request clientId seq, .answered bytes (.ok response) ∈ history →
      ControlRequest.parse env.decodeControl bytes = .ok request →
      request.sequence = some (clientId, seq) →
      ∃ receipt ∈ receiptsOf clientId history, receipt.seq = seq ∧
        receipt.requestHash = env.sha256 bytes ∧ receipt.response = response) ∧
    ∀ phase s, world = .up phase s →
      (∀ input request clientId receipt,
        ControlRequest.parse env.decodeControl input.request = .ok request →
        request.sequence = some (clientId, receipt.seq) →
        receipt ∈ receiptsOf clientId history →
        env.sha256 input.request ≠ receipt.requestHash →
        (∃ status, (s.controlInstance env input).1 = .error status) ∧
          Untouched s (s.controlInstance env input).2) ∧
      ∀ write, s.pendingControl = some (.write write) →
        s.storage.replies[write.reply]? = some .done →
        ∃ sequencer, s.admin.sequencer.applyCommit write.clientId write.receipt =
          .ok sequencer := by
  have stored : Stored history world.store := by
    have seqs := run_sequences run
    cases world with
    | down => exact seqs
    | up => exact Sequences.stored seqs
  refine ⟨fun clientId => (stored.numbered clientId).1, fun changes executed => ?_,
    fun _ _ _ _ _ answered parsed sequenced => run_answers run answered parsed sequenced, ?_⟩
  · obtain ⟨write, rfl⟩ := stored.applied changes executed
    have own := write.receiptsIn_changes write.clientId
    rw [if_pos rfl] at own
    refine ⟨write.clientId, write.receipt, own, ?_, fun other different => ?_⟩
    · refine (run_requested run).2 _ _ (mem_flatMap.mpr ⟨_, executed, ?_⟩)
      simp [Obs.receipts, own]
    · rw [write.receiptsIn_changes, if_neg (Ne.symm different)]
  · rintro phase s rfl
    have seqs : Sequences history s := run_sequences run
    refine ⟨fun input request clientId receipt parsed sequenced used other =>
      controlInstance_refuses (run_tickets run) seqs parsed sequenced used other,
      fun write pending _ => seqs.next write (by simp [pendingWrite, pending])⟩

open Deployment

/-- The two requests of a short run are applied once each, in order. -/
theorem adminRequests_exactlyOnce_setup :
    (receiptsOf "panel" (reached [] (setup options)).1).map (·.seq) = [1, 2] := by
  have run : (machine (libraries [])).Run Fresh (fun _ _ _ => True)
      (reached [] (setup options)).1 (reached [] (setup options)).2 :=
    reached_run [] (setup options) (by decide +kernel)
  have two : (receiptsOf "panel" (reached [] (setup options)).1).length = 2 := by decide +kernel
  rw [(adminRequests_exactlyOnce run).1 "panel", two]
  rfl

end Snolc.Policy
