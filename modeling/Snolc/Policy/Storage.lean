import Snolc.Policy.Admin

/-! The storage worker: a bounded queue of commands over a durable table, executed in order. -/

namespace Snolc.Policy

variable {worker sent : StorageWorker} {ticket : Nat} {key : Key}
  {changes : List (Key × Option Value)} {command : Command}

/-- The kinds of durable keys. -/
inductive Key
  | rules (profile : String)
  | user (id : String)
  | credential (digest : String)
  | client (id : String)
  deriving DecidableEq, Repr

def Key.text : Key → String
  | rules profile => "meta/rules/" ++ profile
  | user id => "user/" ++ id
  | credential digest => "credential/" ++ digest
  | client id => "client/" ++ id

def Key.clientId? : Key → Option String
  | client id => some id
  | _ => none

/-- Durable values, as what their bytes decode to. -/
inductive Value
  | rules (toml : String)
  | user (record : StoredUserRecord)
  | credential (record : CredentialRecord)
  | receipt (receipt : Receipt)
  deriving DecidableEq, Repr

inductive StorageError
  | queueFull
  | limit
  | invalid
  | stopped
  | permissions
  | io
  | database
  deriving DecidableEq, Repr

/-- Commands the engine sends to the worker. -/
inductive Command
  | get (key : Key)
  | put (key : Key) (value : Value)
  | apply (changes : List (Key × Option Value))
  | backup (destination : String)
  | stop
  deriving DecidableEq, Repr

/-- What the worker answers to a command. -/
inductive Reply
  | value (found : Option Value)
  | done
  | failed
  deriving DecidableEq, Repr

/-- How the execution of one command ends. -/
inductive Outcome
  | success
  | failure
  /-- A failure after which the worker cannot continue. -/
  | fatal
  deriving DecidableEq, Repr

/-- Why a reply cannot be read. -/
inductive TryRecvError
  | empty
  | disconnected
  deriving DecidableEq, Repr

/--
The worker and the durable table behind it.

Commands are kept in the order they were sent, and a command is known by its position.
The replies so far answer the first commands, one each.
-/
structure StorageWorker where
  store : Table Key Value
  commands : List Command
  /-- The number of commands the worker has taken off the queue. -/
  received : Nat
  replies : List Reply
  capacity : Nat
  /-- The position of the stop command, once it is sent. -/
  stopping : Option Nat
  running : Bool

namespace StorageWorker

/-- Keys have a bounded length. -/
def validateKey (key : Key) : Except StorageError Unit :=
  if key.text.utf8ByteSize > 512 then .error .invalid else .ok ()

variable (store : Table Key Value)

/-- A worker over the durable table. -/
def start (capacity : Nat) : StorageWorker where
  store
  commands := []
  received := 0
  replies := []
  capacity
  stopping := none
  running := true

/-- Queue a command and return its position. -/
def send (worker : StorageWorker) (command : Command) :
    Except StorageError (Nat × StorageWorker) :=
  if worker.stopping.isSome then .error .stopped
  else if !worker.running then .error .stopped
  else if worker.commands.length - worker.received ≥ worker.capacity then .error .queueFull
  else .ok (worker.commands.length, { worker with commands := worker.commands ++ [command] })

/-- Ask for the value under a key. -/
def get (worker : StorageWorker) (key : Key) : Except StorageError (Nat × StorageWorker) := do
  validateKey key
  worker.send (.get key)

/-- Write a value under a key. -/
def put (worker : StorageWorker) (key : Key) (value : Value) :
    Except StorageError (Nat × StorageWorker) := do
  validateKey key
  worker.send (.put key value)

/-- Write several values in one transaction. -/
def apply (worker : StorageWorker) (changes : List (Key × Option Value)) :
    Except StorageError (Nat × StorageWorker) := do
  if changes.isEmpty then throw .invalid
  changes.forM fun change => validateKey change.1
  worker.send (.apply changes)

/-- Copy the database while nothing else runs. -/
def backup (worker : StorageWorker) (destination : String) :
    Except StorageError (Nat × StorageWorker) :=
  if destination.toList.head? ≠ some '/' then .error .invalid
  else worker.send (.backup destination)

/-- Send the stop command once. -/
def startShutdown (worker : StorageWorker) : Except StorageError StorageWorker :=
  if worker.stopping.isSome then .ok worker
  else do
    let (ticket, worker) ← worker.send .stop
    return { worker with stopping := some ticket }

/-- Read the reply to a command without waiting. -/
def tryRecv (worker : StorageWorker) (ticket : Nat) : Except TryRecvError Reply :=
  match worker.replies[ticket]? with
  | some reply => .ok reply
  | none => if worker.running then .error .empty else .error .disconnected

/-- Ask the worker to stop and see whether it has. -/
def pollShutdown (worker : StorageWorker) : StorageWorker × Except StorageError Bool :=
  match worker.startShutdown with
  | .error fault => (worker, .error fault)
  | .ok worker =>
    match worker.stopping with
    | none => (worker, .error .stopped)
    | some ticket =>
      match worker.tryRecv ticket with
      | .ok _ => (worker, .ok true)
      | .error .empty => (worker, .ok false)
      | .error .disconnected => (worker, .error .stopped)

/-- Write or remove one value. -/
def applyChange : Key × Option Value → Table Key Value
  | (key, some value) => store.insert key value
  | (key, none) => store.erase key

/-- Write or remove values in order, as one transaction. -/
def applyValues (changes : List (Key × Option Value)) : Table Key Value :=
  changes.foldl applyChange store

/-- The table after a command. -/
def effect : Command → Table Key Value
  | .put key value => store.insert key value
  | .apply changes => applyValues store changes
  | .get _ | .backup _ | .stop => store

/-- What a transaction leaves under a key, if it touches it. -/
def written (key : Key) : List (Key × Option Value) → Option (Option Value)
  | [] => none
  | change :: rest => (written key rest).or (if change.1 = key then some change.2 else none)

/-- What a command leaves under a key, if it touches it. -/
def writes (key : Key) : Command → Option (Option Value)
  | .put other value => if other = key then some (some value) else none
  | .apply changes => written key changes
  | .get _ | .backup _ | .stop => none

/-- The reply to a command that succeeds. -/
def answer : Command → Reply
  | .get key => .value (store.lookup key)
  | .put _ _ | .apply _ | .backup _ | .stop => .done

/-- The worker thread takes the next command off the queue. -/
def receive (worker : StorageWorker) : StorageWorker :=
  if worker.running ∧ worker.received = worker.replies.length ∧
      worker.received < worker.commands.length then
    { worker with received := worker.received + 1 }
  else worker

/-- The command the worker thread holds. -/
def held (worker : StorageWorker) : Option Command :=
  if worker.running ∧ worker.replies.length < worker.received then
    worker.commands[worker.replies.length]?
  else none

/--
The worker thread finishes the command it holds.

A command that fails changes nothing.
Only a backup can leave the worker without a database, and the stop command ends it.
-/
def finish (worker : StorageWorker) (outcome : Outcome) : StorageWorker :=
  match worker.held with
  | none => worker
  | some command =>
    match command, outcome with
    | .stop, _ => { worker with replies := worker.replies ++ [.done], running := false }
    | .backup _, .fatal => { worker with replies := worker.replies ++ [.failed], running := false }
    | command, .success =>
      { worker with
        store := effect worker.store command
        replies := worker.replies ++ [answer worker.store command] }
    | _, _ => { worker with replies := worker.replies ++ [.failed] }

/-- The client receipts in the table, refused when there are more than the limit. -/
def scanClients (limit : Nat) : Except StorageError (List (String × Value)) :=
  let found := store.entries.filterMap fun entry =>
    entry.1.clientId?.map fun clientId => (clientId, entry.2)
  if found.length > limit then .error .limit else .ok found

/-- A worker with one more command in its queue. -/
def push (worker : StorageWorker) (command : Command) : StorageWorker :=
  { worker with commands := worker.commands ++ [command] }

theorem lookup_applyValues (changes : List (Key × Option Value)) (key : Key) :
    (applyValues store changes).lookup key = (written key changes).getD (store.lookup key) := by
  unfold applyValues
  induction changes generalizing store with
  | nil => rfl
  | cons change changes ih =>
    obtain ⟨other, value⟩ := change
    rw [List.foldl_cons, ih, written]
    cases written key changes with
    | some => rfl
    | none =>
      cases value with
      | none =>
        simp only [applyChange, Table.lookup_erase_eq, Option.none_or, Option.getD_none]
        by_cases same : other = key
        · simp [same]
        · simp [same, Ne.symm same]
      | some =>
        simp only [applyChange, Table.lookup_insert_eq, Option.none_or, Option.getD_none]
        by_cases same : other = key
        · simp [same]
        · simp [same, Ne.symm same]

theorem lookup_effect (command : Command) (key : Key) :
    (effect store command).lookup key = (writes key command).getD (store.lookup key) := by
  cases command with
  | put other =>
    simp only [effect, writes, Table.lookup_insert_eq]
    by_cases same : other = key
    · simp [same]
    · simp [same, Ne.symm same]
  | apply changes => exact lookup_applyValues store changes key
  | _ => rfl

theorem written_append (key : Key) (first second : List (Key × Option Value)) :
    written key (first ++ second) = (written key second).or (written key first) := by
  induction first with
  | nil => simp [written]
  | cons change first ih => rw [List.cons_append, written, ih, written, Option.or_assoc]

theorem written_eq_none (absent : ∀ change ∈ changes, change.1 ≠ key) :
    written key changes = none := by
  induction changes with
  | nil => rfl
  | cons change changes ih =>
    rw [written, ih fun other member => absent other (by simp [member])]
    simp [absent change (by simp)]

theorem written_mem {change : Option Value} (touched : written key changes = some change) :
    (key, change) ∈ changes := by
  induction changes with
  | nil => simp [written] at touched
  | cons first rest ih =>
    rw [written, Option.or_eq_some_iff] at touched
    rcases touched with later | ⟨_, here⟩
    · exact List.mem_cons_of_mem _ (ih later)
    split at here
    · next same =>
      cases here
      exact same ▸ List.mem_cons_self
    · cases here

theorem written_ne_none {change : Option Value} (named : (key, change) ∈ changes) :
    written key changes ≠ none := by
  induction changes with
  | nil => simp at named
  | cons first rest ih =>
    rw [written, Ne, Option.or_eq_none_iff]
    rintro ⟨later, here⟩
    rcases List.mem_cons.mp named with rfl | member
    · simp at here
    · exact ih member later

theorem written_map {α : Type} (entries : List α) {change : α → Key × Option Value}
    (other : ∀ entry, (change entry).1 ≠ key) : written key (entries.map change) = none := by
  refine written_eq_none fun changed member => ?_
  obtain ⟨entry, _, rfl⟩ := List.mem_map.mp member
  exact other entry

theorem send_ok (ok : worker.send command = .ok (ticket, sent)) :
    ticket = worker.commands.length ∧ sent = worker.push command := by
  unfold send at ok
  split at ok
  · cases ok
  split at ok
  · cases ok
  split at ok
  · cases ok
  · cases ok
    exact ⟨rfl, rfl⟩

theorem get_ok (ok : worker.get key = .ok (ticket, sent)) :
    ticket = worker.commands.length ∧ sent = worker.push (.get key) := by
  obtain ⟨_, _, ok⟩ := bind_ok ok
  exact send_ok ok

theorem put_ok {value : Value} (ok : worker.put key value = .ok (ticket, sent)) :
    ticket = worker.commands.length ∧ sent = worker.push (.put key value) := by
  obtain ⟨_, _, ok⟩ := bind_ok ok
  exact send_ok ok

theorem apply_ok (ok : worker.apply changes = .ok (ticket, sent)) :
    ticket = worker.commands.length ∧ sent = worker.push (.apply changes) := by
  unfold apply at ok
  split at ok
  · cases ok
  · obtain ⟨_, _, ok⟩ := bind_ok ok
    exact send_ok ok

theorem backup_ok {destination : String} (ok : worker.backup destination = .ok (ticket, sent)) :
    ticket = worker.commands.length ∧ sent = worker.push (.backup destination) := by
  unfold backup at ok
  split at ok
  · simp at ok
  · exact send_ok ok

theorem tryRecv_ok {reply : Reply} :
    worker.tryRecv ticket = .ok reply ↔ worker.replies[ticket]? = some reply := by
  unfold tryRecv
  cases found : worker.replies[ticket]? with
  | none => cases worker.running <;> simp
  | some => simp

theorem pollShutdown_cases (worker : StorageWorker) : worker.pollShutdown.1 = worker ∨
    worker.pollShutdown.1 =
      { worker.push .stop with stopping := some worker.commands.length } := by
  unfold pollShutdown startShutdown
  cases stopping : worker.stopping with
  | some ticket =>
    left
    simp only [Option.isSome_some, if_true, stopping]
    split <;> rfl
  | none =>
    cases sent : worker.send .stop with
    | error =>
      simp only [Option.isSome_none, Bool.false_eq_true, if_false, Bind.bind, Except.bind]
      exact .inl trivial
    | ok result =>
      right
      obtain ⟨ticket, pushed⟩ := result
      obtain ⟨rfl, rfl⟩ := send_ok sent
      simp only [Option.isSome_none, Bind.bind, Except.bind, Pure.pure, Except.pure,
        Bool.false_eq_true, if_false]
      split <;> rfl

/-- Everything the worker thread can do when it finishes a command. -/
inductive Finish (worker : StorageWorker) : Outcome → StorageWorker → Prop
  /-- There is no command to finish. -/
  | idle {outcome : Outcome} : worker.held = none → Finish worker outcome worker
  | stop {outcome : Outcome} : worker.held = some .stop →
      Finish worker outcome
        { worker with replies := worker.replies ++ [.done], running := false }
  | done {command : Command} : worker.held = some command → command ≠ .stop →
      Finish worker .success
        { worker with
          store := effect worker.store command
          replies := worker.replies ++ [answer worker.store command] }
  | failed {command : Command} {outcome : Outcome} {running : Bool} :
      worker.held = some command → outcome ≠ .success →
      Finish worker outcome
        { worker with replies := worker.replies ++ [.failed], running }

theorem finish_cases (worker : StorageWorker) (outcome : Outcome) :
    Finish worker outcome (worker.finish outcome) := by
  unfold finish
  cases holds : worker.held with
  | none => exact .idle holds
  | some command =>
    -- The outcome matters for every command except the stop command.
    cases command <;> cases outcome
    all_goals first
      | exact .stop holds
      | exact .done holds (by simp)
      | exact .failed holds (by simp)

section

variable (holds : worker.held = some command)
include holds

theorem finish_success_replies :
    (worker.finish .success).replies = worker.replies ++ [answer worker.store command] := by
  unfold finish
  rw [holds]
  cases command <;> rfl

theorem held_eq_some : worker.commands[worker.replies.length]? = some command := by
  unfold held at holds
  split at holds
  · exact holds
  · simp at holds

/-- A worker that holds a command runs. -/
theorem held_running : worker.running = true := by
  unfold held at holds
  split at holds
  · next ready => exact ready.1
  · simp at holds

end

theorem receive_eq : worker.receive = { worker with received := worker.receive.received } := by
  unfold receive
  split <;> rfl

end StorageWorker

end Snolc.Policy
