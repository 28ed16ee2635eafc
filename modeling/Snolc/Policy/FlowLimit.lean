import Snolc.Policy.Settings
import Snolc.Policy.Waiting

/-! How many flows of a user there are at once, attached or admitted. -/

namespace Snolc.Policy

open State Option Table PolicySession

variable {env : Env} {userId : String} {s t : State}

def PolicySession.waitingOf (userId : String) (session : PolicySession) : Nat :=
  session.pendingFlows.countP fun identity => identity.userId = userId

/-- The flows of a user, attached or admitted. -/
def State.heldFlows (s : State) (userId : String) : Nat :=
  Table.count (fun flow => flow.userId = some userId) s.flows +
    Table.count (fun flow => flow.userId = some userId) s.datagramFlows +
      Table.weigh (PolicySession.waitingOf userId) s.sessions

/-- A limit that is no more than a number. -/
def CountLimit.AtMost (count : Nat) : CountLimit → Prop
  | limited own => own ≤ count
  | unlimited => False

instance (count : Nat) : DecidablePred (CountLimit.AtMost count)
  | .limited own => inferInstanceAs (Decidable (own ≤ count))
  | .unlimited => inferInstanceAs (Decidable False)

/-- The record of a user that the instance holds limits its flows to a number. -/
def State.LimitsFlows (s : State) (userId : String) (count : Nat) : Prop :=
  ∀ user ∈ s.admin.users.lookup userId, user.spec.maxFlows.AtMost count

instance (userId : String) (count : Nat) : DecidablePred (State.LimitsFlows · userId count) :=
  fun s => inferInstanceAs
    (Decidable (∀ user ∈ s.admin.users.lookup userId, user.spec.maxFlows.AtMost count))

variable {count handle : Nat}

theorem State.heldFlows_lt {user : UserRecord}
    (open_ : s.flowLimitReached user = false) (limited : user.spec.maxFlows.AtMost count) :
    s.heldFlows user.id < count := by
  cases limit : user.spec.maxFlows with
  | unlimited => simp [limit, CountLimit.AtMost] at limited
  | limited =>
    rw [limit, CountLimit.AtMost] at limited
    simp only [flowLimitReached, limit, decide_eq_false_iff_not, not_le] at open_
    exact lt_of_lt_of_le open_ limited

theorem Undisturbed.heldFlows_le (same : Undisturbed s t) :
    t.heldFlows userId ≤ s.heldFlows userId := by
  have streams : count (fun flow => flow.userId = some userId) t.flows ≤
      count (fun flow => flow.userId = some userId) s.flows := by
    rw [count_eq_weigh, count_eq_weigh]
    refine weigh_le fun handle flow found => ?_
    obtain ⟨former, there, _, owner, _⟩ := same.flows handle flow found
    exact ⟨former, there, by rw [owner]⟩
  have datagrams : count (fun flow => flow.userId = some userId) t.datagramFlows ≤
      count (fun flow => flow.userId = some userId) s.datagramFlows := by
    rw [count_eq_weigh, count_eq_weigh]
    refine weigh_le fun handle flow found => ?_
    obtain ⟨former, there, _, owner, _⟩ := same.datagramFlows handle flow found
    exact ⟨former, there, by rw [owner]⟩
  have waiting : weigh (waitingOf userId) t.sessions ≤
      weigh (waitingOf userId) s.sessions := by
    refine weigh_le fun handle session found => ?_
    obtain ⟨former, there, queue⟩ := same.sessions handle session found
    exact ⟨former, there, by rw [waitingOf, queue.pendingFlows]; rfl⟩
  exact Nat.add_le_add (Nat.add_le_add streams datagrams) waiting

theorem waiting_insert (userId : String) {old : PolicySession}
    (found : s.sessions.lookup handle = some old) (session : PolicySession) :
    Table.weigh (PolicySession.waitingOf userId) (s.sessions.insert handle session) +
        old.waitingOf userId =
      Table.weigh (PolicySession.waitingOf userId) s.sessions + session.waitingOf userId := by
  rw [weigh_insert, weigh_erase found]
  omega

theorem count_attach {α : Type} (table : Table Nat α) (handle : Nat) (flow : α)
    (accepts : α → Bool) :
    Table.count accepts (table.insert handle flow) ≤
      Table.count accepts table + if accepts flow then 1 else 0 := by
  rw [count_insert]
  exact Nat.add_le_add_right ((Table.Sub.erase _ _).count_le _) _

theorem waiting_pop (userId : String) {found : PolicySession}
    {identity : FlowIdentity} {rest : List FlowIdentity}
    (there : s.sessions.lookup handle = some found)
    (queue : found.pendingFlows = identity :: rest) : Table.weigh (PolicySession.waitingOf userId)
        (s.sessions.insert handle { found with pendingFlows := rest }) +
        (if identity.userId = userId then 1 else 0) =
      Table.weigh (PolicySession.waitingOf userId) s.sessions := by
  have moved := waiting_insert userId there { found with pendingFlows := rest }
  have before : found.waitingOf userId = (rest.countP fun identity => identity.userId = userId) +
      if identity.userId = userId then 1 else 0 := by
    simp only [waitingOf, queue, List.countP_cons, decide_eq_true_eq]
  have after : waitingOf userId { found with pendingFlows := rest } =
      rest.countP fun identity => identity.userId = userId := rfl
  omega

/-- The host's calls keep a user within its limit. -/
theorem Host.heldFlows_le {event : Event} {obs : List Obs}
    (change : Host env s event obs t) (tickets : Tickets env s)
    (limits : s.LimitsFlows userId count) (within : s.heldFlows userId ≤ count) :
    t.heldFlows userId ≤ count := by
  cases change with
  | refused => exact within
  | @joined _ _ _ handle session later waiting digest empty =>
    -- Nothing waits on a new session.
    have none : session.waitingOf userId = 0 := by simp [waitingOf, empty]
    have fewer : weigh (waitingOf userId) (s.sessions.erase handle) ≤
        weigh (waitingOf userId) s.sessions :=
      weigh_le fun key value found => ⟨value, Table.Sub.erase _ _ key value found, le_rfl⟩
    simp only [heldFlows, weigh_insert, none] at within ⊢
    omega
  | @admitted session flow utc metadata found identity admitted there =>
    have moved := waiting_insert userId there
      { found with pendingFlows := found.pendingFlows ++ [identity] }
    have queue : waitingOf userId
        { found with pendingFlows := found.pendingFlows ++ [identity] } =
        found.waitingOf userId + if identity.userId = userId then 1 else 0 := by
      simp [waitingOf, List.countP_cons]
    simp only [heldFlows] at within ⊢
    by_cases own : identity.userId = userId
    · -- The admission has compared the limit with all flows of the user.
      subst own
      obtain ⟨_, _, _, _, _, user, cached, _, open_, _⟩ := admission_session admitted
      have room := heldFlows_lt open_ (limits user cached)
      rw [tickets.users identity.userId user cached, heldFlows] at room
      rw [if_pos rfl] at queue
      omega
    · rw [if_neg own] at queue
      omega
  | consumed attaches there server queue =>
    have popped := waiting_pop userId there queue
    simp only [heldFlows] at within ⊢
    omega
  | @streamed event session flow handle instant found identity rest attaches there server queue
      later =>
    have popped := waiting_pop userId there queue
    have attached := count_attach s.flows handle
      (newFlow session (some identity) instant) (fun flow => flow.userId = some userId)
    simp only [newFlow, map_some, Option.some.injEq, decide_eq_true_eq] at attached
    simp only [heldFlows, newFlow, map_some] at within ⊢
    omega
  | @datagrammed event session flow handle found identity rest attaches there server queue =>
    have popped := waiting_pop userId there queue
    have attached := count_attach s.datagramFlows handle
      (newDatagramFlow session (some identity)) (fun flow => flow.userId = some userId)
    simp only [newDatagramFlow, map_some, Option.some.injEq, decide_eq_true_eq]
      at attached
    simp only [heldFlows, newDatagramFlow, map_some] at within ⊢
    omega
  | skipped => exact within
  | @unmetered event session flow handle instant =>
    have attached := count_attach s.flows handle
      (newFlow session none instant) (fun flow => flow.userId = some userId)
    simp only [newFlow, map_none, reduceCtorEq, decide_false, Bool.false_eq_true,
      if_false, Nat.add_zero] at attached
    simp only [heldFlows, newFlow, map_none] at within ⊢
    omega
  | @unmeteredDatagram event session flow handle =>
    have attached := count_attach s.datagramFlows handle
      (newDatagramFlow session none) (fun flow => flow.userId = some userId)
    simp only [newDatagramFlow, map_none, reduceCtorEq, decide_false,
      Bool.false_eq_true, if_false, Nat.add_zero] at attached
    simp only [heldFlows, newDatagramFlow, map_none] at within ⊢
    omega

/-- A user stays within its limit along every run whose states limit it. -/
theorem run_heldFlows {guard : List Obs → World → Event → Prop}
    (limits : ∀ {history world event}, (machine env).Run Fresh guard history world →
      guard history world event → world.Holds (State.LimitsFlows · userId count))
    {history : List Obs} {world : World} (run : (machine env).Run Fresh guard history world) :
    world.Holds fun s => s.heldFlows userId ≤ count := by
  refine machine_invariant (fun _ world => world.Holds fun s => s.heldFlows userId ≤ count)
    trivial ?_ run
  rintro history world event obs next before within admitted advance
  have limited := limits before admitted
  have tickets := run_tickets before
  cases advance with
  | idle => exact within
  | started started =>
    have fresh := initializeInstance_started started
    simp [World.Holds, State.heldFlows, Table.count, Table.weigh, Table.values, fresh.sessions,
      fresh.flows, fresh.datagramFlows]
  | moved move =>
    rcases move.host_cases with ⟨same, -⟩ | host
    · exact same.heldFlows_le.trans within
    · exact host.heldFlows_le tickets limited within
  | stopped | crashed => trivial

abbrev UserSpec.LimitsFlows (count : Nat) (spec : UserSpec) : Prop :=
  spec.maxFlows.AtMost count

/--
The flows of a user, attached or admitted, stay within its limit.

It is enough that the record which the instance holds limits them in every state of the run, and
this is so where every administrative write of the user does.
-/
theorem heldFlows_le_limit {history : List Obs} {world : World} :
    ((machine env).Run Fresh (fun _ world _ => world.Holds (State.LimitsFlows · userId count))
        history world →
      world.Holds fun s => s.heldFlows userId ≤ count) ∧ ((machine env).Run Fresh
        (fun _ world _ => world.Holds (State.Asks (UserSpec.LimitsFlows count) userId))
        history world →
      world.Holds fun s => s.heldFlows userId ≤ count) := by
  refine ⟨run_heldFlows fun _ admitted => admitted, run_heldFlows ?_⟩
  intro history world event before admitted
  have specs := (run_specHolds (fun _ _ _ admitted => admitted) before).2
  cases world with
  | down => trivial
  | up =>
    intro user cached
    exact (specs admitted).cached user cached

open Deployment

/-- The request that creates the user with a limit of one flow. -/
def createLimited : Sample where
  lines :=
    ["method = \"user.create\"", "client_id = \"panel\"", "seq = 1", "[user]",
      "status = \"enabled\"", "burst_bytes = 65507", "weight = 1", "group = \"default\"",
      "rule_profile = \"default\"", "[user.expiration]", "mode = \"at-utc\"", "unix_seconds = 100",
      "[user.quota]", "mode = \"limited\"", "bytes = 1000", "[user.upload_rate]",
      "mode = \"unlimited\"", "[user.download_rate]", "mode = \"unlimited\"",
      "[user.combined_rate]", "mode = \"unlimited\"", "[user.max_sessions]", "mode = \"limited\"",
      "count = 2", "[user.max_flows]", "mode = \"limited\"", "count = 1", "[user.weekly_access]",
      "mode = \"unlimited\""]
  digest := 0x8d0498be6d8640fc1972b845825fd82e716784fdd4051f955be7b0d34fe404d7
  request := .userCreate "panel" 1 { spec with maxFlows := .limited 1 }

/-- A login of the user, and two flows of which the second is refused. -/
def twoFlows : List Event :=
  .start options 0 1 1 :: createLimited.call 10 (some entropy) :: worked ++
    [createLimited.call 10 none, addCredential.call 10 none] ++ worked ++ addCredential.issue ++
    login ++
    [.admitFlow 1 1 metadata 20, .admitFlow 1 2 metadata 20, .attachFlow 1 1 ⟨none, 0, 0⟩,
      .admitFlow 1 3 metadata 20]

/-- The user has the one flow its limit allows. -/
theorem heldFlows_le_limit_twoFlows :
    (∀ phase s, (reached [createLimited] twoFlows).2 = .up phase s → s.heldFlows firstUser ≤ 1) ∧
      (reached [createLimited] twoFlows).2.Holds fun s => s.heldFlows firstUser = 1 := by
  have run : (machine (libraries [createLimited])).Run Fresh
      (fun _ world _ => world.Holds (State.Asks (UserSpec.LimitsFlows 1) firstUser))
      (reached [createLimited] twoFlows).1 (reached [createLimited] twoFlows).2 :=
    reached_run [createLimited] twoFlows (by decide +kernel)
  refine ⟨fun phase s up => ?_, by decide +kernel⟩
  rw [up] at run
  exact heldFlows_le_limit.2 run

end Snolc.Policy
