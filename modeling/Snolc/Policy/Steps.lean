import Snolc.Policy.Change

/-! Every step of the machine is made of the listed changes. -/

namespace Snolc.Policy

open List StorageWorker

variable {s t mid : State} {userId : String} {input : ControlInput} {post : UserTraffic → Prop}
  {request : ControlRequest} {obs : List Obs} {traffic : UserTraffic}

variable {env : Env} {event : Event}

namespace Path

theorem single (change : Quiet env s obs t) : Path env s obs t := by
  simpa using Path.step change (.refl t)

theorem trans {first second : List Obs} (before : Path env s first mid)
    (after : Path env mid second t) : Path env s (first ++ second) t := by
  induction before with
  | refl => simpa using after
  | step change _ ih => simpa [append_assoc] using Path.step change (ih after)

theorem silent (before : Path env s [] mid) (after : Path env mid obs t) : Path env s obs t := by
  simpa using before.trans after

theorem notes (s : State) (plain : ∀ o ∈ obs, o.plain = true) : Path env s obs s := by
  induction obs with
  | nil => exact .refl s
  | cons first rest ih =>
    have noted := Path.step (.noted first (plain first (by simp)))
      (ih fun o member => plain o (by simp [member]))
    simpa using noted

end Path

/-- Quiet changes, and at the end perhaps one that starts an operation on a user record. -/
def Ends (env : Env) (event : Event) (s t : State) : Prop :=
  Path env s [] t ∨ ∃ mid, Path env s [] mid ∧ Loud env event mid t

theorem Ends.after (before : Path env s [] mid) (after : Ends env event mid t) :
    Ends env event s t := by
  rcases after with quiet | ⟨last, quiet, loud⟩
  · exact .inl (before.silent quiet)
  · exact .inr ⟨last, before.silent quiet, loud⟩

theorem Ends.move {result : Except Status Bytes} (ends : Ends env (.control input) s t)
    (plain : ∀ o ∈ s.controlObs input result, o.plain = true) :
    Move env s (.control input) (s.controlObs input result) t := by
  have noted : Path env s (s.controlObs input result) s := Path.notes s plain
  rcases ends with quiet | ⟨mid, quiet, loud⟩
  · exact .quiet (by simpa using noted.trans quiet)
  refine .loud (by simpa using noted.trans quiet) loud fun other bytes same drawn => ?_
  rw [Event.control.injEq] at same
  simp [State.controlObs, same, drawn]

/-- Only the traffic of one user differs. -/
def Others (userId : String) (s t : State) : Prop :=
  ∀ other, other ≠ userId → t.traffic.lookup other = s.traffic.lookup other

/-- The traffic of a user, if there is any, has a property. -/
def TrafficIs (s : State) (userId : String) (holds : UserTraffic → Prop) : Prop :=
  ∀ traffic, s.traffic.lookup userId = some traffic → holds traffic

/-- What a part of a user's turn does, and what the next part may rely on. -/
def Stage.Does (env : Env) (event : Event) (userId : String) (s : State)
    (post : UserTraffic → Prop) : Stage → Prop
  | .next t => Path env s [] t ∧ Others userId s t ∧ TrafficIs t userId post
  | .done t verdict => Ends env event s t ∧ Others userId s t ∧
      (verdict.remove = true →
        TrafficIs t userId fun traffic => traffic.failed = true ∨ Settled traffic)

theorem Others.setTraffic (same : t.traffic = s.traffic) :
    Others userId s (t.setTraffic userId traffic) := by
  intro other different
  simp [State.setTraffic, different, same]

theorem TrafficIs.setTraffic {holds : UserTraffic → Prop} (given : holds traffic) :
    TrafficIs (t.setTraffic userId traffic) userId holds := by
  intro found present
  simp only [State.setTraffic, Table.lookup_insert_eq, if_true, Option.some.injEq] at present
  exact present ▸ given

namespace Stage

theorem Does.andThen {mid : UserTraffic → Prop} {stage : Stage} {rest : State → Stage}
    (first : stage.Does env event userId s mid)
    (second : ∀ t, TrafficIs t userId mid → (rest t).Does env event userId t post) :
    (stage.andThen rest).Does env event userId s post := by
  cases stage with
  | done => exact first
  | next t =>
    obtain ⟨path, others, holds⟩ := first
    have later := second t holds
    simp only [Stage.andThen]
    cases reached : rest t with
    | next =>
      rw [reached] at later
      exact ⟨path.silent later.1, fun other different =>
        (later.2.1 other different).trans (others other different), later.2.2⟩
    | done =>
      rw [reached] at later
      refine ⟨?_, fun other different =>
        (later.2.1 other different).trans (others other different), later.2.2⟩
      rcases later.1 with quiet | ⟨last, quiet, loud⟩
      · exact .inl (path.silent quiet)
      · exact .inr ⟨last, path.silent quiet, loud⟩

theorem Does.stay {verdict : Verdict} (removable : verdict.remove = true →
      TrafficIs s userId fun traffic => traffic.failed = true ∨ Settled traffic) :
    (Stage.done s verdict).Does env event userId s post :=
  ⟨.inl (.refl s), fun _ _ => rfl, removable⟩

theorem Does.skip (holds : TrafficIs s userId post) : (Stage.next s).Does env event userId s post :=
  ⟨.refl s, fun _ _ => rfl, holds⟩

theorem Does.leave {verdict : Verdict} (kept : verdict.remove = false)
    (change : Quiet env s [] (s.setTraffic userId traffic)) :
    (Stage.done (s.setTraffic userId traffic) verdict).Does env event userId s post :=
  ⟨.inl (.single change), .setTraffic rfl, fun removed => by simp [kept] at removed⟩

end Stage

namespace State

theorem openTraffic_does (s : State) (active : Bool) (now instant : Nat) (userId : String) :
    (s.openTraffic active now instant userId).Does env event userId s fun _ => True := by
  unfold openTraffic
  split
  · exact .skip fun _ _ => trivial
  rename_i missing
  split
  · exact .stay (by simp)
  cases cached : s.admin.users.lookup userId with
  | none => exact .stay (by simp)
  | some user =>
    dsimp only
    cases built : newTraffic s.options user now (s.elapsedNanos instant) with
    | error => exact .stay (by simp)
    | ok =>
      have absent : s.traffic.lookup userId = none := by simpa using missing
      exact ⟨.single (.opened absent cached built), .setTraffic rfl, fun _ _ => trivial⟩

theorem checkFailed_does (s : State) (active : Bool) (userId : String) :
    (s.checkFailed active userId).Does env event userId s
      fun traffic => traffic.failed = false := by
  unfold checkFailed
  cases present : s.traffic.lookup userId with
  | none => exact .stay (by simp)
  | some traffic =>
    by_cases failed : traffic.failed
    · have quit : TrafficIs s userId fun traffic => traffic.failed = true ∨ Settled traffic := by
        intro found same
        rw [present, Option.some.injEq] at same
        exact .inl (same ▸ failed)
      simp only [failed, if_true]
      split
      · exact .stay fun _ => quit
      · exact .stay fun _ => quit
    · simp only [failed, Bool.false_eq_true, if_false]
      refine .skip fun found same => ?_
      rw [present, Option.some.injEq] at same
      rw [← same]
      simpa using failed

theorem settleDebit_does (ready : TrafficIs s userId fun traffic => traffic.failed = false) :
    (s.settleDebit userId).Does env event userId s
      fun traffic => traffic.failed = false ∧ traffic.debit = none := by
  unfold settleDebit
  cases present : s.traffic.lookup userId with
  | none => exact .stay (by simp)
  | some traffic =>
    have healthy := ready traffic present
    dsimp only
    cases waiting : traffic.debit with
    | none =>
      refine .skip fun found same => ?_
      rw [present, Option.some.injEq] at same
      exact same ▸ ⟨healthy, waiting⟩
    | some =>
      -- The reply decides: done, not yet, or never.
      dsimp only
      split
      next received =>
        have answered := tryRecv_ok.mp received
        split
        next committed =>
          exact .leave rfl (.stalled present healthy (.credit waiting answered committed))
        next quota committed =>
          exact ⟨.single (.credited present healthy waiting answered committed),
            .setTraffic rfl, TrafficIs.setTraffic (t := s) ⟨healthy, rfl⟩⟩
      next => exact .stay (by simp)
      next undone late =>
        exact .leave rfl (.stalled present healthy (.debit waiting undone late))

theorem settleRefund_does {active : Bool} {now : Nat}
    (ready : TrafficIs s userId fun traffic => traffic.failed = false ∧ traffic.debit = none) :
    (s.settleRefund active now userId).Does env event userId s
      fun traffic => traffic.failed = false ∧ Settled traffic := by
  unfold settleRefund
  cases present : s.traffic.lookup userId with
  | none => exact .stay (by simp)
  | some traffic =>
    obtain ⟨healthy, undebited⟩ := ready traffic present
    dsimp only
    cases waiting : traffic.refund with
    | none =>
      refine .skip fun found same => ?_
      rw [present, Option.some.injEq] at same
      exact same ▸ ⟨healthy, undebited, waiting⟩
    | some =>
      dsimp only
      split
      next received =>
        have answered := tryRecv_ok.mp received
        split
        next committed =>
          exact .leave rfl (.stalled present healthy (.refused waiting answered committed))
        next quota committed =>
          have change : Quiet env s [] _ :=
            .refunded (now + millis s.options.checkpointIntervalMs) present healthy waiting
              answered committed
          split
          · exact ⟨.inl (.single change), .setTraffic rfl,
              fun _ => TrafficIs.setTraffic (t := s) (.inr ⟨undebited, rfl⟩)⟩
          · exact ⟨.single change, .setTraffic rfl,
              TrafficIs.setTraffic (t := s) ⟨healthy, undebited, rfl⟩⟩
      next => exact .stay (by simp)
      next undone late =>
        exact .leave rfl (.stalled present healthy (.refund waiting undone late))

section

variable (ready : TrafficIs s userId fun traffic => traffic.failed = false ∧ Settled traffic)
include ready

/-- Returning unspent credit. -/
theorem requestRefund_does {active : Bool} {now : Nat} :
    (s.requestRefund active now userId).Does env event userId s
      fun traffic => traffic.failed = false ∧ Settled traffic := by
  unfold requestRefund
  cases present : s.traffic.lookup userId with
  | none => exact .stay (by simp)
  | some traffic =>
    obtain ⟨healthy, settled⟩ := ready traffic present
    have given : Quiet env s [] (s.setTraffic userId
        { traffic with quota := traffic.quota.failRefund, failed := true }) :=
      .stalled present healthy (.unasked settled (Nat.zero_le _) rfl)
    dsimp only
    split
    · exact .skip ready
    cases asked : traffic.quota.requestRefund with
    | error =>
      dsimp only
      split
      · refine .stay fun _ found same => ?_
        exact .inr (ready found same).2
      · split
        · exact .leave rfl (.retimed _ present)
        · exact .leave rfl (.stalled present healthy (.unasked settled le_rfl rfl))
    | ok result =>
      obtain ⟨amount, quota⟩ := result
      dsimp only
      split
      · exact .leave rfl given
      next user cached =>
      split
      · exact .leave rfl given
      next charged left =>
      split
      · exact .leave rfl given
      next sent =>
      obtain ⟨rfl, rfl⟩ := put_ok sent
      exact ⟨.inr ⟨s, .refl s, .refunding present healthy settled asked cached left⟩,
        .setTraffic rfl, by simp⟩

theorem requestCredit_does : (s.requestCredit userId).Does env event userId s fun _ => True := by
  unfold requestCredit
  cases present : s.traffic.lookup userId with
  | none => exact .stay (by simp)
  | some traffic =>
    obtain ⟨healthy, settled⟩ := ready traffic present
    have given : Quiet env s [] (s.setTraffic userId
        { traffic with quota := traffic.quota.failCredit, failed := true }) :=
      .stalled present healthy (.unasked settled (Nat.zero_le _) rfl)
    have marked : Quiet env s [] (s.setTraffic userId { traffic with failed := true }) :=
      .stalled present healthy (.unasked settled le_rfl rfl)
    dsimp only
    split
    · exact .stay (by simp)
    cases asked : traffic.quota.requestCredit with
    | error fault => cases fault <;> first | exact .stay (by simp) | exact .leave rfl marked
    | ok result =>
      obtain ⟨amount, quota⟩ := result
      dsimp only
      split
      · exact .leave rfl given
      next user cached =>
      split
      · exact .leave rfl given
      next charged total =>
      split
      · exact .leave rfl given
      next sent =>
      obtain ⟨rfl, rfl⟩ := put_ok sent
      exact ⟨.inr ⟨s, .refl s, .debited present healthy settled asked cached total⟩,
        .setTraffic rfl, by simp⟩

end

theorem quotaTurn_does (s : State) (active : Bool) (now instant : Nat) (userId : String) :
    (s.quotaTurn active now instant userId).Does env event userId s fun _ => True := by
  -- Each part hands what it has settled to the next one.
  refine (openTraffic_does s active now instant userId).andThen fun t _ => ?_
  refine (checkFailed_does t active userId).andThen fun t ready => ?_
  refine (settleDebit_does ready).andThen fun t ready => ?_
  refine (settleRefund_does ready).andThen fun t ready => ?_
  exact (requestRefund_does ready).andThen fun t ready => requestCredit_does ready

theorem quotaTurn_move (s : State) (active : Bool) (now instant : Nat) (userId : String) :
    Move env s (.quotaTurn instant) [] (s.quotaTurn active now instant userId).state ∧
      Others userId s (s.quotaTurn active now instant userId).state ∧
      ((s.quotaTurn active now instant userId).verdict.remove = true →
        TrafficIs (s.quotaTurn active now instant userId).state userId
          fun traffic => traffic.failed = true ∨ Settled traffic) := by
  have does : (s.quotaTurn active now instant userId).Does env (.quotaTurn instant) userId s
      fun _ => True := quotaTurn_does s active now instant userId
  cases reached : s.quotaTurn active now instant userId with
  | next =>
    rw [reached] at does
    exact ⟨.quiet does.1, does.2.1, by simp [Stage.verdict]⟩
  | done =>
    rw [reached] at does
    refine ⟨?_, does.2⟩
    rcases does.1 with quiet | ⟨mid, quiet, loud⟩
    · exact .quiet quiet
    · exact .loud quiet loud (by simp)

theorem requiredAdminRead_cases {key : Key} {kind : ReadKind}
    (required : s.requiredAdminRead request = some (key, kind)) :
    (∃ userId, key = .user userId ∧ kind = .user userId) ∨
      ∃ digest, key = .credential digest ∧ kind = .credential digest := by
  unfold requiredAdminRead at required
  dsimp only at required
  split at required
  · simp only [Option.some.injEq, Prod.mk.injEq] at required
    exact .inl ⟨_, required.1.symm, required.2.symm⟩
  · split at required
    · simp only [Option.some.injEq, Prod.mk.injEq] at required
      exact .inr ⟨_, required.1.symm, required.2.symm⟩
    · simp at required

theorem prepareAdminMutation_ok {prepared : PreparedAdmin}
    (ok : prepareAdminMutation env s input request = .ok prepared) :
    ∃ draft, s.draftMutation env input request = .ok draft ∧
      env.encodeResponse (.mutation draft.revision draft.userId) = some prepared.response ∧
      prepared.mutation = draft.mutation ∧ prepared.changes = draft.changes := by
  unfold prepareAdminMutation at ok
  obtain ⟨draft, drafted, ok⟩ := bind_ok ok
  split at ok
  · cases ok
  next response encoded =>
  cases ok
  exact ⟨draft, drafted, encoded, rfl, rfl⟩

theorem submitMutation_ends {clientId : String} {seq : Nat} (idle : s.pendingControl = none)
    (parsed : ControlRequest.parse env.decodeControl input.request = .ok request)
    (sequenced : request.sequence = some (clientId, seq))
    (loaded : s.requiredAdminRead request = none) :
    Ends env (.control input) s (s.submitMutation env input request clientId seq).2 := by
  unfold submitMutation
  split
  · exact .inl (.refl s)
  · exact .inl (.refl s)
  next requestHash checked =>
  have hashed := AdminSequencer.check_execute checked
  subst hashed
  split
  · exact .inl (.refl s)
  next prepared prepares =>
  obtain ⟨draft, drafted, encoded, mutation, changes⟩ := prepareAdminMutation_ok prepares
  split
  · exact .inl (.refl s)
  next receipt stamped =>
  split
  · exact .inl (.refl s)
  next sent =>
  obtain ⟨rfl, rfl⟩ := apply_ok sent
  rw [mutation, changes]
  exact .inr ⟨s, .refl s, .submitted rfl idle parsed sequenced loaded checked drafted encoded
    stamped⟩

theorem routeRequest_ends (idle : s.pendingControl = none)
    (parsed : ControlRequest.parse env.decodeControl input.request = .ok request) :
    Ends env (.control input) s (s.routeRequest env input request).2 := by
  unfold routeRequest
  split
  next key kind required =>
    split
    · exact .inl (.refl s)
    next sent =>
    obtain ⟨rfl, rfl⟩ := get_ok sent
    rcases requiredAdminRead_cases required with ⟨userId, rfl, rfl⟩ | ⟨digest, rfl, rfl⟩
    · exact .inr ⟨s, .refl s, .askedUser _ userId idle⟩
    · exact .inl (.single (.askedCredential _ digest idle))
  next required =>
    split
    · exact .inl (.refl s)
    next sequenced => exact submitMutation_ends idle parsed sequenced required

theorem startBackup_ends {destination : String} (idle : s.pendingControl = none)
    (parsed : ControlRequest.parse env.decodeControl input.request =
      .ok (.maintenanceBackup destination)) :
    Ends env (.control input) s (s.startBackup input destination).2 := by
  unfold startBackup
  split
  · exact .inl (.refl s)
  next sent =>
  obtain ⟨rfl, rfl⟩ := backup_ok sent
  exact .inl (.single (.backedUp idle parsed))

theorem startControl_ends (input : ControlInput) (idle : s.pendingControl = none) :
    Ends env (.control input) s (s.startControl env input).2 := by
  unfold startControl
  split
  · exact .inl (.refl s)
  split
  · exact .inl (.refl s)
  next parsed => exact startBackup_ends idle parsed
  next parsed => exact routeRequest_ends idle parsed

theorem finishAdminRead_pendingControl (s : State) (kind : ReadKind) (value : Option Value)
    (evict : String) :
    (s.finishAdminRead kind value evict).1.pendingControl = s.pendingControl := by
  cases kind with
  | user =>
    simp only [finishAdminRead, finishUserRead]
    repeat' split
    all_goals rfl
  | credential =>
    simp only [finishAdminRead, finishCredentialRead]
    repeat' split
    all_goals rfl

theorem finishRead_ends {request : Bytes} {kind : ReadKind} {reply : Nat}
    (pending : s.pendingControl = some (.read request kind reply)) :
    Ends env (.control input) s (s.finishRead env input kind reply).2 := by
  have dropped : Path env s [] { s with pendingControl := none } :=
    .single (.gaveUp s.maintenance fun write other => by simp [pending] at other)
  unfold finishRead
  split
  next found received =>
    have answered := tryRecv_ok.mp received
    have loaded : Path env s []
        ({ s with pendingControl := none }.finishAdminRead kind found input.evict).1 := by
      cases kind with
      | user =>
        rw [State.finishAdminRead, State.finishUserRead_eq]
        exact .single (.loadedUser _ pending answered State.finishUserRead_loads)
      | credential =>
        rw [State.finishAdminRead, State.finishCredentialRead_eq]
        exact .single (.loadedCredential _ pending answered
          (State.finishCredentialRead_loads (s := { s with pendingControl := none })))
    have idle := finishAdminRead_pendingControl { s with pendingControl := none } kind found
      input.evict
    dsimp only
    split
    next finished =>
      rw [finished] at loaded
      exact .inl loaded
    next finished =>
      rw [finished] at loaded idle
      exact Ends.after loaded (startControl_ends input idle)
  · exact .inl (.refl s)
  · exact .inl dropped

theorem finishBackup_path {request : Bytes} {destination : String} {reply : Nat}
    (pending : s.pendingControl = some (.backup request destination reply)) :
    Path env s [] (s.finishBackup env destination reply).2 := by
  have dropped : Path env s [] { s with pendingControl := none, maintenance := false } :=
    .single (.gaveUp false fun write other => by simp [pending] at other)
  unfold finishBackup
  split
  · split <;> exact dropped
  · exact .refl s
  · exact dropped

theorem controlObs_plain {result : Except Status Bytes} (none : s.acknowledges input = none) :
    ∀ o ∈ s.controlObs input result, o.plain = true := by
  intro o member
  simp only [controlObs, none, Option.toList_none, map_nil, mem_append,
    Option.mem_toList, Option.map_eq_some_iff, mem_cons, not_mem_nil, or_false] at member
  rcases member with ⟨bytes, _, rfl⟩ | rfl <;> rfl

/-- The reply to an administrative write acknowledges it, gives it up, or is not there yet. -/
theorem finishWrite_move {write : PendingWrite} (pending : s.pendingControl = some (.write write))
    (same : write.request = input.request) :
    Move env s (.control input) (s.controlObs input (s.finishWrite input write).1)
      (s.finishWrite input write).2 := by
  have given (forsaken : Forsaken s write) : Path env s [] { s with pendingControl := none } := by
    refine .single (.gaveUp s.maintenance fun other found => ?_)
    rw [pending, Option.some.injEq, PendingControl.write.injEq] at found
    exact found ▸ forsaken
  have unacknowledged (undone : s.storage.tryRecv write.reply ≠ .ok .done) :
      s.acknowledges input = none := by
    simp [acknowledges, pending, undone]
  unfold finishWrite
  split
  next received =>
    have answered := tryRecv_ok.mp received
    split
    next fault committed =>
      have none : s.acknowledges input = none := by
        simp [acknowledges, pending, committed, Except.isOk, Except.toBool]
      exact Ends.move (.inl (given ⟨by simp [received], fun _ => ⟨fault, committed⟩⟩))
        (controlObs_plain none)
    next sequencer committed =>
      have some : s.acknowledges input = some write := by
        simp [acknowledges, pending, same, received, committed, Except.isOk, Except.toBool]
      have noted : Path env s
          ((input.entropy.map fun bytes => Obs.drew (encodeHex bytes)).toList ++
            [.answered input.request (.ok write.response)]) s := by
        refine Path.notes s fun o member => ?_
        simp only [mem_append, Option.mem_toList, Option.map_eq_some_iff,
          mem_cons, not_mem_nil, or_false] at member
        rcases member with ⟨bytes, _, rfl⟩ | rfl <;> rfl
      have acknowledged : Path env s [.acknowledged write]
          ({ s with pendingControl := none, admin := { s.admin with sequencer } }.applyAdminMutation
            write.mutation input.utc input.evict) := by
        have applied := State.applyAdminMutation_applied
          { s with pendingControl := none, admin := { s.admin with sequencer } } write.mutation
          input.utc input.evict
        rw [State.applyAdminMutation_eq] at applied ⊢
        exact .single (.acknowledged input.utc input.evict _ _ pending answered committed
          { applied with })
      refine .quiet ?_
      simpa [controlObs, some] using noted.trans acknowledged
  next received =>
    exact Ends.move (.inl (.refl s)) (controlObs_plain (unacknowledged (by simp [received])))
  next undone late =>
    exact Ends.move (.inl (given ⟨late, fun done => absurd done undone⟩))
      (controlObs_plain (unacknowledged undone))

theorem acknowledges_cases {write : PendingWrite}
    (acknowledges : s.acknowledges input = some write) :
    s.pendingControl = some (.write write) ∧ ∃ sequencer, s.controlInstance env input =
      (.ok write.response,
        { s with pendingControl := none, admin := { s.admin with sequencer } }.applyAdminMutation
          write.mutation input.utc input.evict) := by
  unfold State.acknowledges at acknowledges
  split at acknowledges
  · next other pending =>
    split at acknowledges
    · next accepted =>
      obtain ⟨same, received, committed⟩ := accepted
      rw [Option.some.injEq] at acknowledges
      subst acknowledges
      refine ⟨pending, ?_⟩
      cases commits : s.admin.sequencer.applyCommit other.clientId other.receipt with
      | error => simp [commits, Except.isOk, Except.toBool] at committed
      | ok sequencer =>
        refine ⟨sequencer, ?_⟩
        simp [controlInstance, pending, PendingControl.request, same, finishWrite, received,
          commits]
    · simp at acknowledges
  · simp at acknowledges

theorem controlInstance_move (s : State) (input : ControlInput) :
    Move env s (.control input) (s.controlObs input (s.controlInstance env input).1)
      (s.controlInstance env input).2 := by
  have unacknowledged (other : ∀ write, s.pendingControl = some (.write write) →
      write.request ≠ input.request) : s.acknowledges input = none := by
    unfold acknowledges
    split
    · next write found => simp [other write found]
    · rfl
  unfold controlInstance
  cases pending : s.pendingControl with
  | none =>
    exact Ends.move (startControl_ends input pending)
      (controlObs_plain (unacknowledged (by simp [pending])))
  | some operation =>
    dsimp only
    by_cases same : operation.request = input.request
    · simp only [same, ne_eq, not_true_eq_false, if_false]
      cases operation with
      | write => exact finishWrite_move pending same
      | read =>
        exact Ends.move (finishRead_ends pending)
          (controlObs_plain (unacknowledged (by simp [pending])))
      | backup =>
        exact Ends.move (.inl (finishBackup_path pending))
          (controlObs_plain (unacknowledged (by simp [pending])))
    · simp only [same, ne_eq, not_false_eq_true, if_true]
      refine Ends.move (.inl (.refl s)) (controlObs_plain (unacknowledged fun write found => ?_))
      rw [pending, Option.some.injEq] at found
      subst found
      exact same

end State

end Snolc.Policy
