import Snolc.Lib.Table

/-! The dummy policy: one poll of an instance sweeps its stream flows, then its datagram flows. -/

namespace Snolc.Dummy

inductive Status
  | pending
  | io
  deriving DecidableEq, Repr

/-- What a pump, a library function, answers to one call. -/
inductive Pumped
  | report (finished : Bool)
  | failed
  | pending
  deriving DecidableEq, Repr

/-- What one poll of a flow reports: whether each way is finished, an error, or nothing yet. -/
inductive FlowPoll
  | report (upload download : Bool)
  | failed
  | pending
  deriving DecidableEq, Repr

/-- Poll both pumps of a flow; the source has the same body for streams and for datagrams. -/
def pollFlow (upload download : Pumped) : FlowPoll :=
  match upload, download with
  | .report upload, .report download => .report upload download
  | .failed, _ => .failed
  | _, .failed => .failed
  | _, _ => .pending

/-- A flow between a socket of the stack and a stream of the mux, both known by numbers. -/
structure DummyFlow where
  stack : Nat
  mux : Nat
  deriving DecidableEq, Repr

structure State where
  flows : Table Nat DummyFlow := ∅
  datagramFlows : Table Nat DummyFlow := ∅
  deriving DecidableEq

/-- What the pumps of each flow answer during one sweep over a table, and the order of the sweep. -/
structure Answers where
  order : List Nat
  upload : Nat → Pumped
  download : Nat → Pumped

/-- What the poll of a flow reports. -/
def Answers.poll (answers : Answers) (handle : Nat) : FlowPoll :=
  pollFlow (answers.upload handle) (answers.download handle)

/--
Poll flows one after another and collect those that are finished.

The first flow that fails ends the sweep, and what was collected is lost.
-/
def sweep (answers : Answers) : List Nat → List Nat → List Nat × Option (List Nat)
  | [], finished => ([], some finished)
  | handle :: handles, finished =>
    match answers.poll handle with
    | .report upload download =>
      let (polled, result) := sweep answers handles
        (if upload && download then finished ++ [handle] else finished)
      (handle :: polled, result)
    | .failed => ([handle], none)
    | .pending =>
      let (polled, result) := sweep answers handles finished
      (handle :: polled, result)

/-- The flows that were polled, and the table without those that are finished; none on an error. -/
def pollTable (table : Table Nat DummyFlow) (answers : Answers) :
    List Nat × Option (Table Nat DummyFlow) :=
  let (polled, result) := sweep answers (Table.visit answers.order table.keys) []
  (polled, result.map fun finished => finished.foldl (fun table handle => table.erase handle) table)

/-- What one poll of an instance leaves behind. -/
structure Outcome where
  status : Status
  state : State
  polled : List Nat
  polledDatagrams : List Nat
  deriving DecidableEq

/-- Sweep the stream flows, then the datagram flows. -/
def pollInstance (state : State) (streams datagrams : Answers) : Outcome :=
  match pollTable state.flows streams with
  | (polled, none) => ⟨.io, state, polled, []⟩
  | (polled, some flows) =>
    let state := { state with flows }
    match pollTable state.datagramFlows datagrams with
    | (polledDatagrams, none) => ⟨.io, state, polled, polledDatagrams⟩
    | (polledDatagrams, some datagramFlows) =>
      ⟨.pending, { state with datagramFlows }, polled, polledDatagrams⟩

/-- The flow is finished both ways. -/
def Answers.finishes (answers : Answers) (handle : Nat) : Bool :=
  answers.poll handle = .report true true

/-- No flow of the table fails. -/
def Answers.Healthy (answers : Answers) (table : Table Nat DummyFlow) : Prop :=
  ∀ handle ∈ table.keys, answers.poll handle ≠ .failed

instance (answers : Answers) (table : Table Nat DummyFlow) : Decidable (answers.Healthy table) :=
  inferInstanceAs (Decidable (∀ handle ∈ table.keys, answers.poll handle ≠ .failed))

/-- The flow is finished both ways, or fails. -/
def Answers.ends (answers : Answers) (handle : Nat) : Bool :=
  answers.finishes handle || answers.poll handle = .failed

/-- Every flow of a table was polled once, and those that ended are the ones no longer there. -/
def Answers.Served (answers : Answers) (table : Table Nat DummyFlow) (polled : List Nat)
    (left : Table Nat DummyFlow) : Prop :=
  polled.Perm table.keys ∧
    ∀ handle, left.lookup handle = if answers.ends handle then none else table.lookup handle

/-- Without a flow that fails, a sweep visits all flows and collects the finished ones. -/
theorem sweep_healthy {answers : Answers} {handles : List Nat}
    (healthy : ∀ handle ∈ handles, answers.poll handle ≠ .failed) (finished : List Nat) :
    sweep answers handles finished =
      (handles, some (finished ++ handles.filter answers.finishes)) := by
  induction handles generalizing finished with
  | nil => simp [sweep]
  | cons handle handles ih =>
    obtain ⟨fine, others⟩ := List.forall_mem_cons.mp healthy
    unfold sweep
    cases polled : answers.poll handle with
    | report upload download =>
      cases upload <;> cases download <;> simp [ih others, Answers.finishes, polled]
    | failed => exact absurd polled fine
    | pending => simp [ih others, Answers.finishes, polled]

/-- A flow that fails ends the sweep with nothing, wherever in it the flow is visited. -/
theorem sweep_broken {answers : Answers} {handles : List Nat} {handle : Nat}
    (member : handle ∈ handles) (failed : answers.poll handle = .failed) (finished : List Nat) :
    (sweep answers handles finished).2 = none := by
  induction handles generalizing finished with
  | nil => cases member
  | cons first handles ih =>
    rcases List.mem_cons.mp member with rfl | member
    · rw [sweep, failed]
    -- The flow before it either ends the sweep itself or leaves the rest of it as it was.
    · unfold sweep
      cases answers.poll first with
      | report upload download => exact ih member _
      | failed => rfl
      | pending => exact ih member _

/-- What is left of a table is what was not collected. -/
theorem lookup_foldl_erase (table : Table Nat DummyFlow) (handles : List Nat) (handle : Nat) :
    (handles.foldl (fun table handle => table.erase handle) table).lookup handle =
      if handle ∈ handles then none else table.lookup handle := by
  induction handles generalizing table with
  | nil => simp
  | cons first handles ih =>
    rw [List.foldl_cons, ih, Table.lookup_erase_eq]
    by_cases same : handle = first <;> simp [same]

/-- A table without a flow that fails is served, in whatever order it is swept. -/
theorem pollTable_healthy {table : Table Nat DummyFlow} {answers : Answers}
    (healthy : answers.Healthy table) :
    ∃ polled left, pollTable table answers = (polled, some left) ∧
      answers.Served table polled left := by
  have fine : ∀ handle ∈ Table.visit answers.order table.keys, answers.poll handle ≠ .failed :=
    fun handle member => healthy handle (Table.mem_visit.mp member)
  refine ⟨_, _, by rw [pollTable, sweep_healthy fine]; rfl, ?_, fun handle => ?_⟩
  · refine (List.perm_ext_iff_of_nodup (Table.nodup_visit table.keys_nodup) table.keys_nodup).mpr ?_
    exact fun handle => Table.mem_visit
  · rw [List.nil_append, lookup_foldl_erase]
    simp only [List.mem_filter, Table.mem_visit, Answers.ends]
    by_cases known : handle ∈ table.keys
    · simp [known, healthy handle known]
    · have absent : table.lookup handle = none := AList.lookup_eq_none.mpr known
      simp [absent]

/-- A table with a flow that fails is given up, and so it is not served. -/
theorem pollTable_broken {table : Table Nat DummyFlow} {answers : Answers}
    (broken : ¬ answers.Healthy table) :
    ∃ polled, pollTable table answers = (polled, none) ∧ ¬ answers.Served table polled table := by
  obtain ⟨handle, member, failed⟩ : ∃ handle ∈ table.keys, answers.poll handle = .failed := by
    simpa [Answers.Healthy] using broken
  have visited : handle ∈ Table.visit answers.order table.keys := Table.mem_visit.mpr member
  have stopped := sweep_broken visited failed []
  refine ⟨_, Prod.ext rfl (congrArg (Option.map _) stopped), fun served => ?_⟩
  -- The flow that failed is still there.
  have gone := served.2 handle
  rw [if_pos (by simp [Answers.ends, failed])] at gone
  exact AList.lookup_eq_none.mp gone member

/--
A poll serves both tables exactly when no flow in them fails, and then it ends without an error.
What is polled and what is left does not depend on the order in which the tables are swept.
-/
theorem pollInstance_healthy (state : State) (streams datagrams : Answers) :
    let outcome := pollInstance state streams datagrams
    let healthy := streams.Healthy state.flows ∧ datagrams.Healthy state.datagramFlows
    (streams.Served state.flows outcome.polled outcome.state.flows ∧
      datagrams.Served state.datagramFlows outcome.polledDatagrams outcome.state.datagramFlows ↔
        healthy) ∧ (outcome.status = .pending ↔ healthy) := by
  by_cases healthy : streams.Healthy state.flows
  · obtain ⟨polled, flows, swept, served⟩ := pollTable_healthy healthy
    by_cases others : datagrams.Healthy state.datagramFlows
    · obtain ⟨polled', datagramFlows, swept', served'⟩ := pollTable_healthy others
      simp [pollInstance, swept, swept', healthy, others, served, served']
    · obtain ⟨polled', swept', unserved⟩ := pollTable_broken others
      simp [pollInstance, swept, swept', others, unserved]
  · obtain ⟨polled, swept, unserved⟩ := pollTable_broken healthy
    simp [pollInstance, swept, healthy, unserved]

/-- Two stream flows, of which the second is finished. -/
def pair : State where
  flows := ((∅ : Table Nat DummyFlow).insert 1 ⟨10, 20⟩).insert 2 ⟨11, 21⟩

/-- What the pumps answer where the first flow gives one answer and the second is finished. -/
def answering (first : Pumped) : Answers :=
  ⟨[1, 2], fun handle => if handle = 1 then first else .report true, fun _ => .report true⟩

/-- The flow that waits is left, the other one is removed. -/
theorem pollInstance_healthy_pair :
    let outcome := pollInstance pair (answering .pending) (answering .pending)
    outcome.status = .pending ∧ outcome.polled.Perm pair.flows.keys ∧
      outcome.state.flows.keys = [1] := by
  obtain ⟨served, ended⟩ := pollInstance_healthy pair (answering .pending) (answering .pending)
  have healthy : (answering .pending).Healthy pair.flows ∧
    (answering .pending).Healthy pair.datagramFlows := by decide +kernel
  exact ⟨ended.mpr healthy, (served.mpr healthy).1.1, by decide +kernel⟩

/--
A flow that fails stops the sweep.
The second flow is finished but is not polled, and both flows are left in the table.
-/
theorem pollInstance_stops :
    (pollInstance pair (answering .failed) (answering .pending)).status = .io ∧
      (pollInstance pair (answering .failed) (answering .pending)).polled = [1] ∧
      (pollInstance pair (answering .failed) (answering .pending)).state = pair :=
  ⟨by decide +kernel, by decide +kernel, rfl⟩

end Snolc.Dummy
