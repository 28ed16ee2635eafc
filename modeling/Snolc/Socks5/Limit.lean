import Snolc.Socks5.Associations

/-! The number of flows and the limit on connections. -/

namespace Snolc.Socks5

open State Table ClientConnection

/-- The flows of an instance, streams and datagram flows together. -/
def State.held (s : State) : Nat :=
  s.flows.len + s.udpFlows.len

/-- The connection is about to become a stream. -/
def ClientConnection.connects (client : ClientConnection) : Bool :=
  match client.phase with
  | .ready request => client.output.isEmpty && request.command = .connect
  | _ => false

variable (listeners : Table SocketAddr ListenerGroup)

/-- The streams that a poll is about to open fit beside the flows there are. -/
def State.FitsStreams (instance_ : Nat) (input : PollInput) (s : State) : Prop :=
  let polled := (s.acceptClients listeners instance_ input).2.pollClients input
  s.held + polled.clients.countP ClientConnection.connects ≤ s.options.maxConnections

instance (instance_ : Nat) (input : PollInput)
    (s : State) : Decidable (s.FitsStreams listeners instance_ input) :=
  inferInstanceAs (Decidable (_ ≤ _))

variable {index instance_ : Nat}

section Promotions

variable {env : Env} {input : PollInput} {s : State}

theorem held_promote (connection : ClientConnection) (request : Request) :
    (s.promote env input connection request).held ≤
      s.held + if request.command = .connect then 1 else 0 := by
  have added : ∀ flow, len (s.flows.insert s.nextFlow flow) ≤ s.flows.len + 1 := by
    intro flow
    rw [len_insert]
    have part := len_erase_le s.flows s.nextFlow
    omega
  unfold promote
  split
  · next command =>
    dsimp only
    rw [if_pos command]
    split
    · exact Nat.le_succ _
    split
    · have more := added (.new connection request)
      simp only [held]
      omega
    · exact Nat.le_succ _
  · split
    · split
      · exact Nat.le_add_right _ _
      · split <;> exact Nat.le_add_right _ _
    · exact Nat.le_add_right _ _

theorem clients_promote (connection : ClientConnection) (request : Request) :
    (s.promote env input connection request).clients = s.clients := by
  unfold promote
  split
  · dsimp only
    split
    · rfl
    · split <;> rfl
  · split
    · split
      · rfl
      · split <;> rfl
    · rfl

theorem held_promoteClient {client : ClientConnection}
    (found : s.clients[index]? = some client) (ready : client.ready = true) :
    (s.promoteClient env input index).held +
        (s.promoteClient env input index).clients.countP ClientConnection.connects ≤
      s.held + s.clients.countP ClientConnection.connects := by
  have counted := (Vec.swapRemove_perm found).countP_eq ClientConnection.connects
  unfold ClientConnection.ready at ready
  split at ready
  · next request phase =>
    have opened : (promote env input { s with clients := Vec.swapRemove s.clients index }
        client request).held ≤ s.held + if request.command = .connect then 1 else 0 :=
      held_promote client request
    have connects : client.connects = decide (request.command = .connect) := by
      simp only [connects, phase, ready, Bool.true_and]
    simp only [promoteClient, found, phase, clients_promote]
    rw [counted, List.countP_cons, connects]
    simp only [decide_eq_true_eq]
    omega
  · cases ready

theorem clients_promoteClient {client : ClientConnection}
    (found : s.clients[index]? = some client) :
    (s.promoteClient env input index).clients = Vec.swapRemove s.clients index := by
  simp only [promoteClient, found]
  split
  · exact clients_promote _ _
  · rfl

theorem held_promoteClients :
    (s.promoteClients env input).held ≤ s.held + s.clients.countP ClientConnection.connects := by
  have descending : (Vec.positions ready s.clients).reverse.Pairwise (· > ·) :=
    List.pairwise_reverse.mpr (Vec.positions_ascending _ _)
  have ready : ∀ index ∈ (Vec.positions ready s.clients).reverse,
      ∃ client, s.clients[index]? = some client ∧ client.ready = true :=
    fun index member => Vec.mem_positions.mp (List.mem_reverse.mp member)
  unfold State.promoteClients
  generalize (Vec.positions ClientConnection.ready s.clients).reverse = indices at descending ready
  -- A removal moves only what stands at its place or behind, so the places before it stay.
  induction indices generalizing s with
  | nil => exact Nat.le_add_right _ _
  | cons index indices ih =>
    obtain ⟨lower, descending⟩ := List.pairwise_cons.mp descending
    obtain ⟨client, found, asks⟩ := ready index (by simp)
    refine Nat.le_trans (ih descending fun other member => ?_) (held_promoteClient found asks)
    obtain ⟨client, there, asks⟩ := ready other (by simp [member])
    refine ⟨client, ?_, asks⟩
    rw [clients_promoteClient found,
      Vec.getElem?_swapRemove (List.getElem?_eq_some_iff.mp found).1 (lower other member), there]

end Promotions

section Bounds

variable {env : Env} {input : PollInput} {s t : State}

theorem flows_takeClients (usable : Stream → Bool) (queue : List Stream) :
    (s.takeClients usable queue).2.flows = s.flows := by
  induction queue generalizing s with
  | nil => rfl
  | cons stream queue ih =>
    unfold takeClients
    split
    · rw [ih]
      split <;> rfl
    · rfl

theorem flows_acceptClients (instance_ : Nat) :
    (s.acceptClients listeners instance_ input).2.flows = s.flows := by
  unfold acceptClients
  split
  · rfl
  dsimp only
  split
  · rfl
  · exact flows_takeClients _ _

theorem held_pollFlows : (s.pollFlows input).held ≤ s.held := by
  have fewer : (s.pollFlows input).flows.len ≤ s.flows.len := by
    refine len_le fun handle => ?_
    simp only [pollFlows, lookup_mapValues, lookup_retain]
    cases s.flows.lookup handle <;> simp
  exact Nat.add_le_add_right fewer s.udpFlows.len

theorem held_pollUdpFlows : (s.pollUdpFlows input).held ≤ s.held := by
  have fewer : (s.pollUdpFlows input).udpFlows.len ≤ s.udpFlows.len := by
    refine len_le fun handle live => ?_
    obtain ⟨flow, there, _⟩ := lookup_pollUdpFlows.mp live
    simp [there]
  exact Nat.add_le_add_left fewer s.flows.len

/-- The flows of an instance are no more than its options allow. -/
def State.WithinLimit (s : State) : Prop :=
  s.held ≤ s.options.maxConnections

theorem prepare_withinLimit {listeners : Table SocketAddr ListenerGroup}
    (fits : s.FitsStreams listeners instance_ input) :
    (s.prepare env listeners instance_ input).WithinLimit := by
  have prepared : Prepared s (s.prepare env listeners instance_ input) := prepare_prepared _ _
  have polled :
      ((s.acceptClients listeners instance_ input).2.pollClients input).held = s.held := by
    simp only [held, pollClients, flows_acceptClients,
      (acceptClients_prepared listeners instance_ input s).udpFlows]
  unfold State.WithinLimit
  rw [prepared.options]
  calc (s.prepare env listeners instance_ input).held
    _ ≤ (((s.acceptClients listeners instance_ input).2.pollClients input).promoteClients env
          input).held := held_pollFlows
    _ ≤ _ := held_promoteClients
    _ ≤ s.options.maxConnections := by rw [polled]; exact fits

theorem Delivery.withinLimit {packet : Packet} (delivery : Delivery s packet t)
    (within : s.WithinLimit) : t.WithinLimit := by
  cases delivery with
  | dropped | forgotten => exact within
  | @refilled association handle flow found served live =>
    have same : s.udpFlows.len = len (s.udpFlows.erase handle) + 1 :=
      len_erase (by simp [live])
    simp only [State.WithinLimit, held, len_insert] at within ⊢
    omega
  | opened =>
    have part := len_erase_le s.udpFlows s.nextFlow
    simp only [State.WithinLimit, held, len_insert]
    omega

theorem deliver_withinLimit (packets : List Packet) (within : s.WithinLimit) :
    (packets.foldl (State.deliver input) s).WithinLimit := by
  induction packets generalizing s with
  | nil => exact within
  | cons packet packets ih => exact ih ((deliver_delivery input s packet).withinLimit within)

theorem pollUdpAssociations_withinLimit (within : s.WithinLimit) :
    (s.pollUdpAssociations input).WithinLimit := by
  have delivered : (s.afterPackets input).WithinLimit := deliver_withinLimit _ within
  have polled : ((s.afterPackets input).pollUdpFlows input).WithinLimit :=
    Nat.le_trans held_pollUdpFlows delivered
  rw [pollUdpAssociations_eq]
  exact polled

theorem poll_withinLimit {listeners : Table SocketAddr ListenerGroup}
    (fits : s.FitsStreams listeners instance_ input) :
    (s.poll env listeners instance_ input).2.WithinLimit := by
  rw [poll_eq]
  exact pollUdpAssociations_withinLimit (prepare_withinLimit fits)

theorem Kept.withinLimit (kept : Kept s t) (within : s.WithinLimit) : t.WithinLimit := by
  have streams := len_le kept.flows
  have datagrams := len_le kept.udpFlows
  simp only [State.WithinLimit, held, kept.options] at within ⊢
  omega

end Bounds

/-- The streams that the poll of a call opens fit beside the flows there are. -/
def World.FitsStreams (world : World) (call : Call) : Prop :=
  match call.polls with
  | none => True
  | some (instance_, input) =>
    match world.instances.lookup instance_ with
    | none => True
    | some s => s.FitsStreams world.listeners instance_ input

instance (world : World) (call : Call) : Decidable (world.FitsStreams call) := by
  unfold World.FitsStreams
  rcases call.polls with _ | ⟨instance_, input⟩
  · exact instDecidableTrue
  dsimp only
  rcases world.instances.lookup instance_ with _ | s
  · exact instDecidableTrue
  · exact inferInstanceAs (Decidable (s.FitsStreams _ _ _))

theorem World.step_withinLimit {env : Env} {world : World} {call : Call}
    (within : world.instances.All fun _ s => s.WithinLimit) (fits : world.FitsStreams call) :
    (world.step env call).1.instances.All fun _ s => s.WithinLimit := by
  intro instance_ t found
  cases World.step_turn found with
  | kept found kept => exact kept.withinLimit (within instance_ _ found)
  | started begins =>
    subst begins
    exact Nat.zero_le _
  | @polled s input found polls kept =>
    have streams : s.FitsStreams world.listeners instance_ input := by
      simpa only [World.FitsStreams, polls, found] using fits
    exact kept.withinLimit (poll_withinLimit streams)

/--
Streams and datagram flows together stay within the limit on connections, as long as no poll turns
more clients into streams than there is room for.
-/
theorem flows_le_maxConnections {env : Env} {history : List Obs} {world : World}
    (run : (machine env).Run Fresh (fun _ world call => world.FitsStreams call) history world) :
    world.instances.All fun _ s =>
      s.flows.len + s.udpFlows.len ≤ s.options.maxConnections := by
  refine run.stateInvariant (fun world => world.instances.All fun _ s => s.WithinLimit) ?_ ?_
  · rintro world rfl
    exact .empty
  · intro history world call within fits
    exact World.step_withinLimit within fits

open Exchange

/-- A client connects and says nothing yet. -/
def waits (stream : Stream) (input : PollInput) : PollInput :=
  { input with arrivals := [stream] }

/-- A client that is there already asks for a stream. -/
def requests (stream : Stream) : PollInput :=
  { asks stream 1 80 with arrivals := [] }

/-- A datagram flow beside a stream. -/
def mixed : List Call :=
  relay ++ [.poll 1 (waits 11 silence), .poll 1 (requests 11)]

/-- One datagram flow and one stream fill a limit of two. -/
theorem flows_le_maxConnections_mixed :
    (machine env).Run Fresh (fun _ world call => world.FitsStreams call) (reached mixed).1
        (reached mixed).2 ∧
      (reached mixed).2.instances.All fun _ s =>
        s.flows.len + s.udpFlows.len ≤ s.options.maxConnections := by
  have run : (machine env).Run Fresh (fun _ world call => world.FitsStreams call)
      (reached mixed).1 (reached mixed).2 :=
    reached_run (by decide +kernel)
  exact ⟨run, flows_le_maxConnections run⟩

/-- A client waits while datagrams to two destinations take up the room it needs. -/
def overtaken : List Call :=
  relay ++ [.poll 1 (waits 11 (sends 54)), .poll 1 (requests 11)]

/-- A client that becomes a stream late is one flow too many. -/
theorem flows_exceed_maxConnections :
    (machine env).Run Fresh (fun _ _ _ => True) (reached overtaken).1 (reached overtaken).2 ∧
      ¬ (reached overtaken).2.instances.All fun _ s =>
        s.flows.len + s.udpFlows.len ≤ s.options.maxConnections := by
  refine ⟨reached_run (by decide +kernel), ?_⟩
  decide +kernel

end Snolc.Socks5
