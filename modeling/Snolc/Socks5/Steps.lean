import Snolc.Socks5.State

/-! What a call can do to an instance: the stages of a poll and the changes of the other calls. -/

namespace Snolc.Socks5

open State Option Table World UdpAssociation

/-- A flow with this handle was opened for a destination of the association. -/
def UdpAssociation.serves (association : UdpAssociation) (handle : Nat) : Bool :=
  handle ∈ association.destinations.values

variable {handle instance_ other : Nat}

theorem UdpAssociation.serves_iff {association : UdpAssociation} :
    association.serves handle = true ↔
      ∃ key, association.destinations.lookup key = some handle := by
  rw [serves, decide_eq_true_eq, mem_values]

@[simp] theorem UdpAssociation.poll_destinations (input : PollInput)
    (association : UdpAssociation) :
    (association.poll input).2.destinations = association.destinations := by
  -- Only the control connection and the address of the client change.
  have received : ∀ (other : UdpAssociation) (arrival : Arrival),
      (other.receive arrival).2.destinations = other.destinations := by
    intro other arrival
    unfold receive
    split
    · split
      · rfl
      · dsimp only
        split <;> rfl
    · rfl
    · rfl
  unfold poll
  split
  · rfl
  dsimp only
  split
  · rfl
  · rfl
  · exact received _ _
  · exact received _ _

/-- The stages of a poll before the associations: clients come and go, and some get flows. -/
structure Prepared (s t : State) : Prop where
  udpFlows : t.udpFlows = s.udpFlows
  options : t.options = s.options
  nextFlow : s.nextFlow ≤ t.nextFlow
  associations : ∃ added, t.associations = s.associations ++ added ∧
    ∀ association ∈ added, association.destinations = ∅

namespace Prepared

variable {s mid t : State}

theorem same (udpFlows : t.udpFlows = s.udpFlows) (options : t.options = s.options)
    (nextFlow : s.nextFlow ≤ t.nextFlow) (associations : t.associations = s.associations) :
    Prepared s t :=
  ⟨udpFlows, options, nextFlow, [], by simp [associations]⟩

theorem refl (s : State) : Prepared s s :=
  .same rfl rfl (Nat.le_refl _) rfl

theorem trans (first : Prepared s mid) (second : Prepared mid t) : Prepared s t := by
  obtain ⟨added, reached, empty⟩ := first.associations
  obtain ⟨more, further, vacant⟩ := second.associations
  refine ⟨second.udpFlows.trans first.udpFlows, second.options.trans first.options,
    Nat.le_trans first.nextFlow second.nextFlow, added ++ more, ?_, ?_⟩
  · rw [further, reached, List.append_assoc]
  · intro association member
    rcases List.mem_append.mp member with earlier | later
    · exact empty association earlier
    · exact vacant association later

end Prepared

section Stages

variable {env : Env} {input : PollInput} {s : State}

theorem takeClients_prepared (usable : Stream → Bool) (queue : List Stream) (s : State) :
    Prepared s (s.takeClients usable queue).2 := by
  induction queue generalizing s with
  | nil => exact .refl s
  | cons stream queue ih =>
    unfold takeClients
    split
    · refine .trans ?_ (ih _)
      split <;> exact .same rfl rfl (Nat.le_refl _) rfl
    · exact .refl s

variable (listeners : Table SocketAddr ListenerGroup)

theorem acceptClients_prepared (instance_ : Nat) (input : PollInput) (s : State) :
    Prepared s (s.acceptClients listeners instance_ input).2 := by
  unfold acceptClients
  split
  · exact .refl s
  dsimp only
  split
  · exact .refl s
  · exact takeClients_prepared _ _ s

theorem promote_prepared (connection : ClientConnection) (request : Request) :
    Prepared s (s.promote env input connection request) := by
  unfold promote
  split
  · dsimp only
    split
    · exact .refl s
    next next sum =>
    have later := checkedAdd_eq_some sum
    split <;> exact .same rfl rfl (by dsimp only; omega) rfl
  · split
    · split
      · exact .refl s
      · split
        · exact .refl s
        · exact ⟨rfl, rfl, Nat.le_refl _, _, rfl, by simp⟩
    · exact .refl s

theorem promoteClient_prepared (index : Nat) : Prepared s (s.promoteClient env input index) := by
  unfold promoteClient
  split
  · exact .refl s
  dsimp only
  split
  · exact .trans (.same rfl rfl (Nat.le_refl _) rfl : Prepared s
      { s with clients := Vec.swapRemove s.clients index }) (promote_prepared _ _)
  · exact .same rfl rfl (Nat.le_refl _) rfl

theorem promoteClients_prepared : Prepared s (s.promoteClients env input) := by
  unfold promoteClients
  generalize (Vec.positions ClientConnection.ready s.clients).reverse = indices
  induction indices generalizing s with
  | nil => exact .refl s
  | cons index indices ih => exact .trans (promoteClient_prepared index) ih

/-- The state of an instance when its associations are polled. -/
def State.prepare (env : Env) (listeners : Table SocketAddr ListenerGroup) (instance_ : Nat)
    (input : PollInput) (s : State) : State :=
  ((((s.acceptClients listeners instance_ input).2.pollClients input).promoteClients env
    input).dropFailed).pollFlows input

theorem State.poll_eq (instance_ : Nat) : (s.poll env listeners instance_ input).2 =
      (s.prepare env listeners instance_ input).pollUdpAssociations input := by
  rfl

theorem prepare_prepared (instance_ : Nat) :
    Prepared s (s.prepare env listeners instance_ input) := by
  have accepted := acceptClients_prepared listeners instance_ input s
  have polled : Prepared (s.acceptClients listeners instance_ input).2
      ((s.acceptClients listeners instance_ input).2.pollClients input) :=
    .same rfl rfl (Nat.le_refl _) rfl
  have promoted : Prepared ((s.acceptClients listeners instance_ input).2.pollClients input)
      (((s.acceptClients listeners instance_ input).2.pollClients input).promoteClients env
        input) :=
    promoteClients_prepared
  exact ((accepted.trans polled).trans promoted).trans (.same rfl rfl (Nat.le_refl _) rfl)

end Stages

/-- What becomes of a datagram. -/
inductive Delivery (s : State) (packet : Packet) : State → Prop
  | dropped : Delivery s packet s
  | refilled {association : UdpAssociation} {handle : Nat} {flow : UdpClientFlow}
      (found : s.associations[packet.index]? = some association)
      (served : association.serves handle = true)
      (live : s.udpFlows.lookup handle = some flow) (later : UdpClientFlow) :
      Delivery s packet { s with udpFlows := s.udpFlows.insert handle later }
  | forgotten {association : UdpAssociation}
      (found : s.associations[packet.index]? = some association)
      (stale : ∀ handle, association.destinations.lookup
        (packet.packet.address, packet.packet.port) = some handle →
          s.udpFlows.lookup handle = none) :
      Delivery s packet
        (s.setDestinations packet.index (·.erase (packet.packet.address, packet.packet.port)))
  | opened {association : UdpAssociation}
      (found : s.associations[packet.index]? = some association)
      (stale : ∀ handle, association.destinations.lookup
        (packet.packet.address, packet.packet.port) = some handle →
          s.udpFlows.lookup handle = none)
      (room : s.flows.len + s.udpFlows.len < s.options.maxConnections) (flow : UdpClientFlow) :
      Delivery s packet
        { s with
          associations := (s.setDestinations packet.index fun destinations =>
            (destinations.erase (packet.packet.address, packet.packet.port)).insert
              (packet.packet.address, packet.packet.port) s.nextFlow).associations
          nextFlow := s.nextFlow + 1
          udpFlows := s.udpFlows.insert s.nextFlow flow }

theorem State.setDestinations_twice (s : State) (index : Nat)
    (first second : Table (Address × UInt16) Nat → Table (Address × UInt16) Nat) :
    (s.setDestinations index first).setDestinations index second =
      s.setDestinations index fun destinations => second (first destinations) := by
  simp only [setDestinations, List.modify_modify_eq]
  rfl

theorem deliver_delivery (input : PollInput) (s : State) (packet : Packet) :
    Delivery s packet (s.deliver input packet) := by
  unfold deliver
  cases found : s.associations[packet.index]? with
  | none => exact .dropped
  | some association =>
    dsimp only
    split
    · next handle flow existing =>
      -- The destination has a flow that is still there.
      obtain ⟨served, known, present⟩ := bind_eq_some_iff.mp existing
      obtain ⟨live, there, same⟩ := map_eq_some_iff.mp present
      cases same
      split
      · exact .refilled found (serves_iff.mpr ⟨_, known⟩) there _
      · exact .dropped
    · next missing =>
      have stale : ∀ handle, association.destinations.lookup
          (packet.packet.address, packet.packet.port) = some handle →
            s.udpFlows.lookup handle = none := by
        intro handle known
        simpa [known] using missing
      unfold openUdpFlow
      dsimp only
      split
      · exact .forgotten found stale
      next room =>
      split
      · exact .forgotten found stale
      next next sum =>
      split
      · have later : next = s.nextFlow + 1 := checkedAdd_eq_some sum
        subst later
        have opened := Delivery.opened found stale (Nat.lt_of_not_le room)
          { socket := association.socket
            client := packet.source
            address := packet.packet.address
            port := packet.packet.port
            pendingUpload := some packet.packet.payload }
        rw [← setDestinations_twice s packet.index
          (·.erase (packet.packet.address, packet.packet.port))
          (·.insert (packet.packet.address, packet.packet.port) s.nextFlow)] at opened
        exact opened
      · exact .forgotten found stale

/-- A call that opens no flow: associations and the counter stay, and flows may go. -/
structure Kept (s t : State) : Prop where
  options : t.options = s.options
  associations : t.associations = s.associations
  nextFlow : t.nextFlow = s.nextFlow
  flows : ∀ handle, t.flows.lookup handle ≠ none → s.flows.lookup handle ≠ none
  udpFlows : ∀ handle, t.udpFlows.lookup handle ≠ none → s.udpFlows.lookup handle ≠ none

namespace Kept

variable {s : State}

theorem refl (s : State) : Kept s s :=
  ⟨rfl, rfl, rfl, fun _ found => found, fun _ found => found⟩

theorem putFlow {flow : ClientFlow} (found : s.flows.lookup handle = some flow)
    (later : ClientFlow) : Kept s { s with flows := s.flows.insert handle later } := by
  refine ⟨rfl, rfl, rfl, fun other => ?_, fun _ found => found⟩
  rw [lookup_insert_eq]
  split
  · next same => subst same; simp [found]
  · exact id

theorem putUdpFlow {flow : UdpClientFlow}
    (found : s.udpFlows.lookup handle = some flow) (later : UdpClientFlow) :
    Kept s { s with udpFlows := s.udpFlows.insert handle later } := by
  refine ⟨rfl, rfl, rfl, fun _ found => found, fun other => ?_⟩
  rw [lookup_insert_eq]
  split
  · next same => subst same; simp [found]
  · exact id

end Kept

section Calls

variable {s t : State} {announced : Nat × FlowMetadata}

theorem announceFlow_kept {order : List Nat}
    (step : s.announceFlow order = some (announced, t)) : Kept s t := by
  unfold announceFlow at step
  simp only [bind_eq_bind, bind_eq_some_iff, pure_def,
    Option.some.injEq, Prod.mk.injEq] at step
  obtain ⟨handle, _, flow, found, _, rfl⟩ := step
  exact .putFlow found _

theorem announceUdpFlow_kept {order : List Nat}
    (step : s.announceUdpFlow order = some (announced, t)) : Kept s t := by
  unfold announceUdpFlow at step
  simp only [bind_eq_bind, bind_eq_some_iff, pure_def,
    Option.some.injEq, Prod.mk.injEq] at step
  obtain ⟨handle, _, flow, found, _, rfl⟩ := step
  exact .putUdpFlow found _

theorem attach_kept (flow stackSocket : Nat) (valid : Bool) :
    Kept s (s.attach flow stackSocket valid).2 := by
  unfold State.attach
  split
  · exact .refl s
  next entry found =>
  split
  · exact .refl s
  · exact .putFlow found _

theorem attachDatagram_kept (flow stackSocket : Nat) (valid : Bool) :
    Kept s (s.attachDatagram flow stackSocket valid).2 := by
  unfold attachDatagram
  split
  · exact .refl s
  next entry found =>
  split
  · exact .refl s
  · exact .putUdpFlow found _

theorem complete_kept (flow : Nat) (status : Status) : Kept s (s.complete flow status).2 := by
  unfold complete
  split
  · next entry found => exact .putFlow found _
  split
  · next entry found => exact .putUdpFlow found _
  · exact .refl s

theorem closeFlow_kept (flow : Nat) : Kept s (s.closeFlow flow).2 := by
  refine ⟨rfl, rfl, rfl, fun handle => ?_, fun handle => ?_⟩
  all_goals
    simp only [closeFlow, lookup_erase_eq]
    split <;> simp

end Calls

def Call.polls : Call → Option (Nat × PollInput)
  | .accept instance_ input _ _ => some (instance_, input)
  | .poll instance_ input => some (instance_, input)
  | _ => none

/-- How the state of an instance comes out of a call. -/
inductive Turn (env : Env) (world : World) (call : Call) (instance_ : Nat) (t : State) : Prop
  | kept {s : State} (found : world.instances.lookup instance_ = some s) (kept : Kept s t)
  | started {listen : SocketAddr} {options : Options} (begins : t = { listen, options })
  | polled {s : State} {input : PollInput} (found : world.instances.lookup instance_ = some s)
      (polls : call.polls = some (instance_, input))
      (kept : Kept (s.poll env world.listeners instance_ input).2 t)

section Turns

variable {env : Env} {world : World} {call : Call} {t : State}

theorem turn_setInstance {s : State} {listeners : Table SocketAddr ListenerGroup}
    (found : ({ world with listeners }.setInstance instance_ s).instances.lookup other = some t)
    (turn : Turn env world call instance_ s) : Turn env world call other t := by
  rcases of_lookup_insert found with ⟨rfl, rfl⟩ | ⟨_, old⟩
  · exact turn
  · exact .kept old (.refl t)

theorem turn_withInstance {change : State → Status × State} (keeps : ∀ s, Kept s (change s).2)
    (found : (world.withInstance instance_ change).1.instances.lookup other = some t) :
    Turn env world call other t := by
  unfold withInstance at found
  split at found
  · exact .kept found (.refl t)
  · next s here => exact turn_setInstance found (.kept here (keeps s))

theorem shutdownInstance_lookup {stopped : Nat}
    (found : (world.shutdownInstance stopped).1.instances.lookup instance_ = some t) :
    world.instances.lookup instance_ = some t := by
  have listeners : ∀ (other : World) address,
      (other.unregisterListener stopped address).instances = other.instances := by
    intro other address
    unfold unregisterListener
    split <;> rfl
  unfold shutdownInstance at found
  split at found
  · exact found
  rw [listeners, lookup_erase_eq] at found
  split at found
  · cases found
  · exact found

/-- Every call gives each instance one turn. -/
theorem World.step_turn (found : (world.step env call).1.instances.lookup instance_ = some t) :
    Turn env world call instance_ t := by
  cases call with
  | initialize_ =>
    simp only [step, initializeInstance] at found
    split at found
    · split at found
      · exact .kept found (.refl t)
      · split at found
        · exact .kept found (.refl t)
        · rcases of_lookup_insert found with ⟨_, rfl⟩ | ⟨_, old⟩
          · exact .started rfl
          · exact .kept old (.refl t)
    · exact .kept found (.refl t)
  | accept =>
    simp only [step, accept] at found
    split at found
    · exact .kept found (.refl t)
    next s here =>
    split at found
    · next step =>
      exact turn_setInstance found (.polled here rfl (announceFlow_kept step))
    · split at found
      · next step =>
        exact turn_setInstance found (.polled here rfl (announceUdpFlow_kept step))
      · exact turn_setInstance found (.polled here rfl (.refl _))
  | attach at_ flow stackSocket valid =>
    simp only [step] at found
    split at found
    · exact .kept found (.refl t)
    · exact turn_withInstance (fun s => attach_kept flow stackSocket valid) found
  | attachDatagram at_ flow stackSocket valid =>
    simp only [step] at found
    split at found
    · exact .kept found (.refl t)
    · exact turn_withInstance (fun s => attachDatagram_kept flow stackSocket valid) found
  | complete at_ flow status =>
    simp only [step] at found
    split at found
    · exact .kept found (.refl t)
    · exact turn_withInstance (fun s => complete_kept flow status) found
  | closeFlow at_ flow =>
    simp only [step] at found
    split at found
    · exact .kept found (.refl t)
    · exact turn_withInstance (fun s => closeFlow_kept flow) found
  | poll =>
    simp only [step, pollInstance] at found
    split at found
    · exact .kept found (.refl t)
    · next s here => exact turn_setInstance found (.polled here rfl (.refl _))
  | shutdown | destroy => exact .kept (shutdownInstance_lookup found) (.refl t)

end Turns

end Snolc.Socks5
