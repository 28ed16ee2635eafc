import Snolc.Socks5.Steps

/-! Datagram flows and the associations they belong to. -/

namespace Snolc.Socks5

open List State Table UdpAssociation

variable {association : UdpAssociation} {handle index : Nat} {packet : Packet}
  {key : Address × UInt16}

/-- Every datagram flow is a destination of exactly one association. -/
def State.Attached (s : State) : Prop :=
  s.udpFlows.All fun handle _ => s.associations.countP (·.serves handle) = 1

instance (s : State) : Decidable s.Attached :=
  inferInstanceAs (Decidable (Table.All _ _))

/-- An association whose control connection is found closed has only flows that end as well. -/
def State.ClosesIdle (input : PollInput) (s : State) : Prop :=
  s.udpFlows.All fun handle flow =>
    ∀ association ∈ s.associations, (association.poll input).1 = .closed →
      association.serves handle = true → (flow.poll (input.udpFlows handle)).1.ends = true

instance (input : PollInput) (s : State) : Decidable (s.ClosesIdle input) :=
  inferInstanceAs (Decidable (Table.All _ _))

/-- Two associations have no handle in common. -/
def UdpAssociation.Apart (first second : UdpAssociation) : Prop :=
  ∀ handle, first.serves handle = true → second.serves handle = false

theorem UdpAssociation.Apart.symm {first second : UdpAssociation} (apart : first.Apart second) :
    second.Apart first := by
  intro handle serves
  cases both : first.serves handle with
  | false => rfl
  | true => rw [apart handle both] at serves; cases serves

/-- Handles are drawn from one counter, and each is given to one association. -/
structure State.Linked (s : State) : Prop where
  apart : s.associations.Pairwise UdpAssociation.Apart
  numbered : ∀ association ∈ s.associations, ∀ handle, association.serves handle = true →
    handle < s.nextFlow
  owned : ∀ handle, s.udpFlows.lookup handle ≠ none →
    ∃ association ∈ s.associations, association.serves handle = true

theorem countP_serves {associations : List UdpAssociation}
    (apart : associations.Pairwise UdpAssociation.Apart) (member : association ∈ associations)
    (serves : association.serves handle = true) : associations.countP (·.serves handle) = 1 := by
  induction apart with
  | nil => simp at member
  | @cons first rest others _ ih =>
    rcases mem_cons.mp member with rfl | later
    · -- The first association serves it, so none of the rest does.
      have none : rest.countP (·.serves handle) = 0 := by
        rw [countP_eq_zero]
        intro other there
        simp [others other there handle serves]
      simp [serves, none]
    · have silent : first.serves handle = false := (others association later).symm handle serves
      simpa [silent] using ih later

theorem State.Linked.attached {s : State} (linked : s.Linked) : s.Attached := by
  intro handle flow live
  obtain ⟨association, member, serves⟩ := linked.owned handle (by simp [live])
  exact countP_serves linked.apart member serves

section Deliveries

variable {s t : State} {front behind : List UdpAssociation}

theorem setDestinations_associations (split : s.associations = front ++ association :: behind)
    (change : Table (Address × UInt16) Nat → Table (Address × UInt16) Nat) :
    (s.setDestinations front.length change).associations =
      front ++ { association with destinations := change association.destinations } :: behind := by
  rw [setDestinations, split, modify_eq_take_drop]
  simp

/-- One association gets a new handle at most, and loses none that is live. -/
theorem State.Linked.replace {later : UdpAssociation}
    (linked : s.Linked) (split : s.associations = front ++ association :: behind)
    (changed : t.associations = front ++ later :: behind) (counter : s.nextFlow ≤ t.nextFlow)
    (serving : ∀ handle, later.serves handle = true →
      association.serves handle = true ∨ s.nextFlow ≤ handle ∧ handle < t.nextFlow)
    (live : ∀ handle, t.udpFlows.lookup handle ≠ none → later.serves handle = true ∨
      s.udpFlows.lookup handle ≠ none ∧
        (association.serves handle = true → later.serves handle = true)) : t.Linked := by
  have apart := linked.apart
  have numbered := linked.numbered
  rw [split] at apart numbered
  obtain ⟨inFront, ⟨fromHere, inBehind⟩, across⟩ := by
    simpa only [pairwise_append, pairwise_cons] using apart
  -- A new handle is past the counter, so no other association serves it.
  have away : ∀ other ∈ front ++ behind, association.Apart other → later.Apart other := by
    intro other member apart handle serves
    rcases serving handle serves with old | ⟨new, _⟩
    · exact apart handle old
    cases both : other.serves handle with
    | false => rfl
    | true =>
      have small := numbered other (by simp at member ⊢; tauto) handle both
      omega
  refine ⟨?_, ?_, ?_⟩
  · rw [changed]
    simp only [pairwise_append, pairwise_cons]
    refine ⟨inFront, ⟨fun other member => ?_, inBehind⟩, fun first member other there => ?_⟩
    · exact away other (by simp [member]) (fromHere other member)
    rcases mem_cons.mp there with rfl | there
    · exact (away first (by simp [member]) (across first member _ (by simp)).symm).symm
    · exact across first member other (by simp [there])
  · intro other member handle serves
    rw [changed] at member
    rcases mem_append.mp member with inside | inside
    · exact Nat.lt_of_lt_of_le (numbered other (by simp [inside]) handle serves) counter
    rcases mem_cons.mp inside with rfl | inside
    · rcases serving handle serves with old | ⟨_, small⟩
      · exact Nat.lt_of_lt_of_le (numbered association (by simp) handle old) counter
      · exact small
    · exact Nat.lt_of_lt_of_le (numbered other (by simp [inside]) handle serves) counter
  · intro handle present
    rcases live handle present with here | ⟨before, stays⟩
    · exact ⟨later, by simp [changed], here⟩
    obtain ⟨owner, member, serves⟩ := linked.owned handle before
    rw [split] at member
    rcases mem_append.mp member with inside | inside
    · exact ⟨owner, by simp [changed, inside], serves⟩
    rcases mem_cons.mp inside with rfl | inside
    · exact ⟨later, by simp [changed], stays serves⟩
    · exact ⟨owner, by simp [changed, inside], serves⟩

theorem serves_erase :
    UdpAssociation.serves { association with destinations := association.destinations.erase key }
        handle = true ↔
      ∃ other, other ≠ key ∧ association.destinations.lookup other = some handle := by
  rw [serves_iff]
  constructor
  · rintro ⟨other, found⟩
    dsimp only at found
    rw [lookup_erase_eq] at found
    split at found
    · cases found
    · next different => exact ⟨other, different, found⟩
  · rintro ⟨other, different, found⟩
    exact ⟨other, by dsimp only; rw [lookup_erase_eq, if_neg different, found]⟩

theorem serves_erase_live (stale : ∀ other, association.destinations.lookup key = some other →
      s.udpFlows.lookup other = none) (live : s.udpFlows.lookup handle ≠ none)
    (serves : association.serves handle = true) :
    UdpAssociation.serves { association with destinations := association.destinations.erase key }
      handle = true := by
  obtain ⟨other, found⟩ := serves_iff.mp serves
  refine serves_erase.mpr ⟨other, ?_, found⟩
  rintro rfl
  exact live (stale handle found)

theorem serves_insert {new : Nat} :
    UdpAssociation.serves { association with
        destinations := (association.destinations.erase key).insert key new } handle = true ↔
      handle = new ∨ UdpAssociation.serves
        { association with destinations := association.destinations.erase key } handle = true := by
  rw [serves_iff, serves_iff]
  dsimp only
  constructor
  · rintro ⟨other, found⟩
    rcases of_lookup_insert found with ⟨_, rfl⟩ | ⟨_, old⟩
    · exact .inl rfl
    · exact .inr ⟨other, old⟩
  · rintro (rfl | ⟨other, found⟩)
    · exact ⟨key, by rw [lookup_insert_eq, if_pos rfl]⟩
    · refine ⟨other, ?_⟩
      rw [lookup_insert_eq, if_neg, found]
      rintro rfl
      rw [lookup_erase_eq, if_pos rfl] at found
      cases found

variable (delivery : Delivery s packet t)
include delivery

/-- Delivering a datagram keeps flows and associations linked. -/
theorem Delivery.linked (linked : s.Linked) : t.Linked := by
  cases delivery with
  | dropped => exact linked
  | @refilled association handle flow found served live =>
    refine ⟨linked.apart, linked.numbered, fun other present => linked.owned other ?_⟩
    dsimp only at present
    rw [lookup_insert_eq] at present
    split at present
    · next same => subst same; simp [live]
    · exact present
  | @forgotten association found stale =>
    obtain ⟨front, behind, split, reaches⟩ := Vec.exists_split found
    rw [← reaches]
    refine linked.replace split (setDestinations_associations split _) (Nat.le_refl _) ?_ ?_
    · intro handle serves
      obtain ⟨other, _, kept⟩ := serves_erase.mp serves
      exact .inl (serves_iff.mpr ⟨other, kept⟩)
    · intro handle live
      exact .inr ⟨live, serves_erase_live stale live⟩
  | @opened association found stale =>
    obtain ⟨front, behind, split, reaches⟩ := Vec.exists_split found
    rw [← reaches]
    have changed := setDestinations_associations split fun destinations =>
      (destinations.erase (packet.packet.address, packet.packet.port)).insert
        (packet.packet.address, packet.packet.port) s.nextFlow
    refine linked.replace split changed (Nat.le_succ _) ?_ ?_
    · intro handle serves
      rcases serves_insert.mp serves with rfl | old
      · exact .inr ⟨Nat.le_refl _, Nat.lt_succ_self _⟩
      · obtain ⟨other, _, kept⟩ := serves_erase.mp old
        exact .inl (serves_iff.mpr ⟨other, kept⟩)
    · intro handle live
      dsimp only at live
      rw [lookup_insert_eq] at live
      split at live
      · next same => exact .inl (serves_insert.mpr (.inl same))
      · refine .inr ⟨live, fun serves => serves_insert.mpr (.inr ?_)⟩
        exact serves_erase_live stale live serves

theorem Delivery.untouched (linked : s.Linked) (elsewhere : index ≠ packet.index) :
    t.associations[index]? = s.associations[index]? ∧
      ∀ association handle, s.associations[index]? = some association →
        association.serves handle = true → t.udpFlows.lookup handle = s.udpFlows.lookup handle := by
  have modified : ∀ change, (s.setDestinations packet.index change).associations[index]? =
      s.associations[index]? := by
    intro change
    simp [setDestinations, elsewhere.symm]
  cases delivery with
  | dropped => exact ⟨rfl, fun _ _ _ _ => rfl⟩
  | @refilled association handle flow found served =>
    refine ⟨rfl, fun other theirs there serves => ?_⟩
    -- The handle is served here, so it is not served there.
    have different : theirs ≠ handle := by
      rintro rfl
      obtain ⟨inside, rfl⟩ := List.getElem?_eq_some_iff.mp found
      obtain ⟨within, rfl⟩ := List.getElem?_eq_some_iff.mp there
      have apart := pairwise_iff_getElem.mp linked.apart
      rcases Nat.lt_or_gt_of_ne elsewhere with before | behind
      · rw [apart index packet.index within inside before theirs serves] at served
        cases served
      · rw [apart packet.index index inside within behind theirs served] at serves
        cases serves
    dsimp only
    rw [lookup_insert_eq, if_neg different]
  | forgotten => exact ⟨modified _, fun _ _ _ _ => rfl⟩
  | opened =>
    refine ⟨by dsimp only; exact modified _, fun other theirs there serves => ?_⟩
    have small := linked.numbered other (mem_of_getElem? there) theirs serves
    dsimp only
    rw [lookup_insert_eq, if_neg (by omega)]

theorem Delivery.length : t.associations.length = s.associations.length := by
  cases delivery <;> simp [setDestinations]

end Deliveries

/-- Deliveries one after another, none of which is for an association that is closed. -/
structure Delivered (polls : List AssociationPoll) (s t : State) : Prop where
  linked : t.Linked
  length : t.associations.length = s.associations.length
  untouched : ∀ index : Nat, polls[index]? = some .closed →
    t.associations[index]? = s.associations[index]? ∧
      ∀ association handle, s.associations[index]? = some association →
        association.serves handle = true → t.udpFlows.lookup handle = s.udpFlows.lookup handle

theorem mem_packets {polls : List AssociationPoll} (member : packet ∈ State.packets polls) :
    polls[packet.index]? = some (.packet packet.source packet.packet) := by
  simp only [packets, mem_filterMap, Prod.exists] at member
  obtain ⟨poll, index, there, made⟩ := member
  have found := mem_zipIdx_iff_getElem?.mp there
  split at made
  · cases made
    exact found
  · cases made

theorem packets_delivered {input : PollInput} {polls : List AssociationPoll} {s : State}
    (linked : s.Linked) :
    Delivered polls s ((State.packets polls).foldl (State.deliver input) s) := by
  have open_ : ∀ packet ∈ packets polls, polls[packet.index]? ≠ some .closed := by
    intro packet member closed
    rw [mem_packets member] at closed
    cases closed
  generalize packets polls = packets at open_
  -- The induction is on the datagrams; each leaves the closed associations as they are.
  induction packets using List.reverseRecOn with
  | nil => exact ⟨linked, rfl, fun _ _ => ⟨rfl, fun _ _ _ _ => rfl⟩⟩
  | append_singleton earlier packet ih =>
    have before := ih fun other member => open_ other (by simp [member])
    rw [foldl_append]
    have delivery := deliver_delivery input (earlier.foldl (deliver input) s) packet
    refine ⟨delivery.linked before.linked, delivery.length.trans before.length,
      fun index closed => ?_⟩
    have elsewhere : index ≠ packet.index := by
      rintro rfl
      exact open_ packet (by simp) closed
    obtain ⟨same, flows⟩ := before.untouched index closed
    obtain ⟨stays, kept⟩ := delivery.untouched before.linked elsewhere
    refine ⟨stays.trans same, fun association handle found serves => ?_⟩
    rw [← flows association handle found serves]
    exact kept association handle (same.trans found) serves

section Polls

variable {env : Env} {input : PollInput} {s t : State}

theorem Prepared.linked (prepared : Prepared s t) (linked : s.Linked) : t.Linked := by
  obtain ⟨added, reached, empty⟩ := prepared.associations
  have silent : ∀ association ∈ added, ∀ handle, association.serves handle = false := by
    intro association member handle
    simp [serves, empty association member, values]
  refine ⟨?_, ?_, ?_⟩
  · rw [reached, pairwise_append]
    refine ⟨linked.apart, ?_, fun first _ second there handle _ => silent second there handle⟩
    exact pairwise_of_forall_mem_list fun first _ second there handle _ =>
      silent second there handle
  · intro association member handle serves
    rw [reached] at member
    rcases mem_append.mp member with old | new
    · exact Nat.lt_of_lt_of_le (linked.numbered association old handle serves) prepared.nextFlow
    · rw [silent association new handle] at serves
      cases serves
  · intro handle live
    rw [prepared.udpFlows] at live
    obtain ⟨association, member, serves⟩ := linked.owned handle live
    exact ⟨association, by simp [reached, member], serves⟩

theorem State.Linked.polled (linked : s.Linked) :
    State.Linked { s with associations := (s.associations.map (·.poll input)).map Prod.snd } := by
  have same : ∀ (association : UdpAssociation) handle,
      (association.poll input).2.serves handle = association.serves handle := by
    intro association handle
    simp [serves]
  refine ⟨?_, ?_, ?_⟩
  · simp only [map_map]
    refine pairwise_map.mpr (linked.apart.imp ?_)
    intro first second apart handle serves
    simp only [Function.comp_apply, same] at serves ⊢
    exact apart handle serves
  · intro association member handle serves
    simp only [map_map, mem_map, Function.comp_apply] at member
    obtain ⟨old, there, rfl⟩ := member
    exact linked.numbered old there handle (by rwa [same] at serves)
  · intro handle live
    obtain ⟨association, member, serves⟩ := linked.owned handle live
    refine ⟨(association.poll input).2, ?_, by rwa [same]⟩
    simp only [map_map, mem_map, Function.comp_apply]
    exact ⟨association, member, rfl⟩

theorem lookup_pollUdpFlows :
    (s.pollUdpFlows input).udpFlows.lookup handle ≠ none ↔
      ∃ flow, s.udpFlows.lookup handle = some flow ∧
        (flow.poll (input.udpFlows handle)).1.ends = false := by
  simp only [pollUdpFlows, lookup_mapValues, lookup_retain]
  cases s.udpFlows.lookup handle with
  | none => simp
  | some flow =>
    cases ended : (flow.poll (input.udpFlows handle)).1.ends <;> simp [ended]

theorem closeAssociations_perm {polls : List AssociationPoll}
    (length : polls.length = s.associations.length) :
    (s.closeAssociations (Vec.positions (· = .closed) polls)).associations.Perm
      (((polls.zip s.associations).filter fun pair => !decide (pair.1 = .closed)).map
        Prod.snd) := by
  -- The positions come in ascending order, so sorting them changes nothing.
  have ascending := Vec.positions_ascending (fun poll => decide (poll = .closed)) polls
  have sorted := (ascending.imp Nat.le_of_lt).insertionSort_eq
  have distinct : (Vec.positions (· = .closed) polls).dedup = Vec.positions (· = .closed) polls :=
    List.Nodup.dedup (ascending.imp Nat.ne_of_lt)
  rw [closeAssociations, sorted, distinct]
  exact Vec.swapRemove_marked _ length

def State.polls (input : PollInput) (s : State) : List AssociationPoll :=
  (s.associations.map (·.poll input)).map Prod.fst

/-- The state when all datagrams have been delivered. -/
def State.afterPackets (input : PollInput) (s : State) : State :=
  (State.packets (s.polls input)).foldl (State.deliver input)
    { s with associations := (s.associations.map (·.poll input)).map Prod.snd }

theorem pollUdpAssociations_eq : s.pollUdpAssociations input =
    ((s.afterPackets input).pollUdpFlows input).closeAssociations
      (Vec.positions (· = .closed) (s.polls input)) := by
  rfl

theorem afterPackets_delivered (input : PollInput) (linked : s.Linked) :
    Delivered (s.polls input)
      { s with associations := (s.associations.map (·.poll input)).map Prod.snd }
      (s.afterPackets input) :=
  packets_delivered linked.polled

theorem polls_length (input : PollInput) (linked : s.Linked) :
    (s.polls input).length = ((s.afterPackets input).pollUdpFlows input).associations.length := by
  have length := (afterPackets_delivered input linked).length
  simp only [length_map] at length
  simp [polls, pollUdpFlows, length]

theorem afterPackets_closed (linked : s.Linked)
    (found : s.associations[index]? = some association)
    (closed : (association.poll input).1 = .closed) :
    (s.afterPackets input).associations[index]? = some (association.poll input).2 ∧
      ∀ handle, association.serves handle = true →
        (s.afterPackets input).udpFlows.lookup handle = s.udpFlows.lookup handle := by
  have marked : (s.polls input)[index]? = some .closed := by
    simp [polls, found, closed]
  obtain ⟨same, flows⟩ := (afterPackets_delivered input linked).untouched index marked
  refine ⟨by simpa [found] using same, fun handle serves => ?_⟩
  exact flows (association.poll input).2 handle (by simp [found])
    (by simpa [UdpAssociation.serves] using serves)

theorem polls_closed (marked : (s.polls input)[index]? = some .closed) :
    ∃ association, s.associations[index]? = some association ∧
      (association.poll input).1 = .closed := by
  simp only [polls, map_map, List.getElem?_map, Option.map_eq_some_iff,
    Function.comp_apply] at marked
  exact marked

theorem mem_pollUdpAssociations (linked : s.Linked) :
    association ∈ (s.pollUdpAssociations input).associations ↔
      ∃ index : Nat, (s.afterPackets input).associations[index]? = some association ∧
        (s.polls input)[index]? ≠ some .closed := by
  rw [pollUdpAssociations_eq, (closeAssociations_perm (polls_length input linked)).mem_iff]
  simp only [mem_map, mem_filter, Prod.exists, exists_eq_right, Bool.not_eq_true',
    decide_eq_false_iff_not]
  simp only [mem_iff_getElem?, List.getElem?_zip_eq_some]
  constructor
  · rintro ⟨poll, ⟨index, marked, found⟩, open_⟩
    refine ⟨index, found, ?_⟩
    rw [marked]
    simpa using open_
  · rintro ⟨index, found, open_⟩
    have inside : index < (s.polls input).length := by
      rw [polls_length input linked]
      exact (List.getElem?_eq_some_iff.mp found).1
    refine ⟨(s.polls input)[index], ⟨index, List.getElem?_eq_getElem inside, found⟩, ?_⟩
    rintro same
    exact open_ (by rw [List.getElem?_eq_getElem inside, same])

theorem pollUdpAssociations_linked (linked : s.Linked) (idle : s.ClosesIdle input) :
    (s.pollUdpAssociations input).Linked := by
  have after := (afterPackets_delivered input linked).linked
  have perm := closeAssociations_perm (polls_length input linked)
  have whole := map_snd_zip (polls_length input linked).ge
  refine ⟨?_, ?_, ?_⟩
  · rw [pollUdpAssociations_eq]
    refine (perm.pairwise_iff fun apart => apart.symm).mpr ?_
    refine List.Pairwise.sublist (filter_sublist.map Prod.snd) ?_
    rw [whole]
    exact after.apart
  · intro association member handle serves
    obtain ⟨index, found, _⟩ := (mem_pollUdpAssociations linked).mp member
    exact after.numbered association (mem_of_getElem? found) handle serves
  · intro handle live
    rw [pollUdpAssociations_eq] at live
    obtain ⟨flow, there, goes⟩ : ∃ flow, (s.afterPackets input).udpFlows.lookup handle = some flow ∧
        (flow.poll (input.udpFlows handle)).1.ends = false := lookup_pollUdpFlows.mp live
    obtain ⟨association, member, serves⟩ := after.owned handle (by simp [there])
    obtain ⟨index, found⟩ := mem_iff_getElem?.mp member
    refine ⟨association, (mem_pollUdpAssociations linked).mpr ⟨index, found, ?_⟩, serves⟩
    -- Had the association been closed, its flow would have ended.
    intro marked
    obtain ⟨old, known, closed⟩ := polls_closed marked
    obtain ⟨same, flows⟩ := afterPackets_closed linked known closed
    rw [same, Option.some.injEq] at found
    subst found
    have served : old.serves handle = true := by simpa [UdpAssociation.serves] using serves
    have present := (flows handle served).symm.trans there
    rw [idle handle flow present old (mem_of_getElem? known) closed served] at goes
    cases goes

/-- A flow that outlives its association is the destination of none. -/
theorem pollUdpAssociations_idle (linked : s.Linked)
    (attached : (s.pollUdpAssociations input).Attached) : s.ClosesIdle input := by
  intro handle flow present association member closed serves
  have after := (afterPackets_delivered input linked).linked
  obtain ⟨index, known⟩ := mem_iff_getElem?.mp member
  obtain ⟨same, flows⟩ := afterPackets_closed linked known closed
  cases ended : (flow.poll (input.udpFlows handle)).1.ends with
  | true => rfl
  | false =>
    have live : (s.pollUdpAssociations input).udpFlows.lookup handle ≠ none :=
      lookup_pollUdpFlows.mpr ⟨flow, (flows handle serves).trans present, ended⟩
    obtain ⟨last, there⟩ := Option.ne_none_iff_exists'.mp live
    have one := attached handle last there
    have positive : 0 < (s.pollUdpAssociations input).associations.countP (·.serves handle) := by
      omega
    obtain ⟨other, stays, theirs⟩ := countP_pos_iff.mp positive
    obtain ⟨place, found, open_⟩ := (mem_pollUdpAssociations linked).mp stays
    -- The association that stays is another one, yet both serve the handle.
    have different : place ≠ index := by
      rintro rfl
      exact open_ (by simp [polls, known, closed])
    have mine : (association.poll input).2.serves handle = true := by
      simpa [UdpAssociation.serves] using serves
    obtain ⟨inside, here⟩ := List.getElem?_eq_some_iff.mp same
    obtain ⟨within, rest⟩ := List.getElem?_eq_some_iff.mp found
    have apart := pairwise_iff_getElem.mp after.apart
    rcases Nat.lt_or_gt_of_ne different with before | behind
    · have silent := apart place index within inside before handle (by rwa [rest])
      rw [here, mine] at silent
      cases silent
    · have silent := apart index place inside within behind handle (by rwa [here])
      rw [rest, theirs] at silent
      cases silent

theorem Prepared.closesIdle_iff (prepared : Prepared s t) :
    t.ClosesIdle input ↔ s.ClosesIdle input := by
  obtain ⟨added, reached, empty⟩ := prepared.associations
  unfold State.ClosesIdle
  rw [prepared.udpFlows, reached]
  refine forall₃_congr fun handle flow live => ?_
  constructor
  · intro idle association member
    exact idle association (by simp [member])
  · intro idle association member closed serves
    rcases mem_append.mp member with old | new
    · exact idle association old closed serves
    · simp [UdpAssociation.serves, empty association new, Table.values] at serves

theorem State.Linked.poll {listeners : Table SocketAddr ListenerGroup} {instance_ : Nat}
    (linked : s.Linked) (idle : s.ClosesIdle input) :
    (s.poll env listeners instance_ input).2.Linked := by
  have prepared : Prepared s (s.prepare env listeners instance_ input) := prepare_prepared _ _
  rw [poll_eq]
  exact pollUdpAssociations_linked (prepared.linked linked) (prepared.closesIdle_iff.mpr idle)

theorem Kept.linked (kept : Kept s t) (linked : s.Linked) : t.Linked := by
  refine ⟨?_, ?_, ?_⟩
  · rw [kept.associations]
    exact linked.apart
  · rw [kept.associations, kept.nextFlow]
    exact linked.numbered
  · rw [kept.associations]
    exact fun handle live => linked.owned handle (kept.udpFlows handle live)

end Polls

/-- Whatever the poll of a call closes is idle. -/
def World.ClosesIdle (world : World) (call : Call) : Prop :=
  match call.polls with
  | none => True
  | some (instance_, input) =>
    match world.instances.lookup instance_ with
    | none => True
    | some s => s.ClosesIdle input

instance (world : World) (call : Call) : Decidable (world.ClosesIdle call) := by
  unfold World.ClosesIdle
  split
  · exact inferInstance
  split
  · exact inferInstance
  · exact inferInstance

theorem World.step_linked {env : Env} {world : World} {call : Call}
    (linked : world.instances.All fun _ s => s.Linked) (idle : world.ClosesIdle call) :
    (world.step env call).1.instances.All fun _ s => s.Linked := by
  intro instance_ t found
  cases World.step_turn found with
  | kept found kept => exact kept.linked (linked instance_ _ found)
  | started begins =>
    subst begins
    exact ⟨.nil, by simp, by simp⟩
  | @polled s input found polls kept =>
    have closes : s.ClosesIdle input := by
      simpa only [World.ClosesIdle, polls, found] using idle
    exact kept.linked ((linked instance_ s found).poll closes)

/--
Every datagram flow is a destination of exactly one association, as long as an association that is
closed has no flow left, and a poll that closes one with a flow left breaks this.
-/
theorem udpFlows_attached {env : Env} {history : List Obs} {world : World}
    (run : (machine env).Run Fresh (fun _ world call => world.ClosesIdle call) history world) :
    (world.instances.All fun _ s => s.Attached) ∧
      ∀ instance_ s listeners input, world.instances.lookup instance_ = some s →
        ((s.poll env listeners instance_ input).2.Attached ↔ s.ClosesIdle input) := by
  have linked : world.instances.All fun _ s => s.Linked := by
    refine run.stateInvariant (fun world => world.instances.All fun _ s => s.Linked) ?_ ?_
    · rintro world rfl
      exact .empty
    · intro history world call linked idle
      exact World.step_linked linked idle
  refine ⟨linked.mono fun _ s linked => linked.attached, ?_⟩
  intro instance_ s listeners input found
  constructor
  · intro attached
    have prepared : Prepared s (s.prepare env listeners instance_ input) := prepare_prepared _ _
    rw [poll_eq] at attached
    exact prepared.closesIdle_iff.mp
      (pollUdpAssociations_idle (prepared.linked (linked instance_ s found)) attached)
  · intro idle
    exact ((linked instance_ s found).poll idle).attached

namespace Exchange

def home : Octets 4 :=
  ⟨[127, 0, 0, 1], rfl⟩

/-- One address that instances listen on. -/
def env : Env where
  parseSocketAddr text := if text = "127.0.0.1:1080" then some (.v4 home 1080) else none

def options : Options where
  listen := "127.0.0.1:1080"
  maxConnections := 2
  maxUdpAssociations := 2
  maxRequestBytes := 262
  rejectFragments := true

/-- Sockets that take what they are given and have nothing to say. -/
def silence : PollInput where
  arrivals := []
  usable _ := true
  reads _ := []
  writes _ := [.taken 100]
  buffers _ := true
  bind _ := some (7, .v4 home 5000)
  flows _ := { writes := [], actions := [], upload := .pending, download := .pending }
  controlWrites _ := [.taken 100]
  peeks _ := .wouldBlock
  datagrams _ := .wouldBlock
  clones _ := true
  udpFlows _ :=
    { send := .pending, retry := .wouldBlock, receive := .pending, reply := .wouldBlock }

/-- A client connects, greets, and asks for a command to a port of the local host. -/
def asks (stream : Stream) (command : UInt8) (port : UInt8) : PollInput :=
  { silence with
    arrivals := [stream]
    reads := fun other =>
      if other = stream then [.bytes [5, 1, 0], .bytes [5, command, 0, 1, 127, 0, 0, 1, 0, port]]
      else [] }

/-- The client of the association sends a datagram to a port of the local host. -/
def sends (port : UInt8) : PollInput :=
  { silence with
    datagrams := fun _ => .datagram (.v4 home 6000) [0, 0, 0, 1, 127, 0, 0, 1, 0, port, 42] }

/-- The control connection of the association ends. -/
def hangs : PollInput :=
  { silence with peeks := fun _ => .closed }

/-- An association with one flow. -/
def relay : List Call :=
  [.initialize_ 1 options true, .poll 1 (asks 10 3 0), .poll 1 (sends 53)]

/-- The flow is closed, the association ends, and another client opens one with a flow. -/
def replaced : List Call :=
  relay ++ [.closeFlow 1 1, .poll 1 hangs, .poll 1 (asks 11 3 0), .poll 1 (sends 53)]

/-- What the calls lead to. -/
def reached (calls : List Call) : List Obs × World :=
  (machine env).execute ([], {}) calls

/-- Calls that a guard admits one after another are a run. -/
theorem reached_run {guard : List Obs → World → Call → Prop}
    [∀ history world call, Decidable (guard history world call)] {calls : List Call}
    (admitted : (machine env).admits guard ([], {}) calls = true) :
    (machine env).Run Fresh guard (reached calls).1 (reached calls).2 :=
  .reached (show Fresh {} from rfl) admitted

end Exchange

open Exchange

/-- A flow that is closed before its association leaves nothing behind. -/
theorem udpFlows_attached_replaced :
    (machine env).Run Fresh (fun _ world call => world.ClosesIdle call) (reached replaced).1
        (reached replaced).2 ∧
      (reached replaced).2.instances.All fun _ s => s.Attached := by
  have run : (machine env).Run Fresh (fun _ world call => world.ClosesIdle call)
      (reached replaced).1 (reached replaced).2 :=
    reached_run (by decide +kernel)
  exact ⟨run, (udpFlows_attached run).1⟩

/-- A control connection that ends leaves a flow of its association behind. -/
theorem udpFlows_orphaned :
    (machine env).Run Fresh (fun _ _ _ => True) (reached (relay ++ [.poll 1 hangs])).1
        (reached (relay ++ [.poll 1 hangs])).2 ∧
      ¬ (reached (relay ++ [.poll 1 hangs])).2.instances.All fun _ s => s.Attached := by
  refine ⟨reached_run (by decide +kernel), ?_⟩
  decide +kernel

end Snolc.Socks5
