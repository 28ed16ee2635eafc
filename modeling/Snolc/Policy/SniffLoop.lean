import Snolc.Policy.Flow

/-! The loop that reads first bytes ends, whatever the stream and the clock do. -/

namespace Snolc.Policy

namespace TcpSniff

/--
The turns of the loop, with how many reads succeed before it ends.

Each turn sees the clock and, if it reads, the answer of the stream; without fuel there is no end.
-/
def loop (answers : Nat → Nat × ReadOutcome) :
    Nat → Nat → TcpSniff → Option (Nat × TcpSniff × Poll (Except FlowError Unit))
  | 0, _, _ => none
  | fuel + 1, turn, sniff =>
    match sniff.classify (answers turn).1 with
    | .complete observed => some (0, sniff.decide observed)
    | .needMore =>
      let remaining := sniff.policy.maxBytes - sniff.prefixBytes.length
      if remaining = 0 then loop answers fuel (turn + 1) sniff
      else
        match (answers turn).2 with
        | .bytes data =>
          match data.take (min remaining 1024) with
          | [] =>
            match classifyTcp sniff.prefixBytes true with
            | .complete observed => some (1, sniff.decide observed)
            | .needMore => some (1, sniff.decide .unknown)
          | received =>
            (loop answers fuel (turn + 1)
              { sniff with prefixBytes := sniff.prefixBytes ++ received }).map
                fun (reads, ended) => (reads + 1, ended)
        | .failed => some (0, sniff, .ready (.error .io))
        | .pending => some (0, sniff, .pending)

variable {answers : Nat → Nat × ReadOutcome} {sniff : TcpSniff}

theorem loop_full (full : sniff.policy.maxBytes ≤ sniff.prefixBytes.length) (fuel turn : Nat) :
    ∃ observed, sniff.loop answers (fuel + 1) turn = some (0, sniff.decide observed) := by
  cases shown : sniff.classify (answers turn).1 with
  | complete observed => exact ⟨observed, by rw [loop, shown]⟩
  | needMore =>
    rw [classify, decide_eq_true full, Bool.true_or] at shown
    exact absurd shown (classifyTcp_complete _)

theorem loop_ends {room : Nat} (left : sniff.policy.maxBytes - sniff.prefixBytes.length ≤ room)
    (turn : Nat) : ∃ reads ended, reads ≤ room ∧
      sniff.loop answers (room + 1) turn = some (reads, ended) := by
  -- The induction is on the room that is left.
  induction room generalizing sniff turn with
  | zero =>
    obtain ⟨observed, ends⟩ := @loop_full answers sniff (by omega) 0 turn
    exact ⟨0, _, Nat.le_refl _, ends⟩
  | succ room ih =>
    by_cases full : sniff.policy.maxBytes ≤ sniff.prefixBytes.length
    · obtain ⟨observed, ends⟩ := @loop_full answers sniff full (room + 1) turn
      exact ⟨0, _, Nat.zero_le _, ends⟩
    rw [loop]
    split
    · exact ⟨0, _, Nat.zero_le _, rfl⟩
    dsimp only
    rw [if_neg (by omega)]
    split
    · next data _ =>
      generalize data.take _ = received
      cases received with
      | nil =>
        dsimp only
        split <;> exact ⟨1, _, by omega, rfl⟩
      | cons byte received =>
        obtain ⟨reads, ended, few, ends⟩ := @ih
          { sniff with prefixBytes := sniff.prefixBytes ++ byte :: received }
          (by simp only [List.length_append, List.length_cons]; omega) (turn + 1)
        exact ⟨reads + 1, ended, by omega, by simp only [ends, Option.map_some]⟩
    · exact ⟨0, _, Nat.zero_le _, rfl⟩
    · exact ⟨0, _, Nat.zero_le _, rfl⟩

/-- The turns of the loop are those of one poll, and no poll needs more answers. -/
theorem loop_collect {fuel turn reads : Nat} {ended : TcpSniff × Poll (Except FlowError Unit)}
    (ends : sniff.loop answers fuel turn = some (reads, ended)) (lastInstant : Nat) :
    sniff.collect lastInstant ((List.range' turn fuel).map answers) = ended := by
  induction fuel generalizing sniff turn reads with
  | zero => cases ends
  | succ fuel ih =>
    rw [loop] at ends
    rw [List.range'_succ, List.map_cons, collect]
    -- Both take the same turn.
    cases shown : sniff.classify (answers turn).1 with
    | complete =>
      simp only [shown] at ends ⊢
      cases ends
      rfl
    | needMore =>
    simp only [shown] at ends ⊢
    by_cases none_ : sniff.policy.maxBytes - sniff.prefixBytes.length = 0
    · rw [if_pos none_] at ends ⊢
      exact ih ends
    rw [if_neg none_] at ends ⊢
    cases read : (answers turn).2 with
    | bytes data =>
      simp only [read] at ends ⊢
      generalize data.take _ = received at ends ⊢
      cases received with
      | nil =>
        cases final : classifyTcp sniff.prefixBytes true <;>
          · simp only [final] at ends ⊢
            cases ends
            rfl
      | cons byte received =>
        obtain ⟨⟨before, later⟩, goesOn, same⟩ := Option.map_eq_some_iff.mp ends
        cases same
        exact ih goesOn
    | failed | pending =>
      simp only [read] at ends ⊢
      cases ends
      rfl

end TcpSniff

/--
The end of the input is always classified, and the loop ends after no more reads than the limit has
bytes, in the same turn once they are there.
-/
theorem sniffLoop_ends :
    (∀ input, ∃ observed, classifyTcp input true = .complete observed) ∧
      ∀ (sniff : TcpSniff) (answers : Nat → Nat × ReadOutcome) (turn : Nat),
        (∃ reads ended, reads ≤ sniff.policy.maxBytes ∧
          sniff.loop answers (sniff.policy.maxBytes + 1) turn = some (reads, ended) ∧
          ∀ lastInstant, sniff.collect lastInstant
            ((List.range' turn (sniff.policy.maxBytes + 1)).map answers) = ended) ∧
        (sniff.policy.maxBytes ≤ sniff.prefixBytes.length →
          ∃ observed, sniff.loop answers 1 turn = some (0, sniff.decide observed)) := by
  refine ⟨fun input => ?_, fun sniff answers turn => ⟨?_, fun full => sniff.loop_full full 0 turn⟩⟩
  · cases shown : classifyTcp input true with
    | complete observed => exact ⟨observed, rfl⟩
    | needMore => exact absurd shown (classifyTcp_complete _)
  · obtain ⟨reads, ended, few, ends⟩ := sniff.loop_ends (Nat.sub_le _ _) turn
    exact ⟨reads, ended, few, ends, TcpSniff.loop_collect ends⟩

end Snolc.Policy
