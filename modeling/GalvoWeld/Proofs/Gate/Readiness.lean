import GalvoWeld.Gate.State

/-!
# When the gate is ready

The phase of the gate in terms of its flags, what waiting at it ends with, and what the operations
do to its generation.
-/

namespace GalvoWeld.Gate

theorem isReady_iff (gate : Gate) :
    gate.isReady = true ↔ gate.armed = true ∧ gate.heightDone = true ∧
      (gate.listDone = true ∨ gate.contourPrepared = true) ∧ gate.moveDone = true := by
  obtain ⟨g, armed, height, list, prepared, move, cancelled⟩ := gate
  cases armed <;> cases height <;> cases list <;> cases prepared <;> cases move <;>
    simp [isReady, phase]

/-- Waiting ends well only in the generation of the gate, and only if the gate is ready. -/
theorem outcome_eq_ok_iff (gate : Gate) (g : UInt64) (ms : Nat) :
    gate.outcome g ms = .ok () ↔
      gate.cancelled = false ∧ gate.generation = g ∧ gate.isReady = true := by
  unfold outcome
  split
  · next hc => simp [hc]
  · next hc =>
    split
    · next hg => simp [hg]
    · next hg =>
      split
      · next hr => simpa [hc, hr] using hg
      · next hr => split <;> simp [hr]

/-- A gate that holds somebody does not let them through when their time is up. -/
theorem outcome_of_holds {gate : Gate} {g : UInt64} (hg : gate.holds g = true) (ms : Nat) :
    ∃ fault, gate.outcome g ms = .error fault := by
  simp only [holds, Bool.and_eq_true, Bool.not_eq_true', decide_eq_true_eq] at hg
  obtain ⟨⟨⟨hc, ha⟩, hg⟩, hr⟩ := hg
  exact ⟨.gateTimeout ms gate.phase, by simp [outcome, hc, ha, hg, hr]⟩

/-- A completion does not begin a new generation. -/
theorem generation_completeIn (gate : Gate) (g : UInt64) (task : Task) :
    (gate.completeIn g task).2.generation = gate.generation := by
  unfold completeIn
  split
  · cases task <;> rfl
  · rfl

/-- A completion in the generation of the gate is one, any other is none. -/
theorem completeIn_cases (gate : Gate) (g : UInt64) (task : Task) :
    (gate.generation = g ∧ (gate.completeIn g task).2 = gate.complete task) ∨
      (gate.generation ≠ g ∧ (gate.completeIn g task).2 = gate) := by
  by_cases hg : gate.generation = g
  · exact .inl ⟨hg, by simp [completeIn, hg]⟩
  · exact .inr ⟨hg, by simp [completeIn, hg]⟩

end GalvoWeld.Gate
