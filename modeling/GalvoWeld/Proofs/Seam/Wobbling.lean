import GalvoWeld.Proofs.Wobble.Segments
import GalvoWeld.Seam.State

/-!
# Wobbling of a seam

What deciding about wobbling changes in a seam, and how many vectors it leaves there. The segment
limit is kept to unless the micro-vector factor of the figure is 0.
-/

namespace GalvoWeld

open Wobble (ProperFor segmentLimit maxSegments Compensation)

/-- The segment limit holds for the figure, split or as it stands. -/
def Figure.Proper (f : Figure) : Prop :=
  f.microVectorFactor ≠ 0 ∨ f.size - 1 ≤ segmentLimit (f.modulation = .dual)

instance (f : Figure) : Decidable f.Proper := inferInstanceAs (Decidable (_ ∨ _))

theorem Figure.Proper.properFor {f : Figure} (hf : f.Proper)
    (heven : f.modulation = .dual → f.microVectorFactor % 2 = 0) :
    ProperFor f (f.modulation = .dual) :=
  hf.imp_left fun hfactor => ⟨hfactor, fun hdual => heven (of_decide_eq_true hdual)⟩

namespace Seam

/-! ### What is decided anew -/

theorem defineVectors_eq (s : Seam) (figure : Figure) (modulation : Modulation) :
    (s.defineVectors figure modulation).2 =
      { s with compensation := (s.defineVectors figure modulation).2.compensation } := rfl

theorem defineWobble_eq (s : Seam) (mode : Wobble.Mode) :
    (s.defineWobble mode).2 =
      { s with compensation := (s.defineWobble mode).2.compensation } := by
  unfold defineWobble
  cases mode with
  | off => rfl
  | basic shape => rfl
  | free =>
    simp only
    split
    · rfl
    · next figure _ =>
      have hvectors := defineVectors_eq { s with compensation := .cleared } figure figure.modulation
      cases hd : defineVectors { s with compensation := .cleared } figure figure.modulation with
      | mk result t =>
        rw [hd] at hvectors
        cases result <;> exact hvectors

theorem resolveWobble_eq (s : Seam) :
    s.resolveWobble.2 = { s with compensation := s.resolveWobble.2.compensation,
                                 wobble := s.resolveWobble.2.wobble } := by
  have hdefine := s.defineWobble_eq s.data.wobbleMode
  unfold resolveWobble
  cases hd : s.defineWobble s.data.wobbleMode with
  | mk result t =>
    rw [hd] at hdefine
    simp only at hdefine
    cases result with
    | ok setup =>
      rw [hdefine]
    | error fault =>
      simp only
      split <;> rw [hdefine]

theorem loadWobble_eq (s : Seam) (disk : Disk) (path : String) :
    (s.loadWobble disk path).2 =
      { s with wobbleFigure := (Figure.load disk path).toOption,
               wobble := (s.loadWobble disk path).2.wobble,
               compensation := (s.loadWobble disk path).2.compensation,
               stage := (s.loadWobble disk path).2.stage } := by
  unfold loadWobble
  cases Figure.load disk path with
  | error fault => rfl
  | ok figure =>
    have hresolve := resolveWobble_eq { s with wobbleFigure := some figure }
    simp only
    split
    · cases hr : resolveWobble { s with wobbleFigure := some figure } with
      | mk result t =>
        rw [hr] at hresolve
        simp only at hresolve
        cases result <;> (rw [hresolve]; rfl)
    · rfl

/-! ### The number of vectors -/

theorem freeFigure_ok {s : Seam} {figure : Figure} (hf : s.freeFigure = .ok figure) :
    s.wobbleFigure = some figure ∧ 2 < figure.size ∧
      (figure.modulation = .dual → figure.microVectorFactor % 2 = 0) := by
  unfold freeFigure at hf
  cases hw : s.wobbleFigure with
  | none =>
    rw [hw] at hf
    cases hf
  | some g =>
    rw [hw] at hf
    simp only at hf
    split at hf
    · cases hf
    next hsize =>
    split at hf
    · cases hf
    split at hf
    · cases hf
    split at hf
    · cases hf
    · next hodd =>
      obtain rfl := Except.ok.inj hf
      exact ⟨rfl, Nat.lt_of_not_le hsize,
        fun hdual => Decidable.byContradiction fun hne => hodd ⟨hdual, hne⟩⟩

theorem segments_defineVectors {s : Seam} {figure : Figure} {modulation : Modulation}
    (hs : s.compensation.segments ≤ maxSegments) (hf : ProperFor figure (modulation = .dual)) :
    (s.defineVectors figure modulation).2.compensation.segments ≤ maxSegments := by
  cases hd : s.compensation.define s.nominal s.config.powerDelay figure modulation with
  | mk result c =>
    have hc : (s.defineVectors figure modulation).2.compensation = c := by
      simp only [defineVectors, hd]
    rw [hc]
    cases result with
    | error fault =>
      rw [Compensation.segments_define_error hd]
      exact hs
    | ok =>
      obtain ⟨p, hp, hsegments⟩ := Compensation.segments_define hd
      rw [hsegments]
      exact Nat.le_trans (Wobble.segments_of_plan hp hf) (Wobble.segmentLimit_le _)

theorem segments_planWobble (s : Seam) (figure : Figure) (dual : Bool) :
    (s.planWobble figure dual).2.compensation.segments = s.compensation.segments := by
  simp only [planWobble, Compensation.plan]
  split <;> rfl

/-- A free wobbling was defined from nothing but the figure and the data of the seam. -/
theorem defineWobble_free_vectors {s t : Seam} {setup : Wobble.Setup}
    (hd : s.defineWobble .free = (.ok setup, t)) :
    ∃ figure, s.freeFigure = .ok figure ∧ setup = .free figure.modulation ∧
      Compensation.cleared.define s.nominal s.config.powerDelay figure figure.modulation =
        (.ok (), t.compensation) := by
  unfold defineWobble at hd
  simp only at hd
  split at hd
  · simp at hd
  · next figure hfree =>
    cases hv : defineVectors { s with compensation := .cleared } figure figure.modulation with
    | mk result u =>
      rw [hv] at hd
      cases result with
      | error fault => simp at hd
      | ok =>
        simp only [Prod.mk.injEq, Except.ok.injEq] at hd
        obtain ⟨rfl, rfl⟩ := hd
        simp only [defineVectors, Prod.mk.injEq] at hv
        obtain ⟨hok, rfl⟩ := hv
        exact ⟨figure, hfree, rfl, Prod.ext hok rfl⟩

theorem defineWobble_free_ok {s t : Seam} {setup : Wobble.Setup}
    (hd : s.defineWobble .free = (.ok setup, t)) :
    ∃ figure, s.freeFigure = .ok figure ∧ setup = .free figure.modulation ∧
      ∃ p, Wobble.Plan.of s.config.powerDelay figure (figure.modulation = .dual) = .ok p ∧
        t.compensation.segments = p.points.length - 1 := by
  obtain ⟨figure, hfree, hsetup, hvectors⟩ := defineWobble_free_vectors hd
  exact ⟨figure, hfree, hsetup, Compensation.segments_define hvectors⟩

theorem defineWobble_of_plan {s : Seam} {figure : Figure} {p : Wobble.Plan}
    (hf : s.freeFigure = .ok figure)
    (hp : Wobble.Plan.of s.config.powerDelay figure (figure.modulation = .dual) = .ok p) :
    ∃ t, s.defineWobble .free = (.ok (.free figure.modulation), t) := by
  have hcleared : freeFigure { s with compensation := .cleared } = .ok figure := hf
  simp only [defineWobble, hcleared, defineVectors, Compensation.define, Compensation.plan, hp]
  exact ⟨_, rfl⟩

/-- The vectors of a free wobbling keep to the segment limit if and only if the figure is one that
is counted right. -/
theorem segments_le_iff {s t : Seam} {figure : Figure} {setup : Wobble.Setup}
    (hd : s.defineWobble .free = (.ok setup, t)) (hf : s.wobbleFigure = some figure) :
    t.compensation.segments ≤ segmentLimit (figure.modulation = .dual) ↔ figure.Proper := by
  obtain ⟨g, hfree, -, p, hp, hsegments⟩ := defineWobble_free_ok hd
  obtain ⟨hg, -, heven⟩ := freeFigure_ok hfree
  obtain rfl : g = figure := Option.some.inj (hg.symm.trans hf)
  rw [hsegments]
  constructor
  · intro hle
    by_cases hfactor : g.microVectorFactor = 0
    · rw [Wobble.segments_of_plan_zero hp hfactor] at hle
      exact .inr hle
    · exact .inl hfactor
  · intro hproper
    exact Wobble.segments_of_plan hp (hproper.properFor heven)

/-! ### Seams within the limit -/

/-- The figure of the seam is counted right, and its vectors are not too many. -/
structure Counted (s : Seam) : Prop where
  figure : ∀ f, s.wobbleFigure = some f → f.Proper
  vectors : s.compensation.segments ≤ maxSegments

namespace Counted

variable {s : Seam}

theorem defineWobble (hs : s.Counted) (mode : Wobble.Mode) : (s.defineWobble mode).2.Counted := by
  refine ⟨?_, ?_⟩
  · rw [s.defineWobble_eq mode]
    exact hs.figure
  · have hnone : Compensation.cleared.segments ≤ maxSegments := Nat.zero_le _
    unfold Seam.defineWobble
    cases mode with
    | off => exact hnone
    | basic shape => exact hnone
    | free =>
      simp only
      split
      · exact hnone
      · next figure hfree =>
        obtain ⟨hattached, -, heven⟩ := freeFigure_ok hfree
        have hproper := (hs.figure figure hattached).properFor heven
        have hvectors := segments_defineVectors (s := { s with compensation := .cleared }) hnone
          hproper
        cases hd : Seam.defineVectors { s with compensation := .cleared } figure
            figure.modulation with
        | mk result t =>
          rw [hd] at hvectors
          cases result <;> exact hvectors

theorem resolveWobble (hs : s.Counted) : s.resolveWobble.2.Counted := by
  have hdefine := hs.defineWobble s.data.wobbleMode
  unfold Seam.resolveWobble
  cases hd : s.defineWobble s.data.wobbleMode with
  | mk result t =>
    rw [hd] at hdefine
    cases result with
    | ok setup => exact ⟨hdefine.figure, hdefine.vectors⟩
    | error fault =>
      simp only
      split
      · exact hdefine
      · exact ⟨hdefine.figure, Nat.zero_le _⟩

theorem loadWobble (hs : s.Counted) {disk : Disk} {path : String}
    (hf : ∀ f, Figure.load disk path = .ok f → f.Proper) : (s.loadWobble disk path).2.Counted := by
  unfold Seam.loadWobble
  cases hload : Figure.load disk path with
  | error fault => exact ⟨nofun, hs.vectors⟩
  | ok figure =>
    have hfigure : Seam.Counted { s with wobbleFigure := some figure } :=
      ⟨fun f heq => Option.some.inj heq ▸ hf figure hload, hs.vectors⟩
    have hresolve := hfigure.resolveWobble
    simp only
    split
    · cases hr : Seam.resolveWobble { s with wobbleFigure := some figure } with
      | mk result t =>
        rw [hr] at hresolve
        cases result with
        | ok setup => exact ⟨hresolve.figure, hresolve.vectors⟩
        | error fault => exact hresolve
    · exact hfigure

end Counted

end Seam

end GalvoWeld
