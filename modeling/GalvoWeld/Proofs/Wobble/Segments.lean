import GalvoWeld.Wobble.Compensation

/-!
# Segments of a free wobble figure

The check of the segment limit counts the segments of a figure times the micro-vectors that are left
of each. The points that the vectors are computed from have as many segments, unless the
micro-vector factor is 0: then nothing is counted, and the figure is taken as it stands.
-/

namespace GalvoWeld.Wobble

/-! ### Micro-points -/

theorem length_innerPoints (n : Nat) (p q : FigurePoint) :
    (innerPoints n p q).length = n - 1 := by
  simp only [innerPoints, List.length_map, List.length_range]

theorem length_splitSegments {n : Nat} (hn : 0 < n) {points : List FigurePoint}
    (hp : points ≠ []) : (splitSegments n points).length = (points.length - 1) * n + 1 := by
  induction points with
  | nil => exact absurd rfl hp
  | cons p rest ih =>
    cases rest with
    | nil => simp [splitSegments]
    | cons q rest =>
      have hrest := ih (List.cons_ne_nil q rest)
      have hinner := length_innerPoints n p q
      simp only [splitSegments, List.length_cons, List.length_append] at hrest ⊢
      rw [hrest, hinner, Nat.add_sub_cancel, Nat.add_sub_cancel, Nat.add_mul]
      omega

/-- There is something to split, and the hardware accepts as many segments as there would be. -/
structure Splittable (n : Nat) (points : List FigurePoint) : Prop where
  some_point : points ≠ []
  some_steps : 2 ≤ n
  limit : (points.length - 1) * n ≤ 1023

theorem microPoints_of_splittable {n : Nat} {points : List FigurePoint}
    (hsplit : Splittable n points) : microPoints points n = splitSegments n points := by
  have hsteps : ¬ n ≤ 1 := Nat.not_le.2 hsplit.some_steps
  have hfits : ¬ maxSegments < (points.length - 1) * n := Nat.not_lt.2 hsplit.limit
  simp [microPoints, hsplit.some_point, hsteps, hfits]

theorem microPoints_of_not_splittable {n : Nat} {points : List FigurePoint}
    (hnot : ¬ Splittable n points) : microPoints points n = points := by
  unfold microPoints
  split
  · rfl
  · next hsplit =>
    simp only [Bool.or_eq_true, List.isEmpty_iff, decide_eq_true_eq, not_or] at hsplit
    obtain ⟨⟨hsome, hmany⟩, hlimit⟩ := hsplit
    exact absurd ⟨hsome, Nat.lt_of_not_le hmany, Nat.le_of_not_lt hlimit⟩ hnot

theorem microPoints_of_le {n : Nat} (hn : n ≤ 1) (points : List FigurePoint) :
    microPoints points n = points :=
  microPoints_of_not_splittable fun hsplit => absurd hn (Nat.not_le.2 hsplit.some_steps)

theorem segments_microPoints {n : Nat} (hn : 0 < n) {points : List FigurePoint}
    (hlimit : (points.length - 1) * n ≤ maxSegments) :
    (microPoints points n).length - 1 = (points.length - 1) * n := by
  by_cases hone : n = 1
  · rw [microPoints_of_le (Nat.le_of_eq hone), hone, Nat.mul_one]
  by_cases hp : points = []
  · simp [microPoints, hp]
  · have hsplit : Splittable n points := ⟨hp, by omega, hlimit⟩
    rw [microPoints_of_splittable hsplit, length_splitSegments hn hp, Nat.add_sub_cancel]

/-! ### The divisor -/

theorem mem_divisorCandidates {factor d : Nat} {dual : Bool} :
    d ∈ divisorCandidates factor dual ↔
      1 ≤ d ∧ d ≤ maxDivisor ∧ factor % d = 0 ∧ (dual = true → d % 2 = 0) := by
  simp only [divisorCandidates, List.mem_filter, List.mem_range'_1, Bool.and_eq_true,
    decide_eq_true_eq, Bool.or_eq_true, Bool.not_eq_true', maxDivisor]
  cases dual <;> simp <;> omega

/-- A factor that suits the modulation has a divisor, and one of them is found. -/
theorem findDivisor_mem {factor : Nat} {dual : Bool} (heven : dual = true → factor % 2 = 0)
    (segments : Nat) : findDivisor segments factor dual ∈ divisorCandidates factor dual := by
  have hleast : (if dual then 2 else 1) ∈ divisorCandidates factor dual := by
    rw [mem_divisorCandidates]
    cases dual with
    | false => simp [maxDivisor, Nat.mod_one]
    | true => simp [maxDivisor, heven rfl]
  unfold findDivisor
  simp only
  split
  · next d hd => exact List.mem_of_find?_eq_some hd
  · rw [List.getLast?_eq_some_getLast (List.ne_nil_of_mem hleast), Option.getD_some]
    exact List.getLast_mem _

theorem steps_pos {factor : Nat} {dual : Bool} (hfactor : factor ≠ 0)
    (heven : dual = true → factor % 2 = 0) (segments : Nat) :
    0 < factor / findDivisor segments factor dual := by
  obtain ⟨hone, -, hdvd, -⟩ := mem_divisorCandidates.1 (findDivisor_mem heven segments)
  have hle := Nat.le_of_dvd (Nat.pos_of_ne_zero hfactor) (Nat.dvd_of_mod_eq_zero hdvd)
  exact Nat.div_pos hle hone

/-! ### Plans -/

theorem segmentLimit_le (dual : Bool) : segmentLimit dual ≤ maxSegments := by
  cases dual <;> decide

theorem Plan.of_ok {delay : Int} {figure : Figure} {dual : Bool} {p : Plan}
    (hp : Plan.of delay figure dual = .ok p) :
    (figure.size - 1) * (figure.microVectorFactor / p.divisor) ≤ segmentLimit dual ∧
      p.divisor = findDivisor (figure.size - 1) figure.microVectorFactor dual ∧
      p.points = microPoints figure.points (figure.microVectorFactor / p.divisor) := by
  unfold Plan.of at hp
  simp only at hp
  split at hp
  · cases hp
  · next hlimit =>
    split at hp
    · cases hp
    · obtain rfl := Except.ok.inj hp
      exact ⟨Nat.le_of_not_lt hlimit, rfl, rfl⟩

/-- A figure whose segments are counted right where one channel is modulated, or both. -/
def ProperFor (figure : Figure) (dual : Bool) : Prop :=
  (figure.microVectorFactor ≠ 0 ∧ (dual = true → figure.microVectorFactor % 2 = 0)) ∨
    figure.size - 1 ≤ segmentLimit dual

theorem segments_of_plan {delay : Int} {figure : Figure} {dual : Bool} {p : Plan}
    (hp : Plan.of delay figure dual = .ok p) (hf : ProperFor figure dual) :
    p.points.length - 1 ≤ segmentLimit dual := by
  obtain ⟨hlimit, hdivisor, hpoints⟩ := Plan.of_ok hp
  have hmax := Nat.le_trans hlimit (segmentLimit_le dual)
  rw [hpoints]
  by_cases hsteps : 0 < figure.microVectorFactor / p.divisor
  · rw [segments_microPoints hsteps hmax]
    exact hlimit
  · -- no step at all: the figure stays as it is, though the check against the limit counted none
    rw [microPoints_of_le (by omega)]
    rcases hf with ⟨hfactor, heven⟩ | hfew
    · rw [hdivisor] at hsteps
      exact absurd (steps_pos hfactor heven (figure.size - 1)) hsteps
    · exact hfew

theorem segments_of_plan_zero {delay : Int} {figure : Figure} {dual : Bool} {p : Plan}
    (hp : Plan.of delay figure dual = .ok p) (hfactor : figure.microVectorFactor = 0) :
    p.points.length - 1 = figure.size - 1 := by
  obtain ⟨-, -, hpoints⟩ := Plan.of_ok hp
  rw [hpoints, hfactor, Nat.zero_div, microPoints_of_le (Nat.zero_le 1)]
  rfl

/-! ### Vectors -/

theorem length_segmentTurns (points : List FigurePoint) :
    (segmentTurns points).length = points.length - 1 := by
  simp only [segmentTurns, List.length_zipWith, List.length_tail]
  omega

/-- What a definition that succeeds leaves behind: a plan, and vectors computed from it. -/
theorem Compensation.define_ok {c d : Compensation} {nominal : NominalPowers} {delay : Int}
    {figure : Figure} {modulation : Modulation}
    (hd : c.define nominal delay figure modulation = (.ok (), d)) :
    ∃ p, Plan.of delay figure (modulation = .dual) = .ok p ∧
      d = { nominal, shift := p.shift, divisor := p.divisor
            transversal := (segmentTurns p.points).map (·.x)
            longitudinal := (segmentTurns p.points).map (·.y)
            power := Compensation.changesOn p nominal modulation .core
            ringPower := Compensation.changesOn p nominal modulation .ring } := by
  unfold Compensation.define Compensation.plan at hd
  cases hp : Plan.of delay figure (modulation = .dual) with
  | error fault =>
    rw [hp] at hd
    cases fault <;> simp at hd
  | ok p =>
    rw [hp] at hd
    simp only [Prod.mk.injEq, true_and] at hd
    exact ⟨p, rfl, hd.symm⟩

theorem Compensation.segments_define {c d : Compensation} {nominal : NominalPowers} {delay : Int}
    {figure : Figure} {modulation : Modulation}
    (hd : c.define nominal delay figure modulation = (.ok (), d)) :
    ∃ p, Plan.of delay figure (modulation = .dual) = .ok p ∧ d.segments = p.points.length - 1 := by
  obtain ⟨p, hp, rfl⟩ := Compensation.define_ok hd
  refine ⟨p, hp, ?_⟩
  simp only [Compensation.segments, List.length_map, length_segmentTurns]

theorem Compensation.segments_define_error {c d : Compensation} {nominal : NominalPowers}
    {delay : Int} {figure : Figure} {modulation : Modulation} {fault : Fault}
    (hd : c.define nominal delay figure modulation = (.error fault, d)) :
    d.segments = c.segments := by
  unfold Compensation.define Compensation.plan at hd
  cases hp : Plan.of delay figure (modulation = .dual) with
  | error fault' =>
    rw [hp] at hd
    cases fault' <;> (simp only [Prod.mk.injEq] at hd; obtain rfl := hd.2; rfl)
  | ok p =>
    rw [hp] at hd
    simp at hd

end GalvoWeld.Wobble
