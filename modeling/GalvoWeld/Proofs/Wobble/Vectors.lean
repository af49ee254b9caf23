import GalvoWeld.Proofs.Wobble.Segments

/-!
# The vectors of a definition

The four vectors of a compensation are equally long, whatever is planned or defined. A definition
that succeeds leaves one entry for every segment of the micro-points; a figure with more than two
points has at least two.
-/

namespace GalvoWeld.Wobble

/-- All four vectors are there, one entry for each segment. -/
structure Compensation.Complete (c : Compensation) : Prop where
  some_segment : 0 < c.segments
  longitudinal : c.longitudinal.length = c.segments
  power : c.power.length = c.segments
  ringPower : c.ringPower.length = c.segments

/-- The four vectors are equally long, if there are any. -/
structure Compensation.Level (c : Compensation) : Prop where
  longitudinal : c.longitudinal.length = c.segments
  power : c.power.length = c.segments
  ringPower : c.ringPower.length = c.segments

theorem Compensation.not_complete_cleared : ¬ Compensation.cleared.Complete :=
  fun hc => absurd hc.some_segment (Nat.lt_irrefl 0)

theorem length_rotateLeft (values : List Float) (n : Nat) :
    (values.rotateLeft n).length = values.length := by
  unfold List.rotateLeft
  simp only
  split
  · rfl
  · simp only [List.length_append, List.length_drop, List.length_take]
    omega

theorem length_shiftedPowers (channel : PowerChannel) (points : List FigurePoint) (shift : Int) :
    (shiftedPowers channel points shift).length = points.length := by
  unfold shiftedPowers
  simp only
  split
  · exact List.length_map ..
  · next hloop =>
    have hsome : (points.map channel.value).dropLast ≠ [] := fun hnil => hloop (by simp [hnil])
    have hpos := List.length_pos_iff.2 hsome
    simp only [List.length_dropLast, List.length_map] at hpos
    simp only [List.length_append, length_rotateLeft, List.length_take, List.length_dropLast,
      List.length_map]
    omega

theorem length_powerChanges (channel : PowerChannel) (points : List FigurePoint) (shift : Int)
    (nominal : Float) (divisor : Nat) :
    (powerChanges channel points shift nominal divisor).length = points.length - 1 := by
  have hshifted := length_shiftedPowers channel points shift
  simp only [powerChanges, List.length_take, List.length_zipWith, List.length_map,
    List.length_cons, hshifted]
  omega

theorem length_le_microPoints (points : List FigurePoint) (n : Nat) :
    points.length ≤ (microPoints points n).length := by
  by_cases hsplit : Splittable n points
  · have hsteps : 0 < n := Nat.lt_of_succ_lt hsplit.some_steps
    have hsegments : (points.length - 1) * 1 ≤ (points.length - 1) * n :=
      Nat.mul_le_mul_left _ hsteps
    rw [microPoints_of_splittable hsplit, length_splitSegments hsteps hsplit.some_point]
    omega
  · exact Nat.le_of_eq (congrArg List.length (microPoints_of_not_splittable hsplit).symm)

namespace Compensation

theorem length_changesOn (p : Plan) (nominal : NominalPowers) (modulation : Modulation)
    (channel : PowerChannel) :
    (changesOn p nominal modulation channel).length = p.points.length - 1 := by
  unfold changesOn
  split
  · exact length_powerChanges ..
  · exact List.length_replicate

section
variable {c d : Compensation} {nominal : NominalPowers} {delay : Int} {figure : Figure}
  {modulation : Modulation}

theorem level_of_define (hd : c.define nominal delay figure modulation = (.ok (), d)) :
    d.Level := by
  obtain ⟨p, -, rfl⟩ := define_ok hd
  have hturns := length_segmentTurns p.points
  refine ⟨?_, ?_, ?_⟩
  · simp only [segments, List.length_map]
  · simp only [segments, List.length_map, length_changesOn, hturns]
  · simp only [segments, List.length_map, length_changesOn, hturns]

theorem complete_of_define (hsize : 2 < figure.size)
    (hd : c.define nominal delay figure modulation = (.ok (), d)) : d.Complete := by
  have hlevel := level_of_define hd
  refine ⟨?_, hlevel.longitudinal, hlevel.power, hlevel.ringPower⟩
  obtain ⟨p, hp, rfl⟩ := define_ok hd
  obtain ⟨-, -, hpoints⟩ := Plan.of_ok hp
  have hmicro := length_le_microPoints figure.points (figure.microVectorFactor / p.divisor)
  rw [← hpoints] at hmicro
  have hmany : 2 < figure.points.length := hsize
  simp only [segments, List.length_map, length_segmentTurns p.points]
  omega

theorem level_cleared : cleared.Level := ⟨rfl, rfl, rfl⟩

theorem Level.plan (hc : c.Level) (nominal : NominalPowers) (delay : Int) (figure : Figure)
    (dual : Bool) : (c.plan nominal delay figure dual).2.Level := by
  unfold Compensation.plan
  split <;> exact ⟨hc.longitudinal, hc.power, hc.ringPower⟩

/-- One that succeeds makes all the vectors anew, one that fails leaves those there were. -/
theorem Level.define (hc : c.Level) (nominal : NominalPowers) (delay : Int) (figure : Figure)
    (modulation : Modulation) : (c.define nominal delay figure modulation).2.Level := by
  cases hd : c.define nominal delay figure modulation with
  | mk result d =>
    cases result with
    | ok => exact level_of_define hd
    | error fault =>
      have hplan := hc.plan nominal delay figure (modulation = .dual)
      unfold Compensation.define at hd
      split at hd
      · next hp =>
        rw [hp] at hplan
        obtain rfl := (Prod.mk.inj hd).2
        exact hplan
      · simp at hd

end

/-- A definition that fails leaves no vectors where there were none. -/
theorem cleared_of_define {d : Compensation} {nominal : NominalPowers} {delay : Int}
    {figure : Figure} {modulation : Modulation} {fault : Fault}
    (hd : cleared.define nominal delay figure modulation = (.error fault, d)) : d = cleared := by
  unfold define plan at hd
  cases hp : Plan.of delay figure (modulation = .dual) with
  | error fault' =>
    rw [hp] at hd
    cases fault' <;> exact (Prod.mk.inj hd).2.symm
  | ok p =>
    rw [hp] at hd
    simp at hd

end Compensation

end GalvoWeld.Wobble
