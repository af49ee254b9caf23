import GalvoWeld.Proofs.Seam.Decisions
import GalvoWeld.Proofs.Wobble.Divisors
import GalvoWeld.Proofs.Wobble.Entries

/-!
# The definition of a free wobbling

When a free wobbling is defined, and when it fails and with which fault: the first of the causes has
its say. A definition that fails leaves no vectors, whatever there were before, and changes nothing
else; one that succeeds leaves vectors that follow the split figure.
-/

namespace GalvoWeld

open Wobble (Compensation Setup delayShift microPoints segmentLimit shiftResolution)

namespace Figure

/-- The divisors that may be taken for the channels that the figure modulates. -/
def allowedDivisors (f : Figure) : Set Nat :=
  Wobble.allowedDivisors f.microVectorFactor (f.modulation = .dual)

/-- Those that also bring it under the segment limit. -/
def fittingDivisors (f : Figure) : Set Nat :=
  Wobble.fittingDivisors (f.size - 1) f.microVectorFactor (f.modulation = .dual)

/-- The segments with a divisor, as they are counted for the limit. -/
def segmentsCounted (f : Figure) (d : Nat) : Nat := (f.size - 1) * (f.microVectorFactor / d)

/-- The segments with a divisor, as the figure is split. -/
def segmentsSplit (f : Figure) (d : Nat) : Nat :=
  (microPoints f.points (f.microVectorFactor / d)).length - 1

end Figure

namespace Seam

/-- The laser is to be on, and the figure modulates a channel that has no nominal power. -/
def Unpowered (s : Seam) (f : Figure) (channel : PowerChannel) : Prop :=
  s.data.mode = .welding ∧ f.modulation.covers channel = true ∧
    isNegligible (s.nominal.of channel) = true

instance (s : Seam) (f : Figure) (channel : PowerChannel) : Decidable (s.Unpowered f channel) :=
  inferInstanceAs (Decidable (_ ∧ _ ∧ _))

/-- The shift for the delay of the laser, with a divisor. -/
def shiftFor (s : Seam) (d : Nat) : Int := delayShift s.config.powerDelay (shiftResolution d)

/-- The attached figure can be divided: it has more than two points, every channel that it modulates
has a nominal power, and the factor suits both channels. -/
structure Admits (s : Seam) (f : Figure) : Prop where
  attached : s.wobbleFigure = some f
  size : 2 < f.size
  powered : ∀ channel, ¬ s.Unpowered f channel
  even : ¬ (f.modulation = .dual ∧ Odd f.microVectorFactor)

/-- What the definition of a free wobbling comes to. The causes of a fault are in their order: each
one stands only where none of those above it does. -/
inductive FreeVerdict (s : Seam) : Except Wobble.Fault Setup → Prop
  | noFigure (hnone : ¬ ∃ f, s.wobbleFigure = some f ∧ 2 < f.size) :
    FreeVerdict s (.error .invalidFigure)
  | noPower {f : Figure} (hattached : s.wobbleFigure = some f) (hsize : 2 < f.size)
      (hcore : s.Unpowered f .core) :
    FreeVerdict s (.error .nominalPowerZero)
  | noRingPower {f : Figure} (hattached : s.wobbleFigure = some f) (hsize : 2 < f.size)
      (hcore : ¬ s.Unpowered f .core) (hring : s.Unpowered f .ring) :
    FreeVerdict s (.error .nominalRingPowerZero)
  | oddFactor {f : Figure} (hattached : s.wobbleFigure = some f) (hsize : 2 < f.size)
      (hpower : ∀ channel, ¬ s.Unpowered f channel)
      (hodd : f.modulation = .dual ∧ Odd f.microVectorFactor) :
    FreeVerdict s (.error (.oddFactor f.microVectorFactor))
  | crowded {f : Figure} {d : Nat} (hf : s.Admits f) (hcrowded : f.fittingDivisors = ∅)
      (hd : IsGreatest f.allowedDivisors d) :
    FreeVerdict s
      (.error (.tooManySegments (f.segmentsCounted d) (segmentLimit (f.modulation = .dual))))
  | abandoned {f : Figure} {d : Nat} (hf : s.Admits f) (hd : IsLeast f.fittingDivisors d)
      (hshift : f.segmentsSplit d < (s.shiftFor d).natAbs) :
    FreeVerdict s (.error (.compensationAbandoned (s.shiftFor d) (f.segmentsSplit d)))
  | defined {f : Figure} {d : Nat} (hf : s.Admits f) (hd : IsLeast f.fittingDivisors d)
      (hshift : (s.shiftFor d).natAbs ≤ f.segmentsSplit d) :
    FreeVerdict s (.ok (.free f.modulation))

variable {s t : Seam} {f : Figure}

/-! ### From the causes to the fault -/

theorem defineWobble_free_fst (s : Seam) :
    (s.defineWobble .free).1 = s.freeFigure.bind fun f =>
      (Wobble.Plan.of s.config.powerDelay f (f.modulation = .dual)).map fun _ =>
        .free f.modulation := by
  have hfree : freeFigure { s with compensation := .cleared } = s.freeFigure := rfl
  simp only [defineWobble, hfree]
  cases s.freeFigure with
  | error fault => rfl
  | ok f =>
    simp only [defineVectors, Compensation.define, Compensation.plan, Except.bind]
    cases hp : Wobble.Plan.of s.config.powerDelay f (f.modulation = .dual) with
    | ok p => simp only [Except.map]
    | error fault => cases fault <;> simp only [Except.map]

theorem freeFigure_of_attached (hattached : s.wobbleFigure = some f) (hsize : 2 < f.size) :
    s.freeFigure =
      if s.Unpowered f .core then .error .nominalPowerZero
      else if s.Unpowered f .ring then .error .nominalRingPowerZero
      else if f.modulation = .dual ∧ Odd f.microVectorFactor then
        .error (.oddFactor f.microVectorFactor)
      else .ok f := by
  have hmany : ¬ f.size ≤ 2 := Nat.not_le.2 hsize
  simp only [freeFigure, hattached, if_neg hmany, Unpowered, nominal, Wobble.NominalPowers.of,
    Bool.and_eq_true, decide_eq_true_eq, and_assoc, Nat.odd_iff, ne_eq, Nat.mod_two_ne_zero]

theorem freeFigure_of_none (hnone : ¬ ∃ f, s.wobbleFigure = some f ∧ 2 < f.size) :
    s.freeFigure = .error .invalidFigure := by
  unfold freeFigure
  cases hw : s.wobbleFigure with
  | none => rfl
  | some f =>
    have hsize : f.size ≤ 2 := Nat.le_of_not_lt fun hsize => hnone ⟨f, hw, hsize⟩
    simp only [if_pos hsize]

theorem Admits.freeFigure (hf : s.Admits f) : s.freeFigure = .ok f := by
  rw [freeFigure_of_attached hf.attached hf.size, if_neg (hf.powered .core),
    if_neg (hf.powered .ring), if_neg hf.even]

theorem plan_of_fitting {d : Nat} (hd : IsLeast f.fittingDivisors d) :
    Wobble.Plan.of s.config.powerDelay f (f.modulation = .dual) =
      if f.segmentsSplit d < (s.shiftFor d).natAbs then
        .error (.compensationAbandoned (s.shiftFor d) (f.segmentsSplit d))
      else .ok ⟨d, s.shiftFor d, microPoints f.points (f.microVectorFactor / d)⟩ :=
  Wobble.Plan.of_fitting hd s.config.powerDelay

theorem FreeVerdict.eq_fst {r : Except Wobble.Fault Setup} (hr : s.FreeVerdict r) :
    (s.defineWobble .free).1 = r := by
  rw [defineWobble_free_fst]
  -- the first four are faults of the figure as it is attached, the others come with its plan
  cases hr with
  | noFigure hnone =>
    rw [freeFigure_of_none hnone]
    rfl
  | noPower hattached hsize hcore =>
    rw [freeFigure_of_attached hattached hsize, if_pos hcore]
    rfl
  | noRingPower hattached hsize hcore hring =>
    rw [freeFigure_of_attached hattached hsize, if_neg hcore, if_pos hring]
    rfl
  | oddFactor hattached hsize hpower hodd =>
    rw [freeFigure_of_attached hattached hsize, if_neg (hpower .core), if_neg (hpower .ring),
      if_pos hodd]
    rfl
  | crowded hf hcrowded hd =>
    rw [hf.freeFigure]
    simp only [Except.bind, Wobble.Plan.of_crowded hcrowded hd]
    rfl
  | abandoned hf hd hshift =>
    rw [hf.freeFigure]
    simp only [Except.bind, plan_of_fitting hd, if_pos hshift]
    rfl
  | defined hf hd hshift =>
    rw [hf.freeFigure]
    simp only [Except.bind, plan_of_fitting hd, if_neg (Nat.not_lt.2 hshift)]
    rfl

/-! ### One of the causes, or none -/

theorem Admits.exists_verdict (hf : s.Admits f) : ∃ r, s.FreeVerdict r := by
  rcases Set.eq_empty_or_nonempty f.fittingDivisors with hcrowded | hfits
  · have hsome : f.allowedDivisors.Nonempty := by
      refine Set.nonempty_iff_ne_empty.2 fun hnone => ?_
      obtain ⟨hdual, hodd⟩ := Wobble.allowedDivisors_eq_empty.1 hnone
      exact hf.even ⟨of_decide_eq_true hdual, hodd⟩
    exact ⟨_, .crowded hf hcrowded (Wobble.isGreatest_findDivisor hcrowded hsome)⟩
  · have hd := Wobble.isLeast_findDivisor hfits
    rcases Nat.lt_or_ge (f.segmentsSplit _) (s.shiftFor _).natAbs with hfar | hnear
    · exact ⟨_, .abandoned hf hd hfar⟩
    · exact ⟨_, .defined hf hd hnear⟩

theorem exists_verdict (s : Seam) : ∃ r, s.FreeVerdict r := by
  by_cases hsome : ∃ f, s.wobbleFigure = some f ∧ 2 < f.size
  · obtain ⟨f, hattached, hsize⟩ := hsome
    by_cases hcore : s.Unpowered f .core
    · exact ⟨_, .noPower hattached hsize hcore⟩
    by_cases hring : s.Unpowered f .ring
    · exact ⟨_, .noRingPower hattached hsize hcore hring⟩
    have hpower : ∀ channel, ¬ s.Unpowered f channel
      | .core => hcore
      | .ring => hring
    by_cases hodd : f.modulation = .dual ∧ Odd f.microVectorFactor
    · exact ⟨_, .oddFactor hattached hsize hpower hodd⟩
    · exact Admits.exists_verdict ⟨hattached, hsize, hpower, hodd⟩
  · exact ⟨_, .noFigure hsome⟩

theorem verdict_defineWobble (s : Seam) : s.FreeVerdict (s.defineWobble .free).1 := by
  obtain ⟨r, hr⟩ := s.exists_verdict
  rw [hr.eq_fst]
  exact hr

/-- The definition of a free wobbling ends as its verdict says, and in no other way. If it fails,
the seam has no vectors any more and is otherwise as it was. -/
theorem free_definition_verdict (s : Seam) :
    (∀ r, (s.defineWobble .free).1 = r ↔ s.FreeVerdict r) ∧
    ∀ fault t, s.defineWobble .free = (.error fault, t) →
      t = { s with compensation := .cleared } := by
  constructor
  · intro r
    refine ⟨fun hr => ?_, FreeVerdict.eq_fst⟩
    rw [← hr]
    exact s.verdict_defineWobble
  · intro fault t hd
    have hkept := s.defineWobble_eq .free
    have hcleared := cleared_of_defineWobble hd
    rw [hd] at hkept
    simp only [hcleared] at hkept
    exact hkept

/-- It modulates both channels, so that its factor is halved at least. -/
def dualTriangle : Figure := { coreTriangle with modulationMask := 3, microVectorFactor := 4 }

/-- A delay for which the powers move back by two of four segments. -/
def benchDelayed : Seam :=
  { config := { powerDelay := -30 }, data := { power := 0.5, ringPower := 0.25 },
    wobbleFigure := some dualTriangle }

/-- The same figure with its vectors, and a delay that is far too long for it. -/
def benchOverdue : Seam :=
  { (benchDelayed.defineWobble .free).2 with config := { powerDelay := 10000 } }

theorem bench_shift_too_long :
    benchOverdue.compensation.segments = 4 ∧
    benchOverdue.FreeVerdict (.error (.compensationAbandoned 500 4)) ∧
    (benchOverdue.defineWobble .free).2 = { benchOverdue with compensation := .cleared } := by
  have hvectors : benchOverdue.compensation.segments = 4 := by decide +kernel
  have hfault : (benchOverdue.defineWobble .free).1 = .error (.compensationAbandoned 500 4) := by
    decide +kernel
  obtain ⟨hverdict, hcleared⟩ := free_definition_verdict benchOverdue
  exact ⟨hvectors, (hverdict _).1 hfault, hcleared _ _ (Prod.ext hfault rfl)⟩

/-! ### The vectors of a definition that succeeds -/

/-- A free wobbling that is defined has the least divisor that fits and the shift for the delay with
it, and its vectors follow the figure split with this divisor, the powers moved by this shift. -/
theorem free_vectors_follow_figure {setup : Setup} (hattached : s.wobbleFigure = some f)
    (hd : s.defineWobble .free = (.ok setup, t)) :
    setup = .free f.modulation ∧ IsLeast f.fittingDivisors t.compensation.divisor ∧
    t.compensation.shift = s.shiftFor t.compensation.divisor ∧
    t.compensation.Follows s.nominal f.modulation
      (microPoints f.points (f.microVectorFactor / t.compensation.divisor)) := by
  have hverdict := s.verdict_defineWobble
  obtain ⟨g, hfree, -, hvectors⟩ := defineWobble_free_vectors hd
  obtain ⟨hg, hsize, -⟩ := freeFigure_ok hfree
  obtain rfl : g = f := Option.some.inj (hg.symm.trans hattached)
  rw [hd] at hverdict
  cases hverdict with
  | @defined g' d hadmits hleast hshift =>
    obtain rfl : g' = g := Option.some.inj (hadmits.attached.symm.trans hattached)
    obtain ⟨p, hp, hvalues⟩ := Compensation.define_ok hvectors
    rw [plan_of_fitting hleast, if_neg (Nat.not_lt.2 hshift)] at hp
    obtain rfl := Except.ok.inj hp
    have hdivisor : t.compensation.divisor = d := by rw [hvalues]
    refine ⟨rfl, by rw [hdivisor]; exact hleast, by rw [hvalues], ?_⟩
    exact Compensation.follows_of_define hsize hvectors

theorem bench_vectors_follow :
    (benchDelayed.defineWobble .free).1 = .ok (.free .dual) ∧
    (benchDelayed.defineWobble .free).2.compensation.segments = 4 ∧
    (benchDelayed.defineWobble .free).2.compensation.shift = -2 ∧
    (benchDelayed.defineWobble .free).2.compensation.divisor = 2 ∧
    (benchDelayed.defineWobble .free).2.compensation.Follows benchDelayed.nominal .dual
      (microPoints dualTriangle.points 2) := by
  have hdefined : (benchDelayed.defineWobble .free).1 = .ok (.free .dual) := by decide +kernel
  have hsegments : (benchDelayed.defineWobble .free).2.compensation.segments = 4 := by
    decide +kernel
  have hshift : (benchDelayed.defineWobble .free).2.compensation.shift = -2 := by decide +kernel
  have hdivisor : (benchDelayed.defineWobble .free).2.compensation.divisor = 2 := by decide +kernel
  have hd : benchDelayed.defineWobble .free =
      (.ok (.free .dual), (benchDelayed.defineWobble .free).2) := Prod.ext hdefined rfl
  obtain ⟨-, -, -, hfollows⟩ := free_vectors_follow_figure rfl hd
  rw [hdivisor] at hfollows
  exact ⟨hdefined, hsegments, hshift, hdivisor, hfollows⟩

end Seam

end GalvoWeld
