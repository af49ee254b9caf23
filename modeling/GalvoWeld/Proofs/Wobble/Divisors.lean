import Mathlib.Algebra.Ring.Parity
import Mathlib.Data.Set.Basic
import Mathlib.Order.Bounds.Basic
import GalvoWeld.Proofs.Wobble.Segments

/-!
# The divisor that is found

The divisor of a micro-vector factor is the least one that brings the figure under the segment
limit. Where none does it is the greatest one that was tried, so that the limit is still broken with
it; only an odd factor has no divisor at all where both channels are modulated. What a plan comes to
follows: too many segments where no divisor fits, and a shift that is measured with the least one.
-/

namespace GalvoWeld.Wobble

/-- The divisors of a factor that may be taken: even ones where both channels are modulated. -/
def allowedDivisors (factor : Nat) (dual : Bool) : Set Nat :=
  {d | (1 ≤ d ∧ d ≤ maxDivisor) ∧ d ∣ factor ∧ (dual = true → Even d)}

/-- The divisors that also bring a figure under the segment limit. -/
def fittingDivisors (segments factor : Nat) (dual : Bool) : Set Nat :=
  {d ∈ allowedDivisors factor dual | segments * (factor / d) ≤ segmentLimit dual}

/-! ### The candidates as a set -/

theorem mem_candidates_iff {factor d : Nat} {dual : Bool} :
    d ∈ divisorCandidates factor dual ↔ d ∈ allowedDivisors factor dual := by
  rw [mem_divisorCandidates]
  simp only [allowedDivisors, Set.mem_ofPred_eq, Nat.dvd_iff_mod_eq_zero, Nat.even_iff, and_assoc]

theorem candidate_fits_iff {segments factor d : Nat} {dual : Bool} :
    (d ∈ divisorCandidates factor dual ∧ fitsLimit segments factor dual d = true) ↔
      d ∈ fittingDivisors segments factor dual := by
  rw [mem_candidates_iff, fitsLimit, decide_eq_true_iff]
  rfl

theorem pairwise_candidates (factor : Nat) (dual : Bool) :
    (divisorCandidates factor dual).Pairwise (· < ·) :=
  (List.pairwise_lt_range' 1 Nat.one_pos).filter _

/-- With an odd factor no even number divides it; otherwise the least number allowed does. -/
theorem allowedDivisors_eq_empty {factor : Nat} {dual : Bool} :
    allowedDivisors factor dual = ∅ ↔ dual = true ∧ Odd factor := by
  rw [Set.eq_empty_iff_forall_notMem]
  constructor
  · intro hnone
    refine Decidable.byContradiction fun hother => ?_
    cases dual with
    | false => exact hnone 1 ⟨by decide, Nat.one_dvd factor, nofun⟩
    | true =>
      have heven : Even factor := Nat.not_odd_iff_even.1 fun hodd => hother ⟨rfl, hodd⟩
      exact hnone 2 ⟨by decide, heven.two_dvd, fun _ => even_two⟩
  · rintro ⟨rfl, hodd⟩ d ⟨-, hdvd, heven⟩
    have htwo : 2 ∣ factor := (heven rfl).two_dvd.trans hdvd
    exact Nat.not_even_iff_odd.2 hodd (even_iff_two_dvd.2 htwo)

/-! ### First and last of a rising list -/

theorem isLeast_of_find? {l : List Nat} {p : Nat → Bool} {a : Nat} (hl : l.Pairwise (· < ·))
    (ha : l.find? p = some a) : IsLeast {x | x ∈ l ∧ p x = true} a := by
  obtain ⟨hp, before, later, rfl, hbefore⟩ := List.find?_eq_some_iff_append.1 ha
  refine ⟨⟨by simp, hp⟩, ?_⟩
  rintro x ⟨hx, hpx⟩
  rcases List.mem_append.1 hx with hearly | hlate
  · exact absurd hpx (by simpa using hbefore x hearly)
  · rcases List.mem_cons.1 hlate with rfl | hlate
    · exact Nat.le_refl _
    · have htail := (List.pairwise_append.1 hl).2.1
      exact Nat.le_of_lt (List.rel_of_pairwise_cons htail hlate)

theorem isGreatest_of_getLast? {l : List Nat} {a : Nat} (hl : l.Pairwise (· < ·))
    (ha : l.getLast? = some a) : IsGreatest {x | x ∈ l} a := by
  obtain ⟨front, rfl⟩ := List.getLast?_eq_some_iff.1 ha
  refine ⟨by simp, ?_⟩
  intro x hx
  rcases List.mem_append.1 hx with hfront | hlast
  · exact Nat.le_of_lt ((List.pairwise_append.1 hl).2.2 x hfront a (List.mem_singleton.2 rfl))
  · exact Nat.le_of_eq (List.mem_singleton.1 hlast)

/-! ### The search -/

section
variable {segments factor : Nat} {dual : Bool}

theorem isLeast_findDivisor (hfits : (fittingDivisors segments factor dual).Nonempty) :
    IsLeast (fittingDivisors segments factor dual) (findDivisor segments factor dual) := by
  obtain ⟨d, hd⟩ := hfits
  obtain ⟨hm, hp⟩ := candidate_fits_iff.2 hd
  have hset : fittingDivisors segments factor dual =
      {x | x ∈ divisorCandidates factor dual ∧ fitsLimit segments factor dual x = true} :=
    Set.ext fun x => candidate_fits_iff.symm
  cases hfind : (divisorCandidates factor dual).find? (fitsLimit segments factor dual) with
  | none => exact absurd hp (List.find?_eq_none.1 hfind d hm)
  | some found =>
    have hfound : findDivisor segments factor dual = found := by simp only [findDivisor, hfind]
    rw [hfound, hset]
    exact isLeast_of_find? (pairwise_candidates factor dual) hfind

theorem findDivisor_of_crowded (hcrowded : fittingDivisors segments factor dual = ∅) :
    findDivisor segments factor dual =
      (divisorCandidates factor dual).getLast?.getD (if dual then 2 else 1) := by
  have hfind : (divisorCandidates factor dual).find? (fitsLimit segments factor dual) = none := by
    refine List.find?_eq_none.2 fun d hm hp => ?_
    have hd := candidate_fits_iff.1 ⟨hm, hp⟩
    rw [hcrowded] at hd
    exact hd
  simp only [findDivisor, hfind]

theorem isGreatest_findDivisor (hcrowded : fittingDivisors segments factor dual = ∅)
    (hallowed : (allowedDivisors factor dual).Nonempty) :
    IsGreatest (allowedDivisors factor dual) (findDivisor segments factor dual) := by
  obtain ⟨d, hd⟩ := hallowed
  have hset : allowedDivisors factor dual = {x | x ∈ divisorCandidates factor dual} :=
    Set.ext fun x => mem_candidates_iff.symm
  have hne := List.ne_nil_of_mem (mem_candidates_iff.2 hd)
  have hlast := List.getLast?_eq_some_getLast hne
  rw [findDivisor_of_crowded hcrowded, hlast, Option.getD_some, hset]
  exact isGreatest_of_getLast? (pairwise_candidates factor dual) hlast

theorem findDivisor_of_none (hnone : allowedDivisors factor dual = ∅) :
    findDivisor segments factor dual = 2 := by
  have hcrowded : fittingDivisors segments factor dual = ∅ :=
    Set.eq_empty_iff_forall_notMem.2 fun d hd => Set.eq_empty_iff_forall_notMem.1 hnone d hd.1
  have hnil : divisorCandidates factor dual = [] :=
    List.eq_nil_iff_forall_not_mem.2 fun d hm =>
      Set.eq_empty_iff_forall_notMem.1 hnone d (mem_candidates_iff.1 hm)
  obtain ⟨rfl, -⟩ := allowedDivisors_eq_empty.1 hnone
  rw [findDivisor_of_crowded hcrowded, hnil]
  rfl

end

/-- The divisor that is found for any figure: the least that brings it under the limit if there is
one, else the greatest that may be taken if there is one, else 2. The last is so exactly for an odd
factor where both channels are modulated. -/
theorem least_or_greatest_divisor (segments factor : Nat) (dual : Bool) :
    ((fittingDivisors segments factor dual).Nonempty →
      IsLeast (fittingDivisors segments factor dual) (findDivisor segments factor dual)) ∧
    (fittingDivisors segments factor dual = ∅ → (allowedDivisors factor dual).Nonempty →
      IsGreatest (allowedDivisors factor dual) (findDivisor segments factor dual)) ∧
    (allowedDivisors factor dual = ∅ → findDivisor segments factor dual = 2) ∧
    (allowedDivisors factor dual = ∅ ↔ dual = true ∧ Odd factor) :=
  ⟨isLeast_findDivisor, isGreatest_findDivisor, findDivisor_of_none, allowedDivisors_eq_empty⟩

-- a divisor that fits, the greatest of two that do not, and no divisor at all
example : findDivisor 300 8 true = 8 ∧ findDivisor 600 6 true = 6 ∧ findDivisor 3 5 true = 2 := by
  decide +kernel

/-! ### Plans of a figure -/

section
variable {figure : Figure} {dual : Bool} {d : Nat}

/-- Where no divisor fits, the fault counts the segments with the greatest one. -/
theorem Plan.of_crowded
    (hcrowded : fittingDivisors (figure.size - 1) figure.microVectorFactor dual = ∅)
    (hd : IsGreatest (allowedDivisors figure.microVectorFactor dual) d) (delay : Int) :
    Plan.of delay figure dual =
      .error (.tooManySegments ((figure.size - 1) * (figure.microVectorFactor / d))
        (segmentLimit dual)) := by
  have hfound : findDivisor (figure.size - 1) figure.microVectorFactor dual = d :=
    (isGreatest_findDivisor hcrowded ⟨d, hd.1⟩).unique hd
  have hmany : segmentLimit dual < (figure.size - 1) * (figure.microVectorFactor / d) := by
    refine Nat.lt_of_not_le fun hle => ?_
    have hfits : d ∈ fittingDivisors (figure.size - 1) figure.microVectorFactor dual := ⟨hd.1, hle⟩
    rw [hcrowded] at hfits
    exact hfits
  simp only [Plan.of, hfound, if_pos hmany]

/-- With the least divisor that fits, only the shift can be too great. -/
theorem Plan.of_fitting
    (hd : IsLeast (fittingDivisors (figure.size - 1) figure.microVectorFactor dual) d)
    (delay : Int) :
    Plan.of delay figure dual =
      let shift := delayShift delay (shiftResolution d)
      let points := microPoints figure.points (figure.microVectorFactor / d)
      if points.length - 1 < shift.natAbs then
        .error (.compensationAbandoned shift (points.length - 1))
      else .ok ⟨d, shift, points⟩ := by
  have hfound : findDivisor (figure.size - 1) figure.microVectorFactor dual = d :=
    (isLeast_findDivisor ⟨d, hd.1⟩).unique hd
  simp only [Plan.of, hfound, if_neg (Nat.not_lt.2 hd.1.2)]

end

end GalvoWeld.Wobble
