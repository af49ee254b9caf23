import Mathlib.Data.Int.ModEq
import Mathlib.Data.List.Rotate
import GalvoWeld.Proofs.Wobble.Vectors

/-!
# The vectors of a definition, entry by entry

The entries of a segment are its two displacements and the changes of power over it. The powers are
read off the closed figure some points ahead: the index is counted around, with a remainder that is
never negative, so that a delay in either direction is the same rule.
-/

namespace GalvoWeld.Wobble

/-- The point at an index of the figure. -/
def pointAt (points : List FigurePoint) (k : Nat) : FigurePoint := points.getD k default

/-- The power of a channel `shift` points ahead of a point on a closed figure. -/
def powerAhead (channel : PowerChannel) (points : List FigurePoint) (shift : Int) (k : Nat) :
    Float :=
  channel.value (pointAt points (((k : Int) + shift) % ((points.length - 1 : Nat) : Int)).toNat)

theorem getElem_eq_pointAt (points : List FigurePoint) (k : Nat) (hk : k < points.length) :
    points[k] = pointAt points k :=
  (List.getElem_eq_getD default).trans rfl

/-! ### Displacements -/

theorem segmentTurns_eq (points : List FigurePoint) :
    segmentTurns points = (List.range (points.length - 1)).map fun k =>
      ((pointAt points (k + 1)).position - (pointAt points k).position).quarterTurn := by
  refine List.ext_getElem (by simp [length_segmentTurns]) fun k hk _ => ?_
  simp only [length_segmentTurns] at hk
  simp only [segmentTurns, List.getElem_zipWith, List.getElem_tail, List.getElem_map,
    List.getElem_range]
  rw [getElem_eq_pointAt points k, getElem_eq_pointAt points (k + 1)]

/-! ### Powers -/

theorem rotateLeft_eq_rotate (values : List Float) (n : Nat) :
    values.rotateLeft n = values.rotate n := by
  unfold List.rotateLeft
  simp only
  split
  · next hshort =>
    rcases Nat.le_one_iff_eq_zero_or_eq_one.1 hshort with hnil | hone
    · rw [List.length_eq_zero_iff.1 hnil, List.rotate_nil]
    · obtain ⟨value, rfl⟩ := List.length_eq_one_iff.1 hone
      exact (List.rotate_singleton value n).symm
  · exact List.rotate_eq_drop_append_take_mod.symm

theorem index_ahead {m : Nat} (hm : 0 < m) (k : Nat) (shift : Int) :
    (k + (shift % (m : Int)).toNat) % m = (((k : Int) + shift) % (m : Int)).toNat := by
  have hne : (m : Int) ≠ 0 := by omega
  refine Int.natCast_inj.1 ?_
  rw [Int.toNat_of_nonneg (Int.emod_nonneg _ hne), Int.natCast_emod, Int.natCast_add,
    Int.toNat_of_nonneg (Int.emod_nonneg shift hne), Int.add_emod_emod]

variable (channel : PowerChannel) (points : List FigurePoint) (shift : Int)

theorem powerAhead_closing :
    powerAhead channel points shift (points.length - 1) = powerAhead channel points shift 0 := by
  simp only [powerAhead, Int.add_emod_left, Int.natCast_zero, Int.zero_add]

variable {points}

/-- What is moved are the powers of all points but the closing one. -/
theorem shiftedPowers_rotate (hpoints : 2 ≤ points.length) :
    shiftedPowers channel points shift =
      let turned := (points.map channel.value).dropLast.rotate
        (shift % ((points.length - 1 : Nat) : Int)).toNat
      turned ++ turned.take 1 := by
  have hloop : (points.map channel.value).dropLast.length = points.length - 1 := by simp
  have hsome : ¬ (points.map channel.value).dropLast.isEmpty = true := by
    rw [List.isEmpty_iff, ← List.length_eq_zero_iff]
    omega
  simp only [shiftedPowers, if_neg hsome, hloop, rotateLeft_eq_rotate]

theorem rotated_powers (hpoints : 2 ≤ points.length) :
    (points.map channel.value).dropLast.rotate
        (shift % ((points.length - 1 : Nat) : Int)).toNat =
      (List.range (points.length - 1)).map (powerAhead channel points shift) := by
  refine List.ext_getElem (by simp) fun k _ _ => ?_
  have hindex := index_ahead (m := points.length - 1) (by omega) k shift
  simp only [List.getElem_rotate, List.length_dropLast, List.length_map, List.getElem_dropLast,
    List.getElem_map, List.getElem_range, powerAhead, ← hindex]
  rw [getElem_eq_pointAt]

theorem shiftedPowers_eq (hpoints : 2 ≤ points.length) :
    shiftedPowers channel points shift =
      (List.range points.length).map (powerAhead channel points shift) := by
  obtain ⟨m, hm⟩ : ∃ m, points.length = m + 2 := ⟨points.length - 2, by omega⟩
  have hclosing := powerAhead_closing channel points shift
  have hrotated := rotated_powers channel shift hpoints
  rw [shiftedPowers_rotate channel shift hpoints, hrotated]
  -- behind a whole turn stands its first power once more, and that is the closing one
  rw [hm] at hclosing ⊢
  rw [show m + 2 - 1 = m + 1 from rfl] at hclosing ⊢
  simp only
  rw [List.range_succ (n := m + 1), List.map_append, List.map_singleton, hclosing,
    List.range_succ_eq_map, List.map_cons, List.take_succ_cons, List.take_zero]

/-! ### Powers around a closed figure -/

/-- Counted around, the index is always that of a point before the closing one. -/
theorem index_around_lt (hpoints : 2 ≤ points.length) (k : Int) :
    (k % ((points.length - 1 : Nat) : Int)).toNat < points.length - 1 := by
  have hpos : (0 : Int) < ((points.length - 1 : Nat) : Int) := by omega
  have hlow := Int.emod_nonneg k hpos.ne'
  have hhigh := Int.emod_lt_of_pos k hpos
  omega

theorem getElem?_shiftedPowers (hpoints : 2 ≤ points.length) {i : Nat} (hi : i < points.length) :
    (shiftedPowers channel points shift)[i]? =
      (points[(((i : Int) + shift) % ((points.length - 1 : Nat) : Int)).toNat]?).map
        channel.value := by
  have hindex := index_around_lt hpoints ((i : Int) + shift)
  rw [shiftedPowers_eq channel shift hpoints, List.getElem?_map, List.getElem?_range hi,
    Option.map_some, List.getElem?_eq_getElem (by omega), Option.map_some, getElem_eq_pointAt]
  rfl

theorem shiftedPowers_closed (hpoints : 2 ≤ points.length) :
    (shiftedPowers channel points shift).getLast? =
      (shiftedPowers channel points shift).head? := by
  have hlast := getElem?_shiftedPowers channel shift hpoints (i := points.length - 1) (by omega)
  have hfirst := getElem?_shiftedPowers channel shift hpoints (i := 0) (by omega)
  rw [List.getLast?_eq_getElem?, List.head?_eq_getElem?, length_shiftedPowers, hlast, hfirst,
    Int.add_emod_left, Int.natCast_zero, Int.zero_add]

theorem shiftedPowers_zero (hpoints : 2 ≤ points.length) :
    shiftedPowers channel points 0 = (points.dropLast ++ points.take 1).map channel.value := by
  have hfirst : points.dropLast.take 1 = points.take 1 := by
    rw [List.dropLast_eq_take, List.take_take, Nat.min_eq_left (by omega)]
  rw [shiftedPowers_rotate channel 0 hpoints, Int.zero_emod, Int.toNat_zero, List.rotate_zero,
    ← List.map_dropLast]
  simp only [← List.map_take, hfirst, List.map_append]

theorem shiftedPowers_congr (hpoints : 2 ≤ points.length) {other : Int}
    (h : other ≡ shift [ZMOD ((points.length - 1 : Nat) : Int)]) :
    shiftedPowers channel points other = shiftedPowers channel points shift := by
  rw [shiftedPowers_rotate channel other hpoints, shiftedPowers_rotate channel shift hpoints,
    h.eq]

/-- The powers of a channel moved along a figure by any shift: one for each point, that of the point
so many points ahead, counted around. So they close as the figure does, stay as they are for a shift
of 0, and are the same for shifts that differ by whole turns. -/
theorem shiftedPowers_around (hpoints : 2 ≤ points.length) :
    (shiftedPowers channel points shift).length = points.length ∧
    (∀ i < points.length, (shiftedPowers channel points shift)[i]? =
      (points[(((i : Int) + shift) % ((points.length - 1 : Nat) : Int)).toNat]?).map
        channel.value) ∧
    (shiftedPowers channel points shift).getLast? =
      (shiftedPowers channel points shift).head? ∧
    shiftedPowers channel points 0 = (points.dropLast ++ points.take 1).map channel.value ∧
    ∀ other : Int, other ≡ shift [ZMOD ((points.length - 1 : Nat) : Int)] →
      shiftedPowers channel points other = shiftedPowers channel points shift :=
  ⟨length_shiftedPowers channel points shift,
    fun _ hi => getElem?_shiftedPowers channel shift hpoints hi,
    shiftedPowers_closed channel shift hpoints, shiftedPowers_zero channel hpoints,
    fun _ h => shiftedPowers_congr channel shift hpoints h⟩

/-- A closed square with a power at each corner. -/
def squarePoints : List FigurePoint :=
  [⟨⟨0, 0⟩, 0.1, 0, -1⟩, ⟨⟨1, 0⟩, 0.2, 0.05, -1⟩, ⟨⟨1, 1⟩, 0.3, 0.1, -1⟩, ⟨⟨0, 1⟩, 0.4, 0.15, -1⟩,
    ⟨⟨0, 0⟩, 0.1, 0, -1⟩]

theorem square_powers_around :
    2 ≤ squarePoints.length ∧
    shiftedPowers .core squarePoints (-1) = [0.4, 0.1, 0.2, 0.3, 0.4] ∧
    (shiftedPowers .core squarePoints (-1))[2]? = (squarePoints[1]?).map PowerChannel.core.value ∧
    (shiftedPowers .core squarePoints (-1)).getLast? =
      (shiftedPowers .core squarePoints (-1)).head? ∧
    (7 : Int) ≡ -1 [ZMOD 4] ∧
    shiftedPowers .core squarePoints 7 = shiftedPowers .core squarePoints (-1) := by
  have hpoints : 2 ≤ squarePoints.length := by decide
  have hvalues : shiftedPowers .core squarePoints (-1) = [0.4, 0.1, 0.2, 0.3, 0.4] := by
    decide +kernel
  have hturns : (7 : Int) ≡ -1 [ZMOD 4] := by decide
  obtain ⟨-, hentry, hclosed, -, hcongr⟩ := shiftedPowers_around .core (-1) hpoints
  exact ⟨hpoints, hvalues, hentry 2 (by decide), hclosed, hturns, hcongr 7 hturns⟩

-- a whole number of turns back, as far as a shift can go
example : shiftedPowers .ring squarePoints (-2147483648) = [0, 0.05, 0.1, 0.15, 0] := by
  decide +kernel

/-! ### Changes of power -/

theorem powerChanges_eq (hpoints : 2 ≤ points.length) (nominal : Float) (divisor : Nat) :
    powerChanges channel points shift nominal divisor =
      (List.range (points.length - 1)).map fun k =>
        relativePower nominal (nominal + powerAhead channel points shift k)
          (if k = 0 then nominal else nominal + powerAhead channel points shift (k - 1))
          divisor := by
  refine List.ext_getElem (by simp [length_powerChanges]) fun k hk _ => ?_
  simp only [powerChanges, shiftedPowers_eq channel shift hpoints, List.getElem_take,
    List.getElem_zipWith, List.getElem_map, List.getElem_range]
  cases k with
  | zero => rfl
  | succ k => simp

/-! ### What a definition leaves -/

namespace Compensation

def changes (c : Compensation) : PowerChannel → List Float
  | .core => c.power
  | .ring => c.ringPower

/-- The vectors follow the points of a figure, one entry for each segment: its displacements, turned
by a quarter, and on a modulated channel the change from the power of the segment before, with the
nominal power before the first. A channel that is not modulated does not change. -/
structure Follows (c : Compensation) (nominal : NominalPowers) (modulation : Modulation)
    (points : List FigurePoint) : Prop where
  nominal_eq : c.nominal = nominal
  some_segment : 0 < c.segments
  segments : c.segments = points.length - 1
  transversal : c.transversal = (List.range c.segments).map fun k =>
    -((pointAt points (k + 1)).position.y - (pointAt points k).position.y)
  longitudinal : c.longitudinal = (List.range c.segments).map fun k =>
    (pointAt points (k + 1)).position.x - (pointAt points k).position.x
  modulated : ∀ channel, modulation.covers channel = true →
    c.changes channel = (List.range c.segments).map fun k =>
      relativePower (nominal.of channel)
        (nominal.of channel + powerAhead channel points c.shift k)
        (if k = 0 then nominal.of channel
          else nominal.of channel + powerAhead channel points c.shift (k - 1)) c.divisor
  unmodulated : ∀ channel, modulation.covers channel = false →
    c.changes channel = List.replicate c.segments 0

theorem follows_of_define {c d : Compensation} {nominal : NominalPowers} {delay : Int}
    {figure : Figure} {modulation : Modulation} (hsize : 2 < figure.size)
    (hd : c.define nominal delay figure modulation = (.ok (), d)) :
    d.Follows nominal modulation
      (microPoints figure.points (figure.microVectorFactor / d.divisor)) := by
  have hcomplete := complete_of_define hsize hd
  obtain ⟨p, hp, rfl⟩ := define_ok hd
  obtain ⟨-, -, hpoints⟩ := Plan.of_ok hp
  rw [← hpoints]
  have hsegments : (segmentTurns p.points).length = p.points.length - 1 := length_segmentTurns _
  have hsome := hcomplete.some_segment
  simp only [segments, List.length_map, hsegments] at hsome
  refine ⟨rfl, hcomplete.some_segment, ?_, ?_, ?_, ?_, ?_⟩
  all_goals simp only [segments, List.length_map, hsegments]
  · rw [segmentTurns_eq, List.map_map]
    rfl
  · rw [segmentTurns_eq, List.map_map]
    rfl
  · intro channel hcovers
    have hpair : 2 ≤ p.points.length := by omega
    have hchanges := powerChanges_eq channel p.shift hpair (nominal.of channel) p.divisor
    cases channel <;> simp only [changes, changesOn, hcovers, if_true, hchanges]
  · intro channel hcovers
    cases channel <;> simp only [changes, changesOn, hcovers, Bool.false_eq_true, if_false]

end Compensation

end GalvoWeld.Wobble
