import GalvoWeld.Proofs.Wobble.Entries

/-!
# The steps of a split figure

A figure that is split keeps its points, a fixed number of places apart, and between two of them
stand the points of the steps on the way. From any of its points on, the split figure is the split
of what is left of the figure there; the places of the points and of the steps follow. A figure with
nothing to split, or one that would get too many segments, comes back as it is.
-/

namespace GalvoWeld.Wobble

/-- A split of a figure into `n` steps for each segment: every `n`-th place holds a point of the
figure, and `s` places behind it stands the point at `s / n` of the way to the next. -/
structure EvenSteps (n : Nat) (points split : List FigurePoint) : Prop where
  length : split.length = (points.length - 1) * n + 1
  corner : ∀ k (hk : k < points.length), split[k * n]? = some points[k]
  between : ∀ k (hk : k + 1 < points.length) s, 0 < s → s < n →
    split[k * n + s]? = some (points[k].lerp points[k + 1] (Float.ofNat s / Float.ofNat n))

/-! ### The first segment -/

theorem getElem?_innerPoints {n s : Nat} (hs : s + 1 < n) (p q : FigurePoint) :
    (innerPoints n p q)[s]? = some (p.lerp q (Float.ofNat (s + 1) / Float.ofNat n)) := by
  have hrange : s < n - 1 := by omega
  simp only [innerPoints, List.getElem?_map, List.getElem?_range hrange, Option.map_some]

theorem head?_splitSegments (n : Nat) (points : List FigurePoint) :
    (splitSegments n points).head? = points.head? := by
  cases points with
  | nil => rfl
  | cons p rest => cases rest <;> rfl

theorem getElem?_first_segment {n s : Nat} (hfirst : 0 < s) (hs : s < n) (p q : FigurePoint)
    (rest : List FigurePoint) :
    (splitSegments n (p :: q :: rest))[s]? =
      some (p.lerp q (Float.ofNat s / Float.ofNat n)) := by
  obtain ⟨s, rfl⟩ := Nat.exists_eq_add_one.2 hfirst
  have hinner : s < (innerPoints n p q).length := by
    rw [length_innerPoints]
    omega
  rw [splitSegments, List.getElem?_cons_succ, List.getElem?_append_left hinner,
    getElem?_innerPoints hs]

theorem drop_first_segment {n : Nat} (hn : 0 < n) (p q : FigurePoint) (rest : List FigurePoint) :
    (splitSegments n (p :: q :: rest)).drop n = splitSegments n (q :: rest) := by
  have hlength : (p :: innerPoints n p q).length = n := by
    rw [List.length_cons, length_innerPoints]
    omega
  rw [splitSegments, ← List.cons_append]
  exact List.drop_left' hlength

/-! ### All segments -/

theorem drop_splitSegments {n : Nat} (hn : 0 < n) {points : List FigurePoint} {k : Nat}
    (hk : k < points.length) :
    (splitSegments n points).drop (k * n) = splitSegments n (points.drop k) := by
  -- one segment is left behind at a time, in the figure and in its split alike
  induction k generalizing points with
  | zero => rw [Nat.zero_mul, List.drop_zero, List.drop_zero]
  | succ k ih =>
    match points, hk with
    | p :: q :: rest, hk =>
      have hrest : k < (q :: rest).length := Nat.lt_of_succ_lt_succ hk
      rw [Nat.succ_mul, Nat.add_comm, ← List.drop_drop, drop_first_segment hn, ih hrest,
        List.drop_succ_cons]

theorem evenSteps_splitSegments {n : Nat} (hn : 0 < n) {points : List FigurePoint}
    (hsome : points ≠ []) : EvenSteps n points (splitSegments n points) where
  length := length_splitSegments hn hsome
  corner k hk := by
    have hbehind := drop_splitSegments hn hk
    rw [← List.head?_drop, hbehind, head?_splitSegments, List.head?_drop,
      List.getElem?_eq_getElem hk]
  between k hk s hfirst hs := by
    have hpoint : k < points.length := Nat.lt_of_succ_lt hk
    have hbehind := drop_splitSegments hn hpoint
    rw [← List.getElem?_drop, hbehind, List.drop_eq_getElem_cons hpoint,
      List.drop_eq_getElem_cons hk, getElem?_first_segment hfirst hs]

/-! ### The figure that is taken -/

/-- Every figure that can be split is split evenly, with each of its points at its place and the
steps between them at theirs; any other figure is left as it is. -/
theorem microPoints_even_steps (points : List FigurePoint) (n : Nat) :
    (Splittable n points → EvenSteps n points (microPoints points n)) ∧
    (¬ Splittable n points → microPoints points n = points) := by
  refine ⟨fun hsplit => ?_, microPoints_of_not_splittable⟩
  have hsteps : 0 < n := Nat.lt_of_succ_lt hsplit.some_steps
  rw [microPoints_of_splittable hsplit]
  exact evenSteps_splitSegments hsteps hsplit.some_point

/-- The square in quarters: its second corner is the fifth of 17 points, and half way to the third
stands the mean of both in position and powers. In 300 steps it is not split. -/
theorem square_even_steps :
    Splittable 4 squarePoints ∧
    EvenSteps 4 squarePoints (microPoints squarePoints 4) ∧
    (microPoints squarePoints 4).length = 17 ∧
    (microPoints squarePoints 4)[4]? = some ⟨⟨1, 0⟩, 0.2, 0.05, -1⟩ ∧
    (microPoints squarePoints 4)[6]? = some ⟨⟨1, 0.5⟩, 0.25, 0.07500000000000001, -1⟩ ∧
    ¬ Splittable 300 squarePoints ∧
    microPoints squarePoints 300 = squarePoints := by
  have hquarters : Splittable 4 squarePoints := ⟨List.cons_ne_nil _ _, by decide, by decide⟩
  have hmany : ¬ Splittable 300 squarePoints := fun hsplit => absurd hsplit.limit (by decide)
  have hsteps := (microPoints_even_steps squarePoints 4).1 hquarters
  have hmiddle := hsteps.between 1 (by decide) 2 (by decide) (by decide)
  have hmean : squarePoints[1].lerp squarePoints[2] (Float.ofNat 2 / Float.ofNat 4) =
      ⟨⟨1, 0.5⟩, 0.25, 0.07500000000000001, -1⟩ := by
    simp only [FigurePoint.lerp, Point.lerp, FigurePoint.mk.injEq, Point.mk.injEq]
    decide +kernel
  rw [hmean] at hmiddle
  exact ⟨hquarters, hsteps, hsteps.length, hsteps.corner 1 (by decide), hmiddle, hmany,
    (microPoints_even_steps squarePoints 300).2 hmany⟩

end GalvoWeld.Wobble
