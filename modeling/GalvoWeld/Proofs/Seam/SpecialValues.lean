import Mathlib.Order.Bounds.Basic
import GalvoWeld.Seam.Data

/-!
# Special values resolved

A weld point that repeats a value has the value of the last point up to it that does not repeat, and
where there is none the default. The two powers and the velocity follow the same rule independently
of each other. Points that were resolved stay as they are when they are resolved again.
-/

namespace GalvoWeld

/-- What a weld point says besides its place. -/
inductive WeldQuantity where
  | power
  | ringPower
  | velocity
deriving DecidableEq, Repr

namespace WeldQuantity

def value : WeldQuantity → FigurePoint → Float
  | power, p => p.power
  | ringPower, p => p.ringPower
  | velocity, p => p.velocity

def default : WeldQuantity → SeamData → Float
  | power, data => data.power
  | ringPower, data => data.ringPower
  | velocity, data => data.velocity

/-- The points up to `i` that do not repeat the value of the point before. -/
def settersUpTo (q : WeldQuantity) (points : List FigurePoint) (i : Nat) : Set Nat :=
  {j | j ≤ i ∧ ∃ p, points[j]? = some p ∧ isPrevious (q.value p) = false}

/-- The value at point `i`: that of the last point that sets it, which may stand for the default. -/
structure StandsAt (q : WeldQuantity) (data : SeamData) (points : List FigurePoint) (i : Nat)
    (x : Float) : Prop where
  ofSetter : ∀ j p, IsGreatest (q.settersUpTo points i) j → points[j]? = some p →
    x = if isDefault (q.value p) then q.default data else q.value p
  ofNone : q.settersUpTo points i = ∅ → x = q.default data

variable {q : WeldQuantity} {data : SeamData} {points : List FigurePoint} {p : FigurePoint}
  {i : Nat} {x : Float} {previous : Option Float}

theorem resolve_value (q : WeldQuantity) (data : SeamData) (previous : Option FigurePoint)
    (p : FigurePoint) :
    q.value (p.resolve data previous) =
      resolveSpecial (q.value p) (previous.map q.value) (q.default data) := by
  cases q <;> rfl

/-- A point that sets the value is the last to do so, whatever came before. -/
theorem StandsAt.own (hp : points[i]? = some p) (hown : isPrevious (q.value p) = false) :
    q.StandsAt data points i (resolveSpecial (q.value p) previous (q.default data)) := by
  have hlast : IsGreatest (q.settersUpTo points i) i :=
    ⟨⟨Nat.le_refl i, p, hp, hown⟩, fun _ hj => hj.1⟩
  constructor
  · intro j s hj hs
    obtain rfl := hj.unique hlast
    obtain rfl := Option.some.inj (hp.symm.trans hs)
    simp only [resolveSpecial, hown, Bool.false_eq_true, if_false]
  · intro hnone
    have hmem := hlast.1
    rw [hnone] at hmem
    exact absurd hmem (Set.notMem_empty i)

theorem StandsAt.first (hp : points[0]? = some p) (hrepeats : isPrevious (q.value p) = true) :
    q.StandsAt data points 0 (q.default data) := by
  refine ⟨fun j s hj _ => ?_, fun _ => rfl⟩
  obtain ⟨hle, r, hr, hown⟩ := hj.1
  obtain rfl := Nat.le_zero.1 hle
  obtain rfl := Option.some.inj (hp.symm.trans hr)
  exact absurd hrepeats (by simp [hown])

theorem StandsAt.repeated (hp : points[i + 1]? = some p)
    (hrepeats : isPrevious (q.value p) = true) (h : q.StandsAt data points i x) :
    q.StandsAt data points (i + 1) x := by
  have hsame : q.settersUpTo points (i + 1) = q.settersUpTo points i := by
    ext j
    constructor
    · rintro ⟨hle, r, hr, hown⟩
      have hne : j ≠ i + 1 := by
        rintro rfl
        obtain rfl := Option.some.inj (hp.symm.trans hr)
        exact absurd hrepeats (by simp [hown])
      exact ⟨by omega, r, hr, hown⟩
    · rintro ⟨hle, hset⟩
      exact ⟨by omega, hset⟩
  exact ⟨hsame ▸ h.ofSetter, hsame ▸ h.ofNone⟩

end WeldQuantity

/-! ### One point after the other -/

section
variable (data : SeamData)

theorem resolveAfter_zero (previous : Option FigurePoint) (points : List FigurePoint) :
    (resolveAfter data previous points)[0]? = points[0]?.map (·.resolve data previous) := by
  cases points with
  | nil => rfl
  | cons p rest => rfl

/-- Every later point is resolved behind the one before it. -/
theorem resolveAfter_succ (previous : Option FigurePoint) (points : List FigurePoint) (i : Nat) :
    (resolveAfter data previous points)[i + 1]? =
      points[i + 1]?.map (·.resolve data (resolveAfter data previous points)[i]?) := by
  induction points generalizing previous i with
  | nil => rfl
  | cons p rest ih =>
    cases i with
    | zero => exact resolveAfter_zero data (some (p.resolve data previous)) rest
    | succ i => exact ih (some (p.resolve data previous)) i

theorem position_resolveAfter (previous : Option FigurePoint) (points : List FigurePoint) :
    (resolveAfter data previous points).map (·.position) = points.map (·.position) := by
  induction points generalizing previous with
  | nil => rfl
  | cons p rest ih =>
    simp only [resolveAfter, List.map_cons, ih]
    rfl

theorem length_resolveAfter (previous : Option FigurePoint) (points : List FigurePoint) :
    (resolveAfter data previous points).length = points.length := by
  have hlength := congrArg List.length (position_resolveAfter data previous points)
  rwa [List.length_map, List.length_map] at hlength

theorem standsAt_resolvePoints (q : WeldQuantity) (points : List FigurePoint) (i : Nat)
    {r : FigurePoint} (hr : (resolvePoints data points)[i]? = some r) :
    q.StandsAt data points i (q.value r) := by
  rw [resolvePoints] at hr
  induction i generalizing r with
  | zero =>
    rw [resolveAfter_zero] at hr
    obtain ⟨p, hp, rfl⟩ := Option.map_eq_some_iff.1 hr
    rw [q.resolve_value]
    cases hown : isPrevious (q.value p) with
    | false => exact .own hp hown
    | true =>
      simp only [resolveSpecial, hown, if_true]
      exact .first hp hown
  | succ i ih =>
    rw [resolveAfter_succ] at hr
    obtain ⟨p, hp, rfl⟩ := Option.map_eq_some_iff.1 hr
    rw [q.resolve_value]
    cases hown : isPrevious (q.value p) with
    | false => exact .own hp hown
    | true =>
      -- the point before is there, so that its value is the one repeated
      have hlength : i < points.length := by
        have hbelow := (List.getElem?_eq_some_iff.1 hp).1
        omega
      cases hbefore : (resolveAfter data none points)[i]? with
      | none =>
        rw [List.getElem?_eq_none_iff, length_resolveAfter] at hbefore
        omega
      | some before =>
        simp only [resolveSpecial, hown, if_true, Option.map_some, Option.getD_some]
        exact (ih hbefore).repeated hp hown

/-! ### Resolved again -/

/-- A point without a value to resolve, but for a default that stands for itself. -/
def FigurePoint.IsResolved (p : FigurePoint) : Prop :=
  ∀ q : WeldQuantity, isPrevious (q.value p) = false ∧
    (isDefault (q.value p) = true → q.value p = q.default data)

variable {data}

theorem FigurePoint.isResolved_resolve
    (hdefault : ∀ q : WeldQuantity, isPrevious (q.default data) = false)
    {previous : Option FigurePoint} (hprevious : ∀ r ∈ previous, r.IsResolved data)
    (p : FigurePoint) : (p.resolve data previous).IsResolved data := by
  intro q
  rw [q.resolve_value, resolveSpecial]
  split_ifs with hrepeats hstands
  · cases previous with
    | none => exact ⟨hdefault q, fun _ => rfl⟩
    | some r => exact hprevious r rfl q
  · exact ⟨hdefault q, fun _ => rfl⟩
  · exact ⟨by simpa using hrepeats, fun h => absurd h hstands⟩

theorem FigurePoint.IsResolved.resolve_eq {p : FigurePoint} (h : p.IsResolved data)
    (previous : Option FigurePoint) : p.resolve data previous = p := by
  have hvalue : ∀ q : WeldQuantity, q.value (p.resolve data previous) = q.value p := by
    intro q
    obtain ⟨hown, hdefault⟩ := h q
    rw [q.resolve_value, resolveSpecial, if_neg (by simp [hown])]
    split_ifs with hstands
    · exact (hdefault hstands).symm
    · rfl
  have hpower := hvalue .power
  have hring := hvalue .ringPower
  have hvelocity := hvalue .velocity
  cases p
  simp only [FigurePoint.resolve, WeldQuantity.value] at hpower hring hvelocity ⊢
  rw [hpower, hring, hvelocity]

theorem isResolved_resolveAfter
    (hdefault : ∀ q : WeldQuantity, isPrevious (q.default data) = false)
    (points : List FigurePoint) {previous : Option FigurePoint}
    (hprevious : ∀ r ∈ previous, r.IsResolved data) :
    ∀ r ∈ resolveAfter data previous points, r.IsResolved data := by
  induction points generalizing previous with
  | nil => exact fun r hr => absurd hr List.not_mem_nil
  | cons p rest ih =>
    have hp := FigurePoint.isResolved_resolve hdefault hprevious p
    intro r hr
    rcases List.mem_cons.1 hr with rfl | hrest
    · exact hp
    · exact ih (fun s hs => Option.mem_some_iff.1 hs ▸ hp) r hrest

theorem resolveAfter_of_isResolved (points : List FigurePoint)
    (h : ∀ p ∈ points, p.IsResolved data) (previous : Option FigurePoint) :
    resolveAfter data previous points = points := by
  induction points generalizing previous with
  | nil => rfl
  | cons p rest ih =>
    have hp := (h p (List.mem_cons_self ..)).resolve_eq previous
    simp only [resolveAfter, hp, ih fun r hr => h r (List.mem_cons_of_mem _ hr)]

end

/-- Resolving leaves every point in its place and gives each of its values as the last point that
sets it says. Where no default would repeat a value, resolving once more changes nothing. -/
theorem special_values_resolved (data : SeamData) (points : List FigurePoint) :
    (resolvePoints data points).map (·.position) = points.map (·.position) ∧
    (∀ (q : WeldQuantity) (i : Nat) (r : FigurePoint), (resolvePoints data points)[i]? = some r →
      q.StandsAt data points i (q.value r)) ∧
    ((∀ q : WeldQuantity, isPrevious (q.default data) = false) →
      resolvePoints data (resolvePoints data points) = resolvePoints data points) := by
  refine ⟨position_resolveAfter data none points,
    fun q i r => standsAt_resolvePoints data q points i, fun hdefault => ?_⟩
  have hresolved : ∀ r ∈ resolvePoints data points, r.IsResolved data :=
    isResolved_resolveAfter hdefault points fun r hr => absurd hr (Option.not_mem_none r)
  exact resolveAfter_of_isResolved _ hresolved none

/-- Powers that are set, repeated and left to the default, and velocities that begin repeated. -/
def benchSpecials : List FigurePoint :=
  [⟨⟨0, 0⟩, 0.5, -1, -1⟩, ⟨⟨1, 0⟩, -1, 0.25, 80⟩, ⟨⟨2, 0⟩, -2, -1, -1⟩, ⟨⟨3, 0⟩, -1, -2, -2⟩]

def benchDefaults : SeamData := { power := 0.75, ringPower := 0.125 }

theorem bench_specials_resolved :
    (resolvePoints benchDefaults benchSpecials).map (·.power) = [0.5, 0.5, 0.75, 0.75] ∧
    (resolvePoints benchDefaults benchSpecials).map (·.velocity) = [100, 80, 80, 100] ∧
    WeldQuantity.power.StandsAt benchDefaults benchSpecials 3 0.75 ∧
    resolvePoints benchDefaults (resolvePoints benchDefaults benchSpecials) =
      resolvePoints benchDefaults benchSpecials := by
  have hpower : (resolvePoints benchDefaults benchSpecials).map (·.power) =
      [0.5, 0.5, 0.75, 0.75] := by decide +kernel
  have hvelocity : (resolvePoints benchDefaults benchSpecials).map (·.velocity) =
      [100, 80, 80, 100] := by decide +kernel
  have hdefault : ∀ q : WeldQuantity, isPrevious (q.default benchDefaults) = false := by
    intro q
    cases q <;> decide +kernel
  obtain ⟨-, hvalues, hagain⟩ := special_values_resolved benchDefaults benchSpecials
  have hlast : ((resolvePoints benchDefaults benchSpecials).map (·.power))[3]? = some 0.75 := by
    rw [hpower]
    rfl
  rw [List.getElem?_map] at hlast
  obtain ⟨r, hr, hvalue⟩ := Option.map_eq_some_iff.1 hlast
  have hstands := hvalues .power 3 r hr
  rw [WeldQuantity.value, hvalue] at hstands
  exact ⟨hpower, hvelocity, hstands, hagain hdefault⟩

end GalvoWeld
