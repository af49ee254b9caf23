import GalvoWeld.Proofs.Device.Operations

/-!
# Wobble vectors in a list

A list is written with a reserve for the vectors of a free wobble figure. The vectors of a built
list fit into it whatever was done before, as long as no figure has a micro-vector factor of 0 and
too many points.
-/

namespace GalvoWeld

open Wobble (ProperFor Compensation Setup maxSegments segmentLimit)

/-- What the operation brings in is counted right. -/
def Operation.Proper (disk : Disk) : Operation → Prop
  | attachWobble figure => ∀ f, figure = some f → f.Proper
  | loadWobble path => ∀ f, Figure.load disk path = .ok f → f.Proper
  | defineVectors figure modulation => ProperFor figure (modulation = .dual)
  | _ => True

namespace Card

/-! ### Vectors of one list -/

def Call.isVector : Call → Bool
  | .setWobbelVector .. => true
  | _ => false

theorem isQuiet_of_isVector {call : Call} (hv : call.isVector = true) : call.isQuiet = true := by
  cases call <;> first | rfl | cases hv

theorem length_vectorCalls_le (calibration : Float) (c : Compensation) :
    (vectorCalls calibration c).length ≤ c.segments := by
  simp only [vectorCalls, List.length_zipWith, List.length_zip, Compensation.segments]
  omega

theorem countP_wobbleCalls_le (s : Seam) (setup : Setup) :
    (wobbleCalls s setup).countP Call.isVector ≤ s.compensation.segments := by
  cases setup with
  | off => exact Nat.zero_le _
  | basic shape => exact Nat.zero_le _
  | free modulation =>
    have hvectors := length_vectorCalls_le s.config.calibrationFactor s.compensation
    have hcount := List.countP_le_length
      (p := Call.isVector) (l := vectorCalls s.config.calibrationFactor s.compensation)
    have hmode : [Call.setWobbelMode 0 0 (wobbleFrequency s) freeCode].countP Call.isVector = 0 :=
      rfl
    simp only [wobbleCalls, List.countP_append, hmode]
    omega

theorem countP_listCalls_le (s : Seam) (setup : Setup) (memo : Memo) (contour : Contour) :
    (listCalls s setup (lowered s.config.calibrationFactor memo contour)).countP Call.isVector ≤
      s.compensation.segments := by
  have hcontour : (lowered s.config.calibrationFactor memo contour).countP Call.isVector = 0 := by
    rw [List.countP_eq_length_filter, filter_lowered _ _ _ fun _ => isQuiet_of_isVector]
    rfl
  have hend : (if setup = .off then [] else [wobbleOff]).countP Call.isVector = 0 := by
    split <;> rfl
  have hwobble := countP_wobbleCalls_le s setup
  rw [listCalls, List.countP_cons_of_neg Bool.false_ne_true, List.countP_append, List.countP_append,
    hcontour, hend]
  exact hwobble

end Card

/-! ### Runs -/

namespace Welder

theorem counted_compile {δ : Type} [Device δ] {w : Welder δ} (hw : w.seam.Counted)
    (setup : Setup) : (w.compile setup).2.seam.Counted := by
  obtain ⟨stage, hseam⟩ := w.seam_compile setup
  rw [hseam]
  exact ⟨hw.figure, hw.vectors⟩

theorem counted_empty (config : Config) : Seam.Counted { config } where
  figure f hf := by cases hf
  vectors := Nat.zero_le _

theorem counted_perform {δ : Type} [Device δ] {w : Welder δ} (hw : w.seam.Counted)
    {op : Operation} (hop : op.Proper w.disk) : (w.perform op).2.seam.Counted := by
  have hprepared : ∀ data figure, (w.seam.prepare data figure).Counted :=
    fun _ _ => ⟨hw.figure, Nat.zero_le _⟩
  cases op with
  | prepare data figure =>
    simp only [perform, prepare]
    split
    · exact hw
    · exact hprepared data figure
  | prepareSeam data figure => exact hprepared data figure
  | attachWobble figure => exact ⟨hop, hw.vectors⟩
  | loadWobble path => exact hw.loadWobble hop
  | defineWobble mode => exact hw.defineWobble mode
  | resolveWobble => exact hw.resolveWobble
  | planWobble figure dual =>
    refine ⟨hw.figure, ?_⟩
    have hsegments := w.seam.segments_planWobble figure dual
    exact Nat.le_trans (Nat.le_of_eq hsegments) hw.vectors
  | defineVectors figure modulation =>
    exact ⟨hw.figure, Seam.segments_defineVectors hw.vectors hop⟩
  | buildList contour setup => exact hw
  | buildWeldingList =>
    have hresolve := hw.resolveWobble
    simp only [perform, buildWeldingList]
    split
    · split
      · next heq =>
        rw [heq] at hresolve
        exact hresolve
      · next heq =>
        rw [heq] at hresolve
        exact counted_compile hresolve _
    · exact counted_compile hw _
    · exact hw
  | buildPreviewList data figure =>
    have hresolve := (hprepared { data with mode := .preview } figure).resolveWobble
    simp only [perform, buildPreviewList]
    split
    · next heq =>
      rw [heq] at hresolve
      exact hresolve
    · next heq =>
      rw [heq] at hresolve
      exact counted_compile hresolve _
  | resetSeam => exact counted_empty w.seam.config
  | moveTo place => exact hw
  | startMark =>
    simp only [perform, startMark]
    split
    · exact hw
    · exact ⟨hw.figure, hw.vectors⟩
  | stopMark => exact hw

theorem disk_perform (w : Welder CardDevice) (op : Operation) :
    (w.perform op).2.disk = w.disk := by
  have hcompile : ∀ (v : Welder CardDevice) (setup : Setup),
      (v.compile setup).2.disk = v.disk := by
    intro v setup
    unfold compile buildList
    split
    · rfl
    · simp only
      split <;> next heq => (obtain rfl := (Prod.mk.inj heq).2; rfl)
  cases op with
  | prepare data figure =>
    simp only [perform, prepare]
    split <;> rfl
  | buildWeldingList =>
    simp only [perform, buildWeldingList]
    split
    · split
      · rfl
      · exact hcompile _ _
    · exact hcompile _ _
    · rfl
  | buildPreviewList data figure =>
    simp only [perform, buildPreviewList]
    split
    · rfl
    · exact hcompile _ _
  | buildList contour setup => simp only [perform, buildList, Device.lower]
  | _ => rfl

theorem counted_after {config : Config} {device : CardDevice} {disk : Disk}
    {ops : List Operation} (hops : ∀ op ∈ ops, op.Proper disk) :
    ((create config device disk).after ops).seam.Counted ∧
      ((create config device disk).after ops).disk = disk := by
  refine after_induction (P := fun v => v.seam.Counted ∧ v.disk = disk)
    ⟨counted_empty config, rfl⟩ fun v op hm hv => ?_
  obtain ⟨hcounted, hdisk⟩ := hv
  have hop := hops op hm
  rw [← hdisk] at hop
  exact ⟨counted_perform hcounted hop, (disk_perform v op).trans hdisk⟩

end Welder

/-! ### The reserve -/

/-- Whatever was done with a new welder: if every figure brought in is counted right, then a free
wobbling has no more vectors than its limit, and the vectors of a list that is built fit into the
reserve. -/
theorem vectors_within_reserve {config : Config} {device : CardDevice} {disk : Disk}
    {ops : List Operation} {w : Welder CardDevice}
    (hw : w = (Welder.create config device disk).after ops)
    (hops : ∀ op ∈ ops, op.Proper disk) :
    (∀ setup s, w.seam.defineWobble .free = (.ok setup, s) → ∃ modulation,
      setup = .free modulation ∧ s.compensation.segments ≤ segmentLimit (modulation = .dual)) ∧
    ∀ op w', op.builds = true → w.perform op = (.ok (), w') → ∃ list,
      w'.device.card.calls =
        w.device.card.calls ++ .loadList Card.listNumber 0 :: (list ++ [.setEndOfList]) ∧
      list.countP Card.Call.isVector ≤ Card.vectorReserve := by
  have hrun : w.seam.Counted ∧ w.disk = disk := by
    rw [hw]
    exact Welder.counted_after hops
  obtain ⟨hcounted, hdisk⟩ := hrun
  constructor
  · intro setup s hd
    obtain ⟨figure, hfree, hsetup, -⟩ := Seam.defineWobble_free_ok hd
    obtain ⟨hattached, -⟩ := Seam.freeFigure_ok hfree
    have hproper := hcounted.figure figure hattached
    exact ⟨figure.modulation, hsetup, (Seam.segments_le_iff hd hattached).2 hproper⟩
  · intro op w' hbuilds hok
    have hop : op.Proper w.disk := by
      cases op <;> trivial
    have hnext := Welder.counted_perform hcounted hop
    rw [hok] at hnext
    obtain ⟨s, contour, setup, hvectors, hlower⟩ := Welder.lower_of_builds hbuilds hok
    obtain ⟨-, -, hcalls⟩ := CardDevice.lower_ok hlower
    refine ⟨_, hcalls, ?_⟩
    have hcount := Card.countP_listCalls_le s setup w.device.memo contour
    have hlimit := hnext.vectors
    rw [← hvectors] at hlimit
    have hreserve : maxSegments ≤ Card.vectorReserve := by decide
    omega

/-- A triangle that is split into halves. -/
def benchTriangle : Figure :=
  { Figure.ofPoints [⟨⟨0, 0⟩, 0, 0, 0⟩, ⟨⟨0.1, 0⟩, 0, 0, 0⟩, ⟨⟨0, 0.1⟩, 0, 0, 0⟩]
    with microVectorFactor := 2 }

def benchWobbling : List Operation :=
  [.attachWobble benchTriangle,
    .prepare { power := 0.5, wobbleMode := .free } (Figure.ofPoints [⟨⟨0, 0⟩, 0.5, 0, 100⟩])]

theorem bench_within_reserve :
    ∃ list, (((Welder.create {} CardDevice.fresh ⟨[], []⟩).after benchWobbling).perform
        .buildWeldingList).2.device.card.calls =
          .loadList Card.listNumber 0 :: (list ++ [.setEndOfList]) ∧
      list.countP Card.Call.isVector ≤ Card.vectorReserve := by
  have hops : ∀ op ∈ benchWobbling, op.Proper ⟨[], []⟩ := by
    intro op hm
    rcases List.mem_cons.1 hm with rfl | hm
    · intro f hf
      obtain rfl := Option.some.inj hf
      exact .inl (by decide)
    · obtain rfl := List.mem_singleton.1 hm
      trivial
  have hfit := vectors_within_reserve
    (w := (Welder.create {} CardDevice.fresh ⟨[], []⟩).after benchWobbling) rfl hops
  exact hfit.2 .buildWeldingList _ rfl rfl

/-- A figure that is not counted at all: of 1025 segments each is split into none. -/
def longFigure : Figure :=
  { Figure.ofPoints (List.replicate 1026 ⟨⟨0, 0⟩, 0, 0, 0⟩) with microVectorFactor := 0 }

theorem long_figure_over_limit :
    ¬ ∀ (s t : Seam) (modulation : Modulation),
      s.defineWobble .free = (.ok (.free modulation), t) →
      t.compensation.segments ≤ segmentLimit (modulation = .dual) := by
  intro hall
  let s : Seam := { config := {}, data := { power := 0.5 }, wobbleFigure := some longFigure }
  have hsize : longFigure.size = 1026 := List.length_replicate
  have hmodulation : longFigure.modulation = .single .core := rfl
  have hpower : isNegligible s.data.power = false := by decide +kernel
  have hfree : s.freeFigure = .ok longFigure := by
    simp only [Seam.freeFigure, s, hsize, hmodulation]
    simp [Modulation.covers, hpower, s]
  obtain ⟨t, ht⟩ : ∃ t, s.defineWobble .free = (.ok (.free longFigure.modulation), t) := by
    have hdivisor : Wobble.findDivisor 1025 0 false = 1 := by decide +kernel
    have hshift : Wobble.delayShift 0 (Wobble.shiftResolution 1) = 0 := by decide +kernel
    have hfactor : longFigure.microVectorFactor = 0 := rfl
    have hplan : Wobble.Plan.of s.config.powerDelay longFigure false =
        .ok ⟨1, 0, longFigure.points⟩ := by
      simp [Wobble.Plan.of, hsize, hfactor, hdivisor, hshift, Wobble.microPoints_of_le, s]
    exact Seam.defineWobble_of_plan hfree hplan
  have hlimit := hall s t longFigure.modulation ht
  have hproper := (Seam.segments_le_iff ht rfl).1 hlimit
  rw [Figure.Proper, hsize, hmodulation] at hproper
  rcases hproper with hfactor | hfew
  · exact hfactor rfl
  · exact absurd hfew (by decide)

end GalvoWeld
