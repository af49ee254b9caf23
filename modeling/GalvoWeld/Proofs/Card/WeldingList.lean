import GalvoWeld.Proofs.Device.Building

/-!
# What a welding list welds

A list that was built for a weld figure is replayed on an abstract card: it jumps to where the
contour begins and then marks the points of the figure in their order, each with its own powers and
its own speed.
-/

namespace GalvoWeld.Card

open Wobble (Setup)

/-! ### The figure -/

def markStroke (calibration : Float) (offset : Point) (p : FigurePoint) : Stroke :=
  let place := p.position + offset
  .mark (positionBits place.x calibration) (positionBits place.y calibration)
    { core := some (analogValue (p.power * 100))
      ring := some (analogValue (p.ringPower * 100))
      speed := some (speedBits p.velocity calibration) }

/-- What is to be seen of resolved weld points: a jump to where their contour begins, then a mark
for each. The first point is marked only where the contour begins before it. -/
def figureStrokes (calibration laserDelay : Float) (offset : Point) : List FigurePoint → List Stroke
  | [] => []
  | first :: rest =>
    let start := startPlace calibration laserDelay offset first rest
    let marked := if start == first.position + offset then rest else first :: rest
    .jump (positionBits start.x calibration) (positionBits start.y calibration) ::
      marked.map (markStroke calibration offset)

theorem drawn_marks (calibration : Float) (offset : Point) (o : Output)
    (points : List FigurePoint) :
    drawn calibration o (points.flatMap fun p => markCommands false p (p.position + offset)) =
      points.map (markStroke calibration offset) := by
  induction points generalizing o with
  | nil => rfl
  | cons p rest ih =>
    rw [List.flatMap_cons, List.map_cons]
    exact congrArg (List.cons _) (ih _)

theorem drawn_contourOfPoints {calibration laserDelay : Float} {offset : Point}
    {points : List FigurePoint} {contour : Contour}
    (hc : contourOfPoints calibration laserDelay offset false points = some contour)
    (o : Output) :
    drawn calibration o contour = figureStrokes calibration laserDelay offset points := by
  cases points with
  | nil => cases hc
  | cons first rest =>
    obtain rfl := Option.some.inj hc
    simp only [drawn, figureStrokes, Bool.false_eq_true, if_false, List.nil_append]
    rw [drawn_marks]
    split <;> rfl

/-! ### The calls around it -/

theorem isQuiet_of_setsWobble {call : Call} (hw : call.setsWobble = true) :
    call.isQuiet = true := by
  cases call <;> first | rfl | cases hw

theorem strokes_listCalls (s : Seam) (setup : Setup) (calls : List Call) (o : Output) :
    strokes o (listCalls s setup calls) = strokes o calls := by
  have hwobble : ∀ call ∈ wobbleCalls s setup, call.isQuiet = true :=
    fun call hm => isQuiet_of_setsWobble (setsWobble_wobbleCalls s setup call hm)
  have hend : ∀ call ∈ (if setup = .off then [] else [wobbleOff]), call.isQuiet = true :=
    fun call hm => isQuiet_of_setsWobble (setsWobble_end setup call hm)
  simp only [listCalls, strokes]
  rw [List.append_assoc, strokes_quiet hwobble, strokes_append_quiet hend]

/-! ### Built lists -/

/-- A list built for a weld figure, replayed from whatever the card was set to before, jumps once
and then marks the points of the figure, each with its own resolved powers and speed. -/
theorem strokes_of_buildWeldingList {w w' : Welder CardDevice} {figure : Figure}
    (hmode : w.seam.data.mode = .welding) (hfigure : w.seam.weldFigure = some figure)
    (hb : w.buildWeldingList = (.ok (), w')) :
    ∃ list, w'.device.card.calls =
        w.device.card.calls ++ .loadList listNumber 0 :: (list ++ [.setEndOfList]) ∧
      ∀ o, List.Forall₂ Stroke.Same (strokes o list)
        (figureStrokes w.seam.config.calibrationFactor w.seam.config.laserDelay w.seam.data.offset
          (resolvePoints w.seam.data figure.points)) := by
  obtain ⟨s, contour, setup, halike, hcontour, hlower⟩ :=
    (Welder.builds_buildWeldingList w).hands hb
  obtain ⟨-, -, hcalls⟩ := CardDevice.lower_ok hlower
  refine ⟨_, hcalls, fun o => ?_⟩
  rw [strokes_listCalls]
  have hpoints : contourOfPoints w.seam.config.calibrationFactor w.seam.config.laserDelay
      w.seam.data.offset false (resolvePoints w.seam.data figure.points) = some contour := by
    unfold Seam.contour at hcontour
    rw [halike.weldFigure, halike.config, halike.data, hfigure, hmode] at hcontour
    simp only [reduceCtorEq, decide_false] at hcontour
    split at hcontour
    · next heq =>
      rw [heq, Except.ok.inj hcontour]
    · cases hcontour
  rw [← drawn_contourOfPoints hpoints o, halike.config]
  obtain ⟨rest, rfl⟩ : ∃ rest, contour = .setUp :: rest := by
    cases hr : resolvePoints w.seam.data figure.points with
    | nil => rw [hr] at hpoints; cases hpoints
    | cons first more =>
      rw [hr] at hpoints
      exact ⟨_, (Option.some.inj hpoints).symm⟩
  exact strokes_lowered _ rest (Memo.holds_empty o) (.refl o)

/-- Two points, with a repeated power and a default speed. -/
def benchSegment : Figure :=
  Figure.ofPoints [⟨⟨0, 0⟩, 0.5, 0, 100⟩, ⟨⟨1, 0⟩, -1, 0.25, -2⟩]

def benchWelder : Welder CardDevice :=
  ((Welder.create { laserDelay := 10 } CardDevice.fresh ⟨[], []⟩).prepare {} benchSegment).2

theorem bench_strokes :
    ∃ list, benchWelder.buildWeldingList.2.device.card.calls =
        .loadList listNumber 0 :: (list ++ [.setEndOfList]) ∧
      ∀ o, List.Forall₂ Stroke.Same (strokes o list)
        (figureStrokes 4000 10 Point.origin
          (resolvePoints benchWelder.seam.data benchSegment.points)) := by
  have hok : benchWelder.buildWeldingList = (.ok (), benchWelder.buildWeldingList.2) :=
    Prod.ext rfl rfl
  exact strokes_of_buildWeldingList rfl rfl hok

end GalvoWeld.Card
