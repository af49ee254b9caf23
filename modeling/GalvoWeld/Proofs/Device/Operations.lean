import GalvoWeld.Proofs.Device.Building

/-!
# Operations of a welder

Everything that can be asked of a welder, of its seam or of its device, one operation after another.
-/

namespace GalvoWeld

open Wobble (Setup)

inductive Operation where
  | prepare (data : SeamData) (figure : Figure)
  /-- Takes over a request without looking at its weld figure. -/
  | prepareSeam (data : SeamData) (figure : Figure)
  | attachWobble (figure : Option Figure)
  | loadWobble (path : String)
  | defineWobble (mode : Wobble.Mode)
  | resolveWobble
  | planWobble (figure : Figure) (dual : Bool)
  | defineVectors (figure : Figure) (modulation : Modulation)
  | buildList (contour : Contour) (setup : Setup)
  | buildWeldingList
  | buildPreviewList (data : SeamData) (figure : Figure)
  | resetSeam
  | moveTo (place : Point)
  | startMark
  | stopMark

/-- The operations that hand a list to the device. -/
def Operation.builds : Operation → Bool
  | buildList .. => true
  | buildWeldingList => true
  | buildPreviewList .. => true
  | _ => false

/-- The operations that attach a wobble figure, or remove it. -/
def Operation.attaches : Operation → Bool
  | attachWobble _ => true
  | loadWobble _ => true
  | resetSeam => true
  | _ => false

namespace Welder

variable {δ : Type} [Device δ]

def onSeam {α ε : Type} (w : Welder δ) (fault : ε → Fault) (outcome : Except ε α × Seam) :
    Except Fault Unit × Welder δ :=
  ((outcome.1.mapError fault).map fun _ => (), { w with seam := outcome.2 })

def perform (w : Welder δ) : Operation → Except Fault Unit × Welder δ
  | .prepare data figure => w.prepare data figure
  | .prepareSeam data figure => (.ok (), { w with seam := w.seam.prepare data figure })
  | .attachWobble figure => (.ok (), w.attachWobble figure)
  | .loadWobble path => w.loadWobble path
  | .defineWobble mode => w.onSeam Fault.wobble (w.seam.defineWobble mode)
  | .resolveWobble => w.onSeam id w.seam.resolveWobble
  | .planWobble figure dual => w.onSeam Fault.wobble (w.seam.planWobble figure dual)
  | .defineVectors figure modulation =>
    w.onSeam Fault.wobble (w.seam.defineVectors figure modulation)
  | .buildList contour setup => w.buildList contour setup
  | .buildWeldingList => w.buildWeldingList
  | .buildPreviewList data figure => w.buildPreviewList data figure
  | .resetSeam => (.ok (), w.resetSeam)
  | .moveTo place => w.moveTo place
  | .startMark => w.startMark
  | .stopMark => w.stopMark

/-- The welder after these operations, whether they succeed or not. -/
def after (w : Welder δ) (ops : List Operation) : Welder δ :=
  ops.foldl (fun w op => (w.perform op).2) w

theorem after_induction {P : Welder δ → Prop} {w : Welder δ} {ops : List Operation} (hw : P w)
    (hstep : ∀ v, ∀ op ∈ ops, P v → P (v.perform op).2) : P (w.after ops) := by
  induction ops generalizing w with
  | nil => exact hw
  | cons op ops ih =>
    have hnext := hstep w op (List.mem_cons_self ..) hw
    exact ih hnext fun v o ho => hstep v o (List.mem_cons_of_mem op ho)

/-! ### What is kept -/

theorem seam_compile (w : Welder δ) (setup : Setup) :
    ∃ stage, (w.compile setup).2.seam = { w.seam with stage } := by
  cases hc : w.compile setup with
  | mk result w' =>
    rcases compile_cases hc with ⟨fault, -, rfl⟩ | ⟨contour, -, -, hseam⟩
    · exact ⟨w'.seam.stage, rfl⟩
    · by_cases hok : result = .ok ()
      · exact ⟨.built, by rw [hseam, if_pos hok]⟩
      · exact ⟨w.seam.stage, by rw [hseam, if_neg hok]⟩

theorem kept_by_resolve {w : Welder δ} {s t : Seam} {result : Except Fault Setup}
    (hr : s.resolveWobble = (result, t)) (setup : Setup) :
    (t.config = s.config ∧ t.wobbleFigure = s.wobbleFigure) ∧
      (compile { w with seam := t } setup).2.seam.config = s.config ∧
      (compile { w with seam := t } setup).2.seam.wobbleFigure = s.wobbleFigure := by
  have hresolve := s.resolveWobble_eq
  rw [hr] at hresolve
  simp only at hresolve
  obtain ⟨stage, hseam⟩ := seam_compile { w with seam := t } setup
  rw [hseam, hresolve]
  exact ⟨⟨rfl, rfl⟩, rfl, rfl⟩

/-- Nothing changes the configuration, and only what attaches wobble figures changes the one that
is attached. -/
theorem kept_by_perform (w : Welder δ) (op : Operation) :
    (w.perform op).2.seam.config = w.seam.config ∧
      (op.attaches = false → (w.perform op).2.seam.wobbleFigure = w.seam.wobbleFigure) := by
  cases op with
  | prepare data figure =>
    simp only [perform, prepare]
    split <;> exact ⟨rfl, fun _ => rfl⟩
  | loadWobble path =>
    simp only [perform, loadWobble]
    rw [w.seam.loadWobble_eq w.disk path]
    exact ⟨rfl, nofun⟩
  | defineWobble mode =>
    simp only [perform, onSeam]
    rw [w.seam.defineWobble_eq mode]
    exact ⟨rfl, fun _ => rfl⟩
  | resolveWobble =>
    simp only [perform, onSeam]
    rw [w.seam.resolveWobble_eq]
    exact ⟨rfl, fun _ => rfl⟩
  | attachWobble figure => exact ⟨rfl, nofun⟩
  | buildWeldingList =>
    simp only [perform, buildWeldingList]
    split
    · split
      · next hr =>
        obtain ⟨⟨hconfig, hfigure⟩, -⟩ := kept_by_resolve (w := w) hr .off
        exact ⟨hconfig, fun _ => hfigure⟩
      · next setup t hr =>
        obtain ⟨-, hconfig, hfigure⟩ := kept_by_resolve (w := w) hr setup
        exact ⟨hconfig, fun _ => hfigure⟩
    · obtain ⟨stage, hseam⟩ := w.seam_compile w.seam.wobble
      rw [hseam]
      exact ⟨rfl, fun _ => rfl⟩
    · exact ⟨rfl, fun _ => rfl⟩
  | buildPreviewList data figure =>
    simp only [perform, buildPreviewList]
    split
    · next hr =>
      obtain ⟨⟨hconfig, hfigure⟩, -⟩ := kept_by_resolve (w := w) hr .off
      exact ⟨hconfig, fun _ => hfigure⟩
    · next setup t hr =>
      obtain ⟨-, hconfig, hfigure⟩ := kept_by_resolve (w := w) hr setup
      exact ⟨hconfig, fun _ => hfigure⟩
  | startMark =>
    simp only [perform, startMark]
    split <;> exact ⟨rfl, fun _ => rfl⟩
  | resetSeam => exact ⟨rfl, nofun⟩
  | _ => exact ⟨rfl, fun _ => rfl⟩

/-! ### Lists that are built -/

theorem lower_of_compile {w w' : Welder δ} {s : Seam} {setup : Setup}
    (hc : compile { w with seam := s } setup = (.ok (), w')) :
    ∃ s contour setup, s.compensation = w'.seam.compensation ∧
      Device.lower s contour setup w.disk w.device = (.ok (), w'.disk, w'.device) := by
  rcases compile_cases hc with ⟨fault, hfault, -⟩ | ⟨contour, -, hlower, hseam⟩
  · cases hfault
  · exact ⟨s, contour, setup, by rw [hseam]; rfl, hlower⟩

theorem lower_of_builds {w w' : Welder δ} {op : Operation} (hb : op.builds = true)
    (hok : w.perform op = (.ok (), w')) :
    ∃ s contour setup, s.compensation = w'.seam.compensation ∧
      Device.lower s contour setup w.disk w.device = (.ok (), w'.disk, w'.device) := by
  cases op with
  | buildList contour setup =>
    simp only [perform, buildList] at hok
    cases hl : Device.lower w.seam contour setup w.disk w.device with
    | mk result rest =>
      rw [hl] at hok
      simp only [Prod.mk.injEq] at hok
      obtain ⟨rfl, rfl⟩ := hok
      exact ⟨w.seam, contour, setup, rfl, hl⟩
  | buildWeldingList =>
    simp only [perform, buildWeldingList] at hok
    split at hok
    · split at hok
      · simp at hok
      · exact lower_of_compile hok
    · exact lower_of_compile hok
    · simp at hok
  | buildPreviewList data figure =>
    simp only [perform, buildPreviewList] at hok
    split at hok
    · simp at hok
    · exact lower_of_compile hok
  | _ => cases hb

end Welder

end GalvoWeld
