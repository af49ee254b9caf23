import GalvoWeld.Device.Network
import GalvoWeld.Proofs.Device.Preview
import GalvoWeld.Proofs.Device.Reloading
import GalvoWeld.Proofs.Device.Sights

/-!
# Welding passes

A pass prepares a seam, loads a wobble figure if there is one, and builds the list. A figure that is
loaded before comes to the same. A free wobbling that cannot be defined is left out, and the list is
then that of a pass without wobbling; where the fault is fatal no list is built.
-/

namespace GalvoWeld

open Wobble (Setup)

/-! ### The devices that there are -/

inductive Backend where
  | card
  | network

abbrev Backend.State : Backend → Type
  | .card => CardDevice
  | .network => NetworkDevice

@[reducible]
def Backend.device : (b : Backend) → Device b.State
  | .card => CardDevice.instDevice
  | .network => NetworkDevice.instDevice

instance (b : Backend) : Device b.State := b.device

/-- Nothing differs that a device reads: only the stage, the mode that wobbling is decided for, the
wobble figure and what stands about wobbling. -/
inductive Seam.SameList (s : Seam) : Seam → Prop
  | intro (stage : ListStage) (mode : Wobble.Mode) (figure : Option Figure) (setup : Setup) :
    SameList s { s with stage, data := { s.data with wobbleMode := mode }, wobbleFigure := figure,
                        wobble := setup }

theorem resolveAfter_mode (data : SeamData) (mode : Wobble.Mode) (points : List FigurePoint)
    (previous : Option FigurePoint) :
    resolveAfter { data with wobbleMode := mode } previous points =
      resolveAfter data previous points := by
  induction points generalizing previous with
  | nil => rfl
  | cons p rest ih =>
    simp only [resolveAfter, ih]
    rfl

namespace Seam.SameList

variable {s t : Seam}

theorem contour (h : s.SameList t) : t.contour = s.contour := by
  cases h
  simp only [Seam.contour, resolvePoints, resolveAfter_mode]

theorem listCalls (h : s.SameList t) (setup : Setup) (calls : List Card.Call) :
    Card.listCalls t setup calls = Card.listCalls s setup calls := by
  cases h
  cases setup <;> rfl

end Seam.SameList

/-- The device does not look at what differs then. -/
structure Plain (δ : Type) [Device δ] : Prop where
  lower : ∀ {s t : Seam}, s.SameList t →
    ∀ (contour : Contour) (setup : Setup) (disk : Disk) (d : δ),
    Device.lower t contour setup disk d = Device.lower s contour setup disk d

theorem CardDevice.plain : Plain CardDevice := by
  refine ⟨fun {s t} h contour setup disk d => ?_⟩
  have hlower : CardDevice.lower t contour setup d = CardDevice.lower s contour setup d := by
    simp only [CardDevice.lower, h.listCalls]
    cases h
    rfl
  simp only [Device.lower, hlower]

theorem NetworkDevice.plain : Plain NetworkDevice :=
  ⟨fun h _ _ _ _ => by cases h; rfl⟩

theorem Backend.plain : ∀ b : Backend, Plain b.State
  | .card => CardDevice.plain
  | .network => NetworkDevice.plain

/-! ### Deciding again -/

namespace Seam

variable {s t : Seam}

/-- A decision that failed fatally fails again, and changes nothing more. -/
theorem resolveWobble_again {fault : Fault} (hr : s.resolveWobble = (.error fault, t)) :
    t.resolveWobble = (.error fault, t) := by
  have hresolves := s.resolves
  have hkept := s.resolveWobble_eq
  rw [hr] at hresolves hkept
  cases hresolves with
  | fails hfatal hwobble hvectors =>
    simp only [hwobble, hvectors] at hkept
    have hsame : t.resolveWobble = s.resolveWobble := by
      rw [hkept]
      rfl
    exact hsame.trans hr

theorem resolveWobble_off (hoff : s.data.wobbleMode = .off) :
    s.resolveWobble = (.ok .off, { s with compensation := .cleared, wobble := .off }) := by
  simp only [resolveWobble, hoff, defineWobble]

theorem resolveWobble_failed {fault : Wobble.Fault} (hfree : s.data.wobbleMode = .free)
    (hfault : (s.defineWobble .free).1 = .error fault) :
    (fault.isFatal = false →
      s.resolveWobble = (.ok .off, { s with compensation := .cleared, wobble := .off })) ∧
    (fault.isFatal = true → s.resolveWobble.1 = .error (.wobble fault)) := by
  have hdefine := s.defineWobble_eq .free
  unfold resolveWobble
  rw [hfree]
  cases hd : s.defineWobble .free with
  | mk result t =>
    rw [hd] at hdefine hfault
    simp only at hdefine hfault
    subst hfault
    refine ⟨fun hmild => ?_, fun hfatal => by simp only [hfatal, if_true]⟩
    simp only [hmild, Bool.false_eq_true, if_false]
    rw [hdefine]

end Seam

/-! ### Passes -/

namespace Welder

/-- The same result, device and files. -/
structure SameCalls {δ : Type} (a b : Except Fault Unit × Welder δ) : Prop where
  result : a.1 = b.1
  device : a.2.device = b.2.device
  disk : a.2.disk = b.2.disk

/-- The same as well, and the same seam if the list is built. -/
structure SameBuild {δ : Type} (a b : Except Fault Unit × Welder δ) : Prop
    extends SameCalls a b where
  seam : a.1 = .ok () → a.2.seam = b.2.seam

variable {δ : Type}

theorem SameBuild.refl (a : Except Fault Unit × Welder δ) : SameBuild a a :=
  ⟨⟨rfl, rfl, rfl⟩, fun _ => rfl⟩

theorem SameCalls.symm {a b : Except Fault Unit × Welder δ} (h : SameCalls a b) : SameCalls b a :=
  ⟨h.result.symm, h.device.symm, h.disk.symm⟩

theorem SameCalls.trans {a b c : Except Fault Unit × Welder δ} (hab : SameCalls a b)
    (hbc : SameCalls b c) : SameCalls a c :=
  ⟨hab.result.trans hbc.result, hab.device.trans hbc.device, hab.disk.trans hbc.disk⟩

theorem SameBuild.symm {a b : Except Fault Unit × Welder δ} (h : SameBuild a b) : SameBuild b a :=
  ⟨h.toSameCalls.symm, fun hok => (h.seam (h.result.trans hok)).symm⟩

theorem prepare_of_nonempty {w : Welder δ} {figure : Figure} (hfigure : figure.points ≠ [])
    (data : SeamData) :
    w.prepare data figure = (.ok (), { w with seam := w.seam.prepare data figure }) := by
  simp [prepare, hfigure]

theorem prepare_of_empty {w : Welder δ} {figure : Figure} (hfigure : figure.points = [])
    (data : SeamData) : w.prepare data figure = (.error .noWeldFigure, w) := by
  simp [prepare, hfigure]

/-! ### Definitions that fail -/

/-- The wobble figure of a pass: that of its file, if it can be read, or the attached one. -/
def figureOf (w : Welder δ) : Option String → Option Figure
  | none => w.seam.wobbleFigure
  | some path => (Figure.load w.disk path).toOption

/-- The definition of a free wobbling in a pass. -/
def definition (w : Welder δ) (data : SeamData) (figure : Figure) (path : Option String) :
    Except Wobble.Fault Setup :=
  (((w.seam.prepare data figure).attachWobble (w.figureOf path)).defineWobble .free).1

theorem definition_of_small {w : Welder δ} {path : Option String}
    (hsmall : ∀ f ∈ w.figureOf path, f.size ≤ 2) (data : SeamData) (figure : Figure) :
    w.definition data figure path = .error .invalidFigure := by
  have hfree : Seam.freeFigure { (w.seam.prepare data figure).attachWobble (w.figureOf path) with
      compensation := .cleared } = .error .invalidFigure := by
    cases hf : w.figureOf path with
    | none => rfl
    | some f =>
      have hsize := hsmall f hf
      simp only [Seam.freeFigure, Seam.attachWobble, hsize, if_true]
  simp only [definition, Seam.defineWobble, hfree]

/-! ### Builds that come to the same -/

variable [Device δ]

theorem compile_sameList (hδ : Plain δ) {w : Welder δ} {s t : Seam} (h : s.SameList t)
    (setup : Setup) :
    SameCalls (compile { w with seam := t } setup) (compile { w with seam := s } setup) := by
  cases hc : s.contour with
  | error fault =>
    rw [compile_of_error (w := { w with seam := s }) hc,
      compile_of_error (w := { w with seam := t }) (h.contour.trans hc)]
    exact ⟨rfl, rfl, rfl⟩
  | ok contour =>
    rw [compile_of_contour (w := { w with seam := s }) hc,
      compile_of_contour (w := { w with seam := t }) (h.contour.trans hc)]
    simp only [hδ.lower h]
    exact ⟨rfl, rfl, rfl⟩

theorem compile_restaged (hδ : Plain δ) (w : Welder δ) (stage : ListStage) (setup : Setup) :
    SameBuild (compile { w with seam := { w.seam with stage } } setup) (w.compile setup) := by
  have hcalls := compile_sameList hδ (w := w) (s := w.seam) (t := { w.seam with stage })
    (.intro stage _ _ _) setup
  refine ⟨hcalls, fun hok => ?_⟩
  cases hs : compile { w with seam := { w.seam with stage } } setup with
  | mk result v =>
    cases ht : w.compile setup with
    | mk result' v' =>
      rw [hs, ht] at hcalls
      rw [hs] at hok
      obtain rfl : result' = .ok () := hcalls.result.symm.trans hok
      obtain rfl : result = .ok () := hok
      rcases compile_cases hs with ⟨_, hfault, -⟩ | ⟨-, -, -, hv⟩
      · cases hfault
      rcases compile_cases ht with ⟨_, hfault, -⟩ | ⟨-, -, -, hv'⟩
      · cases hfault
      · exact hv.trans hv'.symm

theorem build_of_resolved {w : Welder δ} {setup : Setup} {t : Seam}
    (hstage : w.seam.stage = .prepared) (hr : w.seam.resolveWobble = (.ok setup, t)) :
    w.buildWeldingList = compile { w with seam := t } setup := by
  simp only [buildWeldingList, hstage, hr]

theorem build_of_unresolved {w : Welder δ} {fault : Fault} {t : Seam}
    (hstage : w.seam.stage = .prepared) (hr : w.seam.resolveWobble = (.error fault, t)) :
    w.buildWeldingList = (.error fault, { w with seam := t }) := by
  simp only [buildWeldingList, hstage, hr]

/-- Once a seam is prepared, a figure may as well be attached only: the build decides then. -/
theorem build_of_loadWobble (hδ : Plain δ) {w : Welder δ} (hstage : w.seam.stage = .prepared)
    (hoff : w.seam.wobble = .off) (path : String) :
    SameBuild (w.loadWobble path).2.buildWeldingList
      (w.attachWobble (Figure.load w.disk path).toOption).buildWeldingList := by
  have hload := w.seam.loads w.disk path
  have hloaded : (w.loadWobble path).2 =
      { w with seam := (w.seam.loadWobble w.disk path).2 } := rfl
  rw [hloaded]
  generalize w.seam.loadWobble w.disk path = outcome at hload
  cases hload with
  | unread hread =>
    have hsame : ({ w.seam with wobbleFigure := none, wobble := .off } : Seam) =
        w.seam.attachWobble none := by rw [← hoff]; rfl
    simp only [hread, hsame]
    exact .refl _
  | attached hread hstage' => exact absurd hstage hstage'
  | @rejected figure fault t hread _ hdecision =>
    have hprepared : t.stage = .prepared := by
      have hkept := (w.seam.attachWobble figure).resolveWobble_eq
      rw [hdecision] at hkept
      exact (congrArg Seam.stage hkept).trans hstage
    have hagain := Seam.resolveWobble_again hdecision
    have hfirst := build_of_unresolved (w := w.attachWobble (some figure)) hstage hdecision
    have hsecond := build_of_unresolved (w := { w with seam := t }) hprepared hagain
    simp only [hread, Except.toOption]
    rw [hfirst, hsecond]
    exact .refl _
  | @defined figure setup t hread _ hdecision =>
    have hwobble : t.wobble = setup := by
      have hresolves := (w.seam.attachWobble figure).resolves
      rw [hdecision] at hresolves
      cases hresolves with
      | decides hsetup hvectors => exact hsetup
    subst hwobble
    have hfirst := build_of_resolved (w := w.attachWobble (some figure)) hstage hdecision
    have hsecond : buildWeldingList { w with seam := { t with stage := .wobbleDefined } } =
        compile { w with seam := { t with stage := .wobbleDefined } } t.wobble := rfl
    simp only [hread, Except.toOption]
    rw [hfirst, hsecond]
    exact compile_restaged hδ { w with seam := t } .wobbleDefined t.wobble

/-! ### The figure before the seam -/

/-- Preparing a seam takes over a wobble figure that was loaded, and nothing else of the load. -/
theorem seam_prepare_loadWobble (s : Seam) (disk : Disk) (path : String) (data : SeamData)
    (figure : Figure) :
    (s.loadWobble disk path).2.prepare data figure =
      (s.prepare data figure).attachWobble (Figure.load disk path).toOption := by
  rw [s.loadWobble_eq disk path]
  rfl

/-- The list of a seam is the same whether the wobble figure is loaded before it is prepared or
after: the same result, the same device and files, and the same seam if the list is built. -/
theorem load_swaps_with_prepare (b : Backend) (w : Welder b.State) (data : SeamData)
    (figure : Figure) (path : String) :
    SameBuild ((w.loadWobble path).2.prepare data figure).2.buildWeldingList
      ((w.prepare data figure).2.loadWobble path).2.buildWeldingList := by
  by_cases hfigure : figure.points = []
  · rw [prepare_of_empty hfigure, prepare_of_empty hfigure]
    exact .refl _
  · let prepared : Welder b.State := { w with seam := w.seam.prepare data figure }
    have hlast := build_of_loadWobble b.plain (w := prepared) rfl rfl path
    have hseam := seam_prepare_loadWobble w.seam w.disk path data figure
    have hfirst : ((w.loadWobble path).2.prepare data figure).2 =
        prepared.attachWobble (Figure.load w.disk path).toOption := by
      rw [prepare_of_nonempty hfigure]
      simp only [attachWobble, prepared, ← hseam]
      rfl
    rw [hfirst, prepare_of_nonempty hfigure]
    exact hlast.symm

/-! ### Passes without wobbling -/

/-- Prepares a seam, loads a wobble figure if there is a file for it, and builds the list. -/
def pass (w : Welder δ) (data : SeamData) (figure : Figure) :
    Option String → Except Fault Unit × Welder δ
  | none => (w.prepare data figure).2.buildWeldingList
  | some path => ((w.prepare data figure).2.loadWobble path).2.buildWeldingList

theorem pass_of_nonempty (hδ : Plain δ) {w : Welder δ} {figure : Figure}
    (hfigure : figure.points ≠ []) (data : SeamData) (path : Option String) :
    SameBuild (w.pass data figure path) (buildWeldingList
      { w with seam := (w.seam.prepare data figure).attachWobble (w.figureOf path) }) := by
  cases path with
  | none =>
    rw [pass, prepare_of_nonempty hfigure]
    exact .refl _
  | some path =>
    rw [pass, prepare_of_nonempty hfigure]
    exact build_of_loadWobble hδ (w := { w with seam := w.seam.prepare data figure }) rfl rfl path

/-- The build of a pass whose wobbling cannot be defined. -/
theorem build_of_failed (hδ : Plain δ) {w : Welder δ} {data : SeamData} {figure : Figure}
    {path : Option String} {fault : Wobble.Fault} (hfree : data.wobbleMode = .free)
    (hfault : w.definition data figure path = .error fault) (hfigure : figure.points ≠ []) :
    (fault.isFatal = false →
      SameCalls (w.pass data figure path) (w.pass { data with wobbleMode := .off } figure path)) ∧
    (fault.isFatal = true →
      (w.pass data figure path).1 = .error (.wobble fault) ∧
      (w.pass data figure path).2.device = w.device ∧
      (w.pass data figure path).2.disk = w.disk) := by
  let s := (w.seam.prepare data figure).attachWobble (w.figureOf path)
  let t := (w.seam.prepare { data with wobbleMode := .off } figure).attachWobble (w.figureOf path)
  have hs := (pass_of_nonempty hδ (w := w) hfigure data path).toSameCalls
  have ht :=
    (pass_of_nonempty hδ (w := w) hfigure { data with wobbleMode := .off } path).toSameCalls
  obtain ⟨hmild, hfatal⟩ := s.resolveWobble_failed hfree hfault
  constructor
  · intro hnot
    have hbs := build_of_resolved (w := { w with seam := s }) rfl (hmild hnot)
    have hbt := build_of_resolved (w := { w with seam := t }) rfl (t.resolveWobble_off rfl)
    have hsame := compile_sameList hδ (w := w)
      (s := { t with compensation := .cleared, wobble := .off })
      (t := { s with compensation := .cleared, wobble := .off }) (.intro _ _ _ _) .off
    rw [hbs] at hs
    rw [hbt] at ht
    exact hs.trans (hsame.trans ht.symm)
  · intro hyes
    have hbuild : buildWeldingList { w with seam := s } =
        (.error (.wobble fault), { w with seam := s.resolveWobble.2 }) :=
      build_of_unresolved rfl (Prod.ext (hfatal hyes) rfl)
    rw [hbuild] at hs
    exact ⟨hs.result, hs.device, hs.disk⟩

/-- The wobbling of a pass is free and cannot be defined. If the fault is not fatal, the pass comes
to the same as one without wobbling: the same result, device and files. If it is fatal, the build
fails with it and nothing is asked of the device, and so it is with a preview. -/
theorem plain_list_of_failed_definition (b : Backend) (w : Welder b.State) (data : SeamData)
    (figure : Figure) (hfree : data.wobbleMode = .free) :
    (∀ path fault, w.definition data figure path = .error fault →
      (fault.isFatal = false →
        SameCalls (w.pass data figure path) (w.pass { data with wobbleMode := .off } figure path)) ∧
      (fault.isFatal = true → figure.points ≠ [] →
        (w.pass data figure path).1 = .error (.wobble fault) ∧
        (w.pass data figure path).2.device = w.device ∧
        (w.pass data figure path).2.disk = w.disk)) ∧
    ∀ fault, w.definition { data with mode := .preview } figure none = .error fault →
      fault.isFatal = true →
        (w.buildPreviewList data figure).1 = .error (.wobble fault) ∧
        (w.buildPreviewList data figure).2.device = w.device ∧
        (w.buildPreviewList data figure).2.disk = w.disk := by
  refine ⟨fun path fault hfault => ⟨fun hmild => ?_, fun hfatal hfigure => ?_⟩, ?_⟩
  · by_cases hfigure : figure.points = []
    · cases path <;> simp only [pass, prepare_of_empty hfigure] <;> exact ⟨rfl, rfl, rfl⟩
    · exact (build_of_failed b.plain hfree hfault hfigure).1 hmild
  · exact (build_of_failed b.plain hfree hfault hfigure).2 hfatal
  · intro fault hfault hfatal
    let s := w.seam.prepare { data with mode := .preview } figure
    have hresolve : s.resolveWobble = (.error (.wobble fault), s.resolveWobble.2) :=
      Prod.ext ((s.resolveWobble_failed hfree hfault).2 hfatal) rfl
    have hbuild : w.buildPreviewList data figure =
        (.error (.wobble fault), { w with seam := s.resolveWobble.2 }) := by
      unfold buildPreviewList
      rw [hresolve]
    rw [hbuild]
    exact ⟨rfl, rfl, rfl⟩

/-- A card, and a file that is no figure. -/
def corruptWelder : Welder (Backend.State .card) :=
  Welder.create {} CardDevice.fresh (soleFile "no figure").disk

/-- A controller and a figure that modulates both channels by an odd factor. -/
def oddWelder : Welder (Backend.State .network) :=
  (benchNetwork.attachWobble (some { Seam.coreTriangle with modulationMask := 3 }))

theorem bench_failed_definition :
    SameCalls (corruptWelder.pass freeData twoPoints (some "w"))
      (corruptWelder.pass { freeData with wobbleMode := .off } twoPoints (some "w")) ∧
    (oddWelder.pass freeData twoPoints none).2.device = oddWelder.device ∧
    (oddWelder.buildPreviewList freeData twoPoints).2.device = oddWelder.device := by
  have hcorrupt :
      corruptWelder.definition freeData twoPoints (some "w") = .error .invalidFigure := by
    have hnone : (Figure.ofDocument "no figure").toOption.isNone = true := by decide +kernel
    have hunread : corruptWelder.figureOf (some "w") = none := by
      rw [← Option.isNone_iff_eq_none, ← hnone, ← load_soleFile]
      rfl
    exact definition_of_small (by rw [hunread]; nofun) _ _
  have hwelding : oddWelder.definition freeData twoPoints none = .error .nominalRingPowerZero := by
    decide +kernel
  have hpreview : oddWelder.definition { freeData with mode := .preview } twoPoints none =
      .error (.oddFactor 1) := by decide +kernel
  obtain ⟨hplain, -⟩ := plain_list_of_failed_definition .card corruptWelder freeData twoPoints rfl
  obtain ⟨hmild, -⟩ := hplain _ _ hcorrupt
  obtain ⟨hpass, hdark⟩ := plain_list_of_failed_definition .network oddWelder freeData twoPoints rfl
  obtain ⟨-, hfatal⟩ := hpass _ _ hwelding
  exact ⟨hmild rfl, (hfatal rfl nofun).2.1, (hdark _ hpreview rfl).2.1⟩

end Welder

end GalvoWeld
