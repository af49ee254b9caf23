import GalvoWeld.Cell.Job
import GalvoWeld.Proofs.Card.ListSize
import GalvoWeld.Proofs.Card.Memory

/-!
# What the list of a job depends on

The list that a job builds is that of a new welder with a new card, as long as no wobble figure of
an earlier job has a say in it: the job brings its own, or does not ask for a free one, or there is
none.
-/

namespace GalvoWeld

open Wobble (Setup)
open Cell (ListJob fillList loadWobble?)

namespace Seam

/-! ### The attached wobble figure -/

variable {s t : Seam} {f : Option Figure}

theorem prepare_eq (hconfig : t.config = s.config) (data : SeamData) (figure : Figure) :
    t.prepare data figure = (s.prepare data figure).attachWobble t.wobbleFigure := by
  simp only [prepare, attachWobble, hconfig]

theorem loadWobble_attach (s : Seam) (f : Option Figure) (disk : Disk) (path : String) :
    (s.attachWobble f).loadWobble disk path = s.loadWobble disk path := by
  unfold loadWobble attachWobble
  cases Figure.load disk path <;> rfl

theorem defineWobble_attach {mode : Wobble.Mode} (hmode : mode ≠ .free) :
    (s.attachWobble f).defineWobble mode =
      ((s.defineWobble mode).1, (s.defineWobble mode).2.attachWobble f) := by
  cases mode with
  | off => rfl
  | basic shape => rfl
  | free => exact absurd rfl hmode

theorem resolveWobble_attach (hf : f = s.wobbleFigure ∨ s.data.wobbleMode ≠ .free) :
    (s.attachWobble f).resolveWobble =
      (s.resolveWobble.1, s.resolveWobble.2.attachWobble f) := by
  rcases hf with rfl | hmode
  · have hsame : s.resolveWobble.2.attachWobble s.wobbleFigure = s.resolveWobble.2 := by
      rw [s.resolveWobble_eq]
      rfl
    rw [hsame]
    rfl
  · have hdefine := defineWobble_attach (s := s) (f := f) hmode
    have hdata : (s.attachWobble f).data = s.data := rfl
    unfold resolveWobble
    rw [hdata, hdefine]
    cases hd : s.defineWobble s.data.wobbleMode with
    | mk result t =>
      cases result with
      | ok setup => rfl
      | error fault =>
        simp only
        split <;> rfl

theorem listCalls_attach (s : Seam) (f : Option Figure) (setup : Setup) (calls : List Card.Call) :
    Card.listCalls (s.attachWobble f) setup calls = Card.listCalls s setup calls := by
  cases setup <;> rfl

end Seam

/-! ### Twins -/

namespace Welder

variable {δ : Type} [Device δ] {w v w' : Welder δ} {f : Option Figure}

/-- A build that succeeds for one welder, and what becomes of it for another one. -/
def Echoes (w v w' : Welder δ) (outcome : Except Fault Unit × Welder δ) : Prop :=
  ∃ t g setup, compile { w with seam := t } setup = (.ok (), w') ∧
    outcome = compile { v with seam := t.attachWobble g } setup

theorem echoes_buildWeldingList (hv : v.seam = w.seam.attachWobble f)
    (hf : f = w.seam.wobbleFigure ∨ w.seam.data.wobbleMode ≠ .free)
    (hok : w.buildWeldingList = (.ok (), w')) : Echoes w v w' v.buildWeldingList := by
  have hresolve := Seam.resolveWobble_attach hf
  have hstage : v.seam.stage = w.seam.stage := by rw [hv]; rfl
  have hwobble : v.seam.wobble = w.seam.wobble := by rw [hv]; rfl
  rw [← hv] at hresolve
  unfold buildWeldingList at hok ⊢
  rw [hstage, hresolve]
  cases hs : w.seam.stage with
  | prepared =>
    simp only [hs] at hok
    cases hr : w.seam.resolveWobble with
    | mk result t =>
      rw [hr] at hok
      cases result with
      | error fault => simp at hok
      | ok setup => exact ⟨t, f, setup, hok, rfl⟩
  | wobbleDefined =>
    simp only [hs] at hok
    refine ⟨w.seam, f, w.seam.wobble, hok, ?_⟩
    rw [← hv, hwobble]
  | idle => simp [hs] at hok
  | built => simp [hs] at hok
  | dispatched => simp [hs] at hok

theorem echoes_buildPreviewList (hconfig : v.seam.config = w.seam.config) {data : SeamData}
    {figure : Figure}
    (hf : v.seam.wobbleFigure = w.seam.wobbleFigure ∨ data.wobbleMode ≠ .free)
    (hok : w.buildPreviewList data figure = (.ok (), w')) :
    Echoes w v w' (v.buildPreviewList data figure) := by
  have hprepare := Seam.prepare_eq hconfig { data with mode := .preview } figure
  have hresolve := Seam.resolveWobble_attach
    (s := w.seam.prepare { data with mode := .preview } figure) hf
  rw [← hprepare] at hresolve
  unfold buildPreviewList at hok ⊢
  rw [hresolve]
  cases hr : (w.seam.prepare { data with mode := .preview } figure).resolveWobble with
  | mk result t =>
    rw [hr] at hok
    cases result with
    | error fault => simp at hok
    | ok setup => exact ⟨t, v.seam.wobbleFigure, setup, hok, rfl⟩

end Welder

namespace Cell

variable {δ : Type} [Device δ] {w v w' : Welder δ}

/-- No wobble figure of an earlier job has a say in the list of this job. -/
def ListJob.Alone (job : ListJob) (attached : Option Figure) : Prop :=
  job.wobbleFile.isSome ∨ job.data.wobbleMode ≠ .free ∨ attached = none

theorem ListJob.Alone.of_file {job : ListJob} {attached : Option Figure}
    (ha : job.Alone attached) (hfile : job.wobbleFile = none) :
    none = attached ∨ job.data.wobbleMode ≠ .free := by
  rcases ha with hown | hmode | hattached
  · rw [hfile] at hown
    cases hown
  · exact .inr hmode
  · exact .inl hattached.symm

section
variable {job : ListJob} (hconfig : v.seam.config = w.seam.config) (hdisk : v.disk = w.disk)
  (hfigure : v.seam.wobbleFigure = none) (ha : job.Alone w.seam.wobbleFigure)
  (hok : fillList w job = (.ok (), w'))
include hconfig hdisk hfigure ha hok

theorem echoes_preview (hkind : job.kind = .preview) : Welder.Echoes w v w' (fillList v job) := by
  simp only [fillList, hkind] at hok ⊢
  cases hfile : job.wobbleFile with
  | none =>
    have hf := ha.of_file hfile
    rw [← hfigure] at hf
    rw [hfile] at hok
    exact Welder.echoes_buildPreviewList hconfig hf hok
  | some path =>
    rw [hfile] at hok
    have hw := w.seam.loadWobble_eq w.disk path
    have hv := v.seam.loadWobble_eq v.disk path
    have hconfigs : (v.seam.loadWobble v.disk path).2.config =
        (w.seam.loadWobble w.disk path).2.config := by
      rw [hw, hv]
      exact hconfig
    have hfigures : (v.seam.loadWobble v.disk path).2.wobbleFigure =
        (w.seam.loadWobble w.disk path).2.wobbleFigure := by
      rw [hw, hv, hdisk]
    have hecho := Welder.echoes_buildPreviewList (w := (loadWobble? w (some path)).2)
      (v := (loadWobble? v (some path)).2) hconfigs (.inl hfigures) hok
    exact hecho

theorem echoes_weld (hkind : job.kind = .weld) : Welder.Echoes w v w' (fillList v job) := by
  have hprepare := Seam.prepare_eq hconfig job.data job.figure
  simp only [fillList, hkind, Welder.prepare] at hok ⊢
  by_cases hempty : job.figure.points.isEmpty = true
  · simp [hempty] at hok
  simp only [if_neg hempty] at hok ⊢
  cases hfile : job.wobbleFile with
  | none =>
    simp only [hfile, loadWobble?] at hok ⊢
    have hf := ha.of_file hfile
    rw [hfigure] at hprepare
    have hecho := Welder.echoes_buildWeldingList
      (w := { w with seam := w.seam.prepare job.data job.figure })
      (v := { v with seam := v.seam.prepare job.data job.figure }) hprepare hf hok
    exact hecho
  | some path =>
    -- with the figure of the file in its place both seams are the same
    have hload : (v.seam.prepare job.data job.figure).loadWobble v.disk path =
        (w.seam.prepare job.data job.figure).loadWobble w.disk path := by
      rw [hprepare, Seam.loadWobble_attach, hdisk]
    simp only [hfile, loadWobble?, Welder.loadWobble, hload] at hok ⊢
    cases hl : (w.seam.prepare job.data job.figure).loadWobble w.disk path with
    | mk result s =>
      rw [hl] at hok
      have hbuild : Welder.buildWeldingList { w with seam := s } = (.ok (), w') →
          Welder.Echoes w v w' (Welder.buildWeldingList { v with seam := s }) :=
        fun hok => Welder.echoes_buildWeldingList (w := { w with seam := s })
          (v := { v with seam := s }) (f := s.wobbleFigure) rfl (.inl rfl) hok
      cases result with
      | ok => exact hbuild hok
      | error fault =>
        by_cases hfatal : fault.isFatal = true
        · simp [hfatal] at hok
        · simp only [if_neg hfatal] at hok ⊢
          exact hbuild hok

end

end Cell

/-! ### On a new card -/

namespace Card

/-- The contour sets the card up, so that nothing is left out that it was given before. -/
theorem lowered_of_contour {s : Seam} {contour : Contour} (hc : s.contour = .ok contour)
    (calibration : Float) (memo memo' : Memo) :
    lowered calibration memo contour = lowered calibration memo' contour := by
  obtain ⟨figure, -, hpoints⟩ := Seam.contour_ok hc
  cases hr : resolvePoints s.data figure.points with
  | nil =>
    rw [hr] at hpoints
    cases hpoints
  | cons first rest =>
    rw [hr] at hpoints
    obtain rfl := Option.some.inj hpoints
    rfl

end Card

theorem CardDevice.lower_fresh {s : Seam} (contour : Contour) (setup : Setup) (disk : Disk)
    (hfits : Card.entriesNeeded (s.weldFigure.elim 0 Figure.size) ≤
      Card.entriesAvailable s.config) :
    ∃ d, Device.lower s contour setup disk fresh = (.ok (), disk, d) := by
  have hroom : ¬ Card.entriesAvailable s.config <
      Card.entriesNeeded (s.weldFigure.elim 0 Figure.size) := by omega
  have hlower : (lower s contour setup fresh).1 = .ok () := by
    unfold lower
    simp only [if_neg hroom]
    rfl
  refine ⟨(lower s contour setup fresh).2, ?_⟩
  simp only [Device.lower, hlower]

namespace Cell

open Card (Faithful)

/-- A list that a job builds alone is the list that it builds on a new card. -/
theorem entries_of_alone {w w' : Welder CardDevice} {job : ListJob}
    (hf : w.device.card.Faithful) (ha : job.Alone w.seam.wobbleFigure)
    (hok : fillList w job = (.ok (), w')) :
    ∃ v', fillList (Welder.create w.seam.config CardDevice.fresh w.disk) job = (.ok (), v') ∧
      w'.device.card.memory.entries = v'.device.card.memory.entries := by
  have hecho : Welder.Echoes w (Welder.create w.seam.config CardDevice.fresh w.disk) w'
      (fillList (Welder.create w.seam.config CardDevice.fresh w.disk) job) := by
    cases hkind : job.kind with
    | preview => exact echoes_preview rfl rfl rfl ha hok hkind
    | weld => exact echoes_weld rfl rfl rfl ha hok hkind
  obtain ⟨t, g, setup, hcompile, hfresh⟩ := hecho
  rcases Welder.compile_cases hcompile with ⟨fault, hfault, -⟩ | ⟨contour, hcontour, hlower, -⟩
  · cases hfault
  simp only at hlower
  have hfits := CardDevice.fits_of_lower hlower
  obtain ⟨d, hd⟩ := CardDevice.lower_fresh (s := t.attachWobble g) contour setup w.disk hfits
  have hfound : (t.attachWobble g).contour = .ok contour := hcontour
  obtain ⟨v', hv', hdevice⟩ := Welder.compile_of_lower hfound hd
  refine ⟨v', hfresh.trans hv', ?_⟩
  have hnew : CardDevice.fresh.card.Faithful := rfl
  have hcalls := Seam.listCalls_attach t g setup
  rw [hdevice, (Card.memory_of_lower hf hlower).2, (Card.memory_of_lower hnew hd).2, hcalls]
  exact congrArg (fun calls => Card.listCalls t setup calls ++ [.setEndOfList])
    (Card.lowered_of_contour hcontour _ _ _)

end Cell

end GalvoWeld
