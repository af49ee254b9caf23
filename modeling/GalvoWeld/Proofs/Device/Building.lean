import GalvoWeld.Proofs.Card.Replay
import GalvoWeld.Proofs.Seam.Wobbling
import GalvoWeld.Device.Card

/-!
# Building a list

A list that was built successfully was handed to the device as the contour of the seam, whatever was
decided about wobbling; on a scanner card it then stands behind everything that the card had taken.
-/

namespace GalvoWeld

open Wobble (Setup)

/-! ### Deciding about wobbling -/

/-- Two seams that have the same contour: nothing differs but the stage and the wobbling. -/
structure Seam.Alike (s t : Seam) : Prop where
  config : s.config = t.config
  data : s.data = t.data
  weldFigure : s.weldFigure = t.weldFigure

theorem Seam.Alike.trans {s t u : Seam} (hst : s.Alike t) (htu : t.Alike u) : s.Alike u :=
  ⟨hst.config.trans htu.config, hst.data.trans htu.data, hst.weldFigure.trans htu.weldFigure⟩

theorem Seam.alike_resolveWobble (s : Seam) : s.resolveWobble.2.Alike s := by
  rw [s.resolveWobble_eq]
  exact ⟨rfl, rfl, rfl⟩

/-- The contour of a seam is that of its weld figure. -/
theorem Seam.contour_ok {s : Seam} {contour : Contour} (hc : s.contour = .ok contour) :
    ∃ figure, s.weldFigure = some figure ∧
      contourOfPoints s.config.calibrationFactor s.config.laserDelay s.data.offset
        (s.data.mode = .preview) (resolvePoints s.data figure.points) = some contour := by
  unfold Seam.contour at hc
  simp only at hc
  split at hc
  · next heq =>
    obtain rfl := Except.ok.inj hc
    cases hf : s.weldFigure with
    | none =>
      rw [hf] at heq
      cases heq
    | some figure =>
      rw [hf] at heq
      exact ⟨figure, rfl, heq⟩
  · cases hc

namespace Welder

variable {δ : Type} [Device δ]

/-! ### What a build comes to -/

/-- A build ends before the device is asked, or it compiles the contour of this seam: what is
decided about wobbling does not matter to it. -/
inductive Builds (s : Seam) (w : Welder δ) : Except Fault Unit × Welder δ → Prop where
  | fails {fault : Fault} {v : Welder δ} (hv : v.device = w.device) : Builds s w (.error fault, v)
  | compiles {t : Seam} (setup : Setup) (ht : t.Alike s) :
    Builds s w (compile { w with seam := t } setup)

theorem builds_buildWeldingList (w : Welder δ) : Builds w.seam w w.buildWeldingList := by
  have halike := w.seam.alike_resolveWobble
  unfold buildWeldingList
  cases hstage : w.seam.stage with
  | prepared =>
    simp only
    cases hr : w.seam.resolveWobble with
    | mk result t =>
      rw [hr] at halike
      cases result with
      | error fault => exact .fails rfl
      | ok setup => exact .compiles setup halike
  | wobbleDefined => exact .compiles w.seam.wobble ⟨rfl, rfl, rfl⟩
  | idle => exact .fails rfl
  | built => exact .fails rfl
  | dispatched => exact .fails rfl

theorem builds_buildPreviewList (w : Welder δ) (data : SeamData) (figure : Figure) :
    Builds (w.seam.prepare { data with mode := .preview } figure) w
      (w.buildPreviewList data figure) := by
  have halike := (w.seam.prepare { data with mode := .preview } figure).alike_resolveWobble
  unfold buildPreviewList
  cases hr : (w.seam.prepare { data with mode := .preview } figure).resolveWobble with
  | mk result t =>
    rw [hr] at halike
    cases result with
    | error fault => exact .fails rfl
    | ok setup => exact .compiles setup halike

/-- The contour of this seam is handed to the device, which takes it. -/
def Hands (s : Seam) (w w' : Welder δ) : Prop :=
  ∃ t contour setup, t.Alike s ∧ t.contour = .ok contour ∧
    Device.lower t contour setup w.disk w.device = (.ok (), w'.disk, w'.device)

/-- A contour that there is goes to the device, and what the device says is the result. -/
theorem compile_cases {w w' : Welder δ} {setup : Setup} {result : Except Fault Unit}
    (hc : w.compile setup = (result, w')) :
    (∃ fault, result = .error fault ∧ w' = w) ∨ ∃ contour, w.seam.contour = .ok contour ∧
      Device.lower w.seam contour setup w.disk w.device = (result, w'.disk, w'.device) ∧
      w'.seam = if result = .ok () then { w.seam with stage := .built } else w.seam := by
  unfold compile at hc
  cases hcontour : w.seam.contour with
  | error fault =>
    simp only [hcontour, Prod.mk.injEq] at hc
    exact .inl ⟨fault, hc.1.symm, hc.2.symm⟩
  | ok contour =>
    simp only [hcontour, buildList] at hc
    cases hl : Device.lower w.seam contour setup w.disk w.device with
    | mk result' rest =>
      cases result' with
      | error fault =>
        simp only [hl, Prod.mk.injEq] at hc
        obtain ⟨rfl, rfl⟩ := hc
        exact .inr ⟨contour, rfl, hl, rfl⟩
      | ok =>
        simp only [hl, Prod.mk.injEq] at hc
        obtain ⟨rfl, rfl⟩ := hc
        exact .inr ⟨contour, rfl, hl, rfl⟩

theorem compile_of_lower {s : Seam} {contour : Contour} {setup : Setup} {disk disk' : Disk}
    {d d' : δ} (hc : s.contour = .ok contour)
    (hl : Device.lower s contour setup disk d = (.ok (), disk', d')) :
    ∃ w', compile ⟨s, d, disk⟩ setup = (.ok (), w') ∧ w'.device = d' := by
  simp only [compile, hc, buildList, hl]
  exact ⟨_, rfl, rfl⟩

/-- A build ends before the device is asked, or the contour of the seam goes to the device. -/
theorem Builds.split {s : Seam} {w w' : Welder δ} {result : Except Fault Unit}
    (hb : Builds s w (result, w')) :
    (∃ fault, result = .error fault ∧ w'.device = w.device) ∨ ∃ t contour setup, t.Alike s ∧
      t.contour = .ok contour ∧
      Device.lower t contour setup w.disk w.device = (result, w'.disk, w'.device) := by
  generalize houtcome : (result, w') = outcome at hb
  cases hb with
  | fails hv =>
    obtain ⟨rfl, rfl⟩ := Prod.mk.inj houtcome
    exact .inl ⟨_, rfl, hv⟩
  | @compiles t setup ht =>
    rcases compile_cases houtcome.symm with ⟨fault, hfault, rfl⟩ | ⟨contour, hcontour, hlower, -⟩
    · exact .inl ⟨fault, hfault, rfl⟩
    · exact .inr ⟨t, contour, setup, ht, hcontour, hlower⟩

theorem Builds.hands {s : Seam} {w w' : Welder δ} {outcome : Except Fault Unit × Welder δ}
    (hb : Builds s w outcome) (hok : outcome = (.ok (), w')) : Hands s w w' := by
  rw [hok] at hb
  rcases hb.split with ⟨fault, hfault, -⟩ | hhands
  · cases hfault
  · exact hhands

end Welder

/-! ### Lists on a scanner card -/

namespace Card

/-- Calls that are about wobbling only. -/
def Call.setsWobble : Call → Bool
  | .setWobbelMode .. => true
  | .setWobbelVector .. => true
  | _ => false

theorem setsWobble_wobbleCalls (s : Seam) (setup : Setup) :
    ∀ call ∈ wobbleCalls s setup, call.setsWobble = true := by
  intro call hm
  cases setup with
  | off =>
    obtain rfl := List.mem_singleton.1 hm
    rfl
  | basic shape =>
    obtain rfl := List.mem_singleton.1 hm
    rfl
  | free modulation =>
    rcases List.mem_append.1 hm with hvector | hmode
    · obtain ⟨i, hi, rfl⟩ := List.mem_iff_getElem.1 hvector
      simp [vectorCalls, Call.setsWobble]
    · obtain rfl := List.mem_singleton.1 hmode
      rfl

theorem setsWobble_end (setup : Setup) :
    ∀ call ∈ (if setup = .off then [] else [wobbleOff]), call.setsWobble = true := by
  intro call hm
  split at hm
  · cases hm
  · obtain rfl := List.mem_singleton.1 hm
    rfl

/-- A list holds the jump speed, the wobbling and the contour. -/
theorem mem_listCalls {s : Seam} {setup : Setup} {contour : List Call} {call : Call}
    (hm : call ∈ listCalls s setup contour) :
    (∃ speed, call = .setJumpSpeed speed) ∨ call.setsWobble = true ∨ call ∈ contour := by
  rcases List.mem_cons.1 hm with rfl | hm
  · exact .inl ⟨_, rfl⟩
  rcases List.mem_append.1 hm with hfront | hend
  · rcases List.mem_append.1 hfront with hwobble | hcontour
    · exact .inr (.inl (setsWobble_wobbleCalls s setup call hwobble))
    · exact .inr (.inr hcontour)
  · exact .inr (.inl (setsWobble_end setup call hend))

end Card

namespace CardDevice

open Card

theorem lower_of_device {s : Seam} {contour : Contour} {setup : Setup} {disk disk' : Disk}
    {d d' : CardDevice} {result : Except Fault Unit}
    (hl : Device.lower s contour setup disk d = (result, disk', d')) :
    lower s contour setup d = (result, d') := by
  simp only [Device.lower, Prod.mk.injEq] at hl
  exact Prod.ext hl.1 hl.2.2

/-- A card that takes a list did not execute one, and has the list behind what it had taken. -/
theorem lower_ok {s : Seam} {contour : Contour} {setup : Setup} {disk disk' : Disk}
    {d d' : CardDevice}
    (hl : Device.lower s contour setup disk d = (.ok (), disk', d')) :
    d.card.executing = false ∧ d'.card.executing = false ∧
      d'.card.calls = d.card.calls ++ .loadList listNumber 0 ::
        (listCalls s setup (lowered s.config.calibrationFactor d.memo contour) ++
          [.setEndOfList]) := by
  have hlower := lower_of_device hl
  unfold lower at hlower
  simp only at hlower
  split at hlower
  · simp at hlower
  · cases hexec : d.card.executing with
    | true => simp [loadList, hexec] at hlower
    | false =>
      simp only [loadList, hexec, Bool.not_false, lowerContour_calls, Prod.mk.injEq,
        true_and] at hlower
      subst hlower
      exact ⟨rfl, hexec, by simp⟩

end CardDevice

end GalvoWeld
