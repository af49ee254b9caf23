import GalvoWeld.Proofs.Device.Operations

/-!
# What can be seen of a welder

Every event at a welder shows its result, the stage of the list, what the device is told and the
files. Two welders show the same as long as they agree in seam and files and their devices cannot be
told apart by what comes; what the devices were told before may differ.
-/

namespace GalvoWeld

open Wobble (Setup)

/-- A device that keeps a record of what it is told, and may change by itself. -/
class Recorded (δ : Type) (ω ε : outParam Type) where
  record : δ → List ω
  change : ε → δ → δ

section

variable {δ ω ε : Type} [Recorded δ ω ε]

/-- What both devices were told since these two records is the same. -/
def Apart (past past' : List ω) (d d' : δ) : Prop :=
  ∃ new, Recorded.record d = past ++ new ∧ Recorded.record d' = past' ++ new

theorem told_of_apart {past past' : List ω} {d d' e e' : δ} (hd : Apart past past' d d')
    (he : Apart past past' e e') :
    (Recorded.record e').drop (Recorded.record d').length =
      (Recorded.record e).drop (Recorded.record d).length := by
  obtain ⟨new, hd, hd'⟩ := hd
  obtain ⟨more, he, he'⟩ := he
  rw [hd, hd', he, he', List.length_append, List.length_append, List.drop_length_add_append,
    List.drop_length_add_append]

end

/-- Something is asked of a welder, or its device changes by itself. -/
inductive Event (ε : Type) where
  | request (op : Operation)
  | change (c : ε)

/-- A contour that does not come from the seam is handed to the device. -/
def Operation.direct : Operation → Bool
  | .buildList .. => true
  | _ => false

structure Sight (ω : Type) where
  result : Except Fault Unit
  stage : ListStage
  told : List ω
  disk : Disk

namespace Welder

variable {δ ω ε : Type} [Device δ] [Recorded δ ω ε]

def occur (w : Welder δ) : Event ε → Except Fault Unit × Welder δ
  | .request op => w.perform op
  | .change c => (.ok (), { w with device := Recorded.change c w.device })

def afterEvents (w : Welder δ) (events : List (Event ε)) : Welder δ :=
  events.foldl (fun w e => (w.occur e).2) w

/-- What these events show, one after another. -/
def sights (w : Welder δ) : List (Event ε) → List (Sight ω)
  | [] => []
  | e :: rest =>
    let next := (w.occur e).2
    ⟨(w.occur e).1, next.seam.stage,
      (Recorded.record next.device).drop (Recorded.record w.device).length, next.disk⟩ ::
      next.sights rest

/-! ### What a device keeps -/

/-- Nothing that is asked of a device, or happens to it, changes this. -/
structure Kept (P : δ → Prop) : Prop where
  lower : ∀ (s : Seam) (contour : Contour) (setup : Setup) (disk : Disk) {d : δ}, P d →
    P (Device.lower s contour setup disk d).2.2
  move : ∀ (config : Config) (place : Point) {d : δ}, P d → P (Device.move config place d).2
  start : ∀ {d : δ}, P d → P (Device.start d).2
  abort : ∀ {d : δ}, P d → P (Device.abort d).2
  change : ∀ (c : ε) {d : δ}, P d → P (Recorded.change c d)

namespace Kept

variable {P : δ → Prop}

theorem builds (hP : Kept P) {s : Seam} {w w' : Welder δ} {result : Except Fault Unit}
    (hw : P w.device) (hb : Builds s w (result, w')) : P w'.device := by
  rcases hb.split with ⟨fault, -, hdevice⟩ | ⟨t, contour, setup, -, -, hlower⟩
  · rw [hdevice]
    exact hw
  · have hkept := hP.lower t contour setup w.disk hw
    rw [hlower] at hkept
    exact hkept

theorem perform (hP : Kept P) {w : Welder δ} (hw : P w.device) (op : Operation) :
    P (w.perform op).2.device := by
  cases op with
  | prepare data figure =>
    simp only [Welder.perform, Welder.prepare]
    split <;> exact hw
  | buildList contour setup => exact hP.lower w.seam contour setup w.disk hw
  | buildWeldingList => exact hP.builds hw w.builds_buildWeldingList
  | buildPreviewList data figure => exact hP.builds hw (w.builds_buildPreviewList data figure)
  | moveTo place => exact hP.move w.seam.config place hw
  | startMark =>
    have hkept := hP.start hw
    simp only [Welder.perform, startMark]
    split <;> next heq => rw [heq] at hkept; exact hkept
  | stopMark => exact hP.abort hw
  | _ => exact hw

theorem occur (hP : Kept P) {w : Welder δ} (hw : P w.device) (e : Event ε) :
    P (w.occur e).2.device := by
  cases e with
  | request op => exact hP.perform hw op
  | change c => exact hP.change c hw

theorem afterEvents (hP : Kept P) {w : Welder δ} (hw : P w.device) (events : List (Event ε)) :
    P (w.afterEvents events).device := by
  induction events generalizing w with
  | nil => exact hw
  | cons e rest ih => exact ih (hP.occur hw e)

end Kept

theorem config_afterEvents (w : Welder δ) (events : List (Event ε)) :
    (w.afterEvents events).seam.config = w.seam.config := by
  induction events generalizing w with
  | nil => rfl
  | cons e rest ih =>
    have hone : (w.occur e).2.seam.config = w.seam.config := by
      cases e with
      | request op => exact (kept_by_perform w op).1
      | change c => rfl
    exact (ih (w.occur e).2).trans hone

/-! ### Welders that show the same -/

/-- Devices in this relation give the same results and stay in it, whatever is asked of both. A
contour must be that of a seam. -/
structure Respected (R : δ → δ → Prop) : Prop where
  lower : ∀ {s : Seam} {contour : Contour} (setup : Setup) (disk : Disk) {d d' : δ},
    s.contour = .ok contour → R d d' →
    (Device.lower s contour setup disk d').1 = (Device.lower s contour setup disk d).1 ∧
      (Device.lower s contour setup disk d').2.1 = (Device.lower s contour setup disk d).2.1 ∧
      R (Device.lower s contour setup disk d).2.2 (Device.lower s contour setup disk d').2.2
  move : ∀ (config : Config) (place : Point) {d d' : δ}, R d d' →
    (Device.move config place d').1 = (Device.move config place d).1 ∧
      R (Device.move config place d).2 (Device.move config place d').2
  start : ∀ {d d' : δ}, R d d' →
    (Device.start d').1 = (Device.start d).1 ∧ R (Device.start d).2 (Device.start d').2
  abort : ∀ {d d' : δ}, R d d' →
    (Device.abort d').1 = (Device.abort d).1 ∧ R (Device.abort d).2 (Device.abort d').2
  change : ∀ (c : ε) {d d' : δ}, R d d' → R (Recorded.change c d) (Recorded.change c d')

structure Twins (R : δ → δ → Prop) (w v : Welder δ) : Prop where
  seam : v.seam = w.seam
  disk : v.disk = w.disk
  device : R w.device v.device

/-- The same result for both, and twins again. -/
structure Echo (R : δ → δ → Prop) (a b : Except Fault Unit × Welder δ) : Prop where
  result : b.1 = a.1
  twins : Twins R a.2 b.2

theorem compile_of_error {w : Welder δ} {fault : Fault} (hc : w.seam.contour = .error fault)
    (setup : Setup) : w.compile setup = (.error fault, w) := by
  simp only [Welder.compile, hc]

theorem compile_of_contour {w : Welder δ} {contour : Contour} (hc : w.seam.contour = .ok contour)
    (setup : Setup) :
    w.compile setup = ((Device.lower w.seam contour setup w.disk w.device).1,
      { seam := if (Device.lower w.seam contour setup w.disk w.device).1 = .ok () then
          { w.seam with stage := .built } else w.seam
        disk := (Device.lower w.seam contour setup w.disk w.device).2.1
        device := (Device.lower w.seam contour setup w.disk w.device).2.2 }) := by
  simp only [Welder.compile, hc, buildList]
  cases hl : Device.lower w.seam contour setup w.disk w.device with
  | mk result rest => cases result <;> rfl

namespace Respected

variable {R : δ → δ → Prop}

theorem compile (hR : Respected R) {w v : Welder δ} (h : Twins R w v) (setup : Setup) :
    Echo R (w.compile setup) (v.compile setup) := by
  cases hc : w.seam.contour with
  | error fault =>
    have hcv : v.seam.contour = .error fault := by rw [h.seam, hc]
    simp only [Welder.compile, hc, hcv]
    exact ⟨rfl, h⟩
  | ok contour =>
    have hcv : v.seam.contour = .ok contour := by rw [h.seam, hc]
    obtain ⟨hresult, hdisk, hdevice⟩ := hR.lower setup w.disk hc h.device
    rw [compile_of_contour hc, compile_of_contour hcv, h.seam, h.disk]
    exact ⟨hresult, by rw [hresult], hdisk, hdevice⟩

theorem perform (hR : Respected R) {w v : Welder δ} (h : Twins R w v) {op : Operation}
    (hop : op.direct = false) : Echo R (w.perform op) (v.perform op) := by
  obtain ⟨s, d, disk⟩ := w
  obtain ⟨s', d', disk'⟩ := v
  obtain ⟨hseam, hdisk, hdevice⟩ := h
  simp only at hseam hdisk hdevice
  subst hseam hdisk
  have hcompile : ∀ (t : Seam) (setup : Setup),
      Echo R (Welder.compile ⟨t, d, disk'⟩ setup) (Welder.compile ⟨t, d', disk'⟩ setup) :=
    fun t setup => hR.compile (w := ⟨t, d, disk'⟩) (v := ⟨t, d', disk'⟩) ⟨rfl, rfl, hdevice⟩ setup
  cases op with
  | buildList contour setup => cases hop
  | prepare data figure =>
    simp only [Welder.perform, Welder.prepare]
    split <;> exact ⟨rfl, rfl, rfl, hdevice⟩
  | buildWeldingList =>
    simp only [Welder.perform, buildWeldingList]
    split
    · split
      · exact ⟨rfl, rfl, rfl, hdevice⟩
      · exact hcompile _ _
    · exact hcompile _ _
    · exact ⟨rfl, rfl, rfl, hdevice⟩
  | buildPreviewList data figure =>
    simp only [Welder.perform, buildPreviewList]
    split
    · exact ⟨rfl, rfl, rfl, hdevice⟩
    · exact hcompile _ _
  | moveTo place =>
    obtain ⟨hresult, hmoved⟩ := hR.move s'.config place hdevice
    exact ⟨hresult, rfl, rfl, hmoved⟩
  | startMark =>
    obtain ⟨hresult, hstarted⟩ := hR.start hdevice
    simp only [Welder.perform, startMark]
    cases hd : Device.start d with
    | mk result e =>
      cases hd' : Device.start d' with
      | mk result' e' =>
        rw [hd, hd'] at hresult hstarted
        simp only at hresult hstarted
        subst hresult
        cases result' <;> exact ⟨rfl, rfl, rfl, hstarted⟩
  | stopMark =>
    obtain ⟨hresult, hstopped⟩ := hR.abort hdevice
    exact ⟨hresult, rfl, rfl, hstopped⟩
  | _ => exact ⟨rfl, rfl, rfl, hdevice⟩

theorem occur (hR : Respected R) {w v : Welder δ} (h : Twins R w v) {e : Event ε}
    (he : ∀ op, e = .request op → op.direct = false) : Echo R (w.occur e) (v.occur e) := by
  cases e with
  | request op => exact hR.perform h (he op rfl)
  | change c => exact ⟨rfl, h.seam, h.disk, hR.change c h.device⟩

end Respected

/-- Twins show the same, event by event. -/
theorem sights_of_twins {R : δ → δ → Prop} {past past' : List ω} (hR : Respected R)
    (hrecord : ∀ d d', R d d' → Apart past past' d d') {w v : Welder δ} (h : Twins R w v)
    {events : List (Event ε)} (hevents : ∀ op, .request op ∈ events → op.direct = false) :
    v.sights events = w.sights events := by
  induction events generalizing w v with
  | nil => rfl
  | cons e rest ih =>
    have hecho := hR.occur h (e := e) fun op he => hevents op (he ▸ List.mem_cons_self ..)
    have htold := told_of_apart (hrecord _ _ h.device) (hrecord _ _ hecho.twins.device)
    have hrest := ih hecho.twins fun op hm => hevents op (List.mem_cons_of_mem _ hm)
    simp only [sights, hecho.result, hecho.twins.seam, hecho.twins.disk, htold, hrest]

end Welder

end GalvoWeld
