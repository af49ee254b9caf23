import GalvoWeld.Proofs.Card.Vectors
import GalvoWeld.Proofs.Device.FreshList
import GalvoWeld.Proofs.Device.Passes
import GalvoWeld.Proofs.Device.Transfers

/-!
# Building a list again that was refused

When a device refuses a list, wobbling is decided already and the device may have heard a part of
the list. Nothing of this shows when the list is built again: what is decided is decided as before,
and the device is given the whole list.
-/

namespace GalvoWeld

open Wobble (Compensation Setup)
open Link (Asked Course Exchange Peer)

/-- Faults that a build has before anything is sent to a device: they are of the seam and of the
size of its figure. -/
def Fault.isOfSeam : Fault → Bool
  | .wobble _ => true
  | .noWeldFigure => true
  | .outOfOrder _ => true
  | .tooManyPoints .. => true
  | _ => false

/-! ### Deciding once more -/

namespace Seam

variable {s t : Seam} {setup : Setup}

/-- What stands about wobbling is not read when wobbling is defined. -/
theorem defineWobble_anew (s : Seam) (setup : Setup) (vectors : Compensation) (mode : Wobble.Mode) :
    defineWobble { s with wobble := setup, compensation := vectors } mode =
      ((s.defineWobble mode).1, { (s.defineWobble mode).2 with wobble := setup }) := by
  cases mode with
  | off => rfl
  | basic shape => rfl
  | free =>
    have hfigure : freeFigure { s with wobble := setup, compensation := .cleared } =
        freeFigure { s with compensation := .cleared } := rfl
    have hvectors : ∀ figure modulation,
        defineVectors { s with wobble := setup, compensation := .cleared } figure modulation =
          ((defineVectors { s with compensation := .cleared } figure modulation).1,
            { (defineVectors { s with compensation := .cleared } figure modulation).2 with
              wobble := setup }) := fun _ _ => rfl
    simp only [defineWobble, hfigure]
    cases freeFigure { s with compensation := .cleared } with
    | error fault => rfl
    | ok figure =>
      simp only [hvectors]
      cases defineVectors { s with compensation := .cleared } figure figure.modulation with
      | mk result t => cases result <;> rfl

theorem kept_of_resolveWobble (hr : s.resolveWobble = (.ok setup, t)) :
    t = { s with wobble := t.wobble, compensation := t.compensation } := by
  have hkept := s.resolveWobble_eq
  rw [hr] at hkept
  exact hkept

/-- A decision that did not fail comes to the same once more, and changes nothing. -/
theorem resolveWobble_repeats (hr : s.resolveWobble = (.ok setup, t)) :
    t.resolveWobble = (.ok setup, t) := by
  have hkept := kept_of_resolveWobble hr
  have hmode : t.data.wobbleMode = s.data.wobbleMode := by rw [hkept]
  -- the seam differs from the one before in what the decision has set, and that is not read
  have hdefine := s.defineWobble_anew t.wobble t.compensation s.data.wobbleMode
  rw [← hkept] at hdefine
  unfold resolveWobble at hr ⊢
  rw [hmode, hdefine]
  cases hd : s.defineWobble s.data.wobbleMode with
  | mk result u =>
    rw [hd] at hr
    cases result with
    | ok chosen => exact hr
    | error fault =>
      simp only at hr ⊢
      split at hr
      · cases hr
      · next hmild =>
        rw [if_neg hmild]
        exact hr

/-- This is the seam when its contour is compiled, and what is decided about wobbling: now, or when
the wobble figure was loaded. -/
inductive Decided (s : Seam) : Seam → Setup → Prop where
  | now {t : Seam} {setup : Setup} (hstage : s.stage = .prepared)
      (hr : s.resolveWobble = (.ok setup, t)) : Decided s t setup
  | before (hstage : s.stage = .wobbleDefined) : Decided s s s.wobble

namespace Decided

theorem kept (h : s.Decided t setup) :
    t = { s with wobble := t.wobble, compensation := t.compensation } := by
  cases h with
  | now hstage hr => exact kept_of_resolveWobble hr
  | before hstage => rfl

theorem repeats (h : s.Decided t setup) : t.Decided t setup := by
  have hkept := h.kept
  cases h with
  | now hstage hr =>
    exact .now ((congrArg Seam.stage hkept).trans hstage) (resolveWobble_repeats hr)
  | before hstage => exact .before hstage

end Decided

end Seam

theorem Seam.contour_error {s : Seam} {fault : Fault} (hc : s.contour = .error fault) :
    fault = .noWeldFigure := by
  unfold contour at hc
  simp only at hc
  split at hc
  · cases hc
  · exact (Except.error.inj hc).symm

/-! ### Devices that take everything -/

/-- What a device is given: a call of the card, or a line or a file over the link. -/
inductive Emission where
  | call (call : Card.Call)
  | line (text : String)
  | file (name text : String)

namespace Link

def Exchange.emission : Exchange → Emission
  | .line text _ => .line text
  | .file name text _ => .file name text

/-- The controller acknowledges every line that writes, and takes every file. -/
structure Peer.Accepts (peer : Peer) : Prop where
  lines : ∀ history line, Setting.isWriteLine line = true →
    (Asked.mk line (peer.answer history line)).Acknowledged
  files : ∀ history name text, peer.accept history name text = .ok ()

theorem Session.exchangeAll_accepted {lines : List String}
    (hwrites : ∀ line ∈ lines, Setting.isWriteLine line = true) {s : Session}
    (hs : s.peer.Accepts) : (s.exchangeAll lines).1 = .ok () := by
  induction lines generalizing s with
  | nil => rfl
  | cons line rest ih =>
    have hwrite := hwrites line (List.mem_cons_self ..)
    have hok := (s.exchange_ok_iff hwrite).2 (hs.lines s.history line hwrite)
    have hsession := s.session_exchange line
    unfold exchangeAll
    cases he : s.exchange line with
    | mk result t =>
      rw [he] at hok hsession
      obtain rfl : result = .ok () := hok
      obtain rfl : t = _ := hsession
      exact ih (fun l hl => hwrites l (List.mem_cons_of_mem line hl)) hs

theorem Peer.accepts_rehearsal : (Peer.rehearsal [] none).Accepts where
  lines := by
    intro history line hwrite
    have hreads : ['G', ' '].isPrefixOf line.toList = false := by
      unfold Setting.isWriteLine at hwrite
      cases hline : line.toList with
      | nil => rfl
      | cons c rest =>
        rw [hline] at hwrite
        simp only [List.isPrefixOf, Bool.and_eq_true, beq_iff_eq] at hwrite
        obtain rfl := hwrite.1
        rfl
    refine ⟨line, ?_, rfl⟩
    simp only [rehearsal, List.find?_nil, hreads, Bool.false_eq_true, if_false]
  files := fun _ _ _ => rfl

end Link

theorem NetworkDevice.lower_accepted {s : Seam} {contour : Contour} {disk : Disk}
    {d : NetworkDevice} (hpeer : d.session.peer.Accepts)
    (hstaged : (d.stage.put contour disk).1 = .ok ()) :
    ∃ disk' d', lower s contour disk d = (.ok (), disk', d') ∧
      d'.session.history.map Exchange.emission = d.session.history.map Exchange.emission ++
        ((settingLines s).map .line ++ [.file contourFileName (Plot.contourText contour)]) := by
  obtain ⟨asked, hcourse, hwritten, hdone⟩ := d.write_course (weldSettings s)
  have hok : (d.write (weldSettings s)).1 = .ok () :=
    Link.Session.exchangeAll_accepted
      (fun _ hline => Setting.isWriteLine_of_mem_packedLines writes_of_mem_map hline) hpeer
  have hlines : asked.map Asked.line = settingLines s := hcourse.complete (hdone.1 hok)
  have hemitted : (asked.map Asked.exchange).map Exchange.emission =
      (settingLines s).map .line := by
    rw [← hlines, List.map_map, List.map_map]
    rfl
  unfold lower
  cases hw : d.write (weldSettings s) with
  | mk result e =>
    rw [hw] at hok hwritten
    obtain rfl : result = .ok () := hok
    obtain rfl : e = _ := hwritten
    cases hp : d.stage.put contour disk with
    | mk staged rest =>
      obtain ⟨disk', stage'⟩ := rest
      rw [hp] at hstaged
      obtain rfl : staged = .ok () := hstaged
      simp only [hp, Link.Session.sendFile, hpeer.files, text_of_put hp]
      refine ⟨_, _, rfl, ?_⟩
      simp only [List.map_append, hemitted, List.append_assoc]
      rfl

namespace Backend

/-- All that a device was given. -/
def emitted : (b : Backend) → b.State → List Emission
  | .card, d => d.card.calls.map .call
  | .network, d => d.session.history.map Exchange.emission

/-- The card executes nothing; the controller accepts, and any contour can be staged. -/
def Accepts : (b : Backend) → b.State → Disk → Prop
  | .card, d, _ => d.card.executing = false
  | .network, d, disk => d.session.peer.Accepts ∧ ∀ contour, (d.stage.put contour disk).1 = .ok ()

/-- There is room for the figure of the seam. -/
def Fits : Backend → Seam → Prop
  | .card, s =>
    Card.entriesNeeded (s.weldFigure.elim 0 Figure.size) ≤ Card.entriesAvailable s.config
  | .network, _ => True

/-- What a device is given with a list that it takes. -/
def list : Backend → Seam → Contour → Setup → List Emission
  | .card, s, contour, setup =>
    (Card.Call.loadList Card.listNumber 0 ::
      (Card.listCalls s setup (Card.lowered s.config.calibrationFactor {} contour) ++
        [.setEndOfList])).map .call
  | .network, s, contour, _ =>
    (NetworkDevice.settingLines s).map .line ++
      [.file contourFileName (Plot.contourText contour)]

end Backend

/-- A device takes every list that fits, if it accepts then, and this is what it is given. A list
that it is at fault for does fit. -/
structure Takes (δ : Type) [Device δ] (emitted : δ → List Emission) (accepts : δ → Disk → Prop)
    (fits : Seam → Prop) (list : Seam → Contour → Setup → List Emission) : Prop where
  accepted : ∀ {s : Seam} {contour : Contour} {d : δ} {disk : Disk}, s.contour = .ok contour →
    fits s → accepts d disk → ∀ setup : Setup,
    ∃ disk' d', Device.lower s contour setup disk d = (.ok (), disk', d') ∧
      emitted d' = emitted d ++ list s contour setup
  refused : ∀ {s : Seam} {contour : Contour} {setup : Setup} {d : δ} {disk : Disk} {fault : Fault},
    (Device.lower s contour setup disk d).1 = .error fault → fault.isOfSeam = false → fits s

open Backend

theorem CardDevice.takes : Takes CardDevice (emitted .card) (Accepts .card) (Fits .card)
    (list .card) where
  accepted := by
    intro s contour d disk hc hfits hd setup
    have hroom := Nat.not_lt.2 hfits
    have hidle : d.card.executing = false := hd
    have htaken : ∃ d', Device.lower s contour setup disk d = (.ok (), disk, d') := by
      simp only [Device.lower, lower, if_neg hroom, Card.loadList, hidle]
      exact ⟨_, rfl⟩
    obtain ⟨d', hlower⟩ := htaken
    obtain ⟨-, -, hcalls⟩ := lower_ok hlower
    rw [Card.lowered_of_contour hc s.config.calibrationFactor d.memo {}] at hcalls
    refine ⟨disk, d', hlower, ?_⟩
    simp only [emitted, list, hcalls, List.map_append]
  refused := by
    intro s contour setup d disk fault hl hdevice
    refine Nat.not_lt.1 fun hroom => ?_
    simp only [Device.lower, lower, if_pos hroom] at hl
    obtain rfl := Except.error.inj hl
    cases hdevice

theorem NetworkDevice.takes : Takes NetworkDevice (emitted .network) (Accepts .network)
    (Fits .network) (list .network) where
  accepted := by
    intro s contour d disk hc hfits hd setup
    exact lower_accepted hd.1 (hd.2 contour)
  refused := fun _ _ => trivial

theorem Backend.takes : ∀ b : Backend, Takes b.State b.emitted b.Accepts b.Fits b.list
  | .card => CardDevice.takes
  | .network => NetworkDevice.takes

/-! ### Building again -/

namespace Welder

theorem build_of_decided {δ : Type} [Device δ] {w : Welder δ} {t : Seam} {setup : Setup}
    (h : w.seam.Decided t setup) : w.buildWeldingList = compile { w with seam := t } setup := by
  cases h with
  | now hstage hr => exact build_of_resolved hstage hr
  | before hstage => simp only [buildWeldingList, hstage]

variable {b : Backend} {w w' : Welder b.State} {fault : Fault}

theorem compile_refused {setup : Setup} (hc : w.compile setup = (.error fault, w'))
    (hdevice : fault.isOfSeam = false) :
    w'.seam = w.seam ∧ (∃ contour, w.seam.contour = .ok contour) ∧ b.Fits w.seam := by
  cases hcontour : w.seam.contour with
  | error flaw =>
    rw [compile_of_error hcontour] at hc
    obtain rfl := Except.error.inj (Prod.mk.inj hc).1
    rw [Seam.contour_error hcontour] at hdevice
    cases hdevice
  | ok contour =>
    rw [compile_of_contour hcontour] at hc
    obtain ⟨hresult, rfl⟩ := Prod.mk.inj hc
    refine ⟨?_, ⟨contour, rfl⟩, b.takes.refused hresult hdevice⟩
    simp only [hresult, reduceCtorEq, if_false]

/-- A build that the device refused has decided about wobbling, and has a contour for which there is
room. -/
theorem decided_of_refused (hbuild : w.buildWeldingList = (.error fault, w'))
    (hdevice : fault.isOfSeam = false) :
    ∃ contour setup, w.seam.Decided w'.seam setup ∧ w'.seam.contour = .ok contour ∧
      b.Fits w'.seam := by
  have hcompiled : ∀ {t : Seam} {setup : Setup}, w.seam.Decided t setup →
      ∃ contour setup, w.seam.Decided w'.seam setup ∧ w'.seam.contour = .ok contour ∧
        b.Fits w'.seam := by
    intro t setup h
    rw [build_of_decided h] at hbuild
    obtain ⟨hseam, ⟨contour, hcontour⟩, hfits⟩ := compile_refused hbuild hdevice
    rw [hseam]
    exact ⟨contour, setup, h, hcontour, hfits⟩
  -- a build out of order and a decision that fails are no faults of the device
  cases hstage : w.seam.stage with
  | prepared =>
    cases hr : w.seam.resolveWobble with
    | mk result t =>
      cases result with
      | ok setup => exact hcompiled (.now hstage hr)
      | error flaw =>
        rw [build_of_unresolved hstage hr] at hbuild
        obtain rfl := Except.error.inj (Prod.mk.inj hbuild).1
        have hresolves := w.seam.resolves
        rw [hr] at hresolves
        cases hresolves with
        | fails hfatal hwobble hvectors => cases hdevice
  | wobbleDefined => exact hcompiled (.before hstage)
  | _ =>
    simp only [buildWeldingList, hstage] at hbuild
    obtain rfl := Except.error.inj (Prod.mk.inj hbuild).1
    cases hdevice

theorem build_accepted {s t : Seam} {setup : Setup} {contour : Contour} {d : b.State} {disk : Disk}
    (h : s.Decided t setup) (hc : t.contour = .ok contour) (hfits : b.Fits t)
    (hd : b.Accepts d disk) :
    ∃ v, buildWeldingList ⟨s, d, disk⟩ = (.ok (), v) ∧ v.seam = { t with stage := .built } ∧
      b.emitted v.device = b.emitted d ++ b.list t contour setup := by
  obtain ⟨disk', d', hlower, hemitted⟩ := b.takes.accepted hc hfits hd setup
  rw [build_of_decided (w := ⟨s, d, disk⟩) h, compile_of_contour (w := ⟨t, d, disk⟩) hc, hlower]
  exact ⟨_, rfl, rfl, hemitted⟩

/-- If the device is at fault when a list is not built, nothing changes in the seam but what is
decided about wobbling. The list is then built on a device that takes everything, whatever that
device was given before, and it is given what the first try would have given to such a device. -/
theorem refused_build_repeats (hbuild : w.buildWeldingList = (.error fault, w'))
    (hdevice : fault.isOfSeam = false) :
    w'.seam = { w.seam with wobble := w'.seam.wobble, compensation := w'.seam.compensation } ∧
    ∀ {d d' : b.State} {disk disk' : Disk}, b.Accepts d disk → b.Accepts d' disk' →
      ∃ v v' given, buildWeldingList ⟨w.seam, d, disk⟩ = (.ok (), v) ∧
        buildWeldingList ⟨w'.seam, d', disk'⟩ = (.ok (), v') ∧
        b.emitted v.device = b.emitted d ++ given ∧
        b.emitted v'.device = b.emitted d' ++ given ∧
        v'.seam.stage = .built ∧ v'.seam = v.seam := by
  obtain ⟨contour, setup, hdecided, hcontour, hfits⟩ := decided_of_refused hbuild hdevice
  refine ⟨hdecided.kept, fun hd hd' => ?_⟩
  obtain ⟨v, hfirst, hseam, hgiven⟩ := build_accepted hdecided hcontour hfits hd
  obtain ⟨v', hagain, hseam', hgiven'⟩ := build_accepted hdecided.repeats hcontour hfits hd'
  exact ⟨v, v', _, hfirst, hagain, hgiven, hgiven', by rw [hseam'], hseam'.trans hseam.symm⟩

/-- A seam with a free wobbling, for a controller that does not know a line of the settings. -/
def benchUnversed : Welder (Backend.State .network) :=
  (create {} (NetworkDevice.fresh {} (Peer.rehearsal [("SCANFIELD", "ERR 7")] none)) ⟨[], []⟩).after
    [.prepare { power := 0.5, wobbleMode := .free } benchBright, .attachWobble benchTriangle]

/-- A controller that knows all lines, after the refusal. -/
def benchVersed : Backend.State .network :=
  ⟨⟨Peer.rehearsal [] none, benchUnversed.buildWeldingList.2.device.session.history⟩, ⟨none, ""⟩⟩

theorem bench_refused_build_repeats :
    benchUnversed.buildWeldingList.1 = .error
      (.unexpectedReply "S SCANFIELD_SIZE 52 CALIB_FILE calibration.txt" "ERR 7") ∧
    ∃ v v' given,
      buildWeldingList { benchUnversed with device := benchNetwork.device } = (.ok (), v) ∧
      buildWeldingList { benchUnversed.buildWeldingList.2 with device := benchVersed } =
        (.ok (), v') ∧
      Backend.emitted .network v.device = given ∧
      Backend.emitted .network v'.device = Backend.emitted .network benchVersed ++ given ∧
      v'.seam.stage = .built := by
  have hrefused : benchUnversed.buildWeldingList.1 = .error
      (.unexpectedReply "S SCANFIELD_SIZE 52 CALIB_FILE calibration.txt" "ERR 7") := by
    decide +kernel
  have hbuild := Prod.eta benchUnversed.buildWeldingList
  rw [hrefused] at hbuild
  have haccepts : ∀ disk, Backend.Accepts .network benchNetwork.device disk :=
    fun _ => ⟨Peer.accepts_rehearsal, fun _ => rfl⟩
  have haccepts' : ∀ disk, Backend.Accepts .network benchVersed disk :=
    fun _ => ⟨Peer.accepts_rehearsal, fun _ => rfl⟩
  obtain ⟨-, hagain⟩ := refused_build_repeats hbuild.symm rfl
  obtain ⟨v, v', given, hfirst, hsecond, hgiven, hgiven', hbuilt, -⟩ :=
    hagain (haccepts _) (haccepts' _)
  exact ⟨hrefused, v, v', given, hfirst, hsecond, hgiven, hgiven', hbuilt⟩

end Welder

end GalvoWeld
