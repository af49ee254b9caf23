import GalvoWeld.Proofs.Device.Preview
import GalvoWeld.Proofs.Device.Sights
import GalvoWeld.Proofs.Setting.Packing

/-!
# Transfers to the controller

The settings of a weld go out line by line up to the first that is not acknowledged. The contour
goes out once behind all of them, and not at all if one is missing.
-/

namespace GalvoWeld

/-! ### Lines that go out one after another -/

namespace Link

open Text (trimEnd)

/-- A line that was sent, and what came back. -/
structure Asked where
  line : String
  outcome : Except Fault String

def Asked.exchange (a : Asked) : Exchange := .line a.line a.outcome

/-- The line came back as it was sent, blanks at the end aside. -/
def Asked.Acknowledged (a : Asked) : Prop :=
  ∃ reply, a.outcome = .ok reply ∧ trimEnd reply.toList = trimEnd a.line.toList

instance (a : Asked) : Decidable a.Acknowledged :=
  match h : a.outcome with
  | .error _ => .isFalse fun ⟨_, hreply, _⟩ => nomatch h.symm.trans hreply
  | .ok reply =>
    decidable_of_iff (trimEnd reply.toList = trimEnd a.line.toList)
      ⟨fun heq => ⟨reply, h, heq⟩, fun ⟨_, hreply, heq⟩ =>
        (Except.ok.inj (h.symm.trans hreply)) ▸ heq⟩

/-- Of these lines a prefix is asked. It ends behind the first that is not acknowledged. -/
structure Course (lines : List String) (asked : List Asked) : Prop where
  order : asked.map Asked.line <+: lines
  acknowledged : ∀ a ∈ asked.dropLast, a.Acknowledged
  complete : (∀ a ∈ asked, a.Acknowledged) → asked.map Asked.line = lines

namespace Course

variable {lines : List String} {asked : List Asked} {a : Asked}

theorem none : Course [] [] := ⟨List.prefix_rfl, nofun, fun _ => rfl⟩

theorem stop (ha : ¬ a.Acknowledged) : Course (a.line :: lines) [a] where
  order := ⟨lines, rfl⟩
  acknowledged := nofun
  complete := fun hall => absurd (hall a (List.mem_singleton_self a)) ha

theorem pass (ha : a.Acknowledged) (hc : Course lines asked) :
    Course (a.line :: lines) (a :: asked) where
  order := List.cons_prefix_cons.2 ⟨rfl, hc.order⟩
  acknowledged := by
    intro b hb
    cases hrest : asked with
    | nil => simp [hrest] at hb
    | cons c more =>
      rw [hrest, List.dropLast_cons_of_ne_nil (List.cons_ne_nil c more), ← hrest] at hb
      rcases List.mem_cons.1 hb with rfl | hb
      · exact ha
      · exact hc.acknowledged b hb
  complete := fun hall => by
    rw [List.map_cons, hc.complete fun b hb => hall b (List.mem_cons_of_mem a hb)]

end Course

namespace Session

/-- What comes of a line that is sent now. -/
def ask (s : Session) (line : String) : Asked := ⟨line, s.peer.answer s.history line⟩

theorem session_exchange (s : Session) (line : String) :
    (s.exchange line).2 = ⟨s.peer, s.history ++ [(s.ask line).exchange]⟩ := by
  unfold exchange request
  split <;> next heq => exact (Prod.mk.inj heq).2.symm

theorem exchange_ok_iff (s : Session) {line : String} (hwrite : Setting.isWriteLine line = true) :
    (s.exchange line).1 = .ok () ↔ (s.ask line).Acknowledged := by
  unfold exchange request Asked.Acknowledged ask
  cases ho : s.peer.answer s.history line with
  | error fault => simp
  | ok reply => simp [Setting.checkReply, hwrite, Setting.checkWriteReply]

theorem exchangeAll_course {lines : List String}
    (hwrites : ∀ line ∈ lines, Setting.isWriteLine line = true) (s : Session) :
    ∃ asked : List Asked, Course lines asked ∧
      (s.exchangeAll lines).2 = ⟨s.peer, s.history ++ asked.map Asked.exchange⟩ ∧
      ((s.exchangeAll lines).1 = .ok () ↔ ∀ a ∈ asked, a.Acknowledged) := by
  induction lines generalizing s with
  | nil => exact ⟨[], .none, by simp [exchangeAll], by simp [exchangeAll]⟩
  | cons line rest ih =>
    have hsession := s.session_exchange line
    have hok := s.exchange_ok_iff (hwrites line (List.mem_cons_self ..))
    unfold exchangeAll
    cases he : s.exchange line with
    | mk result t =>
      rw [he] at hsession hok
      simp only at hsession hok
      cases result with
      | error fault =>
        have hrefused : ¬ (s.ask line).Acknowledged := fun ha => by cases hok.2 ha
        refine ⟨[s.ask line], .stop hrefused, hsession, ?_⟩
        simp [hrefused]
      | ok =>
        have hacknowledged := hok.1 rfl
        obtain ⟨asked, hcourse, hsent, hdone⟩ :=
          ih (fun l hl => hwrites l (List.mem_cons_of_mem line hl)) t
        refine ⟨s.ask line :: asked, .pass hacknowledged hcourse, ?_, ?_⟩
        · rw [hsent, hsession]
          simp
        · simp [hdone, hacknowledged]

end Session

end Link

open Link (Asked Course Exchange)
open Wobble (Setup)

/-! ### Builds that reach the device -/

/-- What a build compiles: there is a contour, the seam is prepared, and no fatal fault is in the
way. -/
def Seam.Compiles (s : Seam) (contour : Contour) : Prop :=
  s.contour = .ok contour ∧
    (s.stage = .wobbleDefined ∨ s.stage = .prepared ∧ ∃ setup, s.resolveWobble.1 = .ok setup)

theorem Seam.Alike.contour {s t : Seam} (h : s.Alike t) : s.contour = t.contour := by
  unfold Seam.contour
  rw [h.config, h.data, h.weldFigure]

namespace Welder

variable {δ : Type} [Device δ]

/-- A build that does not come to the device leaves it and the stage as they are. -/
theorem build_of_not_compiles {w : Welder δ} (hw : ∀ contour, ¬ w.seam.Compiles contour) :
    ∃ fault t, w.buildWeldingList = (.error fault, { w with seam := t }) ∧
      t.stage = w.seam.stage := by
  have hcontour : (w.seam.stage = .wobbleDefined ∨
      w.seam.stage = .prepared ∧ ∃ setup, w.seam.resolveWobble.1 = .ok setup) →
        ∃ fault, w.seam.contour = .error fault := by
    intro hstage
    cases hc : w.seam.contour with
    | error fault => exact ⟨fault, rfl⟩
    | ok contour => exact absurd ⟨hc, hstage⟩ (hw contour)
  have halike := w.seam.alike_resolveWobble
  have hkept : w.seam.resolveWobble.2.stage = w.seam.stage := by rw [w.seam.resolveWobble_eq]
  unfold buildWeldingList
  cases hstage : w.seam.stage with
  | prepared =>
    cases hr : w.seam.resolveWobble with
    | mk result t =>
      rw [hr] at halike hkept
      cases result with
      | error fault => exact ⟨fault, t, rfl, hkept.trans hstage⟩
      | ok setup =>
        obtain ⟨fault, hfault⟩ := hcontour (.inr ⟨hstage, setup, by rw [hr]⟩)
        rw [← halike.contour] at hfault
        exact ⟨fault, t, compile_of_error (w := { w with seam := t }) hfault setup,
          hkept.trans hstage⟩
  | wobbleDefined =>
    obtain ⟨fault, hfault⟩ := hcontour (.inl hstage)
    exact ⟨fault, w.seam, compile_of_error hfault w.seam.wobble, hstage⟩
  | _ => exact ⟨_, w.seam, rfl, hstage⟩

theorem build_of_compiles {w : Welder δ} {contour : Contour} (hw : w.seam.Compiles contour) :
    ∃ t setup, t.Alike w.seam ∧ t.stage = w.seam.stage ∧
      w.buildWeldingList = compile { w with seam := t } setup := by
  obtain ⟨-, hstage | ⟨hstage, setup, hsetup⟩⟩ := hw
  · exact ⟨w.seam, w.seam.wobble, ⟨rfl, rfl, rfl⟩, rfl, by simp only [buildWeldingList, hstage]⟩
  · refine ⟨w.seam.resolveWobble.2, setup, w.seam.alike_resolveWobble, ?_, ?_⟩
    · rw [w.seam.resolveWobble_eq]
    · cases hr : w.seam.resolveWobble with
      | mk result t =>
        obtain rfl : result = .ok setup := by rw [← hsetup, hr]
        simp only [buildWeldingList, hstage, hr]

end Welder

/-! ### The settings and the contour -/

namespace NetworkDevice

/-- The lines that set up a weld. -/
def settingLines (s : Seam) : List String :=
  Setting.packedLines ((weldSettings s).map Setting.write)

theorem writes_of_mem_map {settings : List Setting} :
    ∀ c ∈ settings.map Setting.write, c.writes = true := by
  intro c hc
  obtain ⟨setting, -, rfl⟩ := List.mem_map.1 hc
  rfl

theorem settingLines_ne_nil (s : Seam) : settingLines s ≠ [] :=
  Setting.packedLines_ne_nil (List.cons_ne_nil _ _)

theorem settingLines_of_alike {s t : Seam} (h : s.Alike t) : settingLines s = settingLines t := by
  unfold settingLines weldSettings firstMarkSpeed
  rw [h.config, h.data, h.weldFigure]

theorem write_course (d : NetworkDevice) (settings : List Setting) :
    ∃ asked : List Asked, Course (Setting.packedLines (settings.map Setting.write)) asked ∧
      (d.write settings).2 =
        { d with session := ⟨d.session.peer, d.session.history ++ asked.map Asked.exchange⟩ } ∧
      ((d.write settings).1 = .ok () ↔ ∀ a ∈ asked, a.Acknowledged) := by
  have hwrites : ∀ line ∈ Setting.packedLines (settings.map Setting.write),
      Setting.isWriteLine line = true :=
    fun _ hline => Setting.isWriteLine_of_mem_packedLines writes_of_mem_map hline
  obtain ⟨asked, hcourse, hsession, hdone⟩ := d.session.exchangeAll_course hwrites
  exact ⟨asked, hcourse, by simp only [write, Link.Session.send, hsession], hdone⟩

/-- The contour may be sent: every line that was asked is acknowledged, and it is staged. -/
def Cleared (stage : PlotStage) (contour : Contour) (disk : Disk) (asked : List Asked) : Prop :=
  (∀ a ∈ asked, a.Acknowledged) ∧ (stage.put contour disk).1 = .ok ()

theorem lower_course (s : Seam) (contour : Contour) (disk : Disk) (d : NetworkDevice) :
    ∃ (asked : List Asked) (files : List Exchange), Course (settingLines s) asked ∧
      (lower s contour disk d).2.2.session.history =
        d.session.history ++ (asked.map Asked.exchange ++ files) ∧
      ((¬ Cleared d.stage contour disk asked ∧ files = [] ∧ (lower s contour disk d).1 ≠ .ok ()) ∨
        Cleared d.stage contour disk asked ∧ files =
          [.file contourFileName (Plot.contourText contour) (lower s contour disk d).1]) := by
  obtain ⟨asked, hcourse, hwritten, hdone⟩ := d.write_course (weldSettings s)
  unfold lower
  cases hw : d.write (weldSettings s) with
  | mk result e =>
    rw [hw] at hwritten hdone
    simp only at hwritten hdone
    subst hwritten
    cases result with
    | error fault =>
      refine ⟨asked, [], hcourse, by simp, .inl ⟨fun h => ?_, rfl, nofun⟩⟩
      cases hdone.2 h.1
    | ok =>
      have hall := hdone.1 rfl
      cases hp : d.stage.put contour disk with
      | mk staged rest =>
        obtain ⟨disk', stage'⟩ := rest
        simp only [hp]
        cases staged with
        | error fault =>
          refine ⟨asked, [], hcourse, by simp, .inl ⟨fun h => ?_, rfl, nofun⟩⟩
          have hstaged := h.2
          rw [hp] at hstaged
          cases hstaged
        | ok =>
          refine ⟨asked, _, hcourse, ?_, .inr ⟨⟨hall, by rw [hp]⟩, rfl⟩⟩
          simp [Link.Session.sendFile, text_of_put hp]

theorem start_asks (d : NetworkDevice) :
    ∃ a : Asked, a.line = "S JOB_PROC 1" ∧
      (Device.start d).2.session.history = d.session.history ++ [a.exchange] ∧
      ((Device.start d).1 = .ok () ↔ a.Acknowledged) := by
  have hlines : Setting.packedLines ([Setting.processJob .start].map Setting.write) =
      ["S JOB_PROC 1"] := by decide +kernel
  obtain ⟨asked, hcourse, hwritten, hdone⟩ := d.write_course [.processJob .start]
  rw [hlines] at hcourse
  have hone : ∃ a : Asked, asked = [a] := by
    have hlength := hcourse.order.length_le
    match asked, hlength with
    | [], _ => cases hcourse.complete nofun
    | [a], _ => exact ⟨a, rfl⟩
  obtain ⟨a, rfl⟩ := hone
  refine ⟨a, ?_, ?_, ?_⟩
  · exact (List.cons_prefix_cons.1 hcourse.order).1
  · exact congrArg (fun e => e.session.history) hwritten
  · exact hdone.trans (by simp)

end NetworkDevice

/-- The settings of the seam are acknowledged to the last line, and its contour is staged. -/
structure MaySend (w : Welder NetworkDevice) (asked : List Asked) (contour : Contour) : Prop where
  lines : asked.map Asked.line = NetworkDevice.settingLines w.seam
  acknowledged : ∀ a ∈ asked, a.Acknowledged
  compiled : w.seam.contour = .ok contour
  staged : (w.device.stage.put contour w.disk).1 = .ok ()

theorem not_maySend_nil (w : Welder NetworkDevice) (contour : Contour) : ¬ MaySend w [] contour :=
  fun h => NetworkDevice.settingLines_ne_nil w.seam h.lines.symm

/-- What a build does when its contour comes to the device. -/
theorem transfer_of_compiles {w : Welder NetworkDevice} {contour : Contour}
    (hw : w.seam.Compiles contour) :
    ∃ (asked : List Asked) (files : List Exchange),
      Course (NetworkDevice.settingLines w.seam) asked ∧
      w.buildWeldingList.2.device.session.history =
        w.device.session.history ++ (asked.map Asked.exchange ++ files) ∧
      (¬ MaySend w asked contour ∧ files = [] ∧ w.buildWeldingList.1 ≠ .ok () ∨
        MaySend w asked contour ∧
          files = [.file contourFileName (Plot.contourText contour) w.buildWeldingList.1]) ∧
      w.buildWeldingList.2.seam.stage =
        if w.buildWeldingList.1 = .ok () then .built else w.seam.stage := by
  obtain ⟨t, setup, halike, hstage, hbuild⟩ := Welder.build_of_compiles hw
  have hcontour : t.contour = .ok contour := halike.contour.trans hw.1
  obtain ⟨asked, files, hcourse, hhistory, hfiles⟩ :=
    NetworkDevice.lower_course t contour w.disk w.device
  rw [NetworkDevice.settingLines_of_alike halike] at hcourse
  have hcleared : NetworkDevice.Cleared w.device.stage contour w.disk asked ↔
      MaySend w asked contour :=
    ⟨fun h => ⟨hcourse.complete h.1, h.1, hw.1, h.2⟩, fun h => ⟨h.acknowledged, h.staged⟩⟩
  rw [hcleared] at hfiles
  rw [hbuild, Welder.compile_of_contour (w := { w with seam := t }) hcontour]
  refine ⟨asked, files, hcourse, hhistory, hfiles, ?_⟩
  simp only
  split
  · rfl
  · exact hstage

theorem dispatch_of_start (w : Welder NetworkDevice) :
    ∃ a : Asked, a.line = "S JOB_PROC 1" ∧
      w.startMark.2.device.session.history = w.device.session.history ++ [a.exchange] ∧
      w.startMark.2.seam.stage =
        if a.Acknowledged ∧ w.seam.stage = .built then .dispatched else w.seam.stage := by
  obtain ⟨a, hline, hhistory, hok⟩ := NetworkDevice.start_asks w.device
  refine ⟨a, hline, ?_⟩
  unfold Welder.startMark
  cases hd : Device.start w.device with
  | mk result d =>
    rw [hd] at hhistory hok
    cases result with
    | error fault =>
      have hrefused : ¬ a.Acknowledged := fun ha => by cases hok.2 ha
      exact ⟨hhistory, (if_neg fun h => hrefused h.1).symm⟩
    | ok =>
      refine ⟨hhistory, ?_⟩
      simp only [hok.1 rfl, true_and]

/-- A build sends the lines of its settings up to the first that is not acknowledged, and none if
there is nothing to compile. Behind them it sends the contour of the seam once, if all lines are
acknowledged and the contour is staged, and nothing otherwise. The list is built if the controller
takes the file; else the stage stays. A start sends one line, and a built list is dispatched if that
line is acknowledged. -/
theorem contour_waits_for_settings (w : Welder NetworkDevice) :
    (∃ (asked : List Asked) (files : List Exchange),
      w.buildWeldingList.2.device.session.history =
        w.device.session.history ++ (asked.map Asked.exchange ++ files) ∧
      ((∃ contour, w.seam.Compiles contour) ∧ Course (NetworkDevice.settingLines w.seam) asked ∨
        (¬ ∃ contour, w.seam.Compiles contour) ∧ asked = []) ∧
      ((∀ contour, ¬ MaySend w asked contour) ∧ files = [] ∨
        ∃ contour outcome, MaySend w asked contour ∧
          files = [.file contourFileName (Plot.contourText contour) outcome]) ∧
      (w.buildWeldingList.1 = .ok () ↔ ∃ text, .file contourFileName text (.ok ()) ∈ files)) ∧
    w.buildWeldingList.2.seam.stage =
      (if w.buildWeldingList.1 = .ok () then .built else w.seam.stage) ∧
    ∃ a : Asked, a.line = "S JOB_PROC 1" ∧
      w.startMark.2.device.session.history = w.device.session.history ++ [a.exchange] ∧
      w.startMark.2.seam.stage =
        if a.Acknowledged ∧ w.seam.stage = .built then .dispatched else w.seam.stage := by
  rw [← and_assoc]
  refine ⟨?_, dispatch_of_start w⟩
  by_cases hw : ∃ contour, w.seam.Compiles contour
  · obtain ⟨contour, hcompiles⟩ := hw
    obtain ⟨asked, files, hcourse, hhistory, hfiles, hstage⟩ := transfer_of_compiles hcompiles
    refine ⟨⟨asked, files, hhistory, .inl ⟨⟨contour, hcompiles⟩, hcourse⟩, ?_⟩, hstage⟩
    rcases hfiles with ⟨hnot, rfl, hfault⟩ | ⟨hsend, rfl⟩
    · refine ⟨.inl ⟨fun other h => hnot ?_, rfl⟩, by simp [hfault]⟩
      obtain rfl := Except.ok.inj (h.compiled.symm.trans hcompiles.1)
      exact h
    · refine ⟨.inr ⟨contour, _, hsend, rfl⟩, ?_⟩
      simp [eq_comm]
  · obtain ⟨fault, t, hbuild, hstage⟩ :=
      Welder.build_of_not_compiles fun contour h => hw ⟨contour, h⟩
    rw [hbuild]
    refine ⟨⟨[], [], by simp, .inr ⟨hw, rfl⟩, .inl ⟨not_maySend_nil w, rfl⟩, ?_⟩, hstage⟩
    simp

end GalvoWeld
