import GalvoWeld.Device.Network
import GalvoWeld.Proofs.Card.Memory

/-!
# Previews keep the laser off

The list or the file of a preview sets the powers to 0 before the first mark and never to anything
else, on either device and whatever the device was given before.
-/

namespace GalvoWeld

open Wobble (Setup)

/-! ### On a scanner card -/

namespace Card

/-- No call sets a power but 0, and both are set before the first mark. -/
structure DarkList (list : List Call) : Prop where
  powers : ∀ channel value, .setLaserPower channel value ∈ list → value = 0
  leads : ∀ front x y back, list = front ++ .markAbs x y :: back →
    .setLaserPower coreChannel 0 ∈ front ∧ .setLaserPower ringChannel 0 ∈ front

/-- What the card was given before does not matter, since the contour sets it up. -/
theorem lowered_preview (calibration : Float) (memo : Memo) (start : Point) (marks : Contour) :
    ∃ x y rest,
      lowered calibration memo (.setUp :: .jump start :: .power 0 :: .ringPower 0 :: marks) =
        .jumpAbs x y :: .setLaserPower coreChannel 0 :: .setLaserPower ringChannel 0 :: rest := by
  simp only [lowered, Memo.lower, analogValue_zero, reduceCtorEq, if_false, Option.toList_none,
    Option.toList_some, List.nil_append, List.singleton_append]
  exact ⟨_, _, _, rfl⟩

theorem darkList_of_preview {s : Seam} {contour : Contour} (setup : Setup) (memo : Memo)
    (hmode : s.data.mode = .preview) (hcontour : s.contour = .ok contour) :
    DarkList (listCalls s setup (lowered s.config.calibrationFactor memo contour)) := by
  refine ⟨fun channel value hm => zero_of_preview hmode hcontour hm, ?_⟩
  intro front x y back hsplit
  obtain ⟨figure, -, hpoints⟩ := Seam.contour_ok hcontour
  rw [hmode, decide_eq_true rfl] at hpoints
  obtain ⟨start, marks, rfl⟩ := preview_commands hpoints
  obtain ⟨xs, ys, rest, hlowered⟩ :=
    lowered_preview s.config.calibrationFactor memo start marks
  let opening : List Call :=
    .setJumpSpeed (speedBits s.data.jumpSpeed s.config.calibrationFactor) ::
      (wobbleCalls s setup ++
        [.jumpAbs xs ys, .setLaserPower coreChannel 0, .setLaserPower ringChannel 0])
  have hlist : listCalls s setup (lowered s.config.calibrationFactor memo
      (.setUp :: .jump start :: .power 0 :: .ringPower 0 :: marks)) =
        opening ++ (rest ++ if setup = .off then [] else [wobbleOff]) := by
    simp [listCalls, hlowered, opening]
  have hnot : .markAbs x y ∉ opening := by
    intro hm
    rcases List.mem_cons.1 hm with hspeed | hm
    · cases hspeed
    rcases List.mem_append.1 hm with hwobble | hpower
    · cases setsWobble_wobbleCalls s setup _ hwobble
    · simp at hpower
  have hahead := prefix_of_not_mem hnot (hlist.symm.trans hsplit)
  exact ⟨hahead.subset (by simp [opening]), hahead.subset (by simp [opening])⟩

end Card

/-! ### On a controller -/

namespace Link

def Exchange.isLine : Exchange → Bool
  | .line .. => true
  | .file .. => false

theorem Session.exchangeAll_history (texts : List String) (s : Session) :
    ∃ lines : List Exchange, (s.exchangeAll texts).2.history = s.history ++ lines ∧
      ∀ e ∈ lines, e.isLine = true := by
  induction texts generalizing s with
  | nil => exact ⟨[], (List.append_nil _).symm, nofun⟩
  | cons text rest ih =>
    have hone : ∃ outcome : Except Fault String,
        (s.exchange text).2.history = s.history ++ [.line text outcome] := by
      unfold exchange request
      split <;> next heq => (obtain rfl := (Prod.mk.inj heq).2; exact ⟨_, rfl⟩)
    obtain ⟨outcome, hone⟩ := hone
    unfold exchangeAll
    cases he : s.exchange text with
    | mk result t =>
      rw [he] at hone
      cases result with
      | error fault => exact ⟨_, hone, by simp [Exchange.isLine]⟩
      | ok =>
        obtain ⟨lines, hlines, hall⟩ := ih t
        refine ⟨.line text outcome :: lines, ?_, ?_⟩
        · rw [hlines, hone, List.append_assoc, List.singleton_append]
        · intro e hm
          rcases List.mem_cons.1 hm with rfl | hm
          · rfl
          · exact hall e hm

end Link

namespace NetworkDevice

theorem text_of_put {stage stage' : PlotStage} {contour : Contour} {disk disk' : Disk}
    (hp : stage.put contour disk = (.ok (), disk', stage')) :
    stage'.text = Plot.contourText contour := by
  unfold PlotStage.put at hp
  simp only at hp
  split at hp
  · simp only [Prod.mk.injEq, true_and] at hp
    rw [← hp.2]
  · split at hp
    · simp at hp
    · simp only [Prod.mk.injEq, true_and] at hp
      rw [← hp.2]

/-- A contour goes out as one file behind the lines of its settings, if they are taken. -/
theorem lower_history {s : Seam} {contour : Contour} {disk disk' : Disk} {d d' : NetworkDevice}
    {result : Except Fault Unit} (hl : lower s contour disk d = (result, disk', d')) :
    ∃ lines : List Link.Exchange, (∀ e ∈ lines, e.isLine = true) ∧
      ((result ≠ .ok () ∧ d'.session.history = d.session.history ++ lines) ∨
        d'.session.history = d.session.history ++
          (lines ++ [.file contourFileName (Plot.contourText contour) result])) := by
  have hwrite := d.session.exchangeAll_history
    (Setting.packedLines ((weldSettings s).map Setting.write))
  obtain ⟨lines, hlines, hall⟩ := hwrite
  refine ⟨lines, hall, ?_⟩
  have hsession : (d.write (weldSettings s)).2.session.history = d.session.history ++ lines :=
    hlines
  unfold lower at hl
  cases hw : d.write (weldSettings s) with
  | mk written e =>
    rw [hw] at hl hsession
    simp only at hsession
    cases written with
    | error fault =>
      simp only [Prod.mk.injEq] at hl
      obtain ⟨rfl, -, rfl⟩ := hl
      exact .inl ⟨nofun, hsession⟩
    | ok =>
      cases hp : e.stage.put contour disk with
      | mk staged rest =>
        simp only [hp] at hl
        cases staged with
        | error fault =>
          simp only [Prod.mk.injEq] at hl
          obtain ⟨rfl, -, rfl⟩ := hl
          exact .inl ⟨nofun, hsession⟩
        | ok =>
          simp only [Prod.mk.injEq] at hl
          obtain ⟨rfl, -, rfl⟩ := hl
          refine .inr ?_
          simp only [Link.Session.sendFile, hsession, text_of_put hp, List.append_assoc]

end NetworkDevice

/-! ### On either -/

/-- A preview that is built keeps the laser off, whatever was done before. On a scanner card no
power but 0 is set in the list, and both are set before the first mark. A controller is sent at most
one file, and one if the preview succeeds; every line that sets the power in it reads `PW0.000;`,
and one stands before the first mark. -/
theorem preview_keeps_laser_off (data : SeamData) (figure : Figure) :
    (∀ w w' : Welder CardDevice, w.buildPreviewList data figure = (.ok (), w') →
      ∃ list : List Card.Call, w'.device.card.calls =
        w.device.card.calls ++ .loadList Card.listNumber 0 :: (list ++ [.setEndOfList]) ∧
      Card.DarkList list) ∧
    ∀ (w w' : Welder NetworkDevice) (result : Except Fault Unit),
      w.buildPreviewList data figure = (result, w') → ∃ sent : List Link.Exchange,
        w'.device.session.history = w.device.session.history ++ sent ∧
        (∀ name text outcome, .file name text outcome ∈ sent → Plot.Dark text) ∧
        (result = .ok () → ∃ text, .file contourFileName text (.ok ()) ∈ sent) := by
  constructor
  · intro w w' hok
    obtain ⟨s, contour, setup, halike, hcontour, hlower⟩ :=
      (Welder.builds_buildPreviewList w data figure).hands hok
    obtain ⟨-, -, hcalls⟩ := CardDevice.lower_ok hlower
    have hmode : s.data.mode = .preview := by rw [halike.data]; rfl
    exact ⟨_, hcalls, Card.darkList_of_preview setup w.device.memo hmode hcontour⟩
  · intro w w' result hb
    have hbuilds := Welder.builds_buildPreviewList w data figure
    rw [hb] at hbuilds
    rcases hbuilds.split with ⟨fault, rfl, hdevice⟩ | ⟨s, contour, setup, halike, hcontour, hlower⟩
    · exact ⟨[], by rw [hdevice, List.append_nil], nofun, nofun⟩
    · have hmode : s.data.mode = .preview := by rw [halike.data]; rfl
      obtain ⟨weld, -, hpoints⟩ := Seam.contour_ok hcontour
      rw [hmode, decide_eq_true rfl] at hpoints
      obtain ⟨lines, hall, ⟨hfault, hhistory⟩ | hhistory⟩ := NetworkDevice.lower_history hlower
      · refine ⟨lines, hhistory, fun name text outcome hm => ?_, fun hok => absurd hok hfault⟩
        cases hall _ hm
      · refine ⟨_, hhistory, fun name text outcome hm => ?_, fun hok => ?_⟩
        · rcases List.mem_append.1 hm with hline | hfile
          · cases hall _ hline
          · cases List.mem_singleton.1 hfile
            exact Plot.dark_contourText hpoints
        · rw [hok]
          exact ⟨_, List.mem_append_right lines (List.mem_singleton_self _)⟩

/-- A weld figure that is not dark. -/
def benchBright : Figure :=
  Figure.ofPoints [⟨⟨0, 0⟩, 0.5, 0.5, 100⟩, ⟨⟨1, 0⟩, -1, -2, -2⟩]

def benchCard : Welder CardDevice := Welder.create {} CardDevice.fresh ⟨[], []⟩

def benchNetwork : Welder NetworkDevice :=
  Welder.create {} (NetworkDevice.fresh {} (Link.Peer.rehearsal [] none)) ⟨[], []⟩

theorem bench_preview_off :
    (∃ list : List Card.Call, (benchCard.buildPreviewList {} benchBright).2.device.card.calls =
      .loadList Card.listNumber 0 :: (list ++ [.setEndOfList]) ∧ Card.DarkList list) ∧
    ∃ text, .file contourFileName text (.ok ()) ∈
      (benchNetwork.buildPreviewList {} benchBright).2.device.session.history ∧
      Plot.Dark text := by
  have hcard : (benchCard.buildPreviewList {} benchBright).1 = .ok () := by decide +kernel
  have hnetwork : (benchNetwork.buildPreviewList {} benchBright).1 = .ok () := by decide +kernel
  have hsplit : ∀ {δ : Type} {r : Except Fault Unit × Welder δ}, r.1 = .ok () →
      r = (.ok (), r.2) := fun hok => Prod.ext hok rfl
  have hoff := preview_keeps_laser_off {} benchBright
  constructor
  · exact hoff.1 benchCard _ (hsplit hcard)
  · obtain ⟨sent, hhistory, hdark, hfile⟩ := hoff.2 benchNetwork _ _ (hsplit hnetwork)
    obtain ⟨text, hm⟩ := hfile rfl
    rw [hhistory]
    exact ⟨text, List.mem_append_right _ hm, hdark _ _ _ hm⟩

end GalvoWeld
