import GalvoWeld.Proofs.Device.FreshList
import GalvoWeld.Proofs.Device.Preview
import GalvoWeld.Proofs.Device.Sights

/-!
# A welder whose seam was reset

After a reset of the seam nothing of what was asked before can be seen. On a scanner card only
whether the card executes is left, on a controller only what its answers depend on by themselves.
-/

namespace GalvoWeld

open Welder (Kept Respected)

/-! ### On a scanner card -/

namespace CardDevice

open Card

/-- A card may begin or end executing by itself. -/
instance : Recorded CardDevice Call Bool where
  record := fun d => d.card.calls
  change := fun executing d => { d with card := { d.card with executing } }

/-- What the cards were given last does not matter. -/
structure Twin (past past' : List Call) (d d' : CardDevice) : Prop where
  apart : Apart past past' d d'
  executing : d'.card.executing = d.card.executing

theorem Twin.tell {past past' : List Call} {d d' e e' : CardDevice} (h : Twin past past' d d')
    (calls : List Call) (he : e.card.calls = d.card.calls ++ calls)
    (he' : e'.card.calls = d'.card.calls ++ calls)
    (hexecuting : e'.card.executing = e.card.executing) : Twin past past' e e' := by
  obtain ⟨new, hd, hd'⟩ := h.apart
  change d.card.calls = past ++ new at hd
  change d'.card.calls = past' ++ new at hd'
  refine ⟨⟨new ++ calls, ?_, ?_⟩, hexecuting⟩
  · change e.card.calls = _
    rw [he, hd, List.append_assoc]
  · change e'.card.calls = _
    rw [he', hd', List.append_assoc]

/-- The contour of a seam sets the card up, so that both cards get the same list. -/
theorem Twin.lower {past past' : List Call} {d d' : CardDevice} {s : Seam} {contour : Contour}
    (h : Twin past past' d d') (hc : s.contour = .ok contour) (setup : Wobble.Setup) :
    (lower s contour setup d').1 = (lower s contour setup d).1 ∧
      Twin past past' (lower s contour setup d).2 (lower s contour setup d').2 := by
  have hcalls := lowered_of_contour hc s.config.calibrationFactor d.memo d'.memo
  have hexecuting := h.executing
  unfold CardDevice.lower
  by_cases hfull : entriesAvailable s.config < entriesNeeded (s.weldFigure.elim 0 Figure.size)
  · simp only [if_pos hfull, true_and]
    exact h
  · simp only [if_neg hfull]
    cases hbusy : d.card.executing with
    | true =>
      rw [hbusy] at hexecuting
      simp only [loadList, hbusy, hexecuting, Bool.not_true, true_and]
      exact h.tell [.loadList listNumber 0] rfl rfl h.executing
    | false =>
      rw [hbusy] at hexecuting
      simp only [loadList, hbusy, hexecuting, Bool.not_false, true_and]
      refine h.tell (.loadList listNumber 0 :: (listCalls s setup
        (lowered s.config.calibrationFactor d.memo contour) ++ [.setEndOfList])) ?_ ?_ h.executing
      · simp [lowerContour_calls]
      · simp [lowerContour_calls, hcalls]

theorem respected_twin (past past' : List Call) : Respected (Twin past past') where
  lower := fun setup disk d d' hc h => by
    simp only [Device.lower, true_and]
    exact h.lower hc setup
  move := fun config place d d' h => ⟨rfl, h.tell _ rfl rfl h.executing⟩
  start := fun h => ⟨rfl, h.tell _ rfl rfl rfl⟩
  abort := fun {d d'} h => by
    have hstopped :
        Twin past past' ⟨d.card.stopExecution, d.memo⟩ ⟨d'.card.stopExecution, d'.memo⟩ :=
      h.tell [.stopExecution] rfl rfl rfl
    exact ⟨rfl, hstopped.tell [.resetError allErrors] rfl rfl rfl⟩
  change := fun executing d d' h => ⟨h.apart, rfl⟩

/-- A card that was told nothing, and executes or not. -/
def untold (executing : Bool) : CardDevice := ⟨⟨[], executing⟩, {}⟩

theorem twin_untold (d : CardDevice) : Twin d.card.calls [] d (untold d.card.executing) :=
  ⟨⟨[], (List.append_nil _).symm, rfl⟩, rfl⟩

/-- A card forgets nothing of what it was told. -/
theorem kept_record (past : List Call) : Kept fun d : CardDevice => past <+: d.card.calls where
  lower := fun s contour setup disk d hd => by
    simp only [Device.lower]
    unfold CardDevice.lower
    by_cases hfull : entriesAvailable s.config < entriesNeeded (s.weldFigure.elim 0 Figure.size)
    · simp only [if_pos hfull]
      exact hd
    · simp only [if_neg hfull]
      cases hbusy : d.card.executing with
      | true =>
        simp only [loadList, hbusy, Bool.not_true]
        exact hd.trans (List.prefix_append ..)
      | false =>
        simp only [loadList, hbusy, Bool.not_false]
        exact hd.trans ((List.prefix_append ..).trans (List.prefix_append ..))
  move := fun config place d hd => hd.trans (List.prefix_append ..)
  start := fun hd => hd.trans (List.prefix_append ..)
  abort := fun hd => hd.trans ((List.prefix_append ..).trans (List.prefix_append ..))
  change := fun executing d hd => hd

/-- What an event shows as told is all that it adds to the record. -/
theorem told_occur (w : Welder CardDevice) (e : Event Bool) :
    w.device.card.calls ++ (w.occur e).2.device.card.calls.drop w.device.card.calls.length =
      (w.occur e).2.device.card.calls :=
  List.prefix_iff_eq_append.1 ((kept_record w.device.card.calls).occur List.prefix_rfl e)

end CardDevice

/-! ### On a controller -/

namespace Link

/-- The controller as it behaves after these exchanges, for one who does not know of them. -/
def Peer.after (peer : Peer) (past : List Exchange) : Peer where
  answer := fun history => peer.answer (past ++ history)
  accept := fun history => peer.accept (past ++ history)

/-- The controllers answer alike after these two histories, and have heard the same since. -/
structure Session.Twin (past past' : List Exchange) (s s' : Session) : Prop where
  heard : ∃ new, s.history = past ++ new ∧ s'.history = past' ++ new
  answer : ∀ history, s'.peer.answer (past' ++ history) = s.peer.answer (past ++ history)
  accept : ∀ history, s'.peer.accept (past' ++ history) = s.peer.accept (past ++ history)

namespace Session.Twin

variable {past past' : List Exchange} {s s' : Session}

theorem hear (h : Twin past past' s s') (e : Exchange) :
    Twin past past' { s with history := s.history ++ [e] }
      { s' with history := s'.history ++ [e] } := by
  obtain ⟨new, hs, hs'⟩ := h.heard
  refine ⟨⟨new ++ [e], ?_, ?_⟩, h.answer, h.accept⟩
  · rw [hs, List.append_assoc]
  · rw [hs', List.append_assoc]

theorem answer_eq (h : Twin past past' s s') (line : String) :
    s'.peer.answer s'.history line = s.peer.answer s.history line := by
  obtain ⟨new, hs, hs'⟩ := h.heard
  rw [hs, hs', h.answer]

theorem accept_eq (h : Twin past past' s s') (name text : String) :
    s'.peer.accept s'.history name text = s.peer.accept s.history name text := by
  obtain ⟨new, hs, hs'⟩ := h.heard
  rw [hs, hs', h.accept]

theorem exchange (h : Twin past past' s s') (line : String) :
    (s'.exchange line).1 = (s.exchange line).1 ∧
      Twin past past' (s.exchange line).2 (s'.exchange line).2 := by
  have hanswer := h.answer_eq line
  have hheard := h.hear (.line line (s.peer.answer s.history line))
  simp only [Session.exchange, Session.request, hanswer]
  cases ha : s.peer.answer s.history line with
  | error fault =>
    rw [ha] at hheard
    exact ⟨rfl, hheard⟩
  | ok reply =>
    rw [ha] at hheard
    exact ⟨rfl, hheard⟩

theorem exchangeAll (texts : List String) {s s' : Session} (h : Twin past past' s s') :
    (s'.exchangeAll texts).1 = (s.exchangeAll texts).1 ∧
      Twin past past' (s.exchangeAll texts).2 (s'.exchangeAll texts).2 := by
  induction texts generalizing s s' with
  | nil => exact ⟨rfl, h⟩
  | cons text rest ih =>
    obtain ⟨hresult, hnext⟩ := h.exchange text
    simp only [Session.exchangeAll]
    cases he : s.exchange text with
    | mk result t =>
      cases he' : s'.exchange text with
      | mk result' t' =>
        rw [he, he'] at hresult hnext
        simp only at hresult hnext
        subst hresult
        cases result' with
        | error fault => exact ⟨rfl, hnext⟩
        | ok => exact ih hnext

theorem sendFile (h : Twin past past' s s') (name text : String) :
    (s'.sendFile name text).1 = (s.sendFile name text).1 ∧
      Twin past past' (s.sendFile name text).2 (s'.sendFile name text).2 := by
  have haccept := h.accept_eq name text
  simp only [Session.sendFile, haccept, true_and]
  exact h.hear _

end Session.Twin

end Link

namespace NetworkDevice

open Link (Exchange Peer Session)

/-- A controller does nothing by itself but answer. -/
instance : Recorded NetworkDevice Exchange Empty where
  record := fun d => d.session.history
  change := nofun

/-- What is left of the text of an earlier contour does not matter. -/
structure Twin (past past' : List Exchange) (d d' : NetworkDevice) : Prop where
  session : Session.Twin past past' d.session d'.session
  file : d'.stage.file = d.stage.file

variable {past past' : List Exchange} {d d' : NetworkDevice}

theorem Twin.write (h : Twin past past' d d') (settings : List Setting) :
    (d'.write settings).1 = (d.write settings).1 ∧
      Twin past past' (d.write settings).2 (d'.write settings).2 := by
  obtain ⟨hresult, hsession⟩ := h.session.exchangeAll
    (Setting.packedLines (settings.map Setting.write))
  exact ⟨hresult, hsession, h.file⟩

/-- Whether a contour can be staged does not depend on the text that was staged before, and if it
can nothing is left of that text. -/
theorem put_cases {stage stage' : PlotStage} (hfile : stage'.file = stage.file)
    (contour : Contour) (disk : Disk) :
    (∃ fault, stage.put contour disk = (.error fault, disk, stage) ∧
      stage'.put contour disk = (.error fault, disk, stage')) ∨
    ∃ disk' staged, staged.file = stage.file ∧ stage.put contour disk = (.ok (), disk', staged) ∧
      stage'.put contour disk = (.ok (), disk', staged) := by
  unfold PlotStage.put
  rw [hfile]
  cases hpath : stage.file with
  | none => exact .inr ⟨disk, _, rfl, rfl, rfl⟩
  | some path =>
    simp only
    cases disk.write path (Plot.contourText contour) with
    | error cause => exact .inl ⟨_, rfl, rfl⟩
    | ok disk' => exact .inr ⟨disk', _, rfl, rfl, rfl⟩

theorem Twin.lower (h : Twin past past' d d') (s : Seam) (contour : Contour) (disk : Disk) :
    (lower s contour disk d').1 = (lower s contour disk d).1 ∧
      (lower s contour disk d').2.1 = (lower s contour disk d).2.1 ∧
      Twin past past' (lower s contour disk d).2.2 (lower s contour disk d').2.2 := by
  obtain ⟨hwritten, hwrite⟩ := h.write (weldSettings s)
  unfold NetworkDevice.lower
  cases hw : d.write (weldSettings s) with
  | mk written e =>
    cases hw' : d'.write (weldSettings s) with
    | mk written' e' =>
      rw [hw, hw'] at hwritten hwrite
      simp only at hwritten hwrite
      subst hwritten
      cases written' with
      | error fault => exact ⟨rfl, rfl, hwrite⟩
      | ok =>
        rcases put_cases hwrite.file contour disk with ⟨fault, hput, hput'⟩ |
          ⟨disk', staged, -, hput, hput'⟩
        · simp only [hput, hput', true_and]
          exact hwrite
        · obtain ⟨hsent, hsession⟩ := hwrite.session.sendFile contourFileName staged.text
          simp only [hput, hput', hsent, true_and]
          exact ⟨hsession, rfl⟩

theorem respected_twin (past past' : List Exchange) : Respected (Twin past past') where
  lower := fun {s contour} _ disk _ _ _ h => by
    simp only [Device.lower]
    exact h.lower s contour disk
  move := fun _ _ _ _ h => h.write _
  start := fun h => h.write _
  abort := fun h => h.write _
  change := nofun

/-! ### What a controller keeps -/

/-- The controller stays the one it is, and its file too; what went over the link is kept. -/
structure Same (d₀ d : NetworkDevice) : Prop where
  peer : d.session.peer = d₀.session.peer
  file : d.stage.file = d₀.stage.file
  history : d₀.session.history <+: d.session.history

theorem peer_exchangeAll (texts : List String) (s : Session) :
    (s.exchangeAll texts).2.peer = s.peer := by
  induction texts generalizing s with
  | nil => rfl
  | cons text rest ih =>
    have hone : (s.exchange text).2.peer = s.peer := by
      simp only [Session.exchange, Session.request]
      split <;> next heq => (obtain rfl := (Prod.mk.inj heq).2; rfl)
    simp only [Session.exchangeAll]
    cases he : s.exchange text with
    | mk result t =>
      rw [he] at hone
      cases result with
      | error fault => exact hone
      | ok => exact (ih t).trans hone

theorem Same.write {d₀ d : NetworkDevice} (h : Same d₀ d) (settings : List Setting) :
    Same d₀ (d.write settings).2 := by
  have hpeer := peer_exchangeAll (Setting.packedLines (settings.map Setting.write)) d.session
  obtain ⟨lines, hlines, -⟩ :=
    d.session.exchangeAll_history (Setting.packedLines (settings.map Setting.write))
  refine ⟨hpeer.trans h.peer, h.file, h.history.trans ⟨lines, hlines.symm⟩⟩

theorem Same.lower {d₀ d : NetworkDevice} (h : Same d₀ d) (s : Seam) (contour : Contour)
    (disk : Disk) : Same d₀ (lower s contour disk d).2.2 := by
  have hwrite := h.write (weldSettings s)
  unfold NetworkDevice.lower
  cases hw : d.write (weldSettings s) with
  | mk written e =>
    rw [hw] at hwrite
    cases written with
    | error fault => exact hwrite
    | ok =>
      have hsame : e.stage.file = e.stage.file := rfl
      rcases put_cases hsame contour disk with ⟨fault, hput, -⟩ |
        ⟨disk', staged, hfile, hput, -⟩
      · simp only [hput]
        exact hwrite
      · simp only [hput]
        exact ⟨hwrite.peer, hfile.trans hwrite.file, hwrite.history.trans (List.prefix_append ..)⟩

theorem kept_same (d₀ : NetworkDevice) : Kept (Same d₀) where
  lower := fun s contour _ disk _ hd => by
    simp only [Device.lower]
    exact hd.lower s contour disk
  move := fun _ _ _ hd => hd.write _
  start := fun hd => hd.write _
  abort := fun hd => hd.write _
  change := nofun

theorem told_occur (w : Welder NetworkDevice) (e : Event Empty) :
    w.device.session.history ++
        (w.occur e).2.device.session.history.drop w.device.session.history.length =
      (w.occur e).2.device.session.history :=
  List.prefix_iff_eq_append.1
    ((kept_same w.device).occur (w := w) ⟨rfl, rfl, List.prefix_rfl⟩ e).history

/-- A new device at a controller that goes on from there cannot be told apart. -/
theorem twin_fresh {config : Config} {peer : Peer} {d : NetworkDevice}
    (hd : Same (fresh config peer) d) :
    Twin d.session.history [] d (fresh config (peer.after d.session.history)) := by
  refine ⟨⟨⟨[], (List.append_nil _).symm, rfl⟩, fun history => ?_, fun history => ?_⟩, hd.file.symm⟩
  · rw [hd.peer]
    rfl
  · rw [hd.peer]
    rfl

end NetworkDevice

/-! ### On either -/

/-- Whatever was asked of a welder before, failed or not, once its seam is reset it shows the same
as a new welder with the same configuration and files: on a card that executes or not as this one
does, at a controller that answers as this one does from now on. Only a contour that does not come
from the seam could tell them apart. -/
theorem reset_starts_afresh (config : Config) :
    (∀ (disk : Disk) (history continuation : List (Event Bool)),
      (∀ op, .request op ∈ continuation → op.direct = false) →
      let w := ((Welder.create config CardDevice.fresh disk).afterEvents history).resetSeam
      w.sights continuation =
        (Welder.create config (CardDevice.untold w.device.card.executing) w.disk).sights
          continuation) ∧
    ∀ (peer : Link.Peer) (disk : Disk) (history continuation : List (Event Empty)),
      (∀ op, .request op ∈ continuation → op.direct = false) →
      let w := ((Welder.create config (NetworkDevice.fresh config peer) disk).afterEvents
        history).resetSeam
      w.sights continuation =
        (Welder.create config (NetworkDevice.fresh config (peer.after w.device.session.history))
          w.disk).sights continuation := by
  constructor
  · intro disk history continuation hop w
    have hconfig : w.seam = { config } := by
      have hkept := (Welder.create config CardDevice.fresh disk).config_afterEvents history
      exact congrArg (fun c : Config => ({ config := c } : Seam)) hkept
    have htwins : Welder.Twins (CardDevice.Twin w.device.card.calls []) w
        (Welder.create config (CardDevice.untold w.device.card.executing) w.disk) :=
      ⟨hconfig.symm, rfl, CardDevice.twin_untold w.device⟩
    exact (Welder.sights_of_twins (CardDevice.respected_twin _ _) (fun _ _ h => h.apart) htwins
      hop).symm
  · intro peer disk history continuation hop w
    have hconfig : w.seam = { config } := by
      have hkept := (Welder.create config (NetworkDevice.fresh config peer) disk).config_afterEvents
        history
      exact congrArg (fun c : Config => ({ config := c } : Seam)) hkept
    have hsame : NetworkDevice.Same (NetworkDevice.fresh config peer) w.device :=
      (NetworkDevice.kept_same _).afterEvents (w := Welder.create config _ disk)
        ⟨rfl, rfl, List.prefix_rfl⟩ history
    have htwins : Welder.Twins (NetworkDevice.Twin w.device.session.history []) w
        (Welder.create config (NetworkDevice.fresh config (peer.after w.device.session.history))
          w.disk) :=
      ⟨hconfig.symm, rfl, NetworkDevice.twin_fresh hsame⟩
    exact (Welder.sights_of_twins (NetworkDevice.respected_twin _ _) (fun _ _ h => h.session.heard)
      htwins hop).symm

/-- A seam is built and started, and a contour that sets nothing up is handed over. -/
def benchBefore {ε : Type} : List (Event ε) :=
  [.request (.prepare {} benchBright), .request .buildWeldingList, .request .startMark,
    .request (.buildList [.power 70] .off)]

/-- A list that finds a card still executing, and one after a stop. -/
def benchSince {ε : Type} : List (Event ε) :=
  [.request (.buildPreviewList {} benchBright), .request .stopMark,
    .request (.buildPreviewList {} benchBright), .request .startMark]

theorem indirect_benchSince {ε : Type} (op : Operation)
    (hm : .request op ∈ (benchSince : List (Event ε))) : op.direct = false := by
  simp only [benchSince, List.mem_cons, Event.request.injEq, List.not_mem_nil, or_false] at hm
  rcases hm with rfl | rfl | rfl | rfl <;> rfl

def benchResetCard : Welder CardDevice := (benchCard.afterEvents benchBefore).resetSeam

def benchResetNetwork : Welder NetworkDevice := (benchNetwork.afterEvents benchBefore).resetSeam

theorem bench_starts_afresh :
    benchResetCard.sights benchSince =
        (Welder.create {} (CardDevice.untold benchResetCard.device.card.executing)
          benchResetCard.disk).sights benchSince ∧
      benchResetNetwork.sights benchSince =
        (Welder.create {} (NetworkDevice.fresh {}
          ((Link.Peer.rehearsal [] none).after benchResetNetwork.device.session.history))
          benchResetNetwork.disk).sights benchSince ∧
      (benchResetCard.sights benchSince).map (·.stage) =
        [.prepared, .prepared, .built, .dispatched] := by
  obtain ⟨hcard, hnetwork⟩ := reset_starts_afresh {}
  refine ⟨?_, ?_, by decide +kernel⟩
  · unfold benchResetCard benchCard
    exact hcard _ benchBefore benchSince indirect_benchSince
  · unfold benchResetNetwork benchNetwork
    exact hnetwork _ _ benchBefore benchSince indirect_benchSince

end GalvoWeld
