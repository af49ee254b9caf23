import GalvoWeld.Proofs.Card.Vectors
import GalvoWeld.Proofs.Device.ResetSeam
import GalvoWeld.Proofs.Seam.Decisions

/-!
# What a card is told

Every operation asks a device for one thing at most. What a card is told over its whole life is
therefore a sequence of passages: lists that are opened, written and ended without anything in
between, lists that it refuses to open because it executes, and single commands. No list is left
open, and none leaves wobbling switched on.
-/

namespace GalvoWeld

open Wobble (Setup)

/-! ### One thing at a time -/

/-- The list of the seam is built, and may have been started. -/
def Seam.Listed (s : Seam) : Prop := s.stage = .built ∨ s.stage = .dispatched

def ListStage.hasList : ListStage → Bool
  | .built | .dispatched => true
  | _ => false

section
variable {δ : Type} [Device δ]

/-- What may be asked of a device that does not take over a list by it. -/
inductive Aside (d : δ) : δ → Prop where
  | nothing : Aside d d
  | refused {s contour setup disk disk' d'} {fault : Fault}
      (hl : Device.lower s contour setup disk d = (.error fault, disk', d')) : Aside d d'
  | move (config : Config) (place : Point) : Aside d (Device.move config place d).2
  | start : Aside d (Device.start d).2
  | abort : Aside d (Device.abort d).2

namespace Welder

/-- What an operation comes to: the device takes over a list, which is then that of the seam unless
the contour was handed over directly; or it does not, and then no list is built by it. -/
inductive Comes (w : Welder δ) (direct : Bool) (v : Welder δ) : Prop where
  | takes {t : Seam} {contour : Contour} {setup : Setup}
      (hl : Device.lower t contour setup w.disk w.device = (.ok (), v.disk, v.device))
      (hs : direct = false → t.contour = .ok contour ∧ v.seam = { t with stage := .built })
  | aside (hd : Aside w.device v.device)
      (hs : v.seam.Listed → w.seam.Listed ∧ v.seam.Alike w.seam)

theorem not_listed {s : Seam} (hs : s.stage.hasList = false) : ¬ s.Listed := by
  rintro (hb | hd)
  · rw [hb] at hs
    cases hs
  · rw [hd] at hs
    cases hs

theorem comes_of_compile (w : Welder δ) {t : Seam} (ht : t.stage.hasList = false) (setup : Setup)
    (direct : Bool) : Comes w direct (compile { w with seam := t } setup).2 := by
  have hnone := not_listed ht
  cases hc : compile { w with seam := t } setup with
  | mk result v =>
    rcases compile_cases hc with ⟨fault, -, rfl⟩ | ⟨contour, hcontour, hlower, hseam⟩
    · exact .aside .nothing fun hlisted => absurd hlisted hnone
    · cases result with
      | ok => exact .takes hlower fun _ => ⟨hcontour, hseam⟩
      | error fault =>
        have hkept : v.seam = t := hseam
        exact .aside (.refused hlower) fun hlisted => absurd (hkept ▸ hlisted) hnone

theorem comes_perform (w : Welder δ) (op : Operation) : Comes w op.direct (w.perform op).2 := by
  -- many operations keep the stage, and nothing that the list was built from
  have hsame : ∀ {v : Welder δ}, Aside w.device v.device → v.seam.stage = w.seam.stage →
      v.seam.Alike w.seam → Comes w op.direct v :=
    fun hd hstage halike => .aside hd fun hlisted => ⟨by
      unfold Seam.Listed at hlisted ⊢
      rwa [← hstage], halike⟩
  cases op with
  | prepare data figure =>
    simp only [perform, prepare]
    split
    · exact hsame .nothing rfl ⟨rfl, rfl, rfl⟩
    · exact .aside .nothing fun hlisted => absurd hlisted (not_listed rfl)
  | prepareSeam data figure =>
    exact .aside .nothing fun hlisted => absurd hlisted (not_listed rfl)
  | attachWobble figure => exact hsame .nothing rfl ⟨rfl, rfl, rfl⟩
  | loadWobble path =>
    have hloads := w.seam.loads w.disk path
    simp only [perform, loadWobble]
    generalize w.seam.loadWobble w.disk path = outcome at hloads
    cases hloads with
    | unread => exact hsame .nothing rfl ⟨rfl, rfl, rfl⟩
    | attached => exact hsame .nothing rfl ⟨rfl, rfl, rfl⟩
    | @rejected figure _ t _ _ hdecision =>
      have hkept := (w.seam.attachWobble (some figure)).resolveWobble_eq
      have halike := (w.seam.attachWobble (some figure)).alike_resolveWobble
      -- a decision that fails leaves the stage, and what the contour is made of
      rw [hdecision] at hkept halike
      simp only at hkept
      have hstage : t.stage = w.seam.stage := by rw [hkept]; rfl
      exact hsame .nothing hstage ⟨halike.config, halike.data, halike.weldFigure⟩
    | defined =>
      exact .aside .nothing fun hlisted => absurd hlisted (not_listed rfl)
  | defineWobble mode =>
    simp only [perform, onSeam]
    rw [w.seam.defineWobble_eq mode]
    exact hsame .nothing rfl ⟨rfl, rfl, rfl⟩
  | resolveWobble =>
    simp only [perform, onSeam]
    rw [w.seam.resolveWobble_eq]
    exact hsame .nothing rfl ⟨rfl, rfl, rfl⟩
  | planWobble figure dual => exact hsame .nothing rfl ⟨rfl, rfl, rfl⟩
  | defineVectors figure modulation => exact hsame .nothing rfl ⟨rfl, rfl, rfl⟩
  | buildList contour setup =>
    simp only [perform, buildList]
    cases hl : Device.lower w.seam contour setup w.disk w.device with
    | mk result rest =>
      cases result with
      | ok => exact .takes hl fun hdirect => Bool.noConfusion hdirect
      | error fault => exact hsame (.refused hl) rfl ⟨rfl, rfl, rfl⟩
  | buildWeldingList =>
    have hkept := w.seam.resolveWobble_eq
    simp only [perform, buildWeldingList]
    cases hstage : w.seam.stage with
    | prepared =>
      cases hr : w.seam.resolveWobble with
      | mk result t =>
        rw [hr] at hkept
        have ht : t.stage.hasList = false := by
          rw [congrArg Seam.stage hkept]
          exact congrArg ListStage.hasList hstage
        cases result with
        | error fault =>
          exact .aside .nothing fun hlisted => absurd hlisted (not_listed ht)
        | ok setup => exact comes_of_compile w ht setup _
    | wobbleDefined => exact comes_of_compile w (congrArg ListStage.hasList hstage) w.seam.wobble _
    | _ => exact hsame .nothing rfl ⟨rfl, rfl, rfl⟩
  | buildPreviewList data figure =>
    have hkept := (w.seam.prepare { data with mode := .preview } figure).resolveWobble_eq
    simp only [perform, buildPreviewList]
    cases hr : (w.seam.prepare { data with mode := .preview } figure).resolveWobble with
    | mk result t =>
      rw [hr] at hkept
      have ht : t.stage.hasList = false := congrArg (fun s => s.stage.hasList) hkept
      cases result with
      | error fault =>
        exact .aside .nothing fun hlisted => absurd hlisted (not_listed ht)
      | ok setup => exact comes_of_compile w ht setup _
  | resetSeam => exact .aside .nothing fun hlisted => absurd hlisted (not_listed rfl)
  | moveTo place => exact hsame (.move w.seam.config place) rfl ⟨rfl, rfl, rfl⟩
  | startMark =>
    have hstart := Aside.start (d := w.device)
    simp only [perform, startMark]
    cases hd : Device.start w.device with
    | mk result d =>
      rw [hd] at hstart
      cases result with
      | error fault => exact hsame hstart rfl ⟨rfl, rfl, rfl⟩
      | ok =>
        refine .aside hstart fun hlisted => ⟨?_, rfl, rfl, rfl⟩
        unfold Seam.Listed at hlisted ⊢
        by_cases hbuilt : w.seam.stage = .built
        · exact .inl hbuilt
        · simpa only [if_neg hbuilt] using hlisted
  | stopMark => exact hsame .abort rfl ⟨rfl, rfl, rfl⟩

end Welder

end

/-! ### Complete lists -/

namespace Card

def Call.isMode : Call → Bool
  | .setWobbelMode .. => true
  | _ => false

/-- The calls of a list from its opening to its end, in their order. Wobbling is off at the end, and
the powers are those of the two channels. -/
structure CompleteList (calls : List Call) : Prop where
  shape : ∃ (speed : Float) (vectors : List Call) (mode : Call) (drawing ending : List Call),
    calls = .loadList listNumber 0 :: .setJumpSpeed speed ::
      (vectors ++ mode :: (drawing ++ (ending ++ [.setEndOfList]))) ∧
    (∀ call ∈ vectors, call.isVector = true) ∧ mode.isMode = true ∧
    (∀ call ∈ drawing, call.isQuiet = false) ∧
    (∀ call ∈ ending, call.isMode = true) ∧ ending.length ≤ 1
  off : (calls.filter Call.isMode).getLast? = some wobbleOff
  powers : ∀ channel value, .setLaserPower channel value ∈ calls →
    value ≤ analogMax ∧ (channel = coreChannel ∨ channel = ringChannel)

theorem wobbleCalls_split (s : Seam) (setup : Setup) :
    ∃ vectors mode, wobbleCalls s setup = vectors ++ [mode] ∧
      (∀ call ∈ vectors, call.isVector = true) ∧ mode.isMode = true ∧
      (setup = .off → mode = wobbleOff) := by
  cases setup with
  | off => exact ⟨[], wobbleOff, rfl, nofun, rfl, fun _ => rfl⟩
  | basic shape => exact ⟨[], _, rfl, nofun, rfl, nofun⟩
  | free modulation =>
    refine ⟨vectorCalls s.config.calibrationFactor s.compensation, _, rfl, fun call hm => ?_, rfl,
      nofun⟩
    obtain ⟨i, hi, rfl⟩ := List.mem_iff_getElem.1 hm
    simp [vectorCalls, Call.isVector]

theorem mem_lowered {calibration : Float} {contour : Contour} {memo : Memo} {call : Call}
    (hm : call ∈ lowered calibration memo contour) :
    ∃ command ∈ contour, ∃ memo' : Memo, (memo'.lower calibration command).1 = some call := by
  induction contour generalizing memo with
  | nil => cases hm
  | cons command rest ih =>
    rcases List.mem_append.1 hm with hnow | hlater
    · exact ⟨command, List.mem_cons_self .., memo, Option.mem_toList.1 hnow⟩
    · obtain ⟨later, hin, memo', hcall⟩ := ih hlater
      exact ⟨later, List.mem_cons_of_mem _ hin, memo', hcall⟩

theorem power_of_lower {calibration : Float} {memo : Memo} {command : ContourCommand}
    {channel value : Nat}
    (hl : (memo.lower calibration command).1 = some (.setLaserPower channel value)) :
    value ≤ analogMax ∧ (channel = coreChannel ∨ channel = ringChannel) := by
  cases command with
  | power percent =>
    simp only [Memo.lower] at hl
    split at hl <;> cases hl
    exact ⟨analogValue_le percent, .inl rfl⟩
  | ringPower percent =>
    simp only [Memo.lower] at hl
    split at hl <;> cases hl
    exact ⟨analogValue_le percent, .inr rfl⟩
  | markSpeed speed =>
    simp only [Memo.lower] at hl
    split at hl <;> cases hl
  | setUp => cases hl
  | mark position => cases hl
  | jump position => cases hl

theorem not_isMode_of_isVector {call : Call} (hv : call.isVector = true) :
    ¬ call.isMode = true := by
  cases call <;> first | exact Bool.false_ne_true | cases hv

theorem not_isMode_of_loud {call : Call} (hloud : call.isQuiet = false) :
    ¬ call.isMode = true := by
  cases call <;> first | exact Bool.false_ne_true | cases hloud

/-- The modes of a list are the one that sets wobbling up and the one that ends it. -/
theorem filter_isMode {speed : Float} {vectors drawing ending : List Call} {mode : Call}
    (hvectors : ∀ call ∈ vectors, call.isVector = true) (hmode : mode.isMode = true)
    (hdrawing : ∀ call ∈ drawing, call.isQuiet = false)
    (hending : ∀ call ∈ ending, call.isMode = true) :
    (.loadList listNumber 0 :: .setJumpSpeed speed ::
      (vectors ++ mode :: (drawing ++ (ending ++ [.setEndOfList])))).filter Call.isMode =
        mode :: ending := by
  have hnone : vectors.filter Call.isMode = [] :=
    List.filter_eq_nil_iff.2 fun call hm => not_isMode_of_isVector (hvectors call hm)
  have hnone' : drawing.filter Call.isMode = [] :=
    List.filter_eq_nil_iff.2 fun call hm => not_isMode_of_loud (hdrawing call hm)
  have hall : ending.filter Call.isMode = ending := List.filter_eq_self.2 hending
  rw [List.filter_cons_of_neg Bool.false_ne_true, List.filter_cons_of_neg Bool.false_ne_true,
    List.filter_append, List.filter_cons_of_pos hmode, List.filter_append, List.filter_append,
    hnone, hnone', hall, List.filter_cons_of_neg Bool.false_ne_true, List.filter_nil,
    List.append_nil]
  rfl

theorem power_of_listCalls {s : Seam} {setup : Setup} {calibration : Float} {memo : Memo}
    {contour : Contour} {channel value : Nat}
    (hm : .setLaserPower channel value ∈ listCalls s setup (lowered calibration memo contour)) :
    value ≤ analogMax ∧ (channel = coreChannel ∨ channel = ringChannel) := by
  rcases mem_listCalls hm with ⟨speed, hspeed⟩ | hwobble | hpower
  · cases hspeed
  · cases hwobble
  · obtain ⟨command, -, memo', hcall⟩ := mem_lowered hpower
    exact power_of_lower hcall

theorem completeList_of_listCalls (s : Seam) (setup : Setup) (memo : Memo) (contour : Contour) :
    CompleteList (.loadList listNumber 0 ::
      (listCalls s setup (lowered s.config.calibrationFactor memo contour) ++
        [.setEndOfList])) := by
  obtain ⟨vectors, mode, hwobble, hvectors, hmode, hoff⟩ := wobbleCalls_split s setup
  let drawing := lowered s.config.calibrationFactor memo contour
  let ending : List Call := if setup = .off then [] else [wobbleOff]
  have hending : (∀ call ∈ ending, call.isMode = true) ∧ ending.length ≤ 1 := by
    unfold ending
    split
    · exact ⟨by simp, Nat.zero_le 1⟩
    · exact ⟨fun call hm => List.mem_singleton.1 hm ▸ rfl, Nat.le_refl 1⟩
  have hdrawing : ∀ call ∈ drawing, call.isQuiet = false := isQuiet_lowered _ contour memo
  have hcalls : (.loadList listNumber 0 :: (listCalls s setup drawing ++ [.setEndOfList]) :
      List Call) = .loadList listNumber 0 ::
        .setJumpSpeed (speedBits s.data.jumpSpeed s.config.calibrationFactor) ::
        (vectors ++ mode :: (drawing ++ (ending ++ [.setEndOfList]))) := by
    simp [listCalls, hwobble, ending]
  constructor
  case shape =>
    exact ⟨_, vectors, mode, drawing, ending, hcalls, hvectors, hmode, hdrawing, hending⟩
  case off =>
    rw [hcalls, filter_isMode hvectors hmode hdrawing hending.1]
    -- without wobbling the mode that sets it up is the last one
    by_cases hsetup : setup = .off
    · simp [ending, hsetup, hoff hsetup]
    · simp [ending, hsetup]
  case powers =>
    intro channel value hm
    rcases List.mem_cons.1 hm with hload | hm
    · cases hload
    · rcases List.mem_append.1 hm with hlist | hend
      · exact power_of_listCalls hlist
      · cases List.mem_singleton.1 hend

/-! ### Passages -/

/-- What a card is told that takes over no list by it. -/
inductive Interlude (executing : Bool) : List Call → Prop where
  | refused (hbusy : executing = true) : Interlude executing [.loadList listNumber 0]
  | execute : Interlude executing [.executeList listNumber]
  | goto (x y : Int) : Interlude executing [.gotoXy x y]
  | stop : Interlude executing [.stopExecution, .resetError allErrors]

/-- What a card is told at once, while it executes or not. -/
inductive Passage (executing : Bool) (calls : List Call) : Prop where
  | list (hidle : executing = false) (hc : CompleteList calls)
  | interlude (hi : Interlude executing calls)

end Card

namespace CardDevice

open Card

theorem lower_error {s : Seam} {contour : Contour} {setup : Setup} {disk disk' : Disk}
    {d d' : CardDevice} {fault : Fault}
    (hl : Device.lower s contour setup disk d = (.error fault, disk', d')) :
    d' = d ∨ d.card.executing = true ∧
      d'.card.calls = d.card.calls ++ [.loadList listNumber 0] := by
  have hlower := lower_of_device hl
  unfold lower at hlower
  simp only at hlower
  split at hlower
  · exact .inl (Prod.mk.inj hlower).2.symm
  · cases hexec : d.card.executing with
    | false => simp [loadList, hexec] at hlower
    | true =>
      simp only [loadList, hexec, Bool.not_true, Prod.mk.injEq] at hlower
      exact .inr ⟨rfl, by rw [← hlower.2]; rfl⟩

theorem interlude_of_aside {d d' : CardDevice} (h : Aside d d') :
    ∃ calls, d'.card.calls = d.card.calls ++ calls ∧
      (calls = [] ∨ Interlude d.card.executing calls) := by
  cases h with
  | nothing => exact ⟨[], (List.append_nil _).symm, .inl rfl⟩
  | refused hl =>
    rcases lower_error hl with rfl | ⟨hbusy, hcalls⟩
    · exact ⟨[], (List.append_nil _).symm, .inl rfl⟩
    · exact ⟨_, hcalls, .inr (.refused hbusy)⟩
  | move config place => exact ⟨_, rfl, .inr (.goto _ _)⟩
  | start => exact ⟨_, rfl, .inr .execute⟩
  | abort =>
    refine ⟨[.stopExecution, .resetError allErrors], ?_, .inr .stop⟩
    exact List.append_assoc ..

end CardDevice

/-! ### Along a run -/

namespace Welder

open Card (Call Passage Interlude CompleteList)

/-- What an event tells the card. -/
def told (w : Welder CardDevice) (e : Event Bool) : List Call :=
  (w.occur e).2.device.card.calls.drop w.device.card.calls.length

theorem told_eq {w : Welder CardDevice} {e : Event Bool} {calls : List Call}
    (hcalls : (w.occur e).2.device.card.calls = w.device.card.calls ++ calls) :
    w.told e = calls := by
  unfold told
  rw [hcalls, List.drop_left]

/-- What these events tell the card, one after another, and whether it executes at each of them. -/
def tellings (w : Welder CardDevice) : List (Event Bool) → List (Bool × List Call)
  | [] => []
  | e :: rest => (w.device.card.executing, w.told e) :: (w.occur e).2.tellings rest

theorem calls_afterEvents (w : Welder CardDevice) (events : List (Event Bool)) :
    (w.afterEvents events).device.card.calls =
      w.device.card.calls ++ (w.tellings events).flatMap Prod.snd := by
  induction events generalizing w with
  | nil => exact (List.append_nil _).symm
  | cons e rest ih =>
    have htold : w.device.card.calls ++ w.told e = (w.occur e).2.device.card.calls :=
      CardDevice.told_occur w e
    have hrest : (w.afterEvents (e :: rest)).device.card.calls =
        ((w.occur e).2.afterEvents rest).device.card.calls := rfl
    rw [hrest, ih, ← htold, List.append_assoc]
    rfl

theorem passage_of_told (w : Welder CardDevice) (e : Event Bool) :
    w.told e = [] ∨ Passage w.device.card.executing (w.told e) := by
  cases e with
  | change executing =>
    have hnone : w.told (.change executing) = [] := told_eq (List.append_nil _).symm
    exact .inl hnone
  | request op =>
    cases w.comes_perform op with
    | takes hl =>
      obtain ⟨hidle, -, hcalls⟩ := CardDevice.lower_ok hl
      rw [told_eq (e := .request op) hcalls]
      exact .inr (.list hidle (Card.completeList_of_listCalls ..))
    | aside hd =>
      obtain ⟨calls, hcalls, hinterlude⟩ := CardDevice.interlude_of_aside hd
      rw [told_eq (e := .request op) hcalls]
      exact hinterlude.imp_right .interlude

theorem passage_of_tellings (w : Welder CardDevice) (events : List (Event Bool)) :
    ∀ t ∈ w.tellings events, t.2 = [] ∨ Passage t.1 t.2 := by
  induction events generalizing w with
  | nil => nofun
  | cons e rest ih =>
    intro t ht
    rcases List.mem_cons.1 ht with rfl | hrest
    · exact w.passage_of_told e
    · exact ih _ t hrest

/-- Whatever is asked of a new welder, in any order and with any results, and whenever its card
begins or ends executing: what the card was told is what the events told it one after another, and
each of them told it nothing, or a complete list while it did not execute, or a list that it refused
because it did, or a single command. -/
theorem calls_in_passages (config : Config) (disk : Disk) (events : List (Event Bool)) :
    ((create config CardDevice.fresh disk).afterEvents events).device.card.calls =
        ((create config CardDevice.fresh disk).tellings events).flatMap Prod.snd ∧
      ∀ t ∈ (create config CardDevice.fresh disk).tellings events,
        t.2 = [] ∨ Passage t.1 t.2 :=
  ⟨calls_afterEvents _ events, passage_of_tellings _ events⟩

end Welder

end GalvoWeld
