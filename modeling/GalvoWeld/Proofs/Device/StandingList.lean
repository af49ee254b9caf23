import GalvoWeld.Proofs.Card.ListSize
import GalvoWeld.Proofs.Card.WeldingList
import GalvoWeld.Proofs.Device.Passages
import GalvoWeld.Proofs.Device.Transfers

/-!
# The list that stands in the memory

Once the list of a seam is built, the list memory holds it until the seam is given up: whatever is
done with the welder in between, a start executes the list of the seam in work. The memory is told
from what the card hears, and from whether it executes when it hears it.
-/

namespace GalvoWeld

open Wobble (Setup)
open Card (Call Interlude Memory listCalls listNumber lowerContour lowered)

namespace Card

/-! ### The memory behind the passages -/

/-- What a card has in its memory that hears these calls, executing or not. -/
def Memory.hear (m : Memory) (telling : Bool × List Call) : Memory :=
  telling.2.foldl Memory.take { m with executing := telling.1 }

theorem entries_of_interlude {executing : Bool} {calls : List Call}
    (hi : Interlude executing calls) (m : Memory) :
    (m.hear (executing, calls)).entries = m.entries := by
  cases hi with
  | refused hbusy => simp [Memory.hear, Memory.take, hbusy]
  | execute => rfl
  | goto => rfl
  | stop => rfl

theorem entries_of_opened {calls : List Call} (he : ∀ call ∈ calls, call.isEntry = true)
    (list position : Nat) (m : Memory) :
    (m.hear (false, .loadList list position :: calls)).entries = calls := by
  simp only [Memory.hear, List.foldl_cons]
  rw [foldl_take_entries he]
  simp [Memory.take]

/-- The memory holds a list that is ended, and its jumps, marks, powers and speeds are those that a
new card is given for this contour. -/
structure Memory.Holds (m : Memory) (calibration : Float) (contour : Contour) : Prop where
  ended : ∃ list, m.entries = list ++ [.setEndOfList] ∧ .setEndOfList ∉ list
  drawing : m.entries.filter (fun call => !call.isQuiet) =
    (lowerContour calibration {} contour).calls.toList

theorem drawing_listCalls (s : Seam) (setup : Setup) (calibration : Float) (memo : Memo)
    (contour : Contour) :
    (listCalls s setup (lowered calibration memo contour) ++ [Call.setEndOfList]).filter
      (fun call => !call.isQuiet) = lowered calibration memo contour := by
  have hwobble : (wobbleCalls s setup).filter (fun call => !call.isQuiet) = [] :=
    List.filter_eq_nil_iff.2 fun call hm => by
      simp [isQuiet_of_setsWobble (setsWobble_wobbleCalls s setup call hm)]
  have hend : (if setup = .off then [] else [wobbleOff]).filter (fun call => !call.isQuiet) = [] :=
    List.filter_eq_nil_iff.2 fun call hm => by
      simp [isQuiet_of_setsWobble (setsWobble_end setup call hm)]
  have hdrawing : (lowered calibration memo contour).filter (fun call => !call.isQuiet) =
      lowered calibration memo contour :=
    List.filter_eq_self.2 fun call hm => by simp [isQuiet_lowered calibration contour memo call hm]
  rw [listCalls, List.cons_append, List.filter_cons_of_neg (by simp [Call.isQuiet]),
    List.filter_append, List.filter_append, List.filter_append, hwobble, hend, hdrawing,
    List.nil_append, List.append_nil]
  exact List.append_nil _

/-- The contour sets the card up, so that the memory holds the list of a new card. -/
theorem holds_of_listCalls {s : Seam} {contour : Contour} (hc : s.contour = .ok contour)
    (setup : Setup) (memo : Memo) {m : Memory}
    (hm : m.entries =
      listCalls s setup (lowered s.config.calibrationFactor memo contour) ++ [.setEndOfList]) :
    m.Holds s.config.calibrationFactor contour where
  ended := ⟨_, hm, setEndOfList_not_mem s setup memo contour⟩
  drawing := by
    rw [hm, drawing_listCalls, lowerContour_calls]
    exact lowered_of_contour hc s.config.calibrationFactor memo {}

end Card

/-! ### Along a run -/

namespace Welder

/-- The memory of the card after these events, of which nothing is known before. -/
def listMemory (w : Welder CardDevice) (events : List (Event Bool)) : Memory :=
  (w.tellings events).foldl Memory.hear {}

/-- If the list of the seam is built, the memory holds it. -/
def Stands (m : Memory) (s : Seam) : Prop :=
  s.Listed → ∃ contour, s.contour = .ok contour ∧ m.Holds s.config.calibrationFactor contour

theorem Stands.keep {m m' : Memory} {s t : Seam} (hs : Stands m s)
    (hm : m'.entries = m.entries) (ht : t.Listed → s.Listed ∧ t.Alike s) : Stands m' t := by
  intro hlisted
  obtain ⟨hold, halike⟩ := ht hlisted
  obtain ⟨contour, hcontour, ⟨hended, hdrawing⟩⟩ := hs hold
  refine ⟨contour, halike.contour.trans hcontour, ?_⟩
  rw [halike.config]
  exact ⟨hm ▸ hended, hm ▸ hdrawing⟩

theorem Stands.perform {m : Memory} {w : Welder CardDevice} (hs : Stands m w.seam)
    {op : Operation} (hop : op.direct = false) :
    Stands (m.hear (w.device.card.executing, w.told (.request op))) (w.perform op).2.seam := by
  cases w.comes_perform op with
  | @takes t contour setup hl hseam =>
    obtain ⟨hidle, -, hcalls⟩ := CardDevice.lower_ok hl
    obtain ⟨hcontour, hbuilt⟩ := hseam hop
    have hentry : ∀ call ∈ Card.listCalls t setup
        (Card.lowered t.config.calibrationFactor w.device.memo contour) ++
          [Card.Call.setEndOfList], call.isEntry = true :=
      Card.isEntry_listCalls (Card.isEntry_lowered _ _ _)
    -- whatever the memory held, it holds the new list alone
    have hentries := Card.entries_of_opened hentry listNumber 0 m
    rw [told_eq (e := .request op) hcalls, hidle, hbuilt]
    intro _
    exact ⟨contour, hcontour, Card.holds_of_listCalls hcontour setup _ hentries⟩
  | aside hd hseam =>
    obtain ⟨calls, hcalls, hinterlude⟩ := CardDevice.interlude_of_aside hd
    rw [told_eq (e := .request op) hcalls]
    refine hs.keep ?_ hseam
    rcases hinterlude with rfl | hi
    · rfl
    · exact Card.entries_of_interlude hi m

theorem Stands.occur {m : Memory} {w : Welder CardDevice} (hs : Stands m w.seam)
    {e : Event Bool} (he : ∀ op, e = .request op → op.direct = false) :
    Stands (m.hear (w.device.card.executing, w.told e)) (w.occur e).2.seam := by
  cases e with
  | request op => exact hs.perform (he op rfl)
  | change executing =>
    have hnone : w.told (.change executing) = [] := told_eq (List.append_nil _).symm
    rw [hnone]
    exact hs.keep rfl fun hlisted => ⟨hlisted, rfl, rfl, rfl⟩

theorem Stands.afterEvents {m : Memory} {w : Welder CardDevice} (hs : Stands m w.seam)
    {events : List (Event Bool)} (hevents : ∀ op, .request op ∈ events → op.direct = false) :
    Stands ((w.tellings events).foldl Memory.hear m) (w.afterEvents events).seam := by
  induction events generalizing m w with
  | nil => exact hs
  | cons e rest ih =>
    have hone := hs.occur (e := e) fun op he => hevents op (he ▸ List.mem_cons_self ..)
    exact ih hone fun op hm => hevents op (List.mem_cons_of_mem e hm)

/-- Whatever is asked of a new welder, but for contours that do not come from its seam, and whenever
its card begins or ends executing: if the list of the seam is built or dispatched, then the list in
the memory of the card is ended, and its jumps, marks, powers and speeds are those that a new card
is given for the contour of the present data and weld figure. -/
theorem list_of_seam_stands {config : Config} {disk : Disk} {events : List (Event Bool)}
    (hevents : ∀ op, .request op ∈ events → op.direct = false)
    (hlisted : ((create config CardDevice.fresh disk).afterEvents events).seam.Listed) :
    ∃ contour,
      ((create config CardDevice.fresh disk).afterEvents events).seam.contour = .ok contour ∧
      ((create config CardDevice.fresh disk).listMemory events).Holds
        config.calibrationFactor contour := by
  have hnone : Stands {} (create config CardDevice.fresh disk).seam :=
    fun hlisted => absurd hlisted (not_listed rfl)
  have hconfig := (create config CardDevice.fresh disk).config_afterEvents events
  obtain ⟨contour, hcontour, hholds⟩ := hnone.afterEvents hevents hlisted
  rw [hconfig] at hholds
  exact ⟨contour, hcontour, hholds⟩

/-- A list that was started once, a seam that the busy card refuses, a second list that is started
while a figure is attached and the card is busy by itself. -/
def benchStanding : List (Event Bool) :=
  [.request (.prepare {} benchBright), .request .buildWeldingList, .request .startMark,
    .request (.buildPreviewList { power := 0.5 } benchBright), .change false,
    .request .buildWeldingList, .change true, .request (.attachWobble (some benchBright)),
    .request (.moveTo ⟨1, 1⟩), .request .startMark]

theorem bench_list_stands :
    ((create {} CardDevice.fresh ⟨[], []⟩).afterEvents benchStanding).seam.stage = .dispatched ∧
    ∃ contour,
      ((create {} CardDevice.fresh ⟨[], []⟩).afterEvents benchStanding).seam.contour =
        .ok contour ∧
      ((create {} CardDevice.fresh ⟨[], []⟩).listMemory benchStanding).Holds
        ({} : Config).calibrationFactor contour := by
  have hevents : ∀ op, .request op ∈ benchStanding → op.direct = false := by
    intro op hm
    simp only [benchStanding, List.mem_cons, Event.request.injEq, List.not_mem_nil, or_false,
      reduceCtorEq, false_or] at hm
    rcases hm with rfl | rfl | rfl | rfl | rfl | rfl | rfl | rfl <;> rfl
  have hstage : ((create {} CardDevice.fresh ⟨[], []⟩).afterEvents benchStanding).seam.stage =
      .dispatched := rfl
  exact ⟨hstage, list_of_seam_stands hevents (.inr hstage)⟩

end Welder

end GalvoWeld
