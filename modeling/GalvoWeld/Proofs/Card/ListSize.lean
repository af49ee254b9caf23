import GalvoWeld.Proofs.Card.Vectors
import GalvoWeld.Proofs.Seam.SpecialValues

/-!
# The size of a list

Before a list is opened its entries are estimated from the size of the weld figure. A list that is
built has no more entries than that, and fits into the list memory with the reserve for vectors.
-/

namespace GalvoWeld

open Wobble (Setup)

/-- The figure that an operation builds the list of. -/
def Operation.listFigure? (s : Seam) : Operation → Option Figure
  | buildWeldingList => s.weldFigure
  | buildPreviewList _ figure => some figure
  | _ => none

/-- The operations that compile a contour themselves. -/
def Operation.compiles : Operation → Bool
  | buildWeldingList => true
  | buildPreviewList .. => true
  | _ => false

/-! ### The size of a contour -/

theorem length_markCommands_le (preview : Bool) (p : FigurePoint) (place : Point) :
    (markCommands preview p place).length ≤ 4 := by
  cases preview <;> exact Nat.le_of_ble_eq_true rfl

theorem length_marks_le (preview : Bool) (offset : Point) (points : List FigurePoint) :
    (points.flatMap fun p => markCommands preview p (p.position + offset)).length ≤
      points.length * 4 := by
  induction points with
  | nil => exact Nat.le_refl 0
  | cons p rest ih =>
    have hp := length_markCommands_le preview p (p.position + offset)
    simp only [List.flatMap_cons, List.length_append, List.length_cons]
    omega

theorem length_contourOfPoints_le {calibration laserDelay : Float} {offset : Point}
    {preview : Bool} {points : List FigurePoint} {contour : Contour}
    (hc : contourOfPoints calibration laserDelay offset preview points = some contour) :
    contour.length ≤ points.length * 4 + 4 := by
  cases points with
  | nil => cases hc
  | cons first rest =>
    obtain rfl := Option.some.inj hc
    have hoff : (if preview then [ContourCommand.power 0, .ringPower 0] else []).length ≤ 2 := by
      cases preview <;> decide
    have hlead : (if startPlace calibration laserDelay offset first rest == first.position + offset
        then [] else [first]).length ≤ 1 := by
      split <;> simp
    have hmarks := length_marks_le preview offset
      ((if startPlace calibration laserDelay offset first rest == first.position + offset
        then [] else [first]) ++ rest)
    simp only [List.length_cons, List.length_append] at hmarks ⊢
    omega

namespace Card

/-! ### The size of a list -/

theorem length_lowered_le (calibration : Float) (memo : Memo) (contour : Contour) :
    (lowered calibration memo contour).length ≤ contour.length := by
  induction contour generalizing memo with
  | nil => exact Nat.le_refl 0
  | cons command rest ih =>
    have hrest := ih (memo.lower calibration command).2
    have hone : (memo.lower calibration command).1.toList.length ≤ 1 := by
      cases (memo.lower calibration command).1 <;> simp
    simp only [lowered, List.length_append, List.length_cons]
    omega

/-- The entries that are not kept free for wobble vectors. -/
def entryCount (calls : List Call) : Nat := calls.countP fun call => !call.isVector

theorem entryCount_wobbleCalls (s : Seam) (setup : Setup) :
    entryCount (wobbleCalls s setup) = 1 := by
  cases setup with
  | off => rfl
  | basic shape => rfl
  | free modulation =>
    have hvectors : (vectorCalls s.config.calibrationFactor s.compensation).countP
        (fun call => !call.isVector) = 0 := by
      refine List.countP_eq_zero.2 fun call hm => ?_
      obtain ⟨i, hi, rfl⟩ := List.mem_iff_getElem.1 hm
      simp [vectorCalls, Call.isVector]
    simp only [entryCount, wobbleCalls, List.countP_append, hvectors]
    rfl

theorem entryCount_listCalls_le (s : Seam) (setup : Setup) (contour : List Call) :
    entryCount (listCalls s setup contour ++ [.setEndOfList]) ≤ contour.length + 4 := by
  have hwobble := entryCount_wobbleCalls s setup
  have hcontour := List.countP_le_length (p := fun call : Call => !call.isVector) (l := contour)
  have hend : (if setup = .off then [] else [wobbleOff]).countP
      (fun call : Call => !call.isVector) ≤ 1 := by
    split <;> decide
  have hlast : [Call.setEndOfList].countP (fun call => !call.isVector) = 1 := rfl
  unfold entryCount at hwobble ⊢
  rw [listCalls, List.cons_append, List.countP_cons_of_pos rfl, List.countP_append,
    List.countP_append, List.countP_append, hwobble, hlast]
  omega

end Card

namespace CardDevice

open Card

theorem fits_of_lower {s : Seam} {contour : Contour} {setup : Setup} {disk disk' : Disk}
    {d d' : CardDevice} (hl : Device.lower s contour setup disk d = (.ok (), disk', d')) :
    entriesNeeded (s.weldFigure.elim 0 Figure.size) ≤ entriesAvailable s.config := by
  have hlower := lower_of_device hl
  unfold lower at hlower
  simp only at hlower
  split at hlower
  · simp at hlower
  · omega

theorem lower_tooMany {s : Seam} {contour : Contour} {setup : Setup} {disk disk' : Disk}
    {d d' : CardDevice} {needed available : Nat}
    (hl : Device.lower s contour setup disk d =
      (.error (.tooManyPoints needed available), disk', d')) : d' = d := by
  have hlower := lower_of_device hl
  unfold lower at hlower
  simp only at hlower
  split at hlower
  · exact (Prod.mk.inj hlower).2.symm
  · split at hlower <;> simp at hlower

end CardDevice

/-! ### Lists that are built -/

namespace Welder

theorem builds_of_compiles {w : Welder CardDevice} {op : Operation} (hop : op.compiles = true) :
    ∃ s, s.config = w.seam.config ∧ s.weldFigure = op.listFigure? w.seam ∧
      Builds s w (w.perform op) := by
  cases op with
  | buildWeldingList => exact ⟨w.seam, rfl, rfl, builds_buildWeldingList w⟩
  | buildPreviewList data figure =>
    exact ⟨w.seam.prepare { data with mode := .preview } figure, rfl, rfl,
      builds_buildPreviewList w data figure⟩
  | _ => cases hop

theorem Builds.untouched {s : Seam} {w w' : Welder CardDevice} {needed available : Nat}
    (hb : Builds s w (.error (.tooManyPoints needed available), w')) : w'.device = w.device := by
  rcases hb.split with ⟨-, -, hdevice⟩ | ⟨t, contour, setup, -, -, hlower⟩
  · exact hdevice
  · exact CardDevice.lower_tooMany hlower

end Welder

open Card in
theorem setEndOfList_not_mem (s : Seam) (setup : Setup) (memo : Memo) (contour : Contour) :
    .setEndOfList ∉ listCalls s setup (lowered s.config.calibrationFactor memo contour) := by
  intro hm
  rcases mem_listCalls hm with ⟨speed, hspeed⟩ | hwobble | hcontour
  · cases hspeed
  · cases hwobble
  · cases isQuiet_lowered _ _ _ _ hcontour

open Card in
/-- Whatever the welder has gone through: the entries of a list that it builds, without those of the
vectors, are no more than the estimate for its weld figure, which leaves the reserve free in the
list memory. Where the estimate is too high the card is given nothing. -/
theorem list_fits_memory (w : Welder CardDevice) {op : Operation} (hop : op.compiles = true) :
    (∀ w', w.perform op = (.ok (), w') → ∃ (figure : Figure) (list : List Call),
      op.listFigure? w.seam = some figure ∧
      w'.device.card.calls =
        w.device.card.calls ++ .loadList listNumber 0 :: (list ++ [.setEndOfList]) ∧
      .setEndOfList ∉ list ∧
      entryCount (list ++ [.setEndOfList]) ≤ entriesNeeded figure.size ∧
      entriesNeeded figure.size + vectorReserve ≤ w.seam.config.listMemory) ∧
    ∀ needed available w', w.perform op = (.error (.tooManyPoints needed available), w') →
      w'.device = w.device := by
  obtain ⟨s, hconfig, hfigure, hbuilds⟩ := Welder.builds_of_compiles hop
  constructor
  · intro w' hok
    obtain ⟨t, contour, setup, halike, hcontour, hlower⟩ := hbuilds.hands hok
    obtain ⟨-, -, hcalls⟩ := CardDevice.lower_ok hlower
    obtain ⟨figure, hweld, hpoints⟩ := Seam.contour_ok hcontour
    refine ⟨figure, _, ?_, hcalls, setEndOfList_not_mem t setup _ contour, ?_, ?_⟩
    · rw [← hfigure, ← halike.weldFigure]
      exact hweld
    · have hcount := entryCount_listCalls_le t setup
        (lowered t.config.calibrationFactor w.device.memo contour)
      have hlowered := length_lowered_le t.config.calibrationFactor w.device.memo contour
      have hlength := length_contourOfPoints_le hpoints
      rw [resolvePoints, length_resolveAfter] at hlength
      simp only [entriesNeeded, entriesPerPoint, headerEntries, Figure.size]
      omega
    · have hfits := CardDevice.fits_of_lower hlower
      rw [hweld, halike.config, hconfig] at hfits
      simp only [Option.elim_some, entriesAvailable, entriesNeeded, headerEntries] at hfits ⊢
      omega
  · intro needed available w' hfull
    rw [hfull] at hbuilds
    exact hbuilds.untouched

/-- Two weld points and a list memory that has just room for them. -/
def tightWelder : Welder CardDevice :=
  ((Welder.create { listMemory := 1040 } CardDevice.fresh ⟨[], []⟩).prepare {}
    (Figure.ofPoints [⟨⟨0, 0⟩, 0.5, 0, 100⟩, ⟨⟨1, 0⟩, -1, 0.25, -2⟩])).2

theorem tight_list_fits :
    ∃ list : List Card.Call, (tightWelder.perform .buildWeldingList).2.device.card.calls =
        .loadList Card.listNumber 0 :: (list ++ [.setEndOfList]) ∧
      Card.entryCount (list ++ [.setEndOfList]) ≤ 16 := by
  have hok : tightWelder.perform .buildWeldingList =
      (.ok (), (tightWelder.perform .buildWeldingList).2) := Prod.ext rfl rfl
  obtain ⟨figure, list, hfigure, hcalls, -, hcount, -⟩ :=
    (list_fits_memory tightWelder rfl).1 _ hok
  obtain rfl := Option.some.inj hfigure
  exact ⟨list, hcalls, hcount⟩

end GalvoWeld
