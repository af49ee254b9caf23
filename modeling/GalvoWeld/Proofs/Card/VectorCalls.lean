import GalvoWeld.Proofs.Card.Vectors
import GalvoWeld.Proofs.Seam.Decisions

/-!
# The calls of the wobble vectors

Whatever is asked of a seam, in any order and with any result, its four vectors stay equally long.
So no index is out of range when they are written into a list, and the list has one call for each
segment, in their order.
-/

namespace GalvoWeld

open Wobble (Compensation)

/-! ### Requests to a seam -/

namespace Seam

/-- Everything that may be asked of a seam on its own: beside the actions, the single steps of a
definition. -/
inductive Request where
  | action (a : Action)
  | defineWobble (mode : Wobble.Mode)
  | planWobble (figure : Figure) (dual : Bool)
  | defineVectors (figure : Figure) (modulation : Modulation)

def ask (s : Seam) : Request → Seam
  | .action a => s.act a
  | .defineWobble mode => (s.defineWobble mode).2
  | .planWobble figure dual => (s.planWobble figure dual).2
  | .defineVectors figure modulation => (s.defineVectors figure modulation).2

/-- The seam after these requests, whether they succeed or not. -/
def asked (s : Seam) (requests : List Request) : Seam := requests.foldl ask s

variable {s : Seam}

theorem level_defineVectors (hs : s.compensation.Level) (figure : Figure)
    (modulation : Modulation) : (s.defineVectors figure modulation).2.compensation.Level :=
  hs.define s.nominal s.config.powerDelay figure modulation

theorem level_planWobble (hs : s.compensation.Level) (figure : Figure) (dual : Bool) :
    (s.planWobble figure dual).2.compensation.Level :=
  hs.plan s.nominal s.config.powerDelay figure dual

theorem level_defineWobble (s : Seam) (mode : Wobble.Mode) :
    (s.defineWobble mode).2.compensation.Level := by
  cases hd : s.defineWobble mode with
  | mk result t =>
    cases result with
    | error fault =>
      have hnone := cleared_of_defineWobble hd
      rw [hnone]
      exact Compensation.level_cleared
    | ok setup =>
      cases mode with
      | off =>
        obtain rfl := (Prod.mk.inj hd).2
        exact Compensation.level_cleared
      | basic shape =>
        obtain rfl := (Prod.mk.inj hd).2
        exact Compensation.level_cleared
      | free =>
        obtain ⟨figure, -, -, hvectors⟩ := defineWobble_free_vectors hd
        exact Compensation.level_of_define hvectors

theorem level_resolveWobble (s : Seam) : s.resolveWobble.2.compensation.Level := by
  have hdefine := s.level_defineWobble s.data.wobbleMode
  unfold resolveWobble
  split
  · next heq =>
    rw [heq] at hdefine
    exact hdefine
  · next heq =>
    rw [heq] at hdefine
    split
    · exact hdefine
    · exact Compensation.level_cleared

theorem level_act (hs : s.compensation.Level) (a : Action) : (s.act a).compensation.Level := by
  cases a with
  | prepare data figure => exact Compensation.level_cleared
  | attachWobble figure => exact hs
  | resolveWobble => exact s.level_resolveWobble
  | contour => exact hs
  | reset => exact Compensation.level_cleared
  | loadWobble disk path =>
    have hload := s.loads disk path
    have hact : s.act (.loadWobble disk path) = (s.loadWobble disk path).2 := rfl
    rw [hact]
    generalize s.loadWobble disk path = outcome at hload ⊢
    cases hload with
    | unread hread => exact hs
    | attached hread hstage => exact hs
    | @rejected figure fault t hread hstage hdecision =>
      have hresolve := (s.attachWobble figure).level_resolveWobble
      rw [hdecision] at hresolve
      exact hresolve
    | @defined figure setup t hread hstage hdecision =>
      have hresolve := (s.attachWobble figure).level_resolveWobble
      rw [hdecision] at hresolve
      exact hresolve

theorem level_ask (hs : s.compensation.Level) (request : Request) :
    (s.ask request).compensation.Level := by
  cases request with
  | action a => exact level_act hs a
  | defineWobble mode => exact s.level_defineWobble mode
  | planWobble figure dual => exact level_planWobble hs figure dual
  | defineVectors figure modulation => exact level_defineVectors hs figure modulation

theorem level_asked (hs : s.compensation.Level) (requests : List Request) :
    (s.asked requests).compensation.Level := by
  induction requests generalizing s with
  | nil => exact hs
  | cons request rest ih => exact ih (level_ask hs request)

end Seam

/-! ### Calls of level vectors -/

namespace Card

/-- The call of one segment, each vector taken at its index. -/
def vectorCall (calibration : Float) {c : Compensation} (hc : c.Level) (k : Fin c.segments) :
    Call :=
  .setWobbelVector (c.transversal.get k * calibration)
    (c.longitudinal.get (k.cast hc.longitudinal.symm) * calibration) c.divisor
    (c.power.get (k.cast hc.power.symm)) (c.ringPower.get (k.cast hc.ringPower.symm))

variable {c : Compensation}

theorem vectorCalls_eq (calibration : Float) (hc : c.Level) :
    vectorCalls calibration c = List.ofFn (vectorCall calibration hc) := by
  have hsegments : c.transversal.length = c.segments := rfl
  refine List.ext_getElem ?_ fun k _ _ => ?_
  · simp only [vectorCalls, List.length_zipWith, List.length_zip, List.length_ofFn, hsegments,
      hc.longitudinal, hc.power, hc.ringPower, Nat.min_self]
  · simp only [vectorCalls, List.getElem_zipWith, List.getElem_zip, List.getElem_ofFn, vectorCall,
      List.get_eq_getElem, Fin.val_cast]
    rfl

theorem filter_wobbleCalls {s : Seam} (hs : s.compensation.Level) (modulation : Modulation) :
    (wobbleCalls s (.free modulation)).filter Call.isVector =
      List.ofFn (vectorCall s.config.calibrationFactor hs) := by
  have hvectors : (List.ofFn (vectorCall s.config.calibrationFactor hs)).filter Call.isVector =
      List.ofFn (vectorCall s.config.calibrationFactor hs) := by
    refine List.filter_eq_self.2 fun call hm => ?_
    obtain ⟨k, rfl⟩ := List.mem_ofFn.1 hm
    rfl
  rw [wobbleCalls, List.filter_append, vectorCalls_eq _ hs, hvectors]
  exact List.append_nil _

/-- The other calls of a list set no vector. -/
theorem filter_isVector_listCalls {s : Seam} (hs : s.compensation.Level) (modulation : Modulation)
    (memo : Memo) (contour : Contour) :
    (listCalls s (.free modulation) (lowered s.config.calibrationFactor memo contour)).filter
        Call.isVector =
      List.ofFn (vectorCall s.config.calibrationFactor hs) := by
  have hcontour : (lowered s.config.calibrationFactor memo contour).filter Call.isVector = [] :=
    filter_lowered _ _ _ fun _ => isQuiet_of_isVector
  have hend : (if Wobble.Setup.free modulation = .off then [] else [wobbleOff]).filter
      Call.isVector = [] := rfl
  rw [listCalls, List.filter_cons_of_neg Bool.false_ne_true, List.filter_append,
    List.filter_append, filter_wobbleCalls hs, hcontour, hend, List.append_nil, List.append_nil]

end Card

/-- Whatever was asked of a new seam, each request succeeding or not: its vectors are equally long,
and a list that is written with them has one vector call for each segment, in their order, each made
of what all the vectors have at its index. -/
theorem vectors_written_in_order (config : Config) (requests : List Seam.Request) :
    let s := Seam.asked { config } requests
    ∃ hlevel : s.compensation.Level, ∀ contour modulation d d',
      CardDevice.lower s contour (.free modulation) d = (.ok (), d') →
      ∃ list, d'.card.calls =
          d.card.calls ++ .loadList Card.listNumber 0 :: (list ++ [.setEndOfList]) ∧
        list.filter Card.Call.isVector =
          List.ofFn (Card.vectorCall s.config.calibrationFactor hlevel) := by
  intro s
  have hlevel : s.compensation.Level := Seam.level_asked Compensation.level_cleared requests
  refine ⟨hlevel, fun contour modulation d d' hlower => ?_⟩
  have hdevice : Device.lower s contour (.free modulation) ⟨[], []⟩ d = (.ok (), ⟨[], []⟩, d') := by
    simp only [Device.lower, hlower]
  obtain ⟨-, -, hcalls⟩ := CardDevice.lower_ok hdevice
  exact ⟨_, hcalls, Card.filter_isVector_listCalls hlevel modulation d.memo contour⟩

/-- The vectors of a triangle stay through a figure that is refused and through a plan alone, which
changes their divisor. -/
def mixedRequests : List Seam.Request :=
  [.action (.prepare { power := 0.5, wobbleMode := .free }
      (Figure.ofPoints [⟨⟨0, 0⟩, 0.5, 0, 100⟩])),
    .defineVectors benchTriangle .dual,
    .defineVectors { Seam.coreTriangle with microVectorFactor := 1021 } .dual,
    .planWobble Seam.coreTriangle false]

theorem mixed_written_in_order :
    let s := Seam.asked { config := {} } mixedRequests
    s.compensation.segments = 2 ∧ s.compensation.divisor = 1 ∧
    ∃ (hlevel : s.compensation.Level) (d' : CardDevice) (list : List Card.Call),
      CardDevice.lower s [] (.free .dual) CardDevice.fresh = (.ok (), d') ∧
      d'.card.calls = .loadList Card.listNumber 0 :: (list ++ [.setEndOfList]) ∧
      list.filter Card.Call.isVector =
        List.ofFn (Card.vectorCall s.config.calibrationFactor hlevel) := by
  intro s
  have hsegments : s.compensation.segments = 2 := by decide +kernel
  have hdivisor : s.compensation.divisor = 1 := by decide +kernel
  have hresult : (CardDevice.lower s [] (.free .dual) CardDevice.fresh).1 = .ok () := by
    decide +kernel
  obtain ⟨hlevel, hwritten⟩ := vectors_written_in_order {} mixedRequests
  cases hlower : CardDevice.lower s [] (.free .dual) CardDevice.fresh with
  | mk result d' =>
    rw [hlower] at hresult
    obtain rfl := hresult
    obtain ⟨list, hcalls, hfilter⟩ := hwritten [] .dual CardDevice.fresh d' hlower
    exact ⟨hsegments, hdivisor, hlevel, d', list, rfl, hcalls, hfilter⟩

end GalvoWeld
