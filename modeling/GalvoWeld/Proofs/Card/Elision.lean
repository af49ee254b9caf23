import GalvoWeld.Proofs.Card.Replay

/-!
# Contours lowered in turn

One contour after another is lowered for the same card, and what the card was given last is
remembered from one to the next. Whatever the contours are, the abstract card draws with the calls
that are made what it draws with a call for every command, and no command is lost: it is a call, or
it is counted as left out, or it sets the card up.
-/

namespace GalvoWeld

def ContourCommand.isSetUp : ContourCommand → Bool
  | .setUp => true
  | _ => false

namespace Card

/-- Lowers contours in turn, each for a card that was given what the one before has left. -/
def lowerInTurn (calibration : Float) (memo : Memo) : List Contour → List Lowering
  | [] => []
  | contour :: rest =>
    let l := lowerContour calibration memo contour
    l :: lowerInTurn calibration l.memo rest

/-! ### A call for every command -/

/-- The call of a command that is made whether the card has its value or not. -/
def plainCall? (calibration : Float) : ContourCommand → Option Call
  | .setUp => none
  | .jump p => some (.jumpAbs (positionBits p.x calibration) (positionBits p.y calibration))
  | .mark p => some (.markAbs (positionBits p.x calibration) (positionBits p.y calibration))
  | .power percent => some (.setLaserPower coreChannel (analogValue percent))
  | .ringPower percent => some (.setLaserPower ringChannel (analogValue percent))
  | .markSpeed speed => some (.setMarkSpeed (speedBits speed calibration))

def plainCalls (calibration : Float) (contour : Contour) : List Call :=
  contour.filterMap (plainCall? calibration)

theorem strokes_plainCalls (calibration : Float) (contour : Contour) (o : Output) :
    strokes o (plainCalls calibration contour) = drawn calibration o contour := by
  induction contour generalizing o with
  | nil => rfl
  | cons command rest ih =>
    cases command with
    | setUp => exact ih o
    | jump p => exact congrArg (List.cons _) (ih o)
    | mark p => exact congrArg (List.cons _) (ih o)
    | power percent => exact ih { o with core := some (analogValue percent) }
    | ringPower percent => exact ih { o with ring := some (analogValue percent) }
    | markSpeed speed => exact ih { o with speed := some (speedBits speed calibration) }

theorem plainCalls_flatten (calibration : Float) (contours : List Contour) :
    plainCalls calibration contours.flatten = contours.flatMap (plainCalls calibration) := by
  rw [plainCalls, List.filterMap_flatten, List.flatMap_def]
  rfl

/-! ### What is remembered -/

/-- What the card was given last after a contour. -/
def Memo.after (calibration : Float) (memo : Memo) (contour : Contour) : Memo :=
  contour.foldl (fun memo command => (memo.lower calibration command).2) memo

theorem lowerContour_memo (calibration : Float) (memo : Memo) (contour : Contour) :
    (lowerContour calibration memo contour).memo = memo.after calibration contour := by
  have hfold : ∀ l : Lowering, (contour.foldl (Lowering.step calibration) l).memo =
      l.memo.after calibration contour := by
    induction contour with
    | nil => exact fun l => rfl
    | cons command rest ih =>
      intro l
      have hstep := step_memo calibration l command
      rw [List.foldl_cons, ih, hstep]
      rfl
  exact hfold ⟨#[], 0, memo⟩

theorem lowered_append (calibration : Float) (memo : Memo) (front back : Contour) :
    lowered calibration memo (front ++ back) =
      lowered calibration memo front ++
        lowered calibration (memo.after calibration front) back := by
  induction front generalizing memo with
  | nil => rfl
  | cons command rest ih =>
    simp only [List.cons_append, lowered, ih, List.append_assoc]
    rfl

/-- Contours in turn come to the same calls as all of them in one. -/
theorem calls_lowerInTurn (calibration : Float) (memo : Memo) (contours : List Contour) :
    (lowerInTurn calibration memo contours).flatMap (·.calls.toList) =
      lowered calibration memo contours.flatten := by
  induction contours generalizing memo with
  | nil => rfl
  | cons contour rest ih =>
    have hcalls := lowerContour_calls calibration memo contour
    have hmemo := lowerContour_memo calibration memo contour
    simp only [lowerInTurn, List.flatMap_cons, List.flatten_cons]
    rw [ih, hcalls, hmemo, lowered_append]

/-! ### No command is lost -/

theorem step_count (calibration : Float) (l : Lowering) (command : ContourCommand) :
    (l.step calibration command).calls.size + (l.step calibration command).elided +
      (if command.isSetUp then 1 else 0) = l.calls.size + l.elided + 1 := by
  rcases hlower : l.memo.lower calibration command with ⟨_ | call, memo⟩
  · cases command <;> simp only [Lowering.step, hlower, ContourCommand.isSetUp] <;> rfl
  · have hnot : command.isSetUp = false := by
      cases command <;> first | rfl | cases hlower
    simp only [Lowering.step, hlower, hnot, Array.size_push, Bool.false_eq_true, if_false]
    omega

theorem length_lowerContour (calibration : Float) (memo : Memo) (contour : Contour) :
    contour.length = (lowerContour calibration memo contour).calls.size +
      (lowerContour calibration memo contour).elided + contour.countP (·.isSetUp) := by
  have hfold : ∀ l : Lowering, (contour.foldl (Lowering.step calibration) l).calls.size +
      (contour.foldl (Lowering.step calibration) l).elided + contour.countP (·.isSetUp) =
        l.calls.size + l.elided + contour.length := by
    induction contour with
    | nil => exact fun l => rfl
    | cons command rest ih =>
      intro l
      have hstep := step_count calibration l command
      have hrest := ih (l.step calibration command)
      rw [List.foldl_cons, List.countP_cons, List.length_cons]
      omega
  have hcount := hfold ⟨#[], 0, memo⟩
  have hstart : (⟨#[], 0, memo⟩ : Lowering).calls.size + (⟨#[], 0, memo⟩ : Lowering).elided = 0 :=
    rfl
  rw [hstart, Nat.zero_add] at hcount
  exact hcount.symm

theorem length_lowerInTurn (calibration : Float) (memo : Memo) (contours : List Contour) :
    List.Forall₂ (fun contour l =>
      contour.length = l.calls.size + l.elided + contour.countP (·.isSetUp))
      contours (lowerInTurn calibration memo contours) := by
  induction contours generalizing memo with
  | nil => exact .nil
  | cons contour rest ih => exact .cons (length_lowerContour calibration memo contour) (ih _)

/-! ### The calls that are made are enough -/

/-- Contours lowered in turn for a new card draw, from whatever the abstract card was set to, what
they draw with nothing left out; and every command of each is a call, or left out and counted, or
sets the card up. -/
theorem strokes_lowerInTurn (calibration : Float) (contours : List Contour) :
    (∀ o, List.Forall₂ Stroke.Same
      (strokes o ((lowerInTurn calibration {} contours).flatMap (·.calls.toList)))
      (strokes o (contours.flatMap (plainCalls calibration)))) ∧
    List.Forall₂ (fun contour l =>
      contour.length = l.calls.size + l.elided + contour.countP (·.isSetUp))
      contours (lowerInTurn calibration {} contours) := by
  refine ⟨fun o => ?_, length_lowerInTurn calibration {} contours⟩
  rw [calls_lowerInTurn, ← plainCalls_flatten, strokes_plainCalls]
  exact strokes_lowered calibration contours.flatten (Memo.holds_empty o) (.refl o)

example : ((lowerInTurn 1000 {} [[.ringPower 10], [.ringPower 10, .setUp, .ringPower 10]]).map
    fun l => (l.calls.size, l.elided)) = [(1, 0), (1, 1)] := by decide +kernel

end Card

end GalvoWeld
