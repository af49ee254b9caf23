import GalvoWeld.Card.Lowering
import GalvoWeld.Proofs.Number.Equality

/-!
# Replaying a list

An abstract card that executes a list has two powers and a mark speed, which calls set and marks
read. The list that a contour is lowered to leaves out what the card was given last; on the abstract
card it draws the same as a list in which nothing is left out, but for the sign of a speed that is
zero.
-/

namespace GalvoWeld.Card

open Number (SameValue sameValue_of_beq)

/-! ### The abstract card -/

/-- The powers and the speed that an abstract card marks with, as far as they were set. -/
structure Output where
  core : Option Nat
  ring : Option Nat
  speed : Option Float

def Output.setPower (o : Output) (channel value : Nat) : Output :=
  if channel = coreChannel then { o with core := some value }
  else if channel = ringChannel then { o with ring := some value }
  else o

/-- What is seen of an abstract card. -/
inductive Stroke where
  | jump (x y : Int)
  | mark (x y : Int) (output : Output)

/-- What an abstract card draws that executes these calls. -/
def strokes (o : Output) : List Call → List Stroke
  | [] => []
  | .jumpAbs x y :: rest => .jump x y :: strokes o rest
  | .markAbs x y :: rest => .mark x y o :: strokes o rest
  | .setLaserPower channel value :: rest => strokes (o.setPower channel value) rest
  | .setMarkSpeed speed :: rest => strokes { o with speed := some speed } rest
  | _ :: rest => strokes o rest

/-- Calls that an abstract card passes over. -/
def Call.isQuiet : Call → Bool
  | .jumpAbs .. => false
  | .markAbs .. => false
  | .setLaserPower .. => false
  | .setMarkSpeed .. => false
  | _ => true

theorem strokes_quiet {calls : List Call} (hq : ∀ call ∈ calls, call.isQuiet = true) (o : Output)
    (rest : List Call) : strokes o (calls ++ rest) = strokes o rest := by
  induction calls with
  | nil => rfl
  | cons call calls ih =>
    have hrest := ih fun c hc => hq c (List.mem_cons_of_mem call hc)
    have hcall := hq call (List.mem_cons_self ..)
    rw [List.cons_append, ← hrest]
    cases call <;> first | rfl | cases hcall

theorem strokes_append_quiet {calls : List Call} (hq : ∀ call ∈ calls, call.isQuiet = true)
    (o : Output) (front : List Call) : strokes o (front ++ calls) = strokes o front := by
  induction front generalizing o with
  | nil => simpa [strokes] using strokes_quiet hq o []
  | cons call front ih =>
    rw [List.cons_append]
    cases call <;> simp only [strokes, ih]

/-! ### A contour without anything left out -/

/-- What an abstract card draws for a contour that it is given command by command. -/
def drawn (calibration : Float) (o : Output) : Contour → List Stroke
  | [] => []
  | .setUp :: rest => drawn calibration o rest
  | .jump p :: rest =>
    .jump (positionBits p.x calibration) (positionBits p.y calibration) :: drawn calibration o rest
  | .mark p :: rest =>
    .mark (positionBits p.x calibration) (positionBits p.y calibration) o ::
      drawn calibration o rest
  | .power percent :: rest => drawn calibration { o with core := some (analogValue percent) } rest
  | .ringPower percent :: rest =>
    drawn calibration { o with ring := some (analogValue percent) } rest
  | .markSpeed speed :: rest =>
    drawn calibration { o with speed := some (speedBits speed calibration) } rest

/-! ### Lowering as a list -/

/-- The calls that a contour is lowered to. -/
def lowered (calibration : Float) (memo : Memo) : Contour → List Call
  | [] => []
  | command :: rest =>
    (memo.lower calibration command).1.toList ++
      lowered calibration (memo.lower calibration command).2 rest

theorem step_calls (calibration : Float) (l : Lowering) (command : ContourCommand) :
    (l.step calibration command).calls.toList =
      l.calls.toList ++ (l.memo.lower calibration command).1.toList := by
  unfold Lowering.step
  rcases l.memo.lower calibration command with ⟨_ | call, memo⟩
  · cases command <;> simp
  · cases command <;> simp

theorem step_memo (calibration : Float) (l : Lowering) (command : ContourCommand) :
    (l.step calibration command).memo = (l.memo.lower calibration command).2 := by
  unfold Lowering.step
  rcases l.memo.lower calibration command with ⟨_ | call, memo⟩
  · cases command <;> rfl
  · cases command <;> rfl

theorem lowerContour_calls (calibration : Float) (memo : Memo) (contour : Contour) :
    (lowerContour calibration memo contour).calls.toList = lowered calibration memo contour := by
  have hfold : ∀ l : Lowering, (contour.foldl (Lowering.step calibration) l).calls.toList =
      l.calls.toList ++ lowered calibration l.memo contour := by
    induction contour with
    | nil => simp [lowered]
    | cons command rest ih =>
      intro l
      rw [List.foldl_cons, ih, step_calls, step_memo, List.append_assoc]
      rfl
  unfold lowerContour
  rw [hfold, List.nil_append]

theorem isQuiet_lowered (calibration : Float) (contour : Contour) (memo : Memo) :
    ∀ call ∈ lowered calibration memo contour, call.isQuiet = false := by
  induction contour generalizing memo with
  | nil => nofun
  | cons command rest ih =>
    intro call hm
    rcases List.mem_append.1 hm with hnow | hlater
    · have hsome := Option.mem_toList.1 hnow
      cases command <;> simp only [Memo.lower] at hsome <;> (try split at hsome) <;>
        cases hsome <;> rfl
    · exact ih _ call hlater

theorem filter_lowered (calibration : Float) (contour : Contour) (memo : Memo) {p : Call → Bool}
    (hp : ∀ call, p call = true → call.isQuiet = true) :
    (lowered calibration memo contour).filter p = [] := by
  refine List.filter_eq_nil_iff.2 fun call hm hcall => ?_
  have hloud := isQuiet_lowered calibration contour memo call hm
  rw [hp call hcall] at hloud
  cases hloud

/-! ### Nothing that is left out is missed -/

/-- The same powers, and the same speed but for the sign of a zero. -/
structure Output.Same (o o' : Output) : Prop where
  core : o.core = o'.core
  ring : o.ring = o'.ring
  speed : Option.Rel SameValue o.speed o'.speed

inductive Stroke.Same : Stroke → Stroke → Prop
  | jump (x y : Int) : Stroke.Same (.jump x y) (.jump x y)
  | mark (x y : Int) {o o' : Output} (h : o.Same o') : Stroke.Same (.mark x y o) (.mark x y o')

/-- The abstract card has the values that the memory says it was given last. -/
structure Memo.Holds (memo : Memo) (o : Output) : Prop where
  power : ∀ value, memo.power = some value → o.core = some value
  ringPower : ∀ value, memo.ringPower = some value → o.ring = some value
  markSpeed : ∀ speed, memo.markSpeed = some speed → o.speed = some speed

theorem Memo.holds_empty (o : Output) : Memo.Holds {} o := ⟨nofun, nofun, nofun⟩

theorem Output.Same.refl (o : Output) : o.Same o := by
  refine ⟨rfl, rfl, ?_⟩
  cases o.speed with
  | none => exact .none
  | some speed => exact .some (.refl speed)

/-- A lowered contour draws what the contour draws command by command. -/
theorem strokes_lowered (calibration : Float) (contour : Contour) {memo : Memo} {o o' : Output}
    (hm : memo.Holds o) (hs : o.Same o') :
    List.Forall₂ Stroke.Same (strokes o (lowered calibration memo contour))
      (drawn calibration o' contour) := by
  -- a call is left out only where the memory knows the value, and then the card has it already
  induction contour generalizing memo o o' with
  | nil => exact .nil
  | cons command rest ih =>
    cases command with
    | setUp => exact ih (Memo.holds_empty o) hs
    | jump p => exact .cons (.jump ..) (ih hm hs)
    | mark p => exact .cons (.mark _ _ hs) (ih hm hs)
    | power percent =>
      by_cases hknown : memo.power = some (analogValue percent)
      · simp only [lowered, Memo.lower, if_pos hknown, drawn]
        have hcore : o.core = some (analogValue percent) := hm.power _ hknown
        exact ih hm { hs with core := hcore }
      · simp only [lowered, Memo.lower, if_neg hknown, drawn]
        exact ih { hm with power := fun _ hv => hv } { hs with core := rfl }
    | ringPower percent =>
      by_cases hknown : memo.ringPower = some (analogValue percent)
      · simp only [lowered, Memo.lower, if_pos hknown, drawn]
        have hring : o.ring = some (analogValue percent) := hm.ringPower _ hknown
        exact ih hm { hs with ring := hring }
      · simp only [lowered, Memo.lower, if_neg hknown, drawn]
        exact ih { hm with ringPower := fun _ hv => hv } { hs with ring := rfl }
    | markSpeed speed =>
      by_cases hknown : memo.markSpeed.any (· == speedBits speed calibration) = true
      · simp only [lowered, Memo.lower, if_pos hknown, drawn]
        obtain ⟨old, hold, hbeq⟩ := (Option.any_eq_true ..).1 hknown
        have hspeed : o.speed = some old := hm.markSpeed _ hold
        refine ih hm { hs with speed := ?_ }
        rw [hspeed]
        exact .some (sameValue_of_beq hbeq)
      · simp only [lowered, Memo.lower, if_neg hknown, drawn]
        exact ih { hm with markSpeed := fun _ hv => hv } { hs with speed := .some (.refl _) }

end GalvoWeld.Card
