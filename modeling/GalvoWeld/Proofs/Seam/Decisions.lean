import Mathlib.Data.List.Induction
import GalvoWeld.Proofs.Seam.Wobbling
import GalvoWeld.Proofs.Wobble.Vectors

/-!
# Decisions about wobbling

Whether a seam is wobbled is decided again and again: by request, and when a wobble figure is loaded
for a prepared seam. A free wobbling stands for the last decision that did not fail. Its vectors are
those of that decision as long as none has failed since; a decision that fails leaves no vectors,
and the wobbling as it was.
-/

namespace GalvoWeld

open Wobble (Compensation Setup)

namespace Seam

/-! ### One decision -/

abbrev Decision := Except Fault Setup × Seam

/-- The decision ended in a fault that ends the seam. -/
def Decision.Failed (d : Decision) : Prop :=
  ∃ fault : Wobble.Fault, d.1 = .error (.wobble fault) ∧ fault.isFatal = true

/-- What deciding comes to: a wobbling, which has its vectors if it is free, or a fatal fault, which
takes the vectors away and leaves the wobbling as it was. -/
inductive Resolves (s : Seam) : Decision → Prop
  | decides {t : Seam} {setup : Setup} (hwobble : t.wobble = setup)
      (hvectors : ∀ modulation, setup = .free modulation → t.compensation.Complete) :
      Resolves s (.ok setup, t)
  | fails {t : Seam} {fault : Wobble.Fault} (hfatal : fault.isFatal = true)
      (hwobble : t.wobble = s.wobble) (hvectors : t.compensation = .cleared) :
      Resolves s (.error (.wobble fault), t)

theorem complete_of_defineWobble {s t : Seam} {mode : Wobble.Mode} {modulation : Modulation}
    (hd : s.defineWobble mode = (.ok (.free modulation), t)) : t.compensation.Complete := by
  cases mode with
  | off => simp [defineWobble] at hd
  | basic shape => simp [defineWobble] at hd
  | free =>
    obtain ⟨figure, hfree, -, hvectors⟩ := defineWobble_free_vectors hd
    obtain ⟨-, hsize, -⟩ := freeFigure_ok hfree
    exact Compensation.complete_of_define hsize hvectors

theorem cleared_of_defineWobble {s t : Seam} {mode : Wobble.Mode} {fault : Wobble.Fault}
    (hd : s.defineWobble mode = (.error fault, t)) : t.compensation = .cleared := by
  cases mode with
  | off => simp [defineWobble] at hd
  | basic shape => simp [defineWobble] at hd
  | free =>
    unfold defineWobble at hd
    simp only at hd
    split at hd
    · obtain rfl := (Prod.mk.inj hd).2
      rfl
    · next figure hfree =>
      cases hv : defineVectors { s with compensation := .cleared } figure figure.modulation with
      | mk result u =>
        rw [hv] at hd
        cases result with
        | ok => simp at hd
        | error fault' =>
          obtain rfl := (Prod.mk.inj hd).2
          simp only [defineVectors, Prod.mk.injEq] at hv
          obtain ⟨hfault, rfl⟩ := hv
          exact Compensation.cleared_of_define (Prod.ext hfault rfl)

theorem resolves (s : Seam) : s.Resolves s.resolveWobble := by
  have hdefine := s.defineWobble_eq s.data.wobbleMode
  unfold resolveWobble
  cases hd : s.defineWobble s.data.wobbleMode with
  | mk result t =>
    rw [hd] at hdefine
    simp only at hdefine
    cases result with
    | ok setup =>
      refine .decides rfl fun modulation hsetup => ?_
      subst hsetup
      have hcomplete : t.compensation.Complete := complete_of_defineWobble hd
      exact hcomplete
    | error fault =>
      by_cases hfatal : fault.isFatal = true
      · simp only [if_pos hfatal]
        exact .fails hfatal (by rw [hdefine]) (cleared_of_defineWobble hd)
      · simp only [if_neg hfatal]
        exact .decides rfl nofun

/-- What loading a wobble figure comes to: the file is not read, or its figure is attached only, or
it is also decided about. -/
inductive Loads (s : Seam) (disk : Disk) (path : String) : Except Fault Unit × Seam → Prop
  | unread {fault : Fault} (hload : Figure.load disk path = .error fault) :
      Loads s disk path (.error fault, { s with wobbleFigure := none, wobble := .off })
  | attached {figure : Figure} (hload : Figure.load disk path = .ok figure)
      (hstage : s.stage ≠ .prepared) : Loads s disk path (.ok (), s.attachWobble figure)
  | rejected {figure : Figure} {fault : Fault} {t : Seam}
      (hload : Figure.load disk path = .ok figure) (hstage : s.stage = .prepared)
      (hdecision : (s.attachWobble figure).resolveWobble = (.error fault, t)) :
      Loads s disk path (.error fault, t)
  | defined {figure : Figure} {setup : Setup} {t : Seam}
      (hload : Figure.load disk path = .ok figure) (hstage : s.stage = .prepared)
      (hdecision : (s.attachWobble figure).resolveWobble = (.ok setup, t)) :
      Loads s disk path (.ok (), { t with stage := .wobbleDefined })

theorem loads (s : Seam) (disk : Disk) (path : String) :
    s.Loads disk path (s.loadWobble disk path) := by
  unfold loadWobble
  cases hload : Figure.load disk path with
  | error fault => exact .unread hload
  | ok figure =>
    simp only
    split
    · next hstage =>
      cases hd : (s.attachWobble figure).resolveWobble with
      | mk result t =>
        have hsame : resolveWobble { s with wobbleFigure := some figure } = (result, t) := hd
        rw [hsame]
        cases result with
        | error fault => exact .rejected hload hstage hd
        | ok setup => exact .defined hload hstage hd
    · next hstage => exact .attached hload hstage

/-! ### Operations on a seam -/

inductive Action where
  | prepare (data : SeamData) (figure : Figure)
  | attachWobble (figure : Option Figure)
  | loadWobble (disk : Disk) (path : String)
  | resolveWobble
  /-- Compiles the contour, which leaves the seam as it is. -/
  | contour
  | reset

def act (s : Seam) : Action → Seam
  | .prepare data figure => s.prepare data figure
  | .attachWobble figure => s.attachWobble figure
  | .loadWobble disk path => (s.loadWobble disk path).2
  | .resolveWobble => s.resolveWobble.2
  | .contour => s
  | .reset => s.reset

/-- The seam after these operations, whether they succeed or not. -/
def after (s : Seam) (actions : List Action) : Seam := actions.foldl act s

def decision? (s : Seam) : Action → Option Decision
  | .loadWobble disk path =>
    match Figure.load disk path with
    | .error _ => none
    | .ok figure =>
      if s.stage = .prepared then some (s.attachWobble figure).resolveWobble else none
  | .resolveWobble => some s.resolveWobble
  | _ => none

/-- The decisions that operations make, the last one at the end. -/
def decisions (s : Seam) : List Action → List Decision
  | [] => []
  | action :: rest => (s.decision? action).toList ++ (s.act action).decisions rest

theorem after_snoc (s : Seam) (actions : List Action) (action : Action) :
    s.after (actions ++ [action]) = (s.after actions).act action := by
  rw [after, List.foldl_append]
  rfl

theorem decisions_snoc (s : Seam) (actions : List Action) (action : Action) :
    s.decisions (actions ++ [action]) =
      s.decisions actions ++ ((s.after actions).decision? action).toList := by
  induction actions generalizing s with
  | nil => simp [decisions, after]
  | cons first rest ih =>
    simp only [List.cons_append, decisions, ih, List.append_assoc]
    rfl

/-! ### What a free wobbling stands for -/

/-- A free wobbling is the result of the last decision that did not fail. It has the vectors of this
decision, which are complete, unless a decision has failed since: then there are none. -/
def Stands (ds : List Decision) (s : Seam) : Prop :=
  ∀ modulation, s.wobble = .free modulation → ∃ earlier t failures,
    ds = earlier ++ (.ok (.free modulation), t) :: failures ∧
      (∀ d ∈ failures, Decision.Failed d) ∧ t.compensation.Complete ∧
      (failures = [] → s.compensation = t.compensation) ∧
      (failures ≠ [] → s.compensation = .cleared)

variable {ds : List Decision} {s u v : Seam}

theorem stands_off (hoff : v.wobble = .off) : Stands ds v := by
  intro modulation hw
  rw [hoff] at hw
  cases hw

theorem Stands.keep (hs : Stands ds s) (hwobble : v.wobble = s.wobble)
    (hvectors : v.compensation = s.compensation) : Stands ds v := by
  unfold Stands
  rw [hwobble, hvectors]
  exact hs

theorem Stands.decide (hs : Stands ds s) {d : Decision} (hstart : u.wobble = s.wobble)
    (hd : u.Resolves d) (hwobble : v.wobble = d.2.wobble)
    (hvectors : v.compensation = d.2.compensation) : Stands (ds ++ [d]) v := by
  intro modulation hw
  cases hd with
  | @decides t setup hsetup hcomplete =>
    obtain rfl : setup = .free modulation := hsetup.symm.trans (hwobble.symm.trans hw)
    refine ⟨ds, t, [], rfl, ?_, hcomplete modulation rfl, fun _ => hvectors, ?_⟩
    · exact fun d hm => absurd hm List.not_mem_nil
    · exact fun hsome => absurd rfl hsome
  | @fails t fault hfatal hkept hcleared =>
    -- the wobbling is that of before, with one failure more since its decision
    have hbefore : s.wobble = .free modulation :=
      hstart.symm.trans (hkept.symm.trans (hwobble.symm.trans hw))
    obtain ⟨earlier, t', failures, hds, hfailed, hcomplete, -, -⟩ := hs modulation hbefore
    refine ⟨earlier, t', failures ++ [(.error (.wobble fault), t)], ?_, ?_, hcomplete, ?_, ?_⟩
    · rw [hds, List.append_assoc, List.cons_append]
    · intro d hm
      rcases List.mem_append.1 hm with hold | hnew
      · exact hfailed d hold
      · obtain rfl := List.mem_singleton.1 hnew
        exact ⟨fault, rfl, hfatal⟩
    · exact fun hnil => absurd hnil (by simp)
    · exact fun _ => hvectors.trans hcleared

theorem Stands.act (hs : Stands ds s) (action : Action) :
    Stands (ds ++ (s.decision? action).toList) (s.act action) := by
  cases action with
  | prepare data figure => exact stands_off rfl
  | reset => exact stands_off rfl
  | attachWobble figure =>
    simp only [decision?, Option.toList_none, List.append_nil]
    exact hs.keep rfl rfl
  | contour =>
    simp only [decision?, Option.toList_none, List.append_nil]
    exact hs
  | resolveWobble => exact hs.decide rfl s.resolves rfl rfl
  | loadWobble disk path =>
    have hload := s.loads disk path
    have hact : s.act (.loadWobble disk path) = (s.loadWobble disk path).2 := rfl
    rw [hact]
    generalize s.loadWobble disk path = outcome at hload ⊢
    cases hload with
    | unread hread => exact stands_off rfl
    | attached hread hstage =>
      simp only [decision?, hread, if_neg hstage, Option.toList_none, List.append_nil]
      exact hs.keep rfl rfl
    | @rejected figure fault t hread hstage hdecision =>
      simp only [decision?, hread, if_pos hstage, Option.toList_some]
      refine hs.decide (u := s.attachWobble figure) rfl (resolves _) ?_ ?_ <;> rw [hdecision]
    | @defined figure setup t hread hstage hdecision =>
      simp only [decision?, hread, if_pos hstage, Option.toList_some]
      refine hs.decide (u := s.attachWobble figure) rfl (resolves _) ?_ ?_ <;> rw [hdecision]

theorem stands_after (config : Config) (actions : List Action) :
    Stands (decisions { config } actions) (after { config } actions) := by
  induction actions using List.reverseRecOn with
  | nil => exact stands_off rfl
  | append_singleton actions action ih =>
    rw [decisions_snoc, after_snoc]
    exact ih.act action

/-- Whatever was done with a new seam, each operation succeeding or not: a free wobbling is the
result of the last decision that did not fail, which left complete vectors. The seam still has them
if and only if no decision has failed since; otherwise it has none. -/
theorem compensation_of_free_wobble {config : Config} {actions : List Action} {s : Seam}
    {modulation : Modulation} (hs : s = after { config } actions)
    (hw : s.wobble = .free modulation) :
    ∃ earlier t failures,
      decisions { config } actions = earlier ++ (.ok (.free modulation), t) :: failures ∧
      (∀ d ∈ failures, Decision.Failed d) ∧ t.compensation.Complete ∧
      (s.compensation = t.compensation ↔ failures = []) ∧
      (failures ≠ [] → s.compensation = .cleared) := by
  subst hs
  obtain ⟨earlier, t, failures, hds, hfailed, hcomplete, hkept, hcleared⟩ :=
    stands_after config actions modulation hw
  refine ⟨earlier, t, failures, hds, hfailed, hcomplete, ⟨fun hsame => ?_, hkept⟩, hcleared⟩
  refine Decidable.byContradiction fun hsome => ?_
  rw [hcleared hsome] at hsame
  exact Compensation.not_complete_cleared (hsame ▸ hcomplete)

/-! ### A seam with and without vectors -/

def coreTriangle : Figure :=
  Figure.ofPoints [⟨⟨0, 0⟩, 0, 0, 0⟩, ⟨⟨0.1, 0⟩, 0.1, 0, 0⟩, ⟨⟨0, 0.1⟩, 0, 0, 0⟩]

/-- It modulates the ring, which is refused without a nominal power there. -/
def ringTriangle : Figure := { coreTriangle with modulationMask := 2 }

def triangleActions : List Action :=
  [.prepare { power := 0.5, wobbleMode := .free } (Figure.ofPoints [⟨⟨0, 0⟩, 0.5, 0, 100⟩]),
    .attachWobble coreTriangle, .resolveWobble]

theorem triangle_compensation :
    (after { config := {} } triangleActions).wobble = .free (.single .core) ∧
    ∃ earlier t failures, decisions { config := {} } triangleActions =
        earlier ++ (.ok (.free (.single .core)), t) :: failures ∧
      (∀ d ∈ failures, Decision.Failed d) ∧ t.compensation.Complete ∧
      ((after { config := {} } triangleActions).compensation = t.compensation ↔ failures = []) ∧
      (failures ≠ [] → (after { config := {} } triangleActions).compensation = .cleared) := by
  have hw : (after { config := {} } triangleActions).wobble = .free (.single .core) := by
    decide +kernel
  exact ⟨hw, compensation_of_free_wobble rfl hw⟩

/-- It is not so that a free wobbling always has its vectors: the second triangle is refused. -/
theorem free_without_vectors :
    ¬ ∀ (config : Config) (actions : List Action) (modulation : Modulation),
      (after { config } actions).wobble = .free modulation →
      (after { config } actions).compensation.Complete := by
  intro hall
  let actions := triangleActions ++ [.attachWobble ringTriangle, .resolveWobble]
  have hw : (after { config := {} } actions).wobble = .free (.single .core) := by decide +kernel
  have hnone : (after { config := {} } actions).compensation.segments = 0 := by decide +kernel
  have hsome := (hall {} actions (.single .core) hw).some_segment
  omega

end Seam

end GalvoWeld
