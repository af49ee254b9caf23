import GalvoWeld.Device.Network
import GalvoWeld.Proofs.Contour.Grammar
import GalvoWeld.Proofs.Number.Places
import GalvoWeld.Proofs.Device.Preview

/-!
# A staged contour reads back

The text of a contour is one of the grammar: each line is a command with a line end behind it. What
comes out of it are the commands that have a line, and in them for each number the double nearest to
its text.
-/

namespace GalvoWeld

open Number

def ContourCommand.numbers : ContourCommand → List Float
  | .setUp => []
  | .mark p | .jump p => [p.x, p.y]
  | .power x | .ringPower x | .markSpeed x => [x]

def ContourCommand.isRingPower : ContourCommand → Bool
  | .ringPower _ => true
  | _ => false

namespace Plot

/-- What is read for a command that was written. -/
inductive ReadAs : ContourCommand → ContourCommand → Prop
  | setUp : ReadAs .setUp .setUp
  | mark {p q : Point} : ReadBack p.x q.x → ReadBack p.y q.y → ReadAs (.mark p) (.mark q)
  | jump {p q : Point} : ReadBack p.x q.x → ReadBack p.y q.y → ReadAs (.jump p) (.jump q)
  | power {x y : Float} : ReadBack x y → ReadAs (.power x) (.power y)
  | markSpeed {x y : Float} : ReadBack x y → ReadAs (.markSpeed x) (.markSpeed y)

/-! ### Lines are commands of the grammar -/

theorem commandText_line {command : ContourCommand} {line : List Char}
    (hfinite : ∀ x ∈ command.numbers, x.isFinite = true)
    (hline : commandChars command = some line) :
    ∃ read, CommandText line read ∧ ReadAs command read := by
  cases command with
  | setUp =>
    obtain rfl := Option.some.inj hline
    exact ⟨.setUp, .setUp, .setUp⟩
  | mark p =>
    obtain rfl := Option.some.inj hline
    obtain ⟨x, hx, hbackx⟩ := numeral_fixedChars (hfinite p.x (by simp [ContourCommand.numbers]))
    obtain ⟨y, hy, hbacky⟩ := numeral_fixedChars (hfinite p.y (by simp [ContourCommand.numbers]))
    refine ⟨.mark ⟨x, y⟩, ?_, .mark hbackx hbacky⟩
    rw [pairChars, List.append_assoc, List.cons_append]
    exact .mark hx hy
  | jump p =>
    obtain rfl := Option.some.inj hline
    obtain ⟨x, hx, hbackx⟩ := numeral_fixedChars (hfinite p.x (by simp [ContourCommand.numbers]))
    obtain ⟨y, hy, hbacky⟩ := numeral_fixedChars (hfinite p.y (by simp [ContourCommand.numbers]))
    refine ⟨.jump ⟨x, y⟩, ?_, .jump hbackx hbacky⟩
    rw [pairChars, List.append_assoc, List.cons_append]
    exact .jump hx hy
  | power x =>
    obtain rfl := Option.some.inj hline
    obtain ⟨y, hy, hback⟩ := numeral_fixedChars (hfinite x (List.mem_singleton_self x))
    exact ⟨.power y, .power hy, .power hback⟩
  | markSpeed x =>
    obtain rfl := Option.some.inj hline
    obtain ⟨y, hy, hback⟩ := numeral_fixedChars (hfinite x (List.mem_singleton_self x))
    exact ⟨.markSpeed y, .markSpeed hy, .markSpeed hback⟩
  | ringPower x => cases hline

theorem isRingPower_of_commandChars {command : ContourCommand} :
    command.isRingPower = true ↔ commandChars command = none := by
  cases command <;> simp [ContourCommand.isRingPower, commandChars]

theorem contourText_lines {contour : Contour}
    (hfinite : ∀ command ∈ contour, ∀ x ∈ command.numbers, x.isFinite = true) :
    ∃ read, ContourText (contour.flatMap lineChars) read ∧
      List.Forall₂ ReadAs (contour.filter fun command => !command.isRingPower) read := by
  induction contour with
  | nil => exact ⟨[], .empty, .nil⟩
  | cons command rest ih =>
    obtain ⟨read, hread, hall⟩ := ih fun c hm => hfinite c (List.mem_cons_of_mem _ hm)
    rw [List.flatMap_cons, List.filter_cons]
    cases hc : commandChars command with
    | none =>
      have hring := isRingPower_of_commandChars.2 hc
      have hline : lineChars command = [] := by rw [lineChars, hc]
      rw [hline, hring]
      exact ⟨read, hread, hall⟩
    | some line =>
      have hring : command.isRingPower = false := by
        rw [← Bool.not_eq_true, isRingPower_of_commandChars, hc]
        exact Option.some_ne_none line
      have hline : lineChars command = [] ++ line ++ ['\n'] := by
        rw [lineChars, hc, List.nil_append]
      obtain ⟨taken, htext, has⟩ := commandText_line (hfinite command (List.mem_cons_self ..)) hc
      rw [hline, hring]
      exact ⟨taken :: read, .command blanks_nil htext blanks_newline hread, .cons has hall⟩

/-- The text of a contour of finite numbers is read as the same commands in the same order, but for
the power of the ring, and each number as the double nearest to its three places. -/
theorem readContour_contourText {contour : Contour}
    (hfinite : ∀ command ∈ contour, ∀ x ∈ command.numbers, x.isFinite = true) :
    ∃ read, readContour (contourText contour).toList = .ok read ∧
      List.Forall₂ ReadAs (contour.filter fun command => !command.isRingPower) read := by
  obtain ⟨read, htext, hall⟩ := contourText_lines hfinite
  refine ⟨read, ?_, hall⟩
  rw [contourText, String.toList_ofList]
  exact readContour_of_contourText htext

end Plot

/-- A contour of finite numbers that was staged is read back. Staging it in memory never fails. -/
theorem staged_contour_reads_back (stage : PlotStage) {contour : Contour} (disk : Disk)
    (hfinite : ∀ command ∈ contour, ∀ x ∈ command.numbers, x.isFinite = true) :
    (stage.file = none → (stage.put contour disk).1 = .ok ()) ∧
    ∀ stage' disk', stage.put contour disk = (.ok (), disk', stage') →
      ∃ read, Plot.readContour stage'.text.toList = .ok read ∧
        List.Forall₂ Plot.ReadAs (contour.filter fun command => !command.isRingPower) read := by
  constructor
  · intro hmemory
    rw [PlotStage.put, hmemory]
  · intro stage' disk' hput
    rw [NetworkDevice.text_of_put hput]
    exact Plot.readContour_contourText hfinite

/-- A contour with the power of the ring and a number that is written as `-0.000`. -/
def benchContour : Contour :=
  [.setUp, .jump ⟨1, 2⟩, .markSpeed 100, .power 50, .ringPower 10, .mark ⟨3.25, -0.0004⟩]

theorem bench_contour_reads_back :
    ∃ read, Plot.readContour
      ((⟨none, ""⟩ : PlotStage).put benchContour ⟨[], []⟩).2.2.text.toList = .ok read ∧
        List.Forall₂ Plot.ReadAs
          (benchContour.filter fun command => !command.isRingPower) read := by
  have hfinite : ∀ command ∈ benchContour, ∀ x ∈ command.numbers, x.isFinite = true := by
    decide +kernel
  exact (staged_contour_reads_back ⟨none, ""⟩ ⟨[], []⟩ hfinite).2 _ _ rfl

end GalvoWeld
