import GalvoWeld.Contour.Plot
import GalvoWeld.Seam.Contour

/-!
# The contour of a preview

In a preview both powers are set to 0 before the first mark and to nothing else. In the plotter text
of such a contour the laser is switched off ahead of the first mark and never on.
-/

namespace GalvoWeld

/-- Whatever stands behind a front that does not hold it stands behind all of the front. -/
theorem prefix_of_not_mem {α : Type} {first rest front back : List α} {a : α}
    (ha : a ∉ first) (h : first ++ rest = front ++ a :: back) : first <+: front := by
  rcases List.append_eq_append_iff.1 h with ⟨more, hfront, -⟩ | ⟨more, hfirst, hback⟩
  · exact ⟨more, hfront.symm⟩
  · cases more with
    | nil =>
      rw [List.append_nil] at hfirst
      exact ⟨[], hfirst ▸ List.append_nil front⟩
    | cons b more =>
      obtain rfl := (List.cons.inj hback).1
      exact absurd (hfirst ▸ List.mem_append_right front (List.mem_cons_self ..)) ha

/-! ### Its commands -/

theorem preview_commands {calibration laserDelay : Float} {offset : Point}
    {points : List FigurePoint} {contour : Contour}
    (hc : contourOfPoints calibration laserDelay offset true points = some contour) :
    ∃ start marks, contour = .setUp :: .jump start :: .power 0 :: .ringPower 0 :: marks := by
  cases points with
  | nil => cases hc
  | cons first rest => exact ⟨_, _, (Option.some.inj hc).symm⟩

theorem power_of_preview {calibration laserDelay : Float} {offset : Point}
    {points : List FigurePoint} {contour : Contour} {percent : Float}
    (hc : contourOfPoints calibration laserDelay offset true points = some contour)
    (hm : .power percent ∈ contour ∨ .ringPower percent ∈ contour) : percent = 0 := by
  cases points with
  | nil => cases hc
  | cons first rest =>
    obtain rfl := Option.some.inj hc
    simpa [markCommands] using hm

namespace Plot

open Number

/-! ### Lines of plotter text -/

/-- The lines of a text. The last is what follows the last line end. -/
def textLines (text : String) : List (List Char) := text.toList.splitOn '\n'

theorem newline_not_mem_fixedChars (x : Float) : '\n' ∉ fixedChars x := by
  have hsign : ∀ negative, '\n' ∉ signChars negative := by decide
  have hdigit : ∀ n, '\n' ∉ Nat.toDigits 10 n := by
    intro n hm
    have hd := Nat.isDigit_of_mem_toDigits (by decide) (by decide) hm
    exact absurd hd (by decide)
  have hplace : ∀ n, n < 10 → '\n' ≠ Nat.digitChar n := by decide
  have hthree : ∀ n, '\n' ∉ threeDigits n := by
    intro n
    have hhundreds := hplace (n / 100 % 10) (Nat.mod_lt _ (by decide))
    have htens := hplace (n / 10 % 10) (Nat.mod_lt _ (by decide))
    have hones := hplace (n % 10) (Nat.mod_lt _ (by decide))
    simp [threeDigits, hhundreds, htens, hones]
  unfold fixedChars
  cases (Exact.ofFloat x).thousandths with
  | notANumber => decide
  | infinite negative => cases negative <;> decide
  | count negative thousandths =>
    simp [Thousandths.chars, hsign, hdigit, hthree]

theorem newline_not_mem_commandChars {command : ContourCommand} {line : List Char}
    (hc : commandChars command = some line) : '\n' ∉ line := by
  have hnumber := newline_not_mem_fixedChars
  cases command with
  | ringPower percent => cases hc
  | _ =>
    obtain rfl := Option.some.inj hc
    simp [pairChars, hnumber]

theorem textLines_contourText (contour : Contour) :
    textLines (contourText contour) = contour.filterMap commandChars ++ [[]] := by
  unfold textLines contourText
  rw [String.toList_ofList]
  induction contour with
  | nil => rfl
  | cons command rest ih =>
    rw [List.flatMap_cons, List.filterMap_cons, lineChars]
    cases hc : commandChars command with
    | none => exact ih
    | some line =>
      have hline : ∀ c ∈ line, (c == '\n') = false := by
        intro c hm
        have hne : c ≠ '\n' := fun h => newline_not_mem_commandChars hc (h ▸ hm)
        exact beq_false_of_ne hne
      simp only [List.append_assoc, List.cons_append, List.nil_append, List.splitOn] at ih ⊢
      rw [List.splitOnP_append_cons_of_forall_mem hline '\n' rfl, ih]

/-! ### Texts that keep the laser off -/

def offLine : List Char := ['P', 'W', '0', '.', '0', '0', '0', ';']

/-- No line sets a power but 0, and one does so before the first mark. -/
structure Dark (text : String) : Prop where
  powers : ∀ line ∈ textLines text, ['P', 'W'] <+: line → line = offLine
  leads : ∀ front line back, textLines text = front ++ line :: back → ['P', 'D'] <+: line →
    offLine ∈ front

theorem powerChars_zero : commandChars (.power 0) = some offLine := by decide +kernel

theorem dark_contourText {calibration laserDelay : Float} {offset : Point}
    {points : List FigurePoint} {contour : Contour}
    (hc : contourOfPoints calibration laserDelay offset true points = some contour) :
    Dark (contourText contour) := by
  have hlines := textLines_contourText contour
  constructor
  · intro line hm hpower
    rw [hlines] at hm
    rcases List.mem_append.1 hm with hcommand | hlast
    · obtain ⟨command, hin, hchars⟩ := List.mem_filterMap.1 hcommand
      cases command with
      | power percent =>
        obtain rfl := power_of_preview hc (.inl hin)
        exact Option.some.inj (hchars.symm.trans powerChars_zero)
      | ringPower percent => cases hchars
      | _ =>
        obtain rfl := Option.some.inj hchars
        simp at hpower
    · obtain rfl := List.mem_singleton.1 hlast
      simp at hpower
  · intro front line back hsplit hmark
    obtain ⟨start, marks, rfl⟩ := preview_commands hc
    have hfirst :
        textLines (contourText (.setUp :: .jump start :: .power 0 :: .ringPower 0 :: marks)) =
        [['I', 'N', ';'], 'P' :: 'U' :: (pairChars start ++ [';']), offLine] ++
          (marks.filterMap commandChars ++ [[]]) := by
      rw [hlines]
      simp only [List.filterMap_cons, powerChars_zero]
      rfl
    have hnot : line ∉ [['I', 'N', ';'], 'P' :: 'U' :: (pairChars start ++ [';']), offLine] := by
      intro hm
      simp only [List.mem_cons, List.not_mem_nil, or_false] at hm
      rcases hm with rfl | rfl | rfl <;> simp [offLine] at hmark
    have hahead := prefix_of_not_mem hnot (hfirst.symm.trans hsplit)
    exact hahead.subset (by simp)

end Plot

end GalvoWeld
