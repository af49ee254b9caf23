import GalvoWeld.Proofs.Number.Numerals

/-!
# The grammar of plotter text

A contour is written as commands with blanks around each. The reader takes a text apart in the only
way the grammar allows: no number goes on behind a comma or a semicolon, so that what it takes for a
command is one, and a command of the grammar is taken as it is.
-/

namespace GalvoWeld.Plot

open Number

/-! ### The grammar -/

inductive CommandText : List Char → ContourCommand → Prop
  | setUp : CommandText ['I', 'N', ';'] .setUp
  | jump {xs ys : List Char} {x y : Float} : Numeral xs x → Numeral ys y →
    CommandText ('P' :: 'U' :: (xs ++ ',' :: (ys ++ [';']))) (.jump ⟨x, y⟩)
  | mark {xs ys : List Char} {x y : Float} : Numeral xs x → Numeral ys y →
    CommandText ('P' :: 'D' :: (xs ++ ',' :: (ys ++ [';']))) (.mark ⟨x, y⟩)
  | power {text : List Char} {x : Float} : Numeral text x →
    CommandText ('P' :: 'W' :: (text ++ [';'])) (.power x)
  | markSpeed {text : List Char} {x : Float} : Numeral text x →
    CommandText ('V' :: 'S' :: (text ++ [';'])) (.markSpeed x)

/-- Spaces, tabs and line ends. -/
def Blanks (cs : List Char) : Prop := ∀ c ∈ cs, isSpace c = true

theorem blanks_nil : Blanks [] := nofun

theorem blanks_newline : Blanks ['\n'] := by
  rintro c hc
  obtain rfl := List.mem_singleton.1 hc
  rfl

/-- Nothing at all, or commands with blanks before and after each. -/
inductive ContourText : List Char → Contour → Prop
  | empty : ContourText [] []
  | command {before text after rest : List Char} {command : ContourCommand} {contour : Contour} :
    Blanks before → CommandText text command → Blanks after → ContourText rest contour →
    ContourText (before ++ text ++ after ++ rest) (command :: contour)

/-! ### What is taken is a command -/

theorem Taken.andThen_eq {α β : Type} {t : Taken α} {next : α → List Char → Taken β} {b : β}
    {rest : List Char} (h : t.andThen next = .taken b rest) :
    ∃ a mid, t = .taken a mid ∧ next a mid = .taken b rest := by
  cases t with
  | absent => cases h
  | unfinished text => cases h
  | taken a mid => exact ⟨a, mid, rfl, h⟩

theorem takeChar_eq {c : Char} {cs rest : List Char} {u : Unit}
    (h : takeChar c cs = .taken u rest) : c :: rest = cs := by
  cases cs with
  | nil => cases h
  | cons d cs =>
    rw [takeChar] at h
    split at h
    · next hd =>
      obtain ⟨-, rfl⟩ := Taken.taken.inj h
      rw [hd]
    · cases h

theorem takePair_eq {cs rest : List Char} {p : Point} (h : takePair cs = .taken p rest) :
    ∃ xs ys, Numeral xs p.x ∧ Numeral ys p.y ∧ xs ++ ',' :: (ys ++ rest) = cs := by
  obtain ⟨x, behindX, hx, h⟩ := Taken.andThen_eq h
  obtain ⟨u, behindComma, hcomma, h⟩ := Taken.andThen_eq h
  obtain ⟨y, behindY, hy, h⟩ := Taken.andThen_eq h
  obtain ⟨rfl, rfl⟩ := Taken.taken.inj h
  obtain ⟨xs, hxs, hcs⟩ := numeral_of_taken hx
  obtain ⟨ys, hys, hbehind⟩ := numeral_of_taken hy
  refine ⟨xs, ys, hxs, hys, ?_⟩
  rw [← hcs, ← takeChar_eq hcomma, ← hbehind]

theorem pair_of_taken {cs behind : List Char} {make : Point → ContourCommand}
    {taken : ContourCommand}
    (h : ((takePair cs).andThen fun p rest => .taken (make p) rest) =
      .taken taken (';' :: behind)) :
    ∃ xs ys x y, Numeral xs x ∧ Numeral ys y ∧ taken = make ⟨x, y⟩ ∧
      cs = (xs ++ ',' :: (ys ++ [';'])) ++ behind := by
  obtain ⟨p, mid, hp, h⟩ := Taken.andThen_eq h
  obtain ⟨rfl, rfl⟩ := Taken.taken.inj h
  obtain ⟨xs, ys, hx, hy, hcs⟩ := takePair_eq hp
  refine ⟨xs, ys, p.x, p.y, hx, hy, rfl, ?_⟩
  rw [← hcs]
  simp only [List.cons_append, List.append_assoc, List.nil_append]

theorem number_of_taken {cs behind : List Char} {make : Float → ContourCommand}
    {taken : ContourCommand}
    (h : ((takeNumber cs).andThen fun x rest => .taken (make x) rest) =
      .taken taken (';' :: behind)) :
    ∃ text x, Numeral text x ∧ taken = make x ∧ cs = (text ++ [';']) ++ behind := by
  obtain ⟨x, mid, hx, h⟩ := Taken.andThen_eq h
  obtain ⟨rfl, rfl⟩ := Taken.taken.inj h
  obtain ⟨text, htext, hcs⟩ := numeral_of_taken hx
  refine ⟨text, x, htext, rfl, ?_⟩
  rw [← hcs]
  simp only [List.append_assoc, List.cons_append, List.nil_append]

theorem commandText_of_taken {cs rest : List Char} {command : ContourCommand}
    (h : takeCommand cs = .taken command rest) :
    ∃ text, CommandText text command ∧ text ++ rest = cs := by
  obtain ⟨taken, behind, hbody, h⟩ := Taken.andThen_eq h
  obtain ⟨u, behindMark, hmark, h⟩ := Taken.andThen_eq h
  obtain ⟨rfl, rfl⟩ := Taken.taken.inj h
  obtain rfl := takeChar_eq hmark
  unfold takeBody at hbody
  split at hbody
  · obtain ⟨rfl, rfl⟩ := Taken.taken.inj hbody
    exact ⟨_, .setUp, rfl⟩
  · obtain ⟨xs, ys, x, y, hx, hy, rfl, rfl⟩ := pair_of_taken hbody
    exact ⟨_, .jump hx hy, rfl⟩
  · obtain ⟨xs, ys, x, y, hx, hy, rfl, rfl⟩ := pair_of_taken hbody
    exact ⟨_, .mark hx hy, rfl⟩
  · obtain ⟨text, x, hx, rfl, rfl⟩ := number_of_taken hbody
    exact ⟨_, .power hx, rfl⟩
  · obtain ⟨text, x, hx, rfl, rfl⟩ := number_of_taken hbody
    exact ⟨_, .markSpeed hx, rfl⟩
  · cases hbody

/-! ### A command is taken whole -/

theorem takePair_numerals {xs ys : List Char} {x y : Float} (hx : Numeral xs x)
    (hy : Numeral ys y) (rest : List Char) :
    takePair (xs ++ ',' :: (ys ++ ';' :: rest)) = .taken ⟨x, y⟩ (';' :: rest) := by
  have htakex := takeNumber_numeral hx bounds_comma (ys ++ ';' :: rest)
  have htakey := takeNumber_numeral hy bounds_semicolon rest
  simp only [takePair, htakex, Taken.andThen, takeChar, if_true, htakey]

theorem takeCommand_text {text : List Char} {command : ContourCommand}
    (h : CommandText text command) (rest : List Char) :
    takeCommand (text ++ rest) = .taken command rest := by
  cases h with
  | setUp => rfl
  | jump hx hy =>
    have hpair := takePair_numerals hx hy rest
    simp [takeCommand, takeBody, hpair, Taken.andThen, takeChar]
  | mark hx hy =>
    have hpair := takePair_numerals hx hy rest
    simp [takeCommand, takeBody, hpair, Taken.andThen, takeChar]
  | power hx =>
    have hnumber := takeNumber_numeral hx bounds_semicolon rest
    simp [takeCommand, takeBody, hnumber, Taken.andThen, takeChar]
  | markSpeed hx =>
    have hnumber := takeNumber_numeral hx bounds_semicolon rest
    simp [takeCommand, takeBody, hnumber, Taken.andThen, takeChar]

/-! ### Whole texts -/

theorem skipSpace_append {blanks : List Char} (h : Blanks blanks) (rest : List Char) :
    skipSpace (blanks ++ rest) = skipSpace rest :=
  List.dropWhile_append_of_pos h

theorem skipSpace_text {text : List Char} {command : ContourCommand}
    (h : CommandText text command) (rest : List Char) :
    skipSpace (text ++ rest) = text ++ rest := by
  cases h <;> rfl

theorem exists_blanks (cs : List Char) : ∃ blanks, Blanks blanks ∧ blanks ++ skipSpace cs = cs :=
  ⟨cs.takeWhile isSpace, fun _ => List.mem_takeWhile_imp, List.takeWhile_append_dropWhile⟩

/-- Whatever was read came from a text of the grammar. -/
theorem contourText_of_read (fuel : Nat) {done : Contour} {cs : List Char} {contour : Contour}
    (h : readCommands fuel done cs = .ok contour) :
    ∃ read, contour = done.reverse ++ read ∧ ContourText cs read := by
  induction fuel generalizing done cs with
  | zero => cases h
  | succ fuel ih =>
    rw [readCommands] at h
    split at h
    · next command rest htake =>
      obtain ⟨read, rfl, hread⟩ := ih h
      obtain ⟨text, htext, hcs⟩ := commandText_of_taken htake
      obtain ⟨before, hbefore, hskip⟩ := exists_blanks cs
      obtain ⟨after, hafter, hrest⟩ := exists_blanks rest
      refine ⟨command :: read, by simp, ?_⟩
      have hwhole : before ++ text ++ after ++ skipSpace rest = cs := by
        rw [← hskip, ← hcs, List.append_assoc, hrest, List.append_assoc]
      rw [← hwhole]
      exact .command hbefore htext hafter hread
    · cases h
    · split at h
      · next hend =>
        obtain rfl := Except.ok.inj h
        obtain rfl := List.isEmpty_iff.1 hend
        exact ⟨[], (List.append_nil _).symm, .empty⟩
      · cases h

theorem readCommands_command {fuel : Nat} {done : Contour} {cs rest : List Char}
    {command : ContourCommand} (h : takeCommand (skipSpace cs) = .taken command rest) :
    readCommands (fuel + 1) done cs = readCommands fuel (command :: done) (skipSpace rest) := by
  rw [readCommands, h]

theorem length_commandText {text : List Char} {command : ContourCommand}
    (h : CommandText text command) : 0 < text.length := by
  cases h <;> exact Nat.succ_pos _

/-- A text of the grammar is read to its end, also without the blanks in front of it. -/
theorem read_contourText {cs : List Char} {contour : Contour} (h : ContourText cs contour) :
    ∀ (fuel : Nat) (done : Contour), cs.length < fuel →
      readCommands fuel done cs = .ok (done.reverse ++ contour) ∧
      readCommands fuel done (skipSpace cs) = .ok (done.reverse ++ contour) := by
  induction h with
  | empty =>
    intro fuel done hfuel
    obtain ⟨fuel, rfl⟩ := Nat.exists_eq_succ_of_ne_zero (Nat.ne_of_gt hfuel)
    rw [List.append_nil]
    exact ⟨rfl, rfl⟩
  | @command before text after rest command contour hbefore htext hafter hrest ih =>
    intro fuel done hfuel
    obtain ⟨fuel, rfl⟩ := Nat.exists_eq_succ_of_ne_zero (Nat.ne_of_gt (Nat.zero_lt_of_lt hfuel))
    have hskip : skipSpace (before ++ text ++ after ++ rest) = text ++ (after ++ rest) := by
      rw [List.append_assoc, List.append_assoc, skipSpace_append hbefore, skipSpace_text htext]
    have htake := takeCommand_text htext (after ++ rest)
    have hlength := length_commandText htext
    have hfuel' : rest.length < fuel := by
      simp only [List.length_append] at hfuel
      omega
    obtain ⟨-, hread⟩ := ih fuel (command :: done) hfuel'
    rw [List.reverse_cons, List.append_assoc, List.singleton_append] at hread
    constructor
    · rw [readCommands_command (hskip ▸ htake), skipSpace_append hafter, hread]
    · rw [hskip, readCommands_command (skipSpace_text htext _ ▸ htake), skipSpace_append hafter,
        hread]

theorem readContour_of_contourText {cs : List Char} {contour : Contour}
    (h : ContourText cs contour) : readContour cs = .ok contour :=
  (read_contourText h _ [] (Nat.lt_succ_self _)).1

/-- A text is read exactly where the grammar makes it a contour, and then as this contour. -/
theorem read_iff_contourText (cs : List Char) (contour : Contour) :
    readContour cs = .ok contour ↔ ContourText cs contour := by
  constructor
  · intro h
    obtain ⟨read, rfl, hread⟩ := contourText_of_read _ h
    exact hread
  · exact readContour_of_contourText

end GalvoWeld.Plot
