import GalvoWeld.Contour.PlotReader
import GalvoWeld.Proofs.Number.Decimals

/-!
# The grammar of numbers

A number is a decimal, an optional sign, digits with an optional point among or around them and an
optional exponent, or one of the names of NaN and infinity. A decimal stands for the double that its
value is rounded to. The reader takes the longest number that stands at the head of a text. That is
the number of the grammar wherever a character follows that could not continue it.
-/

namespace GalvoWeld.Number

open Plot (Taken takeNumber)

/-! ### The grammar -/

inductive Sign : List Char → Bool → Prop
  | none : Sign [] false
  | plus : Sign ['+'] false
  | minus : Sign ['-'] true

/-- Digits before and behind an optional point. -/
inductive Significand : List Char → List Char → List Char → Prop
  | whole {digits : List Char} : digits ≠ [] → (∀ c ∈ digits, isDigit c = true) →
    Significand digits digits []
  | pointed {digits places : List Char} : digits ≠ [] ∨ places ≠ [] →
    (∀ c ∈ digits, isDigit c = true) → (∀ c ∈ places, isDigit c = true) →
    Significand (digits ++ '.' :: places) digits places

inductive Exponent : List Char → Int → Prop
  | none : Exponent [] 0
  | marked {mark : Char} {sign digits : List Char} {negative : Bool} :
    mark = 'e' ∨ mark = 'E' → Sign sign negative → digits ≠ [] →
    (∀ c ∈ digits, isDigit c = true) →
    Exponent (mark :: (sign ++ digits))
      (if negative then -(digitsValue digits : Int) else digitsValue digits)

/-- A decimal: its digits as one whole number, and the power of ten that goes with it. -/
inductive DecimalText : List Char → Decimal → Prop
  | mk {sign body digits places tail : List Char} {negative : Bool} {e : Int} :
    Sign sign negative → Significand body digits places → Exponent tail e →
    DecimalText (sign ++ body ++ tail)
      ⟨negative, digitsValue (digits ++ places), e - (places.length : Int)⟩

/-- The text of a number and the number. -/
inductive Numeral : List Char → Float → Prop
  | decimal {text : List Char} {d : Decimal} {x : Float} : DecimalText text d →
    RoundsToDouble d.negative d.value x → Numeral text x
  | notANumber {text : List Char} : text.map Char.toLower = ['n', 'a', 'n'] →
    Numeral text notANumber
  | infinity {text : List Char} : text.map Char.toLower = ['i', 'n', 'f'] →
    Numeral text (infinity false)

/-- A character that cannot continue a number. -/
structure Bounds (c : Char) : Prop where
  notDigit : isDigit c = false
  notPoint : c ≠ '.'
  notMark : ¬ (c = 'e' ∨ c = 'E')

theorem DecimalText.plain {sign body digits places : List Char} {negative : Bool}
    (hsign : Sign sign negative) (hbody : Significand body digits places) :
    DecimalText (sign ++ body)
      ⟨negative, digitsValue (digits ++ places), -(places.length : Int)⟩ := by
  have h := DecimalText.mk hsign hbody .none
  rwa [List.append_nil, Int.zero_sub] at h

/-! ### What is taken is a number -/

theorem spanDigits_eq (cs : List Char) : (spanDigits cs).1 ++ (spanDigits cs).2 = cs :=
  List.takeWhile_append_dropWhile

theorem isDigit_of_mem_spanDigits {cs : List Char} {c : Char} (h : c ∈ (spanDigits cs).1) :
    isDigit c = true :=
  List.mem_takeWhile_imp h

theorem sign_spanSign (cs : List Char) :
    ∃ sign, Sign sign (spanSign cs).1 ∧ sign ++ (spanSign cs).2 = cs := by
  unfold spanSign
  split
  · exact ⟨_, .minus, rfl⟩
  · exact ⟨_, .plus, rfl⟩
  · exact ⟨_, .none, rfl⟩

theorem significand_lexDigits {cs digits places rest : List Char}
    (h : lexDigits? cs = some (digits, places, rest)) :
    ∃ body, Significand body digits places ∧ body ++ rest = cs := by
  have hsplit := spanDigits_eq cs
  have hdigits : ∀ c ∈ (spanDigits cs).1, isDigit c = true := fun _ => isDigit_of_mem_spanDigits
  unfold lexDigits? at h
  generalize spanDigits cs = span at h hsplit hdigits
  obtain ⟨whole, afterWhole⟩ := span
  simp only at h hsplit hdigits
  split at h
  · next afterPoint =>
    have hpoint := spanDigits_eq afterPoint
    have hplaces : ∀ c ∈ (spanDigits afterPoint).1, isDigit c = true :=
      fun _ => isDigit_of_mem_spanDigits
    generalize spanDigits afterPoint = span at h hpoint hplaces
    obtain ⟨found, behind⟩ := span
    split at h
    · cases h
    · next hsome =>
      simp only [Option.some.injEq, Prod.mk.injEq] at h
      obtain ⟨rfl, rfl, rfl⟩ := h
      refine ⟨_, .pointed ?_ hdigits hplaces, ?_⟩
      · simpa [or_iff_not_imp_left] using hsome
      · rw [List.append_assoc, List.cons_append, hpoint, hsplit]
  · split at h
    · cases h
    · next hsome =>
      simp only [Option.some.injEq, Prod.mk.injEq] at h
      obtain ⟨rfl, rfl, rfl⟩ := h
      exact ⟨_, .whole (by simpa using hsome) hdigits, hsplit⟩

theorem decimalText_ofChars {cs rest : List Char} {d : Decimal}
    (h : Lexed.ofChars cs = .found d rest) : ∃ text, DecimalText text d ∧ text ++ rest = cs := by
  obtain ⟨sign, hsign, hcs⟩ := sign_spanSign cs
  unfold Lexed.ofChars at h
  simp only at h
  split at h
  · cases h
  · next digits places behind hlex =>
    obtain ⟨body, hbody, hbehind⟩ := significand_lexDigits hlex
    rw [← hcs, ← hbehind]
    split at h
    · next mark afterMark =>
      split at h
      · next hmark =>
        obtain ⟨below, hbelow, hafter⟩ := sign_spanSign afterMark
        split at h
        · cases h
        · next hdigits =>
          simp only [Lexed.found.injEq] at h
          obtain ⟨rfl, rfl⟩ := h
          refine ⟨_, .mk hsign hbody (.marked hmark hbelow (by simpa using hdigits)
            fun _ => isDigit_of_mem_spanDigits), ?_⟩
          rw [List.append_assoc, List.append_assoc, List.cons_append, List.append_assoc,
            spanDigits_eq, hafter]
      · simp only [Lexed.found.injEq] at h
        obtain ⟨rfl, rfl⟩ := h
        exact ⟨_, .plain hsign hbody, List.append_assoc ..⟩
    · simp only [Lexed.found.injEq] at h
      obtain ⟨rfl, rfl⟩ := h
      exact ⟨_, .plain hsign hbody, List.append_assoc ..⟩

theorem dropWord_eq {word cs rest : List Char} (h : dropWord? word cs = some rest) :
    ∃ text, text.map Char.toLower = word ∧ text ++ rest = cs := by
  induction word generalizing cs with
  | nil =>
    obtain rfl := Option.some.inj h
    exact ⟨[], rfl, rfl⟩
  | cons w word ih =>
    cases cs with
    | nil => cases h
    | cons c cs =>
      rw [dropWord?] at h
      split at h
      · next hc =>
        obtain ⟨text, htext, hcs⟩ := ih h
        exact ⟨c :: text, by rw [List.map_cons, hc, htext], by rw [List.cons_append, hcs]⟩
      · cases h

/-- What the reader takes as a number is one. -/
theorem numeral_of_taken {cs rest : List Char} {x : Float} (h : takeNumber cs = .taken x rest) :
    ∃ text, Numeral text x ∧ text ++ rest = cs := by
  unfold takeNumber at h
  split at h
  · next d behind hlex =>
    obtain ⟨rfl, rfl⟩ := Taken.taken.inj h
    obtain ⟨text, htext, hcs⟩ := decimalText_ofChars hlex
    exact ⟨text, .decimal htext d.rounds_toFloat, hcs⟩
  · cases h
  · split at h
    · next hword =>
      obtain ⟨rfl, rfl⟩ := Taken.taken.inj h
      obtain ⟨text, htext, hcs⟩ := dropWord_eq hword
      exact ⟨text, .notANumber htext, hcs⟩
    · next hword =>
      obtain ⟨rfl, rfl⟩ := Taken.taken.inj h
      obtain ⟨text, htext, hcs⟩ := dropWord_eq hword
      exact ⟨text, .infinity htext, hcs⟩
    · cases h

/-! ### A number is taken whole -/

section
variable {c : Char}

theorem spanDigits_append {digits rest : List Char} (hdigits : ∀ c ∈ digits, isDigit c = true)
    (hc : isDigit c = false) : spanDigits (digits ++ c :: rest) = (digits, c :: rest) := by
  unfold spanDigits
  rw [List.takeWhile_append_of_pos hdigits, List.dropWhile_append_of_pos hdigits]
  simp [hc]

theorem bounds_comma : Bounds ',' := ⟨by decide, by decide, by decide⟩

theorem bounds_semicolon : Bounds ';' := ⟨by decide, by decide, by decide⟩

theorem spanSign_append {sign : List Char} {negative : Bool} (hsign : Sign sign negative)
    (hminus : c ≠ '-') (hplus : c ≠ '+') (rest : List Char) :
    spanSign (sign ++ c :: rest) = (negative, c :: rest) := by
  cases hsign with
  | none => simp [spanSign, hminus, hplus]
  | plus => rfl
  | minus => rfl

theorem digit_ne {c d : Char} (hc : isDigit c = true) (hd : isDigit d = false) : c ≠ d := by
  rintro rfl
  rw [hd] at hc
  cases hc

/-- A significand begins with a digit or a point. -/
theorem Significand.head {body digits places : List Char} (h : Significand body digits places) :
    ∃ first more, body = first :: more ∧ (isDigit first = true ∨ first = '.') := by
  cases h with
  | whole hne hdigits =>
    obtain ⟨first, more, rfl⟩ := List.exists_cons_of_ne_nil hne
    exact ⟨first, more, rfl, .inl (hdigits first (List.mem_cons_self ..))⟩
  | @pointed _ _ _ hdigits _ =>
    cases digits with
    | nil => exact ⟨'.', places, rfl, .inr rfl⟩
    | cons first more =>
      exact ⟨first, more ++ '.' :: places, rfl, .inl (hdigits first (List.mem_cons_self ..))⟩

theorem lexDigits_significand {body digits places : List Char}
    (h : Significand body digits places) (hdigit : isDigit c = false) (hpoint : c ≠ '.')
    (rest : List Char) : lexDigits? (body ++ c :: rest) = some (digits, places, c :: rest) := by
  cases h with
  | whole hne hdigits =>
    unfold lexDigits?
    rw [spanDigits_append hdigits hdigit]
    simp only
    split
    · next hcons =>
      obtain ⟨rfl, -⟩ := List.cons.inj hcons
      exact absurd rfl hpoint
    · rw [if_neg (by simpa using hne)]
  | pointed hne hdigits hplaces =>
    have hsome : ¬ (digits.isEmpty && places.isEmpty) = true := by
      simpa [or_iff_not_imp_left] using hne
    unfold lexDigits?
    rw [List.append_assoc, List.cons_append, spanDigits_append hdigits (by decide)]
    simp only [spanDigits_append hplaces hdigit, if_neg hsome]

theorem ofChars_decimalText {text : List Char} {d : Decimal} (h : DecimalText text d)
    (hc : Bounds c) (rest : List Char) :
    Lexed.ofChars (text ++ c :: rest) = .found d (c :: rest) := by
  obtain @⟨sign, body, digits, places, tail, negative, e, hsign, hbody, htail⟩ := h
  obtain ⟨first, more, hfirst, hhead⟩ := hbody.head
  -- the sign is not taken for a part of the digits
  have hspan : ∀ behind, spanSign (sign ++ (body ++ behind)) = (negative, body ++ behind) := by
    intro behind
    rw [hfirst]
    refine spanSign_append hsign ?_ ?_ _
    · rcases hhead with hdigit | rfl
      · exact digit_ne hdigit (by decide)
      · decide
    · rcases hhead with hdigit | rfl
      · exact digit_ne hdigit (by decide)
      · decide
  unfold Lexed.ofChars
  cases htail with
  | none =>
    have hlex := lexDigits_significand hbody hc.notDigit hc.notPoint rest
    rw [List.append_nil, List.append_assoc, hspan]
    simp only [hlex, if_neg hc.notMark, Int.zero_sub]
  | @marked mark below exponent negative' hmark hbelow hne hdigits =>
    have hdigit : isDigit mark = false := by rcases hmark with rfl | rfl <;> decide
    have hpoint : mark ≠ '.' := by rcases hmark with rfl | rfl <;> decide
    have hlex := lexDigits_significand hbody hdigit hpoint (below ++ (exponent ++ c :: rest))
    obtain ⟨first', more', rfl⟩ := List.exists_cons_of_ne_nil hne
    have hfirst' := hdigits first' (List.mem_cons_self ..)
    have hspan' := spanSign_append hbelow (digit_ne hfirst' (by decide))
      (digit_ne hfirst' (by decide)) (more' ++ c :: rest)
    have hdigits' : spanDigits (first' :: more' ++ c :: rest) = (first' :: more', c :: rest) :=
      spanDigits_append hdigits hc.notDigit
    simp only [List.append_assoc, List.cons_append] at hlex hspan' hdigits' ⊢
    rw [hspan]
    simp only [hlex, if_pos hmark, hspan', hdigits', List.isEmpty_cons, Bool.false_eq_true,
      if_false]

theorem dropWord_append {word text : List Char} (h : text.map Char.toLower = word)
    (rest : List Char) : dropWord? word (text ++ rest) = some rest := by
  subst h
  induction text with
  | nil => rfl
  | cons c text ih => simp only [List.map_cons, List.cons_append, dropWord?, if_true, ih]

theorem toLower_of_isDigit (hdigit : isDigit c = true) : c.toLower = c := by
  simp only [isDigit, Bool.and_eq_true, decide_eq_true_eq] at hdigit
  have hnine : c.val ≤ '9'.val := hdigit.2
  have hsmall : ¬ (c.val ≥ 'A'.val ∧ c.val ≤ 'Z'.val) := by
    rintro ⟨hletter, -⟩
    exact absurd (UInt32.le_trans hletter hnine) (by decide)
  simp only [Char.toLower, dif_neg hsmall]

/-- Where a name begins there is no decimal. -/
theorem ofChars_name {first : Char} (h : first.toLower = 'n' ∨ first.toLower = 'i')
    (rest : List Char) : Lexed.ofChars (first :: rest) = .absent := by
  have hother : ∀ d : Char, d.toLower ≠ 'n' → d.toLower ≠ 'i' → first ≠ d := by
    rintro d hn hi rfl
    exact h.elim hn hi
  have hdigit : isDigit first = false := by
    rw [← Bool.not_eq_true]
    intro hdigit
    rw [toLower_of_isDigit hdigit] at h
    rcases h with rfl | rfl <;> exact absurd hdigit (by decide)
  have hsign := spanSign_append .none (hother '-' (by decide) (by decide))
    (hother '+' (by decide) (by decide)) rest
  have hspan : spanDigits ([] ++ first :: rest) = ([], first :: rest) :=
    spanDigits_append (fun _ hd => absurd hd List.not_mem_nil) hdigit
  have hlex : lexDigits? (first :: rest) = none := by
    unfold lexDigits?
    rw [List.nil_append] at hspan
    rw [hspan]
    simp only
    split
    · next hcons =>
      obtain ⟨rfl, -⟩ := List.cons.inj hcons
      exact absurd rfl (hother '.' (by decide) (by decide))
    · rfl
  rw [List.nil_append] at hsign
  unfold Lexed.ofChars
  rw [hsign]
  simp only [hlex]

/-- A number of the grammar is taken up to a character that cannot continue it. -/
theorem takeNumber_numeral {text : List Char} {x : Float} (h : Numeral text x) (hc : Bounds c)
    (rest : List Char) : takeNumber (text ++ c :: rest) = .taken x (c :: rest) := by
  unfold takeNumber
  cases h with
  | decimal h hx => rw [ofChars_decimalText h hc, hx.unique (Decimal.rounds_toFloat _)]
  | notANumber h =>
    obtain ⟨first, more, rfl, hfirst, -⟩ := List.map_eq_cons_iff.1 h
    rw [dropWord_append h, List.cons_append, ofChars_name (.inl hfirst)]
  | infinity h =>
    obtain ⟨first, more, rfl, hfirst, -⟩ := List.map_eq_cons_iff.1 h
    have hname : dropWord? ['n', 'a', 'n'] (first :: more ++ c :: rest) = none := by
      rw [List.cons_append, dropWord?, hfirst]
      rfl
    rw [dropWord_append h, hname, List.cons_append, ofChars_name (.inr hfirst)]

end

end GalvoWeld.Number
