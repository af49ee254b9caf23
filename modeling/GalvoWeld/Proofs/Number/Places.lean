import GalvoWeld.Number.Fixed
import GalvoWeld.Proofs.Number.Numerals

/-!
# Numbers with three places, read back

A finite double is written with a sign, digits, a point and three digits. That is a number of the
grammar, and the double it stands for is the nearest to the written one.
-/

namespace GalvoWeld.Number

/-! ### What is written -/

/-- The text of `± q`: digits, a point and three digits. -/
def Spells (cs : List Char) (negative : Bool) (q : ℚ) : Prop :=
  ∃ whole places, cs = signChars negative ++ whole ++ '.' :: places ∧
    whole ≠ [] ∧ places.length = 3 ∧ (∀ c ∈ whole ++ places, isDigit c = true) ∧
    q = digitsValue whole + digitsValue places / 1000

theorem isDigit_of_mem_toDigits {n : Nat} {c : Char} (hm : c ∈ Nat.toDigits 10 n) :
    isDigit c = true := by
  have hd := Nat.isDigit_of_mem_toDigits (by decide) (by decide) hm
  simp only [Char.isDigit, Bool.and_eq_true, decide_eq_true_eq] at hd
  simp only [isDigit, Bool.and_eq_true, decide_eq_true_eq]
  exact hd

theorem isDigit_digitChar : ∀ n, n < 10 → isDigit (Nat.digitChar n) = true := by decide

theorem digitsValue_threeDigits {n : Nat} (hn : n < 1000) : digitsValue (threeDigits n) = n := by
  have hplace : ∀ k, k < 10 → (Nat.digitChar k).toNat - '0'.toNat = k := by decide
  have hhundreds := hplace (n / 100 % 10) (by omega)
  have htens := hplace (n / 10 % 10) (by omega)
  have hones := hplace (n % 10) (by omega)
  simp only [digitsValue, threeDigits, Nat.ofDigitChars_cons, Nat.ofDigitChars_nil, hhundreds,
    htens, hones]
  omega

theorem spells_chars (negative : Bool) (n : Nat) :
    Spells (Thousandths.count negative n).chars negative (n / 1000) := by
  refine ⟨Nat.toDigits 10 (n / 1000), threeDigits (n % 1000), rfl, Nat.toDigits_ne_nil, rfl, ?_, ?_⟩
  · intro c hm
    rcases List.mem_append.1 hm with hwhole | hplaces
    · exact isDigit_of_mem_toDigits hwhole
    · simp only [threeDigits, List.mem_cons, List.not_mem_nil, or_false] at hplaces
      rcases hplaces with rfl | rfl | rfl <;> exact isDigit_digitChar _ (by omega)
  · rw [digitsValue_threeDigits (Nat.mod_lt _ (by decide)), digitsValue,
      Nat.ofDigitChars_ten_toDigits]
    have hsplit : (n : ℚ) = 1000 * (n / 1000 : ℕ) + (n % 1000 : ℕ) := by
      exact_mod_cast (Nat.div_add_mod n 1000).symm
    rw [hsplit]
    field_simp

theorem divHalfEven_le (num den : Nat) : divHalfEven num den ≤ num + 1 := by
  have hbelow := Nat.div_le_self num den
  unfold divHalfEven
  extract_lets below twice
  split_ifs <;> omega

/-- The thousandths of the largest double. -/
def topCount : Nat := (2 * hiddenBit - 1) * 2 ^ 971 * 1000

/-- A double has at most the thousandths of the largest double. -/
theorem thousandths_of_isFinite {x : Float} (hx : x.isFinite = true) :
    ∃ negative n, (Exact.ofFloat x).thousandths = .count negative n ∧ n ≤ topCount := by
  obtain ⟨negative, m, e, hfinite⟩ := Exact.finite_of_isFinite hx
  have hcanonical := Exact.canonical_ofFloat x
  rw [hfinite] at hcanonical ⊢
  obtain ⟨hm, -, he, -⟩ := hcanonical
  refine ⟨negative, _, rfl, ?_⟩
  cases e with
  | ofNat k =>
    have hk : k ≤ 971 := by
      rw [Int.ofNat_eq_natCast] at he
      omega
    have hmantissa : m ≤ 2 * hiddenBit - 1 := by omega
    have hpow : 2 ^ k ≤ 2 ^ 971 := by
      gcongr
      decide
    exact Nat.mul_le_mul_right 1000 (Nat.mul_le_mul hmantissa hpow)
  | negSucc k =>
    have hround := divHalfEven_le (m * 1000) (Nat.pow 2 (k + 1))
    have hroom : 2 * hiddenBit * 1000 ≤ topCount := by decide +kernel
    change divHalfEven (m * 1000) (Nat.pow 2 (k + 1)) ≤ topCount
    omega

/-! ### What is read -/

/-- Three places of at most the largest double are read as the double nearest to them. -/
theorem isNearest_toFloat (negative : Bool) {n : Nat} (hmax : n ≤ topCount) :
    IsNearest negative (n / 1000) (Decimal.toFloat ⟨negative, n, -3⟩) := by
  have hvalue : Decimal.value ⟨negative, n, -3⟩ = n / 1000 := by
    norm_num [Decimal.value, div_eq_mul_inv]
  have hn : (n : ℚ) ≤ (2 * hiddenBit - 1 : ℕ) * 2 ^ 971 * 1000 := by exact_mod_cast hmax
  have hodd : ((2 * hiddenBit - 1 : ℕ) : ℚ) < 2 * hiddenBit - 1 / 2 := by norm_num [hiddenBit]
  have hrange : (n : ℚ) / 1000 < overflow := by
    rw [div_lt_iff₀ (by norm_num)]
    unfold overflow
    rw [zpow_ofNat]
    refine hn.trans_lt ?_
    gcongr
  rw [← hvalue] at hrange ⊢
  exact (Decimal.rounds_toFloat _).near hrange

theorem digitsValue_append (whole places : List Char) :
    digitsValue (whole ++ places) =
      10 ^ places.length * digitsValue whole + digitsValue places := by
  rw [digitsValue, Nat.ofDigitChars_append, Nat.ofDigitChars_eq_ofDigitChars_zero]
  rfl

theorem sign_signChars (negative : Bool) : Sign (signChars negative) negative := by
  cases negative with
  | false => exact .none
  | true => exact .minus

theorem decimalText_of_spells {cs : List Char} {negative : Bool} {n : Nat}
    (hcs : Spells cs negative (n / 1000)) : DecimalText cs ⟨negative, n, -3⟩ := by
  obtain ⟨whole, places, rfl, hwhole, hplaces, hdigits, hvalue⟩ := hcs
  have hbody : Significand (whole ++ '.' :: places) whole places :=
    .pointed (.inl hwhole) (fun c hm => hdigits c (List.mem_append_left _ hm))
      fun c hm => hdigits c (List.mem_append_right _ hm)
  have hn : digitsValue (whole ++ places) = n := by
    rw [digitsValue_append, hplaces]
    have hscaled : ((10 ^ 3 * digitsValue whole + digitsValue places : ℕ) : ℚ) = n := by
      push_cast
      linarith
    exact_mod_cast hscaled
  have htext := DecimalText.plain (sign_signChars negative) hbody
  rwa [hn, hplaces, ← List.append_assoc] at htext

/-- What is read for a number that was written: the double nearest to the text. -/
def ReadBack (x y : Float) : Prop :=
  ∃ negative q, Spells (fixedChars x) negative q ∧ IsNearest negative q y

theorem numeral_fixedChars {x : Float} (hx : x.isFinite = true) :
    ∃ y, Numeral (fixedChars x) y ∧ ReadBack x y := by
  obtain ⟨negative, n, hcount, hmax⟩ := thousandths_of_isFinite hx
  have hspells := spells_chars negative n
  rw [← hcount] at hspells
  exact ⟨_, .decimal (decimalText_of_spells hspells) (Decimal.rounds_toFloat _), negative, _,
    hspells, isNearest_toFloat negative hmax⟩

end GalvoWeld.Number
