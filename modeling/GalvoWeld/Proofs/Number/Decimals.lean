import GalvoWeld.Number.Decimal
import GalvoWeld.Proofs.Number.Nearest

/-!
# Decimals as doubles

A decimal is read as the double that its value is rounded to. The digits and the power of ten are
doubles of their own where they are short enough; else their exact product or quotient is rounded.
Where no power of ten is formed, the decimal is too close to zero or too large for any double.
-/

namespace GalvoWeld.Number

open Float.Model Float.Model.UnpackedFloat

/-! ### Products, quotients and whole numbers -/

theorem finite_of_ofUnpacked {u : UnpackedFloat} {m : Nat} {e : ℤ} (hm : 0 < m)
    (h : Exact.ofUnpacked u = .finite false m e) : u = .finite .positive m e hm := by
  cases u with
  | notANumber => cases h
  | infinity s => cases h
  | zero s =>
    injection h with _ hzero _
    omega
  | finite s m' e' hm' =>
    injection h with hs hm he
    subst hm he
    cases s with
    | negative => cases hs
    | positive => rfl

theorem rounds_mul {m₁ m₂ : Nat} (e₁ e₂ : ℤ) (h₁ : 0 < m₁) (h₂ : 0 < m₂)
    (hbits : hiddenBit ≤ m₁ * m₂) :
    RoundsToDouble false (m₁ * 2 ^ e₁ * (m₂ * 2 ^ e₂)) (.ofModel (Float.Model.pack
      (UnpackedFloat.mul Format.binary64 (.finite .positive m₁ e₁ h₁)
        (.finite .positive m₂ e₂ h₂)))) := by
  have hscaled : (m₁ : ℚ) * 2 ^ e₁ * (m₂ * 2 ^ e₂) / 2 ^ (e₁ + e₂) = ((m₁ * m₂ : ℕ) : ℚ) := by
    rw [zpow_add₀ (by norm_num)]
    push_cast
    field_simp
  have hrepresents := Represents.exact (m₁ * m₂)
  rw [← hscaled] at hrepresents
  refine rounds_round hrepresents ?_
  have hlog : 52 ≤ (m₁ * m₂).log2 := (Nat.le_log2 (Nat.mul_pos h₁ h₂).ne').2 hbits
  rw [target_eq]
  omega

theorem rounds_div {m₁ m₂ : Nat} (e₁ e₂ : ℤ) (h₁ : 0 < m₁) (h₂ : 0 < m₂) :
    RoundsToDouble false (m₁ * 2 ^ e₁ / (m₂ * 2 ^ e₂)) (.ofModel (Float.Model.pack
      (UnpackedFloat.div Format.binary64 (.finite .positive m₁ e₁ h₁)
        (.finite .positive m₂ e₂ h₂)))) := by
  simp only [UnpackedFloat.div, divCore]
  generalize hlow : min (e₁ - e₂) (Format.binary64.targetExponent
    (totalExponent m₁ e₁ - totalExponent m₂ e₂)) = low
  have hlow' : low = min (e₁ - e₂)
      (max (((m₁.log2 : ℤ) + 1 + e₁) - (m₂.log2 + 1 + e₂) - 53) (-1074)) := hlow.symm
  obtain ⟨k, hk⟩ : ∃ k : Nat, e₁ - e₂ - low = k := ⟨(e₁ - e₂ - low).toNat, by omega⟩
  rw [hk, Int.toNat_natCast, Nat.shiftLeft_eq]
  have hscaled : (m₁ : ℚ) * 2 ^ e₁ / (m₂ * 2 ^ e₂) / 2 ^ low = ((m₁ * 2 ^ k : ℕ) : ℚ) / m₂ := by
    have he : e₁ = low + e₂ + k := by omega
    rw [he, zpow_add₀ (by norm_num), zpow_add₀ (by norm_num), zpow_natCast]
    push_cast
    field_simp
  have hrepresents := Represents.fraction (m₁ * 2 ^ k) h₂
  rw [← hscaled] at hrepresents
  refine rounds_round hrepresents ?_
  rw [target_eq]
  by_cases hsmall : low ≤ -1074
  · omega
  · have hbits : 2 ^ 52 ≤ m₁ * 2 ^ k / m₂ := by
      rw [Nat.le_div_iff_mul_le h₂]
      calc 2 ^ 52 * m₂ ≤ 2 ^ 52 * 2 ^ (m₂.log2 + 1) := Nat.mul_le_mul_left _ Nat.lt_log2_self.le
        _ = 2 ^ (52 + (m₂.log2 + 1)) := (Nat.pow_add ..).symm
        _ ≤ 2 ^ (m₁.log2 + k) := Nat.pow_le_pow_right (by decide) (by omega)
        _ = 2 ^ m₁.log2 * 2 ^ k := Nat.pow_add ..
        _ ≤ m₁ * 2 ^ k := Nat.mul_le_mul_right _ (Nat.log2_self_le h₁.ne')
    have hlog : 52 ≤ (m₁ * 2 ^ k / m₂).log2 := (Nat.le_log2 (by omega)).2 hbits
    omega

/-- A whole number of at most 53 bits is a double. -/
theorem unpack_toFloat {n : Nat} (hpos : 0 < n) (hn : n < 2 * hiddenBit) :
    ∃ k hm, n.toUInt64.toFloat.toModel.unpack = .finite .positive (n * 2 ^ k) (-(k : ℕ)) hm := by
  have hlog : n.log2 ≤ 52 := Nat.le_of_lt_succ ((Nat.log2_lt hpos.ne').2 hn)
  obtain ⟨k, hk⟩ : ∃ k, n.log2 + k = 52 := ⟨52 - n.log2, by omega⟩
  have hlow : hiddenBit ≤ n * 2 ^ k := calc
    hiddenBit = 2 ^ n.log2 * 2 ^ k := by rw [← Nat.pow_add, hk]; rfl
    _ ≤ n * 2 ^ k := Nat.mul_le_mul_right _ (Nat.log2_self_le hpos.ne')
  have hhigh : n * 2 ^ k < 2 * hiddenBit := calc
    n * 2 ^ k < 2 ^ (n.log2 + 1) * 2 ^ k :=
      Nat.mul_lt_mul_of_pos_right Nat.lt_log2_self (Nat.two_pow_pos k)
    _ = 2 * hiddenBit := by rw [← Nat.pow_add, Nat.add_right_comm, hk]; rfl
  have hshift : ((0 : ℤ) - target n 0).toNat = k := by rw [target_eq]; omega
  have htarget : target (n * 2 ^ k) (-k) = -k := by
    rw [target_eq, log2_of_normal hlow hhigh]
    omega
  have hpack : n.toUInt64.toFloat = .ofModel (Float.Model.pack
      (roundWithAccuracy Format.binary64 .positive (n * 2 ^ k) (-k) .exact)) := by
    have hnat : n.toUInt64.toNat = n := Nat.mod_eq_of_lt (by simp only [hiddenBit] at hn; omega)
    have hcompare : compare (n : ℤ) 0 = .gt := Int.compare_eq_gt.2 (by omega)
    change Float.ofModel (Float.Model.pack
      (normalize Format.binary64 n.toUInt64.toNat 0 .positive)) = _
    rw [hnat]
    simp only [UnpackedFloat.normalize, hcompare]
    change Float.ofModel (Float.Model.pack (roundWithAccuracy Format.binary64 .positive
      ((n : ℤ).toNat <<< ((0 : ℤ) - target n 0).toNat)
      (0 - ((0 : ℤ) - target n 0).toNat) .exact)) = _
    rw [hshift, Int.toNat_natCast, Nat.shiftLeft_eq, zero_sub]
  have hunits : (n : ℚ) / 2 ^ (-k : ℤ) = (n * 2 ^ k : ℕ) := by simp
  have hrepresents := Represents.exact (n * 2 ^ k)
  rw [← hunits] at hrepresents
  obtain ⟨r, hround, hform⟩ := ofUnpacked_round .positive hrepresents htarget.ge
  rw [htarget] at hround hform
  rw [hunits] at hround
  obtain rfl : r = n * 2 ^ k := le_antisymm (hround.le le_rfl) (hround.ge le_rfl)
  rw [if_pos hhigh] at hform
  refine ⟨k, by positivity, ?_⟩
  rw [hpack]
  change UnpackedFloat.unpack Format.binary64 (UnpackedFloat.pack Format.binary64 _) = _
  rw [unpack_pack (by rw [hform]; exact ⟨hhigh, by omega, by omega, .inl hlow⟩)]
  exact finite_of_ofUnpacked (by omega) hform

/-! ### Powers of ten -/

theorem exact_power : ∀ k (hk : k < Float.exactlyRepresentablePowersOfTen.size),
    Exact.ofFloat Float.exactlyRepresentablePowersOfTen[k] =
      .finite false (5 ^ k * 2 ^ (52 - (5 ^ k).log2)) (k - (52 - (5 ^ k).log2 : ℕ)) := by
  decide +kernel

/-- The powers of ten in the table are doubles. -/
theorem unpack_power {k : Nat} (hk : k < Float.exactlyRepresentablePowersOfTen.size) :
    ∃ m e hm, Float.exactlyRepresentablePowersOfTen[k].toModel.unpack = .finite .positive m e hm ∧
      hiddenBit ≤ m ∧ (10 : ℚ) ^ k = m * 2 ^ e := by
  have hexact := exact_power k hk
  have hcanonical := Exact.canonical_ofFloat Float.exactlyRepresentablePowersOfTen[k]
  rw [hexact] at hcanonical
  rw [Exact.ofFloat_eq] at hexact
  have hshift : 52 - (5 ^ k).log2 ≤ 52 := Nat.sub_le _ _
  generalize 52 - (5 ^ k).log2 = j at hexact hcanonical hshift
  obtain ⟨-, -, -, hform⟩ := hcanonical
  have hbits : hiddenBit ≤ 5 ^ k * 2 ^ j := hform.resolve_right (by omega)
  have hpos : 0 < 5 ^ k * 2 ^ j := by positivity
  refine ⟨_, _, hpos, finite_of_ofUnpacked hpos hexact, hbits, ?_⟩
  rw [zpow_sub₀ (by norm_num), zpow_natCast, zpow_natCast]
  push_cast
  rw [mul_assoc, mul_div_cancel₀ _ (by positivity), ← mul_pow]
  norm_num

/-! ### Digits -/

theorem digitCount_pos (n : Nat) : 0 < digitCount n := Nat.length_toDigits_pos

theorem digitCount_le {n k : Nat} (hk : 0 < k) : digitCount n ≤ k ↔ n < 10 ^ k :=
  Nat.length_toDigits_le_iff (by decide) hk

theorem lt_pow_digitCount (n : Nat) : n < 10 ^ digitCount n :=
  (digitCount_le (digitCount_pos n)).1 (le_refl _)

theorem pow_digitCount_le {n : Nat} (hpos : 0 < n) : 10 ^ (digitCount n - 1) ≤ n := by
  by_contra hless
  have hcount := digitCount_pos n
  by_cases hone : digitCount n - 1 = 0
  · rw [hone] at hless
    omega
  · have hfew := (digitCount_le (by omega)).2 (Nat.lt_of_not_le hless)
    omega

theorem digitCount_le_log2 (n : Nat) : digitCount n ≤ n.log2 + 1 := by
  rw [digitCount_le (Nat.succ_pos _)]
  calc n < 2 ^ (n.log2 + 1) := Nat.lt_log2_self
    _ ≤ 10 ^ (n.log2 + 1) := Nat.pow_le_pow_left (by decide) _

/-! ### Decimals -/

/-- The number behind the sign. -/
def Decimal.value (d : Decimal) : ℚ := d.mantissa * 10 ^ d.exponent

/-- The exponent of the power of ten just above a decimal. -/
def Decimal.size (d : Decimal) : ℤ := d.exponent + digitCount d.mantissa

theorem Decimal.value_lt (d : Decimal) : d.value < 10 ^ d.size := by
  have hdigits : (d.mantissa : ℚ) < 10 ^ digitCount d.mantissa := by
    exact_mod_cast lt_pow_digitCount d.mantissa
  have hpow : (0 : ℚ) < 10 ^ d.exponent := by positivity
  rw [Decimal.value, Decimal.size, zpow_add₀ (by norm_num), zpow_natCast, mul_comm]
  exact mul_lt_mul_of_pos_left hdigits hpow

theorem Decimal.le_value {d : Decimal} (hpos : 0 < d.mantissa) : 10 ^ (d.size - 1) ≤ d.value := by
  have hcount := digitCount_pos d.mantissa
  have hdigits : (10 : ℚ) ^ (digitCount d.mantissa - 1) ≤ d.mantissa := by
    exact_mod_cast pow_digitCount_le hpos
  have hsize : d.size - 1 = d.exponent + (digitCount d.mantissa - 1 : ℕ) := by
    rw [Decimal.size]
    omega
  rw [Decimal.value, hsize, zpow_add₀ (by norm_num), zpow_natCast, mul_comm]
  exact mul_le_mul_of_nonneg_right hdigits (by positivity)

theorem isNearest_tiny {q : ℚ} (hpos : 0 ≤ q) (hq : q ≤ 2 ^ (-1075 : ℤ)) :
    IsNearest false q (Float.ofBits 0) := by
  have hpow : (0 : ℚ) < 2 ^ (-1074 : ℤ) := by positivity
  have hhalf : q / 2 ^ (-1074 : ℤ) ≤ 1 / 2 := by
    rw [div_le_iff₀ hpow]
    rwa [show (-1075 : ℤ) = -1074 - 1 from rfl, zpow_sub_one₀ (by norm_num), mul_comm,
      ← one_div] at hq
  have hround : RoundsTo (q / 2 ^ (-1074 : ℤ)) 0 := by
    refine ⟨?_, fun _ => rfl⟩
    rw [Nat.cast_zero, zero_sub, abs_neg, abs_of_nonneg (by positivity)]
    exact hhalf
  exact isNearest_of_rounds (m := 0) (by decide +kernel) rfl id hround (le_refl _) (.inr rfl)

theorem tiny_lt_overflow : (2 : ℚ) ^ (-1075 : ℤ) < overflow := by
  have hsmall : (2 : ℚ) ^ (-1075 : ℤ) < 1 := zpow_lt_one_of_neg₀ (by norm_num) (by norm_num)
  have hbig : (1 : ℚ) ≤ 2 ^ (971 : ℤ) := one_le_zpow₀ (by norm_num) (by norm_num)
  have hwide : (1 : ℚ) ≤ hiddenBit := by norm_num [hiddenBit]
  unfold overflow
  generalize (2 : ℚ) ^ (971 : ℤ) = top at hbig
  generalize (2 : ℚ) ^ (-1075 : ℤ) = bottom at hsmall
  nlinarith

theorem overflow_le : overflow ≤ 10 ^ (310 : ℤ) := by
  have hroom : 2 * hiddenBit * 2 ^ 971 ≤ 10 ^ 310 := by decide +kernel
  have hroom' : 2 * (hiddenBit : ℚ) * 2 ^ 971 ≤ 10 ^ 310 := by exact_mod_cast hroom
  calc overflow ≤ 2 * hiddenBit * 2 ^ (971 : ℤ) :=
        mul_le_mul_of_nonneg_right (by linarith) (by positivity)
    _ ≤ 10 ^ (310 : ℤ) := by rwa [zpow_ofNat, zpow_ofNat]

theorem pow_ten_le_tiny : (10 : ℚ) ^ (-331 : ℤ) ≤ 2 ^ (-1075 : ℤ) := by
  have hroom : 2 ^ 1075 ≤ 10 ^ 331 := by decide +kernel
  have hroom' : (2 : ℚ) ^ 1075 ≤ 10 ^ 331 := by exact_mod_cast hroom
  rw [zpow_neg, zpow_neg, zpow_ofNat, zpow_ofNat]
  exact inv_anti₀ (by positivity) hroom'

theorem rounds_table {m k : Nat} (hpos : 0 < m) (hm : m < 2 * hiddenBit)
    (hk : k < Float.exactlyRepresentablePowersOfTen.size) :
    RoundsToDouble false (m * 10 ^ k)
      (m.toUInt64.toFloat * Float.exactlyRepresentablePowersOfTen[k]) ∧
    RoundsToDouble false (m / 10 ^ k)
      (m.toUInt64.toFloat / Float.exactlyRepresentablePowersOfTen[k]) := by
  obtain ⟨j, hm', hunpack⟩ := unpack_toFloat hpos hm
  obtain ⟨p, e, hp, hpower, hbits, hvalue⟩ := unpack_power hk
  have hwhole : (m : ℚ) = ((m * 2 ^ j : ℕ) : ℚ) * 2 ^ (-j : ℤ) := by
    rw [zpow_neg, zpow_natCast]
    push_cast
    rw [mul_assoc, mul_inv_cancel₀ (by positivity), mul_one]
  rw [hvalue, hwhole]
  constructor
  · change RoundsToDouble false _ (.ofModel (Float.Model.pack (UnpackedFloat.mul Format.binary64
      m.toUInt64.toFloat.toModel.unpack (Float.exactlyRepresentablePowersOfTen[k]).toModel.unpack)))
    rw [hunpack, hpower]
    exact rounds_mul _ _ hm' hp (hbits.trans (Nat.le_mul_of_pos_left _ hm'))
  · change RoundsToDouble false _ (.ofModel (Float.Model.pack (UnpackedFloat.div Format.binary64
      m.toUInt64.toFloat.toModel.unpack (Float.exactlyRepresentablePowersOfTen[k]).toModel.unpack)))
    rw [hunpack, hpower]
    exact rounds_div _ _ hm' hp

theorem rounds_model {m : Nat} {e : ℤ} (hpos : 0 < m) (hlow : -(2048 + m.log2 : ℤ) ≤ e)
    (hhigh : e ≤ 2048) :
    RoundsToDouble false (m * 10 ^ e) (.ofModel (Float.Model.ofScientific m e)) := by
  have hbig : ¬ e > 2 ^ Format.binary64.exponentBits := by
    change ¬ e > 2048
    omega
  have hsmall : ¬ e < -(2 ^ Format.binary64.exponentBits + m.log2) := by
    change ¬ e < -(2048 + m.log2)
    omega
  rw [Float.Model.ofScientific, UnpackedFloat.ofScientific, dif_neg hpos.ne', if_neg hbig,
    if_neg hsmall]
  by_cases hsign : 0 ≤ e
  · obtain ⟨k, rfl⟩ := Int.eq_ofNat_of_zero_le hsign
    have hvalue : (m : ℚ) * 10 ^ (k : ℤ) =
        ((m <<< Format.binary64.mantissaBits : ℕ) : ℚ) * 2 ^ (-(Format.binary64.mantissaBits : ℤ)) *
          ((10 ^ (k : ℤ).toNat : ℕ) * 2 ^ (0 : ℤ)) := by
      rw [Nat.shiftLeft_eq, zpow_neg, zpow_natCast, zpow_natCast, Int.toNat_natCast]
      push_cast
      rw [mul_assoc (m : ℚ), mul_inv_cancel₀ (by positivity)]
      norm_num
    have hbits : hiddenBit ≤ m <<< Format.binary64.mantissaBits * 10 ^ (k : ℤ).toNat := by
      rw [Nat.shiftLeft_eq]
      calc hiddenBit ≤ 2 ^ Format.binary64.mantissaBits := by decide
        _ ≤ m * 2 ^ Format.binary64.mantissaBits := Nat.le_mul_of_pos_left _ hpos
        _ ≤ m * 2 ^ Format.binary64.mantissaBits * 10 ^ (k : ℤ).toNat :=
          Nat.le_mul_of_pos_right _ (by positivity)
    rw [if_pos hsign, hvalue]
    exact rounds_mul _ _ _ _ hbits
  · have hvalue : (m : ℚ) * 10 ^ e =
        (m : ℚ) * 2 ^ (0 : ℤ) / ((10 ^ (-e).toNat : ℕ) * 2 ^ (0 : ℤ)) := by
      obtain ⟨k, rfl⟩ : ∃ k : ℕ, e = -k := ⟨(-e).toNat, by omega⟩
      rw [neg_neg, Int.toNat_natCast, zpow_neg, zpow_natCast]
      push_cast
      rw [mul_one, mul_one, div_eq_mul_inv]
    rw [if_neg hsign, hvalue]
    exact rounds_div _ _ _ _

theorem rounds_ofScientific {m : Nat} {e : ℤ} (hpos : 0 < m) (hlow : -(2048 + m.log2 : ℤ) ≤ e)
    (hhigh : e ≤ 2048) :
    RoundsToDouble false (m * 10 ^ e) (Float.ofScientific m (e < 0) e.natAbs) := by
  unfold Float.ofScientific
  by_cases hfast : m < 2 ^ 53 ∧ e.natAbs ≤ 22
  · have hk : e.natAbs < Float.exactlyRepresentablePowersOfTen.size := Nat.lt_succ_of_le hfast.2
    obtain ⟨hmul, hdiv⟩ := rounds_table hpos hfast.1 hk
    rw [dif_pos hfast]
    by_cases hsign : e < 0
    · have hvalue : (m : ℚ) * 10 ^ e = m / 10 ^ e.natAbs := by
        rw [div_eq_mul_inv, ← zpow_natCast, ← zpow_neg]
        congr 2
        omega
      rw [hvalue]
      simpa only [hsign, decide_true, if_true] using hdiv
    · have hvalue : (m : ℚ) * 10 ^ e = m * 10 ^ e.natAbs := by
        rw [← zpow_natCast]
        congr 2
        omega
      rw [hvalue]
      simpa only [hsign, decide_false, Bool.false_eq_true, if_false] using hmul
  · have hexponent :
        (if decide (e < 0) then Int.negOfNat e.natAbs else Int.ofNat e.natAbs) = e := by
      split_ifs with hsign
      · have hsign' := of_decide_eq_true hsign
        rw [Int.negOfNat_eq, Int.ofNat_eq_natCast]
        omega
      · have hsign' : ¬ e < 0 := by simpa using hsign
        rw [Int.ofNat_eq_natCast]
        omega
    rw [dif_neg hfast, hexponent]
    exact rounds_model hpos hlow hhigh

theorem Decimal.value_le_tiny {d : Decimal} (h : d.mantissa = 0 ∨ d.size < -330) :
    d.value ≤ 2 ^ (-1075 : ℤ) := by
  rcases h with hzero | hsmall
  · rw [Decimal.value, hzero, Nat.cast_zero, zero_mul]
    positivity
  · calc d.value ≤ 10 ^ d.size := d.value_lt.le
      _ ≤ 10 ^ (-331 : ℤ) := zpow_le_zpow_right₀ (by norm_num) (by omega)
      _ ≤ 2 ^ (-1075 : ℤ) := pow_ten_le_tiny

theorem Decimal.overflow_le_value {d : Decimal} (hpos : 0 < d.mantissa) (hlarge : 310 < d.size) :
    overflow ≤ d.value := calc
  overflow ≤ 10 ^ (310 : ℤ) := overflow_le
  _ ≤ 10 ^ (d.size - 1) := zpow_le_zpow_right₀ (by norm_num) (by omega)
  _ ≤ d.value := Decimal.le_value hpos

/-- A decimal is read as the double that its value is rounded to. -/
theorem Decimal.rounds_toFloat (d : Decimal) : RoundsToDouble d.negative d.value d.toFloat := by
  unfold Decimal.toFloat
  extract_lets size magnitude
  have hmagnitude : RoundsToDouble false d.value magnitude := by
    unfold magnitude
    split_ifs with htiny hlarge
    · have hvalue := Decimal.value_le_tiny htiny
      exact ⟨fun _ => isNearest_tiny (by unfold Decimal.value; positivity) hvalue,
        fun hfar => absurd (hfar.trans hvalue) tiny_lt_overflow.not_ge⟩
    · obtain ⟨hzero, -⟩ := not_or.1 htiny
      have hvalue := Decimal.overflow_le_value (Nat.pos_of_ne_zero hzero) hlarge
      exact ⟨fun hnear => absurd hvalue hnear.not_ge, fun _ => by decide +kernel⟩
    · obtain ⟨hzero, hlow⟩ := not_or.1 htiny
      have hlog := digitCount_le_log2 d.mantissa
      have hcount := digitCount_pos d.mantissa
      exact rounds_ofScientific (Nat.pos_of_ne_zero hzero) (by omega) (by omega)
  split_ifs with hsign
  · rw [hsign]
    exact hmagnitude.neg
  · rw [Bool.not_eq_true] at hsign
    rw [hsign]
    exact hmagnitude

end GalvoWeld.Number
