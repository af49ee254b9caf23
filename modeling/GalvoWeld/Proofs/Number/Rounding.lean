import GalvoWeld.Proofs.Number.Unpacked

/-!
# Rounding

A mantissa with a round bit and a sticky bit represents a number between two integers. Shifting it
down keeps the number represented, in larger units, so that what rounding chooses is the integer
nearest to it, and the even one of two.
-/

namespace GalvoWeld.Number

open Float.Model Float.Model.UnpackedFloat

/-! ### Mantissas with a round bit and a sticky bit -/

/-- The number between `mantissa` and `mantissa + 1` that the two bits leave. -/
def Represents (em : ExtendedMantissa) (q : ℚ) : Prop :=
  match em.roundBit, em.stickyBit with
  | false, false => q = em.mantissa
  | false, true => em.mantissa < q ∧ q < em.mantissa + 1 / 2
  | true, false => q = em.mantissa + 1 / 2
  | true, true => em.mantissa + 1 / 2 < q ∧ q < em.mantissa + 1

/-- `r` is the integer nearest to `q`, a half to the even neighbour. -/
structure RoundsTo (q : ℚ) (r : Nat) : Prop where
  close : |(r : ℚ) - q| ≤ 1 / 2
  even : |(r : ℚ) - q| = 1 / 2 → r % 2 = 0

namespace Represents

variable {em : ExtendedMantissa} {q : ℚ}

theorem mantissa_le (h : Represents em q) : (em.mantissa : ℚ) ≤ q := by
  obtain ⟨m, r, s⟩ := em
  cases r <;> cases s <;> simp only [Represents] at h <;> linarith

theorem lt_mantissa_add_one (h : Represents em q) : q < em.mantissa + 1 := by
  obtain ⟨m, r, s⟩ := em
  cases r <;> cases s <;> simp only [Represents] at h <;> linarith

theorem exact (m : Nat) : Represents (.ofMantissaAndAccuracy m .exact) m := rfl

theorem fraction (num : Nat) {den : Nat} (hden : 0 < den) :
    Represents (.ofMantissaAndAccuracy (num / den) (accuracyOfFraction (num % den) den))
      ((num : ℚ) / den) := by
  have hd : (0 : ℚ) < den := by exact_mod_cast hden
  have hq : (num : ℚ) / den = (num / den : ℕ) + ((num % den : ℕ) : ℚ) / den := by
    have hdecomp : (num : ℚ) = den * (num / den : ℕ) + (num % den : ℕ) := by
      exact_mod_cast (Nat.div_add_mod num den).symm
    rw [div_eq_iff hd.ne', add_mul, div_mul_cancel₀ _ hd.ne', mul_comm]
    exact hdecomp
  have hless : ((num % den : ℕ) : ℚ) / den < 1 := by
    rw [div_lt_one hd]
    exact_mod_cast Nat.mod_lt _ hden
  rw [hq]
  generalize num % den = rest at *
  generalize num / den = whole at *
  unfold accuracyOfFraction
  split_ifs with hzero
  · simp [hzero, Represents, ExtendedMantissa.ofMantissaAndAccuracy]
  · have hpos : (0 : ℚ) < rest := by exact_mod_cast Nat.pos_of_ne_zero hzero
    have hsome : (0 : ℚ) < rest / den := div_pos hpos hd
    rcases hc : compare (2 * rest) den with _ | _ | _ <;>
      simp only [Represents, ExtendedMantissa.ofMantissaAndAccuracy]
    · have hhalf : (rest : ℚ) / den < 1 / 2 := by
        have hlt : (2 : ℚ) * rest < den := by exact_mod_cast Nat.compare_eq_lt.1 hc
        rw [div_lt_div_iff₀ hd (by norm_num)]; linarith
      constructor <;> linarith
    · have hhalf : (rest : ℚ) / den = 1 / 2 := by
        have heq : (2 : ℚ) * rest = den := by exact_mod_cast Nat.compare_eq_eq.1 hc
        rw [div_eq_div_iff hd.ne' (by norm_num)]; linarith
      rw [hhalf]
    · have hhalf : 1 / 2 < (rest : ℚ) / den := by
        have hlt : (den : ℚ) < 2 * rest := by exact_mod_cast Nat.compare_eq_gt.1 hc
        rw [div_lt_div_iff₀ (by norm_num) hd]; linarith
      constructor <;> linarith

theorem rounded (h : Represents em q) : RoundsTo q em.roundedMantissa := by
  obtain ⟨m, r, s⟩ := em
  cases r <;> cases s <;>
    simp only [Represents, ExtendedMantissa.roundedMantissa, ExtendedMantissa.accuracy,
      Accuracy.roundToNearestEven] at h ⊢
  · -- nothing is cut off
    subst h
    constructor <;> norm_num
  · -- less than a half is cut off
    have habs : |(m : ℚ) - q| < 1 / 2 := by rw [abs_lt]; constructor <;> linarith
    exact ⟨habs.le, fun htie => absurd htie habs.ne⟩
  · -- a half is cut off
    subst h
    have hbit : ((m % 2 : ℕ) : ℚ) = 0 ∨ ((m % 2 : ℕ) : ℚ) = 1 := by
      rcases Nat.mod_two_eq_zero_or_one m with hm | hm <;> simp [hm]
    have hclose : |((m + m % 2 : ℕ) : ℚ) - (m + 1 / 2)| ≤ 1 / 2 := by
      push_cast
      rcases hbit with hbit | hbit <;> rw [hbit, abs_le] <;> constructor <;> linarith
    exact ⟨hclose, fun _ => by omega⟩
  · -- more than a half is cut off
    have habs : |((m + 1 : ℕ) : ℚ) - q| < 1 / 2 := by
      rw [Nat.cast_add, Nat.cast_one, abs_lt]
      constructor <;> linarith
    exact ⟨habs.le, fun htie => absurd htie habs.ne⟩

theorem eq_mantissa (h : Represents em q) (hbits : (em.roundBit || em.stickyBit) = false) :
    q = em.mantissa := by
  obtain ⟨m, r, s⟩ := em
  obtain ⟨rfl, rfl⟩ := Bool.or_eq_false_iff.1 hbits
  exact h

theorem mantissa_lt (h : Represents em q) (hbits : (em.roundBit || em.stickyBit) = true) :
    (em.mantissa : ℚ) < q := by
  obtain ⟨m, r, s⟩ := em
  cases r <;> cases s <;> simp only [Represents] at h
  · exact absurd hbits Bool.false_ne_true
  all_goals linarith

theorem shiftRightOne (h : Represents em q) : Represents em.shiftRightOne (q / 2) := by
  have hhalves : (em.mantissa : ℚ) = 2 * (em.mantissa / 2 : ℕ) + (em.mantissa % 2 : ℕ) := by
    exact_mod_cast (Nat.div_add_mod em.mantissa 2).symm
  have hless := h.lt_mantissa_add_one
  -- the last bit of the mantissa becomes the round bit, and both old bits go into the sticky bit
  rcases Nat.mod_two_eq_zero_or_one em.mantissa with heven | hodd
  · rw [heven, Nat.cast_zero, add_zero] at hhalves
    cases hbits : em.roundBit || em.stickyBit with
    | false =>
      have hexact : q / 2 = (em.mantissa / 2 : ℕ) := by linarith [h.eq_mantissa hbits]
      simpa [Represents, ExtendedMantissa.shiftRightOne, hbits, heven] using hexact
    | true =>
      have hmore := h.mantissa_lt hbits
      have hbelow : ((em.mantissa / 2 : ℕ) : ℚ) < q / 2 ∧ q / 2 < (em.mantissa / 2 : ℕ) + 1 / 2 :=
        ⟨by linarith, by linarith⟩
      simpa [Represents, ExtendedMantissa.shiftRightOne, hbits, heven] using hbelow
  · rw [hodd, Nat.cast_one] at hhalves
    cases hbits : em.roundBit || em.stickyBit with
    | false =>
      have hhalf : q / 2 = (em.mantissa / 2 : ℕ) + 1 / 2 := by linarith [h.eq_mantissa hbits]
      simpa [Represents, ExtendedMantissa.shiftRightOne, hbits, hodd] using hhalf
    | true =>
      have hmore := h.mantissa_lt hbits
      have habove : ((em.mantissa / 2 : ℕ) : ℚ) + 1 / 2 < q / 2 ∧
          q / 2 < (em.mantissa / 2 : ℕ) + 1 := ⟨by linarith, by linarith⟩
      simpa [Represents, ExtendedMantissa.shiftRightOne, hbits, hodd] using habove

theorem shiftRight (h : Represents em q) (n : Nat) : Represents (em >>> n) (q / 2 ^ n) := by
  change Represents (n.repeat ExtendedMantissa.shiftRightOne em) _
  induction n with
  | zero => simpa [Nat.repeat] using h
  | succ n ih =>
    rw [Nat.repeat, pow_succ, ← div_div]
    exact ih.shiftRightOne

end Represents

namespace RoundsTo

variable {q : ℚ} {r : Nat}

theorem le {n : Nat} (h : RoundsTo q r) (hq : q ≤ n) : r ≤ n := by
  by_contra hmore
  have hgap : (n : ℚ) + 1 ≤ r := by exact_mod_cast Nat.lt_of_not_le hmore
  have hclose := (abs_le.1 h.close).2
  linarith

theorem ge {n : Nat} (h : RoundsTo q r) (hq : n ≤ q) : n ≤ r := by
  by_contra hless
  have hgap : (r : ℚ) + 1 ≤ n := by exact_mod_cast Nat.lt_of_not_le hless
  have hclose := (abs_le.1 h.close).1
  linarith

/-- No other integer is closer, and none as close unless the rounded one is even. -/
theorem closest (h : RoundsTo q r) (n : ℤ) :
    |(r : ℚ) - q| ≤ |(n : ℚ) - q| ∧ (|(n : ℚ) - q| = |(r : ℚ) - q| → (n : ℚ) = r ∨ r % 2 = 0) := by
  by_cases hn : n = (r : ℤ)
  · subst hn
    exact ⟨le_refl _, fun _ => .inl rfl⟩
  · have hgap : (1 : ℚ) ≤ |(n : ℚ) - r| := by
      have hint : 1 ≤ |n - (r : ℤ)| := Int.one_le_abs (sub_ne_zero.2 hn)
      exact_mod_cast hint
    have htriangle : |(n : ℚ) - r| ≤ |(n : ℚ) - q| + |(r : ℚ) - q| := by
      rw [abs_sub_comm (r : ℚ)]
      exact abs_sub_le _ _ _
    have hclose := h.close
    refine ⟨by linarith, fun htie => .inr (h.even ?_)⟩
    linarith

/-- A number below the binade of `q` is farther away than the rounded integer. -/
theorem closer_than_below (h : RoundsTo q r) {n : Nat} (hq : n ≤ q) {w : ℚ} (hw : w < n) :
    |(r : ℚ) - q| < |w - q| := by
  have hint := (h.closest n).1
  rw [abs_of_neg (by linarith : w - q < 0)]
  rw [abs_of_nonpos (by push_cast; linarith : ((n : ℤ) : ℚ) - q ≤ 0)] at hint
  push_cast at hint
  linarith

end RoundsTo

/-! ### Rounding to 53 bits -/

/-- The exponent at which a mantissa has 53 bits, and not below that of the subnormal doubles. -/
def target (m : Nat) (e : ℤ) : ℤ := Format.binary64.targetExponent (totalExponent m e)

theorem target_eq (m : Nat) (e : ℤ) : target m e = max (m.log2 + e - 52) (-1074) := by
  change max ((m.log2 : ℤ) + 1 + e - 53) (-1074) = _
  omega

theorem shiftToTargetExponent_eq (m : Nat) (e : ℤ) (acc : Accuracy) :
    shiftToTargetExponent Format.binary64 m e acc =
      (ExtendedMantissa.ofMantissaAndAccuracy m acc >>> (target m e - e).toNat,
        e + (target m e - e).toNat) := rfl

theorem shift_short {m : Nat} {e : ℤ} (hm : m < 2 * hiddenBit) (he : -1074 ≤ e) :
    shiftToTargetExponent Format.binary64 m e .exact = (⟨m, false, false⟩, e) := by
  have hbits : m.log2 ≤ 52 := by
    by_cases hzero : m = 0
    · rw [hzero]; decide
    · exact Nat.le_of_lt_succ ((Nat.log2_lt hzero).2 hm)
  have hshift : (target m e - e).toNat = 0 := by rw [target_eq]; omega
  rw [shiftToTargetExponent_eq, hshift]
  simp [HShiftRight.hShiftRight, Nat.repeat, ExtendedMantissa.ofMantissaAndAccuracy]

theorem shift_carry {e : ℤ} (he : -1074 ≤ e) :
    shiftToTargetExponent Format.binary64 (2 * hiddenBit) e .exact =
      (⟨hiddenBit, false, false⟩, e + 1) := by
  have hbits : (2 * hiddenBit).log2 = 53 := by decide
  have hshift : (target (2 * hiddenBit) e - e).toNat = 1 := by rw [target_eq, hbits]; omega
  rw [shiftToTargetExponent_eq, hshift]
  rfl

theorem div_target {m : Nat} {e : ℤ} (q : ℚ) (he : e ≤ target m e) :
    q / 2 ^ target m e = q / 2 ^ e / 2 ^ (target m e - e).toNat := by
  have hsum : target m e = e + (target m e - e).toNat := by omega
  conv_lhs => rw [hsum, zpow_add₀ (by norm_num), zpow_natCast, ← div_div]

/-- A number of 53 bits, or one in the range of the subnormal doubles. -/
theorem binade {m : Nat} {e : ℤ} {acc : Accuracy} {q : ℚ}
    (hq : Represents (.ofMantissaAndAccuracy m acc) (q / 2 ^ e)) (he : e ≤ target m e) :
    q / 2 ^ target m e < (2 * hiddenBit : ℕ) ∧
      ((hiddenBit : ℚ) ≤ q / 2 ^ target m e ∨ target m e = -1074) := by
  have hmantissa : (ExtendedMantissa.ofMantissaAndAccuracy m acc).mantissa = m := by
    rcases acc with _ | _ | _ | _ <;> rfl
  have hlow := hq.mantissa_le
  have hhigh := hq.lt_mantissa_add_one
  rw [hmantissa] at hlow hhigh
  have htarget := target_eq m e
  rw [div_target q he]
  generalize hk : (target m e - e).toNat = k
  have hpow : (0 : ℚ) < 2 ^ k := by positivity
  constructor
  · have hbits : m + 1 ≤ 2 * hiddenBit * 2 ^ k := calc
      m + 1 ≤ 2 ^ (m.log2 + 1) := Nat.lt_log2_self
      _ ≤ 2 ^ (53 + k) := Nat.pow_le_pow_right (by decide) (by omega)
      _ = 2 * hiddenBit * 2 ^ k := Nat.pow_add 2 53 k
    have hbits' : (m : ℚ) + 1 ≤ (2 * hiddenBit : ℕ) * 2 ^ k := by exact_mod_cast hbits
    rw [div_lt_iff₀ hpow]
    linarith
  · by_cases hsubnormal : target m e = -1074
    · exact .inr hsubnormal
    · left
      have hlog : m.log2 = 52 + k := by omega
      have hzero : m ≠ 0 := by
        rintro rfl
        rw [Nat.log2_zero] at hlog
        omega
      have hbits : hiddenBit * 2 ^ k ≤ m := calc
        hiddenBit * 2 ^ k = 2 ^ m.log2 := by rw [hlog, Nat.pow_add]; rfl
        _ ≤ m := Nat.log2_self_le hzero
      have hbits' : (hiddenBit : ℚ) * 2 ^ k ≤ m := by exact_mod_cast hbits
      rw [le_div_iff₀ hpow]
      linarith

theorem ofUnpacked_shifts (s : Sign) (m : Nat) (e : ℤ) (acc : Accuracy) :
    Exact.ofUnpacked (roundWithAccuracy Format.binary64 s m e acc) =
      let first := shiftToTargetExponent Format.binary64 m e acc
      let second := shiftToTargetExponent Format.binary64 first.1.roundedMantissa first.2 .exact
      if second.1.mantissa = 0 then .finite (isNegative s) 0 (-1074)
      else .finite (isNegative s) second.1.mantissa second.2 := by
  simp only [roundWithAccuracy]
  split_ifs <;> rfl

/-- What a number comes to that is cut off at `2^e` and rounded to 53 bits. -/
theorem ofUnpacked_round (s : Sign) {m : Nat} {e : ℤ} {acc : Accuracy} {q : ℚ}
    (hq : Represents (.ofMantissaAndAccuracy m acc) (q / 2 ^ e)) (he : e ≤ target m e) :
    ∃ r, RoundsTo (q / 2 ^ target m e) r ∧
      Exact.ofUnpacked (roundWithAccuracy Format.binary64 s m e acc) =
        if r < 2 * hiddenBit then .finite (isNegative s) r (target m e)
        else .finite (isNegative s) hiddenBit (target m e + 1) := by
  obtain ⟨hbits, hnormal⟩ := binade hq he
  have hshift := hq.shiftRight (target m e - e).toNat
  rw [← div_target q he] at hshift
  have hround := hshift.rounded
  have hexponent : e + (target m e - e).toNat = target m e := by omega
  have hleast : -1074 ≤ target m e := by rw [target_eq]; omega
  refine ⟨_, hround, ?_⟩
  rw [ofUnpacked_shifts, shiftToTargetExponent_eq m e acc]
  simp only [hexponent]
  generalize (ExtendedMantissa.ofMantissaAndAccuracy m acc >>>
    (target m e - e).toNat).roundedMantissa = r at hround ⊢
  by_cases hshort : r < 2 * hiddenBit
  · rw [shift_short hshort hleast, if_pos hshort]
    dsimp only
    split_ifs with hzero
    · -- only a subnormal number is rounded to zero
      have hsubnormal : target m e = -1074 := by
        refine hnormal.resolve_left fun hge => ?_
        have hr := hround.ge hge
        rw [hzero] at hr
        exact absurd hr (by decide)
      rw [hzero, hsubnormal]
    · rfl
  · obtain rfl : r = 2 * hiddenBit := le_antisymm (hround.le hbits.le) (Nat.le_of_not_lt hshort)
    rw [shift_carry hleast, if_neg hshort]
    rfl

end GalvoWeld.Number
