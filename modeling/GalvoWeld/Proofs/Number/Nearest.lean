import GalvoWeld.Proofs.Number.Equality
import GalvoWeld.Proofs.Number.Rounding

/-!
# The nearest double

Rounding gives a double nearest to a number: no finite double is closer, and of two that are equally
close it is the one with an even mantissa. Two doubles are compared in units of the last place, in
which the one is an integer and the other one as well or below every mantissa of 53 bits. There is
only one such double, and beyond the largest one infinity takes its place.
-/

namespace GalvoWeld.Number

open Float.Model Float.Model.UnpackedFloat

def signed (negative : Bool) (q : ℚ) : ℚ := if negative then -q else q

/-- The value of a finite double. -/
def Exact.value? : Exact → Option ℚ
  | .finite negative m e => some (signed negative (m * 2 ^ e))
  | _ => none

/-- A double nearest to `± q`, the one with an even mantissa if two are. -/
def IsNearest (negative : Bool) (q : ℚ) (x : Float) : Prop :=
  ∃ m e, Exact.ofFloat x = .finite negative m e ∧
    ∀ y v, (Exact.ofFloat y).value? = some v →
      |signed negative (m * 2 ^ e) - signed negative q| ≤ |v - signed negative q| ∧
      (|v - signed negative q| = |signed negative (m * 2 ^ e) - signed negative q| →
        v = signed negative (m * 2 ^ e) ∨ m % 2 = 0)

theorem signed_neg (negative : Bool) (q : ℚ) : signed (!negative) q = -signed negative q := by
  cases negative <;> simp [signed]

theorem Exact.value_neg {x : Float} {v : ℚ} (h : (Exact.ofFloat x).value? = some v) :
    (Exact.ofFloat (-x)).value? = some (-v) := by
  cases hx : Exact.ofFloat x with
  | notANumber => rw [hx] at h; cases h
  | infinite negative => rw [hx] at h; cases h
  | finite negative m e =>
    rw [hx] at h
    obtain rfl := Option.some.inj h
    rw [Exact.ofFloat_neg, hx]
    exact congrArg some (signed_neg negative _)

theorem mirror (v a : ℚ) : |v - -a| = |-v - a| := by
  rw [← abs_neg, neg_sub', neg_neg]

theorem IsNearest.neg {negative : Bool} {q : ℚ} {x : Float} (h : IsNearest negative q x) :
    IsNearest (!negative) q (-x) := by
  obtain ⟨m, e, hx, hclosest⟩ := h
  refine ⟨m, e, (Exact.ofFloat_neg x).trans (congrArg Exact.neg hx), fun y v hy => ?_⟩
  have hmirror := hclosest (-y) (-v) (Exact.value_neg hy)
  simp only [signed_neg, mirror, neg_neg]
  exact ⟨hmirror.1, fun htie => (hmirror.2 htie).imp_left neg_eq_iff_eq_neg.1⟩

/-- Measured in units of the last place, a double is an integer from its own binade on upwards, and
less than any mantissa of 53 bits below it. -/
theorem Exact.scaled {y : Float} {v : ℚ} (hy : (Exact.ofFloat y).value? = some v) {t : ℤ}
    (ht : -1074 ≤ t) :
    (∃ n : ℤ, v / 2 ^ t = n) ∨ (-1074 < t ∧ v / 2 ^ t < hiddenBit) := by
  have hcanonical := Exact.canonical_ofFloat y
  cases hx : Exact.ofFloat y with
  | notANumber => rw [hx] at hy; cases hy
  | infinite negative => rw [hx] at hy; cases hy
  | finite negative m e =>
    rw [hx] at hy hcanonical
    obtain rfl := Option.some.inj hy
    obtain ⟨hm, hlow, -, -⟩ := hcanonical
    have hunit : (m : ℚ) * 2 ^ e / 2 ^ t = m * 2 ^ (e - t) := by
      rw [zpow_sub₀ (by norm_num), mul_div_assoc]
    have hsigned : signed negative (m * 2 ^ e) / 2 ^ t = signed negative (m * 2 ^ (e - t)) := by
      cases negative <;> simp [signed, hunit, neg_div]
    rw [hsigned]
    by_cases hbinade : t ≤ e
    · left
      obtain ⟨k, hk⟩ : ∃ k : Nat, e - t = k := ⟨(e - t).toNat, by omega⟩
      rw [hk]
      cases negative
      · exact ⟨m * 2 ^ k, by simp [signed]⟩
      · exact ⟨-(m * 2 ^ k), by simp [signed]⟩
    · right
      have hpos : (0 : ℚ) ≤ m * 2 ^ (e - t) := by positivity
      have hhalf : (m : ℚ) * 2 ^ (e - t) < hiddenBit := by
        have hm' : (m : ℚ) < 2 * hiddenBit := by exact_mod_cast hm
        have hle : (2 : ℚ) ^ (e - t) ≤ 2 ^ (-1 : ℤ) := zpow_le_zpow_right₀ (by norm_num) (by omega)
        rw [zpow_neg_one] at hle
        nlinarith
      refine ⟨by omega, ?_⟩
      cases negative
      · exact hhalf
      · simp only [signed, if_true]
        linarith [show (0 : ℚ) ≤ hiddenBit by positivity]

theorem isNearest_of_rounds {x : Float} {q : ℚ} {m r : Nat} {e t : ℤ}
    (hx : Exact.ofFloat x = .finite false m e) (hvalue : (m : ℚ) * 2 ^ e = r * 2 ^ t)
    (heven : r % 2 = 0 → m % 2 = 0) (hr : RoundsTo (q / 2 ^ t) r) (ht : -1074 ≤ t)
    (hbinade : (hiddenBit : ℚ) ≤ q / 2 ^ t ∨ t = -1074) : IsNearest false q x := by
  refine ⟨m, e, hx, fun y v hy => ?_⟩
  have hpow : (0 : ℚ) < 2 ^ t := by positivity
  have hscale : ∀ w : ℚ, |w - q| = |w / 2 ^ t - q / 2 ^ t| * 2 ^ t := fun w => by
    rw [← sub_div, abs_div, abs_of_pos hpow, div_mul_cancel₀ _ hpow.ne']
  have hunits : (r : ℚ) * 2 ^ t / 2 ^ t = r := mul_div_cancel_right₀ _ hpow.ne'
  simp only [signed, Bool.false_eq_true, if_false]
  rw [hvalue, hscale (r * 2 ^ t), hscale v, hunits, mul_le_mul_iff_left₀ hpow,
    mul_left_inj' hpow.ne']
  rcases Exact.scaled hy ht with ⟨n, hn⟩ | ⟨hfar, hsmall⟩
  · obtain ⟨hle, htie⟩ := hr.closest n
    rw [hn]
    refine ⟨hle, fun heq => (htie heq).imp (fun hsame => ?_) heven⟩
    rw [← hsame, ← hn, div_mul_cancel₀ _ hpow.ne']
  · have hlt := hr.closer_than_below (hbinade.resolve_right hfar.ne') hsmall
    exact ⟨hlt.le, fun heq => absurd heq hlt.ne'⟩

/-- Half a unit of the last place above the largest double. -/
def overflow : ℚ := (2 * hiddenBit - 1 / 2) * 2 ^ (971 : ℤ)

/-- The double that `± q` is rounded to: the nearest one, or infinity from where `2^1024` would be
no farther away than the largest double. -/
structure RoundsToDouble (negative : Bool) (q : ℚ) (x : Float) : Prop where
  near : q < overflow → IsNearest negative q x
  far : overflow ≤ q → Exact.ofFloat x = .infinite negative

theorem RoundsToDouble.neg {negative : Bool} {q : ℚ} {x : Float}
    (h : RoundsToDouble negative q x) : RoundsToDouble (!negative) q (-x) where
  near hq := (h.near hq).neg
  far hq := (Exact.ofFloat_neg x).trans (congrArg Exact.neg (h.far hq))

theorem target_le {q : ℚ} {t : ℤ} (hq : q < overflow)
    (hbinade : (hiddenBit : ℚ) ≤ q / 2 ^ t ∨ t = -1074) : t ≤ 971 := by
  rcases hbinade with hnormal | rfl
  · by_contra hmore
    have hpow : (2 : ℚ) ^ (972 : ℤ) ≤ 2 ^ t := zpow_le_zpow_right₀ (by norm_num) (by omega)
    have hlow := (le_div_iff₀ (by positivity)).1 hnormal
    rw [show (972 : ℤ) = 971 + 1 from rfl, zpow_add_one₀ (by norm_num)] at hpow
    unfold overflow at hq
    have hbig : (0 : ℚ) < 2 ^ (971 : ℤ) := by positivity
    generalize (2 : ℚ) ^ (971 : ℤ) = top at hpow hbig hq
    have habove : (hiddenBit : ℚ) * (top * 2) ≤ hiddenBit * 2 ^ t :=
      mul_le_mul_of_nonneg_left hpow (by positivity)
    linarith
  · decide

theorem le_target {q : ℚ} {t : ℤ} (hq : overflow ≤ q) (hbits : q / 2 ^ t < (2 * hiddenBit : ℕ)) :
    971 ≤ t := by
  by_contra hless
  have hpow : (2 : ℚ) ^ t ≤ 2 ^ (970 : ℤ) := zpow_le_zpow_right₀ (by norm_num) (by omega)
  have hhigh := (div_lt_iff₀ (by positivity)).1 hbits
  unfold overflow at hq
  rw [show (971 : ℤ) = 970 + 1 from rfl, zpow_add_one₀ (by norm_num)] at hq
  have hbig : (0 : ℚ) < 2 ^ (970 : ℤ) := by positivity
  generalize (2 : ℚ) ^ (970 : ℤ) = top at hpow hbig hq
  have hbelow : ((2 * hiddenBit : ℕ) : ℚ) * 2 ^ t ≤ (2 * hiddenBit : ℕ) * top :=
    mul_le_mul_of_nonneg_left hpow (by positivity)
  have hwide : (1 : ℚ) ≤ hiddenBit := by norm_num [hiddenBit]
  push_cast at hbelow hhigh
  nlinarith

section Round

variable {m : Nat} {e : ℤ} {acc : Accuracy} {q : ℚ}

theorem isNearest_round (hq : Represents (.ofMantissaAndAccuracy m acc) (q / 2 ^ e))
    (he : e ≤ target m e) (hmax : q < overflow) :
    IsNearest false q
      (.ofModel (Float.Model.pack (roundWithAccuracy Format.binary64 .positive m e acc))) := by
  obtain ⟨hbits, hbinade⟩ := binade hq he
  obtain ⟨r, hround, hform⟩ := ofUnpacked_round .positive hq he
  have hleast : -1074 ≤ target m e := by rw [target_eq]; omega
  have hmost := target_le hmax hbinade
  have hnormal : hiddenBit ≤ r ∨ target m e = -1074 := hbinade.imp_left hround.ge
  split_ifs at hform with hshort
  · have hcanonical : (Exact.finite false r (target m e)).Canonical :=
      ⟨hshort, hleast, hmost, hnormal⟩
    refine isNearest_of_rounds ?_ rfl id hround hleast hbinade
    rw [Exact.ofFloat_pack (by rw [hform]; exact hcanonical), hform]
    rfl
  · -- the mantissa was carried over to the next power of two
    obtain rfl : r = 2 * hiddenBit := le_antisymm (hround.le hbits.le) (Nat.le_of_not_lt hshort)
    have hroom : target m e ≠ 971 := by
      intro htop
      rw [htop] at hround
      have hless := (div_lt_iff₀ (by positivity)).2 hmax
      generalize q / 2 ^ (971 : ℤ) = units at hround hless
      have hclose := (abs_le.1 hround.close).2
      push_cast at hclose
      linarith
    have hcanonical : (Exact.finite false hiddenBit (target m e + 1)).Canonical :=
      ⟨by decide, by omega, by omega, .inl (le_refl _)⟩
    refine isNearest_of_rounds (m := hiddenBit) (e := target m e + 1) ?_ ?_ (fun _ => by decide)
      hround hleast hbinade
    · rw [Exact.ofFloat_pack (by rw [hform]; exact hcanonical), hform]
      rfl
    · rw [zpow_add_one₀ (by norm_num)]
      push_cast
      ring

theorem infinite_round (hq : Represents (.ofMantissaAndAccuracy m acc) (q / 2 ^ e))
    (he : e ≤ target m e) (hmin : overflow ≤ q) :
    Exact.ofFloat (.ofModel (Float.Model.pack
      (roundWithAccuracy Format.binary64 .positive m e acc))) = .infinite false := by
  obtain ⟨hbits, -⟩ := binade hq he
  obtain ⟨r, hround, hform⟩ := ofUnpacked_round .positive hq he
  have htarget := le_target hmin hbits
  split_ifs at hform with hshort
  · -- in the last binade a mantissa of 53 bits would be the largest one, and that is odd
    have hroom : target m e ≠ 971 := by
      intro htop
      rw [htop] at hround
      have hfar := (le_div_iff₀ (by positivity)).2 hmin
      have hclose := abs_le.1 hround.close
      have hr : (r : ℚ) + 1 ≤ (2 * hiddenBit : ℕ) := by exact_mod_cast hshort
      push_cast at hr
      have htie : |(r : ℚ) - q / 2 ^ (971 : ℤ)| = 1 / 2 := by
        rw [abs_sub_comm, abs_of_nonneg] <;> linarith
      have hlargest : (r : ℚ) + 1 = (2 * hiddenBit : ℕ) := by
        push_cast
        linarith
      have hlargest' : r + 1 = 2 * hiddenBit := by exact_mod_cast hlargest
      have heven := hround.even htie
      omega
    exact Exact.ofFloat_pack_infinite hform (by omega)
  · exact Exact.ofFloat_pack_infinite hform (by omega)

/-- What is cut off at `2^e` and rounded is the nearest double. -/
theorem rounds_round (hq : Represents (.ofMantissaAndAccuracy m acc) (q / 2 ^ e))
    (he : e ≤ target m e) :
    RoundsToDouble false q
      (.ofModel (Float.Model.pack (roundWithAccuracy Format.binary64 .positive m e acc))) :=
  ⟨isNearest_round hq he, infinite_round hq he⟩

end Round

/-! ### There is only one -/

theorem binade_le {negative : Bool} {m : Nat} {e e' : ℤ}
    (h : (Exact.finite negative m e).Canonical) (hlow : -1074 ≤ e') (he : e' < e) :
    2 * (hiddenBit : ℚ) * 2 ^ e' ≤ m * 2 ^ e := by
  obtain ⟨-, -, -, hform⟩ := h
  have hm : (hiddenBit : ℚ) ≤ m := by exact_mod_cast hform.resolve_right (by omega)
  have hpow : (2 : ℚ) ^ (e' + 1) ≤ 2 ^ e := zpow_le_zpow_right₀ (by norm_num) (by omega)
  calc 2 * (hiddenBit : ℚ) * 2 ^ e' = hiddenBit * 2 ^ (e' + 1) := by
        rw [zpow_add_one₀ (by norm_num)]
        ring
    _ ≤ m * 2 ^ e := mul_le_mul hm hpow (by positivity) (by positivity)

section Canonical

variable {negative : Bool} {m m' : Nat} {e e' : ℤ}

theorem mantissa_lt_binade (h : (Exact.finite negative m e).Canonical) :
    (m : ℚ) * 2 ^ e < 2 * hiddenBit * 2 ^ e := by
  have hm : (m : ℚ) < 2 * hiddenBit := by exact_mod_cast h.1
  exact mul_lt_mul_of_pos_right hm (by positivity)

theorem canonical_inj (h : (Exact.finite negative m e).Canonical)
    (h' : (Exact.finite negative m' e').Canonical) (hvalue : (m : ℚ) * 2 ^ e = m' * 2 ^ e') :
    m = m' ∧ e = e' := by
  have hbits := mantissa_lt_binade h
  have hbits' := mantissa_lt_binade h'
  rcases lt_trichotomy e e' with hless | rfl | hmore
  · have hfar := binade_le h' h.2.1 hless
    linarith
  · have hpow : (2 : ℚ) ^ e ≠ 0 := by positivity
    have hm : (m : ℚ) = m' := mul_right_cancel₀ hpow hvalue
    exact ⟨by exact_mod_cast hm, rfl⟩
  · have hfar := binade_le h h'.2.1 hmore
    linarith

/-- Between two doubles with even mantissas there is one more. -/
theorem exists_between (h : (Exact.finite negative m e).Canonical)
    (h' : (Exact.finite negative m' e').Canonical) (hless : (m : ℚ) * 2 ^ e < m' * 2 ^ e')
    (heven : m % 2 = 0) (heven' : m' % 2 = 0) :
    ∃ y w, (Exact.ofFloat y).value? = some (signed negative w) ∧
      m * 2 ^ e < w ∧ w < m' * 2 ^ e' := by
  have hpow : (0 : ℚ) < 2 ^ e := by positivity
  have hm : m < 2 * hiddenBit := h.1
  have hnext : (Exact.finite negative (m + 1) e).Canonical :=
    ⟨by omega, h.2.1, h.2.2.1, h.2.2.2.imp_left Nat.le_succ_of_le⟩
  obtain ⟨s, rfl⟩ : ∃ s, isNegative s = negative := by
    cases negative
    · exact ⟨.positive, rfl⟩
    · exact ⟨.negative, rfl⟩
  refine ⟨.ofModel (Float.Model.pack (.finite s (m + 1) e (Nat.succ_pos m))),
    ((m + 1 : ℕ) : ℚ) * 2 ^ e, ?_, ?_, ?_⟩
  · rw [Exact.ofFloat_pack (u := .finite s (m + 1) e (Nat.succ_pos m)) hnext]
    rfl
  · exact mul_lt_mul_of_pos_right (by exact_mod_cast Nat.lt_succ_self m) hpow
  · rcases lt_trichotomy e e' with hbelow | rfl | habove
    · exact (mantissa_lt_binade hnext).trans_le (binade_le h' h.2.1 hbelow)
    · have hmantissas : (m : ℚ) < m' := lt_of_mul_lt_mul_right hless hpow.le
      have hmantissas' : m < m' := by exact_mod_cast hmantissas
      exact mul_lt_mul_of_pos_right (by exact_mod_cast (by omega : m + 1 < m')) hpow
    · have hfar := binade_le h h'.2.1 habove
      have hbits := mantissa_lt_binade h'
      linarith

theorem between_closer {u w u' a : ℚ} (hlow : u < w) (hhigh : w < u')
    (hsame : |u - a| = |u' - a|) : |w - a| < |u - a| := by
  rcases abs_eq_abs.1 hsame with heq | hmirror
  · linarith
  · rw [abs_of_neg (by linarith : u - a < 0), abs_lt]
    constructor <;> linarith

/-- Of two doubles that are equally close and both have an even mantissa, neither is nearest. -/
theorem exists_closer (h : (Exact.finite negative m e).Canonical)
    (h' : (Exact.finite negative m' e').Canonical) (hless : (m : ℚ) * 2 ^ e < m' * 2 ^ e')
    (heven : m % 2 = 0) (heven' : m' % 2 = 0) {a : ℚ}
    (hsame : |signed negative (m * 2 ^ e) - a| = |signed negative (m' * 2 ^ e') - a|) :
    ∃ y v, (Exact.ofFloat y).value? = some v ∧ |v - a| < |signed negative (m * 2 ^ e) - a| := by
  obtain ⟨y, w, hy, hlow, hhigh⟩ := exists_between h h' hless heven heven'
  refine ⟨y, _, hy, ?_⟩
  cases negative with
  | false => exact between_closer hlow hhigh hsame
  | true =>
    rw [hsame]
    exact between_closer (neg_lt_neg hhigh) (neg_lt_neg hlow) hsame.symm

end Canonical

theorem Exact.ofFloat_inj {x y : Float} {v : Exact} (hx : Exact.ofFloat x = v)
    (hy : Exact.ofFloat y = v) (hv : v ≠ .notANumber) : x = y := by
  have hbits := Exact.ofBits_inj x.toBits.toBitVec.isLt y.toBits.toBitVec.isLt hv hx hy
  exact eq_of_bits (BitVec.eq_of_toNat_eq hbits)

theorem signed_injective (negative : Bool) : Function.Injective (signed negative) := by
  intro u v h
  cases negative with
  | false => exact h
  | true => exact neg_injective h

theorem IsNearest.unique {negative : Bool} {q : ℚ} {x y : Float} (hx : IsNearest negative q x)
    (hy : IsNearest negative q y) : x = y := by
  obtain ⟨m, e, hx, hclosest⟩ := hx
  obtain ⟨m', e', hy, hclosest'⟩ := hy
  have hcanonical := Exact.canonical_ofFloat x
  have hcanonical' := Exact.canonical_ofFloat y
  rw [hx] at hcanonical
  rw [hy] at hcanonical'
  obtain ⟨hle, htie⟩ := hclosest y _ (congrArg Exact.value? hy)
  obtain ⟨hle', htie'⟩ := hclosest' x _ (congrArg Exact.value? hx)
  have hsame := le_antisymm hle hle'
  by_cases hvalue : (m : ℚ) * 2 ^ e = m' * 2 ^ e'
  · obtain ⟨rfl, rfl⟩ := canonical_inj hcanonical hcanonical' hvalue
    exact Exact.ofFloat_inj hx hy nofun
  · exfalso
    have heven := (htie hsame.symm).resolve_left
      fun h => hvalue (signed_injective negative h).symm
    have heven' := (htie' hsame).resolve_left fun h => hvalue (signed_injective negative h)
    rcases lt_or_gt_of_ne hvalue with hless | hmore
    · obtain ⟨z, v, hz, hcloser⟩ := exists_closer hcanonical hcanonical' hless heven heven' hsame
      exact hcloser.not_ge (hclosest z v hz).1
    · obtain ⟨z, v, hz, hcloser⟩ :=
        exists_closer hcanonical' hcanonical hmore heven' heven hsame.symm
      exact hcloser.not_ge (hclosest' z v hz).1

theorem RoundsToDouble.unique {negative : Bool} {q : ℚ} {x y : Float}
    (hx : RoundsToDouble negative q x) (hy : RoundsToDouble negative q y) : x = y := by
  by_cases hq : q < overflow
  · exact (hx.near hq).unique (hy.near hq)
  · have hfar := le_of_not_gt hq
    exact Exact.ofFloat_inj (hx.far hfar) (hy.far hfar) nofun

end GalvoWeld.Number
