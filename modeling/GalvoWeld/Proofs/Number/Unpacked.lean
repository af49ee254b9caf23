import Mathlib
import GalvoWeld.Number.Exact

/-!
# Doubles and their parts

The sign, the mantissa and the exponent that are read off the bits of a double are those that the
library computes with, and a double that is packed from parts in their canonical form has these
parts.
-/

namespace GalvoWeld.Number

open Float.Model Float.Model.UnpackedFloat

def isNegative : Sign → Bool
  | .negative => true
  | .positive => false

/-- What an unpacked double stands for. -/
def Exact.ofUnpacked : UnpackedFloat → Exact
  | .notANumber => .notANumber
  | .infinity s => .infinite (isNegative s)
  | .zero s => .finite (isNegative s) 0 (-1074)
  | .finite s m e _ => .finite (isNegative s) m e

def Exact.neg : Exact → Exact
  | .notANumber => .notANumber
  | .infinite negative => .infinite (!negative)
  | .finite negative m e => .finite (!negative) m e

/-- The one form of each finite double: only below the smallest normal double does the mantissa
have fewer than 53 bits. -/
def Exact.Canonical : Exact → Prop
  | .finite _ m e => m < 2 * hiddenBit ∧ -1074 ≤ e ∧ e ≤ 971 ∧ (hiddenBit ≤ m ∨ e = -1074)
  | _ => True

theorem Exact.canonical_ofBits (bits : Nat) : (Exact.ofBits bits).Canonical := by
  have hfraction : bits % hiddenBit < hiddenBit := Nat.mod_lt _ (by decide)
  have hbiased : bits / hiddenBit % 2048 < 2048 := Nat.mod_lt _ (by decide)
  unfold ofBits
  extract_lets negative biased fraction
  split_ifs with hspecial hinfinite hsmall
  · trivial
  · trivial
  · exact ⟨by omega, by omega, by omega, .inr rfl⟩
  · exact ⟨by omega, by omega, by omega, .inl (by omega)⟩

/-- Two patterns of 64 bits that stand for the same number are the same. -/
theorem Exact.ofBits_inj {bits bits' : Nat} {v : Exact} (hbits : bits < 2 ^ 64)
    (hbits' : bits' < 2 ^ 64) (hv : v ≠ .notANumber) (h : Exact.ofBits bits = v)
    (h' : Exact.ofBits bits' = v) : bits = bits' := by
  unfold ofBits at h h'
  extract_lets sign biased fraction at h
  extract_lets sign' biased' fraction' at h'
  have hsigns : ∀ negative, sign = negative → sign' = negative →
      bits / hiddenBit / 2048 = bits' / hiddenBit / 2048 := by
    intro negative hsign hsign'
    have hsame := decide_eq_decide.1 (hsign.trans hsign'.symm)
    simp only [hiddenBit] at hsame ⊢
    omega
  cases v with
  | notANumber => exact absurd rfl hv
  | infinite negative =>
    split_ifs at h h'
    have hsame := hsigns negative (Exact.infinite.inj h) (Exact.infinite.inj h')
    simp only [hiddenBit, biased, biased', fraction, fraction'] at *
    omega
  | finite negative m e =>
    -- the exponent and the fraction agree, with or without the hidden bit
    split_ifs at h h' <;>
      obtain ⟨hsign, hm, he⟩ := Exact.finite.inj h <;>
      obtain ⟨hsign', hm', he'⟩ := Exact.finite.inj h' <;>
      have hsame := hsigns negative hsign hsign' <;>
      simp only [hiddenBit, biased, biased', fraction, fraction'] at * <;>
      omega

section Bits

variable (b : BitVec Format.binary64.numBits)

theorem toNat_unpackMantissa : (unpackMantissa b).toNat = b.toNat % hiddenBit := by
  rw [unpackMantissa_def, BitVec.extractLsb'_toNat, Nat.shiftRight_zero]
  rfl

theorem toNat_unpackExponent : (unpackExponent b).toNat = b.toNat / hiddenBit % 2048 := by
  rw [unpackExponent_def, BitVec.extractLsb'_toNat, Nat.shiftRight_eq_div_pow]
  rfl

theorem toNat_unpackSign : (unpackSign b).toNat = b.toNat / hiddenBit / 2048 % 2 := by
  rw [unpackSign_def, BitVec.extractLsb'_toNat, Nat.shiftRight_eq_div_pow, Nat.div_div_eq_div_mul]
  rfl

theorem isNegative_ofBitVec (b : BitVec 1) :
    isNegative (Sign.ofBitVec b) = decide (b.toNat = 1) := by
  revert b; decide

theorem toNat_implicit_append (m : BitVec 52) : (1#1 ++ m).toNat = hiddenBit + m.toNat := by
  rw [BitVec.toNat_append, ← Nat.shiftLeft_add_eq_or_of_lt m.isLt]
  rfl

theorem Exact.ofBits_toNat :
    Exact.ofBits b.toNat = Exact.ofUnpacked (UnpackedFloat.unpack Format.binary64 b) := by
  have hm := toNat_unpackMantissa b
  have he := toNat_unpackExponent b
  have hs : isNegative (Sign.ofBitVec (unpackSign b)) =
      decide (b.toNat / hiddenBit / 2048 % 2 = 1) := by
    rw [isNegative_ofBitVec, toNat_unpackSign]
  have happend : (1#1 ++ unpackMantissa b).toNat = hiddenBit + b.toNat % hiddenBit := by
    rw [← hm]; exact toNat_implicit_append _
  have hall : unpackExponent b = -1#_ ↔ b.toNat / hiddenBit % 2048 = 2047 := by
    rw [← he, ← BitVec.toNat_inj]; rfl
  have hnone : unpackExponent b = 0#_ ↔ b.toNat / hiddenBit % 2048 = 0 := by
    rw [← he, ← BitVec.toNat_inj]; rfl
  have hfraction : unpackMantissa b = 0#_ ↔ b.toNat % hiddenBit = 0 := by
    rw [← hm, ← BitVec.toNat_inj]; rfl
  have hbias : (Format.binary64.exponentBias : ℤ) +
      Format.binary64.mantissaBitsWithoutImplicit = 1075 := rfl
  unfold Exact.ofBits UnpackedFloat.unpack
  simp only [hall, hnone, hfraction, hbias]
  split_ifs with h1 h2 h2 h3
  · simp [ofUnpacked, hs]
  · rfl
  · simp [ofUnpacked, hs, h3]
  · simp [ofUnpacked, hs, hm, he, h2]
  · simp [ofUnpacked, hs, he, happend]
end Bits

theorem Exact.ofFloat_eq (x : Float) : Exact.ofFloat x = Exact.ofUnpacked x.toModel.unpack :=
  Exact.ofBits_toNat x.toModel.toBits.toBitVec

theorem log2_of_normal {m : Nat} (hlow : hiddenBit ≤ m) (hhigh : m < 2 * hiddenBit) :
    m.log2 = 52 :=
  (Nat.log2_eq_iff (by simp [hiddenBit] at hlow; omega)).2 ⟨hlow, hhigh⟩

theorem ofNat_ne_ofNat {w n k : Nat} (hn : n < 2 ^ w) (hk : k < 2 ^ w) (h : n ≠ k) :
    BitVec.ofNat w n ≠ BitVec.ofNat w k := by
  intro heq
  have hnat := congrArg BitVec.toNat heq
  rw [BitVec.toNat_ofNat, BitVec.toNat_ofNat, Nat.mod_eq_of_lt hn, Nat.mod_eq_of_lt hk] at hnat
  exact h hnat

theorem unpack_pack {u : UnpackedFloat} (h : (Exact.ofUnpacked u).Canonical) :
    UnpackedFloat.unpack Format.binary64 (UnpackedFloat.pack Format.binary64 u) = u := by
  cases u with
  | notANumber => exact unpack_packedNaN
  | infinity s => cases s <;> rfl
  | zero s => exact unpack_packedZero
  | finite s m e hm =>
    obtain ⟨hhigh, hlow, htop, hform⟩ := h
    obtain ⟨biased, rfl⟩ : ∃ biased : Nat, e = (biased : ℤ) - 1075 := ⟨(e + 1075).toNat, by omega⟩
    have hexponent : ((biased : ℤ) - 1075 + Format.binary64.exponentBias +
        Format.binary64.mantissaBitsWithoutImplicit).toNat = biased := by
      change ((biased : ℤ) - 1075 + 1023 + 52).toNat = biased
      omega
    have hcap : ¬ 2 ^ Format.binary64.exponentBits ≤ biased + 1 := by
      change ¬ 2048 ≤ biased + 1
      omega
    simp only [UnpackedFloat.pack, hexponent, hcap, if_false]
    by_cases hnormal : hiddenBit ≤ m
    · have hlog : m.log2 + 1 = Format.binary64.mantissaBits := by
        rw [log2_of_normal hnormal hhigh]
        rfl
      have hbits : (BitVec.ofNat 11 biased).toNat = biased := Nat.mod_eq_of_lt (by omega)
      have hmantissa : (1#1 ++ BitVec.ofNat 52 m).toNat = m := by
        rw [toNat_implicit_append, BitVec.toNat_ofNat]
        change hiddenBit + m % hiddenBit = m
        rw [Nat.mod_eq_sub_mod hnormal, Nat.mod_eq_of_lt (by omega)]
        omega
      have hall : BitVec.ofNat 11 biased ≠ -1#11 :=
        ofNat_ne_ofNat (k := 2047) (by omega) (by omega) (by omega)
      have hnone : BitVec.ofNat 11 biased ≠ 0#11 :=
        ofNat_ne_ofNat (by omega) (by omega) (by omega)
      rw [if_pos hlog]
      simp only [UnpackedFloat.unpack, unpackExponent_packComponents, unpackMantissa_packComponents,
        unpackSign_packComponents, Sign.ofBitVec_toBitVec, hall, hnone, if_false, hmantissa, hbits]
      rfl
    · have hsmall : m < 2 ^ 52 := Nat.lt_of_not_le hnormal
      have hlog : ¬ m.log2 + 1 = Format.binary64.mantissaBits := by
        have hfew : m.log2 < 52 := (Nat.log2_lt (by omega)).2 hsmall
        change ¬ m.log2 + 1 = 53
        omega
      have hmantissa : (BitVec.ofNat 52 m).toNat = m := Nat.mod_eq_of_lt hsmall
      have hsome : BitVec.ofNat 52 m ≠ 0#52 := ofNat_ne_ofNat hsmall (by omega) (by omega)
      rw [if_neg hlog]
      simp only [UnpackedFloat.unpack, unpackExponent_packComponents, unpackMantissa_packComponents,
        unpackSign_packComponents, Sign.ofBitVec_toBitVec, hsome, hmantissa]
      obtain rfl : biased = 1 := by omega
      rfl

theorem Exact.ofFloat_pack {u : UnpackedFloat} (h : (Exact.ofUnpacked u).Canonical) :
    Exact.ofFloat (.ofModel (Float.Model.pack u)) = Exact.ofUnpacked u := by
  rw [Exact.ofFloat_eq]
  exact congrArg Exact.ofUnpacked (unpack_pack h)

/-- From `2^1024` on there is only infinity. -/
theorem Exact.ofFloat_pack_infinite {u : UnpackedFloat} {negative : Bool} {m : Nat} {e : ℤ}
    (hu : Exact.ofUnpacked u = .finite negative m e) (he : 972 ≤ e) :
    Exact.ofFloat (.ofModel (Float.Model.pack u)) = .infinite negative := by
  cases u with
  | notANumber => cases hu
  | infinity s => cases hu
  | zero s =>
    obtain ⟨-, -, rfl⟩ := Exact.finite.inj hu
    omega
  | finite s m' e' hm =>
    obtain ⟨rfl, -, rfl⟩ := Exact.finite.inj hu
    have hcap : 2 ^ Format.binary64.exponentBits ≤ (e' + Format.binary64.exponentBias +
        Format.binary64.mantissaBitsWithoutImplicit).toNat + 1 := by
      change 2048 ≤ (e' + 1023 + 52).toNat + 1
      omega
    have hpack : Float.Model.pack (.finite s m' e' hm) = Float.Model.pack (.infinity s) := by
      simp only [Float.Model.pack, UnpackedFloat.pack, hcap, if_true]
    rw [hpack]
    exact Exact.ofFloat_pack trivial

theorem Exact.canonical_ofFloat (x : Float) : (Exact.ofFloat x).Canonical :=
  Exact.canonical_ofBits x.toBits.toNat

theorem Exact.finite_of_isFinite {x : Float} (h : x.isFinite = true) :
    ∃ negative m e, Exact.ofFloat x = .finite negative m e := by
  rw [Exact.ofFloat_eq]
  change x.toModel.unpack.isFinite = true at h
  cases hu : x.toModel.unpack with
  | notANumber => rw [hu] at h; cases h
  | infinity s => rw [hu] at h; cases h
  | zero s => exact ⟨_, _, _, rfl⟩
  | finite s m e hm => exact ⟨_, _, _, rfl⟩

theorem unpack_neg (x : Float) : (-x).toModel.unpack = x.toModel.unpack.neg := by
  have hx := Exact.canonical_ofFloat x
  rw [Exact.ofFloat_eq] at hx
  apply unpack_pack
  cases hu : x.toModel.unpack <;> rw [hu] at hx <;> exact hx

theorem Exact.ofFloat_neg (x : Float) : Exact.ofFloat (-x) = (Exact.ofFloat x).neg := by
  rw [Exact.ofFloat_eq, Exact.ofFloat_eq, unpack_neg]
  cases x.toModel.unpack with
  | notANumber => rfl
  | infinity s | zero s | finite s m e hm => cases s <;> rfl

end GalvoWeld.Number
