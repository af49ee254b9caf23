import Mathlib
import GalvoWeld.Proofs.Link.Remainder

/-!
# Bursts of wrong bits

Payloads of one length that differ only within sixteen consecutive bits have different checksums:
their polynomials differ by one of a degree below 16 times a power of `x`, and the generator, which
has no factor in common with a power of `x`, divides no such difference. Payloads of different
lengths are told apart by the length in the header.
-/

namespace GalvoWeld.Link

open Polynomial

/-! ### The bits of bytes -/

theorem length_dataBits (bytes : List UInt8) : (dataBits bytes).length = 8 * bytes.length := by
  induction bytes with
  | nil => rfl
  | cons byte rest ih => rw [length_dataBits_cons, ih, List.length_cons, Nat.mul_succ, Nat.add_comm]

theorem dataBits_inj {a b : List UInt8} (hlen : a.length = b.length)
    (h : dataBits a = dataBits b) : a = b := by
  induction a generalizing b with
  | nil => exact (List.length_eq_zero_iff.1 hlen.symm).symm
  | cons x front ih =>
    cases b with
    | nil => cases hlen
    | cons y back =>
      have hsame : byteBits x ++ dataBits front = byteBits y ++ dataBits back := h
      obtain ⟨hbyte, hrest⟩ := List.append_inj hsame (by simp only [byteBits, length_bitsOf])
      have hnumber := eq_of_bitsOf_eq x.toNat_lt y.toNat_lt hbyte
      rw [UInt8.toNat_inj.1 hnumber, ih (Nat.succ.inj hlen) hrest]

/-! ### Differences within a window -/

/-- The bits in which two texts differ lie within a window of so many consecutive ones. -/
def DifferWithin (width : Nat) (a b : List UInt8) : Prop :=
  ∃ start, ∀ i, (dataBits a)[i]? ≠ (dataBits b)[i]? → start ≤ i ∧ i < start + width

variable {width : Nat} {a b : List UInt8}

/-- The texts have the same bits before the window and behind it. -/
theorem DifferWithin.parts (hlen : a.length = b.length) (h : DifferWithin width a b) :
    ∃ front p q back, dataBits a = front ++ (p ++ back) ∧ dataBits b = front ++ (q ++ back) ∧
      p.length = q.length ∧ p.length ≤ width := by
  obtain ⟨start, hwindow⟩ := h
  have hout : ∀ i, i < start ∨ start + width ≤ i → (dataBits a)[i]? = (dataBits b)[i]? := by
    intro i hi
    by_contra hne
    have hin := hwindow i hne
    omega
  have hfront : (dataBits a).take start = (dataBits b).take start := by
    refine List.ext_getElem? fun i => ?_
    simp only [List.getElem?_take]
    split_ifs with hi
    · exact hout i (.inl hi)
    · rfl
  have hback : (dataBits a).drop (start + width) = (dataBits b).drop (start + width) := by
    refine List.ext_getElem? fun i => ?_
    simp only [List.getElem?_drop]
    exact hout (start + width + i) (.inr (Nat.le_add_right ..))
  refine ⟨(dataBits a).take start, ((dataBits a).drop start).take width,
    ((dataBits b).drop start).take width, (dataBits a).drop (start + width), ?_, ?_, ?_, ?_⟩
  · rw [List.drop_take_append_drop, List.take_append_drop]
  · rw [hfront, hback, List.drop_take_append_drop, List.take_append_drop]
  · simp only [List.length_take, List.length_drop, length_dataBits, hlen]
  · exact List.length_take_le ..

/-! ### What the generator divides -/

theorem degree_bitPolynomial_lt (bits : List Bool) :
    (bitPolynomial bits).degree < (bits.length : ℕ) := by
  rw [degree_lt_iff_coeff_zero]
  exact fun i hi => coeff_bitPolynomial_of_le hi

/-- The generator ends in 1. -/
theorem isCoprime_generator (n : ℕ) : IsCoprime generator (X ^ n) := by
  have hone : IsCoprime generator X := by
    refine ⟨1, -(X ^ 15 + X ^ 11 + X ^ 4), ?_⟩
    rw [generator]
    ring
  exact hone.pow_right

/-- Bits that are no more than the degree of the generator are known from their residue, wherever
they stand. -/
theorem eq_of_dvd_shifted {p q : List Bool} (hlen : p.length = q.length) (hshort : p.length ≤ 16)
    {n : ℕ} (hdvd : generator ∣ (bitPolynomial p - bitPolynomial q) * X ^ n) : p = q := by
  have hdiff : generator ∣ bitPolynomial p - bitPolynomial q :=
    (isCoprime_generator n).dvd_of_dvd_mul_right hdvd
  have hdegree : (bitPolynomial p - bitPolynomial q).degree < generator.degree := by
    have hp := degree_bitPolynomial_lt p
    have hq := degree_bitPolynomial_lt q
    rw [← hlen] at hq
    have hsixteen : ((p.length : ℕ) : WithBot ℕ) ≤ (16 : ℕ) := Nat.cast_le.2 hshort
    rw [degree_generator]
    exact ((degree_sub_le _ _).trans_lt (max_lt hp hq)).trans_le hsixteen
  refine bitPolynomial_inj hlen (sub_eq_zero.1 ?_)
  by_contra hne
  exact monic_generator.not_dvd_of_degree_lt hne hdegree hdiff

theorem checksum_ne_of_differWithin (hlen : a.length = b.length) (hne : a ≠ b)
    (h : DifferWithin 16 a b) : checksum a ≠ checksum b := by
  intro hsame
  obtain ⟨front, p, q, back, ha, hb, hpq, hshort⟩ := h.parts hlen
  have hdvd : generator ∣ dataPolynomial a * X ^ 16 - dataPolynomial b * X ^ 16 := by
    rw [← residue_eq_iff, ← residue_checksum, ← residue_checksum, hsame]
  have hdiff : dataPolynomial a * X ^ 16 - dataPolynomial b * X ^ 16 =
      (bitPolynomial p - bitPolynomial q) * X ^ (back.length + 16) := by
    simp only [dataPolynomial, ha, hb, bitPolynomial_append, List.length_append, hpq]
    ring
  rw [hdiff] at hdvd
  obtain rfl := eq_of_dvd_shifted hpq hshort hdvd
  exact hne (dataBits_inj hlen (ha.trans hb.symm))

/-! ### Headers -/

theorem bitsOf_of_byteAt_eq {m n : Nat} (h : ∀ place < width, byteAt m place = byteAt n place) :
    bitsOf (8 * width) m = bitsOf (8 * width) n := by
  induction width with
  | zero => rfl
  | succ width ih =>
    have htop := congrArg byteBits (h width (Nat.lt_succ_self width))
    rw [byteBits_byteAt, byteBits_byteAt] at htop
    rw [Nat.mul_succ, Nat.add_comm, bitsOf_add, bitsOf_add, htop,
      ih fun place hplace => h place (Nat.lt_succ_of_lt hplace)]

/-- A number is known from its bytes, if they are all there. -/
theorem eq_of_byteAt_eq {m n : Nat} (hm : m < 256 ^ width) (hn : n < 256 ^ width)
    (h : ∀ place < width, byteAt m place = byteAt n place) : m = n := by
  have hpow : 256 ^ width = 2 ^ (8 * width) := (pow_mul 2 8 width).symm
  rw [hpow] at hm hn
  exact eq_of_bitsOf_eq hm hn (bitsOf_of_byteAt_eq h)

theorem length_of_frameHeader_eq (ha : a.length < 2 ^ 32) (hb : b.length < 2 ^ 32)
    (h : frameHeader a = frameHeader b) : a.length = b.length := by
  simp only [frameHeader, List.cons.injEq, true_and] at h
  obtain ⟨h3, h2, h1, h0, -⟩ := h
  have hbytes : ∀ place < 4, byteAt a.length place = byteAt b.length place := by
    intro place hplace
    interval_cases place
    · exact h0
    · exact h1
    · exact h2
    · exact h3
  have hpow : (2 : Nat) ^ 32 = 256 ^ 4 := by norm_num
  rw [hpow] at ha hb
  exact eq_of_byteAt_eq ha hb hbytes

theorem checksum_of_frameHeader_eq (h : frameHeader a = frameHeader b) :
    checksum a = checksum b := by
  simp only [frameHeader, List.cons.injEq, true_and, and_true] at h
  obtain ⟨-, -, -, -, h1, h0⟩ := h
  have hbytes : ∀ place < 2,
      byteAt (checksum a).toNat place = byteAt (checksum b).toNat place := by
    intro place hplace
    interval_cases place
    · exact h0
    · exact h1
  have hlt : ∀ word : UInt16, word.toNat < 256 ^ 2 := UInt16.toNat_lt
  exact UInt16.toNat_inj.1 (eq_of_byteAt_eq (hlt _) (hlt _) hbytes)

/-- Two payloads that are not the same have different headers, if their lengths differ or their bits
differ within sixteen consecutive ones only. -/
theorem frameHeader_ne_of_burst (ha : a.length < 2 ^ 32) (hb : b.length < 2 ^ 32) (hne : a ≠ b)
    (hburst : a.length = b.length → DifferWithin 16 a b) : frameHeader a ≠ frameHeader b := by
  intro hsame
  have hlen := length_of_frameHeader_eq ha hb hsame
  exact checksum_ne_of_differWithin hlen hne (hburst hlen) (checksum_of_frameHeader_eq hsame)

/-- Sixteen bits over three bytes, of which the first and the last one are wrong. -/
theorem frameHeader_ne_of_wide_burst :
    DifferWithin 16 [0x50, 0x57, 0x35] [0x58, 0x57, 0x25] ∧
    frameHeader [0x50, 0x57, 0x35] ≠ frameHeader [0x58, 0x57, 0x25] := by
  have hbits : ∀ i < 24, (dataBits [0x50, 0x57, 0x35])[i]? ≠ (dataBits [0x58, 0x57, 0x25])[i]? →
      4 ≤ i ∧ i < 4 + 16 := by decide +kernel
  have hwithin : DifferWithin 16 [0x50, 0x57, 0x35] [0x58, 0x57, 0x25] := by
    refine ⟨4, fun i hi => ?_⟩
    by_cases hin : i < 24
    · exact hbits i hin hi
    · have hend : ∀ bytes : List UInt8, bytes.length = 3 → (dataBits bytes)[i]? = none := by
        intro bytes hlen
        rw [List.getElem?_eq_none_iff, length_dataBits, hlen]
        exact Nat.le_of_not_lt hin
      exact absurd ((hend _ rfl).trans (hend _ rfl).symm) hi
  exact ⟨hwithin, frameHeader_ne_of_burst (by decide) (by decide) (by decide) fun _ => hwithin⟩

-- seventeen bits are too many: those of the generator itself
example : frameHeader [0, 0, 0] = frameHeader [0x01, 0x10, 0x21] := by decide +kernel

end GalvoWeld.Link
