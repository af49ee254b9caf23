import Mathlib
import GalvoWeld.Link.Frame

/-!
# The checksum as a remainder

The bits of a text are the coefficients of a polynomial over the field of two elements, the most
significant bit of each byte first. The register holds the polynomial of the bits taken so far,
times `x^16`, modulo the generator: shifting it by one bit multiplies by `x`, and a bit that falls
out at the top is taken back by the generator.
-/

namespace GalvoWeld.Link

open Polynomial

/-! ### Bits as coefficients -/

def bitValue (b : Bool) : ZMod 2 := if b then 1 else 0

/-- The polynomial of bits, the highest power first. -/
noncomputable def bitPolynomial : List Bool → (ZMod 2)[X]
  | [] => 0
  | b :: rest => C (bitValue b) * X ^ rest.length + bitPolynomial rest

/-- The lowest bits of a number, the most significant one first. -/
def bitsOf : (width : Nat) → Nat → List Bool
  | 0, _ => []
  | width + 1, n => n.testBit width :: bitsOf width n

theorem bitValue_injective : Function.Injective bitValue := by decide

theorem bitValue_xor (a b : Bool) : bitValue (a ^^ b) = bitValue a + bitValue b := by
  cases a <;> cases b <;> decide

theorem length_bitsOf (width n : Nat) : (bitsOf width n).length = width := by
  induction width with
  | zero => rfl
  | succ width ih => simp only [bitsOf, List.length_cons, ih]

theorem bitsOf_congr {width m n : Nat} (h : ∀ i < width, m.testBit i = n.testBit i) :
    bitsOf width m = bitsOf width n := by
  induction width with
  | zero => rfl
  | succ width ih =>
    rw [bitsOf, bitsOf, h width (Nat.lt_succ_self width), ih fun i hi => h i (Nat.lt_succ_of_lt hi)]

theorem bitsOf_mod (width n : Nat) : bitsOf width (n % 2 ^ width) = bitsOf width n := by
  refine bitsOf_congr fun i hi => ?_
  rw [Nat.testBit_mod_two_pow]
  simp only [hi, decide_true, Bool.true_and]

theorem bitsOf_add (high low n : Nat) :
    bitsOf (high + low) n = bitsOf high (n >>> low) ++ bitsOf low n := by
  induction high with
  | zero => rw [Nat.zero_add]; rfl
  | succ high ih =>
    have hbit : (n >>> low).testBit high = n.testBit (high + low) := by
      rw [Nat.testBit_shiftRight, Nat.add_comm]
    rw [Nat.add_right_comm, bitsOf, ih, bitsOf, hbit, List.cons_append]

theorem bitPolynomial_append (front back : List Bool) :
    bitPolynomial (front ++ back) =
      bitPolynomial front * X ^ back.length + bitPolynomial back := by
  induction front with
  | nil => simp [bitPolynomial]
  | cons b rest ih =>
    simp only [List.cons_append, bitPolynomial, ih, List.length_append, pow_add]
    ring

theorem coeff_bitsOf (width n i : Nat) :
    (bitPolynomial (bitsOf width n)).coeff i = if i < width then bitValue (n.testBit i) else 0 := by
  induction width with
  | zero => simp [bitsOf, bitPolynomial]
  | succ width ih =>
    rw [bitsOf, bitPolynomial, length_bitsOf, coeff_add, coeff_C_mul_X_pow, ih]
    rcases Nat.lt_trichotomy i width with hlt | rfl | hgt
    · simp [hlt, Nat.lt_succ_of_lt hlt, hlt.ne]
    · simp
    · simp [hgt.ne', Nat.not_lt.2 hgt.le, Nat.not_lt.2 (Nat.succ_le_of_lt hgt)]

theorem coeff_bitPolynomial_of_le {bits : List Bool} {i : Nat} (hi : bits.length ≤ i) :
    (bitPolynomial bits).coeff i = 0 := by
  induction bits with
  | nil => rw [bitPolynomial, coeff_zero]
  | cons b rest ih =>
    rw [List.length_cons] at hi
    rw [bitPolynomial, coeff_add, coeff_C_mul_X_pow, if_neg (by omega), ih (by omega), add_zero]

/-- Bits are known from their polynomial, if their number is. -/
theorem bitPolynomial_inj {a b : List Bool} (hlen : a.length = b.length)
    (h : bitPolynomial a = bitPolynomial b) : a = b := by
  induction a generalizing b with
  | nil => exact (List.length_eq_zero_iff.1 hlen.symm).symm
  | cons x front ih =>
    cases b with
    | nil => cases hlen
    | cons y back =>
      have hrest : front.length = back.length := Nat.succ.inj hlen
      simp only [bitPolynomial, hrest] at h
      have htop := congrArg (fun p => p.coeff back.length) h
      simp only [coeff_add, coeff_C_mul_X_pow, if_true, coeff_bitPolynomial_of_le hrest.le,
        coeff_bitPolynomial_of_le (le_refl back.length), add_zero] at htop
      obtain rfl := bitValue_injective htop
      rw [ih hrest (add_left_cancel h)]

/-- A number is known from its bits, if they are all there. -/
theorem eq_of_bitsOf_eq {width m n : Nat} (hm : m < 2 ^ width) (hn : n < 2 ^ width)
    (h : bitsOf width m = bitsOf width n) : m = n := by
  refine Nat.eq_of_testBit_eq fun i => ?_
  by_cases hi : i < width
  · have hcoeff := congrArg (fun bits => (bitPolynomial bits).coeff i) h
    simp only [coeff_bitsOf, if_pos hi] at hcoeff
    exact bitValue_injective hcoeff
  · have hpow := Nat.pow_le_pow_right (Nat.succ_pos 1) (Nat.le_of_not_lt hi)
    rw [Nat.testBit_lt_two_pow (hm.trans_le hpow), Nat.testBit_lt_two_pow (hn.trans_le hpow)]

theorem bitPolynomial_xor (width m n : Nat) :
    bitPolynomial (bitsOf width (m ^^^ n)) =
      bitPolynomial (bitsOf width m) + bitPolynomial (bitsOf width n) := by
  ext i
  rw [coeff_add, coeff_bitsOf, coeff_bitsOf, coeff_bitsOf, Nat.testBit_xor, bitValue_xor]
  split_ifs
  · rfl
  · rw [add_zero]

theorem bitPolynomial_shiftLeft (width k n : Nat) :
    bitPolynomial (bitsOf (width + k) (n <<< k)) = bitPolynomial (bitsOf width n) * X ^ k := by
  ext i
  rw [coeff_mul_X_pow', coeff_bitsOf, Nat.testBit_shiftLeft]
  by_cases hk : k ≤ i
  · rw [if_pos hk, coeff_bitsOf]
    simp [hk, show i - k < width ↔ i < width + k by omega]
  · simp [hk, bitValue]

/-! ### Bytes and registers -/

def byteBits (byte : UInt8) : List Bool := bitsOf 8 byte.toNat

def dataBits (bytes : List UInt8) : List Bool := bytes.flatMap byteBits

noncomputable def bytePolynomial (byte : UInt8) : (ZMod 2)[X] := bitPolynomial (byteBits byte)

noncomputable def dataPolynomial (bytes : List UInt8) : (ZMod 2)[X] :=
  bitPolynomial (dataBits bytes)

noncomputable def registerPolynomial (register : UInt16) : (ZMod 2)[X] :=
  bitPolynomial (bitsOf 16 register.toNat)

theorem dataPolynomial_cons (byte : UInt8) (rest : List UInt8) :
    dataPolynomial (byte :: rest) =
      bytePolynomial byte * X ^ (dataBits rest).length + dataPolynomial rest := by
  rw [dataPolynomial, dataBits, List.flatMap_cons, bitPolynomial_append]
  rfl

theorem length_dataBits_cons (byte : UInt8) (rest : List UInt8) :
    (dataBits (byte :: rest)).length = 8 + (dataBits rest).length := by
  rw [dataBits, List.flatMap_cons, List.length_append, byteBits, length_bitsOf]
  rfl

theorem degree_register_lt (register : UInt16) :
    (registerPolynomial register).degree < (16 : ℕ) := by
  rw [degree_lt_iff_coeff_zero]
  intro i hi
  rw [registerPolynomial, coeff_bitsOf, if_neg (Nat.not_lt.2 hi)]

theorem register_zero : registerPolynomial 0 = 0 := by
  ext i
  simp [registerPolynomial, coeff_bitsOf, bitValue]

/-- A register is known from its polynomial. -/
theorem register_injective : Function.Injective registerPolynomial := by
  intro a b h
  have hbits := bitPolynomial_inj (by rw [length_bitsOf, length_bitsOf]) h
  exact UInt16.toNat_inj.1 (eq_of_bitsOf_eq a.toNat_lt b.toNat_lt hbits)

theorem register_xor (a b : UInt16) :
    registerPolynomial (a ^^^ b) = registerPolynomial a + registerPolynomial b := by
  rw [registerPolynomial, UInt16.toNat_xor, bitPolynomial_xor]
  rfl

theorem bits_shiftLeft (register : UInt16) {count : UInt16} (hcount : count.toNat < 16) :
    bitsOf 16 (register <<< count).toNat = bitsOf 16 (register.toNat <<< count.toNat) := by
  rw [UInt16.toNat_shiftLeft, Nat.mod_eq_of_lt hcount, bitsOf_mod]

/-- The bit that falls out of a register stands for `x^16`. -/
theorem register_shiftLeft (register : UInt16) :
    registerPolynomial (register <<< 1) + C (bitValue (register.toNat.testBit 15)) * X ^ 16 =
      registerPolynomial register * X := by
  have hshift := bitPolynomial_shiftLeft 16 1 register.toNat
  have htop : (register.toNat <<< 1).testBit 16 = register.toNat.testBit 15 := by
    rw [Nat.testBit_shiftLeft]
    rfl
  rw [bitsOf, bitPolynomial, length_bitsOf, htop, pow_one] at hshift
  rw [registerPolynomial, bits_shiftLeft register (by decide), add_comm]
  exact hshift

theorem register_ofByte (byte : UInt8) :
    registerPolynomial (byte.toUInt16 <<< 8) = bytePolynomial byte * X ^ 8 := by
  rw [registerPolynomial, bits_shiftLeft _ (by decide)]
  exact bitPolynomial_shiftLeft 8 8 byte.toNat

theorem topBit_eq_zero (register : UInt16) :
    register &&& 0x8000 = 0 ↔ register.toNat.testBit 15 = false := by
  rw [← UInt16.toNat_inj, UInt16.toNat_and]
  change register.toNat &&& 2 ^ 15 = 0 ↔ _
  rw [Nat.and_two_pow]
  cases register.toNat.testBit 15 <;> decide

/-! ### The generator -/

noncomputable def generator : (ZMod 2)[X] := X ^ 16 + X ^ 12 + X ^ 5 + 1

theorem generator_eq : generator = X ^ 16 + registerPolynomial polynomial := by
  have hbits : bitsOf 16 polynomial.toNat = [false, false, false, true, false, false, false, false,
    false, false, true, false, false, false, false, true] := by decide +kernel
  rw [registerPolynomial, hbits, generator]
  simp [bitPolynomial, bitValue]
  ring

theorem monic_generator : generator.Monic := by
  rw [generator_eq]
  exact monic_X_pow_add (degree_register_lt polynomial)

theorem degree_generator : generator.degree = (16 : ℕ) := by
  have hbelow : (registerPolynomial polynomial).degree < (X ^ 16 : (ZMod 2)[X]).degree := by
    rw [degree_X_pow]
    exact degree_register_lt polynomial
  rw [generator_eq, degree_add_eq_left_of_degree_lt hbelow, degree_X_pow]

/-- What a polynomial comes to modulo the generator. -/
noncomputable def residue : (ZMod 2)[X] →+* AdjoinRoot generator := AdjoinRoot.mk generator

theorem residue_eq_iff (p q : (ZMod 2)[X]) : residue p = residue q ↔ generator ∣ p - q :=
  AdjoinRoot.mk_eq_mk

/-- A register is the remainder of every polynomial with its residue. -/
theorem register_eq_mod {register : UInt16} {p : (ZMod 2)[X]}
    (h : residue (registerPolynomial register) = residue p) :
    registerPolynomial register = p %ₘ generator := by
  have hsame := modByMonic_eq_of_dvd_sub monic_generator ((residue_eq_iff _ _).1 h)
  rw [← hsame, eq_comm, modByMonic_eq_self_iff monic_generator, degree_generator]
  exact degree_register_lt register

/-! ### The register modulo the generator -/

theorem residue_shiftBit (register : UInt16) :
    residue (registerPolynomial (shiftBit register)) =
      residue (registerPolynomial register * X) := by
  rw [← register_shiftLeft, shiftBit]
  by_cases htop : register &&& 0x8000 = 0
  · rw [if_pos htop, (topBit_eq_zero register).1 htop]
    simp [bitValue]
  · have hset : register.toNat.testBit 15 = true := by
      simpa using mt (topBit_eq_zero register).2 htop
    -- what is taken back and what was shifted out differ by the generator
    have hdiff : registerPolynomial polynomial - C (bitValue true) * X ^ 16 = generator := by
      rw [CharTwo.sub_eq_add, add_comm, generator_eq, bitValue, if_pos rfl, C_1, one_mul]
    rw [if_neg htop, hset, register_xor, residue_eq_iff, add_sub_add_left_eq_sub, hdiff]

theorem residue_shiftBits (count : Nat) (register : UInt16) :
    residue (registerPolynomial (Nat.repeat shiftBit count register)) =
      residue (registerPolynomial register * X ^ count) := by
  induction count with
  | zero => rw [pow_zero, mul_one]; rfl
  | succ count ih =>
    rw [Nat.repeat, residue_shiftBit, map_mul, ih, ← map_mul, pow_succ, mul_assoc]

theorem residue_takeByte (register : UInt16) (byte : UInt8) :
    residue (registerPolynomial (takeByte register byte)) =
      residue (registerPolynomial register * X ^ 8 + bytePolynomial byte * X ^ 16) := by
  have hparts : (registerPolynomial register + bytePolynomial byte * X ^ 8) * X ^ 8 =
      registerPolynomial register * X ^ 8 + bytePolynomial byte * X ^ 16 := by
    ring
  rw [takeByte, residue_shiftBits, register_xor, register_ofByte, hparts]

/-- The register behind further bytes: what it held moves up by their bits. -/
theorem residue_takeBytes (bytes : List UInt8) (register : UInt16) :
    residue (registerPolynomial (bytes.foldl takeByte register)) =
      residue (registerPolynomial register * X ^ (dataBits bytes).length +
        dataPolynomial bytes * X ^ 16) := by
  induction bytes generalizing register with
  | nil => simp [dataPolynomial, dataBits, bitPolynomial]
  | cons byte rest ih =>
    have hmoved :
        (registerPolynomial register * X ^ 8 + bytePolynomial byte * X ^ 16) *
            X ^ (dataBits rest).length + dataPolynomial rest * X ^ 16 =
          registerPolynomial register * X ^ (8 + (dataBits rest).length) +
            (bytePolynomial byte * X ^ (dataBits rest).length + dataPolynomial rest) * X ^ 16 := by
      ring
    rw [List.foldl_cons, ih, map_add, map_mul, residue_takeByte, ← map_mul, ← map_add, hmoved,
      dataPolynomial_cons, length_dataBits_cons]

theorem residue_checksum (bytes : List UInt8) :
    residue (registerPolynomial (checksum bytes)) = residue (dataPolynomial bytes * X ^ 16) := by
  rw [checksum, residue_takeBytes, register_zero, zero_mul, zero_add]

/-! ### The bytes of a checksum -/

theorem byteBits_byteAt (n place : Nat) :
    byteBits (byteAt n place) = bitsOf 8 (n >>> (8 * place)) := by
  have hbyte : (byteAt n place).toNat = (n >>> (8 * place)) % 2 ^ 8 := by
    rw [Nat.shiftRight_eq_div_pow, pow_mul]
    rfl
  rw [byteBits, hbyte, bitsOf_mod]

/-- The last two bytes of a header are the bits of the checksum. -/
theorem dataBits_header (bytes : List UInt8) :
    dataBits ((frameHeader bytes).drop 6) = bitsOf 16 (checksum bytes).toNat := by
  have hlast : (frameHeader bytes).drop 6 =
      [byteAt (checksum bytes).toNat 1, byteAt (checksum bytes).toNat 0] := rfl
  rw [hlast, bitsOf_add 8 8]
  simp only [dataBits, List.flatMap_cons, List.flatMap_nil, List.append_nil, byteBits_byteAt]
  rfl

/-- The checksum of any bytes is the remainder of their polynomial times `x^16`. Followed by its own
two bytes, as a header has them, they have the checksum 0. -/
theorem checksum_is_remainder (bytes : List UInt8) :
    registerPolynomial (checksum bytes) =
      (dataPolynomial bytes * X ^ 16) %ₘ (X ^ 16 + X ^ 12 + X ^ 5 + 1) ∧
    checksum (bytes ++ (frameHeader bytes).drop 6) = 0 := by
  constructor
  · exact register_eq_mod (residue_checksum bytes)
  · have hcheck := residue_takeBytes ((frameHeader bytes).drop 6) (checksum bytes)
    have hsame : dataPolynomial ((frameHeader bytes).drop 6) =
        registerPolynomial (checksum bytes) := by
      rw [dataPolynomial, dataBits_header, registerPolynomial]
    rw [hsame, dataBits_header, length_bitsOf, CharTwo.add_self_eq_zero] at hcheck
    refine register_injective ?_
    rw [checksum, List.foldl_append, register_zero]
    exact (register_eq_mod hcheck).trans (zero_modByMonic generator)

-- the digits from 1 to 9
example : checksum [0x31, 0x32, 0x33, 0x34, 0x35, 0x36, 0x37, 0x38, 0x39] = 0x31c3 := by
  decide +kernel

end GalvoWeld.Link
