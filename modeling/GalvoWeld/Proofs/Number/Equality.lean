import Mathlib

/-!
# Equality of doubles

Comparing two doubles with `==` tells them apart but for the sign of a zero: what compares equal is
the same double, or both are zeros. NaN differs even from itself.
-/

namespace GalvoWeld.Number

open Float.Model Float.Model.UnpackedFloat

/-- A zero of either sign. -/
def IsZero (x : Float) : Prop := x = 0.0 ∨ x = -0.0

/-- The same double, but for the sign of a zero. -/
def SameValue (x y : Float) : Prop := x = y ∨ (IsZero x ∧ IsZero y)

theorem SameValue.refl (x : Float) : SameValue x x := .inl rfl

theorem eq_of_bits {x y : Float}
    (h : x.toModel.toBits.toBitVec = y.toModel.toBits.toBitVec) : x = y := by
  obtain ⟨⟨bits, hvalid⟩⟩ := x
  obtain ⟨⟨bits', hvalid'⟩⟩ := y
  obtain rfl : bits = bits' := UInt64.toBitVec_inj.1 h
  rfl

theorem isZero_of_bits {x : Float} {s : Sign}
    (h : x.toModel.toBits.toBitVec = packedZero Format.binary64 s) : IsZero x := by
  cases s with
  | positive => exact .inl (eq_of_bits (h.trans rfl))
  | negative => exact .inr (eq_of_bits (h.trans rfl))

theorem sameValue_of_beq {x y : Float} (h : (x == y) = true) : SameValue x y := by
  have hbits := (unpack_beq_unpack_iff x.toModel.valid y.toModel.valid).1 h
  rcases hbits.2.2 with heq | ⟨hx, hy⟩ | ⟨hx, hy⟩
  · exact .inl (eq_of_bits heq)
  · exact .inr ⟨isZero_of_bits hx, isZero_of_bits hy⟩
  · exact .inr ⟨isZero_of_bits hx, isZero_of_bits hy⟩

end GalvoWeld.Number
