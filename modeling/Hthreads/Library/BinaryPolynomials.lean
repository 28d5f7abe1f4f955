import Mathlib.Algebra.Polynomial.Div
import Mathlib.Data.ZMod.Basic
import Mathlib.Tactic

/-! Words read as polynomials over the field of two elements: bit `i` is the coefficient of
`X ^ i`. -/

namespace Hthreads.Library.BinaryPolynomials

open Polynomial

variable {w : ℕ}

noncomputable def poly (v : BitVec w) : (ZMod 2)[X] :=
  ∑ i ∈ Finset.range w, if v.getLsbD i then X ^ i else 0

lemma coeff_poly (v : BitVec w) (i : ℕ) :
    (poly v).coeff i = if v.getLsbD i then 1 else 0 := by
  have hterm : ∀ j ∈ Finset.range w, ((if v.getLsbD j then X ^ j else 0 : (ZMod 2)[X])).coeff i =
      if i = j then (if v.getLsbD i then 1 else 0) else 0 := by
    intro j _
    by_cases hij : i = j
    · subst hij
      by_cases hv : v.getLsbD i <;> simp [hv]
    · by_cases hv : v.getLsbD j <;> simp [hv, hij, coeff_X_pow]
  rw [poly, finsetSum_coeff, Finset.sum_congr rfl hterm, Finset.sum_ite_eq]
  by_cases hi : i < w
  · rw [if_pos (Finset.mem_range.mpr hi)]
  · rw [if_neg (by simpa using hi), BitVec.getLsbD_of_ge v i (by omega)]
    rfl

lemma poly_injective : Function.Injective (poly (w := w)) := by
  intro u v h
  apply BitVec.eq_of_getLsbD_eq
  intro i _
  have hc : (poly u).coeff i = (poly v).coeff i := congrArg (coeff · i) h
  rw [coeff_poly, coeff_poly] at hc
  cases hu : u.getLsbD i <;> cases hv : v.getLsbD i <;> simp_all

lemma poly_xor (u v : BitVec w) : poly (u ^^^ v) = poly u + poly v := by
  ext i
  rw [coeff_add, coeff_poly, coeff_poly, coeff_poly, BitVec.getLsbD_xor]
  cases u.getLsbD i <;> cases v.getLsbD i <;> decide

lemma degree_poly_lt_iff (v : BitVec w) (k : ℕ) :
    (poly v).degree < k ↔ ∀ i ≥ k, v.getLsbD i = false := by
  rw [degree_lt_iff_coeff_zero]
  refine forall₂_congr fun i _ => ?_
  rw [coeff_poly]
  cases v.getLsbD i <;> simp

lemma degree_poly_lt_iff_toNat (v : BitVec w) (k : ℕ) :
    (poly v).degree < k ↔ v.toNat < 2 ^ k := by
  rw [degree_poly_lt_iff]
  constructor
  · intro h
    exact Nat.lt_pow_two_of_testBit v.toNat fun i hi => h i hi
  · intro h i hi
    exact Nat.testBit_lt_two_pow (lt_of_lt_of_le h (Nat.pow_le_pow_right (by norm_num) hi))

lemma poly_shiftLeft (v : BitVec w) (k : ℕ) (h : ∀ i, w ≤ i + k → v.getLsbD i = false) :
    poly (v <<< k) = poly v * X ^ k := by
  ext i
  rw [coeff_mul_X_pow', coeff_poly, BitVec.getLsbD_shiftLeft]
  by_cases hk : k ≤ i
  · rw [if_pos hk, coeff_poly]
    by_cases hi : i < w
    · simp [hi, hk]
    · simp [hi, h (i - k) (by omega)]
  · simp [hk, Nat.lt_of_not_le hk]

/-- One step of long division: it takes a multiple of the divisor away. -/
lemma poly_xor_shiftLeft_modByMonic {g : BitVec w} (hg : (poly g).Monic) (r : BitVec w) (k : ℕ)
    (h : ∀ i, w ≤ i + k → g.getLsbD i = false) :
    poly (r ^^^ g <<< k) %ₘ poly g = poly r %ₘ poly g := by
  rw [poly_xor, poly_shiftLeft g k h, add_modByMonic, self_mul_modByMonic hg, add_zero]

end Hthreads.Library.BinaryPolynomials
