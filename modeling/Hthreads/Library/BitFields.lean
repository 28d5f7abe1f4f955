import Mathlib.Data.BitVec
import Mathlib.Tactic

/-! Fields of a hardware word. Positions count from the most significant bit, the
way a vector declared `(0 to w - 1)` is indexed. -/

namespace Hthreads.Library.BitFields

variable {w k l : ℕ}

def bit (v : BitVec w) (i : ℕ) : Bool := v.getLsbD (w - 1 - i)

def slice (v : BitVec w) (first width : ℕ) : BitVec width :=
  v.extractLsb' (w - first - width) width

/-- `v(0 to first - 1) & x & v(first + k to w - 1)`. -/
def insert (first : ℕ) (x : BitVec k) (v : BitVec w) : BitVec w :=
  (slice v 0 first ++ x ++ slice v (first + k) (w - first - k)).setWidth w

lemma getLsbD_slice (v : BitVec w) (first width i : ℕ) :
    (slice v first width).getLsbD i =
      (decide (i < width) && v.getLsbD (w - first - width + i)) := by
  simp [slice]

lemma getLsbD_insert (first : ℕ) (x : BitVec k) (v : BitVec w) (h : first + k ≤ w) (i : ℕ) :
    (insert first x v).getLsbD i =
      if w - first - k ≤ i ∧ i < w - first then x.getLsbD (i - (w - first - k))
      else v.getLsbD i := by
  simp only [insert, BitVec.getLsbD_setWidth, BitVec.getLsbD_append, getLsbD_slice]
  by_cases hm : w - first - k ≤ i ∧ i < w - first
  · have hi : i < w := by omega
    have hlow : ¬ i < w - first - k := by omega
    have hmid : i - (w - first - k) < k := by omega
    rw [if_pos hm, if_neg hlow, if_pos hmid]
    simp [hi]
  · rw [if_neg hm]
    by_cases hlow : i < w - first - k
    · have hi : i < w := by omega
      have hz : w - (first + k) - (w - first - k) + i = i := by omega
      rw [if_pos hlow, hz]
      simp [hi, hlow]
    · have hmid : ¬ i - (w - first - k) < k := by omega
      rw [if_neg hlow, if_neg hmid]
      by_cases hi : i < w
      · have hz : w - 0 - first + (i - (w - first - k) - k) = i := by omega
        have hf : i - (w - first - k) - k < first := by omega
        rw [hz]
        simp [hi, hf]
      · simp [hi, BitVec.getLsbD_of_ge v i (by omega)]

lemma slice_insert_self (first : ℕ) (x : BitVec k) (v : BitVec w) (h : first + k ≤ w) :
    slice (insert first x v) first k = x := by
  apply BitVec.eq_of_getLsbD_eq
  intro i hi
  rw [getLsbD_slice, getLsbD_insert first x v h, if_pos (by omega), Nat.add_sub_cancel_left]
  simp [hi]

lemma slice_insert_of_disjoint (first other : ℕ) (x : BitVec k) (v : BitVec w)
    (h : first + k ≤ w) (ho : other + l ≤ w) (hd : other + l ≤ first ∨ first + k ≤ other) :
    slice (insert first x v) other l = slice v other l := by
  apply BitVec.eq_of_getLsbD_eq
  intro i hi
  rw [getLsbD_slice, getLsbD_insert first x v h, if_neg (by omega), getLsbD_slice]

lemma bit_insert_of_outside (first i : ℕ) (x : BitVec k) (v : BitVec w)
    (h : first + k ≤ w) (hi : i < w) (hd : i < first ∨ first + k ≤ i) :
    bit (insert first x v) i = bit v i := by
  rw [bit, getLsbD_insert first x v h, if_neg (by omega), bit]

lemma bit_insert_ofBool (i : ℕ) (b : Bool) (v : BitVec w) (h : i + 1 ≤ w) :
    bit (insert i (BitVec.ofBool b) v) i = b := by
  have hz : w - 1 - i - (w - i - 1) = 0 := by omega
  rw [bit, getLsbD_insert i (BitVec.ofBool b) v h, if_pos (by omega), hz]
  simp

section Counters

variable {c : BitVec w}

lemma toNat_succ_of_lt (h : c.toNat + 1 < 2 ^ w) : (c + 1).toNat = c.toNat + 1 := by
  have hone : (1 : BitVec w).toNat = 1 := by
    rw [BitVec.ofNat_eq_ofNat, BitVec.toNat_ofNat, Nat.mod_eq_of_lt (Nat.lt_of_add_left_lt h)]
  rw [BitVec.toNat_add, hone, Nat.mod_eq_of_lt h]

lemma toNat_pred_of_ne_zero (h : c ≠ 0) : (c - 1).toNat = c.toNat - 1 := by
  have hpos : c.toNat ≠ 0 := fun heq => h (BitVec.eq_of_toNat_eq (by simpa using heq))
  have hlt := c.isLt
  have hword : 1 < 2 ^ w := by omega
  have hone : (1 : BitVec w).toNat = 1 := by
    rw [BitVec.ofNat_eq_ofNat, BitVec.toNat_ofNat, Nat.mod_eq_of_lt hword]
  have hsum : 2 ^ w - 1 + c.toNat = c.toNat - 1 + 2 ^ w := by omega
  rw [BitVec.toNat_sub, hone, hsum, Nat.add_mod_right, Nat.mod_eq_of_lt (by omega)]

end Counters

end Hthreads.Library.BitFields
