import Mathlib.Data.BitVec
import Mathlib.Data.ZMod.Basic
import Mathlib.Algebra.Field.ZMod
import Mathlib.Tactic

/-! Words multiplied modulo `2 ^ w + 1`, with the zero word in the place of `2 ^ w`. -/

namespace Hthreads.Library.FermatWords

variable {w : ℕ}

def value (a : BitVec w) : ℕ := if a = 0 then 2 ^ w else a.toNat

def residue (a : BitVec w) : ZMod (2 ^ w + 1) := value a

def word (x : ZMod (2 ^ w + 1)) : BitVec w := .ofNat w x.val

def times (a b : BitVec w) : BitVec w := word (residue a * residue b)

def inv (a : BitVec w) : BitVec w := word (residue a)⁻¹

lemma value_pos (a : BitVec w) : 0 < value a := by
  rw [value]
  split
  · exact Nat.two_pow_pos w
  · rename_i h
    exact Nat.pos_of_ne_zero fun h0 => h (BitVec.eq_of_toNat_eq h0)

lemma value_le (a : BitVec w) : value a ≤ 2 ^ w := by
  rw [value]
  split
  · exact Nat.le_refl _
  · exact Nat.le_of_lt a.isLt

lemma val_residue (a : BitVec w) : (residue a).val = value a :=
  ZMod.val_cast_of_lt (Nat.lt_succ_of_le (value_le a))

lemma residue_ne_zero (a : BitVec w) : residue a ≠ 0 := by
  intro h
  have hval := val_residue a
  rw [h, ZMod.val_zero] at hval
  exact Nat.ne_of_lt (value_pos a) hval

lemma word_residue (a : BitVec w) : word (residue a) = a := by
  apply BitVec.eq_of_toNat_eq
  rw [word, val_residue, BitVec.toNat_ofNat, value]
  split
  · rename_i h
    rw [h, Nat.mod_self]
    rfl
  · exact Nat.mod_eq_of_lt a.isLt

lemma value_ofNat {x : ℕ} (h0 : 0 < x) (hle : x ≤ 2 ^ w) : value (BitVec.ofNat w x) = x := by
  rcases Nat.lt_or_eq_of_le hle with hlt | rfl
  · have hx : (BitVec.ofNat w x).toNat = x := by rw [BitVec.toNat_ofNat, Nat.mod_eq_of_lt hlt]
    have hne : BitVec.ofNat w x ≠ 0 := by
      intro h
      rw [h] at hx
      exact Nat.ne_of_lt h0 hx
    rw [value, if_neg hne, hx]
  · have hzero : BitVec.ofNat w (2 ^ w) = 0 := by
      apply BitVec.eq_of_toNat_eq
      rw [BitVec.toNat_ofNat, Nat.mod_self]
      rfl
    rw [value, if_pos hzero]

lemma residue_word {x : ZMod (2 ^ w + 1)} (hx : x ≠ 0) : residue (word x) = x := by
  have h0 : 0 < x.val := Nat.pos_of_ne_zero fun h => hx ((ZMod.val_eq_zero x).mp h)
  have hle : x.val ≤ 2 ^ w := Nat.le_of_lt_succ (ZMod.val_lt x)
  rw [residue, word, value_ofNat h0 hle, ZMod.natCast_zmod_val]

section Prime

variable [Fact (2 ^ w + 1).Prime]

lemma residue_times (a b : BitVec w) : residue (times a b) = residue a * residue b :=
  residue_word (mul_ne_zero (residue_ne_zero a) (residue_ne_zero b))

lemma residue_inv (a : BitVec w) : residue (inv a) = (residue a)⁻¹ :=
  residue_word (inv_ne_zero (residue_ne_zero a))

theorem times_inv (a b : BitVec w) : times (times a b) (inv b) = a := by
  rw [times, residue_times, residue_inv, mul_assoc, mul_inv_cancel₀ (residue_ne_zero b), mul_one,
    word_residue]

end Prime

lemma natCast_two_pow : ((2 ^ w : ℕ) : ZMod (2 ^ w + 1)) = -1 := by
  rw [eq_neg_iff_add_eq_zero, ← Nat.cast_succ]
  exact ZMod.natCast_self _

lemma word_natCast {x : ℕ} (hle : x ≤ 2 ^ w) :
    word ((x : ℕ) : ZMod (2 ^ w + 1)) = .ofNat w x := by
  rw [word, ZMod.val_cast_of_lt (Nat.lt_succ_of_le hle)]

lemma times_comm (a b : BitVec w) : times a b = times b a := by
  rw [times, times, mul_comm]

lemma zero_times (b : BitVec w) : times 0 b = .ofNat w (2 ^ w + 1 - b.toNat) := by
  have hres : residue (0 : BitVec w) * residue b = -residue b := by
    rw [residue, value, if_pos rfl, natCast_two_pow, neg_one_mul]
  rw [times, hres]
  by_cases hb : b = 0
  · rw [hb, residue, value, if_pos rfl, natCast_two_pow, neg_neg, ← Nat.cast_one,
      word_natCast (Nat.one_le_two_pow)]
    apply BitVec.eq_of_toNat_eq
    simp
  · have hpos : 0 < b.toNat := Nat.pos_of_ne_zero fun h => hb (BitVec.eq_of_toNat_eq h)
    have hneg : -residue b = ((2 ^ w + 1 - b.toNat : ℕ) : ZMod (2 ^ w + 1)) := by
      rw [Nat.cast_sub (by have := b.isLt; omega), ZMod.natCast_self, zero_sub, residue, value,
        if_neg hb]
    rw [hneg, word_natCast (by omega)]

/-- Low half minus high half: as two to the `w` is minus one, only the sign has to be mended. -/
lemma word_of_halves {q : ℕ} (hq : q < 2 ^ w * 2 ^ w) :
    word ((q : ℕ) : ZMod (2 ^ w + 1)) =
      .ofNat w (if q / 2 ^ w ≤ q % 2 ^ w then q % 2 ^ w - q / 2 ^ w
        else q % 2 ^ w + (2 ^ w + 1) - q / 2 ^ w) := by
  have hhigh : q / 2 ^ w < 2 ^ w := Nat.div_lt_of_lt_mul hq
  have hlow : q % 2 ^ w < 2 ^ w := Nat.mod_lt _ (Nat.two_pow_pos w)
  have hcast : ((q : ℕ) : ZMod (2 ^ w + 1)) = (q % 2 ^ w : ℕ) - (q / 2 ^ w : ℕ) := by
    conv_lhs => rw [← Nat.div_add_mod q (2 ^ w)]
    rw [Nat.cast_add, Nat.cast_mul, natCast_two_pow, neg_one_mul, neg_add_eq_sub]
  rw [hcast]
  generalize q / 2 ^ w = high at *
  generalize q % 2 ^ w = low at *
  clear hq hcast
  split
  · rename_i hle
    rw [← Nat.cast_sub hle, word_natCast (by omega)]
  · rename_i hlt
    rw [← word_natCast (by omega), Nat.cast_sub (by omega), Nat.cast_add, ZMod.natCast_self,
      add_zero]

end Hthreads.Library.FermatWords
