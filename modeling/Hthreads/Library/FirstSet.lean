import Mathlib.Data.BitVec
import Mathlib.Data.List.OfFn
import Mathlib.Tactic

/-! The lowest set index of a bit array, and its computation chunk by chunk. -/

namespace Hthreads.Library

variable {n m : ℕ}

def firstSet (v : BitVec n → Bool) : Option (BitVec n) :=
  (List.ofFn (fun i : Fin (2 ^ n) => BitVec.ofFin i)).find? v

lemma firstSet_eq_some_iff (v : BitVec n → Bool) (i : BitVec n) :
    firstSet v = some i ↔ v i = true ∧ ∀ j < i, v j = false := by
  rw [firstSet, List.find?_eq_some_iff_getElem]
  constructor
  · rintro ⟨hv, k, hk, rfl, hlow⟩
    refine ⟨hv, fun j hj => ?_⟩
    have hj' : j.toNat < k := by simpa [BitVec.lt_def] using hj
    simpa using hlow j.toNat hj'
  · rintro ⟨hv, hlow⟩
    refine ⟨hv, i.toNat, by simp [i.isLt], by simp, fun j hj => ?_⟩
    have hlt : j < 2 ^ n := hj.trans i.isLt
    simpa using hlow (BitVec.ofFin ⟨j, hlt⟩) (by simpa [BitVec.lt_def] using hj)

lemma firstSet_eq_none_iff (v : BitVec n → Bool) : firstSet v = none ↔ ∀ i, v i = false := by
  rw [firstSet, List.find?_eq_none]
  constructor
  · intro h i
    simpa using h i (by simp)
  · intro h i _
    simp [h i]

lemma firstSet_of_exists {v : BitVec n → Bool} (h : ∃ i, v i = true) :
    ∃ i, firstSet v = some i := by
  cases hf : firstSet v with
  | some i => exact ⟨i, rfl⟩
  | none =>
    obtain ⟨i, hi⟩ := h
    simp [(firstSet_eq_none_iff v).mp hf i] at hi

lemma append_lt_append_iff (a b : BitVec n) (i j : BitVec m) :
    a ++ i < b ++ j ↔ a < b ∨ a = b ∧ i < j := by
  have hi := i.isLt
  have hj := j.isLt
  simp only [BitVec.lt_def, BitVec.toNat_append, BitVec.toNat_eq]
  rw [← Nat.shiftLeft_add_eq_or_of_lt hi, ← Nat.shiftLeft_add_eq_or_of_lt hj, Nat.shiftLeft_eq,
    Nat.shiftLeft_eq]
  constructor
  · intro h
    rcases lt_trichotomy a.toNat b.toNat with hab | hab | hab
    · exact Or.inl hab
    · rw [hab] at h
      exact Or.inr ⟨hab, by omega⟩
    · have := Nat.mul_le_mul_right (2 ^ m) (Nat.succ_le_of_lt hab)
      rw [Nat.succ_mul] at this
      omega
  · rintro (hab | ⟨hab, hij⟩)
    · have := Nat.mul_le_mul_right (2 ^ m) (Nat.succ_le_of_lt hab)
      rw [Nat.succ_mul] at this
      omega
    · rw [hab]
      omega

/-- The lowest set index lies in the lowest chunk that has a set bit. -/
lemma firstSet_append (v : BitVec (n + m) → Bool) (c : BitVec n) (j : BitVec m)
    (hc : firstSet (fun d : BitVec n => decide (∃ i : BitVec m, v (d ++ i) = true)) = some c)
    (hj : firstSet (fun i : BitVec m => v (c ++ i)) = some j) : firstSet v = some (c ++ j) := by
  obtain ⟨_, hlow⟩ := (firstSet_eq_some_iff _ c).mp hc
  obtain ⟨hv, hlow'⟩ := (firstSet_eq_some_iff _ j).mp hj
  refine (firstSet_eq_some_iff v _).mpr ⟨hv, fun k hk => ?_⟩
  obtain ⟨d, i, rfl⟩ : ∃ (d : BitVec n) (i : BitVec m), k = d ++ i :=
    ⟨k.extractLsb' m n, k.setWidth m, by
      apply BitVec.eq_of_getLsbD_eq
      intro b hb
      rw [BitVec.getLsbD_append]
      split
      · simp_all
      · simp_all
        grind⟩
  rcases (append_lt_append_iff d c i j).mp hk with hd | ⟨rfl, hi⟩
  · have := hlow d hd
    simp only [decide_eq_false_iff_not, not_exists, Bool.not_eq_true] at this
    exact this i
  · exact hlow' i hi

end Hthreads.Library
