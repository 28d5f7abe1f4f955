import Hthreads.Library.BinaryPolynomials
import Hthreads.Library.Ranges
import Hthreads.Software.SchedParam

/-! The software version of the CRC accelerator (`crc.c`): every word of a list is replaced by its
remainder modulo `x ^ 3 + x + 1`. -/

namespace Hthreads.Accelerators

open Library Library.BinaryPolynomials Polynomial Software

def gInputWidth : Huint := 32
def gDivisorWidth : Huint := 4

/-- The body of `while(1)` in `gen_crc`. -/
def crcLoop (result i divisor mask : Huint) : Huint :=
  if i < gInputWidth - gDivisorWidth + 1 ∧ result &&& mask = 0 then
    crcLoop result (i + 1) (divisor / 2) (mask / 2)
  else if i < gInputWidth - gDivisorWidth + 1 then
    crcLoop (result ^^^ divisor) (i + 1) (divisor / 2) (mask / 2)
  else result
termination_by 29 - i.toNat
decreasing_by
  all_goals
    simp only [gInputWidth, gDivisorWidth] at *
    bv_omega

def genCrc (input : Hint) : Hint := crcLoop input 0 0xb0000000 0x80000000

/-- `for (; array < stop; array++)`. -/
def crcWords (array stop : ℕ) (mem : ℕ → Hint) : ℕ → Hint :=
  if array < stop then crcWords (array + 1) stop (Function.update mem array (genCrc (mem array)))
  else mem
termination_by stop - array

/-- Addresses count words. -/
def polyCrc (listPtr : ℕ) (size : Huint) (mem : ℕ → Hint) : Hint × (ℕ → Hint) :=
  (success, crcWords listPtr (listPtr + size.toNat) mem)

section Loop

noncomputable def crcPolynomial : (ZMod 2)[X] := X ^ 3 + X + 1

lemma poly_divisor : poly (0xb : Huint) = crcPolynomial := by
  have hbits : ∀ i < 32, (0xb : Huint).getLsbD i = decide (i = 0 ∨ i = 1 ∨ i = 3) := by decide
  have hterm : ∀ i ∈ Finset.range 32, (if (0xb : Huint).getLsbD i then X ^ i else 0 : (ZMod 2)[X]) =
      (if i = 0 then X ^ i else 0) +
        ((if i = 1 then X ^ i else 0) + if i = 3 then X ^ i else 0) := by
    intro i hi
    rw [hbits i (Finset.mem_range.mp hi)]
    grind
  rw [poly, Finset.sum_congr rfl hterm, Finset.sum_add_distrib, Finset.sum_add_distrib,
    Finset.sum_ite_eq', Finset.sum_ite_eq', Finset.sum_ite_eq', if_pos (by simp),
    if_pos (by simp), if_pos (by simp), crcPolynomial]
  ring

lemma degree_crcPolynomial : crcPolynomial.degree = 3 := by
  rw [crcPolynomial, add_assoc]
  compute_degree!

lemma monic_crcPolynomial : crcPolynomial.Monic := by
  rw [crcPolynomial]
  monicity!

/-- The divisor and the mask of turn `i`, and what the turn makes of the word. -/
def turnDivisor (i : ℕ) : Huint := (0xb0000000 : Huint) >>> i
def turnMask (i : ℕ) : Huint := (0x80000000 : Huint) >>> i
def turnResult (r : Huint) (i : ℕ) : Huint :=
  if r.getLsbD (31 - i) then r ^^^ turnDivisor i else r

variable {r : Huint} {i : ℕ}

lemma half_shiftRight (v : Huint) (i : ℕ) : v >>> i / 2 = v >>> (i + 1) := by
  apply BitVec.eq_of_toNat_eq
  rw [BitVec.toNat_udiv, BitVec.toNat_ushiftRight, BitVec.toNat_ushiftRight, Nat.shiftRight_succ]
  rfl

lemma turnMask_eq : ∀ i < 32, turnMask i = BitVec.twoPow 32 (31 - i) := by decide

lemma turnMask_ne_zero : ∀ i < 32, turnMask i ≠ 0 := by decide

lemma turnDivisor_eq : ∀ i < 29, turnDivisor i = (0xb : Huint) <<< (28 - i) := by decide

lemma getLsbD_turnDivisor : ∀ i < 29, ∀ j < 32, (turnDivisor i).getLsbD j =
    decide (j + i = 28 ∨ j + i = 29 ∨ j + i = 31) := by decide

lemma and_turnMask_eq_zero_iff (hi : i < 32) :
    r &&& turnMask i = 0 ↔ r.getLsbD (31 - i) = false := by
  have hpow := turnMask_ne_zero i hi
  rw [turnMask_eq i hi] at hpow ⊢
  rw [BitVec.and_twoPow]
  cases r.getLsbD (31 - i) <;> simp_all

lemma turn_lt (hi : i < 29) : BitVec.ofNat 32 i < gInputWidth - gDivisorWidth + 1 := by
  simp only [gInputWidth, gDivisorWidth]
  bv_omega

lemma crcLoop_stop (divisor mask : Huint) : crcLoop r 29 divisor mask = r := by
  rw [crcLoop, if_neg (by simp [gInputWidth, gDivisorWidth]),
    if_neg (by simp [gInputWidth, gDivisorWidth])]

lemma crcLoop_turn (hi : i < 29) :
    crcLoop r (BitVec.ofNat 32 i) (turnDivisor i) (turnMask i) =
      crcLoop (turnResult r i) (BitVec.ofNat 32 (i + 1)) (turnDivisor (i + 1))
        (turnMask (i + 1)) := by
  have hcount : BitVec.ofNat 32 i + 1 = BitVec.ofNat 32 (i + 1) := by bv_omega
  have hdivisor : turnDivisor i / 2 = turnDivisor (i + 1) := half_shiftRight _ i
  have hmask : turnMask i / 2 = turnMask (i + 1) := half_shiftRight _ i
  have hbit : r &&& turnMask i = 0 ↔ r.getLsbD (31 - i) = false :=
    and_turnMask_eq_zero_iff (by omega)
  rw [crcLoop, hcount, hdivisor, hmask, turnResult]
  cases hr : r.getLsbD (31 - i) with
  | false => rw [if_pos ⟨turn_lt hi, hbit.mpr hr⟩, if_neg (by simp)]
  | true =>
    have hset : ¬ r &&& turnMask i = 0 := fun h => by simp [hbit.mp h] at hr
    rw [if_neg (fun h => hset h.2), if_pos (turn_lt hi), if_pos rfl]

lemma degree_turnResult (hi : i < 29) (hr : (poly r).degree < (32 - i : ℕ)) :
    (poly (turnResult r i)).degree < (32 - (i + 1) : ℕ) := by
  rw [degree_poly_lt_iff] at hr ⊢
  intro j hj
  by_cases hword : j < 32
  · have hdivisor := getLsbD_turnDivisor i hi j hword
    rw [turnResult]
    split_ifs with hbit
    · rw [BitVec.getLsbD_xor, hdivisor]
      by_cases htop : j = 31 - i
      · rw [htop, hbit]
        simp
        omega
      · rw [hr j (by omega)]
        simp
        omega
    · by_cases htop : j = 31 - i
      · rw [htop]
        simpa using hbit
      · exact hr j (by omega)
  · exact BitVec.getLsbD_of_ge _ _ (by omega)

lemma remainder_turnResult (hi : i < 29) :
    poly (turnResult r i) %ₘ crcPolynomial = poly r %ₘ crcPolynomial := by
  have hlow : ∀ j < 32, 4 ≤ j → (0xb : Huint).getLsbD j = false := by decide
  have hlost : ∀ j, 32 ≤ j + (28 - i) → (0xb : Huint).getLsbD j = false := by
    intro j hj
    by_cases hword : j < 32
    · exact hlow j hword (by omega)
    · exact BitVec.getLsbD_of_ge _ _ (by omega)
  rw [turnResult]
  split_ifs
  · have hmonic : (poly (0xb : Huint)).Monic := poly_divisor ▸ monic_crcPolynomial
    rw [turnDivisor_eq i hi, ← poly_divisor]
    exact poly_xor_shiftLeft_modByMonic hmonic r (28 - i) hlost
  · rfl

/-- The turns from turn `i` on make the remainder of a word whose bits above the mask are clear. -/
lemma poly_crcLoop (i : ℕ) (hi : i ≤ 29) : ∀ r : Huint, (poly r).degree < (32 - i : ℕ) →
    poly (crcLoop r (BitVec.ofNat 32 i) (turnDivisor i) (turnMask i)) =
      poly r %ₘ crcPolynomial := by
  induction hi using Nat.decreasingInduction with
  | self =>
    intro r hr
    have hlow : (poly r).degree < crcPolynomial.degree := by
      rw [degree_crcPolynomial]
      exact hr
    exact (congrArg poly (crcLoop_stop _ _)).trans
      ((modByMonic_eq_self_iff monic_crcPolynomial).mpr hlow).symm
  | of_succ i hi ih =>
    intro r hr
    rw [crcLoop_turn hi, ih _ (degree_turnResult hi hr), remainder_turnResult hi]

lemma poly_genCrc (input : Hint) : poly (genCrc input) = poly input %ₘ crcPolynomial := by
  have hword : (poly input).degree < (32 - 0 : ℕ) := by
    rw [degree_poly_lt_iff_toNat]
    exact input.isLt
  exact poly_crcLoop 0 (by omega) input hword

end Loop

section Consequences

lemma genCrc_lt (input : Hint) : (genCrc input).toNat < 8 := by
  have hdegree : (poly (genCrc input)).degree < (3 : ℕ) := by
    have hlow := degree_modByMonic_lt (poly input) monic_crcPolynomial
    rw [degree_crcPolynomial] at hlow
    rw [poly_genCrc]
    exact hlow
  exact (degree_poly_lt_iff_toNat _ 3).mp hdegree

lemma genCrc_xor (a b : Hint) : genCrc (a ^^^ b) = genCrc a ^^^ genCrc b := by
  apply poly_injective
  rw [poly_xor, poly_genCrc, poly_genCrc, poly_genCrc, poly_xor, add_modByMonic]

lemma genCrc_genCrc (a : Hint) : genCrc (genCrc a) = genCrc a := by
  apply poly_injective
  have hlow : (poly (genCrc a)).degree < crcPolynomial.degree := by
    rw [poly_genCrc]
    exact degree_modByMonic_lt _ monic_crcPolynomial
  rw [poly_genCrc, (modByMonic_eq_self_iff monic_crcPolynomial).mpr hlow]

end Consequences

section Lists

lemma crcWords_eq (array stop : ℕ) (mem : ℕ → Hint) :
    crcWords array stop mem = (⟨array, stop - array⟩ : Range).map genCrc mem := by
  fun_induction crcWords array stop mem with
  | case1 array mem h ih =>
    rw [ih]
    funext i
    by_cases hi : i = array
    · subst hi
      have hfirst : (⟨i, stop - i⟩ : Range).Contains i := by
        simp only [Range.Contains]
        omega
      have hrest : ¬ (⟨i + 1, stop - (i + 1)⟩ : Range).Contains i := fun hc => absurd hc.1 (by simp)
      rw [Range.map, Range.map, if_neg hrest, if_pos hfirst, Function.update_self]
    · have hrange : (⟨array + 1, stop - (array + 1)⟩ : Range).Contains i ↔
          (⟨array, stop - array⟩ : Range).Contains i := by
        simp only [Range.Contains]
        omega
      simp only [Range.map, hrange, Function.update_of_ne hi]
  | case2 array mem h =>
    funext i
    rw [Range.map, if_neg (by simp only [Range.Contains]; omega)]

lemma polyCrc_eq (listPtr : ℕ) (size : Huint) (mem : ℕ → Hint) :
    polyCrc listPtr size mem = (success, (⟨listPtr, size.toNat⟩ : Range).map genCrc mem) := by
  rw [polyCrc, crcWords_eq, Nat.add_sub_cancel_left]

lemma foldl_polyCrc (chunks : List (ℕ × Huint)) (mem : ℕ → Hint) :
    chunks.foldl (fun m c => (polyCrc c.1 c.2 m).2) mem =
      (chunks.map fun c => ⟨c.1, c.2.toNat⟩).foldl (fun m (r : Range) => r.map genCrc m) mem := by
  simp only [List.foldl_map, polyCrc_eq]

theorem genCrc_is_the_remainder :
    (∀ input : Hint, poly (genCrc input) = poly input %ₘ (X ^ 3 + X + 1) ∧
      (genCrc input).toNat < 8) ∧
      (∀ a b : Hint, genCrc (a ^^^ b) = genCrc a ^^^ genCrc b) ∧
      (∀ a : Hint, genCrc (genCrc a) = genCrc a) ∧
      (∀ (listPtr : ℕ) (size : Huint) (mem : ℕ → Hint), polyCrc listPtr size mem =
        (success, (⟨listPtr, size.toNat⟩ : Range).map genCrc mem)) ∧
      ∀ (chunks : List (ℕ × Huint)) (listPtr : ℕ) (size : Huint) (mem : ℕ → Hint),
        Range.Tiles (chunks.map fun c => ⟨c.1, c.2.toNat⟩) ⟨listPtr, size.toNat⟩ →
        chunks.foldl (fun m c => (polyCrc c.1 c.2 m).2) mem = (polyCrc listPtr size mem).2 := by
  refine ⟨fun input => ⟨poly_genCrc input, genCrc_lt input⟩, genCrc_xor, genCrc_genCrc, polyCrc_eq,
    ?_⟩
  intro chunks listPtr size mem htiles
  rw [foldl_polyCrc, polyCrc_eq, htiles.foldl_map]

theorem genCrc_of_two_chunks :
    [(4, (1 : Huint)), (5, 2)].foldl (fun m c => (polyCrc c.1 c.2 m).2)
      (fun i => BitVec.ofNat 32 i) =
      (polyCrc 4 3 fun i => BitVec.ofNat 32 i).2 := by
  refine genCrc_is_the_remainder.2.2.2.2 [(4, 1), (5, 2)] 4 3 _ ⟨by decide, ?_, ?_⟩
  · refine List.pairwise_cons.mpr ⟨fun r hr => ?_, List.pairwise_singleton _ _⟩
    rw [List.map_cons, List.map_nil, List.mem_singleton] at hr
    exact Range.disjoint_of_le (by simp [hr])
  · rintro i ⟨hlo, hhi⟩
    by_cases hi : i = 4
    · exact ⟨⟨4, 1⟩, by simp, by simp [Range.Contains, hi]⟩
    · refine ⟨⟨5, 2⟩, by simp, ?_⟩
      simp only [Range.Contains] at *
      simp at hhi
      omega

end Lists

end Hthreads.Accelerators
