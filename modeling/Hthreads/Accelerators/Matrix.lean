import Hthreads.Library.Rearrangements
import Hthreads.Software.SchedParam
import Mathlib.Data.BitVec

/-! The software version of the matrix multiplication (`sw_matrix_multiply` of `matrix.c` and
`matrix_mblaze.c`), whose counters are of type `char`. -/

namespace Hthreads.Accelerators

open Library Software

/-- A `char` beside unsigned words. It depends on the compiler whether it has a sign. -/
def charWord (signed : Bool) (x : BitVec 8) : Huint :=
  if signed then x.signExtend 32 else x.zeroExtend 32

abbrev Entry (rows cols : Huint) (i : ℕ) : Prop := i < rows.toNat * cols.toNat

section Code

variable {σ : Type} (signed : Bool)

/-- `for (x = 0; x < bound; x++)` from a value of the counter on, with a bound on its turns. -/
def forChar (bound : Huint) (body : Huint → σ → Except Stop σ) :
    ℕ → BitVec 8 → σ → Except Stop σ
  | 0, _, _ => .error .outOfFuel
  | fuel + 1, x, s =>
    if charWord signed x < bound then do
      let s ← body (charWord signed x) s
      forChar bound body fuel (x + 1) s
    else pure s

variable (fuel : ℕ) (a b : ℕ → Hint) (aRows aCols bCols : Huint)

def sumLoop (i j : Huint) : Except Stop Hint :=
  forChar signed aCols (fun k sum => do
    let x ← load (Entry aRows aCols) a (i * aCols + k).toNat
    let y ← load (Entry aCols bCols) b (k * bCols + j).toNat
    pure (sum + x * y)) fuel 0 0

def columnLoop (i : Huint) (c : ℕ → Hint) : Except Stop (ℕ → Hint) :=
  forChar signed bCols (fun j c => do
    let sum ← sumLoop signed fuel a b aRows aCols bCols i j
    store (Entry aRows bCols) c (i * bCols + j).toNat sum) fuel 0 c

/-- `none` where the assertion fails. -/
def swMatrixMultiply (c : ℕ → Hint) : Option (Except Stop (Hint × (ℕ → Hint))) :=
  if aCols = aRows then
    some do
      let c ← forChar signed aRows (columnLoop signed fuel a b aRows aCols bCols) fuel 0 c
      pure (success, c)
  else none

end Code

section Counters

variable {σ : Type} {signed : Bool} {bound : Huint} {body : Huint → σ → Except Stop σ} {s s' : σ}

/-- The turns of a loop over a `char`: the signed one falls below zero behind 127, which is beyond
every bound as an unsigned word. -/
def charTurns (signed : Bool) (bound : Huint) : ℕ :=
  if signed then min bound.toNat 128 else bound.toNat

lemma charTurns_le (signed : Bool) (bound : Huint) : charTurns signed bound ≤ bound.toNat := by
  rw [charTurns]
  split_ifs
  · exact min_le_left _ _
  · exact le_refl _

def Ends (signed : Bool) (bound : Huint) : Prop := signed = true ∨ bound.toNat ≤ 255

lemma signExtend_ofNat :
    ∀ n < 128, (BitVec.ofNat 8 n).signExtend 32 = BitVec.ofNat 32 n := by decide

lemma charWord_ofNat {n : ℕ} (hends : Ends signed bound) (hn : n < charTurns signed bound) :
    charWord signed (BitVec.ofNat 8 n) = BitVec.ofNat 32 n := by
  cases signed with
  | true =>
    have hlow : n < 128 := lt_of_lt_of_le hn (min_le_right _ _)
    exact signExtend_ofNat n hlow
  | false =>
    have hlow : n < bound.toNat := hn
    have hbyte : bound.toNat ≤ 255 := hends.resolve_left (by simp)
    apply BitVec.eq_of_toNat_eq
    simp only [charWord, Bool.false_eq_true, if_false, BitVec.toNat_setWidth, BitVec.toNat_ofNat]
    omega

lemma charWord_turns (hends : Ends signed bound) (hbound : bound.toNat ≤ 4096) :
    ¬ charWord signed (BitVec.ofNat 8 (charTurns signed bound)) < bound := by
  cases signed with
  | true =>
    by_cases hsmall : bound.toNat < 128
    · have hturns : charTurns true bound = bound.toNat := min_eq_left (by omega)
      have hword : charWord true (BitVec.ofNat 8 bound.toNat) = BitVec.ofNat 32 bound.toNat :=
        signExtend_ofNat _ hsmall
      rw [hturns, hword]
      bv_omega
    · have hturns : charTurns true bound = 128 := min_eq_right (by omega)
      have hword : charWord true (BitVec.ofNat 8 128) = 0xFFFFFF80 := by decide
      rw [hturns, hword]
      bv_omega
  | false =>
    have hbyte : bound.toNat ≤ 255 := hends.resolve_left (by simp)
    have hword : charWord false (BitVec.ofNat 8 bound.toNat) = BitVec.ofNat 32 bound.toNat := by
      apply BitVec.eq_of_toNat_eq
      simp only [charWord, Bool.false_eq_true, if_false, BitVec.toNat_setWidth, BitVec.toNat_ofNat]
      omega
    change ¬ charWord false (BitVec.ofNat 8 bound.toNat) < bound
    rw [hword]
    bv_omega

/-- An invariant of the turns made so far, which also keeps the body from failing. -/
lemma forChar_from {P : ℕ → σ → Prop} (hends : Ends signed bound) (hbound : bound.toNat ≤ 4096)
    (hstep : ∀ n < charTurns signed bound, ∀ s, P n s →
      ∃ s', body (BitVec.ofNat 32 n) s = .ok s' ∧ P (n + 1) s')
    {fuel : ℕ} (n : ℕ) (hn : n ≤ charTurns signed bound)
      (hfuel : charTurns signed bound < n + fuel) (h : P n s) :
    ∃ s', forChar signed bound body fuel (BitVec.ofNat 8 n) s = .ok s' ∧
      P (charTurns signed bound) s' := by
  induction fuel generalizing n s with
  | zero => omega
  | succ fuel ih =>
    rcases Nat.lt_or_eq_of_le hn with hlt | rfl
    · have hword := charWord_ofNat hends hlt
      have hguard : charWord signed (BitVec.ofNat 8 n) < bound := by
        have hle := charTurns_le signed bound
        rw [hword]
        bv_omega
      obtain ⟨mid, hmid, hP⟩ := hstep n hlt s h
      have hnext : BitVec.ofNat 8 n + 1 = BitVec.ofNat 8 (n + 1) := by
        rw [BitVec.ofNat_add]
        rfl
      rw [forChar, if_pos hguard, hword, hmid, hnext]
      exact ih (n + 1) hlt (by omega) hP
    · rw [forChar, if_neg (charWord_turns hends hbound)]
      exact ⟨s, rfl, h⟩

lemma forChar_invariant {P : ℕ → σ → Prop} (hends : Ends signed bound) (hbound : bound.toNat ≤ 4096)
    {fuel : ℕ} (hfuel : charTurns signed bound < fuel) (h : P 0 s)
    (hstep : ∀ n < charTurns signed bound, ∀ s, P n s →
      ∃ s', body (BitVec.ofNat 32 n) s = .ok s' ∧ P (n + 1) s') :
    ∃ s', forChar signed bound body fuel 0 s = .ok s' ∧ P (charTurns signed bound) s' :=
  forChar_from hends hbound hstep 0 (Nat.zero_le _) (by omega) h

lemma forChar_ne_ok (hbound : 256 ≤ bound.toNat) (fuel : ℕ) (x : BitVec 8) :
    forChar false bound body fuel x s ≠ .ok s' := by
  induction fuel generalizing x s with
  | zero => exact fun h => by cases h
  | succ fuel ih =>
    intro h
    have hguard : charWord false x < bound := by
      have hx := x.isLt
      simp only [charWord, Bool.false_eq_true, if_false, BitVec.lt_def, BitVec.toNat_setWidth]
      omega
    rw [forChar, if_pos hguard] at h
    obtain ⟨mid, -, hrest⟩ := exists_of_bind_ok h
    exact ih (x + 1) hrest

end Counters

section Product

variable {signed : Bool} {a b c c' : ℕ → Hint} {aRows aCols bCols : Huint} {i j fuel : ℕ}

def product (a b : ℕ → Hint) (aCols bCols : Huint) (i j : ℕ) : Hint :=
  ∑ k ∈ Finset.range aCols.toNat, a (i * aCols.toNat + k) * b (k * bCols.toNat + j)

structure Fits (aRows aCols bCols : Huint) : Prop where
  square : aCols = aRows
  rows : 1 ≤ aRows.toNat
  cols : 1 ≤ bCols.toNat
  left : aRows.toNat * aCols.toNat ≤ 4096
  right : aCols.toNat * bCols.toNat ≤ 4096

lemma Fits.aRows_le (h : Fits aRows aCols bCols) : aRows.toNat ≤ 64 := by
  have hleft := h.left
  rw [h.square] at hleft
  nlinarith

lemma Fits.bCols_le (h : Fits aRows aCols bCols) : bCols.toNat ≤ 4096 := by
  have hright := h.right
  have hrows := h.rows
  rw [h.square] at hright
  nlinarith

lemma Fits.ends (h : Fits aRows aCols bCols) : Ends signed aRows :=
  .inr (by have := h.aRows_le; omega)

lemma Fits.turns_aRows (h : Fits aRows aCols bCols) : charTurns signed aRows = aRows.toNat := by
  have hrows := h.aRows_le
  rw [charTurns]
  split_ifs
  · exact min_eq_left (by omega)
  · rfl

lemma index_toNat {rows cols : Huint} (hi : i < rows.toNat) (hj : j < cols.toNat)
    (hfits : rows.toNat * cols.toNat ≤ 4096) :
    (BitVec.ofNat 32 i * cols + BitVec.ofNat 32 j).toNat = i * cols.toNat + j ∧
      Entry rows cols (i * cols.toNat + j) := by
  have hrow : (i + 1) * cols.toNat ≤ rows.toNat * cols.toNat := Nat.mul_le_mul_right _ hi
  rw [Nat.succ_mul] at hrow
  have hentry : i * cols.toNat + j < rows.toNat * cols.toNat := by omega
  refine ⟨?_, hentry⟩
  rw [BitVec.toNat_add, BitVec.toNat_mul, BitVec.toNat_ofNat, BitVec.toNat_ofNat,
    Nat.mod_eq_of_lt (by omega : i < 2 ^ 32), Nat.mod_eq_of_lt (by omega : j < 2 ^ 32),
    Nat.mod_eq_of_lt (by omega : i * cols.toNat < 2 ^ 32), Nat.mod_eq_of_lt (by omega)]

lemma entry_injective {n i i' j j' : ℕ} (hj : j < n) (hj' : j' < n) (h : i * n + j = i' * n + j') :
    i = i' ∧ j = j' := by
  have hrow : i = i' := by
    have hdiv := congrArg (· / n) h
    simpa [Nat.mul_add_div (by omega : n > 0), Nat.div_eq_of_lt hj, Nat.div_eq_of_lt hj',
      Nat.mul_comm _ n] using hdiv
  subst hrow
  exact ⟨rfl, by omega⟩

lemma sumLoop_eq (h : Fits aRows aCols bCols) (hi : i < aRows.toNat) (hj : j < bCols.toNat)
    (hfuel : 257 ≤ fuel) :
    sumLoop signed fuel a b aRows aCols bCols (BitVec.ofNat 32 i) (BitVec.ofNat 32 j) =
      .ok (product a b aCols bCols i j) := by
  have hrows := h.aRows_le
  have hturns : charTurns signed aCols = aCols.toNat := by
    rw [h.square]
    exact h.turns_aRows
  have hends : Ends signed aCols := h.square ▸ h.ends
  have hrun : ∃ sum,
      sumLoop signed fuel a b aRows aCols bCols (BitVec.ofNat 32 i) (BitVec.ofNat 32 j) =
      .ok sum ∧ sum = ∑ k ∈ Finset.range (charTurns signed aCols),
        a (i * aCols.toNat + k) * b (k * bCols.toNat + j) := by
    refine forChar_invariant
      (P := fun n sum => sum =
        ∑ k ∈ Finset.range n, a (i * aCols.toNat + k) * b (k * bCols.toNat + j))
      hends (by rw [h.square]; omega) (by rw [hturns, h.square]; omega) (by simp) fun k hk
        sum hsum => ?_
    rw [hturns] at hk
    obtain ⟨hleft, hvalidLeft⟩ := index_toNat hi hk h.left
    obtain ⟨hright, hvalidRight⟩ := index_toNat hk hj h.right
    refine ⟨sum + a (i * aCols.toNat + k) * b (k * bCols.toNat + j), ?_, ?_⟩
    · rw [hleft, hright, load_of_valid hvalidLeft, load_of_valid hvalidRight]
      rfl
    · rw [Finset.sum_range_succ, hsum]
  obtain ⟨sum, hsum, heq⟩ := hrun
  rw [hsum, heq, hturns, product]

/-- The entries of row `i` before column `n` are those of the product, and nothing else is stored.
-/
structure RowDone (a b c : ℕ → Hint) (aCols bCols : Huint) (i n : ℕ) (c' : ℕ → Hint) : Prop where
  entries : ∀ j < n, c' (i * bCols.toNat + j) = product a b aCols bCols i j
  others : ∀ e, (∀ j < n, e ≠ i * bCols.toNat + j) → c' e = c e

lemma RowDone.next (h : RowDone a b c aCols bCols i j c') :
    RowDone a b c aCols bCols i (j + 1)
      (Function.update c' (i * bCols.toNat + j) (product a b aCols bCols i j)) := by
  refine ⟨fun k hk => ?_, fun e he => ?_⟩
  · by_cases hkj : k = j
    · rw [hkj, Function.update_self]
    · rw [Function.update_of_ne (by omega)]
      exact h.entries k (by omega)
  · rw [Function.update_of_ne (he j (Nat.lt_succ_self j))]
    exact h.others e fun k hk => he k (Nat.lt_succ_of_lt hk)

lemma columnLoop_spec (h : Fits aRows aCols bCols) (hends : Ends signed bCols)
    (hi : i < aRows.toNat) (hfuel : 257 ≤ fuel) (c : ℕ → Hint) :
    ∃ c', columnLoop signed fuel a b aRows aCols bCols (BitVec.ofNat 32 i) c = .ok c' ∧
      RowDone a b c aCols bCols i (charTurns signed bCols) c' := by
  have hturns : charTurns signed bCols < fuel := by
    rcases hends with rfl | hbyte
    · have hle : charTurns true bCols ≤ 128 := min_le_right _ _
      omega
    · have hle := charTurns_le signed bCols
      omega
  refine forChar_invariant (P := RowDone a b c aCols bCols i) hends h.bCols_le hturns
    ⟨fun j hj => absurd hj (Nat.not_lt_zero j), fun e _ => rfl⟩ fun j hj mid hmid => ?_
  have hcol : j < bCols.toNat := lt_of_lt_of_le hj (charTurns_le signed bCols)
  obtain ⟨hindex, hvalid⟩ := index_toNat hi hcol (h.square ▸ h.right)
  refine ⟨_, ?_, hmid.next⟩
  rw [sumLoop_eq h hi hcol hfuel, hindex]
  exact store_of_valid hvalid _

/-- The same of the rows before `n`. -/
structure RowsDone (signed : Bool) (a b c : ℕ → Hint) (aCols bCols : Huint) (n : ℕ)
    (c' : ℕ → Hint) :
    Prop where
  entries : ∀ i < n, ∀ j < charTurns signed bCols,
    c' (i * bCols.toNat + j) = product a b aCols bCols i j
  others : ∀ e, (∀ i < n, ∀ j < charTurns signed bCols, e ≠ i * bCols.toNat + j) → c' e = c e

lemma RowsDone.next {mid : ℕ → Hint} (h : RowsDone signed a b c aCols bCols i mid)
    (hrow : RowDone a b mid aCols bCols i (charTurns signed bCols) c') :
    RowsDone signed a b c aCols bCols (i + 1) c' := by
  have hle := charTurns_le signed bCols
  refine ⟨fun k hk j hj => ?_, fun e he => ?_⟩
  · by_cases hki : k = i
    · rw [hki]
      exact hrow.entries j hj
    · rw [hrow.others _ fun j' hj' heq =>
        hki (entry_injective (by omega : j < bCols.toNat) (by omega : j' < bCols.toNat) heq).1]
      exact h.entries k (by omega) j hj
  · rw [hrow.others e (he i (Nat.lt_succ_self i))]
    exact h.others e fun k hk => he k (Nat.lt_succ_of_lt hk)

lemma RowsDone.unique {n : ℕ} {d : ℕ → Hint} (h : RowsDone signed a b c aCols bCols n c')
    (hd : RowsDone signed a b c aCols bCols n d) : c' = d := by
  funext e
  by_cases he : ∃ i < n, ∃ j < charTurns signed bCols, e = i * bCols.toNat + j
  · obtain ⟨i, hi, j, hj, rfl⟩ := he
    rw [h.entries i hi j hj, hd.entries i hi j hj]
  · have hother : ∀ i < n, ∀ j < charTurns signed bCols, e ≠ i * bCols.toNat + j :=
      fun i hi j hj heq => he ⟨i, hi, j, hj, heq⟩
    rw [h.others e hother, hd.others e hother]

lemma swMatrixMultiply_spec (h : Fits aRows aCols bCols) (hends : Ends signed bCols)
    (hfuel : 257 ≤ fuel) (a b c : ℕ → Hint) :
    ∃ c', swMatrixMultiply signed fuel a b aRows aCols bCols c = some (.ok (success, c')) ∧
      RowsDone signed a b c aCols bCols aRows.toNat c' := by
  have hrows := h.aRows_le
  have hturns : charTurns signed aRows = aRows.toNat := h.turns_aRows
  have hstep : ∀ i < charTurns signed aRows, ∀ mid, RowsDone signed a b c aCols bCols i mid →
      ∃ next, columnLoop signed fuel a b aRows aCols bCols (BitVec.ofNat 32 i) mid = .ok next ∧
        RowsDone signed a b c aCols bCols (i + 1) next := by
    intro i hi mid hmid
    obtain ⟨next, hnext, hrow⟩ := columnLoop_spec h hends (hturns ▸ hi) hfuel mid
    exact ⟨next, hnext, hmid.next hrow⟩
  obtain ⟨c', hrun, hdone⟩ := forChar_invariant (P := RowsDone signed a b c aCols bCols) h.ends
    (by omega) (by omega : charTurns signed aRows < fuel)
    ⟨fun i hi => absurd hi (Nat.not_lt_zero i), fun e _ => rfl⟩ hstep
  refine ⟨c', ?_, hturns ▸ hdone⟩
  rw [swMatrixMultiply, if_pos h.square, hrun]
  rfl

def Multiplies (signed : Bool) (a b : ℕ → Hint) (aRows aCols bCols : Huint) (c : ℕ → Hint) : Prop :=
  ∃ n c', (∀ fuel ≥ n, swMatrixMultiply signed fuel a b aRows aCols bCols c =
    some (.ok (success, c'))) ∧
    ∀ i < aRows.toNat, ∀ j < bCols.toNat,
      c' (i * bCols.toNat + j) =
        ∑ k ∈ Finset.range aCols.toNat, a (i * aCols.toNat + k) * b (k * bCols.toNat + j)

lemma ends_of_le (hcols : bCols.toNat ≤ if signed then 128 else 255) :
    Ends signed bCols ∧ charTurns signed bCols = bCols.toNat := by
  cases signed with
  | true => exact ⟨.inl rfl, min_eq_left hcols⟩
  | false => exact ⟨.inr hcols, rfl⟩

lemma multiplies_of_le (h : Fits aRows aCols bCols)
    (hcols : bCols.toNat ≤ if signed then 128 else 255)
    (a b c : ℕ → Hint) : Multiplies signed a b aRows aCols bCols c := by
  obtain ⟨hends, hturns⟩ := ends_of_le hcols
  obtain ⟨c', -, hdone⟩ := swMatrixMultiply_spec h hends (le_refl 257) a b c
  refine ⟨257, c', fun fuel hfuel => ?_, fun i hi j hj => hdone.entries i hi j (hturns ▸ hj)⟩
  obtain ⟨d, hrun, hd⟩ := swMatrixMultiply_spec h hends hfuel a b c
  rw [hrun, hd.unique hdone]

lemma not_multiplies_signed (h : Fits aRows aCols bCols) (hcols : 128 < bCols.toNat)
    (hc : c 128 ≠ product a b aCols bCols 0 128) : ¬ Multiplies true a b aRows aCols bCols c := by
  rintro ⟨n, c', hrun, hentries⟩
  obtain ⟨d, hspec, hdone⟩ :=
    swMatrixMultiply_spec h (.inl rfl : Ends true bCols) (le_max_right n 257) a b c
  rw [hrun _ (le_max_left _ _)] at hspec
  obtain rfl : c' = d := (Prod.mk.inj (Except.ok.inj (Option.some.inj hspec))).2
  have hkept : c' 128 = c 128 := by
    refine hdone.others 128 fun i hi j hj heq => ?_
    have hlow : j < 128 := lt_of_lt_of_le hj (min_le_right _ _)
    rcases Nat.eq_zero_or_pos i with rfl | hpos
    · omega
    · have hrow : 1 * bCols.toNat ≤ i * bCols.toNat := Nat.mul_le_mul_right _ hpos
      omega
  have hproduct := hentries 0 (by have := h.rows; omega) 128 hcols
  rw [Nat.zero_mul, Nat.zero_add] at hproduct
  rw [← hkept, hproduct, product] at hc
  exact hc rfl

lemma not_multiplies_unsigned (h : Fits aRows aCols bCols) (hcols : 256 ≤ bCols.toNat) :
    ¬ Multiplies false a b aRows aCols bCols c := by
  rintro ⟨n, c', hrun, -⟩
  have hend := hrun (n + 1) (Nat.le_succ n)
  rw [swMatrixMultiply, if_pos h.square] at hend
  obtain ⟨d, hd, -⟩ := exists_of_bind_ok (Option.some.inj hend)
  have hguard : charWord false 0 < aRows := by
    have hrows := h.rows
    have hzero : charWord false 0 = 0 := by decide
    rw [hzero]
    bv_omega
  rw [forChar, if_pos hguard] at hd
  obtain ⟨mid, hmid, -⟩ := exists_of_bind_ok hd
  exact forChar_ne_ok hcols (n + 1) 0 hmid

lemma le_of_multiplies (h : Fits aRows aCols bCols)
    (hall : ∀ c, Multiplies signed a b aRows aCols bCols c) :
    bCols.toNat ≤ if signed then 128 else 255 := by
  by_contra hcols
  cases signed with
  | true =>
    have hmore : 128 < bCols.toNat := not_le.mp hcols
    refine not_multiplies_signed h hmore ?_ (hall fun _ => product a b aCols bCols 0 128 + 1)
    exact fun heq => absurd heq (by simp)
  | false =>
    have hmore : 256 ≤ bCols.toNat := not_le.mp hcols
    exact not_multiplies_unsigned h hmore (hall fun _ => 0)

theorem multiplies_iff (h : Fits aRows aCols bCols) (signed : Bool) (a b : ℕ → Hint) :
    (∀ c, Multiplies signed a b aRows aCols bCols c) ↔ bCols.toNat ≤
      if signed then 128 else 255 := by
  constructor
  · intro hall
    exact le_of_multiplies h hall
  · intro hcols
    exact multiplies_of_le h hcols a b

theorem two_by_two_multiplies_iff :
    (∀ c, Multiplies true (fun _ => 2) (fun _ => 3) 2 2 2 c) ↔
      (2 : Huint).toNat ≤ if true then 128 else 255 :=
  multiplies_iff ⟨rfl, by decide, by decide, by decide, by decide⟩ true _ _

theorem wide_operands_are_not_multiplied :
    ¬ Multiplies true (fun _ => 1) (fun _ => 1) 1 1 129 (fun _ => 0) ∧
      ¬ Multiplies false (fun _ => 1) (fun _ => 1) 1 1 256 (fun _ => 0) := by
  constructor
  · refine not_multiplies_signed ⟨rfl, by decide, by decide, by decide, by decide⟩ (by decide) ?_
    simp [product]
  · exact not_multiplies_unsigned ⟨rfl, by decide, by decide, by decide, by decide⟩ (by decide)

end Product

end Hthreads.Accelerators
