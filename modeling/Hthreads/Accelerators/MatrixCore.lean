import Hthreads.Accelerators.CoreLoops
import Hthreads.Accelerators.Matrix

/-! The matrix multiplication core of the slaves (`Matrix_Multiply_Vivado_Multiplication.cpp`),
whose response stands in the innermost loop, and the software routine beside it. -/

namespace Hthreads.Accelerators

open Library Software

structure Work where
  brams : Brams
  responses : List Hint

section Code

variable {σ : Type}

/-- `for (x = 0; x < bound; x++)` from a value of the counter on. -/
def forInt (bound : Hint) (body : Hint → σ → Except Stop σ) (x : Hint) (s : σ) : Except Stop σ :=
  if x.toInt < bound.toInt then do
    let s ← body x s
    forInt bound body (x + 1) s
  else pure s
termination_by (bound.toInt - x.toInt).toNat
decreasing_by
  have hnext := toInt_add_one ‹_›
  omega

variable (aRows bCols abCommon : Hint)

-- `K_LOOP`, with `temp` beside the memories
def commonTurn (i j k : Hint) (x : Hint × Work) : Except Stop (Hint × Work) := do
  let left ← Brams.load x.2.brams.a (i * abCommon + k).toNat
  let right ← Brams.load x.2.brams.b (k * bCols + j).toNat
  let temp := x.1 + left * right
  if k = abCommon - 1 then do
    let brams ← x.2.brams.storeC (i * bCols + j).toNat temp
    pure (temp, ⟨brams, x.2.responses ++ if i = aRows - 1 ∧ j = bCols - 1 then [1] else []⟩)
  else pure (temp, x.2)

-- `J_LOOP`
def columnTurn (i j : Hint) (s : Work) : Except Stop Work := do
  let x ← forInt abCommon (commonTurn aRows bCols abCommon i j) 0 (0, s)
  pure x.2

-- `I_LOOP`
def rowTurn (i : Hint) (s : Work) : Except Stop Work :=
  forInt bCols (columnTurn aRows bCols abCommon i) 0 s

/-- `matrix_mul`: rows, columns and the common size are read in this order. -/
def matrixMul : Turn where
  commands := 3
  body
    | [aRows, bCols, abCommon], m => do
      let s ← forInt aRows (rowTurn aRows bCols abCommon) 0 ⟨m, []⟩
      pure (s.brams, s.responses)
    | _, m => pure (m, [])

end Code

section Loops

variable {σ : Type} {bound : Hint} {body : Hint → σ → Except Stop σ} {s : σ}

lemma toInt_ofNat {n : ℕ} (h : n ≤ 4096) : (BitVec.ofNat 32 n).toInt = n := by
  rw [BitVec.toInt_eq_toNat_of_lt] <;> simp only [BitVec.toNat_ofNat] <;> omega

lemma forInt_from {P : ℕ → σ → Prop} {n d : ℕ} (hbound : n + d ≤ 4096)
    (hstep : ∀ k < n + d, ∀ s, P k s → ∃ s', body (BitVec.ofNat 32 k) s = .ok s' ∧ P (k + 1) s')
    (h : P n s) :
    ∃ s', forInt (BitVec.ofNat 32 (n + d)) body (BitVec.ofNat 32 n) s = .ok s' ∧ P (n + d) s' := by
  induction d generalizing n s with
  | zero =>
    rw [Nat.add_zero, forInt, if_neg (lt_irrefl _)]
    exact ⟨s, rfl, h⟩
  | succ d ih =>
    have hguard : (BitVec.ofNat 32 n).toInt < (BitVec.ofNat 32 (n + (d + 1))).toInt := by
      rw [toInt_ofNat (by omega), toInt_ofNat hbound]
      omega
    obtain ⟨mid, hmid, hP⟩ := hstep n (by omega) s h
    have hnext : BitVec.ofNat 32 n + 1 = BitVec.ofNat 32 (n + 1) := by
      rw [BitVec.ofNat_add]
      rfl
    have hlater : n + (d + 1) = n + 1 + d := by omega
    rw [forInt, if_pos hguard, hmid, hnext, hlater]
    rw [hlater] at hbound hstep
    exact ih hbound hstep hP

lemma forInt_invariant {P : ℕ → σ → Prop} {n : ℕ} (hbound : n ≤ 4096)
    (hstep : ∀ k < n, ∀ s, P k s → ∃ s', body (BitVec.ofNat 32 k) s = .ok s' ∧ P (k + 1) s')
    (h : P 0 s) : ∃ s', forInt (BitVec.ofNat 32 n) body 0 s = .ok s' ∧ P n s' := by
  have hfrom := forInt_from (n := 0) (d := n) (by omega) (by simpa using hstep) h
  rw [Nat.zero_add] at hfrom
  exact hfrom

lemma forInt_of_not_lt {x : Hint} (h : ¬ x.toInt < bound.toInt) :
    forInt bound body x s = .ok s := by
  rw [forInt, if_neg h]
  rfl

-- the induction is on the turns that are left
lemma forInt_still (hbody : ∀ x, body x s = .ok s) (x : Hint) : forInt bound body x s = .ok s := by
  induction hd : (bound.toInt - x.toInt).toNat generalizing x with
  | zero => exact forInt_of_not_lt (by omega)
  | succ d ih =>
    have hlt : x.toInt < bound.toInt := by omega
    have hnext := toInt_add_one hlt
    rw [forInt, if_pos hlt, hbody]
    exact ih (x + 1) (by omega)

end Loops

section Product

variable {m : Brams} {rows cols common : ℕ} {s : Work}

def entryAt (m : Brams) (cols common e : ℕ) : Hint :=
  product m.a m.b (BitVec.ofNat 32 common) (BitVec.ofNat 32 cols) (e / cols) (e % cols)

/-- The first `n` entries of the product are stored, and nothing else is changed. The response is
given with the last one. -/
structure Stored (m : Brams) (rows cols common n : ℕ) (s : Work) : Prop where
  a : s.brams.a = m.a
  b : s.brams.b = m.b
  c : ∀ e, s.brams.c e = if e < n then entryAt m cols common e else m.c e
  responses : s.responses = if n = rows * cols then [1] else []

structure Sizes (rows cols common : ℕ) : Prop where
  someRow : 0 < rows
  someCol : 0 < cols
  someCommon : 0 < common
  left : rows * common ≤ 4096
  right : common * cols ≤ 4096
  result : rows * cols ≤ 4096

lemma Sizes.rows_le (h : Sizes rows cols common) : rows ≤ 4096 :=
  (Nat.le_mul_of_pos_right rows h.someCommon).trans h.left

lemma Sizes.cols_le (h : Sizes rows cols common) : cols ≤ 4096 :=
  (Nat.le_mul_of_pos_left cols h.someCommon).trans h.right

lemma Sizes.common_le (h : Sizes rows cols common) : common ≤ 4096 :=
  (Nat.le_mul_of_pos_right common h.someCol).trans h.right

lemma entry_lt {i j n l : ℕ} (hi : i < n) (hj : j < l) : i * l + j < n * l := by
  have hrow : (i + 1) * l ≤ n * l := Nat.mul_le_mul_right l hi
  rw [Nat.succ_mul] at hrow
  omega

lemma toNat_entry {i j l : ℕ} (h : i * l + j < 4096) :
    (BitVec.ofNat 32 i * BitVec.ofNat 32 l + BitVec.ofNat 32 j).toNat = i * l + j := by
  rw [← BitVec.ofNat_mul, ← BitVec.ofNat_add, BitVec.toNat_ofNat, Nat.mod_eq_of_lt (by omega)]

lemma eq_last_iff {k n : ℕ} (hk : k < n) (hn : n ≤ 4096) :
    BitVec.ofNat 32 k = BitVec.ofNat 32 n - 1 ↔ k + 1 = n := by
  have hlast : BitVec.ofNat 32 n - 1 = BitVec.ofNat 32 (n - 1) := by
    bv_omega
  rw [hlast]
  constructor
  · intro heq
    have hnat := congrArg BitVec.toNat heq
    rw [BitVec.toNat_ofNat, BitVec.toNat_ofNat, Nat.mod_eq_of_lt (by omega),
      Nat.mod_eq_of_lt (by omega)] at hnat
    omega
  · intro heq
    rw [← heq, Nat.add_sub_cancel]

def partialSum (m : Brams) (cols common i j k : ℕ) : Hint :=
  ∑ x ∈ Finset.range k, m.a (i * common + x) * m.b (x * cols + j)

lemma entryAt_eq {i j : ℕ} (h : Sizes rows cols common) (hj : j < cols) :
    entryAt m cols common (i * cols + j) = partialSum m cols common i j common := by
  have hdiv : (i * cols + j) / cols = i := by
    rw [Nat.mul_comm, Nat.mul_add_div h.someCol, Nat.div_eq_of_lt hj, Nat.add_zero]
  have hmod : (i * cols + j) % cols = j := by
    rw [Nat.mul_comm, Nat.mul_add_mod, Nat.mod_eq_of_lt hj]
  have hcommon := h.common_le
  have hcols := h.cols_le
  rw [entryAt, hdiv, hmod, product, partialSum, BitVec.toNat_ofNat, BitVec.toNat_ofNat,
    Nat.mod_eq_of_lt (by omega), Nat.mod_eq_of_lt (by omega)]

lemma Stored.next {n : ℕ} (h : Stored m rows cols common n s) (hn : n < rows * cols) :
    Stored m rows cols common (n + 1)
      ⟨{ s.brams with c := Function.update s.brams.c n (entryAt m cols common n) },
        s.responses ++ if n + 1 = rows * cols then [1] else []⟩ := by
  refine ⟨h.a, h.b, fun e => ?_, ?_⟩
  · change Function.update s.brams.c n (entryAt m cols common n) e = _
    by_cases he : e = n
    · rw [he, Function.update_self, if_pos (Nat.lt_succ_self n)]
    · rw [Function.update_of_ne he, h.c]
      by_cases hlt : e < n
      · rw [if_pos hlt, if_pos (by omega)]
      · rw [if_neg hlt, if_neg (by omega)]
  · change s.responses ++ _ = _
    rw [h.responses, if_neg (by omega), List.nil_append]

lemma last_iff {i j n l : ℕ} (hi : i < n) (hj : j < l) :
    i + 1 = n ∧ j + 1 = l ↔ i * l + j + 1 = n * l := by
  constructor
  · rintro ⟨rfl, rfl⟩
    ring
  · intro hlast
    have hrow : i + 1 = n := by
      by_contra hne
      have hle : (i + 2) * l ≤ n * l := Nat.mul_le_mul_right l (by omega)
      rw [Nat.add_mul] at hle
      omega
    rw [← hrow, Nat.succ_mul] at hlast
    exact ⟨hrow, by omega⟩

structure Summed (m : Brams) (rows cols common i j k : ℕ) (x : Hint × Work) : Prop where
  sum : x.1 = partialSum m cols common i j k
  stored : Stored m rows cols common (i * cols + j + if k = common then 1 else 0) x.2

lemma commonTurn_spec {i j k : ℕ} (h : Sizes rows cols common) (hi : i < rows) (hj : j < cols)
    (hk : k < common) {x : Hint × Work} (hx : Summed m rows cols common i j k x) :
    ∃ x', commonTurn (BitVec.ofNat 32 rows) (BitVec.ofNat 32 cols) (BitVec.ofNat 32 common)
      (BitVec.ofNat 32 i) (BitVec.ofNat 32 j) (BitVec.ofNat 32 k) x = .ok x' ∧
      Summed m rows cols common i j (k + 1) x' := by
  have hleft : Element bramSize (i * common + k) := (entry_lt hi hk).trans_le h.left
  have hright : Element bramSize (k * cols + j) := (entry_lt hk hj).trans_le h.right
  have hresult : Element bramSize (i * cols + j) := (entry_lt hi hj).trans_le h.result
  have hstored := hx.stored
  rw [if_neg (by omega), Nat.add_zero] at hstored
  have hsum : x.1 + m.a (i * common + k) * m.b (k * cols + j) =
    partialSum m cols common i j (k + 1) := by
    rw [hx.sum, partialSum, partialSum, Finset.sum_range_succ]
  rw [commonTurn, toNat_entry hleft, toNat_entry hright, toNat_entry hresult, hstored.a, hstored.b,
    Brams.load, Brams.load, load_of_valid hleft, load_of_valid hright]
  change ∃ x', ite _ _ _ = Except.ok x' ∧ _
  rw [hsum]
  simp only [eq_last_iff hk h.common_le, eq_last_iff hi h.rows_le, eq_last_iff hj h.cols_le,
    last_iff hi hj]
  by_cases hlast : k + 1 = common
  · rw [if_pos hlast, Brams.storeC, store_of_valid hresult]
    refine ⟨_, rfl, rfl, ?_⟩
    rw [if_pos hlast, hlast, ← entryAt_eq h hj]
    exact hstored.next (entry_lt hi hj)
  · rw [if_neg hlast]
    refine ⟨_, rfl, rfl, ?_⟩
    rw [if_neg hlast]
    exact hstored

lemma columnTurn_spec {i j : ℕ} (h : Sizes rows cols common) (hi : i < rows) (hj : j < cols)
    (hs : Stored m rows cols common (i * cols + j) s) :
    ∃ s', columnTurn (BitVec.ofNat 32 rows) (BitVec.ofNat 32 cols) (BitVec.ofNat 32 common)
      (BitVec.ofNat 32 i) (BitVec.ofNat 32 j) s = .ok s' ∧
      Stored m rows cols common (i * cols + (j + 1)) s' := by
  have hstart : Summed m rows cols common i j 0 (0, s) := by
    refine ⟨rfl, ?_⟩
    rw [if_neg h.someCommon.ne]
    exact hs
  obtain ⟨x, hx, hsummed⟩ := forInt_invariant h.common_le
    (fun k hk x hx => commonTurn_spec h hi hj hk hx) hstart
  have hstored := hsummed.stored
  rw [if_pos rfl] at hstored
  refine ⟨x.2, ?_, hstored⟩
  rw [columnTurn, hx]
  rfl

lemma rowTurn_spec {i : ℕ} (h : Sizes rows cols common) (hi : i < rows)
    (hs : Stored m rows cols common (i * cols) s) :
    ∃ s', rowTurn (BitVec.ofNat 32 rows) (BitVec.ofNat 32 cols) (BitVec.ofNat 32 common)
      (BitVec.ofNat 32 i) s = .ok s' ∧ Stored m rows cols common ((i + 1) * cols) s' := by
  rw [rowTurn, Nat.succ_mul]
  exact forInt_invariant (P := fun j => Stored m rows cols common (i * cols + j)) h.cols_le
    (fun j hj s hs => columnTurn_spec h hi hj hs) hs

lemma matrixMul_body (aRows bCols abCommon : Hint) (m : Brams) :
    matrixMul.body [aRows, bCols, abCommon] m =
      (forInt aRows (rowTurn aRows bCols abCommon) 0 ⟨m, []⟩ >>= fun s =>
        pure (s.brams, s.responses)) :=
  rfl

lemma matrixMul_empty {aRows bCols abCommon : Hint}
    (h : aRows.toInt ≤ 0 ∨ bCols.toInt ≤ 0 ∨ abCommon.toInt ≤ 0) (m : Brams) :
    matrixMul.body [aRows, bCols, abCommon] m = .ok (m, []) := by
  have hzero : (0 : Hint).toInt = 0 := by decide
  have hrows : forInt aRows (rowTurn aRows bCols abCommon) 0 ⟨m, []⟩ = .ok ⟨m, []⟩ := by
    rcases h with hrows | hcols | hcommon
    · exact forInt_of_not_lt (by omega)
    · exact forInt_still (fun i => forInt_of_not_lt (by omega)) 0
    · refine forInt_still (fun i => forInt_still (fun j => ?_) 0) 0
      rw [columnTurn, forInt_of_not_lt (by omega)]
      rfl
  rw [matrixMul_body, hrows]
  rfl

lemma matrixMul_product {aRows bCols abCommon : Hint}
    (h : Sizes aRows.toNat bCols.toNat abCommon.toNat) (m : Brams) :
    ∃ c, matrixMul.body [aRows, bCols, abCommon] m = .ok ({ m with c }, [1]) ∧
      (∀ i < aRows.toNat, ∀ j < bCols.toNat,
        c (i * bCols.toNat + j) = product m.a m.b abCommon bCols i j) ∧
      ∀ e ≥ aRows.toNat * bCols.toNat, c e = m.c e := by
  have hstart : Stored m aRows.toNat bCols.toNat abCommon.toNat (0 * bCols.toNat) ⟨m, []⟩ := by
    have hsome : 0 < aRows.toNat * bCols.toNat := Nat.mul_pos h.someRow h.someCol
    refine ⟨rfl, rfl, fun e => ?_, ?_⟩
    · rw [if_neg (by omega)]
    · rw [if_neg (by omega)]
  have hrun := forInt_invariant
    (P := fun i => Stored m aRows.toNat bCols.toNat abCommon.toNat (i * bCols.toNat)) h.rows_le
    (fun i hi s hs => rowTurn_spec h hi hs) hstart
  simp only [BitVec.ofNat_toNat, BitVec.setWidth_eq] at hrun
  obtain ⟨⟨⟨a, b, c⟩, responses⟩, hbody, ha, hb, hc, hresponses⟩ := hrun
  refine ⟨c, ?_, fun i hi j hj => ?_, fun e he => ?_⟩
  · rw [if_pos rfl] at hresponses
    rw [matrixMul_body, hbody, ← ha, ← hb, ← hresponses]
    rfl
  · change (Brams.mk a b c).c _ = _
    rw [hc, if_pos (entry_lt hi hj), entryAt_eq h hj, partialSum, product]
  · change (Brams.mk a b c).c e = _
    rw [hc, if_neg (by omega)]

/-- A turn of the core on matrices that fit leaves the product in the third memory and gives one
response. With an empty one it gives none. -/
theorem matrixMul_turn (aRows bCols abCommon : Hint) (m : Brams) :
    (Sizes aRows.toNat bCols.toNat abCommon.toNat →
      ∃ c, matrixMul.body [aRows, bCols, abCommon] m = .ok ({ m with c }, [1]) ∧
        (∀ i < aRows.toNat, ∀ j < bCols.toNat,
          c (i * bCols.toNat + j) = product m.a m.b abCommon bCols i j) ∧
        ∀ e ≥ aRows.toNat * bCols.toNat, c e = m.c e) ∧
    (aRows.toInt ≤ 0 ∨ bCols.toInt ≤ 0 ∨ abCommon.toInt ≤ 0 →
      matrixMul.body [aRows, bCols, abCommon] m = .ok (m, [])) :=
  ⟨fun h => matrixMul_product h m, fun h => matrixMul_empty h m⟩

-- a column of two entries and a row of three
def columnRow : Brams := ⟨fun n => n + 1, fun n => n + 10, fun _ => 7⟩

theorem matrixMul_turn_columnRow :
    (∃ c, matrixMul.body [2, 3, 1] columnRow = .ok ({ columnRow with c }, [1]) ∧
      (List.range 7).map c = [10, 11, 12, 20, 22, 24, 7]) ∧
    matrixMul.body [2, 3, -1] columnRow = .ok (columnRow, []) := by
  have hsizes : Sizes (2 : Hint).toNat (3 : Hint).toNat (1 : Hint).toNat :=
    ⟨by decide, by decide, by decide, by decide, by decide, by decide⟩
  obtain ⟨c, hbody, hentries, hothers⟩ := (matrixMul_turn 2 3 1 columnRow).1 hsizes
  refine ⟨⟨c, hbody, ?_⟩, (matrixMul_turn 2 3 (-1) columnRow).2 (.inr (.inr (by decide)))⟩
  have hfirst : ∀ j < 3, c (0 * 3 + j) = product columnRow.a columnRow.b 1 3 0 j :=
    hentries 0 (by decide)
  have hsecond : ∀ j < 3, c (1 * 3 + j) = product columnRow.a columnRow.b 1 3 1 j :=
    hentries 1 (by decide)
  have hsixth : c 6 = 7 := hothers 6 (by decide)
  have h0 := hfirst 0 (by decide)
  have h1 := hfirst 1 (by decide)
  have h2 := hfirst 2 (by decide)
  have h3 := hsecond 0 (by decide)
  have h4 := hsecond 1 (by decide)
  have h5 := hsecond 2 (by decide)
  simp [product, columnRow] at h0 h1 h2 h3 h4 h5
  simp [List.range_succ, h0, h1, h2, h3, h4, h5, hsixth]

end Product

section Routine

variable {signed : Bool} {a b c d : ℕ → Hint} {aRows aCols bCols : Huint} {m : Brams}

/-- The software routine comes to its end with success, and a turn of the core on the same memories
leaves the same words and gives its response. -/
def SameProduct (signed : Bool) (aRows aCols bCols : Huint) (m : Brams) : Prop :=
  ∃ n c, (∀ fuel ≥ n, swMatrixMultiply signed fuel m.a m.b aRows aCols bCols m.c =
    some (.ok (success, c))) ∧
    matrixMul.body [aRows, bCols, aCols] m = .ok ({ m with c }, [1])

lemma Fits.sizes (h : Fits aRows aCols bCols) : Sizes aRows.toNat bCols.toNat aCols.toNat where
  someRow := h.rows
  someCol := h.cols
  someCommon := h.square ▸ h.rows
  left := h.left
  right := h.right
  result := h.square ▸ h.right

lemma RowsDone.eq_core (h : RowsDone signed a b c aCols bCols aRows.toNat d)
    (hturns : charTurns signed bCols = bCols.toNat) {d' : ℕ → Hint}
    (hentries : ∀ i < aRows.toNat, ∀ j < bCols.toNat, d' (i * bCols.toNat + j) =
      product a b aCols bCols i j)
    (hothers : ∀ e ≥ aRows.toNat * bCols.toNat, d' e = c e) : d = d' := by
  have hcore : RowsDone signed a b c aCols bCols aRows.toNat d' := by
    refine ⟨fun i hi j hj => hentries i hi j (hturns ▸ hj), fun e he => hothers e ?_⟩
    by_contra hlt
    have hpos : 0 < bCols.toNat := by
      refine Nat.pos_of_ne_zero fun hzero => ?_
      rw [hzero, Nat.mul_zero] at hlt
      omega
    refine he (e / bCols.toNat) ?_ (e % bCols.toNat) ?_ (Nat.div_add_mod' e bCols.toNat).symm
    · exact Nat.div_lt_of_lt_mul (by rw [Nat.mul_comm]; omega)
    · rw [hturns]
      exact Nat.mod_lt e hpos
  exact h.unique hcore

lemma sameProduct_of_le (h : Fits aRows aCols bCols)
    (hcols : bCols.toNat ≤ if signed then 128 else 255)
    (m : Brams) : SameProduct signed aRows aCols bCols m := by
  obtain ⟨hends, hturns⟩ := ends_of_le hcols
  obtain ⟨d, hbody, hentries, hothers⟩ := matrixMul_product h.sizes m
  refine ⟨257, d, fun fuel hfuel => ?_, hbody⟩
  obtain ⟨c', hrun, hdone⟩ := swMatrixMultiply_spec h hends hfuel m.a m.b m.c
  rw [hrun, hdone.eq_core hturns hentries hothers]

lemma SameProduct.multiplies (h : Fits aRows aCols bCols)
    (hm : SameProduct signed aRows aCols bCols m) :
    Multiplies signed m.a m.b aRows aCols bCols m.c := by
  obtain ⟨n, c, hrun, hbody⟩ := hm
  obtain ⟨d, hcore, hentries, -⟩ := matrixMul_product h.sizes m
  rw [hbody] at hcore
  have hc : c = d := congrArg (fun x : Brams × List Hint => x.1.c) (Except.ok.inj hcore)
  exact ⟨n, c, hrun, hc ▸ hentries⟩

/-- The core and the software routine are the same multiplication exactly as far as the counters of
type `char` go. -/
theorem sameProduct_iff (h : Fits aRows aCols bCols) (signed : Bool) :
    (∀ m, SameProduct signed aRows aCols bCols m) ↔ bCols.toNat ≤ if signed then 128 else 255 := by
  refine ⟨fun hall => ?_, fun hcols m => sameProduct_of_le h hcols m⟩
  refine le_of_multiplies (a := fun _ => 0) (b := fun _ => 0) h fun c => ?_
  exact (hall ⟨fun _ => 0, fun _ => 0, c⟩).multiplies h

theorem sameProduct_iff_wide :
    ¬ (∀ m, SameProduct true 1 1 129 m) ∧ ∀ m, SameProduct false 1 1 129 m := by
  have hfits : Fits 1 1 129 := ⟨rfl, by decide, by decide, by decide, by decide⟩
  constructor
  · rw [sameProduct_iff hfits true]
    decide
  · rw [sameProduct_iff hfits false]
    decide

end Routine

end Hthreads.Accelerators
