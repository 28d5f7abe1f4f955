import Hthreads.Slaves.Accelerators

/-! The tuning table: where `init_tuning_table` (`table_code_template.c`) stores its measurements,
and where `useHW` of the slaves (`acc_common.c`) looks for them. -/

namespace Hthreads.Accelerators

open Software Slaves

def granularitySize : ℕ := 64
def tableSize : ℕ := 4096 / granularitySize
def numAccelerators : ℕ := 5

structure Measurement where
  slave : ℕ
  acc : Accelerator
  dataSize : ℕ
  deriving DecidableEq

/-- The entries of all slaves and accelerators, one behind the other. -/
abbrev TuningTable := ℕ → Option Measurement

def entryOf (slave : ℕ) (acc : Accelerator) (index : ℕ) : ℕ :=
  (slave * numAccelerators + acc.code.toNat) * tableSize + index

section Writer

/-- The values of the counter in `for (n = first; n < limit; n += step)`. -/
def sizes (first limit step : ℕ) : List ℕ :=
  List.range' first ((limit - first + step - 1) / step) step

variable (slaves : ℕ)

-- both times of a pair are stored in the same entry
def writes (acc : Accelerator) (index : ℕ → ℕ) (dataSizes : List ℕ) : List (ℕ × Measurement) :=
  dataSizes.flatMap fun n => (List.range slaves).map fun i => (entryOf i acc (index n), ⟨i, acc, n⟩)

def listWrites (acc : Accelerator) : List (ℕ × Measurement) :=
  writes slaves acc (· / granularitySize) (sizes (granularitySize - 1) 4096 granularitySize)

def matrixWrites : List (ℕ × Measurement) := writes slaves .matrixmul id (sizes 2 64 1)

/-- The stores in their order. VECTORSUB has the number of VECTORADD. -/
def allWrites : List (ℕ × Measurement) :=
  listWrites slaves .bubblesort ++ listWrites slaves .crc ++ listWrites slaves .vectoradd ++
    listWrites slaves .vectormul ++ matrixWrites slaves

def storeAll {α : Type} (ws : List (ℕ × α)) (t : ℕ → Option α) : ℕ → Option α :=
  ws.foldl (fun (t : ℕ → Option α) w => Function.update t w.1 (some w.2)) t

def initTuningTable (t : TuningTable) : TuningTable := storeAll (allWrites slaves) t

end Writer

section Reader

inductive PolyCall
  | list (acc : Accelerator) (size : Huint)
  | matrixMul (aRows aCols bCols : Huint)
  deriving DecidableEq

namespace PolyCall

/-- What the function passes to `poly_init`. -/
def query : PolyCall → Accelerator × Huint
  | list acc size => (acc, size)
  | matrixMul aRows _ bCols => (.matrixmul, aRows * bCols)

def Fits : PolyCall → Prop
  | list acc size => acc ≠ .matrixmul ∧ 1 ≤ size.toNat ∧ size.toNat ≤ 4096
  | matrixMul aRows aCols bCols =>
    aRows.toNat * aCols.toNat ≤ 4096 ∧ aCols.toNat * bCols.toNat ≤ 4096

end PolyCall

def tableIndex (acc : Accelerator) (size : Huint) : ℕ :=
  if acc ≠ .matrixmul then size.toNat / granularitySize else size.toNat

/-- The entry whose times `useHW` compares on this slave. -/
def lookup (t : TuningTable) (slave : ℕ) (acc : Accelerator) (size : Huint) : Option Measurement :=
  t (entryOf slave acc (tableIndex acc size))

/-- The entry is one of those of the slave and the accelerator, and it holds what was measured for
the granule of the size or for the dimension of square matrices. -/
def ReadsOwn (t : TuningTable) (slave : ℕ) (call : PolyCall) : Prop :=
  tableIndex call.query.1 call.query.2 < tableSize ∧
    match call with
    | .list acc size => ∃ n, n / granularitySize = size.toNat / granularitySize ∧
        lookup t slave acc size = some ⟨slave, acc, n⟩
    | .matrixMul aRows aCols bCols => aRows = aCols → aCols = bCols →
        lookup t slave .matrixmul (aRows * bCols) = some ⟨slave, .matrixmul, aRows.toNat⟩

end Reader

section Stores

variable {α : Type} {ws : List (ℕ × α)} {e : ℕ} {x : α} {t : ℕ → Option α}

lemma storeAll_append_singleton (ws : List (ℕ × α)) (w : ℕ × α) :
    storeAll (ws ++ [w]) t = Function.update (storeAll ws t) w.1 (some w.2) := by
  rw [storeAll, List.foldl_append]
  rfl

lemma storeAll_of_mem (hmem : (e, x) ∈ ws) (hfun : ∀ y, (e, y) ∈ ws → y = x) :
    storeAll ws t e = some x := by
  induction ws using List.reverseRecOn with
  | nil => cases hmem
  | append_singleton ws w ih =>
    rw [storeAll_append_singleton]
    by_cases hw : w.1 = e
    · subst hw
      rw [Function.update_self, hfun w.2 (by simp)]
    · rw [Function.update_of_ne (Ne.symm hw)]
      refine ih ?_ fun y hy => hfun y (List.mem_append_left _ hy)
      rcases List.mem_append.mp hmem with hmem | hmem
      · exact hmem
      · obtain rfl := List.mem_singleton.mp hmem
        exact absurd rfl hw

lemma storeAll_of_not_mem (h : ∀ y, (e, y) ∉ ws) : storeAll ws t e = t e := by
  induction ws using List.reverseRecOn with
  | nil => rfl
  | append_singleton ws w ih =>
    have hw : e ≠ w.1 := by
      rintro rfl
      exact h w.2 (by simp)
    rw [storeAll_append_singleton, Function.update_of_ne hw]
    exact ih fun y hy => h y (List.mem_append_left _ hy)

end Stores

section Entries

variable {slaves slave i k : ℕ} {acc acc' : Accelerator} {m : Measurement}

lemma code_lt (acc : Accelerator) : acc.code.toNat < numAccelerators := by cases acc <;> decide

lemma code_injective (h : acc.code.toNat = acc'.code.toNat) : acc = acc' := by
  revert h
  cases acc <;> cases acc' <;> decide

lemma entryOf_injective {index index' : ℕ} (hi : index < tableSize) (hi' : index' < tableSize)
    (h : entryOf slave acc index = entryOf i acc' index') :
      slave = i ∧ acc = acc' ∧ index = index' := by
  have hcode := code_lt acc
  have hcode' := code_lt acc'
  simp only [entryOf, tableSize, granularitySize, numAccelerators] at h hi hi' hcode hcode'
  have hacc : acc.code.toNat = acc'.code.toNat := by omega
  exact ⟨by omega, code_injective hacc, by omega⟩

lemma entryOf_tableSize (h : acc'.code.toNat = acc.code.toNat + 1) :
    entryOf slave acc tableSize = entryOf slave acc' 0 := by
  simp only [entryOf, h, tableSize, granularitySize, numAccelerators]
  omega

lemma mem_sizes {first limit step n : ℕ} :
    n ∈ sizes first limit step ↔ ∃ j < (limit - first + step - 1) / step, n = first + step * j := by
  rw [sizes, List.mem_range']

lemma mem_writes {index : ℕ → ℕ} {dataSizes : List ℕ} {w : ℕ × Measurement} :
    w ∈ writes slaves acc index dataSizes ↔
      ∃ n ∈ dataSizes, ∃ i < slaves, w = (entryOf i acc (index n), ⟨i, acc, n⟩) := by
  simp only [writes, List.mem_flatMap, List.mem_map, List.mem_range, eq_comm]

def measured (slave : ℕ) (acc : Accelerator) (index : ℕ) : Option Measurement :=
  if acc ≠ .matrixmul then some ⟨slave, acc, 63 + 64 * index⟩
  else if 2 ≤ index then some ⟨slave, .matrixmul, index⟩ else none

lemma mem_listWrites (hacc : acc ≠ .matrixmul) {w : ℕ × Measurement} :
    w ∈ listWrites slaves acc ↔ ∃ j < tableSize, ∃ i < slaves, ∃ m,
      measured i acc j = some m ∧ w = (entryOf i acc j, m) := by
  simp only [listWrites, mem_writes, mem_sizes, measured, if_pos hacc, Option.some.injEq,
    exists_eq_left']
  constructor
  · rintro ⟨n, ⟨j, hj, rfl⟩, i, hi, rfl⟩
    refine ⟨j, hj, i, hi, ?_⟩
    have hgranule : (granularitySize - 1 + granularitySize * j) / granularitySize = j := by
      simp only [granularitySize]
      omega
    rw [hgranule]
    rfl
  · rintro ⟨j, hj, i, hi, rfl⟩
    refine ⟨63 + 64 * j, ⟨j, hj, rfl⟩, i, hi, ?_⟩
    have hgranule : (63 + 64 * j) / granularitySize = j := by
      simp only [granularitySize]
      omega
    rw [hgranule]

lemma mem_matrixWrites {w : ℕ × Measurement} :
    w ∈ matrixWrites slaves ↔ ∃ j < tableSize, ∃ i < slaves, ∃ m,
      measured i .matrixmul j = some m ∧ w = (entryOf i .matrixmul j, m) := by
  simp only [matrixWrites, mem_writes, mem_sizes, measured]
  constructor
  · rintro ⟨n, ⟨j, hj, rfl⟩, i, hi, rfl⟩
    refine ⟨2 + 1 * j, ?_, i, hi, _, ?_, rfl⟩
    · simp only [tableSize, granularitySize]
      omega
    · rw [if_neg (by simp), if_pos (by omega)]
  · rintro ⟨j, hj, i, hi, m, hm, rfl⟩
    rw [if_neg (by simp)] at hm
    split_ifs at hm with hlow
    refine ⟨j, ⟨j - 2, ?_, by omega⟩, i, hi, ?_⟩
    · simp only [tableSize, granularitySize] at hj
      omega
    · rw [← Option.some.inj hm]
      rfl

lemma mem_allWrites {w : ℕ × Measurement} :
    w ∈ allWrites slaves ↔ ∃ acc, ∃ j < tableSize, ∃ i < slaves, ∃ m,
      measured i acc j = some m ∧ w = (entryOf i acc j, m) := by
  simp only [allWrites, List.mem_append,
    mem_listWrites (by simp : Accelerator.bubblesort ≠ .matrixmul),
    mem_listWrites (by simp : Accelerator.crc ≠ .matrixmul),
    mem_listWrites (by simp : Accelerator.vectoradd ≠ .matrixmul),
    mem_listWrites (by simp : Accelerator.vectormul ≠ .matrixmul), mem_matrixWrites]
  constructor
  · rintro ((((h | h) | h) | h) | h) <;> exact ⟨_, h⟩
  · rintro ⟨acc, h⟩
    cases acc with
    | crc => exact .inl (.inl (.inl (.inr h)))
    | bubblesort => exact .inl (.inl (.inl (.inl h)))
    | vectoradd => exact .inl (.inl (.inr h))
    | vectormul => exact .inl (.inr h)
    | matrixmul => exact .inr h

lemma initTuningTable_entry (hslave : slave < slaves) {index : ℕ} (hindex : index < tableSize) :
    initTuningTable slaves (fun _ => none) (entryOf slave acc index) =
      measured slave acc index := by
  have hfun : ∀ m, (entryOf slave acc index, m) ∈ allWrites slaves →
      measured slave acc index = some m := by
    intro m hm
    obtain ⟨acc', j, hj, i, hi, m', hm', heq⟩ := mem_allWrites.mp hm
    obtain ⟨hentry, rfl⟩ := Prod.mk.inj heq
    obtain ⟨rfl, rfl, rfl⟩ := entryOf_injective hindex hj hentry
    exact hm'
  cases hmeasured : measured slave acc index with
  | none =>
    refine storeAll_of_not_mem fun m hm => ?_
    rw [hfun m hm] at hmeasured
    cases hmeasured
  | some m =>
    refine storeAll_of_mem
      (mem_allWrites.mpr ⟨acc, index, hindex, slave, hslave, m, hmeasured, rfl⟩) ?_
    intro m' hm'
    rw [hfun m' hm'] at hmeasured
    exact Option.some.inj hmeasured

end Entries

section Lookups

variable {slaves slave : ℕ} {acc : Accelerator} {size aRows aCols bCols : Huint}

lemma lookup_eq (hslave : slave < slaves) (hindex : tableIndex acc size < tableSize) :
    lookup (initTuningTable slaves fun _ => none) slave acc size =
      measured slave acc (tableIndex acc size) := initTuningTable_entry hslave hindex

lemma readsOwn_list_iff (hslave : slave < slaves) (hacc : acc ≠ .matrixmul)
    (hsize : size.toNat ≤ 4096) :
    ReadsOwn (initTuningTable slaves fun _ => none) slave (.list acc size) ↔ size.toNat ≠ 4096 := by
  have hindex : tableIndex acc size = size.toNat / granularitySize := if_pos hacc
  have hrange : tableIndex acc size < tableSize ↔ size.toNat ≠ 4096 := by
    rw [hindex]
    simp only [tableSize, granularitySize]
    omega
  constructor
  · exact fun h => hrange.mp h.1
  · intro hne
    refine ⟨hrange.mpr hne, 63 + 64 * tableIndex acc size, ?_, ?_⟩
    · rw [hindex]
      simp only [granularitySize]
      omega
    · rw [lookup_eq hslave (hrange.mpr hne), measured, if_pos hacc]

lemma lookup_square_ne (hslave : slave < slaves) (hfits : aRows.toNat * aRows.toNat ≤ 4096)
    (hindex : tableIndex .matrixmul (aRows * aRows) < tableSize) :
    lookup (initTuningTable slaves fun _ => none) slave .matrixmul (aRows * aRows) ≠
      some ⟨slave, .matrixmul, aRows.toNat⟩ := by
  have hproduct : (aRows * aRows).toNat = aRows.toNat * aRows.toNat := by
    rw [BitVec.toNat_mul]
    exact Nat.mod_eq_of_lt (by omega)
  have hentry : tableIndex .matrixmul (aRows * aRows) = aRows.toNat * aRows.toNat := hproduct
  intro h
  rw [lookup_eq hslave hindex, measured, if_neg (by simp), hentry] at h
  split_ifs at h with hlow
  have hsame : aRows.toNat * aRows.toNat = aRows.toNat :=
    congrArg Measurement.dataSize (Option.some.inj h)
  rcases Nat.lt_or_ge aRows.toNat 2 with hsmall | hlarge
  · omega
  · nlinarith

lemma readsOwn_matrixMul_iff (hslave : slave < slaves) (hfits : aRows.toNat * aCols.toNat ≤ 4096) :
    ReadsOwn (initTuningTable slaves fun _ => none) slave (.matrixMul aRows aCols bCols) ↔
      (aRows * bCols).toNat < 64 ∧ ¬ (aRows = aCols ∧ aCols = bCols) := by
  constructor
  · rintro ⟨hindex, hown⟩
    refine ⟨hindex, ?_⟩
    rintro ⟨rfl, rfl⟩
    exact lookup_square_ne hslave hfits hindex (hown rfl rfl)
  · rintro ⟨hindex, hsquare⟩
    exact ⟨hindex, fun h h' => absurd ⟨h, h'⟩ hsquare⟩

/-- The condition under which a call reads its own entry. -/
def PolyCall.Covered : PolyCall → Prop
  | list _ size => size.toNat ≠ 4096
  | matrixMul aRows aCols bCols => (aRows * bCols).toNat < 64 ∧ ¬ (aRows = aCols ∧ aCols = bCols)

theorem readsOwn_iff_covered (hslave : slave < slaves) (call : PolyCall) (hfits : call.Fits) :
    ReadsOwn (initTuningTable slaves fun _ => none) slave call ↔ call.Covered := by
  cases call with
  | list acc size => exact readsOwn_list_iff hslave hfits.1 hfits.2.2
  | matrixMul aRows aCols bCols => exact readsOwn_matrixMul_iff hslave hfits.1

theorem vectoradd_of_100_reads_own :
    ReadsOwn (initTuningTable 2 fun _ => none) 1 (.list .vectoradd 100) ↔
      (PolyCall.list .vectoradd 100).Covered :=
  readsOwn_iff_covered (by decide) _ ⟨by decide, by decide, by decide⟩

theorem full_list_and_square_matrix_read_elsewhere :
    lookup (initTuningTable 2 fun _ => none) 0 .bubblesort 4096 = some ⟨0, .vectoradd, 63⟩ ∧
      ¬ ReadsOwn (initTuningTable 2 fun _ => none) 0 (.list .bubblesort 4096) ∧
      lookup (initTuningTable 2 fun _ => none) 0 .matrixmul (7 * 7) = some ⟨0, .matrixmul, 49⟩ ∧
      ¬ ReadsOwn (initTuningTable 2 fun _ => none) 0 (.matrixMul 7 7 7) ∧
      lookup (initTuningTable 2 fun _ => none) 0 .matrixmul (8 * 8) = some ⟨1, .crc, 63⟩ ∧
      ¬ ReadsOwn (initTuningTable 2 fun _ => none) 0 (.matrixMul 8 8 8) := by
  have hlist : lookup (initTuningTable 2 fun _ => none) 0 .bubblesort 4096 =
    measured 0 .vectoradd 0 := by
    change initTuningTable 2 _ (entryOf 0 .bubblesort tableSize) = _
    rw [entryOf_tableSize (by decide : Accelerator.vectoradd.code.toNat = _)]
    exact initTuningTable_entry (by decide) (by decide)
  have hseven : lookup (initTuningTable 2 fun _ => none) 0 .matrixmul (7 * 7) =
    measured 0 .matrixmul 49 :=
    initTuningTable_entry (by decide) (by decide)
  have height : lookup (initTuningTable 2 fun _ => none) 0 .matrixmul (8 * 8) =
    measured 1 .crc 0 := by
    change initTuningTable 2 _ (entryOf 1 .crc 0) = _
    exact initTuningTable_entry (by decide) (by decide)
  refine ⟨hlist, fun h => absurd h.1 (by decide), hseven, ?_, height,
    fun h => absurd h.1 (by decide)⟩
  exact fun h => lookup_square_ne (by decide) (by decide) h.1 (h.2 rfl rfl)

end Lookups

end Hthreads.Accelerators
