import Hthreads.HwAcc.MergeSort
import Hthreads.Library.Merging
import Mathlib.Data.List.GetD

/-! What the merge sort core makes of two halves, in each of its two forms. -/

namespace Hthreads.HwAcc.MergeSort

open Library

def element (mem : Word → Word) (a : Word) (k : ℕ) : Word := mem (a + BitVec.ofNat 32 k)

/-- So many elements of each half have been taken and put out, and the next ones are at hand. -/
structure Taken (x₀ : Merging) (k1 k2 : ℕ) (out : List Word) (x : Merging) : Prop where
  arg1 : x.arg1 = x₀.arg1
  arg2 : x.arg2 = x₀.arg2
  size : x.size = x₀.size
  array0 : x.array0 = x₀.array0
  ptr1 : x.ptr1 = x₀.arg1 + 1 + BitVec.ofNat 32 k1
  ptr2 : x.ptr2 = x₀.arg2 + 1 + BitVec.ofNat 32 k2
  i : x.i = BitVec.ofNat 32 out.length
  length : out.length = k1 + k2
  data1 : x.data1 = element x₀.array0 x₀.arg1 k1
  data2 : x.data2 = element x₀.array0 x₀.arg2 k2
  array1 : ∀ a, x.array1 a = out.getD a.toNat (x₀.array1 a)

variable {x₀ x y : Merging} {k1 k2 : ℕ} {out : List Word}

lemma update_getD (mem : Word → Word) (v a : Word) (h : out.length < 2 ^ 32) :
    Function.update (fun b : Word => out.getD b.toNat (mem b)) (BitVec.ofNat 32 out.length) v a =
      (out ++ [v]).getD a.toNat (mem a) := by
  by_cases ha : a = BitVec.ofNat 32 out.length
  · have hlength : a.toNat = out.length := by rw [ha]; bv_omega
    rw [ha, Function.update_self, ← ha, hlength, List.getD_append_right _ _ _ _ (le_refl _)]
    simp
  · rw [Function.update_of_ne ha]
    rcases Nat.lt_or_ge a.toNat out.length with hlt | hge
    · rw [List.getD_append _ _ _ _ hlt]
    · have hgt : (out ++ [v]).length ≤ a.toNat := by
        have hne : a.toNat ≠ out.length := by
          intro he
          exact ha (by rw [← he, BitVec.ofNat_toNat, BitVec.setWidth_eq])
        rw [List.length_append, List.length_singleton]
        omega
      rw [List.getD_eq_default _ _ hge, List.getD_eq_default _ _ hgt]

lemma element_succ (mem : Word → Word) (a : Word) (k : ℕ) :
    element mem (a + 1) k = element mem a (k + 1) := by
  have haddr : a + 1 + BitVec.ofNat 32 k = a + BitVec.ofNat 32 (k + 1) := by bv_omega
  rw [element, element, haddr]

namespace Taken

lemma takeFirst (h : Taken x₀ k1 k2 out x) (hlength : out.length < 2 ^ 32) :
    Taken x₀ (k1 + 1) k2 (out ++ [element x₀.array0 x₀.arg1 k1]) (takeFirst x) where
  arg1 := h.arg1
  arg2 := h.arg2
  size := h.size
  array0 := h.array0
  ptr1 := by
    change x.ptr1 + 1 = _
    rw [h.ptr1]
    bv_omega
  ptr2 := h.ptr2
  i := by
    change x.i + 1 = _
    rw [h.i, List.length_append, List.length_singleton]
    bv_omega
  length := by
    rw [List.length_append, h.length, List.length_singleton]
    omega
  data1 := by
    change x.array0 x.ptr1 = _
    rw [h.array0, h.ptr1, ← element_succ]
    rfl
  data2 := h.data2
  array1 a := by
    change Function.update x.array1 x.i x.data1 a = _
    rw [h.i, h.data1, funext h.array1, update_getD _ _ _ hlength]

lemma takeSecond (h : Taken x₀ k1 k2 out x) (hlength : out.length < 2 ^ 32) :
    Taken x₀ k1 (k2 + 1) (out ++ [element x₀.array0 x₀.arg2 k2]) (takeSecond x) where
  arg1 := h.arg1
  arg2 := h.arg2
  size := h.size
  array0 := h.array0
  ptr1 := h.ptr1
  ptr2 := by
    change x.ptr2 + 1 = _
    rw [h.ptr2]
    bv_omega
  i := by
    change x.i + 1 = _
    rw [h.i, List.length_append, List.length_singleton]
    bv_omega
  length := by
    rw [List.length_append, h.length, List.length_singleton]
    omega
  data1 := h.data1
  data2 := by
    change x.array0 x.ptr2 = _
    rw [h.array0, h.ptr2, ← element_succ]
    rfl
  array1 a := by
    change Function.update x.array1 x.i x.data2 a = _
    rw [h.i, h.data2, funext h.array1, update_getD _ _ _ hlength]

end Taken

/-- Two disjoint halves that fit behind their addresses. -/
structure Halves (x₀ : Merging) : Prop where
  arg1 : x₀.arg1.toNat < 2 ^ 15
  arg2 : x₀.arg2.toNat < 2 ^ 15
  half : x₀.half.toNat ≤ 2 ^ 15
  size : x₀.size.toNat = 2 * x₀.half.toNat

/-- A pointer that is one ahead of `k` elements of its half, as the core looks at it. -/
lemma sub_half_le_iff {a half : Word} {k : ℕ} (ha : a.toNat < 2 ^ 15) (hhalf : half.toNat ≤ 2 ^ 15)
    (hk : k ≤ 2 ^ 16) : a + 1 + BitVec.ofNat 32 k - half ≤ a ↔
      k < half.toNat ∧ half.toNat ≤ a.toNat + 1 + k := by
  constructor
  · intro h
    bv_omega
  · rintro ⟨hlt, hle⟩
    bv_omega

lemma lt_sub_half_iff {a half : Word} {k : ℕ} (ha : a.toNat < 2 ^ 15) (hhalf : half.toNat ≤ 2 ^ 15)
    (hk : k ≤ 2 ^ 16) : a < a + 1 + BitVec.ofNat 32 k - half ↔
      ¬ (k < half.toNat ∧ half.toNat ≤ a.toNat + 1 + k) := by
  rw [← sub_half_le_iff ha hhalf hk, BitVec.not_le]

namespace Taken

variable (h : Taken x₀ k1 k2 out x) (hx : Halves x₀) (hout : out.length ≤ 2 * x₀.half.toNat)
include h

lemma half : x.half = x₀.half := by
  rw [Regs.half, h.size, Regs.half]

include hx hout

lemma i_lt_size : x.i < x.size ↔ k1 + k2 < 2 * x₀.half.toNat := by
  have hsize : x₀.size.toNat = 2 * x₀.half.toNat := hx.size
  have hhalf : x₀.half.toNat ≤ 2 ^ 15 := hx.half
  rw [h.i, h.size, BitVec.lt_def, hsize, ← h.length, BitVec.toNat_ofNat,
    Nat.mod_eq_of_lt (by omega)]

lemma vhdl_first : Vhdl.TakesFirst x ↔ k1 + k2 < 2 * x₀.half.toNat ∧
    (element x₀.array0 x₀.arg1 k1 < element x₀.array0 x₀.arg2 k2 ∧
        k1 < x₀.half.toNat ∧ x₀.half.toNat ≤ x₀.arg1.toNat + 1 + k1 ∨
      ¬ (k2 < x₀.half.toNat ∧ x₀.half.toNat ≤ x₀.arg2.toNat + 1 + k2)) := by
  have hhalf : x₀.half.toNat ≤ 2 ^ 15 := hx.half
  have hlength : out.length = k1 + k2 := h.length
  change x.i < x.size ∧
    (x.data1 < x.data2 ∧ x.ptr1 - x.half ≤ x.arg1 ∨ x.arg2 < x.ptr2 - x.half) ↔ _
  rw [h.i_lt_size hx hout, h.half, h.data1, h.data2, h.arg1, h.arg2, h.ptr1, h.ptr2,
    sub_half_le_iff hx.arg1 hx.half (by omega), lt_sub_half_iff hx.arg2 hx.half (by omega)]

lemma vhdl_second : Vhdl.TakesSecond x ↔ k1 + k2 < 2 * x₀.half.toNat ∧
    (element x₀.array0 x₀.arg2 k2 ≤ element x₀.array0 x₀.arg1 k1 ∧
        k2 < x₀.half.toNat ∧ x₀.half.toNat ≤ x₀.arg2.toNat + 1 + k2 ∨
      ¬ (k1 < x₀.half.toNat ∧ x₀.half.toNat ≤ x₀.arg1.toNat + 1 + k1)) := by
  have hhalf : x₀.half.toNat ≤ 2 ^ 15 := hx.half
  have hlength : out.length = k1 + k2 := h.length
  change x.i < x.size ∧
    (x.data2 ≤ x.data1 ∧ x.ptr2 - x.half ≤ x.arg2 ∨ x.arg1 < x.ptr1 - x.half) ↔ _
  rw [h.i_lt_size hx hout, h.half, h.data1, h.data2, h.arg1, h.arg2, h.ptr1, h.ptr2,
    sub_half_le_iff hx.arg2 hx.half (by omega), lt_sub_half_iff hx.arg1 hx.half (by omega)]

end Taken

def left (x₀ : Merging) (k1 k2 : ℕ) : Multiset Word :=
  runTail (element x₀.array0 x₀.arg1) x₀.half.toNat k1 +
    runTail (element x₀.array0 x₀.arg2) x₀.half.toNat k2

lemma left_comm (x₀ : Merging) (k1 k2 : ℕ) : left x₀ k1 k2 =
    runTail (element x₀.array0 x₀.arg2) x₀.half.toNat k2 +
      runTail (element x₀.array0 x₀.arg1) x₀.half.toNat k1 := add_comm _ _

def AscendingHalf (x₀ : Merging) (a : Word) : Prop :=
  ∀ i j, i ≤ j → j < x₀.half.toNat →
    (element x₀.array0 a i).toNat ≤ (element x₀.array0 a j).toNat

section Vhdl

variable (hx : Halves x₀) (h1 : AscendingHalf x₀ x₀.arg1) (h2 : AscendingHalf x₀ x₀.arg2)
include hx h1 h2

/-- Neither bound wraps: the elements are taken in order, until both halves are empty. -/
lemma vhdl_merges (hroom1 : x₀.half.toNat ≤ x₀.arg1.toNat + 1)
    (hroom2 : x₀.half.toNat ≤ x₀.arg2.toNat + 1) {x : Merging} {k1 k2 : ℕ} {out : List Word}
    (h : Taken x₀ k1 k2 out x) (hk1 : k1 ≤ x₀.half.toNat) (hk2 : k2 ≤ x₀.half.toNat)
    (hmerges : Merges BitVec.toNat (left x₀ 0 0) out (left x₀ k1 k2)) :
    ∃ y out', Loop Vhdl.TakesFirst Vhdl.TakesSecond x y ∧
      Taken x₀ x₀.half.toNat x₀.half.toNat out' y ∧
      Merges BitVec.toNat (left x₀ 0 0) out' (left x₀ x₀.half.toNat x₀.half.toNat) := by
  have hlength : out.length = k1 + k2 := h.length
  have hhalf : x₀.half.toNat ≤ 2 ^ 15 := hx.half
  have hfirst := h.vhdl_first hx (by omega)
  have hsecond := h.vhdl_second hx (by omega)
  rw [BitVec.lt_def] at hfirst
  rw [BitVec.le_def] at hsecond
  by_cases hf : Vhdl.TakesFirst x
  · obtain ⟨hlt, hcond⟩ := hfirst.mp hf
    have hk : k1 < x₀.half.toNat := by omega
    have hnext := hmerges.take_run hk h1 fun b hb => by
      obtain ⟨j, hj, hjlen, rfl⟩ := mem_runTail.mp hb
      have hhead := h2 k2 j hj hjlen
      omega
    obtain ⟨y, out', hloop, hy⟩ := vhdl_merges hroom1 hroom2 (h.takeFirst (by omega)) hk hk2 hnext
    exact ⟨y, out', .first hf hloop, hy⟩
  · by_cases hs : Vhdl.TakesSecond x
    · obtain ⟨hlt, hcond⟩ := hsecond.mp hs
      have hnot := mt hfirst.mpr hf
      have hk : k2 < x₀.half.toNat := by omega
      rw [left_comm x₀ k1 k2] at hmerges
      have hnext := hmerges.take_run hk h2 fun b hb => by
        obtain ⟨j, hj, hjlen, rfl⟩ := mem_runTail.mp hb
        have hhead := h1 k1 j hj hjlen
        omega
      rw [← left_comm] at hnext
      obtain ⟨y, out', hloop, hy⟩ :=
        vhdl_merges hroom1 hroom2 (h.takeSecond (by omega)) hk1 hk hnext
      exact ⟨y, out', .second hf hs hloop, hy⟩
    · have hk : k1 = x₀.half.toNat ∧ k2 = x₀.half.toNat := by
        have hnot := mt hfirst.mpr hf
        have hnot' := mt hsecond.mpr hs
        omega
      rw [hk.1, hk.2] at h hmerges
      exact ⟨x, out, .done hf hs, h, hmerges⟩
termination_by 2 * x₀.half.toNat - (k1 + k2)

omit h1 h2

lemma vhdl_done (h : Taken x₀ k1 k2 out x) (hk : k1 + k2 = 2 * x₀.half.toNat) :
    Loop Vhdl.TakesFirst Vhdl.TakesSecond x x := by
  have hlength : out.length = k1 + k2 := h.length
  refine .done (fun hf => ?_) fun hs => ?_
  · have hlt := ((h.vhdl_first hx (by omega)).mp hf).1
    omega
  · have hlt := ((h.vhdl_second hx (by omega)).mp hs).1
    omega

/-- The second half counts as empty: everything else is taken from the first one, and from what lies
behind it. -/
lemma vhdl_first_alone (hempty : ¬ (k2 < x₀.half.toNat ∧ x₀.half.toNat ≤ x₀.arg2.toNat + 1 + k2))
    (n : ℕ) : ∀ {k1 out x}, Taken x₀ k1 k2 out x → k1 + k2 + n = 2 * x₀.half.toNat →
      ∃ y, Loop Vhdl.TakesFirst Vhdl.TakesSecond x y ∧
        Taken x₀ (k1 + n) k2 (out ++ (List.range' k1 n).map (element x₀.array0 x₀.arg1)) y := by
  induction n with
  | zero =>
    intro k1 out x h hk
    refine ⟨x, vhdl_done hx h hk, ?_⟩
    rwa [List.range'_zero, List.map_nil, List.append_nil]
  | succ n ih =>
    intro k1 out x h hk
    have hlength : out.length = k1 + k2 := h.length
    have hhalf : x₀.half.toNat ≤ 2 ^ 15 := hx.half
    obtain ⟨y, hloop, hy⟩ := ih (h.takeFirst (by omega)) (by omega)
    have hf : Vhdl.TakesFirst x := (h.vhdl_first hx (by omega)).mpr ⟨by omega, .inr hempty⟩
    refine ⟨y, .first hf hloop, ?_⟩
    rw [List.range'_succ, List.map_cons, List.append_cons, ← Nat.add_assoc, Nat.add_right_comm]
    exact hy

/-- The bound of the first half wraps, so that it counts as empty before anything has been taken
from it: the second half comes first. -/
lemma vhdl_second_alone (hwrap1 : x₀.arg1.toNat + 1 < x₀.half.toNat)
    (hroom2 : x₀.half.toNat ≤ x₀.arg2.toNat + 1) (n : ℕ) : ∀ {k2 out x}, Taken x₀ 0 k2 out x →
      k2 + n = x₀.half.toNat →
        ∃ x', Taken x₀ 0 (k2 + n) (out ++ (List.range' k2 n).map (element x₀.array0 x₀.arg2)) x' ∧
          ∀ y, Loop Vhdl.TakesFirst Vhdl.TakesSecond x' y →
            Loop Vhdl.TakesFirst Vhdl.TakesSecond x y := by
  induction n with
  | zero =>
    intro k2 out x h hk
    refine ⟨x, ?_, fun y hloop => hloop⟩
    rwa [List.range'_zero, List.map_nil, List.append_nil]
  | succ n ih =>
    intro k2 out x h hk
    have hlength : out.length = 0 + k2 := h.length
    have hhalf : x₀.half.toNat ≤ 2 ^ 15 := hx.half
    obtain ⟨x', hx', hloop⟩ := ih (h.takeSecond (by omega)) (by omega)
    have hf : ¬ Vhdl.TakesFirst x := by
      rw [h.vhdl_first hx (by omega)]
      omega
    have hs : Vhdl.TakesSecond x := (h.vhdl_second hx (by omega)).mpr ⟨by omega, .inr (by omega)⟩
    refine ⟨x', ?_, fun y hy => .second hf hs (hloop y hy)⟩
    rw [List.range'_succ, List.map_cons, List.append_cons, ← Nat.add_assoc, Nat.add_right_comm]
    exact hx'

end Vhdl

section Des

variable (hx : Halves x₀) (hhalf : 0 < x₀.half.toNat)
include hx hhalf

lemma Taken.des_first (h : Taken x₀ k1 k2 out x) (hout : out.length ≤ 2 * x₀.half.toNat) :
    Des.TakesFirst x ↔ k1 + k2 < 2 * x₀.half.toNat ∧
      (element x₀.array0 x₀.arg1 k1 < element x₀.array0 x₀.arg2 k2 ∧ k1 + 2 ≤ x₀.half.toNat ∨
        x₀.half.toNat ≤ k2 + 1) := by
  obtain ⟨harg1, harg2, hbound, -⟩ := id hx
  have hlength : out.length = k1 + k2 := h.length
  have hend1 : x₀.arg1 + 1 + BitVec.ofNat 32 k1 ≤ x₀.arg1 + x₀.half - 1 ↔
      k1 + 2 ≤ x₀.half.toNat := by
    constructor <;> intro <;> bv_omega
  have hend2 : x₀.arg2 + x₀.half - 1 < x₀.arg2 + 1 + BitVec.ofNat 32 k2 ↔
    x₀.half.toNat ≤ k2 + 1 := by
    constructor <;> intro <;> bv_omega
  change x.i < x.size ∧ (x.data1 < x.data2 ∧ x.ptr1 ≤ x.arg1 + x.half - 1 ∨
    x.arg2 + x.half - 1 < x.ptr2) ↔ _
  rw [h.i_lt_size hx hout, h.half, h.data1, h.data2, h.arg1, h.arg2, h.ptr1, h.ptr2, hend1, hend2]

lemma Taken.des_second (h : Taken x₀ k1 k2 out x) (hout : out.length ≤ 2 * x₀.half.toNat) :
    Des.TakesSecond x ↔ k1 + k2 < 2 * x₀.half.toNat ∧
      (element x₀.array0 x₀.arg2 k2 ≤ element x₀.array0 x₀.arg1 k1 ∧ k2 + 2 ≤ x₀.half.toNat ∨
        x₀.half.toNat ≤ k1 + 1) := by
  obtain ⟨harg1, harg2, hbound, -⟩ := id hx
  have hlength : out.length = k1 + k2 := h.length
  have hend1 : x₀.arg1 + x₀.half - 1 < x₀.arg1 + 1 + BitVec.ofNat 32 k1 ↔
    x₀.half.toNat ≤ k1 + 1 := by
    constructor <;> intro <;> bv_omega
  have hend2 : x₀.arg2 + 1 + BitVec.ofNat 32 k2 ≤ x₀.arg2 + x₀.half - 1 ↔
      k2 + 2 ≤ x₀.half.toNat := by
    constructor <;> intro <;> bv_omega
  change x.i < x.size ∧ (x.data2 ≤ x.data1 ∧ x.ptr2 ≤ x.arg2 + x.half - 1 ∨
    x.arg1 + x.half - 1 < x.ptr1) ↔ _
  rw [h.i_lt_size hx hout, h.half, h.data1, h.data2, h.arg1, h.arg2, h.ptr1, h.ptr2, hend1, hend2]

/-- The last element of the second half is never taken. -/
lemma des_skips_last (n : ℕ) : ∀ {k1 k2 out x}, Taken x₀ k1 k2 out x →
    k1 + k2 + n = 2 * x₀.half.toNat → k2 < x₀.half.toNat →
      ∃ y k1' k2' out', Loop Des.TakesFirst Des.TakesSecond x y ∧ Taken x₀ k1' k2' out' y ∧
        k2' < x₀.half.toNat := by
  induction n with
  | zero =>
    intro k1 k2 out x h hk hk2
    have hlength : out.length = k1 + k2 := h.length
    refine ⟨x, k1, k2, out, .done (fun hf => ?_) fun hs => ?_, h, hk2⟩
    · have hlt := ((h.des_first hx hhalf (by omega)).mp hf).1
      omega
    · have hlt := ((h.des_second hx hhalf (by omega)).mp hs).1
      omega
  | succ n ih =>
    intro k1 k2 out x h hk hk2
    have hlength : out.length = k1 + k2 := h.length
    have hbound : x₀.half.toNat ≤ 2 ^ 15 := hx.half
    have hfirst := h.des_first hx hhalf (by omega)
    have hsecond := h.des_second hx hhalf (by omega)
    rw [BitVec.lt_def] at hfirst
    rw [BitVec.le_def] at hsecond
    by_cases hf : Des.TakesFirst x
    · obtain ⟨y, k1', k2', out', hloop, hy⟩ := ih (h.takeFirst (by omega)) (by omega) hk2
      exact ⟨y, k1', k2', out', .first hf hloop, hy⟩
    · have hnot := mt hfirst.mpr hf
      have hs : Des.TakesSecond x := hsecond.mpr (by omega)
      obtain ⟨y, k1', k2', out', hloop, hy⟩ := ih (h.takeSecond (by omega)) (by omega) (by omega)
      exact ⟨y, k1', k2', out', .second hf hs hloop, hy⟩

end Des

/-- The first `size` words of `array1` are the ascending merge of the two halves, nothing else has
changed, and each pointer has gone one place past the last element of its half and one further. -/
structure MergesHalves (w size : Word) (x y : Merging) : Prop where
  sorted : ((List.range size.toNat).map fun k => y.array1 (BitVec.ofNat 32 k)).Pairwise
    fun a b => a.toNat ≤ b.toNat
  perm : ((List.range size.toNat).map fun k => y.array1 (BitVec.ofNat 32 k)).Perm
    ((List.range (size.toNat / 2)).map (element x.array0 (startField w)) ++
      (List.range (size.toNat / 2)).map (element x.array0 (endField w)))
  outside : ∀ a, size ≤ a → y.array1 a = x.array1 a
  array0 : y.array0 = x.array0
  ptr1 : y.ptr1 = startField w + 1 + BitVec.ofNat 32 (size.toNat / 2)
  ptr2 : y.ptr2 = endField w + 1 + BitVec.ofNat 32 (size.toNat / 2)

section Results

variable {w size : Word} {x y : Merging} {k1 k2 : ℕ} {out : List Word}

lemma toNat_half (w size : Word) (x : Merging) :
    (beginMerge w size x).half.toNat = size.toNat / 2 := by
  change (0#1 ++ size.extractLsb' 1 31).toNat = _
  rw [BitVec.toNat_append, BitVec.extractLsb'_toNat, Nat.shiftRight_eq_div_pow]
  simp
  omega

lemma taken_beginMerge (w size : Word) (x : Merging) :
    Taken (beginMerge w size x) 0 0 [] (beginMerge w size x) where
  arg1 := rfl
  arg2 := rfl
  size := rfl
  array0 := rfl
  ptr1 := (BitVec.add_zero _).symm
  ptr2 := (BitVec.add_zero _).symm
  i := rfl
  length := rfl
  data1 := congrArg x.array0 (BitVec.add_zero _).symm
  data2 := congrArg x.array0 (BitVec.add_zero _).symm
  array1 _ := rfl

lemma map_getD (mem : Word → Word) (h : out.length < 2 ^ 32) :
    ((List.range out.length).map fun k =>
      out.getD (BitVec.ofNat 32 k).toNat (mem (BitVec.ofNat 32 k))) = out := by
  refine List.ext_getElem (by simp) fun k hk hk' => ?_
  have hlt : (BitVec.ofNat 32 k).toNat = k := by
    rw [BitVec.toNat_ofNat, Nat.mod_eq_of_lt (by omega)]
  rw [List.getElem_map, List.getElem_range, hlt, List.getD_eq_getElem _ _ hk']

lemma Taken.mergesHalves_iff
    (h : Taken (beginMerge w size x) (size.toNat / 2) (size.toNat / 2) out y)
    (heven : size.toNat % 2 = 0) : MergesHalves w size x y ↔
      out.Pairwise (fun a b => a.toNat ≤ b.toNat) ∧
        out.Perm ((List.range (size.toNat / 2)).map (element x.array0 (startField w)) ++
          (List.range (size.toNat / 2)).map (element x.array0 (endField w))) := by
  have hlength : out.length = size.toNat := by
    rw [h.length]
    omega
  have hwords : ((List.range size.toNat).map fun k => y.array1 (BitVec.ofNat 32 k)) = out := by
    rw [← hlength, funext h.array1]
    exact map_getD x.array1 (by omega)
  constructor
  · rintro ⟨hsorted, hperm, -⟩
    rw [hwords] at hsorted hperm
    exact ⟨hsorted, hperm⟩
  · rintro ⟨hsorted, hperm⟩
    refine ⟨by rwa [hwords], by rwa [hwords], fun a ha => ?_, h.array0, h.ptr1, h.ptr2⟩
    rw [h.array1, List.getD_eq_default _ _ (by bv_omega)]
    rfl

lemma Taken.eq_of_mergesHalves (h : Taken (beginMerge w size x) k1 k2 out y)
    (hk2 : k2 < 2 ^ 32) (hmerges : MergesHalves w size x y) : k2 = size.toNat / 2 := by
  have hptr : endField w + 1 + BitVec.ofNat 32 k2 =
      endField w + 1 + BitVec.ofNat 32 (size.toNat / 2) := h.ptr2.symm.trans hmerges.ptr2
  bv_omega

/-- What the use of the command asks for: an even size, and two disjoint ascending halves. -/
structure Mergeable (w size : Word) (x : Merging) : Prop where
  opcode : w.extractLsb' 30 2 = 1
  even : size.toNat % 2 = 0
  disjoint : ∀ i < size.toNat / 2, ∀ j < size.toNat / 2,
    (startField w).toNat + i ≠ (endField w).toNat + j
  ascending1 : ∀ i j, i ≤ j → j < size.toNat / 2 →
    (element x.array0 (startField w) i).toNat ≤ (element x.array0 (startField w) j).toNat
  ascending2 : ∀ i j, i ≤ j → j < size.toNat / 2 →
    (element x.array0 (endField w) i).toNat ≤ (element x.array0 (endField w) j).toNat

lemma Mergeable.halves (h : Mergeable w size x) : Halves (beginMerge w size x) := by
  have hstart : (startField w).toNat < 2 ^ 15 := by
    rw [toNat_startField]
    exact Nat.mod_lt _ (by norm_num)
  have hend : (endField w).toNat < 2 ^ 15 := by
    rw [toNat_endField]
    exact Nat.mod_lt _ (by norm_num)
  have heven : size.toNat % 2 = 0 := h.even
  refine ⟨hstart, hend, ?_, ?_⟩
  · rw [toNat_half]
    by_contra hlong
    -- longer halves would overlap
    rcases Nat.le_total (startField w).toNat (endField w).toNat with hle | hle
    · exact h.disjoint ((endField w).toNat - (startField w).toNat) (by omega) 0
        (by omega) (by omega)
    · exact h.disjoint 0 (by omega) ((startField w).toNat - (endField w).toNat)
        (by omega) (by omega)
  · rw [toNat_half]
    change size.toNat = _
    omega

/-- The bounds of the VHDL form do not wrap, or the whole second half comes first anyway. -/
def Bounded (w size : Word) (x : Merging) : Prop :=
  size.toNat / 2 ≤ (endField w).toNat + 1 ∧
    (size.toNat / 2 ≤ (startField w).toNat + 1 ∨
      (element x.array0 (endField w) (size.toNat / 2 - 1)).toNat ≤
        (element x.array0 (startField w) 0).toNat)

lemma runTail_zero (run : ℕ → Word) (n : ℕ) :
    runTail run n 0 = ((List.range n).map run : List Word) := by
  have hrange : Multiset.Ico 0 n = Multiset.range n := 
    congrArg Finset.val (Finset.range_eq_Ico n).symm
  rw [runTail, hrange]
  rfl

lemma runTail_end (run : ℕ → Word) (n : ℕ) : runTail run n n = 0 := by
  rw [runTail, Multiset.Ico_self, Multiset.map_zero]

lemma pairwise_half {run : ℕ → Word} {n : ℕ}
    (h : ∀ i j, i ≤ j → j < n → (run i).toNat ≤ (run j).toNat) :
    ((List.range n).map run).Pairwise fun a b => a.toNat ≤ b.toNat := by
  refine List.pairwise_map.mpr (List.pairwise_lt_range.imp_of_mem fun _ hj hij => ?_)
  exact h _ _ (le_of_lt hij) (List.mem_range.mp hj)

lemma Mergeable.vhdl_loop (h : Mergeable w size x) :
    ∃ y, Loop Vhdl.TakesFirst Vhdl.TakesSecond (beginMerge w size x) y ∧
      (MergesHalves w size x y ↔ Bounded w size x) := by
  have hhalf : (beginMerge w size x).half.toNat = size.toNat / 2 := toNat_half w size x
  have hstart : Taken (beginMerge w size x) 0 0 [] (beginMerge w size x) :=
    taken_beginMerge w size x
  have hsize : size.toNat < 2 ^ 32 := size.isLt
  by_cases hroom2 : size.toNat / 2 ≤ (endField w).toNat + 1
  · by_cases hroom1 : size.toNat / 2 ≤ (startField w).toNat + 1
    · have h1 : AscendingHalf (beginMerge w size x) (startField w) := by
        rw [AscendingHalf, hhalf]
        exact h.ascending1
      have h2 : AscendingHalf (beginMerge w size x) (endField w) := by
        rw [AscendingHalf, hhalf]
        exact h.ascending2
      obtain ⟨y, out, hloop, hy, hmerges⟩ := vhdl_merges h.halves h1 h2 (hhalf ▸ hroom1)
        (hhalf ▸ hroom2) hstart (Nat.zero_le _) (Nat.zero_le _) (.start _ _)
      rw [hhalf] at hy
      refine ⟨y, hloop, iff_of_true ((hy.mergesHalves_iff h.even).mpr ⟨hmerges.sorted, ?_⟩)
        ⟨hroom2, .inl hroom1⟩⟩
      have hsum := hmerges.sum
      rw [left, left, hhalf, runTail_zero, runTail_zero, runTail_end, runTail_end, add_zero,
        add_zero, Multiset.coe_add] at hsum
      exact Multiset.coe_eq_coe.mp hsum
    · -- the second half comes out first, and then the first one
      obtain ⟨x', hx', hloop⟩ := vhdl_second_alone h.halves (by rw [hhalf]; exact not_le.mp hroom1)
        (hhalf ▸ hroom2) (size.toNat / 2) hstart (by rw [hhalf, Nat.zero_add])
      obtain ⟨y, hrest, hy⟩ := vhdl_first_alone h.halves (by omega) (size.toNat / 2) hx' (by omega)
      rw [Nat.zero_add, ← List.range_eq_range', List.nil_append] at hy
      refine ⟨y, hloop y hrest, (hy.mergesHalves_iff h.even).trans ?_⟩
      constructor
      · rintro ⟨hsorted, -⟩
        have hcross := (List.pairwise_append.mp hsorted).2.2
        refine ⟨hroom2, .inr (hcross _ (List.mem_map_of_mem ?_) _ (List.mem_map_of_mem ?_))⟩
        · exact List.mem_range.mpr (by omega)
        · exact List.mem_range.mpr (by omega)
      · rintro ⟨-, hroom1' | hle⟩
        · exact absurd hroom1' hroom1
        · refine ⟨List.pairwise_append.mpr ⟨pairwise_half h.ascending2, pairwise_half h.ascending1,
            fun a ha b hb => ?_⟩, List.perm_append_comm⟩
          obtain ⟨i, hi, rfl⟩ := List.mem_map.mp ha
          obtain ⟨j, hj, rfl⟩ := List.mem_map.mp hb
          rw [List.mem_range] at hi hj
          exact (h.ascending2 i (size.toNat / 2 - 1) (by omega) (by omega)).trans
            (hle.trans (h.ascending1 0 j (by omega) hj))
  · -- nothing is ever taken from the second half
    obtain ⟨y, hloop, hy⟩ := vhdl_first_alone h.halves
      (fun hempty => hroom2 (hhalf ▸ hempty.2)) (size.toNat / 2 + size.toNat / 2) hstart (by omega)
    refine ⟨y, hloop, iff_of_false (fun hmerges => ?_) fun hbounded => hroom2 hbounded.1⟩
    have hzero : 0 = size.toNat / 2 := hy.eq_of_mergesHalves (by norm_num) hmerges
    omega

lemma Mergeable.des_loop (h : Mergeable w size x) :
    ∃ y, Loop Des.TakesFirst Des.TakesSecond (beginMerge w size x) y ∧
      (MergesHalves w size x y ↔ size = 0) := by
  have hhalf : (beginMerge w size x).half.toNat = size.toNat / 2 := toNat_half w size x
  have hstart : Taken (beginMerge w size x) 0 0 [] (beginMerge w size x) :=
    taken_beginMerge w size x
  have heven : size.toNat % 2 = 0 := h.even
  by_cases hsize : size = 0
  · have hempty : ¬ (beginMerge w size x).i < (beginMerge w size x).size := by
      rw [hstart.i_lt_size h.halves (Nat.zero_le _), hhalf, hsize]
      decide
    have hdone : Loop Des.TakesFirst Des.TakesSecond (beginMerge w size x) (beginMerge w size x) :=
      .done (fun hf => hempty hf.1) fun hs => hempty hs.1
    refine ⟨_, hdone, iff_of_true ?_ hsize⟩
    have hzero : size.toNat / 2 = 0 := by rw [hsize]; rfl
    rw [← hzero] at hstart
    refine (hstart.mergesHalves_iff heven).mpr ⟨.nil, ?_⟩
    rw [hzero]
    exact .nil
  · have hpos : 0 < size.toNat / 2 := by bv_omega
    obtain ⟨y, k1, k2, out, hloop, hy, hk2⟩ := des_skips_last h.halves (by rw [hhalf]; exact hpos)
      (2 * (size.toNat / 2)) hstart (by rw [hhalf]; omega) (by rw [hhalf]; exact hpos)
    rw [hhalf] at hk2
    refine ⟨y, hloop, iff_of_false (fun hmerges => ?_) hsize⟩
    have hall : k2 = size.toNat / 2 := hy.eq_of_mergesHalves (by omega) hmerges
    omega

/-- Both forms of the core end, answer once and are idle again. What they have put out is the merge
of the halves exactly where the size is zero, for the FSM language, and where the bounds do not
matter, for the VHDL. -/
theorem mergesort_core_merges_iff {inputs inputs' : ℕ → ChanInput} (hs : Serves inputs)
    (hs' : Serves inputs') (h : Mergeable w size x) (end1 end2 d d1 : Word)
    (rest sent rest' sent' : List Word) (k k' : ℕ) :
    (∃ y, (∃ n end1' end2',
        clocked Des.trans inputs k n (Des.at .idle x end1 end2 ⟨w :: size :: rest, sent⟩) =
          Des.at .idle y end1' end2' ⟨rest, sent ++ [0]⟩) ∧
        (MergesHalves w size x y ↔ size = 0)) ∧
      ∃ y, (∃ n d' d1',
        clocked Vhdl.clock inputs' k' n (Vhdl.at .idle x d d1 ⟨w :: size :: rest', sent'⟩) =
          Vhdl.at .idle y d' d1' ⟨rest', sent' ++ [0]⟩) ∧
        (MergesHalves w size x y ↔ Bounded w size x) := by
  obtain ⟨y, hloop, hy⟩ := h.des_loop
  obtain ⟨y', hloop', hy'⟩ := h.vhdl_loop
  obtain ⟨end1', end2', hdes⟩ : ∃ end1' end2', Leads Des.trans inputs
      (Des.merging (beginMerge w size x) ⟨rest, sent⟩)
      (Des.at .halt y end1' end2' ⟨rest, sent⟩) := Des.loop hloop
  obtain ⟨d', d1', hvhdl⟩ : ∃ d' d1', Leads Vhdl.clock inputs'
      (Vhdl.at .mergeLoop (beginMerge w size x) (x.array0 (endField w)) d1 ⟨rest', sent'⟩)
      (Vhdl.at .halt y' d' d1' ⟨rest', sent'⟩) := Vhdl.loop hloop' _ _
  refine ⟨⟨y, ?_, hy⟩, y', ?_, hy'⟩
  · obtain ⟨n, hn⟩ := ((Des.fetch hs h.opcode).trans (hdes.trans (Des.answer hs))) k
    exact ⟨n, end1', end2', hn⟩
  · obtain ⟨n, hn⟩ := ((Vhdl.fetch hs' h.opcode).trans (hvhdl.trans (Vhdl.answer hs'))) k'
    exact ⟨n, d', d1', hn⟩

end Results

section Runs

-- every word is its own address, so that any half is ascending
def addresses : Merging where
  swapped := false
  n := 0
  nNew := 0
  i := 0
  data1 := 0
  data2 := 0
  arg1 := 0
  arg2 := 0
  size := 0
  ptr1 := 0
  ptr2 := 0
  opcode := 0
  array0 := id
  array1 := fun _ => 0

lemma mergeable_addresses {w size : Word} (hw : w.extractLsb' 30 2 = 1) (heven : size.toNat % 2 = 0)
    (h : (startField w).toNat + size.toNat / 2 ≤ (endField w).toNat) :
    Mergeable w size addresses := by
  have hend : (endField w).toNat < 2 ^ 15 := by
    rw [toNat_endField]
    exact Nat.mod_lt _ (by norm_num)
  refine ⟨hw, heven, by omega, fun i j hij hj => ?_, fun i j hij hj => ?_⟩
  · change (startField w + BitVec.ofNat 32 i).toNat ≤ (startField w + BitVec.ofNat 32 j).toNat
    bv_omega
  · change (endField w + BitVec.ofNat 32 i).toNat ≤ (endField w + BitVec.ofNat 32 j).toNat
    bv_omega

theorem mergesort_core_merges_two_and_two :
    Serves slowly ∧ Mergeable 0x40040004 4 addresses ∧
      ∃ y, (∃ n d' d1', clocked Vhdl.clock slowly 0 n
          (Vhdl.at .idle addresses 0 0 ⟨[0x40040004, 4], []⟩) = Vhdl.at .idle y d' d1' ⟨[], [0]⟩) ∧
        MergesHalves 0x40040004 4 addresses y := by
  have h : Mergeable 0x40040004 4 addresses :=
    mergeable_addresses (by decide) (by decide) (by decide)
  obtain ⟨-, y, hrun, hy⟩ := mergesort_core_merges_iff serves_slowly serves_slowly h 0 0 0 0 [] []
    [] [] 0 0
  exact ⟨serves_slowly, h, y, hrun, hy.mpr ⟨by decide, .inl (by decide)⟩⟩

/-- Of the halves `[4]` and `[8]` the FSM language puts out 4 and 5. Of the halves `[0, 1, 2, 3]`
and `[8, 9, 10, 11]` the VHDL puts out the second one first. -/
theorem mergesort_core_of_short_and_low_halves :
    (Mergeable 0x40040004 2 addresses ∧
      let s := clocked Des.trans freely 0 8 (Des.at .idle addresses 0 0 ⟨[0x40040004, 2], []⟩)
      s.currentState = .idle ∧ s.chan1.sent = [0] ∧ s.array1 0 = 4 ∧ s.array1 1 = 5) ∧
    Mergeable 0x40040000 8 addresses ∧
      let s := clocked Vhdl.clock freely 0 24 (Vhdl.at .idle addresses 0 0 ⟨[0x40040000, 8], []⟩)
      s.core.currentState = .idle ∧ s.chan1.sent = [0] ∧ s.array1.data 0 = 8 ∧
        s.array1.data 4 = 0 := by
  refine ⟨⟨mergeable_addresses (by decide) (by decide) (by decide), ?_⟩,
    mergeable_addresses (by decide) (by decide) (by decide), ?_⟩
  · decide
  · decide

end Runs

end Hthreads.HwAcc.MergeSort
