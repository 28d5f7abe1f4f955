import Hthreads.Library.Rearrangements
import Hthreads.Software.SchedParam

/-! The bubble sort of the SORT accelerator (`poly_bubblesort` in `sort.c`), on an array of which
only the elements may be accessed. -/

namespace Hthreads.Accelerators

open Library Software

abbrev Element (size : Huint) (i : ℕ) : Prop := i < size.toNat

def compareSwap (size d : Huint) (startPtr : ℕ → Hint) : Except Stop (ℕ → Hint) := do
  let left ← load (Element size) startPtr d.toNat
  let right ← load (Element size) startPtr (d + 1).toNat
  if left.toInt > right.toInt then
    let swap ← load (Element size) startPtr d.toNat
    let next ← load (Element size) startPtr (d + 1).toNat
    let startPtr ← store (Element size) startPtr d.toNat next
    store (Element size) startPtr (d + 1).toNat swap
  else pure startPtr

/-- `for (; d < size - c - 1; d++)`. -/
def bubblePass (size c d : Huint) (startPtr : ℕ → Hint) : Except Stop (ℕ → Hint) :=
  if d < size - c - 1 then do
    let startPtr ← compareSwap size d startPtr
    bubblePass size c (d + 1) startPtr
  else pure startPtr
termination_by (size - c - 1).toNat - d.toNat
decreasing_by bv_omega

/-- `for (; c < size - 1; c++)`. -/
def bubblePasses (size c : Huint) (startPtr : ℕ → Hint) : Except Stop (ℕ → Hint) :=
  if c < size - 1 then do
    let startPtr ← bubblePass size c 0 startPtr
    bubblePasses size (c + 1) startPtr
  else pure startPtr
termination_by (size - 1).toNat - c.toNat
decreasing_by bv_omega

def polyBubblesort (listPtr : ℕ → Hint) (size : Huint) : Except Stop (Hint × (ℕ → Hint)) := do
  let startPtr ← bubblePasses size 0 listPtr
  pure (success, startPtr)

section Invariant

variable {size c d : Huint} {mem mem' : ℕ → Hint}

/-- The elements from `n` on are in order, and no element before them is larger. -/
def Settled (n : ℕ) (size : Huint) (mem : ℕ → Hint) : Prop :=
  ∀ i j, i ≤ j → n ≤ j → j < size.toNat → (mem i).toInt ≤ (mem j).toInt

/-- In the middle of a pass the element at `d` is the largest one up to there. -/
structure Bubbling (size c d : Huint) (mem : ℕ → Hint) : Prop where
  settled : Settled (size.toNat - c.toNat) size mem
  largest : ∀ i ≤ d.toNat, (mem i).toInt ≤ (mem d.toNat).toInt

lemma Bubbling.next (h : Bubbling size c d mem) (hd : d.toNat + 1 < size.toNat - c.toNat)
    (hle : (mem d.toNat).toInt ≤ (mem (d.toNat + 1)).toInt) : Bubbling size c (d + 1) mem := by
  have hnext : (d + 1).toNat = d.toNat + 1 := by bv_omega
  refine ⟨h.settled, fun i hi => ?_⟩
  rw [hnext] at hi ⊢
  rcases Nat.lt_or_eq_of_le hi with hlt | rfl
  · exact le_trans (h.largest i (by omega)) hle
  · exact le_refl _

lemma Bubbling.exchange (h : Bubbling size c d mem) (hd : d.toNat + 1 < size.toNat - c.toNat)
    (hgt : (mem d.toNat).toInt > (mem (d.toNat + 1)).toInt) :
    Bubbling size c (d + 1) (exchange mem d.toNat (d.toNat + 1)) := by
  have hnext : (d + 1).toNat = d.toNat + 1 := by bv_omega
  refine ⟨fun i j hij hj hsize => ?_, fun i hi => ?_⟩
  · -- both exchanged elements lie before the settled ones
    have hsame : Library.exchange mem d.toNat (d.toNat + 1) j = mem j :=
      exchange_of_ne (by omega) (by omega)
    rw [hsame]
    by_cases hleft : i = d.toNat
    · rw [hleft, exchange_left]
      exact h.settled _ _ (by omega) hj hsize
    · by_cases hright : i = d.toNat + 1
      · rw [hright, exchange_right]
        exact h.settled _ _ (by omega) hj hsize
      · rw [exchange_of_ne hleft hright]
        exact h.settled _ _ hij hj hsize
  · rw [hnext] at hi ⊢
    rw [exchange_right]
    by_cases hleft : i = d.toNat
    · rw [hleft, exchange_left]
      exact le_of_lt hgt
    · by_cases hright : i = d.toNat + 1
      · rw [hright, exchange_right]
      · rw [exchange_of_ne hleft hright]
        exact h.largest i (by omega)

lemma compareSwap_spec (h : Bubbling size c d mem) (hd : d.toNat + 1 < size.toNat - c.toNat) :
    ∃ mem', compareSwap size d mem = .ok mem' ∧ Rearranges {i | i < size.toNat} mem mem' ∧
      Bubbling size c (d + 1) mem' := by
  have hnext : (d + 1).toNat = d.toNat + 1 := by bv_omega
  have hfirst : Element size d.toNat := by
    show d.toNat < size.toNat
    omega
  have hsecond : Element size (d.toNat + 1) := by
    show d.toNat + 1 < size.toNat
    omega
  by_cases hgt : (mem d.toNat).toInt > (mem (d.toNat + 1)).toInt
  · refine ⟨Library.exchange mem d.toNat (d.toNat + 1), ?_, .exchange hfirst hsecond,
      h.exchange hd hgt⟩
    simp only [compareSwap, hnext, load_of_valid hfirst, load_of_valid hsecond,
      store_of_valid hfirst, store_of_valid hsecond, bind, Except.bind, if_pos hgt]
    rfl
  · refine ⟨mem, ?_, .refl _ _, h.next hd (not_lt.mp hgt)⟩
    simp only [compareSwap, hnext, load_of_valid hfirst, load_of_valid hsecond, bind, Except.bind,
      if_neg hgt, pure, Except.pure]

lemma bubblePass_spec (hc : c < size - 1) (h : Bubbling size c d mem)
    (hd : d.toNat + 1 ≤ size.toNat - c.toNat) :
    ∃ mem', bubblePass size c d mem = .ok mem' ∧ Rearranges {i | i < size.toNat} mem mem' ∧
      Settled (size.toNat - (c + 1).toNat) size mem' := by
  fun_induction bubblePass size c d mem with
  | case1 d mem hlt ih =>
    obtain ⟨mid, hstep, hperm, hmid⟩ := compareSwap_spec h (by bv_omega)
    obtain ⟨mem', hrest, hperm', hsettled⟩ := ih mid hmid (by bv_omega)
    refine ⟨mem', ?_, hperm.trans hperm', hsettled⟩
    rw [hstep]
    exact hrest
  | case2 d mem hge =>
    refine ⟨mem, rfl, .refl _ _, fun i j hij hj hin => ?_⟩
    have hlast : d.toNat = size.toNat - (c + 1).toNat := by bv_omega
    by_cases hnew : j = d.toNat
    · rw [hnew] at hij ⊢
      exact h.largest i hij
    · exact h.settled i j hij (by bv_omega) hin

lemma bubblePasses_spec (h : Settled (size.toNat - c.toNat) size mem)
    (hc : c.toNat + 1 ≤ size.toNat) :
    ∃ mem', bubblePasses size c mem = .ok mem' ∧ Rearranges {i | i < size.toNat} mem mem' ∧
      Settled 1 size mem' := by
  fun_induction bubblePasses size c mem with
  | case1 c mem hlt ih =>
    have hstart : Bubbling size c 0 mem := ⟨h, fun i hi => by
      obtain rfl : i = 0 := Nat.le_zero.mp hi
      exact le_refl _⟩
    obtain ⟨mid, hpass, hperm, hmid⟩ := bubblePass_spec hlt hstart (by bv_omega)
    obtain ⟨mem', hrest, hperm', hsettled⟩ := ih mid hmid (by bv_omega)
    refine ⟨mem', ?_, hperm.trans hperm', hsettled⟩
    rw [hpass]
    exact hrest
  | case2 c mem hge =>
    have hlast : size.toNat - c.toNat = 1 := by bv_omega
    exact ⟨mem, rfl, .refl _ _, hlast ▸ h⟩

end Invariant

/-- The run ends without an access outside of the array, which then holds its values in ascending
order; nothing else has changed. -/
def Sorts (listPtr : ℕ → Hint) (size : Huint) : Prop :=
  ∃ mem, polyBubblesort listPtr size = .ok (success, mem) ∧
    (∀ i j, i ≤ j → j < size.toNat → (mem i).toInt ≤ (mem j).toInt) ∧
    ((List.range size.toNat).map mem).Perm ((List.range size.toNat).map listPtr) ∧
    ∀ i, size.toNat ≤ i → mem i = listPtr i

lemma sorts_of_ne_zero {size : Huint} (hsize : size ≠ 0) (listPtr : ℕ → Hint) :
    Sorts listPtr size := by
  have hstart : Settled (size.toNat - (0 : Huint).toNat) size listPtr := by
    intro i j _ hj hin
    exact absurd hin (by simpa using hj)
  obtain ⟨mem, hrun, hperm, hsettled⟩ := bubblePasses_spec hstart (by bv_omega)
  refine ⟨mem, ?_, fun i j hij hj => ?_, hperm.perm List.nodup_range (by simp), fun i hi => ?_⟩
  · rw [polyBubblesort, hrun]
    rfl
  · rcases Nat.eq_zero_or_pos j with rfl | hpos
    · rw [Nat.le_zero.mp hij]
    · exact hsettled i j hij hpos hj
  · exact hperm.outside (not_lt.mpr hi)

lemma polyBubblesort_zero (listPtr : ℕ → Hint) :
    polyBubblesort listPtr 0 = .error .outOfBounds := by
  have houter : (0 : Huint) < 0 - 1 := by decide
  have hinner : (0 : Huint) < 0 - 0 - 1 := by decide
  have hfirst : load (Element 0) listPtr (0 : Huint).toNat = .error .outOfBounds :=
    load_of_not_valid (Nat.lt_irrefl 0)
  rw [polyBubblesort, bubblePasses, if_pos houter, bubblePass, if_pos hinner, compareSwap, hfirst]
  rfl

theorem polyBubblesort_sorts_iff (listPtr : ℕ → Hint) (size : Huint) :
    Sorts listPtr size ↔ size ≠ 0 := by
  refine ⟨?_, fun hsize => sorts_of_ne_zero hsize listPtr⟩
  rintro ⟨mem, hrun, -⟩ rfl
  rw [polyBubblesort_zero] at hrun
  cases hrun

theorem polyBubblesort_leaves_an_empty_array :
    polyBubblesort (fun _ => 7) 0 = .error .outOfBounds ∧ ¬ Sorts (fun _ => 7) 0 := by
  refine ⟨polyBubblesort_zero _, ?_⟩
  rintro ⟨mem, hrun, -⟩
  rw [polyBubblesort_zero] at hrun
  cases hrun

end Hthreads.Accelerators
