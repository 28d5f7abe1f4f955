import Mathlib.Algebra.BigOperators.Group.Finset.Basic
import Mathlib.Algebra.Order.Interval.Multiset
import Mathlib.Data.Multiset.Interval
import Mathlib.Tactic

/-! Merging sorted runs: what is left of the runs, the search for the run with the least head, and
the invariant of the output. -/

namespace Hthreads.Library

variable {α β ι : Type} [LinearOrder β]

section Search

variable (avail : ι → Prop) [DecidablePred avail] (key : ι → β)

def improve (best : β × ι) (j : ι) : β × ι := if key j < best.1 ∧ avail j then (key j, j) else best

/-- The search ends with its start, when nothing available is smaller, or with the least key of the
available places. -/
lemma foldl_improve (l : List ι) (best : β × ι) :
    (l.foldl (improve avail key) best = best ∧ ∀ j ∈ l, avail j → best.1 ≤ key j) ∨
      ∃ j ∈ l, avail j ∧ l.foldl (improve avail key) best = (key j, j) ∧ key j < best.1 ∧
        ∀ i ∈ l, avail i → key j ≤ key i := by
  induction l generalizing best with
  | nil => exact .inl ⟨rfl, by simp⟩
  | cons i l ih =>
    rw [List.foldl_cons]
    by_cases hi : key i < best.1 ∧ avail i
    · rw [improve, if_pos hi]
      rcases ih (key i, i) with ⟨hrun, hleast⟩ | ⟨j, hj, havail, hrun, hlt, hleast⟩
      · refine .inr ⟨i, List.mem_cons_self, hi.2, hrun, hi.1, fun k hk hk' => ?_⟩
        rcases List.mem_cons.mp hk with rfl | hk
        · exact le_refl _
        · exact hleast k hk hk'
      · refine .inr ⟨j, List.mem_cons_of_mem i hj, havail, hrun, hlt.trans hi.1, fun k hk hk' => ?_⟩
        rcases List.mem_cons.mp hk with rfl | hk
        · exact hlt.le
        · exact hleast k hk hk'
    · rw [improve, if_neg hi]
      have hhead : avail i → best.1 ≤ key i := fun havail => not_lt.mp fun hlt => hi ⟨hlt, havail⟩
      rcases ih best with ⟨hrun, hleast⟩ | ⟨j, hj, havail, hrun, hlt, hleast⟩
      · refine .inl ⟨hrun, fun k hk hk' => ?_⟩
        rcases List.mem_cons.mp hk with rfl | hk
        · exact hhead hk'
        · exact hleast k hk hk'
      · refine .inr ⟨j, List.mem_cons_of_mem i hj, havail, hrun, hlt, fun k hk hk' => ?_⟩
        rcases List.mem_cons.mp hk with rfl | hk
        · exact hlt.le.trans (hhead hk')
        · exact hleast k hk hk'

end Search

section Runs

def runTail (run : ℕ → α) (len p : ℕ) : Multiset α := (Multiset.Ico p len).map run

lemma runTail_of_lt {run : ℕ → α} {len p : ℕ} (h : p < len) :
    runTail run len p = run p ::ₘ runTail run len (p + 1) := by
  have hfirst : Multiset.Ico p (p + 1) = {p} := congrArg Finset.val (Nat.Ico_succ_singleton p)
  rw [runTail, ← Multiset.Ico_add_Ico_eq_Ico (Nat.le_succ p) h, hfirst, Multiset.map_add,
    Multiset.map_singleton, Multiset.singleton_add, runTail]

lemma mem_runTail {run : ℕ → α} {len p : ℕ} {a : α} :
    a ∈ runTail run len p ↔ ∃ i, p ≤ i ∧ i < len ∧ run i = a := by
  simp [runTail, and_assoc]

def remaining (run : ℕ → ℕ → α) (len : ℕ → ℕ) (k : ℕ) (p : ℕ → ℕ) : Multiset α :=
  ∑ j ∈ Finset.range k, runTail (run j) (len j) (p j)

variable {run : ℕ → ℕ → α} {len p : ℕ → ℕ} {k j : ℕ}

lemma mem_remaining {a : α} :
    a ∈ remaining run len k p ↔ ∃ j < k, ∃ i, p j ≤ i ∧ i < len j ∧ run j i = a := by
  simp [remaining, Multiset.mem_sum, mem_runTail]

lemma remaining_take (hj : j < k) (hp : p j < len j) :
    remaining run len k p =
      run j (p j) ::ₘ remaining run len k (Function.update p j (p j + 1)) := by
  have hmem : j ∈ Finset.range k := Finset.mem_range.mpr hj
  have hrest : ∀ i ∈ (Finset.range k).erase j,
    runTail (run i) (len i) (Function.update p j (p j + 1) i) =
      runTail (run i) (len i) (p i) := fun i hi => by
    rw [Function.update_of_ne (Finset.ne_of_mem_erase hi)]
  rw [remaining, remaining, ← Finset.add_sum_erase _ _ hmem, ← Finset.add_sum_erase _ _ hmem,
    Finset.sum_congr rfl hrest, Function.update_self, runTail_of_lt hp, Multiset.cons_add]

lemma runTail_shift (f : ℕ → α) (a len : ℕ) :
    runTail (fun k => f (a + k)) len 0 = (Multiset.Ico a (a + len)).map f := by
  have hshift := Multiset.map_add_left_Ico 0 len a
  rw [Nat.add_zero] at hshift
  rw [← hshift, Multiset.map_map]
  rfl

lemma remaining_equal (f : ℕ → α) (c k : ℕ) :
    remaining (fun j i => f (j * c + i)) (fun _ => c) k (fun _ => 0) =
      (Multiset.Ico 0 (k * c)).map f := by
  induction k with
  | zero => simp [remaining]
  | succ k ih =>
    have hnext : (k + 1) * c = k * c + c := Nat.succ_mul k c
    rw [remaining, Finset.sum_range_succ, ← remaining, ih, runTail_shift, ← Multiset.map_add, hnext,
      Multiset.Ico_add_Ico_eq_Ico (Nat.zero_le _) (Nat.le_add_right _ _)]

end Runs

/-- Of all the values, those in `out` have been put out in order, and none of the others is smaller.
-/
structure Merges (key : α → β) (all : Multiset α) (out : List α) (rest : Multiset α) : Prop where
  sum : (out : Multiset α) + rest = all
  sorted : out.Pairwise fun a b => key a ≤ key b
  bound : ∀ a ∈ out, ∀ b ∈ rest, key a ≤ key b

namespace Merges

variable {key : α → β} {all rest : Multiset α} {out : List α} {a : α}

lemma start (key : α → β) (all : Multiset α) : Merges key all [] all :=
  ⟨by simp, .nil, by simp⟩

lemma take (h : Merges key all out (a ::ₘ rest)) (hleast : ∀ b ∈ rest, key a ≤ key b) :
    Merges key all (out ++ [a]) rest := by
  refine ⟨?_, ?_, ?_⟩
  · rw [← h.sum]
    simp [← Multiset.coe_add, add_assoc]
  · refine List.pairwise_append.mpr ⟨h.sorted, List.pairwise_singleton _ _, fun b hb c hc => ?_⟩
    rw [List.mem_singleton.mp hc]
    exact h.bound b hb a (Multiset.mem_cons_self a rest)
  · intro b hb c hc
    rcases List.mem_append.mp hb with hb | hb
    · exact h.bound b hb c (Multiset.mem_cons_of_mem hc)
    · rw [List.mem_singleton.mp hb]
      exact hleast c hc

lemma take_run {run : ℕ → α} {len p : ℕ} {others : Multiset α}
    (h : Merges key all out (runTail run len p + others)) (hp : p < len)
    (hrun : ∀ i j, i ≤ j → j < len → key (run i) ≤ key (run j))
    (hothers : ∀ b ∈ others, key (run p) ≤ key b) :
    Merges key all (out ++ [run p]) (runTail run len (p + 1) + others) := by
  rw [runTail_of_lt hp, Multiset.cons_add] at h
  refine h.take fun b hb => ?_
  rcases Multiset.mem_add.mp hb with hb | hb
  · obtain ⟨i, hi, hlen, rfl⟩ := mem_runTail.mp hb
    exact hrun p i (by omega) hlen
  · exact hothers b hb

lemma card (h : Merges key all out rest) : out.length + Multiset.card rest = Multiset.card all := by
  rw [← h.sum, Multiset.card_add, Multiset.coe_card]

end Merges

end Hthreads.Library
