import Mathlib.Data.List.Pairwise
import Mathlib.Tactic

/-! Ranges of indices, and lists of ranges that cut one range into disjoint pieces. -/

namespace Hthreads.Library

structure Range where
  start : ℕ
  size : ℕ
  deriving DecidableEq, Repr

namespace Range

variable {α : Type} {r s : Range} {l : List Range} {i : ℕ}

def Contains (r : Range) (i : ℕ) : Prop := r.start ≤ i ∧ i < r.start + r.size

instance (r : Range) (i : ℕ) : Decidable (r.Contains i) := inferInstanceAs (Decidable (_ ∧ _))

def Disjoint (r s : Range) : Prop := ∀ i, r.Contains i → ¬ s.Contains i

def Within (r s : Range) : Prop := s.start ≤ r.start ∧ r.start + r.size ≤ s.start + s.size

instance (r s : Range) : Decidable (r.Within s) := inferInstanceAs (Decidable (_ ∧ _))

lemma Within.contains (h : r.Within s) (hi : r.Contains i) : s.Contains i :=
  ⟨le_trans h.1 hi.1, lt_of_lt_of_le hi.2 h.2⟩

lemma disjoint_of_le (h : r.start + r.size ≤ s.start) : r.Disjoint s := fun _ hr hs =>
  absurd (lt_of_lt_of_le hr.2 (le_trans h hs.1)) (lt_irrefl _)

/-- The pieces lie in `whole`, no two of them share an index, and together they cover it. -/
structure Tiles (l : List Range) (whole : Range) : Prop where
  within : ∀ r ∈ l, r.Within whole
  disjoint : l.Pairwise Disjoint
  covers : ∀ i, whole.Contains i → ∃ r ∈ l, r.Contains i

lemma Tiles.contains_iff (h : Tiles l r) : (∃ s ∈ l, s.Contains i) ↔ r.Contains i :=
  ⟨fun ⟨s, hs, hi⟩ => (h.within s hs).contains hi, h.covers i⟩

lemma Tiles.nil (a : ℕ) : Tiles [] ⟨a, 0⟩ where
  within _ h := absurd h List.not_mem_nil
  disjoint := .nil
  covers _ h := absurd h.2 (not_lt.mpr h.1)

lemma Tiles.concat {a n : ℕ} (h : Tiles l ⟨a, n⟩) (m : ℕ) :
    Tiles (l ++ [⟨a + n, m⟩]) ⟨a, n + m⟩ where
  within r hr := by
    rcases List.mem_append.mp hr with hr | hr
    · obtain ⟨hlo, hhi⟩ := h.within r hr
      exact ⟨hlo, by simp only at hhi ⊢; omega⟩
    · rw [List.mem_singleton.mp hr]
      exact ⟨Nat.le_add_right a n, by simp only; omega⟩
  disjoint := by
    refine List.pairwise_append.mpr ⟨h.disjoint, List.pairwise_singleton _ _, fun r hr s hs => ?_⟩
    rw [List.mem_singleton.mp hs]
    exact disjoint_of_le (h.within r hr).2
  covers i hi := by
    by_cases hin : i < a + n
    · obtain ⟨r, hr, hri⟩ := h.covers i ⟨hi.1, hin⟩
      exact ⟨r, List.mem_append_left _ hr, hri⟩
    · refine ⟨⟨a + n, m⟩, List.mem_append_right _ (List.mem_singleton_self _), not_lt.mp hin, ?_⟩
      have hhi := hi.2
      simp only at hhi ⊢
      omega

lemma Tiles.equal (q k : ℕ) : Tiles ((List.range k).map fun i => ⟨q * i, q⟩) ⟨0, q * k⟩ := by
  induction k with
  | zero => exact .nil 0
  | succ k ih =>
    have hnext := ih.concat q
    rw [Nat.zero_add] at hnext
    rw [List.range_succ, List.map_append, List.map_singleton, Nat.mul_succ]
    exact hnext

def map (r : Range) (f : α → α) (mem : ℕ → α) : ℕ → α :=
  fun i => if r.Contains i then f (mem i) else mem i

lemma foldl_map (f : α → α) (mem : ℕ → α) (hd : l.Pairwise Disjoint) (i : ℕ) :
    l.foldl (fun m r => r.map f m) mem i =
      if ∃ r ∈ l, r.Contains i then f (mem i) else mem i := by
  induction l generalizing mem with
  | nil => simp
  | cons r l ih =>
    obtain ⟨hr, hl⟩ := List.pairwise_cons.mp hd
    rw [List.foldl_cons, ih (r.map f mem) hl]
    by_cases hi : r.Contains i
    · have hrest : ¬ ∃ s ∈ l, s.Contains i := fun ⟨s, hs, hsi⟩ => hr s hs i hi hsi
      rw [if_neg hrest, if_pos ⟨r, List.mem_cons_self, hi⟩, map, if_pos hi]
    · have hrest : (∃ s ∈ r :: l, s.Contains i) ↔ ∃ s ∈ l, s.Contains i := by
        simp [hi]
      simp only [hrest, map, if_neg hi]

lemma Tiles.foldl_map (h : Tiles l r) (f : α → α) (mem : ℕ → α) :
    l.foldl (fun m s => s.map f m) mem = r.map f mem := by
  funext i
  rw [Range.foldl_map f mem h.disjoint i, map]
  simp only [h.contains_iff]

end Range

end Hthreads.Library
