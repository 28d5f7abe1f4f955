import Hthreads.Library.Fifo
import Mathlib.Algebra.BigOperators.Group.Finset.Basic

/-! What is in front of one element in a family of queues, of which some are served first. -/

namespace Hthreads.Library.Fifo

variable {ι α : Type*} [DecidableEq ι] [DecidableEq α] {better : Finset ι} {q : ι → List α}
  {p r : ι} {t u : α} {l : List α}

/-- The elements that are served before `t`: those in the better queues, and those in front of it in
its own. -/
def ahead (better : Finset ι) (q : ι → List α) (p : ι) (t : α) : ℕ :=
  (∑ r ∈ better, (q r).length) + (q p).idxOf t

lemma ahead_update {l : List α} (hr : r ∈ better) (hp : p ∉ better) :
    ahead better (Function.update q r l) p t + (q r).length = ahead better q p t + l.length := by
  have hne : p ≠ r := fun hpr => hp (hpr ▸ hr)
  have hothers : ∑ x ∈ better.erase r, (Function.update q r l x).length =
      ∑ x ∈ better.erase r, (q x).length :=
    Finset.sum_congr rfl fun x hx => by rw [Function.update_of_ne (Finset.ne_of_mem_erase hx)]
  have hbefore := Finset.add_sum_erase better (fun x => (q x).length) hr
  have hafter := Finset.add_sum_erase better (fun x => (Function.update q r l x).length) hr
  simp only [Function.update_self] at hafter
  rw [ahead, ahead, Function.update_of_ne hne]
  omega

lemma ahead_push_better (hr : r ∈ better) (hp : p ∉ better) :
    ahead better (push q r u) p t = ahead better q p t + 1 := by
  have hupdate := ahead_update (q := q) (t := t) (l := q r ++ [u]) hr hp
  rw [List.length_append, List.length_singleton] at hupdate
  rw [push]
  omega

lemma ahead_pop_better (hr : r ∈ better) (hp : p ∉ better) (hl : q r = u :: l) :
    ahead better (pop q r) p t + 1 = ahead better q p t := by
  have hupdate := ahead_update (q := q) (t := t) (l := (q r).tail) hr hp
  rw [hl, List.tail_cons, List.length_cons] at hupdate
  rw [pop, hl, List.tail_cons]
  omega

omit [DecidableEq ι] [DecidableEq α] in
lemma sum_of_not_mem {q' : ι → List α} (hq : ∀ x ≠ r, q' x = q x) (hr : r ∉ better) :
    ∑ x ∈ better, (q' x).length = ∑ x ∈ better, (q x).length :=
  Finset.sum_congr rfl fun x hx => by rw [hq x fun hxr => hr (hxr ▸ hx)]

lemma ahead_push_other (hr : r ∉ better) (ht : t ∈ q p) :
    ahead better (push q r u) p t = ahead better q p t := by
  have hsum : ∑ x ∈ better, (push q r u x).length = ∑ x ∈ better, (q x).length :=
    sum_of_not_mem (fun x hx => push_of_ne q r u hx) hr
  rw [ahead, ahead, hsum]
  by_cases hpr : p = r
  · subst hpr
    rw [push_self, List.idxOf_append_of_mem ht]
  · rw [push_of_ne q r u hpr]

lemma ahead_pop_self (hp : p ∉ better) (hl : q p = u :: l) (hu : u ≠ t) :
    ahead better (pop q p) p t + 1 = ahead better q p t := by
  have hsum : ∑ x ∈ better, (pop q p x).length = ∑ x ∈ better, (q x).length :=
    sum_of_not_mem (fun x hx => pop_of_ne q p hx) hp
  rw [ahead, ahead, hsum, pop_self, hl, List.tail_cons, List.idxOf_cons_ne l hu]
  rfl

end Hthreads.Library.Fifo
