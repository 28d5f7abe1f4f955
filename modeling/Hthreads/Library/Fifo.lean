import Mathlib.Data.List.Basic
import Mathlib.Logic.Function.Basic
import Mathlib.Tactic

/-! Families of first-in first-out queues. -/

namespace Hthreads.Library.Fifo

variable {ι α : Type*} [DecidableEq ι] (q : ι → List α) (i j : ι) (a b : α)

def push : ι → List α := Function.update q i (q i ++ [a])

def pop : ι → List α := Function.update q i (q i).tail

def remove [DecidableEq α] : ι → List α := Function.update q i ((q i).erase a)

def move [DecidableEq α] : ι → List α := push (remove q i a) j a

def IsBest [LT ι] : Prop := q i ≠ [] ∧ ∀ k < i, q k = []

lemma mem_push : b ∈ push q i a j ↔ b ∈ q j ∨ j = i ∧ b = a := by
  by_cases h : j = i
  · subst h
    simp [push]
  · simp [push, h]

lemma push_ne_nil : push q i a j ≠ [] ↔ q j ≠ [] ∨ j = i := by
  by_cases h : j = i
  · subst h
    simp [push]
  · simp [push, h]

lemma push_self : push q i a i = q i ++ [a] := Function.update_self i _ q

lemma push_of_ne {j : ι} (h : j ≠ i) : push q i a j = q j := Function.update_of_ne h _ q

lemma pop_self : pop q i i = (q i).tail := Function.update_self i _ q

lemma pop_of_ne {j : ι} (h : j ≠ i) : pop q i j = q j := Function.update_of_ne h _ q

lemma remove_self [DecidableEq α] : remove q i a i = (q i).erase a := Function.update_self i _ q

lemma remove_of_ne [DecidableEq α] {j : ι} (h : j ≠ i) : remove q i a j = q j :=
  Function.update_of_ne h _ q

section Move

variable {q : ι → List α} {i j : ι} {a b : α} [DecidableEq α]

lemma move_alone (hnodup : (q i).Nodup) (hall : ∀ c ∈ q j, c = a) (hin : a ∈ q j → j = i) :
    move q i j a j = [a] := by
  have hrest : remove q i a j = [] := by
    rw [List.eq_nil_iff_forall_not_mem]
    intro c hc
    by_cases hji : j = i
    · subst hji
      rw [remove_self] at hc
      obtain rfl := hall c (List.mem_of_mem_erase hc)
      exact hnodup.not_mem_erase hc
    · rw [remove_of_ne q i a hji] at hc
      exact hji (hin (hall c hc ▸ hc))
  rw [move, push_self, hrest, List.nil_append]

lemma move_leading {k : ι} {l : List α} (hk : q k = b :: l) (hb : b ≠ a) :
    ∃ m, move q i j a k = b :: m := by
  have hrest : ∃ m, remove q i a k = b :: m := by
    by_cases hki : k = i
    · subst hki
      rw [remove_self, hk, List.erase_cons_tail (by simpa using hb)]
      exact ⟨_, rfl⟩
    · rw [remove_of_ne q i a hki, hk]
      exact ⟨_, rfl⟩
  obtain ⟨m, hm⟩ := hrest
  by_cases hkj : k = j
  · subst hkj
    rw [move, push_self, hm, List.cons_append]
    exact ⟨_, rfl⟩
  · rw [move, push_of_ne _ _ _ hkj, hm]
    exact ⟨_, rfl⟩

end Move

end Hthreads.Library.Fifo
