import Mathlib.Data.List.Basic
import Mathlib.Data.List.Nodup
import Mathlib.Logic.Relation

/-! Loops over a list that can fail, and searches that keep a list of the members they are done with
and a list of those still to do. -/

namespace Hthreads.Library

open Relation

variable {α β : Type} {l : List α} {b : β}

/-- An invariant of what has been dealt with, which also keeps the loop from failing. -/
lemma foldlM_invariant {f : β → α → Option β} {P : List α → β → Prop} (h : P [] b)
    (hstep : ∀ done a b, a ∈ l → P done b → ∃ b', f b a = some b' ∧ P (done ++ [a]) b') :
    ∃ b', l.foldlM f b = some b' ∧ P l b' := by
  suffices hrest : ∀ todo done b, (∀ a ∈ todo, a ∈ l) → P done b →
      ∃ b', todo.foldlM f b = some b' ∧ P (done ++ todo) b' from
    hrest l [] b (fun a ha => ha) h
  intro todo
  induction todo with
  | nil => exact fun done b _ hP => ⟨b, rfl, by rwa [List.append_nil]⟩
  | cons a todo ih =>
    intro done b hmem hP
    obtain ⟨b₁, hb₁, hP₁⟩ := hstep done a b (hmem a List.mem_cons_self) hP
    obtain ⟨b₂, hb₂, hP₂⟩ :=
      ih (done ++ [a]) b₁ (fun c hc => hmem c (List.mem_cons_of_mem a hc)) hP₁
    refine ⟨b₂, ?_, by rwa [List.append_assoc] at hP₂⟩
    rw [List.foldlM_cons, hb₁]
    exact hb₂

lemma foldlM_range_invariant {f : β → ℕ → Option β} {P : ℕ → β → Prop} {n : ℕ} (h : P 0 b)
    (hstep : ∀ k < n, ∀ b, P k b → ∃ b', f b k = some b' ∧ P (k + 1) b') :
    ∃ b', (List.range n).foldlM f b = some b' ∧ P n b' := by
  induction n with
  | zero => exact ⟨b, rfl, h⟩
  | succ n ih =>
    obtain ⟨b₁, hb₁, hP₁⟩ := ih fun k hk => hstep k (Nat.lt_succ_of_lt hk)
    obtain ⟨b₂, hb₂, hP₂⟩ := hstep n (Nat.lt_succ_self n) b₁ hP₁
    refine ⟨b₂, ?_, hP₂⟩
    rw [List.range_succ, List.foldlM_append, hb₁]
    change (f b₁ n).bind pure = some b₂
    rw [hb₂]
    rfl

lemma mapM_eq_map {f : α → Option β} {g : α → β} (h : ∀ a ∈ l, f a = some (g a)) :
    l.mapM f = some (l.map g) := by
  induction l with
  | nil => rfl
  | cons a l ih =>
    rw [List.mapM_cons, h a List.mem_cons_self, ih fun b hb => h b (List.mem_cons_of_mem a hb)]
    rfl

/-- The state of a search for everything that can be reached from `root`. -/
structure Search {α : Type} (edge : α → α → Prop) (root : α) (done todo : List α) : Prop where
  nodup : done.Nodup
  reached : ∀ a, a ∈ done ∨ a ∈ todo → ReflTransGen edge root a
  closed : ∀ a ∈ done, ∀ b, edge a b → b ∈ done ∨ b ∈ todo
  root_mem : root ∈ done ∨ root ∈ todo

namespace Search

variable {α : Type} {edge : α → α → Prop} {root a : α} {done todo new : List α}

lemma start (edge : α → α → Prop) (root : α) : Search edge root [] [root] := by
  refine ⟨List.nodup_nil, fun a ha => ?_, fun a ha => (nomatch ha), .inr List.mem_cons_self⟩
  rcases ha with ha | ha
  · cases ha
  · rw [List.mem_singleton.mp ha]

lemma skip (h : Search edge root done (a :: todo)) (ha : a ∈ done) :
    Search edge root done todo := by
  have hdone {b : α} (hb : b ∈ done ∨ b ∈ a :: todo) : b ∈ done ∨ b ∈ todo := by
    rcases hb with hb | hb
    · exact .inl hb
    · rcases List.mem_cons.mp hb with rfl | hb
      · exact .inl ha
      · exact .inr hb
  exact ⟨h.nodup, fun b hb => h.reached b (hb.imp_right (List.mem_cons_of_mem a)),
    fun b hb c hbc => hdone (h.closed b hb c hbc), hdone h.root_mem⟩

/-- The next member is done with once all that it leads to is in one of the lists. -/
lemma take (h : Search edge root done (a :: todo)) (ha : a ∉ done) (hnew : ∀ b ∈ new, edge a b)
    (hall : ∀ b, edge a b → b = a ∨ b ∈ new) : Search edge root (done ++ [a]) (new ++ todo) := by
  have hkeep {b : α} (hb : b ∈ done ∨ b ∈ a :: todo) : b ∈ done ++ [a] ∨ b ∈ new ++ todo := by
    rcases hb with hb | hb
    · exact .inl (List.mem_append_left _ hb)
    · rcases List.mem_cons.mp hb with rfl | hb
      · exact .inl (List.mem_append_right _ List.mem_cons_self)
      · exact .inr (List.mem_append_right _ hb)
  have hreached := h.reached a (.inr List.mem_cons_self)
  refine ⟨List.nodup_append.mpr ⟨h.nodup, List.nodup_singleton a, fun b hb c hc => ?_⟩,
    fun b hb => ?_, fun b hb c hbc => ?_, hkeep h.root_mem⟩
  · rintro rfl
    exact ha (List.mem_singleton.mp hc ▸ hb)
  · rcases hb with hb | hb
    · rcases List.mem_append.mp hb with hb | hb
      · exact h.reached b (.inl hb)
      · rwa [List.mem_singleton.mp hb]
    · rcases List.mem_append.mp hb with hb | hb
      · exact hreached.tail (hnew b hb)
      · exact h.reached b (.inr (List.mem_cons_of_mem a hb))
  · rcases List.mem_append.mp hb with hb | hb
    · exact hkeep (h.closed b hb c hbc)
    · rw [List.mem_singleton.mp hb] at hbc
      rcases hall c hbc with rfl | hc
      · exact .inl (List.mem_append_right _ List.mem_cons_self)
      · exact .inr (List.mem_append_left _ hc)

lemma mem_iff (h : Search edge root done []) (a : α) : a ∈ done ↔ ReflTransGen edge root a := by
  refine ⟨fun ha => h.reached a (.inl ha), fun ha => ?_⟩
  induction ha with
  | refl => exact h.root_mem.resolve_right List.not_mem_nil
  | tail _ hbc ih => exact (h.closed _ ih _ hbc).resolve_right List.not_mem_nil

end Search

end Hthreads.Library
