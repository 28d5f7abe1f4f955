import Mathlib.Data.List.Nodup
import Mathlib.Data.Fintype.Card
import Mathlib.Tactic

/-! Linked lists threaded through a next pointer, from a first node up to a last one. -/

namespace Hthreads.Library

variable {α : Type*} {next next' : α → α} {last a b x : α} {l l' : List α}

inductive Path (next : α → α) (last : α) : α → List α → Prop
  | last : Path next last last [last]
  | cons {a : α} {l : List α} : a ≠ last → Path next last (next a) l → Path next last a (a :: l)

namespace Path

lemma exists_cons (h : Path next last a l) : ∃ m, l = a :: m := by
  cases h with
  | last => exact ⟨[], rfl⟩
  | cons _ _ => exact ⟨_, rfl⟩

lemma head_mem (h : Path next last a l) : a ∈ l := by
  obtain ⟨m, rfl⟩ := h.exists_cons
  exact List.mem_cons_self

lemma exists_concat (h : Path next last a l) : ∃ m, l = m ++ [last] := by
  induction h with
  | last => exact ⟨[], rfl⟩
  | cons _ _ ih =>
    obtain ⟨m, rfl⟩ := ih
    exact ⟨_ :: m, rfl⟩

lemma last_mem (h : Path next last a l) : last ∈ l := by
  obtain ⟨m, rfl⟩ := h.exists_concat
  exact List.mem_concat_self

lemma functional (h : Path next last a l) (h' : Path next last a l') : l = l' := by
  induction h generalizing l' with
  | last =>
    cases h' with
    | last => rfl
    | cons hne _ => exact absurd rfl hne
  | cons hne _ ih =>
    cases h' with
    | last => exact absurd rfl hne
    | cons _ h' => rw [ih h']

lemma suffix_of_mem (h : Path next last a l) (hb : b ∈ l) : ∃ m, m <:+ l ∧ Path next last b m := by
  induction h with
  | last =>
    rw [List.mem_singleton.mp hb]
    exact ⟨[last], List.suffix_rfl, .last⟩
  | @cons a l hne hp ih =>
    rcases List.mem_cons.mp hb with rfl | hb
    · exact ⟨_, List.suffix_rfl, .cons hne hp⟩
    · obtain ⟨m, hm, hpm⟩ := ih hb
      exact ⟨m, hm.trans (List.suffix_cons a l), hpm⟩

-- a node met twice would start two different paths
lemma nodup (h : Path next last a l) : l.Nodup := by
  induction h with
  | last => exact List.nodup_singleton last
  | @cons a l hne hp ih =>
    refine List.nodup_cons.mpr ⟨fun ha => ?_, ih⟩
    obtain ⟨m, hm, hpm⟩ := hp.suffix_of_mem ha
    have heq := hpm.functional (.cons hne hp)
    have hlen := hm.length_le
    rw [heq, List.length_cons] at hlen
    omega

lemma congr (h : Path next last a l) (hn : ∀ b ∈ l, b ≠ last → next' b = next b) :
    Path next' last a l := by
  induction h with
  | last => exact .last
  | @cons a l hne hp ih =>
    refine .cons hne ?_
    rw [hn a List.mem_cons_self hne]
    exact ih fun b hb => hn b (List.mem_cons_of_mem a hb)

lemma concat (h : Path next last a l) (hx : x ∉ l) (hlast : next' last = x)
    (hn : ∀ b ∈ l, b ≠ last → next' b = next b) : Path next' x a (l ++ [x]) := by
  induction h with
  | last =>
    refine .cons (fun heq => hx (List.mem_singleton.mpr heq.symm)) ?_
    rw [hlast]
    exact .last
  | @cons a l hne hp ih =>
    refine .cons (fun heq => hx (heq ▸ List.mem_cons_self)) ?_
    rw [hn a List.mem_cons_self hne]
    exact ih (fun hm => hx (List.mem_cons_of_mem a hm))
      fun b hb => hn b (List.mem_cons_of_mem a hb)

lemma of_cons (h : Path next last a (b :: l)) (hl : l ≠ []) :
    a = b ∧ b ≠ last ∧ Path next last (next b) l := by
  cases h with
  | last => exact absurd rfl hl
  | cons hne hp => exact ⟨rfl, hne, hp⟩

lemma of_cons_cons (h : Path next last a (b :: x :: l)) :
    a = b ∧ b ≠ last ∧ next b = x ∧ Path next last x (x :: l) := by
  obtain ⟨hab, hne, hp⟩ := h.of_cons (List.cons_ne_nil x l)
  obtain ⟨m, hm⟩ := hp.exists_cons
  have hx : next b = x := (List.cons.inj hm).1.symm
  exact ⟨hab, hne, hx, hx ▸ hp⟩

lemma of_append (h : Path next last a (l ++ b :: l')) : Path next last b (b :: l') := by
  induction l generalizing a with
  | nil =>
    obtain ⟨m, hm⟩ := h.exists_cons
    rw [(List.cons.inj hm).1]
    exact (List.cons.inj hm).1 ▸ h
  | cons c l ih =>
    obtain ⟨-, -, hp⟩ := h.of_cons (by simp)
    exact ih hp

lemma upTo (h : Path next last a (l ++ b :: l')) : Path next b a (l ++ [b]) := by
  have hnodup := h.nodup
  induction l generalizing a with
  | nil =>
    obtain ⟨m, hm⟩ := h.exists_cons
    rw [(List.cons.inj hm).1]
    exact .last
  | cons c l ih =>
    obtain ⟨hc, hl⟩ := List.nodup_cons.mp hnodup
    obtain ⟨rfl, -, hp⟩ := h.of_cons (by simp)
    exact .cons (fun heq => hc (by simp [heq])) (ih hp hl)

lemma cut {m r : List α} (h : Path next last a (l ++ x :: (m ++ b :: r))) (hx : next' x = b)
    (hn : ∀ c, c ≠ x → next' c = next c) : Path next' last a (l ++ x :: b :: r) := by
  have hnodup := h.nodup
  induction l generalizing a with
  | nil =>
    obtain ⟨rfl, hne, hp⟩ := h.of_cons (by simp)
    refine .cons hne ?_
    rw [hx]
    refine hp.of_append.congr fun c hc _ => hn c ?_
    rintro rfl
    exact (List.nodup_cons.mp hnodup).1 (List.mem_append_right m hc)
  | cons c l ih =>
    obtain ⟨hc, hl⟩ := List.nodup_cons.mp hnodup
    obtain ⟨rfl, hne, hp⟩ := h.of_cons (by simp)
    refine .cons hne ?_
    rw [hn a (fun heq => hc (by simp [heq]))]
    exact ih hp hl

lemma next_ne_self (h : Path next last a l) (hb : b ∈ l) (hne : b ≠ last) : next b ≠ b := by
  obtain ⟨m, -, hm⟩ := h.suffix_of_mem hb
  obtain ⟨r, rfl⟩ := hm.exists_cons
  cases hm with
  | last => exact absurd rfl hne
  | cons _ hp =>
    intro heq
    exact (List.nodup_cons.mp (Path.cons hne hp).nodup).1 (heq ▸ hp.head_mem)

end Path

def walk [DecidableEq α] (next : α → α) (last : α) : ℕ → α → List α
  | 0, a => [a]
  | n + 1, a => if a = last then [a] else a :: walk next last n (next a)

lemma Path.walk_eq [DecidableEq α] (h : Path next last a l) {n : ℕ} (hn : l.length ≤ n + 1) :
    walk next last n a = l := by
  induction h generalizing n with
  | last => cases n <;> simp [walk]
  | @cons a l hne hp ih =>
    obtain ⟨m, rfl⟩ := hp.exists_cons
    rw [List.length_cons, List.length_cons] at hn
    obtain ⟨n, rfl⟩ : ∃ k, n = k + 1 := ⟨n - 1, by omega⟩
    rw [walk, if_neg hne, ih (by simpa using hn)]

lemma Path.walk_of_injective [DecidableEq α] {n : ℕ} {f : α → Fin (n + 1)}
    (hf : Function.Injective f) (h : Path next last a l) : walk next last n a = l := by
  apply h.walk_eq
  have hlen := (h.nodup.map hf).length_le_card
  rwa [List.length_map, Fintype.card_fin] at hlen

end Hthreads.Library
