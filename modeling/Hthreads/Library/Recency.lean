import Mathlib.Data.List.Nodup
import Mathlib.Data.Finset.Card

/-! The members of a log in the order of their last entries, and their positions in it. -/

namespace Hthreads.Library

variable {α : Type} [DecidableEq α] {a b c : α} {l log : List α}

/-- The newest entry comes first, here as in the log. -/
def recent : List α → List α
  | [] => []
  | a :: log => a :: (recent log).erase a

lemma mem_recent : a ∈ recent log ↔ a ∈ log := by
  induction log with
  | nil => exact Iff.rfl
  | cons c log ih =>
    rw [recent, List.mem_cons, List.mem_cons]
    by_cases hac : a = c
    · exact iff_of_true (.inl hac) (.inl hac)
    · rw [or_iff_right hac, or_iff_right hac, List.mem_erase_of_ne hac, ih]

lemma nodup_recent (log : List α) : (recent log).Nodup := by
  induction log with
  | nil => exact List.nodup_nil
  | cons c log ih => exact List.nodup_cons.mpr ⟨fun h => ih.not_mem_erase h, ih.erase c⟩

lemma idxOf_erase (hb : b ∈ l) (hne : b ≠ a) : (l.erase a).idxOf b =
    if l.idxOf b < l.idxOf a then l.idxOf b else l.idxOf b - 1 := by
  induction l with
  | nil => cases hb
  | cons c l ih =>
    by_cases hca : c = a
    · subst hca
      rw [List.erase_cons_head, List.idxOf_cons_self, if_neg (Nat.not_lt_zero _),
        List.idxOf_cons_ne l hne.symm]
      rfl
    · rw [List.erase_cons_tail (by simpa using hca), List.idxOf_cons_ne l hca]
      by_cases hcb : c = b
      · subst hcb
        rw [List.idxOf_cons_self, List.idxOf_cons_self, if_pos (Nat.succ_pos _)]
      · have hmem : b ∈ l := (List.mem_cons.mp hb).resolve_left (Ne.symm hcb)
        rw [List.idxOf_cons_ne _ hcb, List.idxOf_cons_ne l hcb, ih hmem]
        have hother : l.idxOf b ≠ l.idxOf a := fun h => hne ((List.idxOf_inj hmem).mp h)
        split <;> split <;> omega

lemma idxOf_recent_cons (hb : b ∈ log) (hne : b ≠ a) : (recent (a :: log)).idxOf b =
    if (recent log).idxOf b < (recent log).idxOf a then (recent log).idxOf b + 1
    else (recent log).idxOf b := by
  have hmem := mem_recent.mpr hb
  have hother : (recent log).idxOf b ≠ (recent log).idxOf a := fun h =>
    hne ((List.idxOf_inj hmem).mp h)
  rw [recent, List.idxOf_cons_ne _ hne.symm, idxOf_erase hmem hne]
  split <;> omega

lemma idxOf_recent_head : (recent (a :: log)).idxOf a = 0 := List.idxOf_cons_self

lemma idxOf_recent_inj (ha : a ∈ log) (h : (recent log).idxOf a = (recent log).idxOf b) : a = b :=
  (List.idxOf_inj (mem_recent.mpr ha)).mp h

lemma idxOf_recent_lt_iff (ha : a ∈ log) (hb : b ∈ log) :
    (recent log).idxOf a < (recent log).idxOf b ↔ log.idxOf a < log.idxOf b := by
  induction log with
  | nil => cases ha
  | cons c log ih =>
    by_cases hbc : b = c
    · subst hbc
      rw [idxOf_recent_head, List.idxOf_cons_self]
      exact iff_of_false (Nat.not_lt_zero _) (Nat.not_lt_zero _)
    · have hb' := (List.mem_cons.mp hb).resolve_left hbc
      rw [idxOf_recent_cons hb' hbc, List.idxOf_cons_ne log (Ne.symm hbc)]
      have hne : (recent log).idxOf b ≠ (recent log).idxOf c := fun h =>
        hbc (idxOf_recent_inj hb' h)
      by_cases hac : a = c
      · subst hac
        rw [idxOf_recent_head, List.idxOf_cons_self]
        refine iff_of_true ?_ (Nat.succ_pos _)
        split <;> omega
      · have ha' := (List.mem_cons.mp ha).resolve_left hac
        have hne' : (recent log).idxOf a ≠ (recent log).idxOf c := fun h =>
          hac (idxOf_recent_inj ha' h)
        rw [idxOf_recent_cons ha' hac, List.idxOf_cons_ne log (Ne.symm hac),
          Nat.succ_lt_succ_iff, ← ih ha' hb']
        split <;> split <;> omega

lemma idxOf_recent_lt {log : List ℕ} {i n : ℕ} (hlog : ∀ j ∈ log, j < n) (hi : i ∈ log) :
    (recent log).idxOf i < n := by
  refine (List.idxOf_lt_length_of_mem (mem_recent.mpr hi)).trans_le ?_
  have hsub : (recent log).toFinset ⊆ Finset.range n := fun j hj =>
    Finset.mem_range.mpr (hlog j (mem_recent.mp (List.mem_toFinset.mp hj)))
  have hcard := Finset.card_le_card hsub
  rwa [List.toFinset_card_of_nodup (nodup_recent log), Finset.card_range] at hcard

end Hthreads.Library
