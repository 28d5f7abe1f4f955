import Mathlib.Data.BitVec
import Mathlib.Data.List.Basic
import Mathlib.Logic.Function.Basic
import Mathlib.Tactic

/-! A list that lies in a ring of memory words, from one address on. -/

namespace Hthreads.Library

variable {a : ℕ} {α : Type*}

/-- The words of the list lie behind each other, and the ring is long enough for them. -/
structure Ring (mem : BitVec a → α) (head : BitVec a) (l : List α) : Prop where
  room : l.length ≤ 2 ^ a
  stored : ∀ i (h : i < l.length), mem (head + BitVec.ofNat a i) = l[i]

namespace Ring

variable {mem : BitVec a → α} {head : BitVec a} {l : List α} {x : α}

def next (head : BitVec a) (l : List α) : BitVec a := head + BitVec.ofNat a l.length

lemma nil (mem : BitVec a → α) (head : BitVec a) : Ring mem head [] :=
  ⟨Nat.zero_le _, fun i h => absurd h (Nat.not_lt_zero i)⟩

lemma head_eq (h : Ring mem head (x :: l)) : mem head = x := by
  have hfirst := h.stored 0 (Nat.succ_pos _)
  simpa using hfirst

lemma next_cons (head : BitVec a) (x : α) (l : List α) :
    next head (x :: l) = next (head + 1) l := by
  have hone : (1 : BitVec a) = BitVec.ofNat a 1 := rfl
  rw [next, next, List.length_cons, hone, BitVec.add_assoc, ← BitVec.ofNat_add, Nat.add_comm]

lemma next_append (head : BitVec a) (l : List α) (x : α) :
    next head (l ++ [x]) = next head l + 1 := by
  have hone : (1 : BitVec a) = BitVec.ofNat a 1 := rfl
  rw [next, next, List.length_append, List.length_singleton, hone, BitVec.add_assoc,
    ← BitVec.ofNat_add]

lemma tail (h : Ring mem head (x :: l)) : Ring mem (head + 1) l := by
  refine ⟨(Nat.le_succ _).trans h.room, fun i hi => ?_⟩
  have haddr : head + 1 + BitVec.ofNat a i = head + BitVec.ofNat a (i + 1) := by
    rw [BitVec.add_assoc, Nat.add_comm i 1, BitVec.ofNat_add]
    rfl
  rw [haddr, h.stored (i + 1) (Nat.succ_lt_succ hi), List.getElem_cons_succ]

lemma ne_next (hroom : l.length < 2 ^ a) {i : ℕ} (hi : i < l.length) :
    head + BitVec.ofNat a i ≠ next head l := by
  intro heq
  have hofs : BitVec.ofNat a i = BitVec.ofNat a l.length := (BitVec.add_right_inj head).mp heq
  have hnat := congrArg BitVec.toNat hofs
  rw [BitVec.toNat_ofNat, BitVec.toNat_ofNat, Nat.mod_eq_of_lt (hi.trans hroom),
    Nat.mod_eq_of_lt hroom] at hnat
  exact Nat.ne_of_lt hi hnat

lemma append (h : Ring mem head l) (hroom : l.length < 2 ^ a) :
    Ring (Function.update mem (next head l) x) head (l ++ [x]) := by
  refine ⟨?_, fun i hi => ?_⟩
  · rw [List.length_append, List.length_singleton]
    exact hroom
  · rw [List.length_append, List.length_singleton] at hi
    rcases Nat.lt_succ_iff_lt_or_eq.mp hi with hlt | rfl
    · rw [Function.update_of_ne (ne_next hroom hlt), h.stored i hlt, List.getElem_append_left hlt]
    · rw [← next, Function.update_self, List.getElem_concat_length rfl]

end Ring

end Hthreads.Library
