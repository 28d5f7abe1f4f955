import Mathlib.Data.BitVec
import Mathlib.Logic.Function.Basic
import Mathlib.Tactic.IntervalCases

/-! Bytes as a big-endian processor loads and stores them, the conversion of a little-endian field
where it stands, and the bytes of buffers of words. -/

namespace Hthreads.Library

abbrev Byte := BitVec 8
abbrev Bytes := ℕ → Byte

namespace Bytes

def load16 (m : Bytes) (o : ℕ) : BitVec 16 := m o ++ m (o + 1)
def load32 (m : Bytes) (o : ℕ) : BitVec 32 := m o ++ m (o + 1) ++ m (o + 2) ++ m (o + 3)

def little16 (m : Bytes) (o : ℕ) : BitVec 16 := m (o + 1) ++ m o
def little32 (m : Bytes) (o : ℕ) : BitVec 32 := m (o + 3) ++ m (o + 2) ++ m (o + 1) ++ m o

def store16 (m : Bytes) (o : ℕ) (v : BitVec 16) : Bytes :=
  Function.update (Function.update m o (v.extractLsb' 8 8)) (o + 1) (v.extractLsb' 0 8)

def store32 (m : Bytes) (o : ℕ) (v : BitVec 32) : Bytes :=
  Function.update (Function.update (Function.update (Function.update m o (v.extractLsb' 24 8))
    (o + 1) (v.extractLsb' 16 8)) (o + 2) (v.extractLsb' 8 8)) (o + 3) (v.extractLsb' 0 8)

end Bytes

def fromLittles (n : BitVec 16) : BitVec 16 := n >>> 8 ||| n <<< 8

def fromLittlel (n : BitVec 32) : BitVec 32 :=
  n >>> 24 ||| (n >>> 8 &&& 0x0000FF00#32) ||| (n <<< 8 &&& 0x00FF0000#32) |||
    (n <<< 24 &&& 0xFF000000#32)

section Swap

variable {a b c d : Byte}

lemma fromLittles_append : fromLittles (a ++ b) = b ++ a := by
  refine BitVec.eq_of_getLsbD_eq fun i hi => ?_
  simp only [fromLittles, BitVec.getLsbD_or, BitVec.getLsbD_ushiftRight, BitVec.getLsbD_shiftLeft,
    BitVec.getLsbD_append]
  interval_cases i <;> simp

lemma fromLittlel_append : fromLittlel (a ++ b ++ c ++ d) = d ++ c ++ b ++ a := by
  refine BitVec.eq_of_getLsbD_eq fun i hi => ?_
  simp only [fromLittlel, BitVec.getLsbD_or, BitVec.getLsbD_and, BitVec.getLsbD_ushiftRight,
    BitVec.getLsbD_shiftLeft, BitVec.getLsbD_append]
  interval_cases i <;> simp

variable {w : ℕ} {x y : BitVec w}

lemma extract_append_add (k : ℕ) : (x ++ a).extractLsb' (k + 8) 8 = x.extractLsb' k 8 :=
  BitVec.extractLsb'_append_eq_of_le (Nat.le_add_left 8 k)

lemma extract_append₂ : (x ++ a ++ b).extractLsb' 8 8 = a :=
  (extract_append_add 0).trans BitVec.extractLsb'_append_eq_right

lemma extract_append₃ : (x ++ a ++ b ++ c).extractLsb' 16 8 = a :=
  (extract_append_add 8).trans extract_append₂

lemma append_byte_inj : x ++ a = y ++ b ↔ x = y ∧ a = b := by
  refine ⟨fun h => ⟨?_, ?_⟩, fun ⟨hx, ha⟩ => by rw [hx, ha]⟩
  · have := congrArg (BitVec.extractLsb' 8 w) h
    rwa [BitVec.extractLsb'_append_eq_left, BitVec.extractLsb'_append_eq_left] at this
  · have := congrArg (BitVec.extractLsb' 0 8) h
    rwa [BitVec.extractLsb'_append_eq_right, BitVec.extractLsb'_append_eq_right] at this

end Swap

namespace Bytes

-- a field of the width of the name that is converted in place
def convert16 (m : Bytes) (o : ℕ) : Bytes := m.store16 o (fromLittles (m.load16 o))
def convert32 (m : Bytes) (o : ℕ) : Bytes := m.store32 o (fromLittlel (m.load32 o))

variable {m : Bytes} {o i : ℕ}

lemma convert16_eq :
    m.convert16 o = Function.update (Function.update m o (m (o + 1))) (o + 1) (m o) := by
  rw [convert16, load16, fromLittles_append, store16]
  congr
  · exact BitVec.extractLsb'_append_eq_left
  · exact BitVec.extractLsb'_append_eq_right

lemma convert32_eq :
    m.convert32 o = Function.update (Function.update (Function.update (Function.update m
      o (m (o + 3))) (o + 1) (m (o + 2))) (o + 2) (m (o + 1))) (o + 3) (m o) := by
  rw [convert32, load32, fromLittlel_append, store32]
  congr
  · exact (extract_append_add 16).trans ((extract_append_add 8).trans
      BitVec.extractLsb'_append_eq_left)
  · exact extract_append₃
  · exact extract_append₂
  · exact BitVec.extractLsb'_append_eq_right

@[simp] lemma convert16_apply :
    m.convert16 o i = if i = o then m (o + 1) else if i = o + 1 then m o else m i := by
  rw [convert16_eq]
  simp only [Function.update_apply]
  split_ifs <;> first | rfl | omega

@[simp] lemma convert32_apply :
    m.convert32 o i = if i = o then m (o + 3) else if i = o + 1 then m (o + 2)
      else if i = o + 2 then m (o + 1) else if i = o + 3 then m o else m i := by
  rw [convert32_eq]
  simp only [Function.update_apply]
  split_ifs <;> first | rfl | omega

lemma load16_eq_little16_iff : m.load16 o = m.little16 o ↔ m o = m (o + 1) :=
  append_byte_inj.trans ⟨And.left, fun h => ⟨h, h.symm⟩⟩

lemma load32_eq_little32_iff :
    m.load32 o = m.little32 o ↔ m o = m (o + 3) ∧ m (o + 1) = m (o + 2) := by
  rw [load32, little32, append_byte_inj, append_byte_inj, append_byte_inj]
  constructor
  · rintro ⟨⟨⟨h, h'⟩, -⟩, -⟩
    exact ⟨h, h'⟩
  · rintro ⟨h, h'⟩
    exact ⟨⟨⟨h, h'⟩, h'.symm⟩, h.symm⟩

section Fields

variable {m' : Bytes} {k : ℕ} (v : BitVec 32)

lemma load32_congr (h : ∀ i, o ≤ i → i < o + 4 → m i = m' i) : m.load32 o = m'.load32 o := by
  rw [load32, load32, h o le_rfl (by omega), h (o + 1) (by omega) (by omega),
    h (o + 2) (by omega) (by omega), h (o + 3) (by omega) (by omega)]

lemma store32_of_ne (h : i < o ∨ o + 4 ≤ i) : m.store32 o v i = m i := by
  rw [store32, Function.update_of_ne (by omega), Function.update_of_ne (by omega),
    Function.update_of_ne (by omega), Function.update_of_ne (by omega)]

lemma load32_store32 : (m.store32 o v).load32 o = v := by
  simp only [load32, store32, Function.update_apply]
  refine BitVec.eq_of_getLsbD_eq fun i hi => ?_
  simp only [BitVec.getLsbD_append]
  interval_cases i <;> simp

lemma load32_store32_of_ne (h : k + 4 ≤ o ∨ o + 4 ≤ k) : (m.store32 o v).load32 k = m.load32 k :=
  load32_congr fun _ _ _ => store32_of_ne v (by omega)

end Fields

end Bytes

abbrev Words := ℕ → BitVec 32

namespace Words

variable {b c : Words} {m : Bytes} {a i k n : ℕ}

def byte (b : Words) (k : ℕ) : Byte := (b (k / 4)).extractLsb' (8 * (3 - k % 4)) 8

def overwrite (b c : Words) (n : ℕ) : Words := fun i => if i < n then c i else b i

lemma byte_congr (h : b (k / 4) = c (k / 4)) : b.byte k = c.byte k := by
  rw [byte, byte, h]

lemma extract_load32 (hi : i < 4) : (m.load32 a).extractLsb' (8 * (3 - i)) 8 = m (a + i) := by
  apply BitVec.eq_of_getLsbD_eq
  intro j hj
  simp only [Bytes.load32, BitVec.getLsbD_extractLsb', BitVec.getLsbD_append, hj]
  interval_cases i
  · simp [show ¬ 24 + j < 8 by omega, show 24 + j - 8 - 8 - 8 = j by omega,
      show ¬ 24 + j - 8 < 8 by omega, show ¬ 24 + j - 8 - 8 < 8 by omega]
  · simp [show ¬ 16 + j < 8 by omega, show 16 + j - 8 - 8 = j by omega,
      show ¬ 16 + j - 8 < 8 by omega, hj]
  · simp [show ¬ 8 + j < 8 by omega, show 8 + j - 8 = j by omega, hj]
  · simp [hj]

lemma byte_of_load32 (h : b (k / 4) = m.load32 (a + 4 * (k / 4))) : b.byte k = m (a + k) := by
  rw [byte, h, extract_load32 (Nat.mod_lt k (by omega)), Nat.add_assoc, Nat.div_add_mod]

lemma overwrite_of_lt (h : i < n) : b.overwrite c n i = c i := if_pos h

lemma overwrite_of_le (h : n ≤ i) : b.overwrite c n i = b i := if_neg (Nat.not_lt.mpr h)

lemma overwrite_zero : b.overwrite c 0 = b := by
  funext i
  exact overwrite_of_le (Nat.zero_le i)

lemma overwrite_succ : b.overwrite c (n + 1) = Function.update (b.overwrite c n) n (c n) := by
  funext i
  by_cases hi : i = n
  · rw [hi, Function.update_self, overwrite_of_lt (Nat.lt_succ_self n)]
  · rw [Function.update_of_ne hi]
    simp only [overwrite]
    have hlt : i < n + 1 ↔ i < n := by omega
    simp only [hlt]

def stored (writes : List (ℕ × BitVec 32)) (b : Words) : Words :=
  writes.foldl (fun b w => Function.update b w.1 w.2) b

lemma stored_append {l r : List (ℕ × BitVec 32)} : stored (l ++ r) b = stored r (stored l b) :=
  List.foldl_append

lemma stored_range : stored ((List.range n).map fun i => (i, c i)) b = b.overwrite c n := by
  induction n with
  | zero => exact overwrite_zero.symm
  | succ n ih =>
    rw [List.range_succ, List.map_append, stored_append, ih, overwrite_succ]
    rfl

end Words

end Hthreads.Library
