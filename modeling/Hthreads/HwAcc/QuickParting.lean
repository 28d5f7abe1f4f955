import Hthreads.HwAcc.QuickSort
import Hthreads.Library.Rearrangements

/-! The partition of a range by the quick sort core. -/

namespace Hthreads.HwAcc.QuickSort

open Library

def addr (i : ℕ) : Word := .ofNat 32 (4 * i)

def words (s e : ℕ) : Set Word := addr '' Set.Icc s e

section Addresses

variable {i j s e : ℕ}

lemma toNat_addr (hi : i < 2 ^ 13) : (addr i).toNat = 4 * i := by
  rw [addr, BitVec.toNat_ofNat]
  exact Nat.mod_eq_of_lt (by omega)

lemma addr_inj (hi : i < 2 ^ 13) (hj : j < 2 ^ 13) (h : addr i = addr j) : i = j := by
  have hnat := congrArg BitVec.toNat h
  rw [toNat_addr hi, toNat_addr hj] at hnat
  omega

lemma addr_lt_iff (hi : i < 2 ^ 13) (hj : j < 2 ^ 13) : addr i < addr j ↔ i < j := by
  rw [BitVec.lt_def, toNat_addr hi, toNat_addr hj]
  omega

lemma addr_add (i : ℕ) : addr i + 4 = addr (i + 1) := by
  rw [addr, addr, mul_add, BitVec.ofNat_add]
  rfl

lemma addr_sub (i : ℕ) : addr (i + 1) - 4 = addr i := by
  rw [← addr_add, BitVec.add_sub_cancel]

lemma addr_mem_words (hs : s ≤ i) (he : i ≤ e) : addr i ∈ words s e := ⟨i, ⟨hs, he⟩, rfl⟩

lemma words_mono {s' e' : ℕ} (hs : s ≤ s') (he : e' ≤ e) : words s' e' ⊆ words s e :=
  Set.image_mono (Set.Icc_subset_Icc hs he)

end Addresses

/-- What holds while a range is parted, from the memory that it starts with. A pointer that has not
moved has seen no swap, and the left one moves first. -/
structure Parting (mem₀ : Word → Word) (s e : ℕ) (p : Word) (mem : Word → Word) (l r : ℕ) :
    Prop where
  start_le : s ≤ l
  le_end : r ≤ e
  low : ∀ i, s ≤ i → i < l → mem (addr i) ≤ p
  high : ∀ i, r < i → i ≤ e → p < mem (addr i)
  perm : Rearranges (words s e) mem₀ mem
  first : l = s → r = e ∧ mem = mem₀
  last : r = e → mem = mem₀

def Middle (p a b : Word) : Prop :=
  2 * p.toNat ≤ a.toNat + b.toNat ∧ a.toNat + b.toNat ≤ 2 * p.toNat + 1

lemma middle_halved (a b : Word) (hsum : a.toNat + b.toNat < 2 ^ 32) :
    Middle (0#1 ++ (a + b).extractLsb' 1 31) a b := by
  have hhalf : (0#1 ++ (a + b).extractLsb' 1 31 : Word).toNat = (a.toNat + b.toNat) / 2 := by
    rw [BitVec.toNat_append, BitVec.extractLsb'_toNat, BitVec.toNat_add, Nat.mod_eq_of_lt hsum,
      Nat.shiftRight_eq_div_pow, Nat.mod_eq_of_lt (by omega)]
    simp
  rw [Middle, hhalf]
  omega

structure Parted (mem₀ : Word → Word) (s e : ℕ) (mem : Word → Word) (m : ℕ) : Prop where
  start_le : s ≤ m
  lt_end : m < e
  perm : Rearranges (words s e) mem₀ mem
  parts : ∃ p : Word, (∀ i, s ≤ i → i ≤ m → mem (addr i) ≤ p) ∧
    ∀ i, m < i → i ≤ e → p ≤ mem (addr i)

namespace Parting

variable {mem₀ mem : Word → Word} {s e l r m : ℕ} {p : Word}

lemma start (mem₀ : Word → Word) (s e : ℕ) (p : Word) : Parting mem₀ s e p mem₀ s e where
  start_le := le_refl s
  le_end := le_refl e
  low i hi hi' := absurd hi' (by omega)
  high i hi hi' := absurd hi' (by omega)
  perm := .refl _ _
  first _ := ⟨rfl, rfl⟩
  last _ := rfl

lemma left (h : Parting mem₀ s e p mem l r) (hle : mem (addr l) ≤ p) :
    Parting mem₀ s e p mem (l + 1) r where
  start_le := Nat.le_succ_of_le h.start_le
  le_end := h.le_end
  low i hi hi' := by
    obtain hlt | rfl : i < l ∨ i = l := by omega
    · exact h.low i hi hlt
    · exact hle
  high := h.high
  perm := h.perm
  first hl := by
    have hs := h.start_le
    omega
  last := h.last

lemma right (h : Parting mem₀ s e p mem l (r + 1)) (hmid : Middle p (mem₀ (addr s)) (mem₀ (addr e)))
    (hlarge : p < mem (addr l)) (hgt : p < mem (addr (r + 1))) : Parting mem₀ s e p mem l r where
  start_le := h.start_le
  le_end := Nat.le_of_succ_le h.le_end
  low := h.low
  high i hi hi' := by
    obtain hlt | rfl : r + 1 < i ∨ i = r + 1 := by omega
    · exact h.high i hlt hi'
    · exact hgt
  perm := h.perm
  first hl := by
    obtain ⟨hr, hmem⟩ := h.first hl
    obtain ⟨-, hsum⟩ := hmid
    rw [hl, hmem, BitVec.lt_def] at hlarge
    rw [hr, hmem, BitVec.lt_def] at hgt
    omega
  last hr := by
    have he := h.le_end
    omega

lemma swap (h : Parting mem₀ s e p mem l (r + 1)) (he : e < 2 ^ 13) (hlr : l < r + 1)
    (hlarge : p < mem (addr l)) (hsmall : mem (addr (r + 1)) ≤ p) :
    Parting mem₀ s e p (exchange mem (addr (r + 1)) (addr l)) (l + 1) r := by
  have hs := h.start_le
  have hr := h.le_end
  have hother : ∀ i, i ≤ e → i ≠ l → i ≠ r + 1 →
      exchange mem (addr (r + 1)) (addr l) (addr i) = mem (addr i) := by
    intro i hi hil hir
    exact exchange_of_ne (fun heq => hir (addr_inj (by omega) (by omega) heq))
      fun heq => hil (addr_inj (by omega) (by omega) heq)
  refine ⟨by omega,
    by omega, fun i hi hi' => ?_, fun i hi hi' => ?_, ?_, fun hl => ?_, fun hre => ?_⟩
  · obtain hlt | rfl : i < l ∨ i = l := by omega
    · rw [hother i (by omega) (by omega) (by omega)]
      exact h.low i hi hlt
    · rw [exchange_right]
      exact hsmall
  · obtain hlt | rfl : r + 1 < i ∨ i = r + 1 := by omega
    · rw [hother i hi' (by omega) (by omega)]
      exact h.high i hlt hi'
    · rw [exchange_left]
      exact hlarge
  · exact h.perm.trans (.exchange (addr_mem_words (by omega) hr) (addr_mem_words hs (by omega)))
  · omega
  · omega

lemma met_large (h : Parting mem₀ s e p mem (m + 1) (m + 1)) (hse : s < e)
    (hge : p ≤ mem (addr (m + 1))) : Parted mem₀ s e mem m := by
  have hs := h.start_le
  have hr := h.le_end
  refine ⟨?_, by omega, h.perm, p, fun i hi hi' => h.low i hi (by omega), fun i hi hi' => ?_⟩
  · by_contra hsm
    obtain ⟨hre, -⟩ := h.first (by omega)
    omega
  · obtain hlt | rfl : m + 1 < i ∨ i = m + 1 := by omega
    · exact BitVec.le_of_lt (h.high i hlt hi')
    · exact hge

lemma met_small (h : Parting mem₀ s e p mem m m) (hse : s < e)
    (hmid : Middle p (mem₀ (addr s)) (mem₀ (addr e))) (hlt : mem (addr m) < p) :
    Parted mem₀ s e mem m := by
  have hs := h.start_le
  have hr := h.le_end
  refine ⟨hs, ?_, h.perm, p, fun i hi hi' => ?_, fun i hi hi' => BitVec.le_of_lt (h.high i hi hi')⟩
  · by_contra hme
    obtain rfl : m = e := by omega
    have hfirst := h.low s (le_refl s) hse
    rw [h.last rfl, BitVec.le_def] at hfirst
    rw [h.last rfl, BitVec.lt_def] at hlt
    obtain ⟨hsum, -⟩ := hmid
    omega
  · obtain hlow | rfl : i < m ∨ i = m := by omega
    · exact h.low i hi hlow
    · exact BitVec.le_of_lt hlt

lemma crossed (h : Parting mem₀ s e p mem (m + 1) m) (hme : m < e) : Parted mem₀ s e mem m := by
  refine ⟨?_, hme, h.perm, p, fun i hi hi' => h.low i hi (by omega), fun i hi hi' =>
    BitVec.le_of_lt (h.high i hi hi')⟩
  by_contra hsm
  have hs := h.start_le
  obtain ⟨hre, -⟩ := h.first (by omega)
  omega

end Parting

section Turns

variable {inputs : ℕ → ChanInput} {inside : Word → Bool} {ack : Word} {x : Link} {h : Host}
  {mem : Word → Word} {d : Word} {s e l r : ℕ} {left right p : Word}

def ptrs (s e l r : ℕ) (left right pivot : Word) : Vars :=
  ⟨addr s, addr e, addr l, addr r, left, right, pivot⟩

lemma moves {st st' : State} {v v' : Vars} {x x' : Link} {a : Bram 32 32}
    (hcomb : ∀ i, comb (wires i (sys st v x a h)) (sys st v x a h).core = (⟨st', v', x'⟩, {})) :
    Leads (clock inside ack) inputs (sys st v x a h) (sys st' v' x' a h) :=
  leads .off hcomb (fun hoff => absurd hoff Bool.false_ne_true) rfl

lemma reads {st st' : State} {v v' : Vars} {x x' : Link} {i : Word} (hi : inside i = true)
    (hcomb : ∀ c, comb (wires c (sys st v x ⟨mem, d⟩ h)) (sys st v x ⟨mem, d⟩ h).core =
      (⟨st', v', x'⟩, { array := .read i })) :
    Leads (clock inside ack) inputs (sys st v x ⟨mem, d⟩ h) (sys st' v' x' ⟨mem, mem i⟩ h) :=
  leads (.read i) hcomb (fun _ => hi) rfl

lemma writes {st st' : State} {v v' : Vars} {x x' : Link} {i w : Word} (hi : inside i = true)
    (hcomb : ∀ c, comb (wires c (sys st v x ⟨mem, d⟩ h)) (sys st v x ⟨mem, d⟩ h).core =
      (⟨st', v', x'⟩, { array := .write i w })) :
    Leads (clock inside ack) inputs (sys st v x ⟨mem, d⟩ h)
      (sys st' v' x' ⟨Function.update mem i w, mem i⟩ h) :=
  leads (.write i w) hcomb (fun _ => hi) rfl

lemma left_turn (hr : r < 2 ^ 13) (hlr : l < r) (hle : left ≤ p)
    (hinside : inside (addr (l + 1)) = true) : Leads (clock inside ack) inputs
      (sys .whileLeft0 (ptrs s e l r left right p) x ⟨mem, d⟩ h)
      (sys .whileLeft0 (ptrs s e (l + 1) r (mem (addr (l + 1))) right p) x
        ⟨mem, mem (addr (l + 1))⟩ h) := by
  have hlt : addr l < addr r := (addr_lt_iff (by omega) hr).mpr hlr
  have hcheck : Leads (clock inside ack) inputs
      (sys .whileLeft0 (ptrs s e l r left right p) x ⟨mem, d⟩ h)
      (sys .whileLeft1 (ptrs s e l r left right p) x ⟨mem, d⟩ h) := moves fun _ => if_pos hlt
  have hmove : Leads (clock inside ack) inputs
      (sys .whileLeft1 (ptrs s e l r left right p) x ⟨mem, d⟩ h)
      (sys .whileLeft2 (ptrs s e (l + 1) r left right p) x ⟨mem, d⟩ h) := by
    rw [ptrs, ptrs, ← addr_add l]
    exact moves fun _ => if_pos hle
  exact hcheck.trans (hmove.trans ((reads hinside fun _ => rfl).trans (moves fun _ => rfl)))

lemma left_stop (hr : r < 2 ^ 13) (hlr : l < r) (hgt : p < left) : Leads (clock inside ack) inputs
    (sys .whileLeft0 (ptrs s e l r left right p) x ⟨mem, d⟩ h)
    (sys .break (ptrs s e l r left right p) x ⟨mem, d⟩ h) := by
  have hlt : addr l < addr r := (addr_lt_iff (by omega) hr).mpr hlr
  have hcheck : Leads (clock inside ack) inputs
      (sys .whileLeft0 (ptrs s e l r left right p) x ⟨mem, d⟩ h)
      (sys .whileLeft1 (ptrs s e l r left right p) x ⟨mem, d⟩ h) := moves fun _ => if_pos hlt
  exact hcheck.trans (moves fun _ => if_neg (BitVec.not_le.mpr hgt))

lemma left_end : Leads (clock inside ack) inputs
    (sys .whileLeft0 (ptrs s e l l left right p) x ⟨mem, d⟩ h)
    (sys .break (ptrs s e l l left right p) x ⟨mem, d⟩ h) :=
  moves fun _ => if_neg (BitVec.lt_irrefl _)

lemma right_turn (hr : r + 1 < 2 ^ 13) (hlr : l < r + 1) (hgt : p < right)
    (hinside : inside (addr r) = true) : Leads (clock inside ack) inputs
      (sys .break (ptrs s e l (r + 1) left right p) x ⟨mem, d⟩ h)
      (sys .break (ptrs s e l r left (mem (addr r)) p) x ⟨mem, mem (addr r)⟩ h) := by
  have hlt : addr l < addr (r + 1) := (addr_lt_iff (by omega) hr).mpr hlr
  have hcheck : Leads (clock inside ack) inputs
      (sys .break (ptrs s e l (r + 1) left right p) x ⟨mem, d⟩ h)
      (sys .whileRight1 (ptrs s e l (r + 1) left right p) x ⟨mem, d⟩ h) :=
    moves fun _ => if_neg (BitVec.not_le.mpr hlt)
  have hmove : Leads (clock inside ack) inputs
      (sys .whileRight1 (ptrs s e l (r + 1) left right p) x ⟨mem, d⟩ h)
      (sys .whileRight2 (ptrs s e l r left right p) x ⟨mem, d⟩ h) := by
    rw [ptrs, ptrs, ← addr_sub r]
    exact moves fun _ => if_pos hgt
  exact hcheck.trans (hmove.trans ((reads hinside fun _ => rfl).trans (moves fun _ => rfl)))

lemma right_stop (hr : r < 2 ^ 13) (hlr : l < r) (hle : right ≤ p) : Leads (clock inside ack) inputs
    (sys .break (ptrs s e l r left right p) x ⟨mem, d⟩ h)
    (sys .swap1 (ptrs s e l r left right p) x ⟨mem, d⟩ h) := by
  have hlt : addr l < addr r := (addr_lt_iff (by omega) hr).mpr hlr
  have hcheck : Leads (clock inside ack) inputs
      (sys .break (ptrs s e l r left right p) x ⟨mem, d⟩ h)
      (sys .whileRight1 (ptrs s e l r left right p) x ⟨mem, d⟩ h) :=
    moves fun _ => if_neg (BitVec.not_le.mpr hlt)
  exact hcheck.trans (moves fun _ => if_neg (BitVec.not_lt.mpr hle))

lemma right_end : Leads (clock inside ack) inputs
    (sys .break (ptrs s e l l left right p) x ⟨mem, d⟩ h)
    (sys .callQs0 (ptrs s e l l left right p) x ⟨mem, d⟩ h) :=
  moves fun _ => if_pos (BitVec.le_refl _)

lemma swap_turn (hl : inside (addr l) = true) (hr : inside (addr (r + 1)) = true)
    (hl' : inside (addr (l + 1)) = true) (hr' : inside (addr r) = true) :
    let mem' := exchange mem (addr (r + 1)) (addr l)
    Leads (clock inside ack) inputs
      (sys .swap1 (ptrs s e l (r + 1) (mem (addr l)) (mem (addr (r + 1))) p) x ⟨mem, d⟩ h)
      (sys .while (ptrs s e (l + 1) r (mem' (addr (l + 1))) (mem (addr (r + 1))) p) x
        ⟨mem', mem' (addr r)⟩ h) := by
  intro mem'
  have hwrite : Leads (clock inside ack) inputs
      (sys .swap1 (ptrs s e l (r + 1) (mem (addr l)) (mem (addr (r + 1))) p) x ⟨mem, d⟩ h)
      (sys .swap3 (ptrs s e l (r + 1) (mem (addr l)) (mem (addr (r + 1))) p) x
        ⟨mem', Function.update mem (addr (r + 1)) (mem (addr l)) (addr l)⟩ h) := by
    have hboth : mem' = Function.update (Function.update mem (addr (r + 1)) (mem (addr l))) (addr l)
        (mem (addr (r + 1))) := rfl
    rw [hboth]
    exact (writes hr fun _ => rfl).trans (writes hl fun _ => rfl)
  have hmove : ∀ d', Leads (clock inside ack) inputs
      (sys .swap3 (ptrs s e l (r + 1) (mem (addr l)) (mem (addr (r + 1))) p) x ⟨mem', d'⟩ h)
      (sys .swap4 (ptrs s e (l + 1) r (mem (addr l)) (mem (addr (r + 1))) p) x ⟨mem', d'⟩ h) := by
    intro d'
    rw [ptrs, ptrs, ← addr_add l, ← addr_sub r]
    exact moves fun _ => rfl
  exact hwrite.trans ((hmove _).trans ((reads hl' fun _ => rfl).trans (reads hr' fun _ => rfl)))

end Turns

section Scans

variable (inputs : ℕ → ChanInput) (inside : Word → Bool) (ack : Word) (x : Link) (h : Host)
  {mem mem₀ : Word → Word} {s e : ℕ} {p : Word}

lemma left_scan (hinside : ∀ i, s ≤ i → i ≤ e → inside (addr i) = true) (he : e < 2 ^ 13) {r : ℕ}
    (right : Word) (n : ℕ) : ∀ {l : ℕ} (d : Word), r = l + n → Parting mem₀ s e p mem l r →
    ∃ l' d', l ≤ l' ∧ l' ≤ r ∧
      Parting mem₀ s e p mem l' r ∧ (l' < r → p < mem (addr l')) ∧
      Leads (clock inside ack) inputs
        (sys .whileLeft0 (ptrs s e l r (mem (addr l)) right p) x ⟨mem, d⟩ h)
        (sys .break (ptrs s e l' r (mem (addr l')) right p) x ⟨mem, d'⟩ h) := by
  induction n with
  | zero =>
    intro l d hr hpart
    obtain rfl : r = l := hr
    exact ⟨r, d, le_refl r, le_refl r, hpart, fun hlt => absurd hlt (by omega), left_end⟩
  | succ n ih =>
    intro l d hr hpart
    have hend := hpart.le_end
    by_cases hle : mem (addr l) ≤ p
    · have hs := hpart.start_le
      obtain ⟨l', d', hl, hl', hpart', hlarge, hrest⟩ :=
        ih (mem (addr (l + 1))) (by omega) (hpart.left hle)
      exact ⟨l', d', by omega, hl', hpart', hlarge,
        (left_turn (by omega) (by omega) hle (hinside _ (by omega) (by omega))).trans hrest⟩
    · have hgt : p < mem (addr l) := BitVec.not_le.mp hle
      exact ⟨l, d, le_refl l, by omega, hpart, fun _ => hgt, left_stop (by omega) (by omega) hgt⟩

lemma right_scan (hinside : ∀ i, s ≤ i → i ≤ e → inside (addr i) = true) (he : e < 2 ^ 13)
    (hmid : Middle p (mem₀ (addr s)) (mem₀ (addr e))) {l : ℕ} (left : Word) (n : ℕ) :
    ∀ {r : ℕ} (d : Word), r = l + n →
      Parting mem₀ s e p mem l r → (l < r → p < mem (addr l)) →
      ∃ r' d', r' ≤ r ∧ Parting mem₀ s e p mem l r' ∧
        ((l = r' ∧ Leads (clock inside ack) inputs
            (sys .break (ptrs s e l r left (mem (addr r)) p) x ⟨mem, d⟩ h)
            (sys .callQs0 (ptrs s e l r' left (mem (addr r')) p) x ⟨mem, d'⟩ h)) ∨
          (l < r' ∧ mem (addr r') ≤ p ∧ Leads (clock inside ack) inputs
            (sys .break (ptrs s e l r left (mem (addr r)) p) x ⟨mem, d⟩ h)
            (sys .swap1 (ptrs s e l r' left (mem (addr r')) p) x ⟨mem, d'⟩ h))) := by
  induction n with
  | zero =>
    intro r d hr hpart _
    obtain rfl : r = l := hr
    exact ⟨r, d, le_refl r, hpart, .inl ⟨rfl, right_end⟩⟩
  | succ n ih =>
    rintro r d rfl hpart hlarge
    have hs := hpart.start_le
    have hend := hpart.le_end
    have hlt : l < l + n + 1 := by omega
    by_cases hle : mem (addr (l + n + 1)) ≤ p
    · exact ⟨l + n + 1, d, le_refl _, hpart, .inr ⟨hlt, hle, right_stop (by omega) hlt hle⟩⟩
    · have hgt : p < mem (addr (l + n + 1)) := BitVec.not_le.mp hle
      have hturn : Leads (clock inside ack) inputs
          (sys .break (ptrs s e l (l + n + 1) left (mem (addr (l + n + 1))) p) x ⟨mem, d⟩ h)
          (sys .break (ptrs s e l (l + n) left (mem (addr (l + n))) p) x
            ⟨mem, mem (addr (l + n))⟩ h) :=
        right_turn (by omega) hlt hgt (hinside _ (by omega) (by omega))
      obtain ⟨r', d', hr', hpart', hmet | hswap⟩ :=
        ih (mem (addr (l + n))) rfl (hpart.right hmid (hlarge hlt) hgt) fun _ => hlarge hlt
      · exact ⟨r', d', by omega, hpart', .inl ⟨hmet.1, hturn.trans hmet.2⟩⟩
      · exact ⟨r', d', by omega, hpart', .inr ⟨hswap.1, hswap.2.1, hturn.trans hswap.2.2⟩⟩

/-- The pointers have met, or passed each other in a swap. -/
def Met (e l r : ℕ) : Prop := l = r ∨ l = r + 1 ∧ r < e

lemma parting_loop (hinside : ∀ i, s ≤ i → i ≤ e → inside (addr i) = true) (he : e < 2 ^ 13)
    (hmid : Middle p (mem₀ (addr s)) (mem₀ (addr e))) (n : ℕ) :
    ∀ {l r : ℕ} {mem : Word → Word} {d : Word}, r - l < n → l < r → Parting mem₀ s e p mem l r →
      ∃ l' r' mem' left' d', Met e l' r' ∧ Parting mem₀ s e p mem' l' r' ∧
        Leads (clock inside ack) inputs
          (sys .quicksortDo (ptrs s e l r (mem (addr l)) (mem (addr r)) p) x ⟨mem, d⟩ h)
          (sys .callQs0 (ptrs s e l' r' left' (mem' (addr r')) p) x ⟨mem', d'⟩ h) := by
  induction n with
  | zero => exact fun hn => absurd hn (Nat.not_lt_zero _)
  | succ n ih =>
    intro l r mem d hn hlr hpart
    obtain ⟨l', d', hl, hl', hpart', hlarge, hscan⟩ :=
      left_scan inputs inside ack x h hinside he (mem (addr r)) (r - l) d (by omega) hpart
    have hdo : Leads (clock inside ack) inputs
        (sys .quicksortDo (ptrs s e l r (mem (addr l)) (mem (addr r)) p) x ⟨mem, d⟩ h)
        (sys .break (ptrs s e l' r (mem (addr l')) (mem (addr r)) p) x ⟨mem, d'⟩ h) :=
      (moves fun _ => rfl).trans hscan
    obtain ⟨r', d'', hr', hpart'', hmet | hswap⟩ :=
      right_scan inputs inside ack x h hinside he hmid (mem (addr l')) (r - l') d'
        (by omega) hpart' hlarge
    · obtain ⟨rfl, hstop⟩ := hmet
      exact ⟨l', l', mem, mem (addr l'), d'', .inl rfl, hpart'', hdo.trans hstop⟩
    · obtain ⟨hlr', hsmall, hstop⟩ := hswap
      obtain ⟨k, rfl⟩ : ∃ k, r' = k + 1 := ⟨r' - 1, by omega⟩
      have hs := hpart''.start_le
      have hend := hpart''.le_end
      have hpart₁ := hpart''.swap he hlr' (hlarge (by omega)) hsmall
      have hturn := hdo.trans (hstop.trans (swap_turn (hinside l' hs (by omega))
        (hinside (k + 1) (by omega) hend) (hinside (l' + 1) (by omega) (by omega))
        (hinside k (by omega) (by omega))))
      by_cases hagain : l' + 1 < k
      · have hlt : addr (l' + 1) < addr k := (addr_lt_iff (by omega) (by omega)).mpr hagain
        obtain ⟨l₂, r₂, mem₂, left₂, d₂, hmet, hpart₂, hrest⟩ := ih
          (d := exchange mem (addr (k + 1)) (addr l') (addr k)) (by omega) hagain hpart₁
        refine ⟨l₂, r₂, mem₂, left₂, d₂, hmet, hpart₂, hturn.trans (.trans ?_ hrest)⟩
        exact moves fun _ => if_pos hlt
      · have hge : ¬ addr (l' + 1) < addr k := fun hlt =>
          hagain ((addr_lt_iff (by omega) (by omega)).mp hlt)
        refine ⟨l' + 1, k, _, _, _, ?_, hpart₁, hturn.trans (moves fun _ => if_neg hge)⟩
        obtain hmet | hpassed : l' + 1 = k ∨ l' = k := by omega
        · exact .inl hmet
        · exact .inr ⟨by omega, by omega⟩

lemma choose_parts {l r : ℕ} {d : Word} (left : Word) (hpart : Parting mem₀ s e p mem l r)
    (he : e < 2 ^ 13) (hse : s < e) (hmid : Middle p (mem₀ (addr s)) (mem₀ (addr e)))
    (hmet : Met e l r) :
    ∃ m, Parted mem₀ s e mem m ∧ Leads (clock inside ack) inputs
      (sys .callQs0 (ptrs s e l r left (mem (addr r)) p) x ⟨mem, d⟩ h)
      (sys .callQs1 (ptrs s e m (m + 1) left (mem (addr r)) p) x ⟨mem, d⟩ h) := by
  have hs := hpart.start_le
  have hr := hpart.le_end
  obtain rfl | ⟨rfl, hlt⟩ := hmet
  · by_cases hge : p ≤ mem (addr l)
    · have hsl : s ≠ l := by
        rintro rfl
        obtain ⟨hre, -⟩ := hpart.first rfl
        omega
      obtain ⟨m, rfl⟩ : ∃ m, l = m + 1 := ⟨l - 1, by omega⟩
      refine ⟨m, hpart.met_large hse hge, ?_⟩
      rw [ptrs, ptrs, ← addr_sub m]
      exact moves fun _ => (if_pos rfl).trans (if_pos hge)
    · refine ⟨l, hpart.met_small hse hmid (BitVec.not_le.mp hge), ?_⟩
      rw [ptrs, ptrs, ← addr_add l]
      exact moves fun _ => (if_pos rfl).trans (if_neg hge)
  · have hne : addr (r + 1) ≠ addr r := fun heq =>
      absurd (addr_inj (by omega) (by omega) heq) (by omega)
    have hparted := hpart.crossed hlt
    have hle : ¬ p < mem (addr r) :=
      BitVec.not_lt.mpr (hpart.low r hparted.start_le (Nat.lt_succ_self r))
    exact ⟨r, hparted, moves fun _ => (if_neg hne).trans (if_neg hle)⟩

end Scans

end Hthreads.HwAcc.QuickSort
