import Mathlib.Tactic

/-! Ciphers made of rounds: a keyed layer, a mixing that undoes itself and a swap that the keyed
layer commutes with up to a change of its key. -/

namespace Hthreads.Library

structure Layers (β κ μ : Type*) where
  key : κ → β → β
  mix : μ → β → β
  swap : β → β
  inverse : κ → κ
  swapped : κ → κ
  key_inverse : ∀ k x, key (inverse k) (key k x) = x
  mix_mix : ∀ m x, mix m (mix m x) = x
  swap_swap : ∀ x, swap (swap x) = x
  swap_key : ∀ k x, swap (key k x) = key (swapped k) (swap x)

namespace Layers

variable {β κ μ : Type*} (L : Layers β κ μ) (n : ℕ) (k : ℕ → κ) (m : ℕ → μ)

def round (k : κ) (m : μ) (x : β) : β := L.swap (L.mix m (L.key k x))

def rounds : ℕ → β → β
  | 0, x => x
  | r + 1, x => L.round (k r) (m r) (rounds r x)

/-- `n` rounds, whose last swap is undone before the last key. -/
def cipher (x : β) : β := L.key (k n) (L.swap (L.rounds k m n x))

def keysBack (r : ℕ) : κ :=
  if r = 0 then L.inverse (k n)
  else if r = n then L.inverse (k 0)
  else L.inverse (L.swapped (k (n - r)))

def mixesBack (r : ℕ) : μ := m (n - 1 - r)

lemma swap_round (k : κ) (m : μ) (x : β) : L.swap (L.round k m x) = L.mix m (L.key k x) :=
  L.swap_swap _

lemma rounds_congr {k k' : ℕ → κ} {m m' : ℕ → μ} {r : ℕ} (hk : ∀ i < r, k i = k' i)
    (hm : ∀ i < r, m i = m' i) (x : β) : L.rounds k m r x = L.rounds k' m' r x := by
  induction r with
  | zero => rfl
  | succ r ih =>
    rw [rounds, rounds, hk r (Nat.lt_succ_self r), hm r (Nat.lt_succ_self r),
      ih (fun i hi => hk i (Nat.lt_succ_of_lt hi)) fun i hi => hm i (Nat.lt_succ_of_lt hi)]

/-- A cipher of `n` rounds has `n + 1` keys for its layers and `n` for its mixings. -/
lemma cipher_congr {n : ℕ} {k k' : ℕ → κ} {m m' : ℕ → μ} (hk : ∀ i ≤ n, k i = k' i)
    (hm : ∀ i < n, m i = m' i) (x : β) : L.cipher n k m x = L.cipher n k' m' x := by
  rw [cipher, cipher, hk n (Nat.le_refl n), L.rounds_congr (fun i hi => hk i (Nat.le_of_lt hi)) hm]

-- the key that round `r` of the way back has to take off
def keyAhead (r : ℕ) : κ := if r = 0 then k n else L.swapped (k (n - r))

lemma keysBack_eq {r : ℕ} (h : r < n) : L.keysBack n k r = L.inverse (L.keyAhead n k r) := by
  rw [keysBack, keyAhead, if_neg (Nat.ne_of_lt h)]
  split <;> rfl

lemma round_back (k k' : κ) (m : μ) (x : β) :
    L.round (L.inverse k') m (L.key k' (L.swap (L.round k m x))) =
      L.key (L.swapped k) (L.swap x) := by
  rw [round, L.key_inverse, L.swap_round, L.mix_mix, L.swap_key]

lemma rounds_back (x : β) {r : ℕ} (hr : r ≤ n) :
    L.rounds (L.keysBack n k) (mixesBack n m) r (L.cipher n k m x) =
      L.key (L.keyAhead n k r) (L.swap (L.rounds k m (n - r) x)) := by
  induction r with
  | zero => rfl
  | succ r ih =>
    have hlast : n - r = n - (r + 1) + 1 := by omega
    have hmix : mixesBack n m r = m (n - (r + 1)) := congrArg m (by omega)
    rw [rounds, ih (by omega), L.keysBack_eq n k (by omega), hlast, rounds, hmix, L.round_back,
      keyAhead, if_neg (Nat.succ_ne_zero r)]

theorem cipher_back (hn : 0 < n) (x : β) :
    L.cipher n (L.keysBack n k) (mixesBack n m) (L.cipher n k m x) = x := by
  have hne : n ≠ 0 := by omega
  rw [cipher, L.rounds_back n k m x (Nat.le_refl n), keyAhead, if_neg hne, Nat.sub_self, rounds,
    ← L.swap_key, L.swap_swap, keysBack, if_neg hne, if_pos rfl, L.key_inverse]

end Layers

end Hthreads.Library
