import Mathlib.Tactic
import Mathlib.Logic.Function.Iterate

/-! A clocked machine under a stream of inputs: where it gets to whenever it is started, its runs up
to a state, and progress along an infinite run. -/

namespace Hthreads.Library

section Arrivals

variable {σ ι : Type*} {step : ι → σ → σ} {inputs : ℕ → ι} {s t u : σ}

/-- The state after `n` cycles, of which the first is cycle `k`. -/
def clocked (step : ι → σ → σ) (inputs : ℕ → ι) : ℕ → ℕ → σ → σ
  | _, 0, s => s
  | k, n + 1, s => clocked step inputs (k + 1) n (step (inputs k) s)

lemma clocked_add (step : ι → σ → σ) (inputs : ℕ → ι) (k m n : ℕ) (s : σ) :
    clocked step inputs k (m + n) s =
      clocked step inputs (k + m) n (clocked step inputs k m s) := by
  induction m generalizing k s with
  | zero => rw [Nat.zero_add]; rfl
  | succ m ih =>
    rw [Nat.add_right_comm, clocked, ih, clocked]
    congr 1
    omega

lemma clocked_succ (step : ι → σ → σ) (inputs : ℕ → ι) (k n : ℕ) (s : σ) :
    clocked step inputs k (n + 1) s = step (inputs (k + n)) (clocked step inputs k n s) :=
  clocked_add step inputs k n 1 s

lemma exists_of_wait {P helpful : ℕ → Prop} (hfair : ∀ k, ∃ m ≥ k, helpful m)
    (hstay : ∀ k, P k → ¬ helpful k → P (k + 1)) {k : ℕ} (h : P k) : ∃ m ≥ k, P m ∧ helpful m := by
  obtain ⟨m, hm, hhelpful⟩ := hfair k
  obtain ⟨d, rfl⟩ := Nat.exists_eq_add_of_le hm
  induction d generalizing k with
  | zero => exact ⟨k, le_refl k, h, hhelpful⟩
  | succ d ih =>
    by_cases hk : helpful k
    · exact ⟨k, le_refl k, h, hk⟩
    · have hlater : k + (d + 1) = k + 1 + d := by omega
      rw [hlater] at hhelpful
      obtain ⟨m, hm, hrest⟩ := ih (hstay k h hk) (Nat.le_add_right _ _) hhelpful
      exact ⟨m, by omega, hrest⟩

/-- From `s` the machine gets to `t`, at whatever cycle it is in `s`. -/
def Leads (step : ι → σ → σ) (inputs : ℕ → ι) (s t : σ) : Prop :=
  ∀ k, ∃ n, clocked step inputs k n s = t

namespace Leads

lemma refl (s : σ) : Leads step inputs s s := fun _ => ⟨0, rfl⟩

lemma trans (h : Leads step inputs s t) (h' : Leads step inputs t u) : Leads step inputs s u := by
  intro k
  obtain ⟨m, hm⟩ := h k
  obtain ⟨n, hn⟩ := h' (k + m)
  exact ⟨m + n, by rw [clocked_add, hm, hn]⟩

lemma of_step (h : ∀ i, step i s = t) : Leads step inputs s t := fun _ => ⟨1, h _⟩

lemma cons (h : ∀ i, step i s = t) (h' : Leads step inputs t u) : Leads step inputs s u :=
  (of_step h).trans h'

lemma of_wait (helpful : ι → Prop) (hfair : ∀ k, ∃ m ≥ k, helpful (inputs m))
    (hstay : ∀ i, ¬ helpful i → step i s = s) (hleave : ∀ i, helpful i → step i s = t) :
    Leads step inputs s t := by
  intro k
  obtain ⟨m, hm, hhelpful⟩ := hfair k
  obtain ⟨d, rfl⟩ := Nat.exists_eq_add_of_le hm
  induction d generalizing k with
  | zero => exact ⟨1, hleave _ hhelpful⟩
  | succ d ih =>
    by_cases hk : helpful (inputs k)
    · exact ⟨1, hleave _ hk⟩
    · have hlater : k + (d + 1) = k + 1 + d := by omega
      rw [hlater] at hhelpful
      obtain ⟨n, hn⟩ := ih (k + 1) (Nat.le_add_right _ _) hhelpful
      exact ⟨n + 1, by rw [clocked, hstay _ hk, hn]⟩

end Leads

end Arrivals

section Runs

variable {σ ι : Type*}

/-- Clock the machine until `stop` holds, for at most the given number of cycles. -/
def runUntil (step : ι → σ → σ) (stop : σ → Bool) (inputs : ℕ → ι) : ℕ → ℕ → σ → σ
  | 0, _, s => s
  | n + 1, k, s => if stop s then s else runUntil step stop inputs n (k + 1) (step (inputs k) s)

lemma runUntil_stop (step : ι → σ → σ) {stop : σ → Bool} (inputs : ℕ → ι) (n k : ℕ) {s : σ}
    (h : stop s = true) : runUntil step stop inputs n k s = s := by
  cases n with
  | zero => rfl
  | succ n => simp [runUntil, h]

lemma runUntil_step (step : ι → σ → σ) {stop : σ → Bool} (inputs : ℕ → ι) (n k : ℕ) {s : σ}
    (h : stop s = false) :
    runUntil step stop inputs (n + 1) k s =
      runUntil step stop inputs n (k + 1) (step (inputs k) s) := by
  simp [runUntil, h]

lemma runUntil_congr (step : ι → σ → σ) (stop : σ → Bool) {inputs inputs' : ℕ → ι} (n k k' : ℕ)
    (s : σ) (h : ∀ j, inputs (k + j) = inputs' (k' + j)) :
    runUntil step stop inputs n k s = runUntil step stop inputs' n k' s := by
  induction n generalizing k k' s with
  | zero => rfl
  | succ n ih =>
    have hk : inputs k = inputs' k' := h 0
    have htail : ∀ j, inputs (k + 1 + j) = inputs' (k' + 1 + j) := by
      intro j
      simpa only [Nat.add_assoc] using h (1 + j)
    rw [runUntil, runUntil, hk, ih (k + 1) (k' + 1) _ htail]

lemma runUntil_after (step : ι → σ → σ) {stop : σ → Bool} (inputs : ℕ → ι) {P : σ → Prop}
    (hP : ∀ k s, P (step (inputs k) s)) (n k : ℕ) {s : σ} (h : stop s = false) :
    P (runUntil step stop inputs (n + 1) k s) := by
  induction n generalizing k s with
  | zero =>
    rw [runUntil_step step inputs 0 k h]
    exact hP k s
  | succ n ih =>
    rw [runUntil_step step inputs (n + 1) k h]
    cases hs : stop (step (inputs k) s) with
    | true =>
      rw [runUntil_stop step inputs (n + 1) (k + 1) hs]
      exact hP k s
    | false => exact ih (k + 1) hs

lemma runUntil_mono (step : ι → σ → σ) {stop : σ → Bool} (inputs : ℕ → ι) {n m : ℕ} (k : ℕ)
    {s : σ} (hnm : n ≤ m) (h : stop (runUntil step stop inputs n k s) = true) :
    runUntil step stop inputs m k s = runUntil step stop inputs n k s := by
  induction n generalizing m k s with
  | zero => exact runUntil_stop step inputs m k h
  | succ n ih =>
    obtain ⟨m, rfl⟩ : ∃ j, m = j + 1 := ⟨m - 1, by omega⟩
    cases hs : stop s with
    | true => rw [runUntil_stop step inputs _ k hs, runUntil_stop step inputs _ k hs]
    | false =>
      rw [runUntil_step step inputs n k hs] at h ⊢
      rw [runUntil_step step inputs m k hs]
      exact ih (k + 1) (by omega) h

end Runs

section Progress

variable {σ : Type*} {s : ℕ → σ} {helpful : ℕ → Prop} {P R : σ → Prop} {k : ℕ}

lemma leadsTo_of_helpful (hfair : ∃ m ≥ k, helpful m)
    (hstay : ∀ n, P (s n) → P (s (n + 1)) ∨ R (s (n + 1)))
    (hhelp : ∀ n, helpful n → P (s n) → R (s (n + 1))) (hk : P (s k)) : ∃ m ≥ k, R (s m) := by
  obtain ⟨m, hm, hhelpful⟩ := hfair
  have hlasts : ∀ n, P (s (k + n)) ∨ ∃ j ≥ k, R (s j) := by
    intro n
    induction n with
    | zero => exact .inl hk
    | succ n ih =>
      rcases ih with hP | hR
      · rcases hstay (k + n) hP with hP | hR
        · exact .inl hP
        · exact .inr ⟨k + n + 1, by omega, hR⟩
      · exact .inr hR
  rcases hlasts (m - k) with hP | hR
  · rw [Nat.add_sub_cancel' hm] at hP
    exact ⟨m + 1, by omega, hhelp m hhelpful hP⟩
  · exact hR

lemma leadsTo_trans {Q : σ → Prop} (h : ∃ m ≥ k, P (s m))
    (hnext : ∀ n, P (s n) → ∃ m ≥ n, Q (s m)) : ∃ m ≥ k, Q (s m) := by
  obtain ⟨m, hm, hP⟩ := h
  obtain ⟨j, hj, hQ⟩ := hnext m hP
  exact ⟨j, hm.trans hj, hQ⟩

end Progress

end Hthreads.Library
