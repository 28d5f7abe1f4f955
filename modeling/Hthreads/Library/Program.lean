import Mathlib.Data.Option.Basic

/-! Programs that issue requests to a machine one after the other and go on with the answers. -/

namespace Hthreads.Library

inductive Program (ι β α : Type)
  | done (a : α)
  | request (i : ι) (next : β → Program ι β α)

namespace Program

variable {ι β α γ σ τ : Type}

def bind : Program ι β α → (α → Program ι β γ) → Program ι β γ
  | done a, f => f a
  | request i next, f => request i fun b => (next b).bind f

instance : Monad (Program ι β) where
  pure := done
  bind := bind

def issue (i : ι) : Program ι β β := request i done

/-- The whole program on a machine. A request that is never answered stops it. -/
def run (step : ι → σ → Option (σ × β)) : Program ι β α → σ → Option (σ × α)
  | done a, s => some (s, a)
  | request i next, s => (step i s).bind fun p => (next p.2).run step p.1

variable {step : ι → σ → Option (σ × β)} {s : σ}

@[simp] lemma run_done (a : α) : (done a : Program ι β α).run step s = some (s, a) := rfl

@[simp] lemma run_pure (a : α) : (pure a : Program ι β α).run step s = some (s, a) := rfl

@[simp] lemma run_issue (i : ι) : (issue i : Program ι β β).run step s = step i s := by
  rw [issue, run]
  cases step i s with
  | none => rfl
  | some p => rfl

@[simp] lemma run_bind (p : Program ι β α) (f : α → Program ι β γ) :
    (p >>= f).run step s = (p.run step s).bind fun q => (f q.2).run step q.1 := by
  change (p.bind f).run step s = _
  induction p generalizing s with
  | done a => rfl
  | request i next ih =>
    rw [bind, run, run, Option.bind_assoc]
    congr 1
    funext q
    exact ih q.2

/-- Two machines answer alike: both not at all, or with the same value and in related states. -/
def Alike {δ : Type} (R : σ → τ → Prop) (x : Option (σ × δ)) (y : Option (τ × δ)) : Prop :=
  Option.Rel (fun p q => R p.1 q.1 ∧ p.2 = q.2) x y

lemma run_alike {step' : ι → τ → Option (τ × β)} {R : σ → τ → Prop}
    (hstep : ∀ i s t, R s t → Alike R (step i s) (step' i t)) (p : Program ι β α) {t : τ}
    (h : R s t) : Alike R (p.run step s) (p.run step' t) := by
  induction p generalizing s t with
  | done a => exact .some ⟨h, rfl⟩
  | request i next ih =>
    have hone := hstep i s t h
    rw [run, run]
    cases hs : step i s with
    | none =>
      rw [hs] at hone
      cases ht : step' i t with
      | none => exact .none
      | some q =>
        rw [ht] at hone
        cases hone
    | some q =>
      rw [hs] at hone
      cases ht : step' i t with
      | none =>
        rw [ht] at hone
        cases hone
      | some q' =>
        rw [ht] at hone
        obtain ⟨hrel, hans⟩ : R q.1 q'.1 ∧ q.2 = q'.2 := by
          cases hone
          assumption
        simp only [Option.bind_some, hans]
        exact ih q'.2 hrel

lemma Alike.exists_right {δ : Type} {R : σ → τ → Prop} {x : σ × δ} {y : Option (τ × δ)}
    (h : Alike R (some x) y) : ∃ t, y = some (t, x.2) ∧ R x.1 t := by
  cases h with
  | some hxy => exact ⟨_, by rw [hxy.2], hxy.1⟩

lemma Alike.exists_left {δ : Type} {R : σ → τ → Prop} {x : Option (σ × δ)} {y : τ × δ}
    (h : Alike R x (some y)) : ∃ s, x = some (s, y.2) ∧ R s y.1 := by
  cases h with
  | some hxy => exact ⟨_, by rw [← hxy.2], hxy.1⟩

end Program

end Hthreads.Library
