import Hthreads.Library.Program
import Mathlib.Logic.Relation

/-! The outcomes of a program on a machine that can answer a request in several ways, and programs
that are sure to come to their end: whatever the machine answers, it goes on answering. -/

namespace Hthreads.Library

namespace Program

variable {ι κ β α γ σ : Type}

/-- The same program with its requests sent elsewhere. -/
def via (f : ι → κ) : Program ι β α → Program κ β α
  | done a => done a
  | request i next => request (f i) fun b => (next b).via f

/-- The program can come to its end with this result and in this state. -/
def Ends (step : ι → σ → σ → β → Prop) : Program ι β α → σ → α → σ → Prop
  | done a, s, a', s' => a = a' ∧ s = s'
  | request i next, s, a', s' => ∃ t b, step i s t b ∧ (next b).Ends step t a' s'

/-- Wherever the program comes to its end, `Q` holds of its result and of the state. -/
def Always (step : ι → σ → σ → β → Prop) : Program ι β α → (α → σ → Prop) → σ → Prop
  | done a, Q, s => Q a s
  | request i next, Q, s => ∀ t b, step i s t b → (next b).Always step Q t

variable {step : ι → σ → σ → β → Prop} {s : σ} {Q R : α → σ → Prop}

lemma Always.ends {p : Program ι β α} {a : α} {t : σ} (h : p.Always step Q s)
    (he : p.Ends step s a t) : Q a t := by
  induction p generalizing s with
  | done a =>
    obtain ⟨rfl, rfl⟩ := he
    exact h
  | request i next ih =>
    obtain ⟨u, b, hstep, he⟩ := he
    exact ih b (h u b hstep) he

lemma Always.mono {p : Program ι β α} (h : p.Always step Q s) (hQ : ∀ a t, Q a t → R a t) :
    p.Always step R s := by
  induction p generalizing s with
  | done a => exact hQ a s h
  | request i next ih => exact fun t b hstep => ih b (h t b hstep)

@[simp] lemma always_pure (a : α) : (pure a : Program ι β α).Always step Q s ↔ Q a s := Iff.rfl

@[simp] lemma always_issue {Q : β → σ → Prop} (i : ι) :
    (issue i : Program ι β β).Always step Q s ↔ ∀ t b, step i s t b → Q b t := Iff.rfl

@[simp] lemma always_bind {Q : γ → σ → Prop} (p : Program ι β α) (f : α → Program ι β γ) :
    (p >>= f).Always step Q s ↔ p.Always step (fun a => (f a).Always step Q) s := by
  change (p.bind f).Always step Q s ↔ _
  induction p generalizing s with
  | done a => rfl
  | request i next ih =>
    rw [bind, Always, Always]
    exact forall_congr' fun t => forall_congr' fun b => imp_congr_right fun _ => ih b

lemma always_via {step : κ → σ → σ → β → Prop} (f : ι → κ) (p : Program ι β α) :
    (p.via f).Always step Q s ↔ p.Always (fun i => step (f i)) Q s := by
  induction p generalizing s with
  | done a => rfl
  | request i next ih =>
    rw [via, Always, Always]
    exact forall_congr' fun t => forall_congr' fun b => imp_congr_right fun _ => ih b

lemma ends_of_run {choose : ι → σ → Option (σ × β)}
    (hchoose : ∀ i s t b, choose i s = some (t, b) → step i s t b) {p : Program ι β α} {a : α}
    {t : σ} (h : p.run choose s = some (t, a)) : p.Ends step s a t := by
  induction p generalizing s with
  | done a =>
    cases h
    exact ⟨rfl, rfl⟩
  | request i next ih =>
    rw [run, Option.bind_eq_some_iff] at h
    obtain ⟨⟨u, b⟩, hone, h⟩ := h
    exact ⟨u, b, hchoose i s u b hone, ih b h⟩

end Program

namespace Program

variable {ι β α γ σ : Type} {step : ι → σ → σ → β → Prop} {s : σ} {Q R : α → σ → Prop}

/-- The program comes to its end on every run of the machine, and `Q` holds of its result and of the
state there. -/
def Total (step : ι → σ → σ → β → Prop) : Program ι β α → (α → σ → Prop) → σ → Prop
  | done a, Q, s => Q a s
  | request i next, Q, s =>
    (∃ t b, step i s t b) ∧ ∀ t b, step i s t b → (next b).Total step Q t

lemma Total.always {p : Program ι β α} (h : p.Total step Q s) : p.Always step Q s := by
  induction p generalizing s with
  | done a => exact h
  | request i next ih => exact fun t b hstep => ih b (h.2 t b hstep)

lemma Total.exists_ends {p : Program ι β α} (h : p.Total step Q s) :
    ∃ a t, p.Ends step s a t := by
  induction p generalizing s with
  | done a => exact ⟨a, s, rfl, rfl⟩
  | request i next ih =>
    obtain ⟨⟨t, b, hstep⟩, hrest⟩ := h
    obtain ⟨a, u, hends⟩ := ih b (hrest t b hstep)
    exact ⟨a, u, t, b, hstep, hends⟩

lemma Total.mono {p : Program ι β α} (h : p.Total step Q s) (hQ : ∀ a t, Q a t → R a t) :
    p.Total step R s := by
  induction p generalizing s with
  | done a => exact hQ a s h
  | request i next ih => exact ⟨h.1, fun t b hstep => ih b (h.2 t b hstep)⟩

@[simp] lemma total_pure (a : α) : (pure a : Program ι β α).Total step Q s ↔ Q a s := Iff.rfl

@[simp] lemma total_bind {Q : γ → σ → Prop} (p : Program ι β α) (f : α → Program ι β γ) :
    (p >>= f).Total step Q s ↔ p.Total step (fun a => (f a).Total step Q) s := by
  change (p.bind f).Total step Q s ↔ _
  induction p generalizing s with
  | done a => rfl
  | request i next ih =>
    rw [bind, Total, Total]
    exact and_congr_right fun _ =>
      forall_congr' fun t => forall_congr' fun b => imp_congr_right fun _ => ih b

lemma total_issue {Q : β → σ → Prop} (i : ι) :
    (issue i : Program ι β β).Total step Q s ↔
      (∃ t b, step i s t b) ∧ ∀ t b, step i s t b → Q b t := Iff.rfl

lemma total_issue_of_unique {Q : β → σ → Prop} {i : ι} {t : σ} {b : β}
    (h : ∀ u c, step i s u c ↔ u = t ∧ c = b) :
    (issue i : Program ι β β).Total step Q s ↔ Q b t := by
  rw [total_issue]
  constructor
  · rintro ⟨-, hrest⟩
    exact hrest t b ((h t b).mpr ⟨rfl, rfl⟩)
  · intro hQ
    refine ⟨⟨t, b, (h t b).mpr ⟨rfl, rfl⟩⟩, fun u c hstep => ?_⟩
    obtain ⟨rfl, rfl⟩ := (h u c).mp hstep
    exact hQ

end Program

section Deterministic

variable {σ : Type} {next : σ → Option σ} {s t u : σ}

/-- What a machine that makes its next step on its own can come to. -/
abbrev Moves (next : σ → Option σ) : σ → σ → Prop :=
  Relation.ReflTransGen fun s t => next s = some t

lemma moves_iff_of_none (h : next s = none) : Moves next s t ↔ t = s := by
  constructor
  · intro hmoves
    rcases hmoves.cases_head with rfl | ⟨u, hu, -⟩
    · rfl
    · rw [h] at hu
      cases hu
  · rintro rfl
    exact .refl

lemma moves_iff_of_some (h : next s = some u) : Moves next s t ↔ t = s ∨ Moves next u t := by
  constructor
  · intro hmoves
    rcases hmoves.cases_head with rfl | ⟨v, hv, hrest⟩
    · exact .inl rfl
    · rw [h] at hv
      cases hv
      exact .inr hrest
  · rintro (rfl | hrest)
    · exact .refl
    · exact .head h hrest

/-- A machine that comes to rest comes to rest there from everywhere on its way. -/
lemma Moves.rest (h : Moves next s u) (hrest : next u = none) (hmid : Moves next s t) :
    Moves next t u := by
  induction hmid with
  | refl => exact h
  | tail _ hone ih =>
    rcases ih.cases_head with rfl | ⟨v, hv, hmoves⟩
    · rw [hrest] at hone
      cases hone
    · rw [hone] at hv
      cases hv
      exact hmoves

end Deterministic

end Hthreads.Library
