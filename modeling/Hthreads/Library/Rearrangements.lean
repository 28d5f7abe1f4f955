import Mathlib.Data.List.Perm.Basic
import Mathlib.Data.List.Sort
import Mathlib.Data.List.Nodup
import Mathlib.Logic.Equiv.Basic
import Mathlib.Order.Interval.Set.Basic
import Mathlib.Tactic

/-! Arrays that hold the same values in another order, and runs on an array that stop at an access
outside of it. -/

namespace Hthreads.Library

inductive Stop
  | outOfBounds | outOfFuel
  deriving DecidableEq, Repr

lemma exists_of_bind_ok {ε α β : Type} {x : Except ε α} {f : α → Except ε β} {b : β}
    (h : x.bind f = .ok b) : ∃ a, x = .ok a ∧ f a = .ok b := by
  cases x with
  | error e => cases h
  | ok a => exact ⟨a, rfl, h⟩

section Accesses

variable {ι α : Type}

def load (valid : ι → Prop) [DecidablePred valid] (mem : ι → α) (i : ι) : Except Stop α :=
  if valid i then .ok (mem i) else .error .outOfBounds

def store [DecidableEq ι] (valid : ι → Prop) [DecidablePred valid] (mem : ι → α) (i : ι) (x : α) :
    Except Stop (ι → α) :=
  if valid i then .ok (Function.update mem i x) else .error .outOfBounds

variable {valid : ι → Prop} [DecidablePred valid] {mem : ι → α} {i : ι}

lemma load_of_valid (h : valid i) : load valid mem i = .ok (mem i) := if_pos h

lemma load_of_not_valid (h : ¬ valid i) : load valid mem i = .error .outOfBounds := if_neg h

lemma valid_of_load {x : α} (h : load valid mem i = .ok x) : valid i ∧ x = mem i := by
  rw [load] at h
  split_ifs at h with hi
  exact ⟨hi, (Except.ok.inj h).symm⟩

lemma valid_of_store [DecidableEq ι] {x : α} {mem' : ι → α} (h : store valid mem i x = .ok mem') :
    valid i ∧ mem' = Function.update mem i x := by
  rw [store] at h
  split_ifs at h with hi
  exact ⟨hi, (Except.ok.inj h).symm⟩

lemma store_of_valid [DecidableEq ι] (h : valid i) (x : α) :
    store valid mem i x = .ok (Function.update mem i x) :=
  if_pos h

end Accesses

variable {ι α β : Type} {s t : Set ι} {f g h : ι → α}

def exchange [DecidableEq ι] (f : ι → α) (i j : ι) : ι → α :=
  Function.update (Function.update f i (f j)) j (f i)

section Exchange

variable [DecidableEq ι] {i j k : ι}

lemma exchange_right (f : ι → α) (i j : ι) : exchange f i j j = f i := Function.update_self j _ _

lemma exchange_left (f : ι → α) (i j : ι) : exchange f i j i = f j := by
  rw [exchange, Function.update_apply, Function.update_self]
  split_ifs with h
  · rw [h]
  · rfl

lemma exchange_of_ne (hi : k ≠ i) (hj : k ≠ j) : exchange f i j k = f k := by
  rw [exchange, Function.update_of_ne hj, Function.update_of_ne hi]

end Exchange

/-- `g` holds the values of `f` in another order within `s`, and the same values outside. -/
def Rearranges (s : Set ι) (f g : ι → α) : Prop :=
  ∃ σ : Equiv.Perm ι, (∀ i ∉ s, σ i = i) ∧ g = f ∘ σ

namespace Rearranges

lemma refl (s : Set ι) (f : ι → α) : Rearranges s f f := ⟨1, fun _ _ => rfl, rfl⟩

lemma trans (hfg : Rearranges s f g) (hgh : Rearranges s g h) : Rearranges s f h := by
  obtain ⟨σ, hσ, rfl⟩ := hfg
  obtain ⟨τ, hτ, rfl⟩ := hgh
  refine ⟨τ.trans σ, fun i hi => ?_, rfl⟩
  rw [Equiv.trans_apply, hτ i hi, hσ i hi]

lemma symm (h : Rearranges s f g) : Rearranges s g f := by
  obtain ⟨σ, hσ, rfl⟩ := h
  refine ⟨σ.symm, fun i hi => ?_, ?_⟩
  · rw [Equiv.symm_apply_eq, hσ i hi]
  · rw [Function.comp_assoc, Equiv.self_comp_symm, Function.comp_id]

lemma mono (hst : s ⊆ t) (h : Rearranges s f g) : Rearranges t f g := by
  obtain ⟨σ, hσ, rfl⟩ := h
  exact ⟨σ, fun i hi => hσ i fun his => hi (hst his), rfl⟩

lemma outside (h : Rearranges s f g) {i : ι} (hi : i ∉ s) : g i = f i := by
  obtain ⟨σ, hσ, rfl⟩ := h
  rw [Function.comp_apply, hσ i hi]

lemma mem_iff_of_fixes {σ : Equiv.Perm ι} (hσ : ∀ i ∉ s, σ i = i) (i : ι) : σ i ∈ s ↔ i ∈ s := by
  by_cases hi : i ∈ s
  · refine iff_of_true ?_ hi
    by_contra hout
    exact hout ((σ.injective (hσ (σ i) hout)).symm ▸ hi)
  · rw [hσ i hi]

lemma source (h : Rearranges s f g) {i : ι} (hi : i ∈ s) : ∃ j ∈ s, g i = f j := by
  obtain ⟨σ, hσ, rfl⟩ := h
  exact ⟨σ i, (mem_iff_of_fixes hσ i).mpr hi, rfl⟩

lemma sources (h : Rearranges s f g) {i j : ι} (hi : i ∈ s) (hj : j ∈ s) (hij : i ≠ j) :
    ∃ i' ∈ s, ∃ j' ∈ s, i' ≠ j' ∧ g i = f i' ∧ g j = f j' := by
  obtain ⟨σ, hσ, rfl⟩ := h
  exact ⟨σ i, (mem_iff_of_fixes hσ i).mpr hi, σ j, (mem_iff_of_fixes hσ j).mpr hj,
    fun heq => hij (σ.injective heq), rfl, rfl⟩

lemma forall_mem (h : Rearranges s f g) {P : α → Prop} (hf : ∀ i ∈ s, P (f i)) :
    ∀ i ∈ s, P (g i) := by
  intro i hi
  obtain ⟨j, hj, hij⟩ := h.source hi
  exact hij ▸ hf j hj

lemma exchange [DecidableEq ι] {i j : ι} (hi : i ∈ s) (hj : j ∈ s) :
    Rearranges s f (exchange f i j) := by
  refine ⟨Equiv.swap i j, fun k hk => ?_, ?_⟩
  · exact Equiv.swap_apply_of_ne_of_ne (fun he => hk (he ▸ hi)) fun he => hk (he ▸ hj)
  · funext k
    by_cases hki : k = i
    · rw [hki, exchange_left, Function.comp_apply, Equiv.swap_apply_left]
    · by_cases hkj : k = j
      · rw [hkj, exchange_right, Function.comp_apply, Equiv.swap_apply_right]
      · rw [exchange_of_ne hki hkj, Function.comp_apply, Equiv.swap_apply_of_ne_of_ne hki hkj]

lemma perm [DecidableEq ι] (h : Rearranges s f g) {l : List ι} (hl : l.Nodup)
    (hmem : ∀ i, i ∈ l ↔ i ∈ s) : (l.map g).Perm (l.map f) := by
  obtain ⟨σ, hσ, rfl⟩ := h
  rw [← List.map_map]
  refine List.Perm.map f ((List.perm_ext_iff_of_nodup (hl.map σ.injective) hl).mpr fun i => ?_)
  rw [List.mem_map]
  constructor
  · rintro ⟨j, hj, rfl⟩
    exact (hmem _).mpr ((mem_iff_of_fixes hσ j).mpr ((hmem j).mp hj))
  · intro hi
    refine ⟨σ.symm i, (hmem _).mpr ((mem_iff_of_fixes hσ _).mp ?_), σ.apply_symm_apply i⟩
    rw [σ.apply_symm_apply]
    exact (hmem i).mp hi

end Rearranges

/-- The keys of the values do not decrease from place to place. -/
def Ascends [LE ι] [LE β] (key : α → β) (s : Set ι) (f : ι → α) : Prop :=
  ∀ i ∈ s, ∀ j ∈ s, i ≤ j → key (f i) ≤ key (f j)

lemma Rearranges.eq_of_ascends [DecidableEq ι] [LE ι] [PartialOrder β] {key : α → β}
    (hkey : Function.Injective key) (hg : Rearranges s f g) (hh : Rearranges s f h)
    (hg' : Ascends key s g) (hh' : Ascends key s h) {l : List ι} (hl : l.Nodup)
    (hmem : ∀ i, i ∈ l ↔ i ∈ s) (hsorted : l.Pairwise (· ≤ ·)) : g = h := by
  have hperm : (l.map g).Perm (l.map h) := (hg.perm hl hmem).trans (hh.perm hl hmem).symm
  have hpairwise {f : ι → α} (hf : Ascends key s f) :
      ((l.map f).map key).Pairwise (· ≤ ·) := by
    rw [List.map_map, List.pairwise_map]
    exact hsorted.imp_of_mem fun hi hj hij => hf _ ((hmem _).mp hi) _ ((hmem _).mp hj) hij
  have hkeys : (l.map g).map key = (l.map h).map key :=
    (hperm.map key).eq_of_pairwise' (hpairwise hg') (hpairwise hh')
  have hvalues : l.map g = l.map h := List.map_injective_iff.mpr hkey hkeys
  funext i
  by_cases hi : i ∈ s
  · exact List.map_inj_left.mp hvalues i ((hmem i).mpr hi)
  · rw [hg.outside hi, hh.outside hi]

end Hthreads.Library
