import Hthreads.Accelerators.QuickSort

/-! Which arrays `poly_quickSort` sorts: those in which every part that it comes to is divided. -/

namespace Hthreads.Accelerators

open Library Software

variable {valid valid' : ℤ → Prop} {mem mem' mem₁ : Memory} {p : Huint} {s e l r l' r' : ℤ}

def Agrees (valid : ℤ → Prop) (mem mem' : Memory) : Prop := ∀ i, valid i → mem i = mem' i

lemma Agrees.mono (hagree : Agrees valid mem mem') (hsub : ∀ i, valid' i → valid i) :
    Agrees valid' mem mem' := fun i hi => hagree i (hsub i hi)

section Stability

-- a run that ends does the same on a memory with the same elements, with more of it accessible and
-- with more fuel

variable [DecidablePred valid] [DecidablePred valid']
variable (hsub : ∀ i, valid i → valid' i) (hagree : Agrees valid mem mem')
include hsub hagree

lemma load_stable {i : ℤ} {x : Huint} (h : load valid mem i = .ok x) :
    load valid' mem' i = .ok x := by
  obtain ⟨hi, rfl⟩ := valid_of_load h
  rw [load_of_valid (hsub i hi), hagree i hi]

lemma advanceLeft_stable (h : advanceLeft valid mem p l r = .ok l') :
    advanceLeft valid' mem' p l r = .ok l' := by
  fun_induction advanceLeft valid mem p l r with
  | case1 l hlt ih =>
    obtain ⟨x, hx, h⟩ := exists_of_bind_ok h
    rw [advanceLeft, if_pos hlt, load_stable hsub hagree hx]
    by_cases hle : x ≤ p
    · rw [if_pos hle] at h
      simpa only [bind, Except.bind, if_pos hle] using ih h
    · rw [if_neg hle] at h
      simpa only [bind, Except.bind, if_neg hle] using h
  | case2 l hge => rw [advanceLeft, if_neg hge, h]

lemma retreatRight_stable (h : retreatRight valid mem p l r = .ok r') :
    retreatRight valid' mem' p l r = .ok r' := by
  fun_induction retreatRight valid mem p l r with
  | case1 r hle ih =>
    obtain ⟨x, hx, h⟩ := exists_of_bind_ok h
    rw [retreatRight, if_pos hle, load_stable hsub hagree hx]
    by_cases hgt : x > p
    · rw [if_pos hgt] at h
      simpa only [bind, Except.bind, if_pos hgt] using ih h
    · rw [if_neg hgt] at h
      simpa only [bind, Except.bind, if_neg hgt] using h
  | case2 r hlt => rw [retreatRight, if_neg hlt, h]

lemma store_stable {i : ℤ} {x : Huint} (h : store valid mem i x = .ok mem₁) :
    ∃ mem₂, store valid' mem' i x = .ok mem₂ ∧ Agrees valid mem₁ mem₂ := by
  obtain ⟨hi, rfl⟩ := valid_of_store h
  refine ⟨_, store_of_valid (hsub i hi) x, fun j hj => ?_⟩
  rw [Function.update_apply, Function.update_apply, hagree j hj]

lemma swapEnds_stable (h : swapEnds valid mem l r = .ok mem₁) :
    ∃ mem₂, swapEnds valid' mem' l r = .ok mem₂ ∧ Agrees valid mem₁ mem₂ := by
  by_cases hlt : l < r
  · simp only [swapEnds, if_pos hlt] at h ⊢
    obtain ⟨x, hx, h⟩ := exists_of_bind_ok h
    obtain ⟨y, hy, h⟩ := exists_of_bind_ok h
    obtain ⟨m₁, hstore, h⟩ := exists_of_bind_ok h
    obtain ⟨m₂, hstore', hagree'⟩ := store_stable hsub hagree hstore
    rw [load_stable hsub hagree hx, load_stable hsub hagree hy]
    simp only [bind, Except.bind, hstore']
    exact store_stable hsub hagree' h
  · rw [swapEnds, if_neg hlt] at h ⊢
    cases h
    exact ⟨mem', rfl, hagree⟩

lemma chooseParts_stable {q : ℤ × ℤ} (h : chooseParts valid mem p l r = .ok q) :
    chooseParts valid' mem' p l r = .ok q := by
  obtain ⟨x, hx, h⟩ := exists_of_bind_ok h
  rw [chooseParts, load_stable hsub hagree hx]
  exact h

omit hagree in
lemma partitionLoop_stable {fuel fuel' : ℕ} (hfuel : fuel ≤ fuel') (hagree : Agrees valid mem mem')
    (h : partitionLoop valid fuel mem p l r = .ok (mem₁, l', r')) :
    ∃ mem₂, partitionLoop valid' fuel' mem' p l r = .ok (mem₂, l', r') ∧
      Agrees valid mem₁ mem₂ := by
  induction fuel generalizing fuel' mem mem' l r with
  | zero => cases h
  | succ fuel ih =>
    obtain ⟨fuel', rfl⟩ := Nat.exists_eq_add_of_lt hfuel
    by_cases hlt : l < r
    · simp only [partitionLoop, if_pos hlt] at h ⊢
      obtain ⟨a, hadvance, h⟩ := exists_of_bind_ok h
      obtain ⟨b, hretreat, h⟩ := exists_of_bind_ok h
      obtain ⟨m₁, hswap, h⟩ := exists_of_bind_ok h
      obtain ⟨m₂, hswap', hagree'⟩ := swapEnds_stable hsub hagree hswap
      rw [advanceLeft_stable hsub hagree hadvance]
      simp only [bind, Except.bind, retreatRight_stable hsub hagree hretreat, hswap']
      exact ih (by omega) hagree' h
    · simp only [partitionLoop, if_neg hlt] at h ⊢
      cases h
      exact ⟨mem', rfl, hagree⟩

lemma partition_stable {fuel fuel' : ℕ} (hfuel : fuel ≤ fuel')
    (h : partition valid fuel mem s e = .ok (mem₁, l, r)) :
    ∃ mem₂, partition valid' fuel' mem' s e = .ok (mem₂, l, r) ∧ Agrees valid mem₁ mem₂ := by
  obtain ⟨x, hx, h⟩ := exists_of_bind_ok h
  obtain ⟨y, hy, h⟩ := exists_of_bind_ok h
  obtain ⟨⟨m₁, a, b⟩, hloop, h⟩ := exists_of_bind_ok h
  obtain ⟨⟨a', b'⟩, hchoose, h⟩ := exists_of_bind_ok h
  cases h
  obtain ⟨m₂, hloop', hagree'⟩ := partitionLoop_stable hsub hfuel hagree hloop
  refine ⟨m₂, ?_, hagree'⟩
  simp only [partition, load_stable hsub hagree hx, load_stable hsub hagree hy, bind, Except.bind,
    hloop', chooseParts_stable hsub hagree' hchoose]
  rfl

end Stability

abbrev Between (s e i : ℤ) : Prop := s ≤ i ∧ i ≤ e

lemma between (s e : ℤ) : ∀ i, s ≤ i → i ≤ e → Between s e i := fun _ hi hi' => ⟨hi, hi'⟩

/-- The array, and then each part that the code makes of it, either has one element or is divided.
-/
inductive Divides : Memory → ℤ → ℤ → Prop
  | single (mem : Memory) (s : ℤ) : Divides mem s s
  | divide {mem mem' : Memory} {s m e : ℤ} (fuel : ℕ) : s < e → Divisible mem s e →
    partition (Between s e) fuel mem s e = .ok (mem', m, m + 1) →
    Divides mem' (m + 1) e → Divides mem' s m → Divides mem s e

lemma Divisible.congr (h : Divisible mem s e) (hse : s ≤ e)
    (hagree : Agrees (Between s e) mem mem') :
    Divisible mem' s e := by
  obtain ⟨i, hi, hi', hle⟩ := h
  refine ⟨i, hi, hi', ?_⟩
  rw [pivot, ← hagree i ⟨hi, hi'⟩, ← hagree s ⟨le_refl s, hse⟩, ← hagree e ⟨hse, le_refl e⟩]
  exact hle

lemma Divides.le (h : Divides mem s e) : s ≤ e := by
  cases h with
  | single => exact le_refl s
  | divide _ hlt => exact le_of_lt hlt

lemma Divides.congr (h : Divides mem s e) (hagree : Agrees (Between s e) mem mem') :
    Divides mem' s e := by
  induction h generalizing mem' with
  | single => exact .single _ _
  | @divide mem mem₁ s m e fuel hse hdiv hpart hright hleft ihright ihleft =>
    have hsm := hleft.le
    have hme := hright.le
    obtain ⟨mem₂, hpart', hagree'⟩ := partition_stable (fun _ hi => hi) hagree (le_refl fuel) hpart
    exact .divide fuel hse (hdiv.congr hse.le hagree) hpart'
      (ihright (hagree'.mono fun i hi => ⟨by have := hi.1; omega, hi.2⟩))
      (ihleft (hagree'.mono fun i hi => ⟨hi.1, by have := hi.2; omega⟩))

section Runs

variable [DecidablePred valid]

lemma partition_unique (hvalid : ∀ i, Between s e i → valid i) {fuel fuel' : ℕ}
    {mem₂ : Memory} (h : partition (Between s e) fuel mem s e = .ok (mem₁, l, r))
    (h' : partition valid fuel' mem s e = .ok (mem₂, l', r')) :
    l = l' ∧ r = r' ∧ Agrees (Between s e) mem₁ mem₂ := by
  obtain ⟨m₁, hrun, hagree⟩ := partition_stable hvalid (fun _ _ => rfl) (le_max_left fuel fuel') h
  obtain ⟨m₂, hrun', hagree'⟩ := partition_stable (fun _ hi => hi) (fun _ _ => rfl)
    (le_max_right fuel fuel') h'
  rw [hrun] at hrun'
  cases hrun'
  exact ⟨rfl, rfl, fun i hi => (hagree i hi).trans (hagree' i (hvalid i hi)).symm⟩

structure Call.Shrinks (c : Call) : Prop where
  start_le : c.callerStart ≤ c.startPtr
  nonempty : c.startPtr ≤ c.endPtr
  end_le : c.endPtr ≤ c.callerEnd
  smaller : c.endPtr - c.startPtr < c.callerEnd - c.callerStart

lemma polyQuickSort_single (fuel : ℕ) (mem : Memory) (s : ℤ) :
    polyQuickSort valid (fuel + 1) mem s s = .ok (success, mem, []) := if_pos rfl

lemma polyQuickSort_parts {fuel : ℕ} {v v' : Hint} {mem₂ mem₃ : Memory} {calls calls' : List Call}
    (hse : s < e) (hpart : partition valid fuel mem s e = .ok (mem₁, l, r))
    (hright : polyQuickSort valid fuel mem₁ r e = .ok (v, mem₂, calls))
    (hleft : polyQuickSort valid fuel mem₂ s l = .ok (v', mem₃, calls')) :
    polyQuickSort valid (fuel + 1) mem s e =
      .ok (success, mem₃, ⟨s, e, r, e⟩ :: calls ++ ⟨s, e, s, l⟩ :: calls') := by
  simp only [polyQuickSort, if_neg hse.ne, hpart, bind, Except.bind, hright, hleft]
  rfl

lemma parts_of_polyQuickSort {fuel : ℕ} {v : Hint} {calls : List Call} (hse : s < e)
    (h : polyQuickSort valid (fuel + 1) mem s e = .ok (v, mem', calls)) :
    ∃ mem₁ l r v₁ mem₂ calls₁ v₂ calls₂, partition valid fuel mem s e = .ok (mem₁, l, r) ∧
      polyQuickSort valid fuel mem₁ r e = .ok (v₁, mem₂, calls₁) ∧
      polyQuickSort valid fuel mem₂ s l = .ok (v₂, mem', calls₂) ∧
      calls = ⟨s, e, r, e⟩ :: calls₁ ++ ⟨s, e, s, l⟩ :: calls₂ := by
  simp only [polyQuickSort, if_neg hse.ne] at h
  obtain ⟨⟨mem₁, l, r⟩, hpart, h⟩ := exists_of_bind_ok h
  obtain ⟨⟨v₁, mem₂, calls₁⟩, hright, h⟩ := exists_of_bind_ok h
  obtain ⟨⟨v₂, mem₃, calls₂⟩, hleft, h⟩ := exists_of_bind_ok h
  cases h
  exact ⟨mem₁, l, r, v₁, mem₂, calls₁, v₂, calls₂, hpart, hright, hleft, rfl⟩

lemma ascends_of_parts {m : ℤ} {mem₂ mem₃ : Memory} (hparted : Parted mem s e mem₁ m)
    (hright : Rearranges (Set.Icc (m + 1) e) mem₁ mem₂)
    (hleft : Rearranges (Set.Icc s m) mem₂ mem₃)
    (hasc : Ascends id (Set.Icc (m + 1) e) mem₂) (hasc' : Ascends id (Set.Icc s m) mem₃) :
    Ascends id (Set.Icc s e) mem₃ := by
  have hsame : ∀ j, m < j → mem₃ j = mem₂ j := fun j hj =>
    hleft.outside fun hmem => absurd hmem.2 (by omega)
  have hsame' : ∀ i, i ≤ m → mem₂ i = mem₁ i := fun i hi =>
    hright.outside fun hmem => absurd hmem.1 (by omega)
  intro i hi j hj hij
  by_cases him : i ≤ m
  · by_cases hjm : j ≤ m
    · exact hasc' i ⟨hi.1, him⟩ j ⟨hj.1, hjm⟩ hij
    · obtain ⟨i', hi', hvalue⟩ := hleft.source (i := i) ⟨hi.1, him⟩
      obtain ⟨j', hj', hvalue'⟩ := hright.source (i := j) ⟨by omega, hj.2⟩
      rw [hvalue, hsame' i' hi'.2, hsame j (by omega), hvalue']
      exact hparted.between i' hi'.1 hi'.2 j' (by have := hj'.1; omega) hj'.2
  · rw [hsame i (by omega), hsame j (by omega)]
    exact hasc i ⟨by omega, hi.2⟩ j ⟨by omega, hj.2⟩ hij

lemma of_polyQuickSort {fuel : ℕ} {v : Hint} {calls : List Call}
    (hvalid : ∀ i, Between s e i → valid i) (hse : s ≤ e)
    (h : polyQuickSort valid fuel mem s e = .ok (v, mem', calls))
      (hcalls : ∀ c ∈ calls, c.Shrinks) :
    Divides mem s e ∧ Rearranges (Set.Icc s e) mem mem' ∧ Ascends id (Set.Icc s e) mem' := by
  induction fuel generalizing mem mem' s e v calls with
  | zero => cases h
  | succ fuel ih =>
    rcases hse.eq_or_lt with rfl | hlt
    · rw [polyQuickSort_single] at h
      cases h
      refine ⟨.single mem s, .refl _ _, fun i hi j hj _ => ?_⟩
      rw [le_antisymm hi.2 hi.1, le_antisymm hj.2 hj.1]
      exact BitVec.le_refl _
    · obtain ⟨mem₁, l, r, v₁, mem₂, calls₁, v₂, calls₂, hpart, hright, hleft, rfl⟩ :=
        parts_of_polyQuickSort hlt h
      have hcall : Call.Shrinks ⟨s, e, r, e⟩ := hcalls _ (by simp)
      have hdiv : Divisible mem s e := by
        by_contra hdiv
        have hsame := start_ge_of_partition (fun i hi hi' => hvalid i ⟨hi, hi'⟩) hlt hdiv hpart
        have hsmaller := hcall.smaller
        exact absurd hsmaller (by simp only; omega)
      obtain ⟨rfl, hparted⟩ :=
        parted_of_partition (fun i hi hi' => hvalid i ⟨hi, hi'⟩) hlt hdiv hpart
      have hsl := hparted.start_le
      have hle := hparted.lt_end
      obtain ⟨hdivr, hpermr, hascr⟩ := ih (fun i hi => hvalid i ⟨by have := hi.1; omega, hi.2⟩)
        (by omega) hright fun c hc => hcalls c (by simp [hc])
      obtain ⟨hdivl, hperml, hascl⟩ := ih (fun i hi => hvalid i ⟨hi.1, by have := hi.2; omega⟩)
        (by omega) hleft fun c hc => hcalls c (by simp [hc])
      refine ⟨?_, ?_, ascends_of_parts hparted hpermr hperml hascr hascl⟩
      · obtain ⟨mem₁', m, hpart', -⟩ := partition_spec (between s e)
          hlt hdiv (2 * (e - s) + 2).toNat (by omega)
        obtain ⟨rfl, -, hagree⟩ := partition_unique hvalid hpart' hpart
        refine .divide _ hlt hdiv hpart' (hdivr.congr fun i hi => ?_) (hdivl.congr fun i hi => ?_)
        · exact (hagree i ⟨by have := hi.1; omega, hi.2⟩).symm
        · rw [hpermr.outside fun hmem => absurd hi.2 (by have := hmem.1; omega)]
          exact (hagree i ⟨hi.1, by have := hi.2; omega⟩).symm
      · exact (hparted.perm.trans (hpermr.mono fun i hi => ⟨by have := hi.1; omega, hi.2⟩)).trans
          (hperml.mono fun i hi => ⟨hi.1, by have := hi.2; omega⟩)

lemma Divides.left_of_run {m : ℤ} {mem₂ : Memory} (h : Divides mem s m)
    (hagree : Agrees (Between s e) mem mem₁) (hme : m < e)
    (hright : Rearranges (Set.Icc (m + 1) e) mem₁ mem₂) : Divides mem₂ s m :=
  h.congr fun i hi => by
    rw [hright.outside fun hmem => absurd hi.2 (by have := hmem.1; omega)]
    exact hagree i ⟨hi.1, by have := hi.2; omega⟩

lemma Divides.right_of_part {m : ℤ} (h : Divides mem (m + 1) e)
    (hagree : Agrees (Between s e) mem mem₁) (hsm : s ≤ m) : Divides mem₁ (m + 1) e :=
  h.congr fun i hi => hagree i ⟨by have := hi.1; omega, hi.2⟩

lemma polyQuickSort_of_divides (hvalid : ∀ i, Between s e i → valid i) (h : Divides mem s e)
    (fuel : ℕ) (hfuel : 2 * (e - s) + 2 < fuel) :
    ∃ mem' calls, polyQuickSort valid fuel mem s e = .ok (success, mem', calls) ∧
      ∀ c ∈ calls, c.Shrinks := by
  induction fuel generalizing mem s e with
  | zero =>
    have := h.le
    omega
  | succ fuel ih =>
    cases h with
    | single => exact ⟨mem, [], polyQuickSort_single _ _ _, by simp⟩
    | @divide _ mem₁' _ m _ fuel' hlt hdiv hpart' hdivr hdivl =>
      obtain ⟨mem₁, m', hpart, hparted⟩ :=
        partition_spec (fun i hi hi' => hvalid i ⟨hi, hi'⟩) hlt hdiv
        fuel (by omega)
      obtain ⟨rfl, -, hagree⟩ := partition_unique hvalid hpart' hpart
      have hsm := hparted.start_le
      have hme := hparted.lt_end
      have hvalidr : ∀ i, Between (m + 1) e i → valid i := fun i hi =>
        hvalid i ⟨by have := hi.1; omega, hi.2⟩
      obtain ⟨mem₂, calls, hright, hcalls⟩ :=
        ih hvalidr (hdivr.right_of_part hagree hsm) (by omega)
      obtain ⟨-, hpermr, -⟩ := of_polyQuickSort hvalidr (by omega) hright hcalls
      obtain ⟨mem₃, calls', hleft, hcalls'⟩ := ih
        (fun i hi => hvalid i ⟨hi.1, by have := hi.2; omega⟩)
        (hdivl.left_of_run hagree hme hpermr) (by omega)
      refine ⟨mem₃, _, polyQuickSort_parts hlt hpart hright hleft, fun c hc => ?_⟩
      rcases List.mem_append.mp hc with hc | hc
      · rcases List.mem_cons.mp hc with rfl | hc
        · exact ⟨by simp only; omega, hme, le_refl e, by simp only; omega⟩
        · exact hcalls c hc
      · rcases List.mem_cons.mp hc with rfl | hc
        · exact ⟨le_refl s, hsm, hme.le, by simp only; omega⟩
        · exact hcalls' c hc

end Runs

lemma divides_of_small (h : ∀ i ∈ Set.Icc s e, (mem i).toNat < 2 ^ 31) (hse : s ≤ e) :
    Divides mem s e := by
  obtain ⟨n, hn⟩ : ∃ n : ℕ, e - s < n := ⟨(e - s + 1).toNat, by omega⟩
  induction n generalizing mem s e with
  | zero => omega
  | succ n ih =>
    rcases hse.eq_or_lt with rfl | hlt
    · exact .single mem s
    · have hdiv : Divisible mem s e := by
        have hx := h s ⟨le_refl s, hse⟩
        have hy := h e ⟨hse, le_refl e⟩
        have hpivot : (pivot mem s e).toNat = ((mem s).toNat + (mem e).toNat) / 2 := by
          have hsum : (mem s + mem e).toNat = (mem s).toNat + (mem e).toNat := by bv_omega
          rw [pivot, BitVec.toNat_udiv, hsum]
          rfl
        rcases Nat.le_total (mem s).toNat (mem e).toNat with hle | hle
        · exact ⟨s, le_refl s, hse, BitVec.le_def.mpr (by omega)⟩
        · exact ⟨e, hse, le_refl e, BitVec.le_def.mpr (by omega)⟩
      obtain ⟨mem', m, hpart, hparted⟩ := partition_spec (between s e)
        hlt hdiv (2 * (e - s) + 2).toNat (by omega)
      have hsmall := hparted.perm.forall_mem (P := fun x => x.toNat < 2 ^ 31) h
      have hsm := hparted.start_le
      have hme := hparted.lt_end
      exact .divide _ hlt hdiv hpart
        (ih (fun i hi => hsmall i ⟨by have := hi.1; omega, hi.2⟩) (by omega) (by omega))
        (ih (fun i hi => hsmall i ⟨hi.1, by have := hi.2; omega⟩) hsm (by omega))

structure CallState where
  mem : Memory
  startPtr : ℤ
  endPtr : ℤ

/-- Nothing is to be done, or the pivot that the call takes leaves an element for the left part. -/
def CallState.Divisible (q : CallState) : Prop :=
  q.startPtr = q.endPtr ∨ Accelerators.Divisible q.mem q.startPtr q.endPtr

/-- The calls that are reached within the fuel, the first one included. A call whose parting fails
makes no further ones, and the left part is reached when the run on the right part has ended. -/
def callStates (valid : ℤ → Prop) [DecidablePred valid] : ℕ → Memory → ℤ → ℤ → List CallState
  | 0, mem, startPtr, endPtr => [⟨mem, startPtr, endPtr⟩]
  | fuel + 1, mem, startPtr, endPtr =>
    ⟨mem, startPtr, endPtr⟩ ::
      if startPtr = endPtr then []
      else match partition valid fuel mem startPtr endPtr with
        | .error _ => []
        | .ok (mem, leftPtr, rightPtr) =>
          callStates valid fuel mem rightPtr endPtr ++
            match polyQuickSort valid fuel mem rightPtr endPtr with
            | .error _ => []
            | .ok (_, mem, _) => callStates valid fuel mem startPtr leftPtr

section Calls

variable [DecidablePred valid]

lemma callStates_start (fuel : ℕ) (mem : Memory) (s e : ℤ) :
    ⟨mem, s, e⟩ ∈ callStates valid fuel mem s e := by
  cases fuel <;> simp [callStates]

lemma callStates_right {fuel : ℕ} {q : CallState} (hse : s < e)
    (hpart : partition valid fuel mem s e = .ok (mem₁, l, r))
    (hq : q ∈ callStates valid fuel mem₁ r e) : q ∈ callStates valid (fuel + 1) mem s e := by
  simp only [callStates, if_neg hse.ne, hpart]
  exact List.mem_cons_of_mem _ (List.mem_append_left _ hq)

lemma callStates_left {fuel : ℕ} {q : CallState} {v : Hint} {mem₂ : Memory} {calls : List Call}
    (hse : s < e) (hpart : partition valid fuel mem s e = .ok (mem₁, l, r))
    (hright : polyQuickSort valid fuel mem₁ r e = .ok (v, mem₂, calls))
    (hq : q ∈ callStates valid fuel mem₂ s l) : q ∈ callStates valid (fuel + 1) mem s e := by
  simp only [callStates, if_neg hse.ne, hpart, hright]
  exact List.mem_cons_of_mem _ (List.mem_append_right _ hq)

lemma callStates_cases {fuel : ℕ} {q : CallState} (hse : s < e)
    (hq : q ∈ callStates valid (fuel + 1) mem s e) :
    q = ⟨mem, s, e⟩ ∨ ∃ mem₁ l r, partition valid fuel mem s e = .ok (mem₁, l, r) ∧
      (q ∈ callStates valid fuel mem₁ r e ∨ ∃ v mem₂ calls,
        polyQuickSort valid fuel mem₁ r e = .ok (v, mem₂, calls) ∧
        q ∈ callStates valid fuel mem₂ s l) := by
  simp only [callStates, if_neg hse.ne] at hq
  rcases List.mem_cons.mp hq with hfirst | hq
  · exact .inl hfirst
  · right
    split at hq
    · cases hq
    · rename_i mem₁ l r hpart
      refine ⟨mem₁, l, r, hpart, ?_⟩
      rcases List.mem_append.mp hq with hright | hq
      · exact .inl hright
      · split at hq
        · cases hq
        · rename_i v mem₂ calls hright
          exact .inr ⟨v, mem₂, calls, hright, hq⟩

lemma Divides.divisible (h : Divides mem s e) : CallState.Divisible ⟨mem, s, e⟩ := by
  cases h with
  | single => exact .inl rfl
  | divide _ _ hdiv => exact .inr hdiv

lemma Divides.shrinks {fuel : ℕ} {v : Hint} {calls : List Call}
    (hvalid : ∀ i, Between s e i → valid i) (h : Divides mem s e)
    (hrun : polyQuickSort valid fuel mem s e = .ok (v, mem', calls)) : ∀ c ∈ calls, c.Shrinks := by
  induction fuel generalizing mem mem' s e v calls with
  | zero => cases hrun
  | succ fuel ih =>
    cases h with
    | single =>
      rw [polyQuickSort_single] at hrun
      cases hrun
      simp
    | @divide _ mem₁' _ m _ fuel' hlt hdiv hpart' hdivr hdivl =>
      obtain ⟨mem₁, l, r, v₁, mem₂, calls₁, v₂, calls₂, hpart, hright, hleft, rfl⟩ :=
        parts_of_polyQuickSort hlt hrun
      obtain ⟨rfl, rfl, hagree⟩ := partition_unique hvalid hpart' hpart
      have hsm := hdivl.le
      have hme := hdivr.le
      have hvalidr : ∀ i, Between (m + 1) e i → valid i := fun i hi =>
        hvalid i ⟨by have := hi.1; omega, hi.2⟩
      have hdivr' := hdivr.right_of_part hagree hsm
      have hshrinkr := ih hvalidr hdivr' hright
      obtain ⟨-, hpermr, -⟩ := of_polyQuickSort hvalidr hme hright hshrinkr
      have hshrinkl := ih (fun i hi => hvalid i ⟨hi.1, by have := hi.2; omega⟩)
        (hdivl.left_of_run hagree (by omega) hpermr) hleft
      intro c hc
      rcases List.mem_append.mp hc with hc | hc
      · rcases List.mem_cons.mp hc with rfl | hc
        · exact ⟨by simp only; omega, hme, le_refl e, by simp only; omega⟩
        · exact hshrinkr c hc
      · rcases List.mem_cons.mp hc with rfl | hc
        · exact ⟨le_refl s, hsm, by simp only; omega, by simp only; omega⟩
        · exact hshrinkl c hc

lemma Divides.callStates_divisible {fuel : ℕ} {q : CallState}
    (hvalid : ∀ i, Between s e i → valid i) (h : Divides mem s e)
    (hq : q ∈ callStates valid fuel mem s e) : q.Divisible := by
  induction fuel generalizing mem s e with
  | zero =>
    obtain rfl := List.mem_singleton.mp hq
    exact h.divisible
  | succ fuel ih =>
    cases h with
    | single =>
      simp only [callStates, if_true, List.mem_singleton] at hq
      subst hq
      exact .inl rfl
    | @divide _ mem₁' _ m _ fuel' hlt hdiv hpart' hdivr hdivl =>
      obtain rfl | ⟨mem₁, l, r, hpart, hq⟩ := callStates_cases hlt hq
      · exact .inr hdiv
      obtain ⟨rfl, rfl, hagree⟩ := partition_unique hvalid hpart' hpart
      have hvalidr : ∀ i, Between (m + 1) e i → valid i := fun i hi =>
        hvalid i ⟨by have := hi.1; have := hdivl.le; omega, hi.2⟩
      have hdivr' := hdivr.right_of_part hagree hdivl.le
      rcases hq with hq | ⟨v, mem₂, calls, hright, hq⟩
      · exact ih hvalidr hdivr' hq
      · obtain ⟨-, hpermr, -⟩ := of_polyQuickSort hvalidr hdivr.le hright
          (hdivr'.shrinks hvalidr hright)
        have hme := hdivr.le
        exact ih (fun i hi => hvalid i ⟨hi.1, by have := hi.2; omega⟩)
          (hdivl.left_of_run hagree (by omega) hpermr) hq

lemma divides_of_callStates {fuel : ℕ} (hvalid : ∀ i, Between s e i → valid i) (hse : s ≤ e)
    (hfuel : 2 * (e - s) + 2 < fuel) (h : ∀ q ∈ callStates valid fuel mem s e, q.Divisible) :
    Divides mem s e := by
  induction fuel generalizing mem s e with
  | zero => omega
  | succ fuel ih =>
    rcases hse.eq_or_lt with rfl | hlt
    · exact .single mem s
    · have hdiv : Divisible mem s e := (h _ (callStates_start _ mem s e)).resolve_left hlt.ne
      obtain ⟨mem₁, m, hpart, hparted⟩ := partition_spec (fun i hi hi' => hvalid i ⟨hi, hi'⟩) hlt
        hdiv fuel (by omega)
      obtain ⟨mem₁', m', hpart', -⟩ := partition_spec (between s e) hlt hdiv
        (2 * (e - s) + 2).toNat (by omega)
      obtain ⟨rfl, -, hagree⟩ := partition_unique hvalid hpart' hpart
      have hsm := hparted.start_le
      have hme := hparted.lt_end
      have hvalidr : ∀ i, Between (m' + 1) e i → valid i := fun i hi =>
        hvalid i ⟨by have := hi.1; omega, hi.2⟩
      have hdivr : Divides mem₁ (m' + 1) e := ih hvalidr (by omega) (by omega) fun q hq =>
        h q (callStates_right hlt hpart hq)
      obtain ⟨mem₂, calls, hright, hcalls⟩ := polyQuickSort_of_divides hvalidr hdivr fuel (by omega)
      obtain ⟨-, hpermr, -⟩ := of_polyQuickSort hvalidr (by omega) hright hcalls
      have hdivl : Divides mem₂ s m' := ih (fun i hi => hvalid i ⟨hi.1, by have := hi.2; omega⟩)
        hsm (by omega) fun q hq => h q (callStates_left hlt hpart hright hq)
      have hagree' : Agrees (Between s e) mem₁ mem₁' := fun i hi => (hagree i hi).symm
      refine .divide _ hlt hdiv hpart' (hdivr.right_of_part hagree' hsm)
        (hdivl.congr fun i hi => ?_)
      calc mem₂ i = mem₁ i := hpermr.outside fun hmem => absurd hi.2 (by have := hmem.1; omega)
        _ = mem₁' i := hagree' i ⟨hi.1, by have := hi.2; omega⟩

lemma callStates_divisible_of_small {fuel : ℕ} {q : CallState}
    (hvalid : ∀ i, Between s e i → valid i) (h : ∀ i ∈ Set.Icc s e, (mem i).toNat < 2 ^ 31)
    (hse : s ≤ e) (hq : q ∈ callStates valid fuel mem s e) : q.Divisible :=
  (divides_of_small h hse).callStates_divisible hvalid hq

end Calls

/-- The run ends without an access outside of the array of `n + 1` elements, every recursive call is
on a smaller part that is not empty, and the array then holds its values in ascending order. -/
def QuickSorts (mem : Memory) (s : ℤ) (n : ℕ) : Prop :=
  ∃ fuel mem' calls, polyQuickSort (Between s (s + n)) fuel mem s (s + n) =
    .ok (success, mem', calls) ∧
    (∀ c ∈ calls, c.Shrinks) ∧ (∀ i j : ℤ, s ≤ i → i ≤ j → j ≤ s + n → mem' i ≤ mem' j) ∧
    ((List.range (n + 1)).map fun k : ℕ => mem' (s + k)).Perm
      ((List.range (n + 1)).map fun k : ℕ => mem (s + k)) ∧
    ∀ i : ℤ, i < s ∨ s + n < i → mem' i = mem i

theorem polyQuickSort_sorts_iff (mem : Memory) (s : ℤ) (n : ℕ) :
    QuickSorts mem s n ↔
      ∀ fuel, ∀ q ∈ callStates (Between s (s + n)) fuel mem s (s + n), q.Divisible := by
  have hall : ∀ i, Between s (s + n) i → Between s (s + n) i := fun _ hi => hi
  constructor
  · rintro ⟨fuel, mem', calls, hrun, hcalls, -⟩ fuel' q hq
    exact (of_polyQuickSort hall (by omega) hrun hcalls).1.callStates_divisible hall hq
  · intro hstates
    have hdiv := divides_of_callStates hall (by omega) (by omega) (hstates (2 * n + 3))
    obtain ⟨mem', calls, hrun, hcalls⟩ := polyQuickSort_of_divides hall hdiv (2 * n + 3) (by omega)
    obtain ⟨-, hperm, hasc⟩ := of_polyQuickSort hall (by omega) hrun hcalls
    refine ⟨_, mem', calls, hrun, hcalls, fun i j hi hij hj => ?_, ?_, fun i hi => ?_⟩
    · exact hasc i ⟨hi, by omega⟩ j ⟨by omega, hj⟩ hij
    · have hplaces : ((List.range (n + 1)).map fun k : ℕ => s + (k : ℤ)).Nodup :=
        List.nodup_range.map fun a b hab => by simpa using hab
      have hperm' := hperm.perm hplaces fun i => by
        simp only [List.mem_map, List.mem_range, Set.mem_Icc]
        constructor
        · rintro ⟨k, hk, rfl⟩
          omega
        · rintro ⟨hi, hi'⟩
          exact ⟨(i - s).toNat, by omega, by omega⟩
      simpa only [List.map_map, Function.comp_def] using hperm'
    · exact hperm.outside fun hmem => by
        have := hmem.1
        have := hmem.2
        omega

theorem polyQuickSort_leaves_an_array_of_large_values :
    (∀ fuel, polyQuickSort (Between 0 1) (fuel + 5) (fun _ => 0x80000000) 0 1 =
      .error .outOfBounds) ∧ ¬ QuickSorts (fun _ => 0x80000000) 0 1 := by
  have hdiv : ¬ Divisible (fun _ => 0x80000000) 0 1 := by
    rintro ⟨i, -, -, hle⟩
    have hpivot : ¬ (0x80000000 : Huint) ≤ pivot (fun _ => 0x80000000) 0 1 := by decide
    exact hpivot hle
  refine ⟨fun fuel => ?_, ?_⟩
  · have hpart :=
      partition_of_not_divisible (between 0 1) (by decide) (by decide) hdiv (fuel + 4) (by omega)
    simp only [polyQuickSort, hpart]
    rfl
  · rintro ⟨fuel, mem', calls, hrun, hcalls, -⟩
    have hdivides := (of_polyQuickSort (fun _ hi => hi) (by decide) hrun hcalls).1
    generalize hmem : (fun _ => 0x80000000 : Memory) = mem at hdivides hdiv
    cases hdivides with
    | divide _ _ hdiv' => exact hdiv hdiv'

end Hthreads.Accelerators
