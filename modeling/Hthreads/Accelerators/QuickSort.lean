import Hthreads.Library.Rearrangements
import Hthreads.Software.SchedParam

/-! The quick sort of `sort.c` (`poly_quickSort`). Pointers count elements, and only the elements of
the array that is sorted may be accessed. -/

namespace Hthreads.Accelerators

open Library Software

abbrev Memory := ℤ → Huint

/-- A recursive call, with the bounds of the call that it is made from. -/
structure Call where
  callerStart : ℤ
  callerEnd : ℤ
  startPtr : ℤ
  endPtr : ℤ
  deriving DecidableEq, Repr

section Code

variable (valid : ℤ → Prop) [DecidablePred valid]

/-- `while ((leftPtr < rightPtr) && (*leftPtr <= pivot)) leftPtr++;` -/
def advanceLeft (mem : Memory) (pivot : Huint) (leftPtr rightPtr : ℤ) : Except Stop ℤ :=
  if leftPtr < rightPtr then do
    let x ← load valid mem leftPtr
    if x ≤ pivot then advanceLeft mem pivot (leftPtr + 1) rightPtr else pure leftPtr
  else pure leftPtr
termination_by (rightPtr - leftPtr).toNat

/-- `while ((leftPtr <= rightPtr) && (*rightPtr > pivot)) rightPtr--;` -/
def retreatRight (mem : Memory) (pivot : Huint) (leftPtr rightPtr : ℤ) : Except Stop ℤ :=
  if leftPtr ≤ rightPtr then do
    let x ← load valid mem rightPtr
    if x > pivot then retreatRight mem pivot leftPtr (rightPtr - 1) else pure rightPtr
  else pure rightPtr
termination_by (rightPtr - leftPtr + 1).toNat

def swapEnds (mem : Memory) (leftPtr rightPtr : ℤ) : Except Stop Memory :=
  if leftPtr < rightPtr then do
    let temp ← load valid mem leftPtr
    let x ← load valid mem rightPtr
    let mem ← store valid mem leftPtr x
    store valid mem rightPtr temp
  else pure mem

/-- `while (leftPtr < rightPtr)`. -/
def partitionLoop : ℕ → Memory → Huint → ℤ → ℤ → Except Stop (Memory × ℤ × ℤ)
  | 0, _, _, _, _ => .error .outOfFuel
  | fuel + 1, mem, pivot, leftPtr, rightPtr =>
    if leftPtr < rightPtr then do
      let leftPtr ← advanceLeft valid mem pivot leftPtr rightPtr
      let rightPtr ← retreatRight valid mem pivot leftPtr rightPtr
      let mem ← swapEnds valid mem leftPtr rightPtr
      partitionLoop fuel mem pivot leftPtr rightPtr
    else pure (mem, leftPtr, rightPtr)

/-- The end of the left part and the start of the right one. -/
def chooseParts (mem : Memory) (pivot : Huint) (leftPtr rightPtr : ℤ) : Except Stop (ℤ × ℤ) := do
  let x ← load valid mem rightPtr
  if leftPtr = rightPtr then
    if x ≥ pivot then pure (rightPtr - 1, rightPtr) else pure (leftPtr, rightPtr + 1)
  else if x > pivot then pure (rightPtr - 1, rightPtr)
  else pure (rightPtr, leftPtr)

/-- Everything up to the recursive calls. -/
def partition (fuel : ℕ) (mem : Memory) (startPtr endPtr : ℤ) :
    Except Stop (Memory × ℤ × ℤ) := do
  let x ← load valid mem startPtr
  let y ← load valid mem endPtr
  let pivot := (x + y) / 2
  let (mem, leftPtr, rightPtr) ← partitionLoop valid fuel mem pivot startPtr endPtr
  let (leftPtr, rightPtr) ← chooseParts valid mem pivot leftPtr rightPtr
  pure (mem, leftPtr, rightPtr)

def polyQuickSort : ℕ → Memory → ℤ → ℤ → Except Stop (Hint × Memory × List Call)
  | 0, _, _, _ => .error .outOfFuel
  | fuel + 1, mem, startPtr, endPtr =>
    if startPtr = endPtr then pure (success, mem, [])
    else do
      let (mem, leftPtr, rightPtr) ← partition valid fuel mem startPtr endPtr
      let (_, mem, calls) ← polyQuickSort fuel mem rightPtr endPtr
      let (_, mem, calls') ← polyQuickSort fuel mem startPtr leftPtr
      pure (success, mem, ⟨startPtr, endPtr, rightPtr, endPtr⟩ ::
        calls ++ ⟨startPtr, endPtr, startPtr, leftPtr⟩ :: calls')

end Code

section Loops

variable {valid : ℤ → Prop} [DecidablePred valid] {mem : Memory} {l r : ℤ}

lemma advanceLeft_spec (mem : Memory) (p : Huint)
    (hvalid : ∀ i, l ≤ i → i < r → valid i) (h : l ≤ r) :
    ∃ l', advanceLeft valid mem p l r = .ok l' ∧ l ≤ l' ∧ l' ≤ r ∧
      (∀ i, l ≤ i → i < l' → mem i ≤ p) ∧ (l' < r → p < mem l') := by
  fun_induction advanceLeft valid mem p l r with
  | case1 l hlt ih =>
    have hl : load valid mem l = .ok (mem l) := load_of_valid (hvalid l (le_refl l) hlt)
    rw [hl]
    by_cases hle : mem l ≤ p
    · obtain ⟨l', hrun, hge, hr, hlow, hstop⟩ :=
        ih (fun i hi hi' => hvalid i (by omega) hi') (by omega)
      refine ⟨l', ?_, by omega, hr, fun i hi hi' => ?_, hstop⟩
      · simpa only [bind, Except.bind, if_pos hle] using hrun
      · by_cases hil : i = l
        · exact hil ▸ hle
        · exact hlow i (by omega) hi'
    · refine ⟨l, ?_, le_refl l, h, fun i hi hi' => by omega, fun _ => BitVec.not_le.mp hle⟩
      simp only [bind, Except.bind, if_neg hle]
      rfl
  | case2 l hge =>
    exact ⟨l, rfl, le_refl l, h, fun i hi hi' => by omega, fun hlt => absurd hlt hge⟩

lemma retreatRight_spec (mem : Memory) (p : Huint) (hvalid : ∀ i, l ≤ i → i ≤ r → valid i)
    (h : l ≤ r + 1) :
    ∃ r', retreatRight valid mem p l r = .ok r' ∧ l ≤ r' + 1 ∧ r' ≤ r ∧
      (∀ i, r' < i → i ≤ r → p < mem i) ∧ (l ≤ r' → mem r' ≤ p) := by
  fun_induction retreatRight valid mem p l r with
  | case1 r hle ih =>
    have hr : load valid mem r = .ok (mem r) := load_of_valid (hvalid r hle (le_refl r))
    rw [hr]
    by_cases hgt : mem r > p
    · obtain ⟨r', hrun, hl, hge, hhigh, hstop⟩ :=
        ih (fun i hi hi' => hvalid i hi (by omega)) (by omega)
      refine ⟨r', ?_, hl, by omega, fun i hi hi' => ?_, hstop⟩
      · simpa only [bind, Except.bind, if_pos hgt] using hrun
      · by_cases hir : i = r
        · exact hir ▸ hgt
        · exact hhigh i hi (by omega)
    · refine ⟨r, ?_, h, le_refl r, fun i hi hi' => by omega, fun _ => BitVec.not_lt.mp hgt⟩
      simp only [bind, Except.bind, if_neg hgt]
      rfl
  | case2 r hlt =>
    exact ⟨r, rfl, h, le_refl r, fun i hi hi' => by omega, fun hle => absurd hle hlt⟩

lemma swapEnds_spec (hl : valid l) (hr : valid r) (h : l < r) :
    swapEnds valid mem l r = .ok (exchange mem l r) := by
  simp only [swapEnds, if_pos h, load_of_valid hl, load_of_valid hr, store_of_valid hl,
    store_of_valid hr, bind, Except.bind]
  rfl

lemma swapEnds_of_le (h : r ≤ l) : swapEnds valid mem l r = .ok mem := if_neg (not_lt.mpr h)

end Loops

/-- What holds between the turns of the outer loop, from the memory that it starts with. -/
structure Parting (mem₀ : Memory) (s e : ℤ) (p : Huint) (mem : Memory) (l r : ℤ) : Prop where
  left_ge : s ≤ l
  left_le : l ≤ e
  right_le : r ≤ e
  close : l ≤ r + 1
  low : ∀ i, s ≤ i → i < l → mem i ≤ p
  high : ∀ i, r < i → i ≤ e → p < mem i
  perm : Rearranges (Set.Icc s e) mem₀ mem
  last : r = e → mem e = mem₀ e ∨ p < mem e
  met : l = r → s < l ∧ mem r ≤ p

namespace Parting

variable {valid : ℤ → Prop} [DecidablePred valid] {mem₀ mem : Memory} {s e l r : ℤ} {p : Huint}

lemma start (mem₀ : Memory) (p : Huint) (h : s < e) : Parting mem₀ s e p mem₀ s e where
  left_ge := le_refl s
  left_le := le_of_lt h
  right_le := le_refl e
  close := by omega
  low i hi hi' := by omega
  high i hi hi' := by omega
  perm := .refl _ _
  last _ := .inl rfl
  met hse := by omega

/-- The turns that are left: a turn that moves neither pointer swaps, and then the next one moves.
-/
def turns (mem : Memory) (p : Huint) (l r : ℤ) : ℕ :=
  (2 * (r - l) + if mem l ≤ p then 0 else 1).toNat

lemma turns_lt {n : ℕ} (hlr : l ≤ r) (h : 2 * (r - l) + 1 < n) : turns mem p l r < n := by
  rw [turns]
  split_ifs <;> omega

lemma turn (hvalid : ∀ i, s ≤ i → i ≤ e → valid i) (h : Parting mem₀ s e p mem l r) (hlt : l < r) :
    ∃ l' r' mem', advanceLeft valid mem p l r = .ok l' ∧ retreatRight valid mem p l' r = .ok r' ∧
      swapEnds valid mem l' r' = .ok mem' ∧ Parting mem₀ s e p mem' l' r' ∧
      turns mem' p l' r' < turns mem p l r := by
  have hs := h.left_ge
  have he := h.right_le
  obtain ⟨l', hadvance, hl, hl', hlow, hstopl⟩ :=
    advanceLeft_spec mem p (fun i hi hi' => hvalid i (by omega) (by omega)) (le_of_lt hlt)
  obtain ⟨r', hretreat, hr, hr', hhigh, hstopr⟩ :=
    retreatRight_spec (l := l') (r := r) mem p
      (fun i hi hi' => hvalid i (by omega) (by omega)) (by omega)
  have hlow' : ∀ i, s ≤ i → i < l' → mem i ≤ p := fun i hi hi' =>
    if hil : i < l then h.low i hi hil else hlow i (by omega) hi'
  have hhigh' : ∀ i, r' < i → i ≤ e → p < mem i := fun i hi hi' =>
    if hir : r < i then h.high i hir hi' else hhigh i hi (by omega)
  -- a left pointer that stays stands before a value of the right part
  have hstay : l' = l → p < mem l := fun heq => heq ▸ hstopl (by omega)
  have hmoved : mem l ≤ p → l < l' := fun hle => lt_of_le_of_ne hl fun heq =>
    absurd hle (BitVec.not_le.mpr (hstay heq.symm))
  by_cases hswap : l' < r'
  · have hleft : l' ∈ Set.Icc s e := ⟨by omega, by omega⟩
    have hright : r' ∈ Set.Icc s e := ⟨by omega, by omega⟩
    have hlarge : p < mem l' := hstopl (by omega)
    have hsmall : mem r' ≤ p := hstopr (by omega)
    refine ⟨l', r', exchange mem l' r', hadvance, hretreat,
      swapEnds_spec (hvalid l' hleft.1 hleft.2) (hvalid r' hright.1 hright.2) hswap, ?_, ?_⟩
    · exact {
        left_ge := by omega
        left_le := by omega
        right_le := by omega
        close := by omega
        low := fun i hi hi' => by
          rw [exchange_of_ne (by omega) (by omega)]
          exact hlow' i hi hi'
        high := fun i hi hi' => by
          rw [exchange_of_ne (by omega) (by omega)]
          exact hhigh' i hi hi'
        perm := h.perm.trans (.exchange hleft hright)
        last := fun hre => .inr (by rw [← hre, exchange_right]; exact hlarge)
        met := fun hlr => by omega }
    · rw [turns, turns, exchange_left, if_pos hsmall]
      split_ifs with hle
      · have := hmoved hle
        omega
      · omega
  · refine ⟨l', r', mem, hadvance, hretreat, swapEnds_of_le (by omega), ?_, ?_⟩
    · exact {
        left_ge := by omega
        left_le := by omega
        right_le := by omega
        close := hr
        low := hlow'
        high := hhigh'
        perm := h.perm
        last := fun hre => h.last (by omega)
        met := fun hlr => by
          have hsmall : mem r' ≤ p := hstopr (by omega)
          refine ⟨?_, hsmall⟩
          by_contra hstart
          have hfirst : p < mem l := hstay (by omega)
          rw [← hlr, show l' = l by omega] at hsmall
          exact absurd hsmall (BitVec.not_le.mpr hfirst) }
    · rw [turns, turns]
      split_ifs <;> omega

lemma loop (hvalid : ∀ i, s ≤ i → i ≤ e → valid i) (fuel : ℕ) (h : Parting mem₀ s e p mem l r)
    (hfuel : turns mem p l r < fuel) :
    ∃ mem' l' r', partitionLoop valid fuel mem p l r = .ok (mem', l', r') ∧
      Parting mem₀ s e p mem' l' r' ∧ r' ≤ l' := by
  induction fuel generalizing mem l r with
  | zero => exact absurd hfuel (Nat.not_lt_zero _)
  | succ fuel ih =>
    by_cases hlt : l < r
    · obtain ⟨l', r', mem', hadvance, hretreat, hswap, hnext, hturns⟩ := h.turn hvalid hlt
      obtain ⟨mem'', l'', r'', hrun, hend⟩ := ih hnext (by omega)
      refine ⟨mem'', l'', r'', ?_, hend⟩
      simp only [partitionLoop, if_pos hlt, hadvance, hretreat, hswap, bind, Except.bind, hrun]
    · exact ⟨mem, l, r, by simp only [partitionLoop, if_neg hlt]; rfl, h, not_lt.mp hlt⟩

lemma of_loop (hvalid : ∀ i, s ≤ i → i ≤ e → valid i) (fuel : ℕ) (h : Parting mem₀ s e p mem l r)
    {mem' : Memory} {l' r' : ℤ} (hrun : partitionLoop valid fuel mem p l r = .ok (mem', l', r')) :
    Parting mem₀ s e p mem' l' r' ∧ r' ≤ l' := by
  induction fuel generalizing mem l r with
  | zero => cases hrun
  | succ fuel ih =>
    by_cases hlt : l < r
    · obtain ⟨l₁, r₁, mem₁, hadvance, hretreat, hswap, hnext, -⟩ := h.turn hvalid hlt
      simp only [partitionLoop, if_pos hlt, hadvance, hretreat, hswap, bind, Except.bind] at hrun
      exact ih hnext hrun
    · simp only [partitionLoop, if_neg hlt, pure, Except.pure] at hrun
      cases hrun
      exact ⟨h, not_lt.mp hlt⟩

end Parting

def pivot (mem : Memory) (s e : ℤ) : Huint := (mem s + mem e) / 2

/-- Some element goes to the left part. It is missing only where the sum of the ends wraps round. -/
def Divisible (mem : Memory) (s e : ℤ) : Prop := ∃ i, s ≤ i ∧ i ≤ e ∧ mem i ≤ pivot mem s e

section Parts

variable {valid : ℤ → Prop} [DecidablePred valid] {mem₀ mem : Memory} {s e l r : ℤ}

lemma pivot_le (x y : Huint) (hx : x ≤ (x + y) / 2) : (x + y) / 2 ≤ y := by
  rw [BitVec.le_def, BitVec.toNat_udiv, BitVec.toNat_add] at *
  have hy := y.isLt
  change x.toNat ≤ (x.toNat + y.toNat) % 2 ^ 32 / 2 at hx
  change (x.toNat + y.toNat) % 2 ^ 32 / 2 ≤ y.toNat
  omega

lemma Parting.start_lt (h : Parting mem₀ s e (pivot mem₀ s e) mem l r) (hstop : r ≤ l)
    (hdiv : Divisible mem₀ s e) : s < l := by
  have hs := h.left_ge
  have hclose := h.close
  by_cases hmet : l = r
  · exact (h.met hmet).1
  · by_contra hstart
    have hlarge : ∀ i ∈ Set.Icc s e, pivot mem₀ s e < mem i := fun i hi =>
      h.high i (by have := hi.1; omega) hi.2
    obtain ⟨i, hi, hi', hle⟩ := hdiv
    exact absurd hle (BitVec.not_le.mpr (h.perm.symm.forall_mem hlarge i ⟨hi, hi'⟩))

/-- Not all the elements are in the left part. -/
lemma Parting.right_lt (h : Parting mem₀ s e (pivot mem₀ s e) mem l r) (hse : s < e) (hmet : l = r)
    (hlt : mem r < pivot mem₀ s e) : r < e := by
  refine lt_of_le_of_ne h.right_le fun hend => ?_
  have hsmall : ∀ i ∈ Set.Icc s e, mem i ≤ pivot mem₀ s e := fun i hi => by
    by_cases hie : i = r
    · exact hie ▸ BitVec.le_of_lt hlt
    · exact h.low i hi.1 (by have := hi.2; omega)
  have hfirst : mem₀ s ≤ pivot mem₀ s e :=
    h.perm.symm.forall_mem (P := (· ≤ pivot mem₀ s e)) hsmall s ⟨le_refl s, hse.le⟩
  rw [hend] at hlt
  rcases h.last hend with hsame | hlarge
  · rw [hsame] at hlt
    exact absurd (pivot_le _ _ hfirst) (BitVec.not_le.mpr hlt)
  · exact absurd (BitVec.le_of_lt hlt) (BitVec.not_le.mpr hlarge)

lemma chooseParts_spec (hvalid : ∀ i, s ≤ i → i ≤ e → valid i)
    (h : Parting mem₀ s e (pivot mem₀ s e) mem l r) (hstop : r ≤ l) (hse : s < e)
    (hdiv : Divisible mem₀ s e) :
    ∃ m, chooseParts valid mem (pivot mem₀ s e) l r = .ok (m, m + 1) ∧ s ≤ m ∧ m < e ∧
      (∀ i, s ≤ i → i ≤ m → mem i ≤ pivot mem₀ s e) ∧
      ∀ i, m < i → i ≤ e → pivot mem₀ s e ≤ mem i := by
  have hstart := h.start_lt hstop hdiv
  have hclose := h.close
  have hright := h.right_le
  have hload : load valid mem r = .ok (mem r) := load_of_valid (hvalid r (by omega) hright)
  by_cases hmet : l = r
  · have hsmall := (h.met hmet).2
    by_cases hge : mem r ≥ pivot mem₀ s e
    · refine ⟨r - 1,
        ?_, by omega, by omega, fun i hi hi' => h.low i hi (by omega), fun i hi hi' => ?_⟩
      · simp only [chooseParts, hload, bind, Except.bind, if_pos hmet, if_pos hge, sub_add_cancel]
        rfl
      · by_cases hir : i = r
        · exact hir ▸ hge
        · exact BitVec.le_of_lt (h.high i (by omega) hi')
    · refine ⟨r, ?_, by omega, h.right_lt hse hmet (BitVec.not_le.mp hge), fun i hi hi' => ?_,
        fun i hi hi' => BitVec.le_of_lt (h.high i hi hi')⟩
      · simp only [chooseParts, hload, bind, Except.bind, if_neg hge, hmet, if_true]
        rfl
      · by_cases hir : i = r
        · exact hir ▸ hsmall
        · exact h.low i hi (by omega)
  · have hle : ¬ mem r > pivot mem₀ s e := BitVec.not_lt.mpr (h.low r (by omega) (by omega))
    have hnext : l = r + 1 := by omega
    have hleft := h.left_le
    refine ⟨r, ?_, by omega, by omega, fun i hi hi' => h.low i hi (by omega),
      fun i hi hi' => BitVec.le_of_lt (h.high i hi hi')⟩
    simp only [chooseParts, hload, bind, Except.bind, if_neg hmet, if_neg hle]
    rw [hnext]
    rfl

/-- The two parts meet at `m`, and the pivot lies between their values. -/
structure Parted (mem₀ : Memory) (s e : ℤ) (mem : Memory) (m : ℤ) : Prop where
  start_le : s ≤ m
  lt_end : m < e
  perm : Rearranges (Set.Icc s e) mem₀ mem
  between : ∀ i, s ≤ i → i ≤ m → ∀ j, m < j → j ≤ e → mem i ≤ mem j

lemma partition_eq (hs : valid s) (he : valid e) (fuel : ℕ) (mem : Memory) :
    partition valid fuel mem s e =
      (partitionLoop valid fuel mem (pivot mem s e) s e).bind fun q =>
        (chooseParts valid q.1 (pivot mem s e) q.2.1 q.2.2).bind fun q' =>
          .ok (q.1, q'.1, q'.2) := by
  simp only [partition, load_of_valid hs, load_of_valid he, bind]
  rfl

lemma partition_spec (hvalid : ∀ i, s ≤ i → i ≤ e → valid i) (hse : s < e)
    (hdiv : Divisible mem₀ s e) (fuel : ℕ) (hfuel : 2 * (e - s) + 1 < fuel) :
    ∃ mem m, partition valid fuel mem₀ s e = .ok (mem, m, m + 1) ∧ Parted mem₀ s e mem m := by
  obtain ⟨mem, l, r, hloop, hparting, hstop⟩ :=
    (Parting.start mem₀ (pivot mem₀ s e) hse).loop hvalid fuel (Parting.turns_lt hse.le hfuel)
  obtain ⟨m, hchoose, hm, hm', hlow, hhigh⟩ := chooseParts_spec hvalid hparting hstop hse hdiv
  refine ⟨mem, m, ?_, hm, hm', hparting.perm,
    fun i hi hi' j hj hj' => BitVec.le_trans (hlow i hi hi') (hhigh j hj hj')⟩
  simp only [partition_eq (hvalid s (le_refl s) hse.le) (hvalid e hse.le (le_refl e)), hloop,
    Except.bind, hchoose]

lemma parted_of_partition (hvalid : ∀ i, s ≤ i → i ≤ e → valid i) (hse : s < e)
    (hdiv : Divisible mem₀ s e) {fuel : ℕ}
    (hrun : partition valid fuel mem₀ s e = .ok (mem, l, r)) :
      r = l + 1 ∧ Parted mem₀ s e mem l := by
  rw [partition_eq (hvalid s (le_refl s) hse.le) (hvalid e hse.le (le_refl e))] at hrun
  obtain ⟨⟨mem', l', r'⟩, hloop, hrun⟩ := exists_of_bind_ok hrun
  obtain ⟨hparting, hstop⟩ := (Parting.start mem₀ (pivot mem₀ s e) hse).of_loop hvalid fuel hloop
  obtain ⟨m, hchoose, hm, hm', hlow, hhigh⟩ := chooseParts_spec hvalid hparting hstop hse hdiv
  simp only [hchoose, Except.bind] at hrun
  cases hrun
  exact ⟨rfl, hm, hm', hparting.perm,
    fun i hi hi' j hj hj' => BitVec.le_trans (hlow i hi hi') (hhigh j hj hj')⟩

lemma Parting.crossed (h : Parting mem₀ s e (pivot mem₀ s e) mem l r) (hstop : r ≤ l) (hse : s < e)
    (hdiv : ¬ Divisible mem₀ s e) : l = s ∧ r = s - 1 := by
  have hclose := h.close
  have hlarge : ∀ i ∈ Set.Icc s e, pivot mem₀ s e < mem i :=
    h.perm.forall_mem (P := (pivot mem₀ s e < ·)) fun i hi => by
      by_contra hle
      exact hdiv ⟨i, hi.1, hi.2, BitVec.not_lt.mp hle⟩
  have hfirst : l = s := by
    by_contra hne
    have hlt : s < l := lt_of_le_of_ne h.left_ge (Ne.symm hne)
    exact absurd (h.low s (le_refl s) hlt) (BitVec.not_le.mpr (hlarge s ⟨le_refl s, hse.le⟩))
  refine ⟨hfirst, ?_⟩
  by_contra hne
  exact absurd (h.met (by omega)).1 (by omega)

lemma start_ge_of_partition (hvalid : ∀ i, s ≤ i → i ≤ e → valid i) (hse : s < e)
    (hdiv : ¬ Divisible mem₀ s e) {fuel : ℕ}
    (hrun : partition valid fuel mem₀ s e = .ok (mem, l, r)) : r ≤ s := by
  rw [partition_eq (hvalid s (le_refl s) hse.le) (hvalid e hse.le (le_refl e))] at hrun
  obtain ⟨⟨mem', l', r'⟩, hloop, hrun⟩ := exists_of_bind_ok hrun
  obtain ⟨⟨l'', r''⟩, hchoose, hresult⟩ := exists_of_bind_ok hrun
  obtain ⟨x, -, hparts⟩ := exists_of_bind_ok hchoose
  cases hresult
  obtain ⟨hparting, hstop⟩ := (Parting.start mem₀ (pivot mem₀ s e) hse).of_loop hvalid fuel hloop
  obtain ⟨rfl, rfl⟩ := hparting.crossed hstop hse hdiv
  have hcrossed : ¬ l' = l' - 1 := by omega
  simp only [if_neg hcrossed] at hparts
  split_ifs at hparts
  · cases hparts
    exact Int.sub_le_self l' (by decide)
  · cases hparts
    exact le_refl l'

lemma partition_of_not_divisible (hvalid : ∀ i, s ≤ i → i ≤ e → valid i) (hbefore : ¬ valid (s - 1))
    (hse : s < e) (hdiv : ¬ Divisible mem₀ s e) (fuel : ℕ) (hfuel : 2 * (e - s) + 1 < fuel) :
    partition valid fuel mem₀ s e = .error .outOfBounds := by
  obtain ⟨mem, l, r, hloop, hparting, hstop⟩ :=
    (Parting.start mem₀ (pivot mem₀ s e) hse).loop hvalid fuel (Parting.turns_lt hse.le hfuel)
  obtain ⟨rfl, rfl⟩ := hparting.crossed hstop hse hdiv
  have hchoose : chooseParts valid mem (pivot mem₀ l e) l (l - 1) = .error .outOfBounds := by
    simp only [chooseParts, load_of_not_valid hbefore, bind, Except.bind]
  rw [partition_eq (hvalid l (le_refl l) hse.le) (hvalid e hse.le (le_refl e)), hloop]
  simp only [Except.bind, hchoose]

end Parts

end Hthreads.Accelerators
