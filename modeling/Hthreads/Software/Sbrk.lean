import Hthreads.Library.Ranges
import Hthreads.Software.Attributes

/-! The break of the heap (`sbrk.c`), and the memory that has been handed out below it. -/

namespace Hthreads.Software

open Library

/-- The static variable of `sbrk`, and `errno`. -/
structure SbrkState where
  heap : Huint
  errno : Hint

section Code

variable (heapStart heapEnd : Huint)

-- the heap is `NULL` before the first call
def SbrkState.brk (s : SbrkState) : Huint := if s.heap = 0 then heapStart else s.heap

def sbrk (incr : Hint) (s : SbrkState) : Huint × SbrkState :=
  let heap := s.brk heapStart
  let prev := heap
  if heap + incr > heapEnd then (-1, { heap, errno := enomem })
  else (prev, { s with heap := heap + incr })

end Code

section Regions

variable {r t : Range} {n a : ℕ}

-- what is left of a region when everything from an address on is given back
def below (n : ℕ) (r : Range) : Range := ⟨r.start, min r.size (n - r.start)⟩

lemma contains_below : (below n r).Contains a ↔ r.Contains a ∧ a < n := by
  simp only [Range.Contains, below]
  omega

lemma disjoint_below (n : ℕ) (h : r.Disjoint t) : (below n r).Disjoint (below n t) := by
  intro a hr ht
  exact h a (contains_below.mp hr).1 (contains_below.mp ht).1

end Regions

/-- The heap, with the regions that have not been given back. -/
structure SbrkRun where
  state : SbrkState
  live : List Range

namespace SbrkRun

variable (heapStart heapEnd : Huint)

def boot (errno : Hint) : SbrkRun := ⟨⟨0, errno⟩, []⟩

def brk (r : SbrkRun) : Huint := r.state.brk heapStart

def answer (incr : Hint) (r : SbrkRun) : Huint := (sbrk heapStart heapEnd incr r.state).1

def call (incr : Hint) (r : SbrkRun) : SbrkRun where
  state := (sbrk heapStart heapEnd incr r.state).2
  live :=
    if r.brk heapStart + incr > heapEnd then r.live
    else if 0 < incr.toInt then ⟨(r.brk heapStart).toNat, incr.toNat⟩ :: r.live
    else r.live.map (below (r.brk heapStart + incr).toNat)

structure Sound (r : SbrkRun) : Prop where
  start_le : heapStart ≤ r.brk heapStart
  le_end : r.brk heapStart ≤ heapEnd
  disjoint : r.live.Pairwise Range.Disjoint

def Answers (incr : Hint) (r : SbrkRun) : Prop :=
  (r.answer heapStart heapEnd incr = -1 ∧
      (r.call heapStart heapEnd incr).brk heapStart = r.brk heapStart) ∨
    (r.answer heapStart heapEnd incr = r.brk heapStart ∧
      ((r.call heapStart heapEnd incr).brk heapStart).toNat =
        (r.brk heapStart).toNat + incr.toInt)

def Behaves (r : SbrkRun) : List Hint → Prop
  | [] => r.Sound heapStart heapEnd
  | incr :: incrs => r.Sound heapStart heapEnd ∧ r.Answers heapStart heapEnd incr ∧
      (r.call heapStart heapEnd incr).Behaves incrs

/-- A growing heap stays within the address space. A shrinking one stays above its start, or else
goes round to an address above its end and is refused. -/
def Moderate (incr : Hint) (r : SbrkRun) : Prop :=
  if 0 ≤ incr.toInt then (r.brk heapStart).toNat + incr.toInt < 2 ^ 32
  else heapStart.toNat ≤ (r.brk heapStart).toNat + incr.toInt ∨ heapEnd < r.brk heapStart + incr

def ModerateRun (r : SbrkRun) : List Hint → Prop
  | [] => True
  | incr :: incrs => r.Moderate heapStart heapEnd incr ∧
      (r.call heapStart heapEnd incr).ModerateRun incrs

variable {heapStart heapEnd} {incr : Hint} {r : SbrkRun}

lemma brk_mk {b : Huint} (e : Hint) (h : b = 0 → heapStart = 0) :
    SbrkState.brk heapStart { heap := b, errno := e } = b := by
  rw [SbrkState.brk]
  split_ifs with hzero
  · exact (h hzero).trans (Eq.symm hzero)
  · rfl

lemma start_eq_zero (h : r.brk heapStart = 0) : heapStart = 0 := by
  rw [brk, SbrkState.brk] at h
  split_ifs at h with hheap
  · exact h
  · exact absurd h hheap

lemma call_refused (h : heapEnd < r.brk heapStart + incr) :
    r.answer heapStart heapEnd incr = -1 ∧
      (r.call heapStart heapEnd incr).brk heapStart = r.brk heapStart ∧
      (r.call heapStart heapEnd incr).live = r.live := by
  have hsbrk : sbrk heapStart heapEnd incr r.state =
      (-1, { heap := r.brk heapStart, errno := enomem }) := if_pos h
  refine ⟨congrArg Prod.fst hsbrk, ?_, if_pos h⟩
  exact (congrArg (fun x => x.2.brk heapStart) hsbrk).trans (brk_mk enomem start_eq_zero)

lemma toNat_of_moderate (hr : r.Sound heapStart heapEnd) (h : r.Moderate heapStart heapEnd incr)
    (hfits : ¬ heapEnd < r.brk heapStart + incr) :
    ((r.brk heapStart + incr).toNat : ℤ) = (r.brk heapStart).toNat + incr.toInt ∧
      heapStart ≤ r.brk heapStart + incr := by
  obtain ⟨hstart, hend, -⟩ := hr
  rw [Moderate] at h
  generalize r.brk heapStart = b at *
  split_ifs at h with hsign
  · rw [BitVec.toInt_eq_toNat_cond] at *
    bv_omega
  · rcases h with h | h
    · rw [BitVec.toInt_eq_toNat_cond] at *
      bv_omega
    · exact absurd h hfits

lemma brk_served (hfits : ¬ heapEnd < r.brk heapStart + incr) :
    r.answer heapStart heapEnd incr = r.brk heapStart ∧
      (r.call heapStart heapEnd incr).brk heapStart =
        if r.brk heapStart + incr = 0 then heapStart else r.brk heapStart + incr := by
  have hsbrk : sbrk heapStart heapEnd incr r.state =
      (r.brk heapStart, { r.state with heap := r.brk heapStart + incr }) := if_neg hfits
  exact ⟨congrArg Prod.fst hsbrk, congrArg (fun x => x.2.brk heapStart) hsbrk⟩

lemma call_served (hr : r.Sound heapStart heapEnd) (h : r.Moderate heapStart heapEnd incr)
    (hfits : ¬ heapEnd < r.brk heapStart + incr) :
    r.answer heapStart heapEnd incr = r.brk heapStart ∧
      (r.call heapStart heapEnd incr).brk heapStart = r.brk heapStart + incr := by
  obtain ⟨-, hstart⟩ := toNat_of_moderate hr h hfits
  obtain ⟨hanswer, hbrk⟩ := brk_served hfits
  refine ⟨hanswer, hbrk.trans ?_⟩
  split_ifs with hzero
  · rw [hzero] at hstart ⊢
    bv_omega
  · rfl

/-- Everything that is handed out lies below the break. -/
structure Invariant (heapStart heapEnd : Huint) (r : SbrkRun) : Prop extends
    r.Sound heapStart heapEnd where
  below : ∀ t ∈ r.live, ∀ a, t.Contains a → a < (r.brk heapStart).toNat

lemma invariant_boot (h : heapStart < heapEnd) (errno : Hint) :
    Invariant heapStart heapEnd (boot errno) where
  start_le := BitVec.le_refl heapStart
  le_end := BitVec.le_of_lt h
  disjoint := List.Pairwise.nil
  below := by simp [boot]

lemma Invariant.call (hr : Invariant heapStart heapEnd r)
    (h : r.Moderate heapStart heapEnd incr) :
    r.Answers heapStart heapEnd incr ∧
      Invariant heapStart heapEnd (r.call heapStart heapEnd incr) := by
  by_cases hfits : heapEnd < r.brk heapStart + incr
  · obtain ⟨hanswer, hbrk, hlive⟩ := call_refused hfits
    refine ⟨.inl ⟨hanswer, hbrk⟩, ⟨?_, ?_, ?_⟩, ?_⟩
    · rw [hbrk]
      exact hr.start_le
    · rw [hbrk]
      exact hr.le_end
    · rw [hlive]
      exact hr.disjoint
    · rw [hlive, hbrk]
      exact hr.below
  · obtain ⟨hanswer, hbrk⟩ := call_served hr.toSound h hfits
    obtain ⟨hsum, hstart⟩ := toNat_of_moderate hr.toSound h hfits
    refine ⟨.inr ⟨hanswer, by rw [hbrk, hsum]⟩, ⟨?_, ?_, ?_⟩, ?_⟩
    · rw [hbrk]
      exact hstart
    · rw [hbrk]
      exact BitVec.not_lt.mp hfits
    · rw [SbrkRun.call, if_neg hfits]
      split_ifs with hpos
      · -- the new region begins at the old break
        refine List.pairwise_cons.mpr ⟨fun t ht a hnew hold => ?_, hr.disjoint⟩
        exact absurd (hr.below t ht a hold) (not_lt.mpr hnew.1)
      · exact hr.disjoint.map _ fun _ _ hdisjoint => disjoint_below _ hdisjoint
    · rw [hbrk, SbrkRun.call, if_neg hfits]
      split_ifs with hpos
      · refine List.forall_mem_cons.mpr ⟨fun a ha => ?_, fun t ht a ha => ?_⟩
        · have hsize : (incr.toNat : ℤ) = incr.toInt := by
            rw [BitVec.toInt_eq_toNat_cond] at hpos ⊢
            bv_omega
          have hlt : a < (r.brk heapStart).toNat + incr.toNat := ha.2
          omega
        · have hlt : a < (r.brk heapStart).toNat := hr.below t ht a ha
          omega
      · intro t ht a ha
        obtain ⟨u, -, rfl⟩ := List.mem_map.mp ht
        exact (contains_below.mp ha).2

lemma moderate_of_refused (hr : r.Sound heapStart heapEnd)
    (h : heapEnd < r.brk heapStart + incr) : r.Moderate heapStart heapEnd incr := by
  have hend : r.brk heapStart ≤ heapEnd := hr.le_end
  rw [Moderate]
  split_ifs with hsign
  · rw [BitVec.toInt_eq_toNat_cond] at *
    bv_omega
  · exact .inr h

lemma moderate_of_answers (hheap : heapStart < heapEnd) (hr : r.Sound heapStart heapEnd)
    (h : r.Answers heapStart heapEnd incr)
    (hafter : (r.call heapStart heapEnd incr).Sound heapStart heapEnd) :
    r.Moderate heapStart heapEnd incr := by
  by_cases hfits : heapEnd < r.brk heapStart + incr
  · exact moderate_of_refused hr hfits
  · obtain ⟨hanswer, hbrk⟩ := brk_served hfits
    obtain ⟨-, hend, -⟩ := hr
    have hstart : heapStart ≤ (r.call heapStart heapEnd incr).brk heapStart := hafter.start_le
    rw [Answers, hanswer] at h
    rw [Moderate]
    generalize (r.call heapStart heapEnd incr).brk heapStart = b' at *
    generalize r.brk heapStart = b at *
    rcases h with ⟨rfl, hsame⟩ | ⟨-, hsum⟩
    · -- the last address is the break, and stays it
      have hincr : incr = 0 := by
        split_ifs at hbrk <;> bv_omega
      subst hincr
      rw [if_pos (by decide)]
      decide
    · split_ifs with hsign
      · bv_omega
      · left
        bv_omega

lemma Invariant.behaves_iff (hheap : heapStart < heapEnd) {incrs : List Hint}
    (hr : Invariant heapStart heapEnd r) :
    r.Behaves heapStart heapEnd incrs ↔ r.ModerateRun heapStart heapEnd incrs := by
  induction incrs generalizing r with
  | nil => exact iff_of_true hr.toSound trivial
  | cons incr incrs ih =>
    constructor
    · rintro ⟨hsound, hanswers, hrest⟩
      have hafter : (r.call heapStart heapEnd incr).Sound heapStart heapEnd := by
        cases incrs with
        | nil => exact hrest
        | cons incr' incrs => exact hrest.1
      have hincr : r.Moderate heapStart heapEnd incr :=
        moderate_of_answers hheap hsound hanswers hafter
      exact ⟨hincr, (ih (hr.call hincr).2).mp hrest⟩
    · rintro ⟨hincr, hrest⟩
      obtain ⟨hanswers, hafter⟩ := hr.call hincr
      exact ⟨hr.toSound, hanswers, (ih hafter).mpr hrest⟩

theorem sbrk_behaves_iff (hheap : heapStart < heapEnd) (errno : Hint) (incrs : List Hint) :
    (boot errno).Behaves heapStart heapEnd incrs ↔
      (boot errno).ModerateRun heapStart heapEnd incrs :=
  (invariant_boot hheap errno).behaves_iff hheap

theorem sbrk_behaves_iff_of_three_calls :
    (0x80000000 : Huint) < 0xC0000000 ∧
      ((boot 0).Behaves 0x80000000 0xC0000000 [0x1000, 0x7fffffff, -0x1000] ↔
        (boot 0).ModerateRun 0x80000000 0xC0000000 [0x1000, 0x7fffffff, -0x1000]) :=
  ⟨by decide, sbrk_behaves_iff (by decide) 0 _⟩

/-- Memory is given back that was never handed out, or the sum goes round past the last address:
the break leaves the heap below its start. -/
theorem sbrk_leaves_the_heap :
    ¬ (boot 0).Behaves 0x80000000 0xC0000000 [-1] ∧
      ¬ (boot 0).Behaves 0x80000000 0xF0000000 [0x60000000, 0x7fffffff] := by
  constructor
  · rintro ⟨-, -, hsound⟩
    exact absurd hsound.start_le (by decide)
  · rintro ⟨-, -, -, -, hsound⟩
    exact absurd hsound.start_le (by decide)

end SbrkRun

end Hthreads.Software
