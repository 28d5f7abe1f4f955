import Hthreads.Library.Merging
import Hthreads.Software.SchedParam

/-! The merge of sorted chunks in `host_call.h` (`merge_sort`). The pointers into the chunks and the
elements that they are at are kept in two fixed places of the local memory of the host. -/

namespace Hthreads.Accelerators

open Library Software

abbrev Bram := ℕ → Hint

def ptrAddr (i : ℕ) : ℕ := 0x200 / 4 + i
def dataAddr (i : ℕ) : ℕ := 0x400 / 4 + i

structure MergeState where
  bram : Bram
  des : ℕ → Hint
  index : ℕ
  min : Hint

namespace MergeState

def ptr (s : MergeState) (i : ℕ) : Hint := s.bram (ptrAddr i)
def data (s : MergeState) (i : ℕ) : Hint := s.bram (dataAddr i)

end MergeState

section Code

variable (chunckSize remainder : Hint) (src : ℕ → Hint)

def startChunk (bram : Bram) (i : ℕ) : Bram :=
  let bram := Function.update bram (ptrAddr i) 0
  Function.update bram (dataAddr i) (src (i * chunckSize.toNat))

def lookAt (limit : Hint) (s : MergeState) (j : ℕ) : MergeState :=
  if (s.data j).toInt < s.min.toInt ∧ (s.ptr j).toInt < limit.toInt then
    { s with min := s.data j, index := j }
  else s

def lookAtLast (s : MergeState) (j : ℕ) : MergeState :=
  if (s.data j).toInt < s.min.toInt then
    if remainder = 0 ∧ (s.ptr j).toInt < chunckSize.toInt then
      { s with min := s.data j, index := j }
    else if remainder ≠ 0 ∧ (s.ptr j).toInt < remainder.toInt then
      { s with min := s.data j, index := j }
    else s
  else s

def putMin (s : MergeState) (i : ℕ) : MergeState :=
  let bram := Function.update s.bram (ptrAddr s.index) (s.ptr s.index + 1)
  let next := src (s.index * chunckSize.toNat + (bram (ptrAddr s.index)).toNat)
  { s with
    des := Function.update s.des i s.min
    bram := Function.update bram (dataAddr s.index) next }

/-- The body of the second loop, with `x` for the number of chunks. -/
def mergeTurn (x : ℕ) (s : MergeState) (i : ℕ) : MergeState :=
  let s := (List.range (x - 1)).foldl (lookAt chunckSize) { s with min := 0x7fffffff }
  putMin chunckSize src (lookAtLast chunckSize remainder s (x - 1)) i

end Code

/-- `if (remainder != 0) x++;` -/
def chunkCount (x remainder : Hint) : Hint := if remainder ≠ 0 then x + 1 else x

/-- The timer that is stopped meanwhile is left out. -/
def mergeSort (x n : Hint) (src : ℕ → Hint) (s : MergeState) : MergeState :=
  let chunckSize := n.sdiv x
  let remainder := n.srem x
  let x := chunkCount x remainder
  let bram := (List.range x.toNat).foldl (startChunk chunckSize src) s.bram
  (List.range n.toNat).foldl (mergeTurn chunckSize remainder src x.toNat)
    { s with bram, index := 0 }

section Search

variable {chunckSize remainder : Hint} {x : ℕ}

/-- The length of chunk `j`: the last chunk holds the remainder, if there is one. -/
def limit (chunckSize remainder : Hint) (x j : ℕ) : Hint :=
  if j + 1 = x ∧ remainder ≠ 0 then remainder else chunckSize

lemma lookAtLast_eq (hx : 1 ≤ x) (s : MergeState) :
    lookAtLast chunckSize remainder s (x - 1) =
      lookAt (limit chunckSize remainder x (x - 1)) s (x - 1) := by
  have hlast : x - 1 + 1 = x := by omega
  by_cases hrem : remainder = 0
  · simp only [lookAtLast, lookAt, limit, hrem, ne_eq, not_true_eq_false, and_false, false_and,
      if_false, true_and]
    split_ifs <;> simp_all
  · simp only [lookAtLast, lookAt, limit, hrem, hlast, ne_eq, not_false_eq_true, and_self, true_and,
      false_and, if_false, if_true]
    split_ifs <;> simp_all

lemma search_eq (hx : 1 ≤ x) (s : MergeState) :
    lookAtLast chunckSize remainder ((List.range (x - 1)).foldl (lookAt chunckSize) s) (x - 1) =
      (List.range x).foldl (fun s j => lookAt (limit chunckSize remainder x j) s j) s := by
  obtain ⟨y, rfl⟩ : ∃ y, x = y + 1 := ⟨x - 1, by omega⟩
  have hfull : (List.range y).foldl (lookAt chunckSize) s =
      (List.range y).foldl (fun s j => lookAt (limit chunckSize remainder (y + 1) j) s j) s := by
    refine List.foldl_ext _ _ _ fun s' j hj => ?_
    have hlt : ¬ j + 1 = y + 1 := by
      have := List.mem_range.mp hj
      omega
    rw [limit, if_neg fun h => hlt h.1]
  rw [lookAtLast_eq hx, List.range_succ, List.foldl_append, Nat.add_sub_cancel, hfull]
  rfl

lemma foldl_lookAt (lim : ℕ → Hint) (l : List ℕ) (s : MergeState) :
    let s' := l.foldl (fun s j => lookAt (lim j) s j) s
    s'.bram = s.bram ∧ s'.des = s.des ∧ (s'.min.toInt, s'.index) =
      l.foldl (improve (fun j => (s.ptr j).toInt < (lim j).toInt) fun j => (s.data j).toInt)
        (s.min.toInt, s.index) := by
  induction l generalizing s with
  | nil => exact ⟨rfl, rfl, rfl⟩
  | cons j l ih =>
    have hstep : (lookAt (lim j) s j).bram = s.bram ∧ (lookAt (lim j) s j).des = s.des ∧
        ((lookAt (lim j) s j).min.toInt, (lookAt (lim j) s j).index) =
          improve (fun j => (s.ptr j).toInt < (lim j).toInt) (fun j => (s.data j).toInt)
            (s.min.toInt, s.index) j := by
      rw [lookAt, improve]
      split_ifs <;> exact ⟨rfl, rfl, rfl⟩
    obtain ⟨hbram, hdes, hbest⟩ := hstep
    obtain ⟨hbram', hdes', hbest'⟩ := ih (lookAt (lim j) s j)
    have hptr : (lookAt (lim j) s j).ptr = s.ptr := by
      funext k
      rw [MergeState.ptr, hbram, MergeState.ptr]
    have hdata : (lookAt (lim j) s j).data = s.data := by
      funext k
      rw [MergeState.data, hbram, MergeState.data]
    refine ⟨hbram'.trans hbram, hdes'.trans hdes, ?_⟩
    rw [List.foldl_cons, List.foldl_cons, hbest', hbest, hptr, hdata]

end Search

section Invariant

variable (src : ℕ → Hint) (c x : ℕ) (lim : ℕ → Hint) (all : Multiset Hint)

def chunk (j k : ℕ) : Hint := src (j * c + k)

abbrev unmerged (p : ℕ → ℕ) : Multiset Hint := remaining (chunk src c) (fun j => (lim j).toNat) x p

/-- After `i` turns the pointers are at `p`. What is not put out yet is what is left of the chunks,
or else only copies of the sentinel are left in both. -/
structure Merging (i : ℕ) (p : ℕ → ℕ) (rest : Multiset Hint) (s : MergeState) : Prop where
  ptr : ∀ j < x, s.ptr j = BitVec.ofNat 32 (p j)
  data : ∀ j < x, s.data j = chunk src c j (p j)
  index : s.index < x
  small : ∀ j < x, p j ≤ i
  merges : Merges BitVec.toInt all ((List.range i).map s.des) rest
  left : rest = unmerged src c x lim p ∨
    ∀ a, a ∈ rest ∨ a ∈ unmerged src c x lim p → a = 0x7fffffff

variable {src c x lim all} {i : ℕ} {p : ℕ → ℕ} {rest : Multiset Hint} {s : MergeState}

lemma toInt_le_sentinel (v : Hint) : v.toInt ≤ (0x7fffffff : Hint).toInt := by
  have := BitVec.toInt_lt (x := v)
  have hmax : (0x7fffffff : Hint).toInt = 2 ^ 31 - 1 := by decide
  omega

lemma eq_sentinel {v : Hint} (h : (0x7fffffff : Hint).toInt ≤ v.toInt) : v = 0x7fffffff :=
  BitVec.eq_of_toInt_eq (le_antisymm (toInt_le_sentinel v) h)

lemma ptrAddr_ne_dataAddr {i j : ℕ} (hi : i < 128) : ptrAddr i ≠ dataAddr j := by
  simp only [ptrAddr, dataAddr]
  omega

lemma ptrAddr_ne {i j : ℕ} (h : i ≠ j) : ptrAddr i ≠ ptrAddr j :=
  fun he => h (Nat.add_left_cancel he)

lemma dataAddr_ne {i j : ℕ} (h : i ≠ j) : dataAddr i ≠ dataAddr j :=
  fun he => h (Nat.add_left_cancel he)

lemma putMin_spec (hx : x ≤ 128) (chunckSize : Hint)
    (h : Merging src chunckSize.toNat x lim all i p rest s)
    (hi : i + 1 < 2 ^ 32) {s' : MergeState} (hbram : s'.bram = s.bram) (hindex : s'.index < x) :
    (∀ j < x, (putMin chunckSize src s' i).ptr j =
        BitVec.ofNat 32 (Function.update p s'.index (p s'.index + 1) j)) ∧
      ∀ j < x, (putMin chunckSize src s' i).data j =
        chunk src chunckSize.toNat j (Function.update p s'.index (p s'.index + 1) j) := by
  have hptr : s'.ptr s'.index + 1 = BitVec.ofNat 32 (p s'.index + 1) := by
    rw [MergeState.ptr, hbram, ← MergeState.ptr, h.ptr _ hindex]
    bv_omega
  have hsmall := h.small _ hindex
  have hnat : (BitVec.ofNat 32 (p s'.index + 1)).toNat = p s'.index + 1 := by
    rw [BitVec.toNat_ofNat]
    omega
  constructor
  · intro j hj
    simp only [putMin, MergeState.ptr]
    rw [Function.update_of_ne (ptrAddr_ne_dataAddr (by omega))]
    by_cases hji : j = s'.index
    · rw [hji, Function.update_self, Function.update_self, ← hptr]
      rfl
    · rw [Function.update_of_ne (ptrAddr_ne hji), Function.update_of_ne hji, hbram]
      exact h.ptr j hj
  · intro j hj
    simp only [putMin, MergeState.data]
    by_cases hji : j = s'.index
    · rw [hji, Function.update_self, Function.update_self, Function.update_self, hptr, hnat, chunk]
    · rw [Function.update_of_ne (dataAddr_ne hji),
        Function.update_of_ne (ptrAddr_ne_dataAddr (by omega)).symm,
        Function.update_of_ne hji, hbram]
      exact h.data j hj

lemma map_range_update (des : ℕ → Hint) (i : ℕ) (v : Hint) :
    (List.range (i + 1)).map (Function.update des i v) = (List.range i).map des ++ [v] := by
  have hrest : (List.range i).map (Function.update des i v) = (List.range i).map des :=
    List.map_congr_left fun j hj => Function.update_of_ne (List.mem_range.mp hj).ne _ _
  rw [List.range_succ, List.map_append, hrest, List.map_singleton, Function.update_self]

def Ordered (src : ℕ → Hint) (c x : ℕ) (lim : ℕ → Hint) : Prop :=
  ∀ j < x, ∀ a b, a ≤ b → b < (lim j).toNat → (chunk src c j a).toInt ≤ (chunk src c j b).toInt

lemma remaining_mono {p p' : ℕ → ℕ} (h : ∀ j, p j ≤ p' j) {a : Hint}
    (ha : a ∈ unmerged src c x lim p') : a ∈ unmerged src c x lim p := by
  obtain ⟨j, hj, k, hk, hk', heq⟩ := mem_remaining.mp ha
  exact mem_remaining.mpr ⟨j, hj, k, (h j).trans hk, hk', heq⟩

lemma le_update_succ (p : ℕ → ℕ) (i : ℕ) : ∀ j, p j ≤ Function.update p i (p i + 1) j := by
  intro j
  by_cases hji : j = i
  · rw [hji, Function.update_self]
    exact Nat.le_succ _
  · rw [Function.update_of_ne hji]

lemma Merging.toInt_ptr (h : Merging src c x lim all i p rest s) (hi : i < 2 ^ 31) {j : ℕ}
    (hj : j < x) : (s.ptr j).toInt = p j := by
  have hsmall := h.small j hj
  have hnat : (BitVec.ofNat 32 (p j)).toNat = p j := by
    rw [BitVec.toNat_ofNat]
    omega
  rw [h.ptr j hj, BitVec.toInt_eq_toNat_of_lt (by rw [hnat]; omega), hnat]

lemma Merging.step_found (h : Merging src c x lim all i p rest s) (hsrc : Ordered src c x lim)
    {j : ℕ} (hj : j < x) (hp : p j < (lim j).toNat)
    (hlt : (s.data j).toInt < (0x7fffffff : Hint).toInt)
    (hleast : ∀ k < x, p k < (lim k).toNat → (s.data j).toInt ≤ (s.data k).toInt) :
    Merges BitVec.toInt all ((List.range i).map s.des ++ [s.data j])
      (unmerged src c x lim (Function.update p j (p j + 1))) := by
  have htake : unmerged src c x lim p =
      chunk src c j (p j) ::ₘ unmerged src c x lim (Function.update p j (p j + 1)) :=
    remaining_take hj hp
  rw [← h.data j hj] at htake
  have hhead : s.data j ∈ unmerged src c x lim p := by
    rw [htake]
    exact Multiset.mem_cons_self _ _
  rcases h.left with hrest | hsentinel
  · have hmerges := h.merges
    rw [hrest, htake] at hmerges
    refine hmerges.take fun b hb => ?_
    obtain ⟨k, hk, a, ha, ha', rfl⟩ := mem_remaining.mp (remaining_mono (le_update_succ p j) hb)
    calc (s.data j).toInt ≤ (s.data k).toInt := hleast k hk (by omega)
      _ = (chunk src c k (p k)).toInt := by rw [h.data k hk]
      _ ≤ (chunk src c k a).toInt := hsrc k hk (p k) a ha ha'
  · rw [hsentinel _ (.inr hhead)] at hlt
    exact absurd hlt (lt_irrefl _)

/-- When every head that is left is the sentinel, so is everything behind it. -/
lemma Merging.step_sentinel (h : Merging src c x lim all i p rest s) (hsrc : Ordered src c x lim)
    (hnone : ∀ k < x, p k < (lim k).toNat → (0x7fffffff : Hint).toInt ≤ (s.data k).toInt)
    (hi : i < Multiset.card all) (j : ℕ) :
    ∃ rest', Merges BitVec.toInt all ((List.range i).map s.des ++ [0x7fffffff]) rest' ∧
      ∀ a, a ∈ rest' ∨ a ∈ unmerged src c x lim (Function.update p j (p j + 1)) →
        a = 0x7fffffff := by
  have hchunks : ∀ a ∈ unmerged src c x lim p, a = 0x7fffffff := by
    intro a ha
    obtain ⟨k, hk, b, hb, hb', rfl⟩ := mem_remaining.mp ha
    refine eq_sentinel ((hnone k hk (by omega)).trans ?_)
    rw [h.data k hk]
    exact hsrc k hk (p k) b hb hb'
  have hall : ∀ a ∈ rest, a = 0x7fffffff := by
    intro a ha
    rcases h.left with hrest | hsentinel
    · exact hchunks a (hrest ▸ ha)
    · exact hsentinel a (.inl ha)
  have hcard : 0 < Multiset.card rest := by
    have := h.merges.card
    rw [List.length_map, List.length_range] at this
    omega
  obtain ⟨a, ha⟩ := Multiset.card_pos_iff_exists_mem.mp hcard
  rw [hall a ha] at ha
  obtain ⟨rest', rfl⟩ := Multiset.exists_cons_of_mem ha
  refine ⟨rest', h.merges.take fun b hb => ?_, fun b hb => ?_⟩
  · rw [hall b (Multiset.mem_cons_of_mem hb)]
  · rcases hb with hb | hb
    · exact hall b (Multiset.mem_cons_of_mem hb)
    · exact hchunks b (remaining_mono (le_update_succ p j) hb)

lemma Merging.turn {chunckSize remainder : Hint} (hx : 1 ≤ x) (hx' : x ≤ 128)
    (hlim : ∀ j < x, (limit chunckSize remainder x j).toNat < 2 ^ 31)
    (hsrc : Ordered src chunckSize.toNat x (limit chunckSize remainder x))
    (h : Merging src chunckSize.toNat x (limit chunckSize remainder x) all i p rest s)
    (hi : i < Multiset.card all) (hall : Multiset.card all < 2 ^ 31) :
    ∃ p' rest', Merging src chunckSize.toNat x (limit chunckSize remainder x) all (i + 1) p' rest'
      (mergeTurn chunckSize remainder src x s i) := by
  set s₀ : MergeState := { s with min := 0x7fffffff }
  set s₁ := (List.range x).foldl
    (fun s j => lookAt (limit chunckSize remainder x j) s j) s₀ with hs₁
  obtain ⟨hbram, hdes, hbest⟩ := foldl_lookAt (limit chunckSize remainder x) (List.range x) s₀
  have hturn : mergeTurn chunckSize remainder src x s i = putMin chunckSize src s₁ i := by
    rw [mergeTurn, search_eq hx]
  have havail : ∀ j < x, (s.ptr j).toInt < (limit chunckSize remainder x j).toInt ↔
      p j < (limit chunckSize remainder x j).toNat := by
    intro j hj
    rw [h.toInt_ptr (by omega) hj, BitVec.toInt_eq_toNat_of_lt (by have := hlim j hj; omega)]
    exact Nat.cast_lt
  have hfinish : ∀ rest', s₁.index < x →
      Merges BitVec.toInt all ((List.range i).map s.des ++ [s₁.min]) rest' →
      (rest' = unmerged src chunckSize.toNat x (limit chunckSize remainder x)
          (Function.update p s₁.index (p s₁.index + 1)) ∨
        ∀ a, a ∈ rest' ∨ a ∈ unmerged src chunckSize.toNat x (limit chunckSize remainder x)
          (Function.update p s₁.index (p s₁.index + 1)) → a = 0x7fffffff) →
      ∃ p' rest', Merging src chunckSize.toNat x (limit chunckSize remainder x) all (i + 1) p' rest'
        (mergeTurn chunckSize remainder src x s i) := by
    intro rest' hindex hmerges hleft
    obtain ⟨hptr, hdata⟩ := putMin_spec hx' chunckSize h (by omega) hbram hindex
    rw [hturn]
    refine ⟨_, rest', hptr, hdata, hindex, fun j hj => ?_, ?_, hleft⟩
    · have := h.small j hj
      by_cases hji : j = s₁.index
      · rw [hji, Function.update_self, ← hji]
        omega
      · rw [Function.update_of_ne hji]
        omega
    · have hput : (putMin chunckSize src s₁ i).des = Function.update s.des i s₁.min := by
        rw [← hdes]
        rfl
      rw [hput, map_range_update]
      exact hmerges
  rcases foldl_improve (fun j => (s₀.ptr j).toInt < (limit chunckSize remainder x j).toInt)
      (fun j => (s₀.data j).toInt) (List.range x) (s₀.min.toInt, s₀.index) with
    ⟨hrun, hnone⟩ | ⟨j, hj, hj', hrun, hlt, hleast⟩
  · rw [hrun] at hbest
    have hmin : s₁.min = 0x7fffffff := BitVec.eq_of_toInt_eq (congrArg Prod.fst hbest)
    have hindex : s₁.index = s.index := congrArg Prod.snd hbest
    obtain ⟨rest', hmerges, hleft⟩ := h.step_sentinel hsrc (fun k hk hk' =>
      hnone k (List.mem_range.mpr hk) ((havail k hk).mpr hk')) hi s.index
    exact hfinish rest' (hindex ▸ h.index) (hmin ▸ hmerges) (.inr (hindex ▸ hleft))
  · rw [hrun] at hbest
    have hmin : s₁.min = s.data j := BitVec.eq_of_toInt_eq (congrArg Prod.fst hbest)
    have hindex : s₁.index = j := congrArg Prod.snd hbest
    have hjx := List.mem_range.mp hj
    have hmerges := h.step_found hsrc hjx ((havail j hjx).mp hj') hlt fun k hk hk' =>
      hleast k (List.mem_range.mpr hk) ((havail k hk).mpr hk')
    exact hfinish _ (hindex ▸ hjx) (hmin ▸ hmerges) (.inl (hindex ▸ rfl))

lemma Merging.turns {chunckSize remainder : Hint} (hx : 1 ≤ x) (hx' : x ≤ 128)
    (hlim : ∀ j < x, (limit chunckSize remainder x j).toNat < 2 ^ 31)
    (hsrc : Ordered src chunckSize.toNat x (limit chunckSize remainder x))
    (h : Merging src chunckSize.toNat x (limit chunckSize remainder x) all 0 p rest s)
    (hall : Multiset.card all < 2 ^ 31) (n : ℕ) (hn : n ≤ Multiset.card all) :
    ∃ p' rest', Merging src chunckSize.toNat x (limit chunckSize remainder x) all n p' rest'
      ((List.range n).foldl (mergeTurn chunckSize remainder src x) s) := by
  induction n with
  | zero => exact ⟨p, rest, h⟩
  | succ n ih =>
    obtain ⟨p', rest', hn'⟩ := ih (by omega)
    rw [List.range_succ, List.foldl_append]
    exact hn'.turn hx hx' hlim hsrc (by omega) hall

end Invariant

section Start

variable {chunckSize remainder : Hint} {src : ℕ → Hint} {bram : Bram}

lemma startChunks_spec (k : ℕ) (hk : k ≤ 128) :
    ∀ j < k, (List.range k).foldl (startChunk chunckSize src) bram (ptrAddr j) = 0 ∧
      (List.range k).foldl (startChunk chunckSize src) bram (dataAddr j) =
        src (j * chunckSize.toNat) := by
  induction k with
  | zero => exact fun j hj => absurd hj (Nat.not_lt_zero j)
  | succ k ih =>
    intro j hj
    simp only [List.range_succ, List.foldl_append, List.foldl_cons, List.foldl_nil, startChunk]
    by_cases hjk : j = k
    · rw [hjk, Function.update_of_ne (ptrAddr_ne_dataAddr (by omega)), Function.update_self,
        Function.update_self]
      exact ⟨rfl, rfl⟩
    · rw [Function.update_of_ne (ptrAddr_ne_dataAddr (by omega)),
        Function.update_of_ne (ptrAddr_ne hjk), Function.update_of_ne (dataAddr_ne hjk),
        Function.update_of_ne (ptrAddr_ne_dataAddr (by omega)).symm]
      exact ih (by omega) j (by omega)

variable {n x : Hint}

lemma toNat_sdiv (hx : 1 ≤ x.toInt) (hn : 0 ≤ n.toInt) : (n.sdiv x).toNat = n.toNat / x.toNat := by
  have hnmsb : n.msb = false := by simpa [BitVec.msb_eq_toInt] using hn
  have hxmsb : x.msb = false := by simpa [BitVec.msb_eq_toInt] using (by omega : 0 ≤ x.toInt)
  rw [BitVec.sdiv_eq, hnmsb, hxmsb]
  exact BitVec.toNat_udiv

lemma toNat_srem (hx : 1 ≤ x.toInt) (hn : 0 ≤ n.toInt) : (n.srem x).toNat = n.toNat % x.toNat := by
  have hnmsb : n.msb = false := by simpa [BitVec.msb_eq_toInt] using hn
  have hxmsb : x.msb = false := by simpa [BitVec.msb_eq_toInt] using (by omega : 0 ≤ x.toInt)
  rw [BitVec.srem_eq, hnmsb, hxmsb]
  exact BitVec.toNat_umod

lemma toNat_of_nonneg {v : Hint} (h : 0 ≤ v.toInt) :
    (v.toNat : ℤ) = v.toInt ∧ v.toNat < 2 ^ 31 := by
  have hmsb : v.msb = false := by simpa [BitVec.msb_eq_toInt] using h
  have hint := BitVec.toInt_eq_toNat_of_msb hmsb
  have hlt := BitVec.toInt_lt (x := v)
  exact ⟨hint.symm, by omega⟩

lemma toNat_chunkCount (hx : 1 ≤ x.toInt) (hx' : x.toInt + 1 ≤ 128) :
    (chunkCount x remainder).toNat = if remainder = 0 then x.toNat else x.toNat + 1 := by
  have hnat := toNat_of_nonneg (v := x) (by omega)
  rw [chunkCount]
  by_cases hrem : remainder = 0
  · rw [if_neg (by simp [hrem]), if_pos hrem]
  · rw [if_pos hrem, if_neg hrem]
    bv_omega

lemma unmerged_start (hx : 1 ≤ x.toInt) (hx' : x.toInt + 1 ≤ 128) (hn : 0 ≤ n.toInt)
    (src : ℕ → Hint) :
    unmerged src (n.sdiv x).toNat (chunkCount x (n.srem x)).toNat
        (limit (n.sdiv x) (n.srem x) (chunkCount x (n.srem x)).toNat) (fun _ => 0) =
      ((List.range n.toNat).map src : List Hint) := by
  have hrange : ((List.range n.toNat).map src : Multiset Hint) =
      (Multiset.Ico 0 n.toNat).map src :=
    congrArg (Multiset.map src) (congrArg Finset.val (Finset.range_eq_Ico n.toNat))
  have hdivision := Nat.div_add_mod n.toNat x.toNat
  rw [hrange, toNat_chunkCount hx hx']
  by_cases hrem : n.srem x = 0
  · have hzero : n.toNat % x.toNat = 0 := by
      rw [← toNat_srem hx hn, hrem]
      rfl
    have hwhole : x.toNat * (n.toNat / x.toNat) = n.toNat := by omega
    have hlim : limit (n.sdiv x) (n.srem x) x.toNat = fun _ => n.sdiv x := by
      funext j
      rw [limit, if_neg fun h => h.2 hrem]
    rw [if_pos hrem, hlim]
    exact (remaining_equal src (n.sdiv x).toNat x.toNat).trans (by rw [toNat_sdiv hx hn, hwhole])
  · have hfull : ∀ j ∈ Finset.range x.toNat, runTail (chunk src (n.sdiv x).toNat j)
        (limit (n.sdiv x) (n.srem x) (x.toNat + 1) j).toNat 0 =
          runTail (fun i => src (j * (n.sdiv x).toNat + i)) (n.sdiv x).toNat 0 := by
      intro j hj
      have hlt := Finset.mem_range.mp hj
      rw [limit, if_neg (by omega)]
      rfl
    have hlast : runTail (chunk src (n.sdiv x).toNat x.toNat)
        (limit (n.sdiv x) (n.srem x) (x.toNat + 1) x.toNat).toNat 0 =
          (Multiset.Ico (x.toNat * (n.toNat / x.toNat)) n.toNat).map src := by
      rw [limit, if_pos ⟨rfl, hrem⟩]
      refine (runTail_shift src (x.toNat * (n.sdiv x).toNat) _).trans ?_
      rw [toNat_sdiv hx hn, toNat_srem hx hn, hdivision]
    rw [if_neg hrem, unmerged, remaining, Finset.sum_range_succ, hlast, Finset.sum_congr rfl hfull,
      ← remaining, remaining_equal, toNat_sdiv hx hn, ← Multiset.map_add,
      Multiset.Ico_add_Ico_eq_Ico (Nat.zero_le _) (by omega)]

/-- Each of the `x` chunks, and the trailing one, is in ascending order. -/
def ChunksAscend (x n : Hint) (src : ℕ → Hint) : Prop :=
  (∀ j < x.toNat, ∀ a b, a ≤ b → b < n.toNat / x.toNat →
      (src (j * (n.toNat / x.toNat) + a)).toInt ≤ (src (j * (n.toNat / x.toNat) + b)).toInt) ∧
    ∀ a b, a ≤ b → b < n.toNat % x.toNat →
      (src (x.toNat * (n.toNat / x.toNat) + a)).toInt ≤
        (src (x.toNat * (n.toNat / x.toNat) + b)).toInt

lemma ordered_of_chunksAscend (hx : 1 ≤ x.toInt) (hx' : x.toInt + 1 ≤ 128) (hn : 0 ≤ n.toInt)
    (h : ChunksAscend x n src) :
    Ordered src (n.sdiv x).toNat (chunkCount x (n.srem x)).toNat
      (limit (n.sdiv x) (n.srem x) (chunkCount x (n.srem x)).toNat) := by
  intro j hj a b hab hb
  have hcount : (chunkCount x (n.srem x)).toNat = if n.srem x = 0 then x.toNat else x.toNat + 1 :=
    toNat_chunkCount hx hx'
  rw [limit] at hb
  rw [chunk, chunk, toNat_sdiv hx hn]
  split_ifs at hb with hend
  · rw [hcount, if_neg hend.2] at hend
    obtain rfl : j = x.toNat := by omega
    exact h.2 a b hab (by rwa [toNat_srem hx hn] at hb)
  · have hjx : j < x.toNat := by
      split_ifs at hcount with hrem
      · omega
      · have : ¬ j + 1 = (chunkCount x (n.srem x)).toNat := fun he => hend ⟨he, hrem⟩
        omega
    exact h.1 j hjx a b hab (by rwa [toNat_sdiv hx hn] at hb)

lemma limit_lt (hx : 1 ≤ x.toInt) (hn : 0 ≤ n.toInt) (k j : ℕ) :
    (limit (n.sdiv x) (n.srem x) k j).toNat < 2 ^ 31 := by
  have hnat := toNat_of_nonneg hn
  have hdiv := Nat.div_le_self n.toNat x.toNat
  have hmod := Nat.mod_le n.toNat x.toNat
  rw [limit]
  split_ifs
  · rw [toNat_srem hx hn]
    omega
  · rw [toNat_sdiv hx hn]
    omega

lemma merging_start (hx : 1 ≤ x.toInt) (hx' : x.toInt + 1 ≤ 128) (hn : 0 ≤ n.toInt) (src : ℕ → Hint)
    (s : MergeState) :
    Merging src (n.sdiv x).toNat (chunkCount x (n.srem x)).toNat
      (limit (n.sdiv x) (n.srem x) (chunkCount x (n.srem x)).toNat)
      ((List.range n.toNat).map src : List Hint) 0 (fun _ => 0)
      ((List.range n.toNat).map src : List Hint)
      { s with
        bram := (List.range (chunkCount x (n.srem x)).toNat).foldl
          (startChunk (n.sdiv x) src) s.bram
        index := 0 } := by
  have hnat := toNat_of_nonneg (v := x) (by omega)
  have hcount : (chunkCount x (n.srem x)).toNat = if n.srem x = 0 then x.toNat else x.toNat + 1 :=
    toNat_chunkCount hx hx'
  have hle : (chunkCount x (n.srem x)).toNat ≤ 128 := by
    rw [hcount]
    split_ifs <;> omega
  have hpos : 0 < (chunkCount x (n.srem x)).toNat := by
    rw [hcount]
    split_ifs <;> omega
  exact {
    ptr := fun j hj => (startChunks_spec _ hle j hj).1
    data := fun j hj => (startChunks_spec _ hle j hj).2
    index := hpos
    small := fun j _ => le_refl 0
    merges := .start _ _
    left := .inl (unmerged_start hx hx' hn src).symm }

/-- The elements are put out in ascending order, whatever is stored behind the array. -/
theorem mergeSort_sorts (x n : Hint) (src : ℕ → Hint) (s : MergeState) (hx : 1 ≤ x.toInt)
    (hx' : x.toInt + 1 ≤ 128) (hn : 0 ≤ n.toInt) (hsrc : ChunksAscend x n src) :
    (∀ i j, i ≤ j → j < n.toNat →
        ((mergeSort x n src s).des i).toInt ≤ ((mergeSort x n src s).des j).toInt) ∧
      ((List.range n.toNat).map (mergeSort x n src s).des).Perm ((List.range n.toNat).map src) := by
  have hnat := toNat_of_nonneg (v := x) (by omega)
  have hnat' := toNat_of_nonneg hn
  have hcount : (chunkCount x (n.srem x)).toNat = if n.srem x = 0 then x.toNat else x.toNat + 1 :=
    toNat_chunkCount hx hx'
  have hcard : Multiset.card ((List.range n.toNat).map src : Multiset Hint) = n.toNat := by simp
  obtain ⟨p, rest, hend⟩ := (merging_start hx hx' hn src s).turns
    (by rw [hcount]; split_ifs <;> omega) (by rw [hcount]; split_ifs <;> omega)
    (fun j _ => limit_lt hx hn _ j) (ordered_of_chunksAscend hx hx' hn hsrc) (by omega) n.toNat
    (le_of_eq hcard.symm)
  have hempty : rest = 0 := by
    have hsum := hend.merges.card
    rw [List.length_map, List.length_range, hcard] at hsum
    exact Multiset.card_eq_zero.mp (by omega)
  have hperm := hend.merges.sum
  rw [hempty, add_zero] at hperm
  refine ⟨fun i j hij hj => ?_, Multiset.coe_eq_coe.mp hperm⟩
  rcases hij.eq_or_lt with rfl | hlt
  · exact le_refl _
  · have hsorted :=
      List.pairwise_iff_getElem.mp hend.merges.sorted i j (by simp; omega) (by simpa) hlt
    simp only [List.getElem_map, List.getElem_range] at hsorted
    exact hsorted

def shortChunks (i : ℕ) : Hint := [3, 0x7fffffff, -1, 0x7fffffff, 2].getD i 5

def clearedMemory : MergeState := { bram := fun _ => 0, des := fun _ => 0, index := 0, min := 0 }

theorem mergeSort_of_short_chunks :
    ((List.range 5).map (mergeSort 2 5 shortChunks clearedMemory).des).Perm
      ((List.range 5).map shortChunks) := by
  refine (mergeSort_sorts 2 5 shortChunks clearedMemory (by decide) (by decide) (by decide)
    ⟨?_, ?_⟩).2
  · intro j hj a b hab hb
    change j < 2 at hj
    change b < 2 at hb
    interval_cases j <;> interval_cases b <;> interval_cases a <;> decide
  · intro a b hab hb
    change b < 1 at hb
    interval_cases b
    interval_cases a
    decide

end Start

end Hthreads.Accelerators
