import Hthreads.Sysace.Loading

/-! Reading, writing and flushing: what the driver answers and leaves, in terms of the contents that
the cache stands for. -/

namespace Hthreads.Sysace

open Library Software

def sectorsFrom (contents : Huint → Sector) (start : Huint) (n : ℕ) : List Sector :=
  (List.range n).map fun k => contents (start + BitVec.ofNat 32 k)

def overwrite (contents : Huint → Sector) (start : Huint) (buffer : ℕ → Sector) (n : ℕ) :
    Huint → Sector := fun s =>
  if (s - start).toNat < n then buffer (s - start).toNat else contents s

lemma sectorsFrom_succ (contents : Huint → Sector) (start : Huint) (n : ℕ) :
    sectorsFrom contents start (n + 1) = contents start :: sectorsFrom contents (start + 1) n := by
  rw [sectorsFrom, List.range_succ_eq_map, List.map_cons, List.map_map, sectorsFrom]
  congr 1
  · exact congrArg contents (BitVec.add_zero _)
  · refine List.map_congr_left fun k _ => ?_
    have hsucc : start + BitVec.ofNat 32 (k + 1) = start + 1 + BitVec.ofNat 32 k := by
      rw [Nat.add_comm, BitVec.ofNat_add, ← BitVec.add_assoc]
      rfl
    exact congrArg contents hsucc

lemma overwrite_succ (contents : Huint → Sector) (start : Huint) (buffer : ℕ → Sector) {n : ℕ}
    (hn : n + 1 < 2 ^ 32) :
    overwrite (Function.update contents start (buffer 0)) (start + 1) (fun k => buffer (k + 1)) n =
      overwrite contents start buffer (n + 1) := by
  funext s
  rw [overwrite, overwrite]
  by_cases hs : s = start
  · have hfirst : (s - start).toNat = 0 := by
      rw [hs, BitVec.sub_self]
      rfl
    have hlast : ¬ (s - (start + 1)).toNat < n := by bv_omega
    rw [if_neg hlast, hfirst, if_pos (Nat.succ_pos n), hs, Function.update_self]
  · have hnext : (s - start).toNat = (s - (start + 1)).toNat + 1 := by bv_omega
    rw [hnext, Function.update_of_ne hs]
    simp only [Nat.add_lt_add_iff_right]

namespace Ace

variable {ace : Ace} {size : ℕ} {contents : Huint → Sector}

section Writing

variable {line : ℕ} {block : Huint} {data : Sector}

def stored (ace : Ace) (line : ℕ) (block : Huint) (data : Sector) : Ace :=
  { ace.reach line (ace.offset block) dataSector with
    cache := Function.update ace.cache (ace.slot line (ace.offset block)) data
    info := Function.update ace.info line { ace.info line with dirty := true } }

lemma stored_sector (i : ℕ) :
    ((ace.stored line block data).info i).sector = (ace.info i).sector := by
  by_cases hi : i = line
  · subst hi
    simp [stored]
  · simp [stored, hi]

lemma stored_cold (i : ℕ) : ((ace.stored line block data).info i).cold = (ace.info i).cold := by
  by_cases hi : i = line
  · subst hi
    simp [stored]
  · simp [stored, hi]

lemma stored_warm (i : ℕ) : (ace.stored line block data).Warm i ↔ ace.Warm i := by
  rw [Warm, Warm, stored_cold]
  rfl

lemma stored_covers (i : ℕ) (s : Huint) :
    (ace.stored line block data).Covers i s ↔ ace.Covers i s := by
  rw [Covers, Covers, stored_sector]
  rfl

lemma Represents.stored (h : ace.Represents size contents) (hline : ace.Warm line)
    (hblock : ace.Covers line block) :
    (ace.stored line block data).Represents size (Function.update contents block data) := by
  have hoffset : ace.offset block < ace.lines.toNat := by
    rw [h.offset_eq hline hblock]
    exact hblock
  have hstart : (ace.info line).sector + BitVec.ofNat 32 (ace.offset block) = block := by
    rw [h.offset_eq hline hblock, add_ofNat_sub]
  -- the memory of another sector, and the sector itself
  have hslot {i k : ℕ} (hi : i < ace.depth.toNat) (hk : k < ace.lines.toNat)
      (hne : ¬ (i = line ∧ k = ace.offset block)) :
      (ace.stored line block data).cache (ace.slot i k) = ace.cache (ace.slot i k) :=
    Function.update_of_ne (fun heq => hne (slot_inj h.fits hi hline.1 hk hoffset heq)) _ _
  have hsector {i k : ℕ} (hi : ace.Warm i) (hk : k < ace.lines.toNat)
      (heq : (ace.info i).sector + BitVec.ofNat 32 k = block) :
      i = line ∧ k = ace.offset block := by
    have hcovers : ace.Covers i block := heq ▸ h.covers_add hk
    have hle := h.geometry.lines_le
    refine ⟨h.eq_of_covers hi hline hcovers hblock, ?_⟩
    rw [h.offset_eq hi hcovers, ← heq, add_ofNat_sub_self (by omega)]
  constructor
  · exact h.geometry
  · exact (h.fits.reach_sector hline.1 block).congr rfl rfl rfl rfl
  · exact h.size_lt
  · exact h.allocated
  · intro i hi
    rw [stored_sector]
    exact h.aligned i ((stored_warm i).mp hi)
  · intro i hi
    rw [stored_sector]
    exact h.inside i ((stored_warm i).mp hi)
  · intro i hi hdirty
    rw [stored_cold]
    by_cases hil : i = line
    · exact hil ▸ hline.2
    · refine h.warm_of_dirty i hi ?_
      simpa [Ace.stored, hil] using hdirty
  · intro i j hi hj
    rw [stored_sector, stored_sector]
    exact h.apart i j ((stored_warm i).mp hi) ((stored_warm j).mp hj)
  · intro i hi hclean k hk
    have hil : i ≠ line := by
      rintro rfl
      simp [Ace.stored] at hclean
    have hclean' : (ace.info i).dirty = false := by simpa [Ace.stored, hil] using hclean
    rw [stored_sector]
    refine (hslot hi.1 hk fun heq => hil heq.1).trans ?_
    exact h.clean i ((stored_warm i).mp hi) hclean' k hk
  · intro i hi k hk
    rw [stored_warm] at hi
    rw [stored_sector]
    by_cases heq : i = line ∧ k = ace.offset block
    · obtain ⟨rfl, rfl⟩ := heq
      have hself : (ace.stored i block data).cache (ace.slot i (ace.offset block)) = data := by
        simp [Ace.stored]
      rw [hstart, Function.update_self]
      exact hself.symm
    · rw [Function.update_of_ne fun heq' => heq (hsector hi hk heq')]
      exact (h.cached i hi k hk).trans (hslot hi.1 hk heq).symm
  · intro s hs hnone
    have hnone' (i : ℕ) (hi : ace.Warm i) : ¬ ace.Covers i s := fun hcovers =>
      hnone i ((stored_warm i).mpr hi) ((stored_covers i s).mpr hcovers)
    have hne : s ≠ block := fun heq => hnone' line hline (heq ▸ hblock)
    rw [Function.update_of_ne hne]
    exact h.uncached s hs hnone'

lemma Represents.writeSector (h : ace.Represents size contents) (hline : ace.Warm line)
    (hblock : ace.Covers line block) :
    (ace.writeSector line block data).Represents size (Function.update contents block data) := by
  have hstored : (ace.stored line block data).Represents size
    (Function.update contents block data) := h.stored hline hblock
  have hframe := cachetouch_frame
    { ace.reach line (ace.offset block) dataSector with
      cache := Function.update ace.cache (ace.slot line (ace.offset block)) data } line
  refine hstored.congr (h.fits.writeSector hline.1 block data) hframe.1 hframe.2.1 hframe.2.2.1
    (fun i => ?_) (fun i => ?_) (fun i => ?_) hframe.2.2.2.1 hframe.2.2.2.2
  all_goals
    by_cases hi : i = line
    · subst hi
      simp [Ace.writeSector, Ace.setInfo, cachetouch_info, Ace.stored]
    · simp [Ace.writeSector, Ace.setInfo, cachetouch_info, Ace.stored, hi]

end Writing

section Loops

variable {block : Huint}

lemma add_one_toNat {left : ℕ} (hleft : block.toNat + (left + 1) ≤ size) :
    (block + 1).toNat + left ≤ size := by
  have hone : (1 : Huint).toNat = 1 := rfl
  rw [BitVec.toNat_add, hone]
  omega

lemma Represents.readLoop (h : ace.Represents size contents) {left : ℕ}
    (hleft : block.toNat + left ≤ size) :
    (ace.readLoop block left).1 = sectorsFrom contents block left ∧
      (ace.readLoop block left).2.Represents size contents := by
  induction left generalizing ace block with
  | zero => exact ⟨rfl, h⟩
  | succ left ih =>
    have hblock : block.toNat < size := by omega
    obtain ⟨hlocated, hwarm, hcovers⟩ := h.locate hblock
    obtain ⟨hrest, hrest'⟩ :=
      ih ((hlocated.reach hwarm.1 block).cachetouch _) (add_one_toNat hleft)
    refine ⟨?_, hrest'⟩
    rw [sectorsFrom_succ, ← hrest, hlocated.contents_eq hwarm hcovers]
    rfl

lemma Represents.writeLoop (h : ace.Represents size contents) {left : ℕ} {buffer : ℕ → Sector}
    (hleft : block.toNat + left ≤ size) :
    (ace.writeLoop block buffer left).Represents size (overwrite contents block buffer left) := by
  induction left generalizing ace block buffer contents with
  | zero => exact h
  | succ left ih =>
    have hsize := h.size_lt
    have hblock : block.toNat < size := by omega
    obtain ⟨hlocated, hwarm, hcovers⟩ := h.locate hblock
    rw [← overwrite_succ contents block buffer (by omega)]
    exact ih (hlocated.writeSector hwarm hcovers) (add_one_toNat hleft)

lemma rounds_eq {start num : Huint} (hsize : size < 2 ^ 32) (h : start.toNat + num.toNat ≤ size) :
    rounds start num = num.toNat := by
  rw [rounds, BitVec.toNat_add]
  omega

end Loops

section Flushing

variable {line : ℕ}

lemma Represents.drop (h : ace.Represents size contents)
    (hclean : (ace.info line).dirty = false) :
    (ace.setInfo line .empty).Represents size contents := by
  have hself : (ace.setInfo line .empty).info line = .empty := by simp [Ace.setInfo]
  have hother {i : ℕ} (hi : i ≠ line) : (ace.setInfo line .empty).info i = ace.info i := by
    simp [Ace.setInfo, hi]
  have hwarm {i : ℕ} (hi : (ace.setInfo line .empty).Warm i) : i ≠ line ∧ ace.Warm i := by
    have hne : i ≠ line := by
      rintro rfl
      rw [Warm, hself] at hi
      cases hi.2
    rw [Warm, hother hne] at hi
    exact ⟨hne, hi⟩
  constructor
  · exact h.geometry
  · exact h.fits.congr rfl rfl rfl rfl
  · exact h.size_lt
  · exact h.allocated
  · intro i hi
    rw [hother (hwarm hi).1]
    exact h.aligned i (hwarm hi).2
  · intro i hi
    rw [hother (hwarm hi).1]
    exact h.inside i (hwarm hi).2
  · intro i hi hdirty
    by_cases hil : i = line
    · rw [hil, hself] at hdirty
      cases hdirty
    · rw [hother hil] at hdirty ⊢
      exact h.warm_of_dirty i hi hdirty
  · intro i j hi hj
    rw [hother (hwarm hi).1, hother (hwarm hj).1]
    exact h.apart i j (hwarm hi).2 (hwarm hj).2
  · intro i hi
    rw [hother (hwarm hi).1]
    exact h.clean i (hwarm hi).2
  · intro i hi
    rw [hother (hwarm hi).1]
    exact h.cached i (hwarm hi).2
  · intro s hs hnone
    by_cases hdropped : ace.Warm line ∧ ace.Covers line s
    · obtain ⟨hline, hcovers⟩ := hdropped
      rw [h.contents_eq hline hcovers, h.offset_eq hline hcovers,
        h.clean line hline hclean _ hcovers, add_ofNat_sub]
      rfl
    · refine h.uncached s hs fun i hi hcovers => ?_
      by_cases hil : i = line
      · exact hdropped (hil ▸ ⟨hi, hcovers⟩)
      · refine hnone i ?_ ?_
        · rw [Warm, hother hil]
          exact hi
        · rw [Covers, hother hil]
          exact hcovers

lemma Represents.flushLine (h : ace.Represents size contents) (hline : line < ace.depth.toNat) :
    (ace.flushLine line).Represents size contents := by
  rw [Ace.flushLine]
  split
  next hdirty =>
    exact (h.cachestore ⟨hline, h.warm_of_dirty line hline hdirty⟩).drop
      (cachestore_dirty_self line)
  next hdirty => exact h.drop (Bool.eq_false_of_not_eq_true hdirty)

lemma flushLine_frame (ace : Ace) (line : ℕ) :
    (ace.flushLine line).depth = ace.depth ∧ (ace.flushLine line).lines = ace.lines := by
  rw [flushLine]
  split <;> exact ⟨rfl, rfl⟩

lemma flushLine_cold (ace : Ace) (line i : ℕ) :
    ((ace.flushLine line).info i).cold = if i = line then true else (ace.info i).cold := by
  rw [flushLine]
  by_cases hi : i = line
  · simp [hi, setInfo, CacheInfo.empty]
  · simp only [setInfo, Function.update_of_ne hi, if_neg hi]
    split
    · exact cachestore_cold line i
    · rfl

lemma Represents.flushLoop (h : ace.Represents size contents) {i left : ℕ}
    (hleft : i + left = ace.depth.toNat) (hcold : ∀ j < i, (ace.info j).cold = true) :
    (ace.flushLoop i left).Represents size contents ∧
      (∀ j < ace.depth.toNat, ((ace.flushLoop i left).info j).cold = true) ∧
      (ace.flushLoop i left).depth = ace.depth := by
  induction left generalizing ace i with
  | zero => exact ⟨h, fun j hj => hcold j (by omega), rfl⟩
  | succ left ih =>
    obtain ⟨hdepth, -⟩ := flushLine_frame ace i
    have hnext : ∀ j < i + 1, ((ace.flushLine i).info j).cold = true := by
      intro j hj
      rw [flushLine_cold]
      split
      next => rfl
      next hne => exact hcold j (by omega)
    have := ih (h.flushLine (by omega)) (by rw [hdepth]; omega) hnext
    rwa [hdepth] at this

lemma Represents.cacheflush (h : ace.Represents size contents) :
    ace.cacheflush.Represents size contents ∧
      ∀ s, s.toNat < size → ace.cacheflush.device s = contents s := by
  obtain ⟨hloop, hcold, hdepth⟩ := h.flushLoop (Nat.zero_add _) (fun j hj => by omega)
  have hflush : ace.cacheflush.Represents size contents :=
    hloop.congr (hloop.fits.congr rfl rfl rfl rfl) rfl rfl rfl (fun _ => rfl) (fun _ => rfl)
      (fun _ => rfl) rfl rfl
  refine ⟨hflush, fun s hs => (hflush.uncached s hs fun i hi _ => ?_).symm⟩
  have hwarm := hi.2
  have hcold' : (ace.cacheflush.info i).cold = true := hcold i (hdepth ▸ hi.1)
  rw [hcold'] at hwarm
  cases hwarm

end Flushing

end Ace

end Hthreads.Sysace
