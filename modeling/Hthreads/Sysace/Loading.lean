import Hthreads.Sysace.Lines

/-! Finding the line of a block, and reading it in when there is none. -/

namespace Hthreads.Sysace

open Library Software

namespace Ace

variable {ace : Ace} {size : ℕ} {contents : Huint → Sector}

variable {line : ℕ} {sector : Huint}

lemma cacheload_info_self : (ace.cacheload line sector).info line =
    { ace.info line with sector := sector, cold := false, dirty := false } := by
  simp [cacheload]

lemma cacheload_info_of_ne {i : ℕ} (hi : i ≠ line) :
    (ace.cacheload line sector).info i = ace.info i := by
  simp [cacheload, hi]

lemma cacheload_cache_self (hfits : ace.Fits) (hlines : ace.lines.toNat ≤ 255)
    (hline : line < ace.depth.toNat) {k : ℕ} (hk : k < ace.lines.toNat) :
    (ace.cacheload line sector).cache (ace.slot line k) =
      ace.device (sector + BitVec.ofNat 32 k) := by
  have hstart := hfits.slot_eq hline hfits.lines_pos
  have hslot := hfits.slot_eq hline hk
  have hoffset : ace.slot line k - ace.slot line 0 = k := by omega
  simp only [cacheload, cfReadsector, transfer_count hlines, hoffset]
  exact if_pos ⟨by omega, hk⟩

lemma cacheload_cache_of_ne (hfits : ace.Fits) (hlines : ace.lines.toNat ≤ 255)
    (hline : line < ace.depth.toNat) {i k : ℕ} (hi : i ≠ line) (hi' : i < ace.depth.toNat)
    (hk : k < ace.lines.toNat) :
    (ace.cacheload line sector).cache (ace.slot i k) = ace.cache (ace.slot i k) := by
  simp only [cacheload, cfReadsector, transfer_count hlines]
  refine if_neg fun hin => hi ?_
  have hstart := hfits.slot_eq hline hfits.lines_pos
  have hslot : ace.slot i k = ace.slot line (ace.slot i k - ace.slot line 0) := by
    rw [hfits.slot_eq hline hin.2]
    omega
  exact (slot_inj hfits hi' hline hk hin.2 hslot).1

variable {block : Huint}

lemma lineStart_toNat (block lines : Huint) :
    (block - block % lines).toNat = block.toNat - block.toNat % lines.toNat := by
  have hle : block.toNat % lines.toNat ≤ block.toNat := Nat.mod_le _ _
  have hlt := block.isLt
  rw [BitVec.toNat_sub, BitVec.toNat_umod]
  omega

lemma sub_lineStart (block lines : Huint) :
    (block - (block - block % lines)).toNat = block.toNat % lines.toNat := by
  have hle : block.toNat % lines.toNat ≤ block.toNat := Nat.mod_le _ _
  have hlt := block.isLt
  rw [BitVec.toNat_sub, lineStart_toNat]
  omega

lemma lineStart_dvd (block lines : Huint) :
    lines.toNat ∣ (block - block % lines).toNat := by
  rw [lineStart_toNat]
  exact Nat.dvd_sub_mod _

lemma lineStart_inside {lines : Huint} (hpos : 1 ≤ lines.toNat) (hdvd : lines.toNat ∣ size)
    (hblock : block.toNat < size) : (block - block % lines).toNat + lines.toNat ≤ size := by
  obtain ⟨x, hx⟩ := hdvd
  have hdiv : block.toNat / lines.toNat < x := by
    rw [Nat.div_lt_iff_lt_mul hpos, Nat.mul_comm, ← hx]
    exact hblock
  have hsplit := Nat.div_add_mod block.toNat lines.toNat
  have hle : lines.toNat * (block.toNat / lines.toNat + 1) ≤ lines.toNat * x :=
    Nat.mul_le_mul_left _ hdiv
  rw [lineStart_toNat, hx]
  rw [Nat.mul_add] at hle
  omega

lemma cacheload_warm_of_ne {i : ℕ} (hi : i ≠ line) :
    (ace.cacheload line sector).Warm i ↔ ace.Warm i := by
  rw [Warm, Warm, cacheload_info_of_ne hi]
  rfl

lemma cacheload_covers_of_ne {i : ℕ} (hi : i ≠ line) (s : Huint) :
    (ace.cacheload line sector).Covers i s ↔ ace.Covers i s := by
  rw [Covers, Covers, cacheload_info_of_ne hi]
  rfl

section Miss

variable (h : ace.Represents size contents) (hblock : block.toNat < size)
  (hmiss : ∀ i, ace.Warm i → ¬ ace.Covers i block)

include h hblock hmiss

lemma not_covers_of_miss {i : ℕ} (hi : ace.Warm i) {s : Huint}
    (hs : (s - (block - block % ace.lines)).toNat < ace.lines.toNat) : ¬ ace.Covers i s := by
  intro hcovers
  have hsize := h.size_lt
  have hpos := h.geometry.lines_pos
  have hinside := lineStart_inside hpos h.geometry.dvd hblock
  have hinside' := h.inside i hi
  have hstart : (ace.info i).sector = block - block % ace.lines :=
    aligned_eq hpos (h.aligned i hi) (lineStart_dvd _ _) (by omega) (by omega) hcovers hs
  refine hmiss i hi ?_
  rw [Covers, hstart, sub_lineStart]
  exact Nat.mod_lt _ hpos

lemma Represents.cacheload (hline : line < ace.depth.toNat)
    (hclean : (ace.info line).dirty = false) :
    (ace.cacheload line (block - block % ace.lines)).Represents size contents := by
  have hsize := h.size_lt
  have hle := h.geometry.lines_le
  have hinside := lineStart_inside h.geometry.lines_pos h.geometry.dvd hblock
  constructor
  · exact h.geometry
  · exact h.fits.cacheload hline _
  · exact hsize
  · exact h.allocated
  · intro i hi
    by_cases hil : i = line
    · rw [hil, cacheload_info_self]
      exact lineStart_dvd _ _
    · rw [cacheload_info_of_ne hil]
      exact h.aligned i ((cacheload_warm_of_ne hil).mp hi)
  · intro i hi
    by_cases hil : i = line
    · rw [hil, cacheload_info_self]
      exact hinside
    · rw [cacheload_info_of_ne hil]
      exact h.inside i ((cacheload_warm_of_ne hil).mp hi)
  · intro i hi hdirty
    by_cases hil : i = line
    · rw [hil, cacheload_info_self]
    · rw [cacheload_info_of_ne hil] at hdirty ⊢
      exact h.warm_of_dirty i hi hdirty
  · have hother {i : ℕ} (hil : i ≠ line)
        (hi : (ace.cacheload line (block - block % ace.lines)).Warm i) :
        ((ace.cacheload line (block - block % ace.lines)).info i).sector ≠
          block - block % ace.lines := by
      intro hstart
      rw [cacheload_info_of_ne hil] at hstart
      refine hmiss i ((cacheload_warm_of_ne hil).mp hi) ?_
      rw [Covers, hstart, sub_lineStart]
      exact Nat.mod_lt _ h.geometry.lines_pos
    intro i j hi hj heq
    by_cases hil : i = line
    · by_cases hjl : j = line
      · rw [hil, hjl]
      · rw [hil, cacheload_info_self] at heq
        exact (hother hjl hj heq.symm).elim
    · by_cases hjl : j = line
      · rw [hjl, cacheload_info_self] at heq
        exact (hother hil hi heq).elim
      · rw [cacheload_info_of_ne hil, cacheload_info_of_ne hjl] at heq
        exact h.apart i j ((cacheload_warm_of_ne hil).mp hi) ((cacheload_warm_of_ne hjl).mp hj) heq
  · intro i hi hdirty k hk
    by_cases hil : i = line
    · rw [hil, cacheload_info_self]
      exact cacheload_cache_self h.fits hle hline hk
    · rw [cacheload_info_of_ne hil] at hdirty ⊢
      refine (cacheload_cache_of_ne h.fits hle hline hil hi.1 hk).trans ?_
      exact h.clean i ((cacheload_warm_of_ne hil).mp hi) hdirty k hk
  · intro i hi k hk
    by_cases hil : i = line
    · rw [hil, cacheload_info_self]
      dsimp only
      refine .trans ?_ (cacheload_cache_self h.fits hle hline hk).symm
      have hk' : k < ace.lines.toNat := hk
      refine h.uncached _ ?_ fun j hj => not_covers_of_miss h hblock hmiss hj ?_
      · rw [toNat_add_ofNat (by omega)]
        omega
      · rw [add_ofNat_sub_self (by omega)]
        exact hk
    · rw [cacheload_info_of_ne hil]
      refine (h.cached i ((cacheload_warm_of_ne hil).mp hi) k hk).trans ?_
      exact (cacheload_cache_of_ne h.fits hle hline hil hi.1 hk).symm
  · intro s hs hnone
    have hnone' (i : ℕ) (hi : ace.Warm i) (hil : i ≠ line) : ¬ ace.Covers i s := fun hcovers =>
      hnone i ((cacheload_warm_of_ne hil).mpr hi) ((cacheload_covers_of_ne hil s).mpr hcovers)
    by_cases hevicted : ace.Warm line ∧ ace.Covers line s
    · -- the line that is given up was clean
      obtain ⟨hwarm, hcovers⟩ := hevicted
      rw [h.contents_eq hwarm hcovers, h.offset_eq hwarm hcovers,
        h.clean line hwarm hclean _ hcovers, add_ofNat_sub]
      rfl
    · refine h.uncached s hs fun i hi => ?_
      by_cases hil : i = line
      · rw [hil] at hi ⊢
        exact fun hcovers => hevicted ⟨hi, hcovers⟩
      · exact hnone' i hi hil

lemma cacheread_spec :
    (ace.cacheread block).2.Represents size contents ∧
      (ace.cacheread block).2.Warm (ace.cacheread block).1 ∧
      (ace.cacheread block).2.Covers (ace.cacheread block).1 block := by
  obtain ⟨hrepresents, hline, hclean, hlines, hdepth, hsector, hcold⟩ := h.cachereplace
  have hmiss' : ∀ i, ace.cachereplace.2.Warm i → ¬ ace.cachereplace.2.Covers i block := by
    intro i hi hcovers
    rw [Warm, hdepth, hcold] at hi
    rw [Covers, hsector, hlines] at hcovers
    exact hmiss i hi hcovers
  have hread : ace.cacheread block = (ace.cachereplace.1, ace.cachereplace.2.cacheload
      ace.cachereplace.1 (block - block % ace.cachereplace.2.lines)) := rfl
  rw [hread]
  refine ⟨hrepresents.cacheload hblock hmiss' hline hclean, ⟨hline, ?_⟩, ?_⟩
  · rw [cacheload_info_self]
  · rw [Covers, cacheload_info_self, sub_lineStart]
    exact Nat.mod_lt _ hrepresents.geometry.lines_pos

end Miss

lemma Represents.locate (h : ace.Represents size contents) (hblock : block.toNat < size) :
    (ace.locate block).2.Represents size contents ∧
      (ace.locate block).2.Warm (ace.locate block).1 ∧
      (ace.locate block).2.Covers (ace.locate block).1 block := by
  rw [Ace.locate]
  rcases hfind : ace.cachefind block with ⟨found, ace'⟩
  cases found with
  | some line =>
    obtain ⟨hrepresents, -, hwarm, hcovers⟩ := cachefind_some h hfind
    exact ⟨hrepresents, hwarm, hcovers⟩
  | none =>
    obtain ⟨hrepresents, hmiss⟩ := cachefind_none h hfind
    exact cacheread_spec hrepresents hblock hmiss

end Ace

end Hthreads.Sysace
