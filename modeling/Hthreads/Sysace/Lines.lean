import Hthreads.Sysace.Representation

/-! What each operation on the lines of the cache does to the contents it stands for. -/

namespace Hthreads.Sysace

open Library Software

namespace Ace

variable {ace : Ace} {size : ℕ} {contents : Huint → Sector}

section Finding

lemma holds_iff (hlines : ace.lines.toNat ≤ 255) {block : Huint} {i : ℕ} :
    ace.holds block i = true ↔ ace.Covers i block ∧ (ace.info i).cold = false := by
  have hsigned (diff : Huint) (hdiff : diff < ace.lines) : 0 ≤ diff.toInt := by
    have hlt : diff.toNat < ace.lines.toNat := hdiff
    rw [BitVec.toInt_eq_toNat_of_lt (by omega)]
    exact Int.natCast_nonneg _
  have hcovers : ace.Covers i block ↔ block - (ace.info i).sector < ace.lines := Iff.rfl
  simp only [holds, Bool.and_eq_true, decide_eq_true_eq, Bool.not_eq_true', hcovers]
  constructor
  · rintro ⟨⟨-, hlt⟩, hcold⟩
    exact ⟨hlt, hcold⟩
  · rintro ⟨hlt, hcold⟩
    exact ⟨⟨hsigned _ hlt, hlt⟩, hcold⟩

variable {block : Huint}

lemma cachefind_some (h : ace.Represents size contents) {line : ℕ} {ace' : Ace}
    (hfind : ace.cachefind block = (some line, ace')) :
    ace'.Represents size contents ∧ ace'.lines = ace.lines ∧ ace'.Warm line ∧
      ace'.Covers line block := by
  rw [cachefind] at hfind
  split at hfind
  next i hi =>
    cases hfind
    have hmem := List.mem_range.mp (List.mem_of_find?_eq_some hi)
    obtain ⟨hcovers, hcold⟩ := (holds_iff h.geometry.lines_le).mp (List.find?_some hi)
    have hfits : Fits { ace with hit := ace.hit + 1 } := h.fits.congr rfl rfl rfl rfl
    exact ⟨h.congr hfits rfl rfl rfl (fun _ => rfl) (fun _ => rfl) (fun _ => rfl) rfl rfl, rfl,
      ⟨hmem, hcold⟩, hcovers⟩
  next => cases hfind

lemma cachefind_none (h : ace.Represents size contents) {ace' : Ace}
    (hfind : ace.cachefind block = (none, ace')) :
    ace'.Represents size contents ∧ ∀ i, ace'.Warm i → ¬ ace'.Covers i block := by
  rw [cachefind] at hfind
  split at hfind
  next => cases hfind
  next hnone =>
    cases hfind
    have hfits : Fits { ace with miss := ace.miss + 1 } := h.fits.congr rfl rfl rfl rfl
    refine ⟨h.congr hfits rfl rfl rfl (fun _ => rfl) (fun _ => rfl) (fun _ => rfl) rfl rfl, ?_⟩
    intro i hi hcovers
    have := List.find?_eq_none.mp hnone i (List.mem_range.mpr hi.1)
    exact this ((holds_iff h.geometry.lines_le).mpr ⟨hcovers, hi.2⟩)

end Finding

section Marks

lemma Represents.setInfo (h : ace.Represents size contents) {line : ℕ} {info : CacheInfo}
    (hsector : info.sector = (ace.info line).sector) (hdirty : info.dirty = (ace.info line).dirty)
    (hcold : info.cold = (ace.info line).cold) :
    (ace.setInfo line info).Represents size contents := by
  refine h.congr (h.fits.congr rfl rfl rfl rfl) rfl rfl rfl (fun i => ?_)
    (fun i => ?_) (fun i => ?_)
    rfl rfl
  all_goals
    by_cases hi : i = line
    · subst hi
      simpa [Ace.setInfo]
    · simp [Ace.setInfo, hi]

lemma cachetouch_info (line i : ℕ) :
    ((ace.cachetouch line).info i).sector = (ace.info i).sector ∧
      ((ace.cachetouch line).info i).dirty = (ace.info i).dirty ∧
      ((ace.cachetouch line).info i).cold = (ace.info i).cold := by
  rw [cachetouch]
  dsimp only
  split
  · exact ⟨rfl, rfl, rfl⟩
  · by_cases hi : i = line
    · subst hi
      simp only [Function.update_self]
      split <;> exact ⟨rfl, rfl, rfl⟩
    · simp only [Function.update_of_ne hi]
      split <;> exact ⟨rfl, rfl, rfl⟩

lemma cachetouch_frame (ace : Ace) (line : ℕ) :
    (ace.cachetouch line).lines = ace.lines ∧ (ace.cachetouch line).depth = ace.depth ∧
      (ace.cachetouch line).allocated = ace.allocated ∧
      (ace.cachetouch line).cache = ace.cache ∧ (ace.cachetouch line).device = ace.device := by
  rw [cachetouch]
  dsimp only
  split <;> exact ⟨rfl, rfl, rfl, rfl, rfl⟩

lemma Represents.cachetouch (h : ace.Represents size contents) (line : ℕ) :
    (ace.cachetouch line).Represents size contents := by
  obtain ⟨hlines, hdepth, hallocated, hcache, hdevice⟩ := cachetouch_frame ace line
  exact h.congr (h.fits.cachetouch line) hlines hdepth hallocated
    (fun i => (cachetouch_info line i).1) (fun i => (cachetouch_info line i).2.1)
    (fun i => (cachetouch_info line i).2.2) hcache hdevice

lemma Represents.reach (h : ace.Represents size contents) {line : ℕ}
    (hline : line < ace.depth.toNat)
    (block : Huint) : (ace.reach line (ace.offset block) dataSector).Represents size contents :=
  h.congr (h.fits.reach_sector hline block) rfl rfl rfl (fun _ => rfl) (fun _ => rfl) (fun _ => rfl)
    rfl rfl

end Marks

section Storing

lemma cachestore_sector (line i : ℕ) :
    ((ace.cachestore line).info i).sector = (ace.info i).sector := by
  by_cases hi : i = line
  · subst hi
    simp [cachestore]
  · simp [cachestore, hi]

lemma cachestore_cold (line i : ℕ) :
    ((ace.cachestore line).info i).cold = (ace.info i).cold := by
  by_cases hi : i = line
  · subst hi
    simp [cachestore]
  · simp [cachestore, hi]

lemma cachestore_dirty_self (line : ℕ) : ((ace.cachestore line).info line).dirty = false := by
  simp [cachestore]

lemma cachestore_dirty_of_ne {line i : ℕ} (hi : i ≠ line) :
    ((ace.cachestore line).info i).dirty = (ace.info i).dirty := by
  simp [cachestore, hi]

lemma cachestore_warm (line i : ℕ) : (ace.cachestore line).Warm i ↔ ace.Warm i := by
  rw [Warm, Warm, cachestore_cold]
  rfl

lemma cachestore_covers (line i : ℕ) (s : Huint) :
    (ace.cachestore line).Covers i s ↔ ace.Covers i s := by
  rw [Covers, Covers, cachestore_sector]
  rfl

variable (h : ace.Represents size contents) {line : ℕ} (hline : ace.Warm line)

include h

lemma cachestore_device_of_not_covers {s : Huint} (hs : ¬ ace.Covers line s) :
    (ace.cachestore line).device s = ace.device s := by
  simp only [cachestore, cfWritesector, transfer_count h.geometry.lines_le]
  exact if_neg hs

include hline

lemma cachestore_device_of_covers {s : Huint} (hs : ace.Covers line s) :
    (ace.cachestore line).device s = contents s := by
  rw [h.contents_eq hline hs, h.offset_eq hline hs]
  simp only [cachestore, cfWritesector, transfer_count h.geometry.lines_le]
  exact if_pos hs

lemma Represents.cachestore : (ace.cachestore line).Represents size contents := by
  constructor
  · exact h.geometry
  · exact h.fits.cachestore hline.1
  · exact h.size_lt
  · exact h.allocated
  · intro i hi
    rw [cachestore_sector]
    exact h.aligned i ((cachestore_warm line i).mp hi)
  · intro i hi
    rw [cachestore_sector]
    exact h.inside i ((cachestore_warm line i).mp hi)
  · intro i hi hdirty
    rw [cachestore_cold]
    by_cases hil : i = line
    · exact hil ▸ hline.2
    · rw [cachestore_dirty_of_ne hil] at hdirty
      exact h.warm_of_dirty i hi hdirty
  · intro i j hi hj
    rw [cachestore_sector, cachestore_sector]
    exact h.apart i j ((cachestore_warm line i).mp hi) ((cachestore_warm line j).mp hj)
  · intro i hi hclean k hk
    rw [cachestore_warm] at hi
    rw [cachestore_sector]
    have hcovers := h.covers_add (i := i) hk
    by_cases hil : i = line
    · subst hil
      rw [cachestore_device_of_covers h hi hcovers]
      exact (h.cached i hi k hk).symm
    · have hnot : ¬ ace.Covers line ((ace.info i).sector + BitVec.ofNat 32 k) := fun hcovers' =>
        hil (h.eq_of_covers hi hline hcovers hcovers')
      rw [cachestore_device_of_not_covers h hnot]
      rw [cachestore_dirty_of_ne hil] at hclean
      exact h.clean i hi hclean k hk
  · intro i hi k hk
    rw [cachestore_sector]
    exact h.cached i ((cachestore_warm line i).mp hi) k hk
  · intro s hs hnone
    have hnone' (i : ℕ) (hi : ace.Warm i) : ¬ ace.Covers i s := fun hcovers =>
      hnone i ((cachestore_warm line i).mpr hi) ((cachestore_covers line i s).mpr hcovers)
    rw [cachestore_device_of_not_covers h (hnone' line hline)]
    exact h.uncached s hs hnone'

end Storing

section Replacing

lemma pick_cold {best i left : ℕ} (h : (ace.pick best i left).2 = true) :
    (ace.info (ace.pick best i left).1).cold = true := by
  induction left generalizing best i with
  | zero => cases h
  | succ left ih =>
    rw [pick] at h ⊢
    split_ifs at h ⊢ with hcold hlarger
    · exact hcold
    · exact ih h
    · exact ih h

/-- The replaced line and the cache that it was chosen in: its contents are safe on the device, and
no line has moved. -/
structure Replaced (size : ℕ) (contents : Huint → Sector) (ace : Ace) (r : ℕ × Ace) : Prop where
  represents : r.2.Represents size contents
  line_lt : r.1 < r.2.depth.toNat
  clean : (r.2.info r.1).dirty = false
  lines : r.2.lines = ace.lines
  depth : r.2.depth = ace.depth
  sector : ∀ i, (r.2.info i).sector = (ace.info i).sector
  cold : ∀ i, (r.2.info i).cold = (ace.info i).cold

lemma replaced_of_clean (h : ace.Represents size contents) {line : ℕ}
    (hline : line < ace.depth.toNat)
    (hclean : (ace.info line).dirty = false) : Replaced size contents ace (line, ace) :=
  ⟨h, hline, hclean, rfl, rfl, fun _ => rfl, fun _ => rfl⟩

lemma giveSecond_info (line i : ℕ) :
    ((ace.giveSecond line).info i).sector = (ace.info i).sector ∧
      ((ace.giveSecond line).info i).cold = (ace.info i).cold := by
  by_cases hi : i = line
  · subst hi
    simp [giveSecond, setInfo]
  · simp [giveSecond, setInfo, hi]

/-- By induction on the second chances that are left. -/
lemma Represents.cachereplace (h : ace.Represents size contents) :
    Replaced size contents ace ace.cachereplace := by
  induction hchances : ace.chances using Nat.strong_induction_on generalizing ace with
  | _ chances ih =>
    have hlt := ace.pick_lt_depth h.geometry.depth_pos
    rw [Ace.cachereplace]
    split_ifs with hpick hchance hdirty
    · refine replaced_of_clean h hlt ?_
      by_contra hdirty
      have hwarm := h.warm_of_dirty _ hlt (Bool.eq_true_of_not_eq_false hdirty)
      rw [pick_cold hpick] at hwarm
      cases hwarm
    · have hgiven : (ace.giveSecond (ace.pick 0 0 ace.depth.toNat).1).Represents size contents :=
        h.setInfo rfl rfl rfl
      have hrec := ih _ (hchances ▸ chances_giveSecond hlt.le hchance.2) hgiven rfl
      exact ⟨hrec.represents, hrec.line_lt, hrec.clean, hrec.lines, hrec.depth,
        fun i => (hrec.sector i).trans (giveSecond_info _ i).1,
        fun i => (hrec.cold i).trans (giveSecond_info _ i).2⟩
    · have hwarm : ace.Warm (ace.pick 0 0 ace.depth.toNat).1 := ⟨hlt, h.warm_of_dirty _ hlt hdirty⟩
      exact ⟨h.cachestore hwarm, hlt, cachestore_dirty_self _, rfl, rfl, cachestore_sector _,
        cachestore_cold _⟩
    · exact replaced_of_clean h hlt (Bool.eq_false_of_not_eq_true hdirty)

end Replacing

end Ace

end Hthreads.Sysace
