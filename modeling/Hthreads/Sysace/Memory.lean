import Hthreads.Sysace.BlockCache

/-! The memory of the block cache: as long as the sizes of its arrays do not wrap round, the driver
stays inside of them. -/

namespace Hthreads.Sysace

open Library Software

/-- The size of the cache is below the 32-bit limit; that of `info` then is, too. -/
def Sized (lines depth : Huint) : Prop := lines.toNat * depth.toNat * dataSector < 2 ^ 32

namespace Ace

variable {ace : Ace} {line offset bytes : ℕ}

/-- The arrays have the sizes that the geometry asks for, and nothing behind them has been accessed.
-/
structure Fits (ace : Ace) : Prop where
  sized : Sized ace.lines ace.depth
  lines_pos : 0 < ace.lines.toNat
  cacheBytes : ace.cacheBytes.toNat = ace.lines.toNat * ace.depth.toNat * dataSector
  overrun : ace.overrun = false

lemma Fits.congr {ace' : Ace} (h : ace.Fits) (hlines : ace'.lines = ace.lines)
    (hdepth : ace'.depth = ace.depth) (hbytes : ace'.cacheBytes = ace.cacheBytes)
    (hoverrun : ace'.overrun = ace.overrun) : ace'.Fits where
  sized := by
    rw [hlines, hdepth]
    exact h.sized
  lines_pos := by
    rw [hlines]
    exact h.lines_pos
  cacheBytes := by
    rw [hlines, hdepth, hbytes]
    exact h.cacheBytes
  overrun := by
    rw [hoverrun]
    exact h.overrun

lemma sector_end_le {lines depth : ℕ} (hline : line < depth) (hoffset : offset < lines) :
    line * lines + offset + 1 ≤ lines * depth := by
  have hlast : (line + 1) * lines ≤ depth * lines := Nat.mul_le_mul_right _ hline
  rw [Nat.add_mul, Nat.one_mul] at hlast
  rw [Nat.mul_comm lines]
  omega

lemma Fits.index_toNat (h : ace.Fits) (hline : line < ace.depth.toNat)
    (hoffset : offset < ace.lines.toNat) :
    (ace.index line offset).toNat = (line * ace.lines.toNat + offset) * dataSector := by
  have hend := sector_end_le hline hoffset
  have hsize : (line * ace.lines.toNat + offset + 1) * dataSector < 2 ^ 32 :=
    (Nat.mul_le_mul_right _ hend).trans_lt h.sized
  simp only [dataSector] at hsize ⊢
  have hsmall := ace.depth.isLt
  have hsmall' := ace.lines.isLt
  rw [index, BitVec.toNat_mul, BitVec.toNat_add, BitVec.toNat_mul, BitVec.toNat_ofNat,
    BitVec.toNat_ofNat, BitVec.toNat_ofNat, Nat.mod_eq_of_lt (hline.trans hsmall),
    Nat.mod_eq_of_lt (hoffset.trans hsmall'),
    Nat.mod_eq_of_lt (a := line * ace.lines.toNat) (by omega),
    Nat.mod_eq_of_lt (a := line * ace.lines.toNat + offset) (by omega), dataSector]
  omega

lemma Fits.slot_eq (h : ace.Fits) (hline : line < ace.depth.toNat)
    (hoffset : offset < ace.lines.toNat) :
    ace.slot line offset = line * ace.lines.toNat + offset := by
  rw [slot, h.index_toNat hline hoffset, Nat.mul_div_cancel _ (by decide)]

lemma Fits.lineBytes_eq (h : ace.Fits) (hdepth : 0 < ace.depth.toNat) :
    ace.lineBytes = ace.lines.toNat * dataSector := by
  have hle : ace.lines.toNat * dataSector ≤ ace.lines.toNat * ace.depth.toNat * dataSector :=
    Nat.mul_le_mul_right _ (Nat.le_mul_of_pos_right _ hdepth)
  have hlt := hle.trans_lt h.sized
  rw [lineBytes, BitVec.toNat_mul, BitVec.toNat_ofNat]
  simp only [dataSector] at hlt ⊢
  omega

lemma Fits.reach (h : ace.Fits) (hline : line < ace.depth.toNat)
    (hoffset : offset < ace.lines.toNat)
    (hend : offset * dataSector + bytes ≤ ace.lines.toNat * dataSector) :
    (ace.reach line offset bytes).Fits := by
  refine h.congr rfl rfl rfl ?_
  have hlast : (line + 1) * ace.lines.toNat ≤ ace.depth.toNat * ace.lines.toNat :=
    Nat.mul_le_mul_right _ hline
  have hinside : ¬ ace.cacheBytes.toNat < (ace.index line offset).toNat + bytes := by
    rw [h.cacheBytes, h.index_toNat hline hoffset, Nat.mul_comm ace.lines.toNat]
    rw [Nat.add_mul, Nat.one_mul] at hlast
    simp only [dataSector] at hend ⊢
    omega
  simp [Ace.reach, hinside]

lemma Fits.reach_sector (h : ace.Fits) (hline : line < ace.depth.toNat) (block : Huint) :
    (ace.reach line (ace.offset block) dataSector).Fits := by
  have hoffset : ace.offset block < ace.lines.toNat := by
    rw [offset, BitVec.toNat_umod]
    exact Nat.mod_lt _ h.lines_pos
  refine h.reach hline hoffset ?_
  have := Nat.mul_le_mul_right dataSector hoffset
  rw [Nat.succ_mul] at this
  exact this

lemma Fits.reach_line (h : ace.Fits) (hline : line < ace.depth.toNat) :
    (ace.reach line 0 ace.lineBytes).Fits := by
  refine h.reach hline h.lines_pos ?_
  rw [h.lineBytes_eq (Nat.zero_lt_of_lt hline), Nat.zero_mul, Nat.zero_add]

lemma Fits.cachestore (h : ace.Fits) (hline : line < ace.depth.toNat) :
    (ace.cachestore line).Fits :=
  (h.reach_line hline).congr rfl rfl rfl rfl

lemma Fits.cacheload (h : ace.Fits) (hline : line < ace.depth.toNat) (sector : Huint) :
    (ace.cacheload line sector).Fits :=
  (h.reach_line hline).congr rfl rfl rfl rfl

lemma cachetouch_overrun (ace : Ace) (line : ℕ) : (ace.cachetouch line).overrun = ace.overrun := by
  rw [cachetouch]
  dsimp only
  split <;> rfl

lemma Fits.cachetouch (h : ace.Fits) (line : ℕ) : (ace.cachetouch line).Fits := by
  rw [Ace.cachetouch]
  dsimp only
  split
  · exact h
  · exact h.congr rfl rfl rfl rfl

lemma pick_lt {best i left : ℕ} (hbest : best < i + left) :
    (ace.pick best i left).1 < i + left := by
  induction left generalizing best i with
  | zero => exact hbest
  | succ left ih =>
    rw [pick]
    split
    · omega
    · have hsum : i + (left + 1) = i + 1 + left := by omega
      have hnext : (if (ace.info best).lru < (ace.info i).lru then i else best) < i + 1 + left := by
        split <;> omega
      rw [hsum]
      exact ih hnext

lemma pick_lt_depth (ace : Ace) (hdepth : 0 < ace.depth.toNat) :
    (ace.pick 0 0 ace.depth.toNat).1 < ace.depth.toNat :=
  (pick_lt (by omega)).trans_eq (Nat.zero_add _)

/-- By induction on the second chances that are left. -/
lemma Fits.cachereplace (h : ace.Fits) (hdepth : 0 < ace.depth.toNat) :
    ace.cachereplace.2.Fits ∧ ace.cachereplace.1 < ace.depth.toNat ∧
      ace.cachereplace.2.depth = ace.depth := by
  induction hchances : ace.chances using Nat.strong_induction_on generalizing ace with
  | _ chances ih =>
    have hlt := ace.pick_lt_depth hdepth
    rw [Ace.cachereplace]
    split_ifs with hcold hchance hdirty
    · exact ⟨h, hlt, rfl⟩
    · have hgiven : (ace.giveSecond (ace.pick 0 0 ace.depth.toNat).1).Fits :=
        h.congr rfl rfl rfl rfl
      exact ih _ (hchances ▸ chances_giveSecond hlt.le hchance.2) hgiven hdepth rfl
    · exact ⟨h.cachestore hlt, hlt, rfl⟩
    · exact ⟨h, hlt, rfl⟩

lemma Fits.cacheread (h : ace.Fits) (hdepth : 0 < ace.depth.toNat) (block : Huint) :
    (ace.cacheread block).2.Fits ∧ (ace.cacheread block).1 < (ace.cacheread block).2.depth.toNat ∧
      (ace.cacheread block).2.depth = ace.depth := by
  obtain ⟨hreplaced, hline, hsame⟩ := h.cachereplace hdepth
  rw [← hsame] at hline
  exact ⟨hreplaced.cacheload hline _, hline, hsame⟩

lemma Fits.locate (h : ace.Fits) (hdepth : 0 < ace.depth.toNat) (block : Huint) :
    (ace.locate block).2.Fits ∧ (ace.locate block).1 < (ace.locate block).2.depth.toNat ∧
      (ace.locate block).2.depth = ace.depth := by
  rw [Ace.locate, Ace.cachefind]
  cases hfind : (List.range ace.depth.toNat).find? (ace.holds block) with
  | some line =>
    have hline := List.mem_range.mp (List.mem_of_find?_eq_some hfind)
    exact ⟨h.congr rfl rfl rfl rfl, hline, rfl⟩
  | none =>
    have hcounted : Fits { ace with miss := ace.miss + 1 } := h.congr rfl rfl rfl rfl
    exact hcounted.cacheread hdepth block

lemma Fits.writeSector (h : ace.Fits) (hline : line < ace.depth.toNat) (block : Huint)
    (data : Sector) : (ace.writeSector line block data).Fits := by
  have hstored : Fits { ace.reach line (ace.offset block) dataSector with
      cache := Function.update ace.cache (ace.slot line (ace.offset block)) data } :=
    (h.reach_sector hline block).congr rfl rfl rfl rfl
  exact (hstored.cachetouch line).congr rfl rfl rfl rfl

lemma Fits.flushLine (h : ace.Fits) (hline : line < ace.depth.toNat) :
    (ace.flushLine line).Fits ∧ (ace.flushLine line).depth = ace.depth := by
  rw [Ace.flushLine]
  split
  · exact ⟨(h.cachestore hline).congr rfl rfl rfl rfl, rfl⟩
  · exact ⟨h.congr rfl rfl rfl rfl, rfl⟩

lemma Fits.flushLoop (h : ace.Fits) {i left : ℕ} (hleft : i + left = ace.depth.toNat) :
    (ace.flushLoop i left).Fits := by
  induction left generalizing ace i with
  | zero => exact h
  | succ left ih =>
    have hi : i < ace.depth.toNat := by omega
    obtain ⟨hline, hdepth⟩ := h.flushLine hi
    exact ih hline (by rw [hdepth]; omega)

lemma Fits.cacheflush (h : ace.Fits) : ace.cacheflush.Fits :=
  (h.flushLoop (Nat.zero_add _)).congr rfl rfl rfl rfl

lemma fits_allot {lines depth : Huint} (hlines : 0 < lines.toNat) (hsized : Sized lines depth)
    (hoverrun : ace.overrun = false) (memory : ℕ → Sector) :
      (ace.allot lines depth memory).Fits where
  sized := hsized
  lines_pos := hlines
  cacheBytes := by
    have hle : lines.toNat * depth.toNat ≤ lines.toNat * depth.toNat * dataSector :=
      Nat.le_mul_of_pos_right _ (by decide)
    have hsmall := hle.trans_lt hsized
    rw [Sized] at hsized
    rw [allot]
    dsimp only
    rw [BitVec.toNat_mul, BitVec.toNat_mul, BitVec.toNat_ofNat, Nat.mod_eq_of_lt hsmall]
    simp only [dataSector] at hsized ⊢
    omega
  overrun := by
    have hle : depth.toNat * dataSector ≤ lines.toNat * depth.toNat * dataSector :=
      Nat.mul_le_mul_right _ (Nat.le_mul_of_pos_left _ hlines)
    have hsmall := hle.trans_lt hsized
    have hbytes : (depth * BitVec.ofNat 32 infoSize).toNat = infoSize * depth.toNat := by
      rw [BitVec.toNat_mul, BitVec.toNat_ofNat]
      simp only [dataSector, infoSize] at hsmall ⊢
      omega
    simp [allot, hoverrun, hbytes]

end Ace

end Hthreads.Sysace
