import Hthreads.Sysace.Memory

/-! The representation invariant of the block cache: what the warm lines and the device stand for
together. -/

namespace Hthreads.Sysace

open Library Software

namespace Ace

variable {ace : Ace} {size : ℕ} {contents : Huint → Sector}

def Warm (ace : Ace) (i : ℕ) : Prop := i < ace.depth.toNat ∧ (ace.info i).cold = false

def Covers (ace : Ace) (i : ℕ) (s : Huint) : Prop :=
  (s - (ace.info i).sector).toNat < ace.lines.toNat

-- a geometry that the driver can be given for a device of this size
structure Geometry (size : ℕ) (lines depth : Huint) : Prop where
  lines_pos : 1 ≤ lines.toNat
  lines_le : lines.toNat ≤ 255
  depth_pos : 1 ≤ depth.toNat
  dvd : lines.toNat ∣ size

/-- The cache and the device stand for `contents` on the first `size` sectors. -/
structure Represents (size : ℕ) (contents : Huint → Sector) (ace : Ace) : Prop where
  geometry : Geometry size ace.lines ace.depth
  fits : ace.Fits
  size_lt : size < 2 ^ 32
  allocated : ace.allocated = true
  aligned : ∀ i, ace.Warm i → ace.lines.toNat ∣ (ace.info i).sector.toNat
  inside : ∀ i, ace.Warm i → (ace.info i).sector.toNat + ace.lines.toNat ≤ size
  warm_of_dirty : ∀ i < ace.depth.toNat, (ace.info i).dirty = true → (ace.info i).cold = false
  apart : ∀ i j, ace.Warm i → ace.Warm j → (ace.info i).sector = (ace.info j).sector → i = j
  clean : ∀ i, ace.Warm i → (ace.info i).dirty = false → ∀ k < ace.lines.toNat,
    ace.cache (ace.slot i k) = ace.device ((ace.info i).sector + BitVec.ofNat 32 k)
  cached : ∀ i, ace.Warm i → ∀ k < ace.lines.toNat,
    contents ((ace.info i).sector + BitVec.ofNat 32 k) = ace.cache (ace.slot i k)
  uncached : ∀ s, s.toNat < size → (∀ i, ace.Warm i → ¬ ace.Covers i s) →
    contents s = ace.device s

section Arithmetic

variable {s t a b : Huint}

lemma toNat_add_ofNat {k : ℕ} (h : s.toNat + k < 2 ^ 32) :
    (s + BitVec.ofNat 32 k).toNat = s.toNat + k := by
  rw [BitVec.toNat_add, BitVec.toNat_ofNat]
  omega

lemma add_ofNat_sub (s t : Huint) : t + BitVec.ofNat 32 (s - t).toNat = s := by
  rw [BitVec.ofNat_toNat, BitVec.setWidth_eq, BitVec.add_comm, BitVec.sub_add_cancel]

lemma add_ofNat_sub_self {k : ℕ} (h : k < 2 ^ 32) : (s + BitVec.ofNat 32 k - s).toNat = k := by
  rw [BitVec.add_comm, BitVec.add_sub_cancel, BitVec.toNat_ofNat]
  exact Nat.mod_eq_of_lt h

lemma le_of_sub_lt {n : ℕ} (h : (s - t).toNat < n) (ht : t.toNat + n ≤ 2 ^ 32) :
    t.toNat ≤ s.toNat ∧ s.toNat = t.toNat + (s - t).toNat := by
  have hs : s.toNat = (t + BitVec.ofNat 32 (s - t).toNat).toNat := by rw [add_ofNat_sub]
  rw [toNat_add_ofNat (by omega)] at hs
  omega

lemma aligned_eq {n : ℕ} (hn : 0 < n) (ha : n ∣ a.toNat) (hb : n ∣ b.toNat)
    (ha' : a.toNat + n ≤ 2 ^ 32) (hb' : b.toNat + n ≤ 2 ^ 32)
    (hsa : (s - a).toNat < n) (hsb : (s - b).toNat < n) : a = b := by
  obtain ⟨x, hx⟩ := ha
  obtain ⟨y, hy⟩ := hb
  have h₁ := (le_of_sub_lt hsa ha').2
  have h₂ := (le_of_sub_lt hsb hb').2
  refine BitVec.eq_of_toNat_eq ?_
  have hdiv₁ : s.toNat / n = x := by
    rw [h₁, hx, Nat.mul_add_div hn, Nat.div_eq_of_lt hsa, Nat.add_zero]
  have hdiv₂ : s.toNat / n = y := by
    rw [h₂, hy, Nat.mul_add_div hn, Nat.div_eq_of_lt hsb, Nat.add_zero]
  rw [hx, hy, ← hdiv₁, hdiv₂]

end Arithmetic

lemma slot_inj (hfits : ace.Fits) {line line' k k' : ℕ} (hline : line < ace.depth.toNat)
    (hline' : line' < ace.depth.toNat) (hk : k < ace.lines.toNat) (hk' : k' < ace.lines.toNat)
    (h : ace.slot line k = ace.slot line' k') : line = line' ∧ k = k' := by
  rw [hfits.slot_eq hline hk, hfits.slot_eq hline' hk'] at h
  have hdiv (l j : ℕ) (hj : j < ace.lines.toNat) :
      (l * ace.lines.toNat + j) / ace.lines.toNat = l := by
    rw [Nat.mul_comm, Nat.mul_add_div hfits.lines_pos, Nat.div_eq_of_lt hj, Nat.add_zero]
  have heq : line = line' := by rw [← hdiv line k hk, h, hdiv line' k' hk']
  refine ⟨heq, ?_⟩
  subst heq
  exact Nat.add_left_cancel h

lemma transfer_count (h : ace.lines.toNat ≤ 255) :
    (ace.lines &&& sectorCount).toNat = ace.lines.toNat := by
  have hmask : sectorCount.toNat = 2 ^ 8 - 1 := by decide
  rw [BitVec.toNat_and, hmask, Nat.and_two_pow_sub_one_eq_mod]
  exact Nat.mod_eq_of_lt (by omega)

namespace Represents

variable (h : ace.Represents size contents)

include h

lemma congr {ace' : Ace} (hfits : ace'.Fits) (hlines : ace'.lines = ace.lines)
    (hdepth : ace'.depth = ace.depth)
    (hallocated : ace'.allocated = ace.allocated)
    (hsector : ∀ i, (ace'.info i).sector = (ace.info i).sector)
    (hdirty : ∀ i, (ace'.info i).dirty = (ace.info i).dirty)
    (hcold : ∀ i, (ace'.info i).cold = (ace.info i).cold)
    (hcache : ace'.cache = ace.cache) (hdevice : ace'.device = ace.device) :
    ace'.Represents size contents := by
  have hwarm (i : ℕ) : ace'.Warm i ↔ ace.Warm i := by rw [Warm, Warm, hdepth, hcold]
  have hcovers (i : ℕ) (s : Huint) : ace'.Covers i s ↔ ace.Covers i s := by
    rw [Covers, Covers, hsector, hlines]
  have hslot (i k : ℕ) : ace'.slot i k = ace.slot i k := by rw [slot, slot, index, index, hlines]
  constructor
  · rw [hlines, hdepth]
    exact h.geometry
  · exact hfits
  · exact h.size_lt
  · rw [hallocated]
    exact h.allocated
  · simpa only [hwarm, hsector, hlines] using h.aligned
  · simpa only [hwarm, hsector, hlines] using h.inside
  · simpa only [hdepth, hdirty, hcold] using h.warm_of_dirty
  · simpa only [hwarm, hsector] using h.apart
  · simpa only [hwarm, hdirty, hlines, hcache, hslot, hdevice, hsector] using h.clean
  · simpa only [hwarm, hlines, hsector, hcache, hslot] using h.cached
  · simpa only [hwarm, hcovers, hdevice] using h.uncached

lemma covers_add {i k : ℕ} (hk : k < ace.lines.toNat) :
    ace.Covers i ((ace.info i).sector + BitVec.ofNat 32 k) := by
  have := h.geometry.lines_le
  rw [Covers, add_ofNat_sub_self (by omega)]
  exact hk

lemma eq_of_covers {i j : ℕ} {s : Huint} (hi : ace.Warm i) (hj : ace.Warm j)
    (hsi : ace.Covers i s) (hsj : ace.Covers j s) : i = j := by
  have hsize := h.size_lt
  have hi' := h.inside i hi
  have hj' := h.inside j hj
  refine h.apart i j hi hj ?_
  exact aligned_eq h.geometry.lines_pos (h.aligned i hi) (h.aligned j hj) (by omega) (by omega)
    hsi hsj

lemma offset_eq {i : ℕ} {s : Huint} (hi : ace.Warm i) (hs : ace.Covers i s) :
    ace.offset s = (s - (ace.info i).sector).toNat := by
  have hsize := h.size_lt
  have hi' := h.inside i hi
  obtain ⟨x, hx⟩ := h.aligned i hi
  rw [offset, BitVec.toNat_umod, (le_of_sub_lt hs (by omega)).2, hx, Nat.mul_add_mod]
  exact Nat.mod_eq_of_lt hs

lemma contents_eq {i : ℕ} {s : Huint} (hi : ace.Warm i) (hs : ace.Covers i s) :
    contents s = ace.cache (ace.slot i (ace.offset s)) := by
  rw [h.offset_eq hi hs, ← h.cached i hi _ hs, add_ofNat_sub]

end Represents

end Ace

end Hthreads.Sysace
