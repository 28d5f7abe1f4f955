import Hthreads.HwAcc.Idea
import Hthreads.Library.FermatWords
import Hthreads.Library.KeyedRounds

/-! The cipher on words of sixteen bits, and the registers of the core that hold such words. -/

namespace Hthreads.HwAcc.Idea

open Library

instance primeModulus : Fact (2 ^ 16 + 1).Prime := ⟨by norm_num⟩

structure Block where
  x1 : BitVec 16
  x2 : BitVec 16
  x3 : BitVec 16
  x4 : BitVec 16

structure LayerKeys where
  z1 : BitVec 16
  z2 : BitVec 16
  z3 : BitVec 16
  z4 : BitVec 16

structure MixKeys where
  z5 : BitVec 16
  z6 : BitVec 16

namespace Block

variable (β : Block)

def keyed (z : LayerKeys) : Block :=
  ⟨FermatWords.times β.x1 z.z1, β.x2 + z.z2, β.x3 + z.z3, FermatWords.times β.x4 z.z4⟩

-- what is added to the first and the third word, and to the second and the fourth
def mixes (z : MixKeys) : BitVec 16 × BitVec 16 :=
  let kk := FermatWords.times z.z5 (β.x1 ^^^ β.x3)
  let t1 := FermatWords.times z.z6 (kk + (β.x2 ^^^ β.x4))
  (t1, kk + t1)

def mixed (z : MixKeys) : Block :=
  let t := β.mixes z
  ⟨β.x1 ^^^ t.1, β.x2 ^^^ t.2, β.x3 ^^^ t.1, β.x4 ^^^ t.2⟩

def swap : Block := ⟨β.x1, β.x3, β.x2, β.x4⟩

lemma mixes_mixed (z : MixKeys) : (β.mixed z).mixes z = β.mixes z := by
  have hcancel : ∀ x y t : BitVec 16, (x ^^^ t) ^^^ (y ^^^ t) = x ^^^ y := by
    intro x y t
    rw [BitVec.xor_comm y t, BitVec.xor_assoc, ← BitVec.xor_assoc t t y, BitVec.xor_self,
      BitVec.zero_xor]
  rw [mixes, mixed]
  simp only [hcancel]
  rfl

lemma mixed_mixed (z : MixKeys) : (β.mixed z).mixed z = β := by
  have hcancel : ∀ x t : BitVec 16, x ^^^ t ^^^ t = x := by
    intro x t
    rw [BitVec.xor_assoc, BitVec.xor_self, BitVec.xor_zero]
  rw [mixed, mixes_mixed, mixed]
  simp only [hcancel]

end Block

namespace LayerKeys

variable (z : LayerKeys)

def inverse : LayerKeys := ⟨FermatWords.inv z.z1, -z.z2, -z.z3, FermatWords.inv z.z4⟩

def swapped : LayerKeys := ⟨z.z1, z.z3, z.z2, z.z4⟩

lemma keyed_inverse (β : Block) : (β.keyed z).keyed z.inverse = β := by
  rw [Block.keyed, Block.keyed, inverse]
  simp only [FermatWords.times_inv, BitVec.add_assoc, BitVec.add_right_neg, BitVec.add_zero]

end LayerKeys

def layers : Layers Block LayerKeys MixKeys where
  key z β := β.keyed z
  mix z β := β.mixed z
  swap := Block.swap
  inverse := LayerKeys.inverse
  swapped := LayerKeys.swapped
  key_inverse := LayerKeys.keyed_inverse
  mix_mix z β := β.mixed_mixed z
  swap_swap _ := rfl
  swap_key _ _ := rfl

def widen (x : BitVec 16) : Word := x.setWidth 32

lemma toNat_widen (x : BitVec 16) : (widen x).toNat = x.toNat := by
  rw [widen, BitVec.toNat_setWidth]
  omega

lemma widen_setWidth {x : Word} (h : x.toNat < 2 ^ 16) : widen (x.setWidth 16) = x := by
  apply BitVec.eq_of_toNat_eq
  rw [toNat_widen, BitVec.toNat_setWidth, Nat.mod_eq_of_lt h]

lemma setWidth_widen (x : BitVec 16) : (widen x).setWidth 16 = x := by
  apply BitVec.eq_of_toNat_eq
  rw [BitVec.toNat_setWidth, toNat_widen, Nat.mod_eq_of_lt x.isLt]

lemma widen_xor (x y : BitVec 16) : widen x ^^^ widen y = widen (x ^^^ y) :=
  BitVec.setWidth_xor.symm

lemma toNat_and_one (x : Word) : (x &&& one).toNat = x.toNat % 2 ^ 16 := by
  rw [BitVec.toNat_and]
  exact Nat.and_two_pow_sub_one_eq_mod x.toNat 16

lemma widen_add (x y : BitVec 16) : (widen x + widen y) &&& one = widen (x + y) := by
  apply BitVec.eq_of_toNat_eq
  rw [toNat_and_one, BitVec.toNat_add, toNat_widen, toNat_widen, toNat_widen, BitVec.toNat_add]
  omega

lemma widen_eq_zero {x : BitVec 16} : widen x = 0 ↔ x = 0 := by
  refine ⟨fun h => ?_, fun h => by rw [h]; rfl⟩
  rw [← setWidth_widen x, h]
  rfl

lemma toNat_low_product (x y : BitVec 16) :
    (low (product (widen x) (widen y))).toNat = x.toNat * y.toNat := by
  have hlt : x.toNat * y.toNat < 2 ^ 16 * 2 ^ 16 := Nat.mul_lt_mul'' x.isLt y.isLt
  have hx : x.toNat % 2 ^ 64 = x.toNat := Nat.mod_eq_of_lt (by omega)
  have hy : y.toNat % 2 ^ 64 = y.toNat := Nat.mod_eq_of_lt (by omega)
  rw [low, product, BitVec.extractLsb'_toNat, BitVec.toNat_mul, BitVec.toNat_setWidth,
    BitVec.toNat_setWidth, toNat_widen, toNat_widen, hx, hy, Nat.shiftRight_zero]
  omega

lemma toNat_maxim_sub (x : BitVec 16) :
    ((maxim - widen x) &&& one).toNat = (2 ^ 16 + 1 - x.toNat) % 2 ^ 16 := by
  have hx := x.isLt
  rw [toNat_and_one, BitVec.toNat_sub, toNat_widen, maxim]
  change (2 ^ 32 - x.toNat + 65537) % 2 ^ 32 % 2 ^ 16 = _
  omega

lemma toNat_halves (q : Word) :
    ((if ((q &&& one) - (0#16 ++ q.extractLsb' 16 16)).msb
        then (q &&& one) - (0#16 ++ q.extractLsb' 16 16) + maxim
        else (q &&& one) - (0#16 ++ q.extractLsb' 16 16)) &&& one).toNat =
      (if q.toNat / 2 ^ 16 ≤ q.toNat % 2 ^ 16 then q.toNat % 2 ^ 16 - q.toNat / 2 ^ 16
        else q.toNat % 2 ^ 16 + (2 ^ 16 + 1) - q.toNat / 2 ^ 16) % 2 ^ 16 := by
  have hq := q.isLt
  have hhigh : (0#16 ++ q.extractLsb' 16 16).toNat = q.toNat / 2 ^ 16 := by
    rw [BitVec.toNat_append, BitVec.extractLsb'_toNat, Nat.shiftRight_eq_div_pow]
    simp
    omega
  have hdiff : ((q &&& one) - (0#16 ++ q.extractLsb' 16 16)).toNat =
      (2 ^ 32 - q.toNat / 2 ^ 16 + q.toNat % 2 ^ 16) % 2 ^ 32 := by
    rw [BitVec.toNat_sub, hhigh, toNat_and_one]
  have hmaxim : maxim.toNat = 2 ^ 16 + 1 := rfl
  rw [toNat_and_one, BitVec.msb_eq_decide, hdiff]
  split <;> rename_i hsign <;> rw [decide_eq_true_eq] at hsign
  · rw [BitVec.toNat_add, hdiff, hmaxim, if_neg (by omega)]
    omega
  · rw [hdiff, if_pos (by omega)]
    omega

lemma mul_widen (x y : BitVec 16) :
    mul (widen x) (widen y) (low (product (widen x) (widen y))) =
      widen (FermatWords.times x y) := by
  apply BitVec.eq_of_toNat_eq
  rw [mul, toNat_widen]
  by_cases hx : x = 0
  · rw [if_pos (widen_eq_zero.mpr hx), hx, FermatWords.zero_times, BitVec.toNat_ofNat,
      toNat_maxim_sub]
  · by_cases hy : y = 0
    · rw [if_neg (mt widen_eq_zero.mp hx), if_pos (widen_eq_zero.mpr hy), hy,
        FermatWords.times_comm, FermatWords.zero_times, BitVec.toNat_ofNat, toNat_maxim_sub]
    · have hlt : x.toNat * y.toNat < 2 ^ 16 * 2 ^ 16 := Nat.mul_lt_mul'' x.isLt y.isLt
      have htimes : FermatWords.times x y =
        FermatWords.word ((x.toNat * y.toNat : ℕ) : ZMod _) := by
        rw [FermatWords.times, FermatWords.residue, FermatWords.residue, FermatWords.value,
          FermatWords.value, if_neg hx, if_neg hy, Nat.cast_mul]
      rw [if_neg (mt widen_eq_zero.mp hx), if_neg (mt widen_eq_zero.mp hy), toNat_halves, htimes,
        FermatWords.word_of_halves hlt, toNat_low_product, BitVec.toNat_ofNat]

-- a table has eight words for each round, of which the first six are keys
def keyAt (b : Word → Word) (j : ℕ) : Word := b (wordAddr (.ofNat 32 j))

def KeyTable (b : Word → Word) : Prop := ∀ j < 68, j % 8 < 6 → (keyAt b j).toNat < 2 ^ 16

def keyWord (b : Word → Word) (j : ℕ) : BitVec 16 := (keyAt b j).setWidth 16

def layerKeys (b : Word → Word) (r : ℕ) : LayerKeys :=
  ⟨keyWord b (8 * r), keyWord b (8 * r + 1), keyWord b (8 * r + 2), keyWord b (8 * r + 3)⟩

def mixKeys (b : Word → Word) (r : ℕ) : MixKeys :=
  ⟨keyWord b (8 * r + 4), keyWord b (8 * r + 5)⟩

/-- The cipher: eight rounds and the output transformation. -/
def idea (b : Word → Word) (β : Block) : Block := layers.cipher 8 (layerKeys b) (mixKeys b) β

-- the keys of a round, in their places in a table
def roundKey (z : LayerKeys) (m : MixKeys) : ℕ → BitVec 16
  | 0 => z.z1
  | 1 => z.z2
  | 2 => z.z3
  | 3 => z.z4
  | 4 => m.z5
  | _ => m.z6

/-- The keys of the way back. -/
def inverseKey (b : Word → Word) (j : ℕ) : BitVec 16 :=
  roundKey (layers.keysBack 8 (layerKeys b) (j / 8))
    (Layers.mixesBack 8 (mixKeys b) (j / 8)) (j % 8)

def InverseTable (b b' : Word → Word) : Prop :=
  ∀ j < 68, j % 8 < 6 → keyAt b' j = widen (inverseKey b j)

section Tables

variable {b b' : Word → Word} {j r m : ℕ}

lemma widen_keyWord (hb : KeyTable b) (hj : j < 68) (hkey : j % 8 < 6) :
    widen (keyWord b j) = keyAt b j := widen_setWidth (hb j hj hkey)

namespace InverseTable

lemma keyTable (h : InverseTable b b') : KeyTable b' := by
  intro j hj hkey
  rw [h j hj hkey, toNat_widen]
  exact (inverseKey b j).isLt

lemma keyWord_eq (h : InverseTable b b') (hj : 8 * r + m < 68) (hm : m < 6) :
    keyWord b' (8 * r + m) =
      roundKey (layers.keysBack 8 (layerKeys b) r) (Layers.mixesBack 8 (mixKeys b) r) m := by
  have hround : (8 * r + m) / 8 = r := by omega
  have hplace : (8 * r + m) % 8 = m := by omega
  rw [keyWord, h _ hj (by omega), setWidth_widen, inverseKey, hround, hplace]

lemma layerKeys_eq (h : InverseTable b b') (hr : r ≤ 8) :
    layerKeys b' r = layers.keysBack 8 (layerKeys b) r := by
  change LayerKeys.mk (keyWord b' (8 * r + 0)) (keyWord b' (8 * r + 1)) (keyWord b' (8 * r + 2))
    (keyWord b' (8 * r + 3)) = _
  rw [h.keyWord_eq (by omega) (by norm_num), h.keyWord_eq (by omega) (by norm_num),
    h.keyWord_eq (by omega) (by norm_num), h.keyWord_eq (by omega) (by norm_num)]
  rfl

lemma mixKeys_eq (h : InverseTable b b') (hr : r < 8) :
    mixKeys b' r = Layers.mixesBack 8 (mixKeys b) r := by
  rw [mixKeys, h.keyWord_eq (by omega) (by norm_num), h.keyWord_eq (by omega) (by norm_num)]
  rfl

/-- Under the inverse table the cipher undoes itself. -/
theorem idea_idea (h : InverseTable b b') (β : Block) : idea b' (idea b β) = β := by
  have hback : ∀ γ, idea b' γ = layers.cipher 8 (layers.keysBack 8 (layerKeys b))
      (Layers.mixesBack 8 (mixKeys b)) γ :=
    layers.cipher_congr (fun _ hr => h.layerKeys_eq hr) fun _ hr => h.mixKeys_eq hr
  rw [hback, idea, layers.cipher_back 8 _ _ (by norm_num)]

end InverseTable

-- every table has an inverse
def inverseTable (b : Word → Word) (x : Word) : Word := widen (inverseKey b (x.toNat / 4))

lemma inverseTable_inverts (b : Word → Word) : InverseTable b (inverseTable b) := by
  intro j hj _
  have hplace : (wordAddr (.ofNat 32 j)).toNat / 4 = j := by
    rw [toNat_wordAddr, BitVec.toNat_ofNat]
    omega
  rw [keyAt, inverseTable, hplace]

end Tables

end Hthreads.HwAcc.Idea
