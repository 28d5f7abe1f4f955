import Hthreads.Fat16.Directory
import Hthreads.Fat16.Layout

/-! The entries that a directory region holds, and what one search from an entry number on finds. -/

namespace Hthreads.Fat16

open Library Software

variable (B : Block) (dir : Dir)

def Dir.entryAt (p : ℕ) : Bytes :=
  direntry (B.read (dir.block + BitVec.ofNat 32 (p / 16))).2 (p % 16)

def Dir.entries : ℕ := 16 * dir.size.toNat

-- the region's blocks, counted from its first one
def Dir.Covers (blk : Huint) : Prop := (blk - dir.block).toNat < dir.size.toNat

def IsEnd (e : Bytes) : Prop := e 0 = 0x00
def IsListed (e : Bytes) : Prop := e 0 ≠ 0xE5 ∧ Direntry.longname e = false
def IsFragment (e : Bytes) : Prop := Direntry.longname e = true

instance (e : Bytes) : Decidable (IsEnd e) := inferInstanceAs (Decidable (_ = _))
instance (e : Bytes) : Decidable (IsListed e) := inferInstanceAs (Decidable (_ ∧ _))
instance (e : Bytes) : Decidable (IsFragment e) := inferInstanceAs (Decidable (_ = _))

lemma isFragment_iff {e : Bytes} :
    IsFragment e ↔ e 11 &&& direntryLongname = direntryLongname := decide_eq_true_iff

/-- The numbers from `p` on of the entries before the end marker that are in use and are not
fragments of a long name. -/
def Dir.listingFrom (p left : ℕ) : List ℕ :=
  ((List.range' p left).takeWhile fun p => ¬ IsEnd (dir.entryAt B p)).filter
    fun p => IsListed (dir.entryAt B p)

def Dir.listing : List ℕ := dir.listingFrom B 0 dir.entries

/-- At most twenty fragments of a long name stand right in front of entry `p`, not counting entry 0:
as many as there is room for in the name. -/
def Dir.NameFits (p : ℕ) : Prop :=
  ∃ l ≤ p - 1, p ≤ l + 21 ∧ (l = 0 ∨ ¬ IsFragment (dir.entryAt B l))

structure DirEntry.Shows (entry : DirEntry) (p : ℕ) : Prop where
  entryno : entry.entryno = BitVec.ofNat 32 p
  attrs : entry.attrs = (dir.entryAt B p 11).setWidth 32
  size : entry.size = (dir.entryAt B p).little32 28
  cluster : entry.cluster = (dir.entryAt B p).little16 20 ++ (dir.entryAt B p).little16 26

def IsSkipped (e : Bytes) : Prop := ¬ IsEnd e ∧ ¬ IsListed e

section Finding

variable {m : Bytes}

lemma free_of_isEnd {e : Bytes} (h : IsEnd e) : Direntry.free e = .allFree := by
  have hne : (0x00 : Byte) ≠ 0xE5 := by decide
  rw [Direntry.free, h, if_neg hne, if_pos rfl]

lemma free_of_listed {e : Bytes} (hend : ¬ IsEnd e) (h : IsListed e) :
    Direntry.free e = .valid := by
  rw [Direntry.free, if_neg h.1]
  exact if_neg hend

lemma dirFindentry_skip {i left : ℕ} (h : IsSkipped (direntry m i)) :
    dirFindentry m i (left + 1) = dirFindentry m (i + 1) left := by
  rw [dirFindentry]
  by_cases hfree : direntry m i 0 = 0xE5
  · have : Direntry.free (direntry m i) = .free := if_pos hfree
    rw [this]
  · have hvalid : Direntry.free (direntry m i) = .valid := by
      rw [Direntry.free, if_neg hfree]
      exact if_neg h.1
    have hlong : Direntry.longname (direntry m i) = true := by
      by_contra hlong
      exact h.2 ⟨hfree, Bool.eq_false_of_not_eq_true hlong⟩
    rw [hvalid]
    exact if_pos hlong

lemma dirFindentry_cases (m : Bytes) (i left : ℕ) :
    (∃ j, i ≤ j ∧ j < i + left ∧ (∀ l, i ≤ l → l < j → IsSkipped (direntry m l)) ∧
      ((¬ IsEnd (direntry m j) ∧ IsListed (direntry m j) ∧
        dirFindentry m i left = BitVec.ofNat 32 j) ∨
      (IsEnd (direntry m j) ∧ dirFindentry m i left = -2))) ∨
    ((∀ l, i ≤ l → l < i + left → IsSkipped (direntry m l)) ∧ dirFindentry m i left = -1) := by
  induction left generalizing i with
  | zero => exact .inr ⟨fun l hl hlt => by omega, rfl⟩
  | succ left ih =>
    by_cases hend : IsEnd (direntry m i)
    · rw [dirFindentry, free_of_isEnd hend]
      exact .inl ⟨i, le_rfl, by omega, fun l hl hlt => by omega, .inr ⟨hend, rfl⟩⟩
    by_cases hlisted : IsListed (direntry m i)
    · rw [dirFindentry, free_of_listed hend hlisted]
      refine .inl ⟨i, le_rfl, by omega, fun l hl hlt => by omega, .inl ⟨hend, hlisted, ?_⟩⟩
      exact if_neg (by simp [hlisted.2])
    · have hskipped : IsSkipped (direntry m i) := ⟨hend, hlisted⟩
      rw [dirFindentry_skip hskipped]
      have hfrom (l : ℕ) (hl : i ≤ l) (h : i + 1 ≤ l → IsSkipped (direntry m l)) :
          IsSkipped (direntry m l) := by
        obtain rfl | hlt := Nat.eq_or_lt_of_le hl
        · exact hskipped
        · exact h hlt
      obtain ⟨j, hj, hlt, hbefore, hfound⟩ | ⟨hall, hfound⟩ := ih (i + 1)
      · exact .inl ⟨j, by omega, by omega,
          fun l hl hlj => hfrom l hl fun hl' => hbefore l hl' hlj, hfound⟩
      · exact .inr ⟨fun l hl hlt => hfrom l hl fun hl' => hall l hl' (by omega), hfound⟩

end Finding

section Filling

variable {B dir} {past : Bytes}

lemma toInt_ofNat_of_lt {n : ℕ} (h : n < 2 ^ 31) : (BitVec.ofNat 32 n).toInt = n := by
  have hnat : (BitVec.ofNat 32 n).toNat = n := by
    rw [BitVec.toNat_ofNat]
    omega
  rw [BitVec.toInt_eq_toNat_of_lt (by omega), hnat]

lemma previous_toNat {p : ℕ} (hp : p < 2 ^ 31) : (BitVec.ofNat 32 p - 1).toInt.toNat = p - 1 := by
  cases p with
  | zero => rfl
  | succ p =>
    have hsub : BitVec.ofNat 32 (p + 1) - 1 = BitVec.ofNat 32 p := by
      rw [BitVec.ofNat_add]
      exact BitVec.add_sub_cancel _ _
    rw [hsub, toInt_ofNat_of_lt (by omega)]
    rfl

/-- A directory whose entry numbers fit in the program's integers. -/
def Dir.Small (dir : Dir) : Prop := dir.entries < 2 ^ 31

lemma Dir.Small.size_lt (h : dir.Small) : dir.size.toNat < 2 ^ 27 := by
  unfold Dir.Small Dir.entries at h
  omega

lemma Dir.covers_add {k : ℕ} :
    dir.Covers (dir.block + BitVec.ofNat 32 k) ↔ k % 2 ^ 32 < dir.size.toNat := by
  rw [Dir.Covers, BitVec.add_comm, BitVec.add_sub_cancel, BitVec.toNat_ofNat]

lemma readname_covers (hdir : dir.Small) (name : Buffer) (pos n : ℕ) (hn : n < dir.entries) :
    ∀ blk ∈ (readname B past dir.block name pos n).reads, dir.Covers blk := by
  induction n generalizing name pos with
  | zero => simp [readname]
  | succ n ih =>
    have hsize := hdir.size_lt
    have hblk : dir.Covers (dir.block + BitVec.ofNat 32 ((n + 1) / 16)) := by
      unfold Dir.entries at hn
      rw [Dir.covers_add]
      omega
    rw [readname]
    dsimp only
    generalize (if n + 1 < 16 then direntry _ (n + 1) 0 else past _) = order
    split_ifs
    · simpa using hblk
    · simpa using hblk
    · simpa using hblk
    · exact List.forall_mem_cons.mpr ⟨hblk, ih _ _ (by omega)⟩

lemma length_longnameChars (e : Bytes) : (longnameChars e).length = 13 := rfl

lemma copy_of_lt {b : Buffer} {pos o : ℕ} {chars : List Byte} (ho : o < pos) :
    (b.copy pos chars).bytes o = b.bytes o :=
  if_neg (not_le.mpr ho)

lemma copy_of_ge {b : Buffer} {pos o : ℕ} {chars : List Byte} (ho : pos + chars.length ≤ o) :
    (b.copy pos chars).bytes o = b.bytes o := by
  have hnone : chars[o - pos]? = none := List.getElem?_eq_none (by omega)
  simp [Buffer.copy, hnone]

lemma readname_untouched {l n o : ℕ} (hl : l ≤ n) (hstop : l = 0 ∨ ¬ IsFragment (dir.entryAt B l))
    (name : Buffer) {pos : ℕ} (ho : pos + 13 * (n - l) ≤ o) :
    (readname B past dir.block name pos n).name.bytes o = name.bytes o := by
  induction n generalizing name pos with
  | zero => rfl
  | succ n ih =>
    have hcopied (hne : l ≠ n + 1) (e : Bytes) :
        (name.copy pos (longnameChars e)).bytes o = name.bytes o :=
      copy_of_ge (by rw [length_longnameChars]; omega)
    rw [readname]
    dsimp only
    generalize (if n + 1 < 16 then direntry _ (n + 1) 0 else past _) = order
    by_cases heq : l = n + 1
    · have hattr : direntry (B.read (dir.block + BitVec.ofNat 32 ((n + 1) / 16))).2
          ((n + 1) % 16) 11 &&& direntryLongname ≠ direntryLongname :=
        isFragment_iff.not.mp (heq ▸ hstop.resolve_left (by omega))
      rw [if_pos hattr]
      split_ifs <;> rfl
    · split_ifs
      · rfl
      · rfl
      · exact hcopied heq _
      · exact (ih (by omega) _ (by omega)).trans (hcopied heq _)

lemma length_put_le (num : ℕ) (c : Byte) (out : List Byte) :
    (Direntry.put num c out).length ≤ out.length + 1 := by
  rw [Direntry.put]
  split_ifs <;> simp

lemma length_copyName_le (e : Bytes) (num : ℕ) (lower : Bool) (i : ℕ) (out : List Byte)
    (left : ℕ) : (Direntry.copyName e num lower i out left).length ≤ out.length + 2 * left := by
  have hchar (lower : Bool) (i : ℕ) (out : List Byte) :
      (Direntry.copyChar e num lower i out).length ≤ out.length + 2 := by
    rw [Direntry.copyChar]
    split_ifs
    · exact (length_put_le _ _ _).trans (Nat.succ_le_succ (length_put_le _ _ _))
    · exact (length_put_le _ _ _).trans (by omega)
  induction left generalizing lower i out with
  | zero => exact le_rfl
  | succ left ih =>
    rw [Direntry.copyName]
    split_ifs
    · omega
    · omega
    · exact (ih _ _ _).trans (by have := hchar (e 12 &&& 0x10 = 0x10) 8 out; omega)
    · omega
    · exact (ih _ _ _).trans (by have := hchar lower i out; omega)

lemma length_shortName_le (e : Bytes) (num : Huint) : (Direntry.shortName e num).length ≤ 23 := by
  rw [Direntry.shortName]
  split_ifs
  · simp
  · rw [List.length_append, List.length_singleton]
    exact Nat.succ_le_succ (length_copyName_le e _ _ 0 [] 11)

lemma append_eq_shift (hi lo : BitVec 16) :
    (hi.setWidth 32 <<< 16 ||| lo.setWidth 32 : Huint) = hi ++ lo := by
  refine BitVec.eq_of_getLsbD_eq fun i hi' => ?_
  simp only [BitVec.getLsbD_or, BitVec.getLsbD_shiftLeft, BitVec.getLsbD_setWidth,
    BitVec.getLsbD_append]
  interval_cases i <;> simp

def filled (e : Bytes) (entryno : Huint) (entry : DirEntry) : Bytes :=
  (Buffer.copy 0 (Direntry.shortName e (BitVec.ofNat 32 nameMax))
    ⟨(((entry.name.store32 DirEntry.entrynoAt entryno).store32 DirEntry.attrsAt
        ((Direntry.attrs e).setWidth 32)).store32 DirEntry.sizeAt
        (fromLittlel (Direntry.size e))).store32 DirEntry.clusterAt
        ((fromLittles (Direntry.clusterHi e)).setWidth 32 <<< 16 |||
          (fromLittles (Direntry.clusterLo e)).setWidth 32), []⟩).bytes

lemma filled_load32 {e : Bytes} {entryno : Huint} {entry : DirEntry} {o : ℕ} (ho : 23 ≤ o) :
    (filled e entryno entry).load32 o =
      ((((entry.name.store32 DirEntry.entrynoAt entryno).store32 DirEntry.attrsAt
        ((Direntry.attrs e).setWidth 32)).store32 DirEntry.sizeAt
        (fromLittlel (Direntry.size e))).store32 DirEntry.clusterAt
        ((fromLittles (Direntry.clusterHi e)).setWidth 32 <<< 16 |||
          (fromLittles (Direntry.clusterLo e)).setWidth 32)).load32 o := by
  refine Bytes.load32_congr fun i hi _ => copy_of_ge ?_
  have := length_shortName_le e (BitVec.ofNat 32 nameMax)
  omega

section Fields

variable (e : Bytes) (entryno : Huint) (entry : DirEntry)

lemma filled_entryno : (filled e entryno entry).load32 DirEntry.entrynoAt = entryno := by
  rw [filled_load32 (by decide), Bytes.load32_store32_of_ne _ (by decide),
    Bytes.load32_store32_of_ne _ (by decide), Bytes.load32_store32_of_ne _ (by decide),
    Bytes.load32_store32]

lemma filled_attrs :
    (filled e entryno entry).load32 DirEntry.attrsAt = (Direntry.attrs e).setWidth 32 := by
  rw [filled_load32 (by decide), Bytes.load32_store32_of_ne _ (by decide),
    Bytes.load32_store32_of_ne _ (by decide), Bytes.load32_store32]

lemma filled_size :
    (filled e entryno entry).load32 DirEntry.sizeAt = fromLittlel (Direntry.size e) := by
  rw [filled_load32 (by decide), Bytes.load32_store32_of_ne _ (by decide), Bytes.load32_store32]

lemma filled_cluster : (filled e entryno entry).load32 DirEntry.clusterAt =
    (fromLittles (Direntry.clusterHi e)).setWidth 32 <<< 16 |||
      (fromLittles (Direntry.clusterLo e)).setWidth 32 := by
  rw [filled_load32 (by decide), Bytes.load32_store32]

end Fields

lemma fillEntry_eq (sblk : Huint) (e : Bytes) (entryno : Huint) (entry : DirEntry) :
    fillEntry B past sblk e entryno entry =
      let r := dirReadnameAt B past sblk entryno (filled e entryno entry)
      ({ entry with name := r.name.bytes }, r.reads) := by
  rw [fillEntry, ← filled, filled_entryno]

lemma fillEntry_shows {q : ℕ} (hq : q < 2 ^ 31) (hfits : dir.NameFits B q) (entry : DirEntry) :
    (fillEntry B past dir.block (dir.entryAt B q) (BitVec.ofNat 32 q) entry).1.Shows B dir q := by
  obtain ⟨l, hl, hrun, hstop⟩ := hfits
  have hkept {o : ℕ} (ho : 260 ≤ o) :
      (dirReadnameAt B past dir.block (BitVec.ofNat 32 q)
        (filled (dir.entryAt B q) (BitVec.ofNat 32 q) entry)).name.bytes.load32 o =
      (filled (dir.entryAt B q) (BitVec.ofNat 32 q) entry).load32 o := by
    refine Bytes.load32_congr fun i hi _ => ?_
    rw [dirReadnameAt, previous_toNat hq]
    exact readname_untouched hl hstop _ (by omega)
  rw [fillEntry_eq]
  constructor
  · exact (hkept (by decide)).trans (filled_entryno _ _ entry)
  · exact (hkept (by decide)).trans (filled_attrs _ _ entry)
  · exact ((hkept (by decide)).trans (filled_size _ _ entry)).trans fromLittlel_append
  · refine ((hkept (by decide)).trans (filled_cluster _ _ entry)).trans ?_
    refine (append_eq_shift _ _).trans ?_
    exact congrArg₂ (· ++ ·) fromLittles_append fromLittles_append

lemma fillEntry_covers (hdir : dir.Small) {q : ℕ} (hq : q < dir.entries) (e : Bytes)
    (entry : DirEntry) :
    ∀ blk ∈ (fillEntry B past dir.block e (BitVec.ofNat 32 q) entry).2, dir.Covers blk := by
  have hsmall : dir.entries < 2 ^ 31 := hdir
  have hprevious : (BitVec.ofNat 32 q - 1).toInt.toNat < dir.entries := by
    rw [previous_toNat (hq.trans hsmall)]
    omega
  rw [fillEntry_eq]
  exact readname_covers hdir _ _ _ hprevious

end Filling

end Hthreads.Fat16
