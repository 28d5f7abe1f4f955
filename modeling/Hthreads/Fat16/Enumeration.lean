import Hthreads.Fat16.Mounted
import Hthreads.Fat16.Scanning

/-! Calling `fat16_dir_first` and then `fat16_dir_next` again and again: the calls show the listing
of the directory, and the one after the last entry does not say so. -/

namespace Hthreads.Fat16

open Library Software

variable {B : Block} {dir : Dir} {past : Bytes} {fuel : ℕ}

lemma dirNextentry_eq (entry : DirEntry) {p : ℕ} (hp : p < 2 ^ 32) :
    dirNextentry B past fuel dir.block (BitVec.ofNat 32 p) entry =
      scanAt B past dir entry p fuel := by
  have hnat : (BitVec.ofNat 32 p).toNat = p := by
    rw [BitVec.toNat_ofNat]
    exact Nat.mod_eq_of_lt hp
  have hdiv : BitVec.ofNat 32 p / 16 = BitVec.ofNat 32 (p / 16) := by
    refine BitVec.eq_of_toNat_eq ?_
    have h16 : (16 : Huint).toNat = 16 := rfl
    rw [BitVec.toNat_udiv, hnat, h16, BitVec.toNat_ofNat]
    exact (Nat.mod_eq_of_lt (by omega)).symm
  have hmod : (BitVec.ofNat 32 p % 16).toNat = p % 16 := by
    rw [BitVec.toNat_umod, hnat]
    rfl
  rw [dirNextentry, scanAt, hdiv, hmod]

section Listing

lemma listingFrom_succ (p left : ℕ) :
    dir.listingFrom B p (left + 1) =
      if IsEnd (dir.entryAt B p) then []
      else if IsListed (dir.entryAt B p) then p :: dir.listingFrom B (p + 1) left
      else dir.listingFrom B (p + 1) left := by
  rw [Dir.listingFrom, List.range'_succ, List.takeWhile_cons]
  by_cases hend : IsEnd (dir.entryAt B p)
  · simp [hend]
  · by_cases hlisted : IsListed (dir.entryAt B p)
    · simp [hend, hlisted, Dir.listingFrom]
    · simp [hend, hlisted, Dir.listingFrom]

lemma listingFrom_cases (B : Block) (dir : Dir) (p left : ℕ) :
    (∃ q, p ≤ q ∧ q < p + left ∧ dir.Passes B p q ∧
      ((¬ IsEnd (dir.entryAt B q) ∧ IsListed (dir.entryAt B q) ∧
        dir.listingFrom B p left = q :: dir.listingFrom B (q + 1) (p + left - (q + 1))) ∨
      (IsEnd (dir.entryAt B q) ∧ dir.listingFrom B p left = []))) ∨
    (dir.Passes B p (p + left) ∧ dir.listingFrom B p left = []) := by
  induction left generalizing p with
  | zero => exact .inr ⟨fun l hl hlt => by omega, rfl⟩
  | succ left ih =>
    rw [listingFrom_succ]
    by_cases hend : IsEnd (dir.entryAt B p)
    · rw [if_pos hend]
      exact .inl ⟨p, le_rfl, by omega, fun l hl hlt => by omega, .inr ⟨hend, rfl⟩⟩
    by_cases hlisted : IsListed (dir.entryAt B p)
    · rw [if_neg hend, if_pos hlisted]
      refine .inl ⟨p, le_rfl, by omega, fun l hl hlt => by omega, .inl ⟨hend, hlisted, ?_⟩⟩
      rw [show p + (left + 1) - (p + 1) = left by omega]
    · rw [if_neg hend, if_neg hlisted]
      have hfrom {q : ℕ} (h : dir.Passes B (p + 1) q) : dir.Passes B p q := by
        intro l hl hlt
        obtain rfl | hl' := Nat.eq_or_lt_of_le hl
        · exact ⟨hend, hlisted⟩
        · exact h l hl' hlt
      have hsum : p + (left + 1) = p + 1 + left := by omega
      rw [hsum]
      obtain ⟨q, hq, hlt, hpasses, hfound⟩ | ⟨hpasses, hnil⟩ := ih (p + 1)
      · exact .inl ⟨q, by omega, hlt, hfrom hpasses, hfound⟩
      · exact .inr ⟨hfrom hpasses, hnil⟩

end Listing

/-- What going through a directory is for. -/
structure Dir.EnumeratesExactly (B : Block) (past : Bytes) (fuel : ℕ) (dir : Dir)
    (entry : DirEntry) : Prop where
  yields : ∀ k p, (dir.listing B)[k]? = some p →
    ∃ a, dirCalls B past fuel dir entry k = some a ∧ a.res = success ∧ a.entry.Shows B dir p
  ends : ∃ a, dirCalls B past fuel dir entry (dir.listing B).length = some a ∧
    a.res.slt 0 = true
  inside : ∀ k ≤ (dir.listing B).length, ∀ a, dirCalls B past fuel dir entry k = some a →
    ∀ blk ∈ a.reads, dir.Covers blk

section Calls

variable {entry : DirEntry} {k : ℕ}

def Dir.ShowsBefore (B : Block) (past : Bytes) (fuel : ℕ) (dir : Dir) (entry : DirEntry)
    (k : ℕ) : Prop :=
  ∀ j < k, ∀ p, (dir.listing B)[j]? = some p →
    ∃ a, dirCalls B past fuel dir entry j = some a ∧ a.entry.Shows B dir p

lemma dirCalls_at (hdir : dir.Small) (hread : dir.Readable B) (hk : k ≤ (dir.listing B).length)
    (hearlier : dir.ShowsBefore B past fuel entry k) :
    ∃ p entry', p ≤ dir.entries ∧
      (dir.listing B).drop k = dir.listingFrom B p (dir.entries - p) ∧ entry'.parent = dir ∧
      dirCalls B past fuel dir entry k = (scanAt B past dir entry' p fuel).map report := by
  have hsmall : dir.entries < 2 ^ 31 := hdir
  induction k with
  | zero =>
    refine ⟨0, { entry with parent := dir }, Nat.zero_le _, rfl, rfl, ?_⟩
    rw [dirCalls, dirFirst]
    exact congrArg (Option.map report) (dirNextentry_eq _ (by decide))
  | succ k ih =>
    obtain ⟨p, entry', hp, hdrop, hparent, hcall⟩ :=
      ih (by omega) fun j hj => hearlier j (by omega)
    obtain ⟨a, ha, hshows⟩ :=
      hearlier k (by omega) _ (List.getElem?_eq_getElem (Nat.lt_of_succ_le hk))
    rw [hcall] at ha
    obtain ⟨a', ha', rfl⟩ := Option.map_eq_some_iff.mp ha
    have hcons : (dir.listing B).drop k =
        (dir.listing B)[k] :: (dir.listing B).drop (k + 1) := List.drop_eq_getElem_cons (by omega)
    rw [hdrop] at hcons
    obtain ⟨q, hpq, hq, hpasses, ⟨hend, hlisted, hfrom⟩ | ⟨-, hnil⟩⟩ | ⟨-, hnil⟩ :=
      listingFrom_cases B dir p (dir.entries - p)
    · rw [Nat.add_sub_cancel' hp] at hq hfrom
      obtain ⟨-, -, hentry⟩ := scanAt_found hdir hread entry' hpq hq hpasses hend hlisted ha'
      have hparent' : a'.entry.parent = entry'.parent := by rw [hentry, fillEntry_eq]
      obtain ⟨hhead, htail⟩ := List.cons.inj (hcons.symm.trans hfrom)
      have hnext : a'.entry.entryno + 1 = BitVec.ofNat 32 (q + 1) := by
        have hentryno : a'.entry.entryno = BitVec.ofNat 32 q := hhead ▸ hshows.entryno
        rw [hentryno, BitVec.ofNat_add]
        rfl
      refine ⟨q + 1, a'.entry, hq, htail, hparent'.trans hparent, ?_⟩
      have hblock : a'.entry.parent.block = dir.block := by rw [hparent', hparent]
      rw [dirCalls, hcall, ha']
      refine congrArg (Option.map report) (.trans ?_ (dirNextentry_eq a'.entry (by omega)))
      rw [← hnext, ← hblock]
      rfl
    · cases hnil.symm.trans hcons
    · cases hnil.symm.trans hcons

lemma dirCalls_yields (hdir : dir.Small) (hread : dir.Readable B)
    (hfits : ∀ p ∈ dir.listing B, dir.NameFits B p) (hfuel : dir.size.toNat ≤ fuel) {p : ℕ}
    (hp : (dir.listing B)[k]? = some p) :
    ∃ a, dirCalls B past fuel dir entry k = some a ∧ a.res = success ∧
      a.entry.Shows B dir p := by
  have hsmall : dir.entries < 2 ^ 31 := hdir
  induction k using Nat.strong_induction_on generalizing p with
  | _ k ih =>
    obtain ⟨hk, hget⟩ := List.getElem?_eq_some_iff.mp hp
    have hearlier : dir.ShowsBefore B past fuel entry k := by
      intro j hj p hp
      obtain ⟨a, ha, -, hshows⟩ := ih j hj hp
      exact ⟨a, ha, hshows⟩
    obtain ⟨p', entry', hp', hdrop, -, hcall⟩ := dirCalls_at hdir hread hk.le hearlier
    rw [List.drop_eq_getElem_cons hk, hget] at hdrop
    obtain ⟨q, hpq, hq, hpasses, ⟨hend, hlisted, hfrom⟩ | ⟨-, hnil⟩⟩ | ⟨-, hnil⟩ :=
      listingFrom_cases B dir p' (dir.entries - p')
    · rw [Nat.add_sub_cancel' hp'] at hq hfrom
      obtain rfl : p = q := (List.cons.inj (hdrop.trans hfrom)).1
      have hblocks : p / 16 < p' / 16 + fuel := by
        unfold Dir.entries at hq
        omega
      have hreturns : ∃ a, scanAt B past dir entry' p' fuel = some a :=
        scanAt_returns hread entry' hpq hq hlisted hblocks
      obtain ⟨a, ha⟩ := hreturns
      obtain ⟨hres, -, hentry⟩ :=
        scanAt_found hdir hread entry' hpq hq hpasses hend hlisted ha
      refine ⟨report a, by rw [hcall, ha]; rfl, ?_, ?_⟩
      · rw [report, hres]
        rfl
      · have hshows : a.entry.Shows B dir p := by
          rw [hentry]
          exact fillEntry_shows (by omega) (hfits p (List.mem_of_getElem? hp)) entry'
        exact hshows
    · cases hdrop.trans hnil
    · cases hdrop.trans hnil

lemma dirCalls_last (hdir : dir.Small) (hread : dir.Readable B)
    (hearlier : dir.ShowsBefore B past fuel entry (dir.listing B).length) {a : Answer}
    (ha : dirCalls B past fuel dir entry (dir.listing B).length = some a) :
    a.res = success ∨ ∃ blk ∈ a.reads, ¬ dir.Covers blk := by
  obtain ⟨p, entry', hp, hdrop, -, hcall⟩ := dirCalls_at hdir hread le_rfl hearlier
  rw [List.drop_length] at hdrop
  rw [hcall] at ha
  obtain ⟨a', ha', rfl⟩ := Option.map_eq_some_iff.mp ha
  obtain ⟨q, hpq, hq, hpasses, ⟨-, -, hfrom⟩ | ⟨hend, -⟩⟩ | ⟨hpasses, -⟩ :=
    listingFrom_cases B dir p (dir.entries - p)
  · cases hdrop.trans hfrom
  · rw [Nat.add_sub_cancel' hp] at hq
    refine .inl ?_
    rw [report, scanAt_ended hread entry' hpq hq hpasses hend ha']
    rfl
  · rw [Nat.add_sub_cancel' hp] at hpasses
    have hsize := hdir.size_lt
    have hmem := scanAt_leaves hread entry' hp hpasses ha'
    refine .inr ⟨_, hmem, ?_⟩
    rw [Dir.covers_add]
    omega

end Calls

section Root

variable {stack : Buffer} {first partSize : Huint} {fat : Volume}

lemma dirRoot_small (h : create B stack first partSize = .mounted fat) : (dirRoot fat).Small := by
  by_cases hfails : B.Fails first
  · rw [create_of_fails hfails] at h
    cases h
  · rw [create_of_not_fails hfails] at h
    split_ifs at h with hbytes
    cases h
    have hroot := (bootOf B first).maxRoot.isLt
    have hlt := (bootOf B first).bytesPerSector.isLt
    have hsize : (layout first partSize (bootOf B first)).rootSize.toNat ≤
        (bootOf B first).maxRoot.toNat * 32 + ((bootOf B first).bytesPerSector.toNat - 1) := by
      rw [layout_rootSize (bootOf B first) first partSize hbytes]
      exact Nat.div_le_self _ _
    unfold Dir.Small Dir.entries dirRoot
    dsimp only
    omega

/-- Going through the root directory of a mounted volume shows exactly its listing, as long as no
long name runs over the fields of the record; and it never ends as it should. -/
theorem directory_enumeration_never_ends (hfat : create B stack first partSize = .mounted fat)
    (hread : (dirRoot fat).Readable B) (entry : DirEntry) :
    ((∀ p ∈ (dirRoot fat).listing B, (dirRoot fat).NameFits B p) →
      (dirRoot fat).size.toNat ≤ fuel → ∀ k p, ((dirRoot fat).listing B)[k]? = some p →
      ∃ a, dirCalls B past fuel (dirRoot fat) entry k = some a ∧ a.res = success ∧
        a.entry.Shows B (dirRoot fat) p) ∧
    ¬ (dirRoot fat).EnumeratesExactly B past fuel entry := by
  have hdir := dirRoot_small hfat
  refine ⟨fun hfits hfuel k p hp => dirCalls_yields hdir hread hfits hfuel hp, fun h => ?_⟩
  have hearlier : (dirRoot fat).ShowsBefore B past fuel entry ((dirRoot fat).listing B).length := by
    intro j hj p hp
    obtain ⟨a, ha, -, hshows⟩ := h.yields j p hp
    exact ⟨a, ha, hshows⟩
  obtain ⟨a, ha, hnegative⟩ := h.ends
  obtain hsuccess | ⟨blk, hblk, hcovers⟩ := dirCalls_last hdir hread hearlier ha
  · rw [hsuccess] at hnegative
    cases hnegative
  · exact hcovers (h.inside _ le_rfl a ha blk hblk)

end Root

section Sample

-- the sample disk with one file in its root directory, which starts at sector 128
def oneFile : Bytes
  | 0 => 0x41
  | 11 => 0x20
  | 26 => 2
  | 28 => 5
  | _ => 0

def fileDisk : Block where
  read sector :=
    (success, if sector = 0 then sampleRecord 63 else if sector = 63 then sampleBoot
      else if sector = 128 then oneFile else fun _ => 0)

def fileVolume : Volume := layout 63 40000 (.little sampleBoot)

def noEntry : DirEntry := ⟨⟨0, 0⟩, fun _ => 0⟩

lemma create_fileDisk :
    create fileDisk ⟨fun _ => 0, []⟩ 63 40000 = .mounted fileVolume := by
  have hfails : ¬ fileDisk.Fails 63 := by decide
  have hbytes : (bootOf fileDisk 63).bytesPerSector ≠ 0 := by decide
  rw [create_of_not_fails hfails, if_neg hbytes]
  rfl

lemma fileDisk_readable : (dirRoot fileVolume).Readable fileDisk :=
  fun _ _ => Bool.false_ne_true

lemma listing_fileDisk : (dirRoot fileVolume).listing fileDisk = [0] := by
  decide

lemma fileDisk_nameFits :
    ∀ p ∈ (dirRoot fileVolume).listing fileDisk, (dirRoot fileVolume).NameFits fileDisk p := by
  intro p hp
  rw [listing_fileDisk, List.mem_singleton] at hp
  exact ⟨0, Nat.zero_le _, by omega, .inl rfl⟩

theorem directory_enumeration_shows_file :
    ∃ a, dirCalls fileDisk (fun _ => 0) 32 (dirRoot fileVolume) noEntry 0 = some a ∧
      a.res = success ∧ a.entry.Shows fileDisk (dirRoot fileVolume) 0 :=
  (directory_enumeration_never_ends create_fileDisk fileDisk_readable noEntry).1
    fileDisk_nameFits (by decide) 0 0 (by decide)

/-- After the only file the next call answers SUCCESS and shows it again. -/
theorem directory_enumeration_repeats_file :
    (∃ a, dirCalls fileDisk (fun _ => 0) 32 (dirRoot fileVolume) noEntry 1 = some a ∧
      a.res = success ∧ a.entry.entryno = 0) ∧
    ¬ (dirRoot fileVolume).EnumeratesExactly fileDisk (fun _ => 0) 32 noEntry := by
  have hlength := congrArg List.length listing_fileDisk
  refine ⟨⟨_, rfl, rfl, rfl⟩, fun h => ?_⟩
  obtain ⟨a, ha, hnegative⟩ := h.ends
  rw [hlength] at ha
  cases ha
  cases hnegative

end Sample

end Hthreads.Fat16
