import Hthreads.Fat16.Listing

/-! One search through a directory from an entry number on: it finds the next listed entry, stops at
the end marker, or leaves the region. -/

namespace Hthreads.Fat16

open Library Software

variable {B : Block} {dir : Dir} {past : Bytes}

def Dir.Passes (B : Block) (dir : Dir) (p q : ℕ) : Prop :=
  ∀ l, p ≤ l → l < q → IsSkipped (dir.entryAt B l)

def scanAt (B : Block) (past : Bytes) (dir : Dir) (entry : DirEntry) (p fuel : ℕ) :
    Option Answer :=
  dirScan B past dir.block entry (dir.block + BitVec.ofNat 32 (p / 16)) (p % 16)
    (BitVec.ofNat 32 p) fuel

section Block

variable {sblk blk ent : Huint} {off fuel : ℕ} {entry : DirEntry}

lemma dirScan_found (hread : ¬ B.Fails blk) {j : ℕ} (hj : j < 16)
    (hres : dirFindentry (B.read blk).2 off (16 - off) = BitVec.ofNat 32 j) :
    dirScan B past sblk entry blk off ent (fuel + 1) = some ⟨success,
      (fillEntry B past sblk (direntry (B.read blk).2 j)
        (ent + BitVec.ofNat 32 j - BitVec.ofNat 32 off) entry).1,
      blk :: (fillEntry B past sblk (direntry (B.read blk).2 j)
        (ent + BitVec.ofNat 32 j - BitVec.ofNat 32 off) entry).2⟩ := by
  have hnat : (BitVec.ofNat 32 j).toNat = j := by
    rw [BitVec.toNat_ofNat]
    omega
  have hint : 0 ≤ (BitVec.ofNat 32 j).toInt := by
    rw [toInt_ofNat_of_lt (by omega)]
    exact Int.natCast_nonneg j
  rw [dirScan, if_neg hread]
  dsimp only
  rw [hres, if_pos hint, hnat]

lemma dirScan_end (hread : ¬ B.Fails blk)
    (hres : dirFindentry (B.read blk).2 off (16 - off) = -2) :
    dirScan B past sblk entry blk off ent (fuel + 1) = some ⟨einval, entry, [blk]⟩ := by
  have hint : ¬ 0 ≤ (-2 : Hint).toInt := by decide
  rw [dirScan, if_neg hread]
  dsimp only
  rw [hres, if_neg hint, if_pos rfl]

lemma dirScan_on (hread : ¬ B.Fails blk)
    (hres : dirFindentry (B.read blk).2 off (16 - off) = -1) :
    dirScan B past sblk entry blk off ent (fuel + 1) =
      (dirScan B past sblk entry (blk + 1) 0 (ent + 16 - BitVec.ofNat 32 off) fuel).map fun a =>
        { a with reads := blk :: a.reads } := by
  have hint : ¬ 0 ≤ (-1 : Hint).toInt := by decide
  have hne : (-1 : Hint) ≠ -2 := by decide
  rw [dirScan, if_neg hread]
  dsimp only
  rw [hres, if_neg hint, if_neg hne]

end Block

lemma scanAt_succ (past : Bytes) (entry : DirEntry) (p fuel : ℕ)
    (hread : ¬ B.Fails (dir.block + BitVec.ofNat 32 (p / 16))) :
    (∃ q, p ≤ q ∧ q / 16 = p / 16 ∧ dir.Passes B p q ∧
      ((¬ IsEnd (dir.entryAt B q) ∧ IsListed (dir.entryAt B q) ∧
        scanAt B past dir entry p (fuel + 1) = some ⟨success,
          (fillEntry B past dir.block (dir.entryAt B q) (BitVec.ofNat 32 q) entry).1,
          (dir.block + BitVec.ofNat 32 (p / 16)) ::
            (fillEntry B past dir.block (dir.entryAt B q) (BitVec.ofNat 32 q) entry).2⟩) ∨
      (IsEnd (dir.entryAt B q) ∧ scanAt B past dir entry p (fuel + 1) =
        some ⟨einval, entry, [dir.block + BitVec.ofNat 32 (p / 16)]⟩))) ∨
    (dir.Passes B p (16 * (p / 16 + 1)) ∧ scanAt B past dir entry p (fuel + 1) =
      (scanAt B past dir entry (16 * (p / 16 + 1)) fuel).map fun a =>
        { a with reads := (dir.block + BitVec.ofNat 32 (p / 16)) :: a.reads }) := by
  have hentry (l : ℕ) (hl : l / 16 = p / 16) : dir.entryAt B l =
      direntry (B.read (dir.block + BitVec.ofNat 32 (p / 16))).2 (l % 16) := by
    rw [Dir.entryAt, hl]
  obtain ⟨j, hj, hlt, hbefore, hfound⟩ | ⟨hall, hfound⟩ := dirFindentry_cases
    (B.read (dir.block + BitVec.ofNat 32 (p / 16))).2 (p % 16) (16 - p % 16)
  · have hpasses : dir.Passes B p (16 * (p / 16) + j) := by
      intro l hl hlq
      rw [hentry l (by omega)]
      exact hbefore (l % 16) (by omega) (by omega)
    have hj' := hentry (16 * (p / 16) + j) (by omega)
    rw [show (16 * (p / 16) + j) % 16 = j by omega] at hj'
    refine .inl ⟨16 * (p / 16) + j, by omega, by omega, hpasses, ?_⟩
    rw [hj']
    obtain ⟨hend, hlisted, hres⟩ | ⟨hend, hres⟩ := hfound
    · have hent : BitVec.ofNat 32 p + BitVec.ofNat 32 j - BitVec.ofNat 32 (p % 16) =
          BitVec.ofNat 32 (16 * (p / 16) + j) := by
        refine BitVec.eq_sub_iff_add_eq.mpr ?_ |>.symm
        rw [← BitVec.ofNat_add, ← BitVec.ofNat_add]
        congr 1
        omega
      refine .inl ⟨hend, hlisted, ?_⟩
      rw [scanAt, dirScan_found hread (by omega) hres, hent]
    · exact .inr ⟨hend, dirScan_end hread hres⟩
  · refine .inr ⟨fun l hl hlt => ?_, ?_⟩
    · rw [hentry l (by omega)]
      exact hall (l % 16) (by omega) (by omega)
    · have hent : BitVec.ofNat 32 p + 16 - BitVec.ofNat 32 (p % 16) =
          BitVec.ofNat 32 (16 * (p / 16 + 1)) := by
        refine BitVec.eq_sub_iff_add_eq.mpr ?_ |>.symm
        rw [← BitVec.ofNat_add]
        refine .trans ?_ (BitVec.ofNat_add p 16)
        congr 1
        omega
      have hblk : dir.block + BitVec.ofNat 32 (p / 16) + 1 =
          dir.block + BitVec.ofNat 32 (16 * (p / 16 + 1) / 16) := by
        rw [Nat.mul_div_cancel_left _ (by decide), BitVec.ofNat_add, ← BitVec.add_assoc]
        rfl
      have hoff : 16 * (p / 16 + 1) % 16 = 0 := Nat.mul_mod_right 16 _
      rw [scanAt, dirScan_on hread hfound, hent, hblk, scanAt, hoff]

def Dir.Readable (B : Block) (dir : Dir) : Prop :=
  ∀ k < dir.size.toNat, ¬ B.Fails (dir.block + BitVec.ofNat 32 k)

lemma Dir.Readable.at (h : dir.Readable B) {p : ℕ} (hp : p < dir.entries) :
    ¬ B.Fails (dir.block + BitVec.ofNat 32 (p / 16)) := by
  unfold Dir.entries at hp
  exact h (p / 16) (by omega)

lemma scanAt_found (hdir : dir.Small) (hread : dir.Readable B) (entry : DirEntry) {p q fuel : ℕ}
    (hpq : p ≤ q) (hq : q < dir.entries) (hpasses : dir.Passes B p q)
    (hend : ¬ IsEnd (dir.entryAt B q)) (hlisted : IsListed (dir.entryAt B q)) {a : Answer}
    (ha : scanAt B past dir entry p fuel = some a) :
    a.res = success ∧ (∀ blk ∈ a.reads, dir.Covers blk) ∧
      a.entry =
        (fillEntry B past dir.block (dir.entryAt B q) (BitVec.ofNat 32 q) entry).1 := by
  induction fuel generalizing p a with
  | zero => cases ha
  | succ fuel ih =>
    have hsize := hdir.size_lt
    have hblk : dir.Covers (dir.block + BitVec.ofNat 32 (p / 16)) := by
      unfold Dir.entries at hq
      rw [Dir.covers_add]
      omega
    obtain ⟨r, hr, hblock, hpasses', ⟨hend', hlisted', hscan⟩ | ⟨hend', hscan⟩⟩ |
        ⟨hpasses', hscan⟩ := scanAt_succ past entry p fuel (hread.at (hpq.trans_lt hq))
    · have heq : r = q := by
        by_contra hne
        obtain hlt | hgt := Nat.lt_or_gt_of_ne hne
        · exact (hpasses r hr hlt).2 hlisted'
        · exact (hpasses' q hpq hgt).2 hlisted
      subst heq
      cases hscan.symm.trans ha
      exact ⟨rfl, List.forall_mem_cons.mpr ⟨hblk, fillEntry_covers hdir hq _ entry⟩, rfl⟩
    · obtain hlt | rfl | hgt := Nat.lt_trichotomy r q
      · exact ((hpasses r hr hlt).1 hend').elim
      · exact (hend hend').elim
      · exact ((hpasses' q hpq hgt).2 hlisted).elim
    · have hnext : 16 * (p / 16 + 1) ≤ q := by
        by_contra hlt
        exact (hpasses' q hpq (by omega)).2 hlisted
      rw [hscan] at ha
      obtain ⟨a', ha', rfl⟩ := Option.map_eq_some_iff.mp ha
      obtain ⟨hres, hreads, hentry⟩ := ih hnext (fun l hl => hpasses l (by omega)) ha'
      exact ⟨hres, List.forall_mem_cons.mpr ⟨hblk, hreads⟩, hentry⟩

lemma scanAt_returns (hread : dir.Readable B) (entry : DirEntry) {p q fuel : ℕ} (hpq : p ≤ q)
    (hq : q < dir.entries) (hlisted : IsListed (dir.entryAt B q))
    (hfuel : q / 16 < p / 16 + fuel) : ∃ a, scanAt B past dir entry p fuel = some a := by
  induction fuel generalizing p with
  | zero => omega
  | succ fuel ih =>
    obtain ⟨r, -, -, -, ⟨-, -, hscan⟩ | ⟨-, hscan⟩⟩ | ⟨hpasses', hscan⟩ :=
      scanAt_succ past entry p fuel (hread.at (hpq.trans_lt hq))
    · exact ⟨_, hscan⟩
    · exact ⟨_, hscan⟩
    · have hnext : 16 * (p / 16 + 1) ≤ q := by
        by_contra hlt
        exact (hpasses' q hpq (by omega)).2 hlisted
      obtain ⟨a, ha⟩ := ih hnext (by omega)
      exact ⟨_, by rw [hscan, ha]; rfl⟩

lemma scanAt_ended (hread : dir.Readable B) (entry : DirEntry) {p q fuel : ℕ} (hpq : p ≤ q)
    (hq : q < dir.entries) (hpasses : dir.Passes B p q) (hend : IsEnd (dir.entryAt B q))
    {a : Answer} (ha : scanAt B past dir entry p fuel = some a) : a.res = einval := by
  induction fuel generalizing p a with
  | zero => cases ha
  | succ fuel ih =>
    obtain ⟨r, hr, hblock, hpasses', ⟨hend', hlisted', hscan⟩ | ⟨hend', hscan⟩⟩ |
        ⟨hpasses', hscan⟩ := scanAt_succ past entry p fuel (hread.at (hpq.trans_lt hq))
    · obtain hlt | rfl | hgt := Nat.lt_trichotomy r q
      · exact ((hpasses r hr hlt).2 hlisted').elim
      · exact (hend' hend).elim
      · exact ((hpasses' q hpq hgt).1 hend).elim
    · rw [hscan] at ha
      cases ha
      rfl
    · have hnext : 16 * (p / 16 + 1) ≤ q := by
        by_contra hlt
        exact (hpasses' q hpq (by omega)).1 hend
      rw [hscan] at ha
      obtain ⟨a', ha', rfl⟩ := Option.map_eq_some_iff.mp ha
      have hres : a'.res = einval := ih hnext (fun l hl => hpasses l (by omega)) ha'
      exact hres

lemma mem_reads_of_dirScan {sblk blk ent : Huint} {off fuel : ℕ} {entry : DirEntry} {a : Answer}
    (h : dirScan B past sblk entry blk off ent fuel = some a) : blk ∈ a.reads := by
  cases fuel with
  | zero => cases h
  | succ fuel =>
    rw [dirScan] at h
    dsimp only at h
    split_ifs at h
    · cases h
      exact List.mem_cons_self
    · cases h
      exact List.mem_cons_self
    · cases h
      exact List.mem_cons_self
    · obtain ⟨a', -, rfl⟩ := Option.map_eq_some_iff.mp h
      exact List.mem_cons_self

lemma scanAt_leaves (hread : dir.Readable B) (entry : DirEntry) {p fuel : ℕ} (hp : p ≤ dir.entries)
    (hpasses : dir.Passes B p dir.entries) {a : Answer}
    (ha : scanAt B past dir entry p fuel = some a) :
    dir.block + BitVec.ofNat 32 dir.size.toNat ∈ a.reads := by
  induction fuel generalizing p a with
  | zero => cases ha
  | succ fuel ih =>
    obtain rfl | hlt := Nat.eq_or_lt_of_le hp
    · have hmem := mem_reads_of_dirScan ha
      rwa [Dir.entries, Nat.mul_div_cancel_left _ (by decide)] at hmem
    · unfold Dir.entries at hlt hp hpasses
      obtain ⟨r, hr, hblock, -, ⟨-, hlisted', -⟩ | ⟨hend', -⟩⟩ | ⟨-, hscan⟩ :=
        scanAt_succ past entry p fuel (hread.at hlt)
      · exact ((hpasses r hr (by omega)).2 hlisted').elim
      · exact ((hpasses r hr (by omega)).1 hend').elim
      · rw [hscan] at ha
        obtain ⟨a', ha', rfl⟩ := Option.map_eq_some_iff.mp ha
        have hmem := ih (p := 16 * (p / 16 + 1)) (by unfold Dir.entries; omega)
          (fun l hl => hpasses l (by omega)) ha'
        exact List.mem_cons_of_mem _ hmem

end Hthreads.Fat16
