import Hthreads.Fat16.Mounted
import Mathlib.Data.List.Iterate

/-! Looking up the entry of a cluster in the file allocation table (`fat16.c`). -/

namespace Hthreads.Fat16

open Library Software

def entrySector (fat : Volume) (cluster : Huint) : Huint :=
  fat.fatSector + cluster * 2 / fat.btSector

def entryOffset (fat : Volume) (cluster : Huint) : Huint := cluster * 2 % fat.btSector

/-- The answer of a lookup: its result, the entry it was given to fill, and the offsets in its
buffer that it looked at. -/
structure Lookup where
  res : Hint
  entry : BitVec 16
  reads : List ℕ

-- `stack` is the memory that the buffer of 512 bytes takes the start of
def getentry (B : Block) (stack : Bytes) (fat : Volume) (cluster : Huint) (entry : BitVec 16) :
    Lookup :=
  let sector := entrySector fat cluster
  let offset := entryOffset fat cluster
  if B.Fails sector then ⟨(B.read sector).1, entry, []⟩
  else
    let buffer := (Buffer.fill (B.read sector).2 ⟨stack, []⟩).bytes
    -- the index counts elements of two bytes
    let o := 2 * offset.toNat
    ⟨success, buffer.load16 o, [o, o + 1]⟩

section Table

variable (B : Block) (fat : Volume) (cluster : Huint)

def Block.byte (a : ℕ) : Byte := (B.read (BitVec.ofNat 32 (a / 512))).2 (a % 512)

/-- The entry as it stands in the first table, low byte first. -/
def diskEntry : BitVec 16 := Bytes.little16 B.byte (fat.fatSector.toNat * 512 + 2 * cluster.toNat)

def InTable : Prop := 2 * cluster.toNat + 1 < fat.fatSize.toNat * 512

def LooksUp : Prop :=
  B.Fails (entrySector fat cluster) ∨ ∀ stack entry,
    (getentry B stack fat cluster entry).res = success ∧
    (getentry B stack fat cluster entry).entry = diskEntry B fat cluster ∧
    ∀ o ∈ (getentry B stack fat cluster entry).reads, o < 512

/-- The element whose index is the offset of the entry lies in the sector, and has the two bytes of
the entry the other way round. -/
structure Coincides : Prop where
  first : cluster.toNat % 256 < 128
  high : (B.read (entrySector fat cluster)).2 (2 * (2 * (cluster.toNat % 256))) =
    (B.read (entrySector fat cluster)).2 (2 * (cluster.toNat % 256) + 1)
  low : (B.read (entrySector fat cluster)).2 (2 * (2 * (cluster.toNat % 256)) + 1) =
    (B.read (entrySector fat cluster)).2 (2 * (cluster.toNat % 256))

def next (stack : Bytes) : Huint := (getentry B stack fat cluster 0).entry.setWidth 32

def diskNext : Huint := (diskEntry B fat cluster).setWidth 32

end Table

section Lookups

variable {B : Block} {fat : Volume} {cluster : Huint} {stack : Bytes} {entry : BitVec 16}

lemma fatSize_lt {sector : Huint} {memory : Bytes} {b : Buffer} {slot : ℕ}
    (h : mount B sector memory b slot = .mounted fat) : fat.fatSize.toNat < 65536 := by
  rw [mount, create] at h
  dsimp only at h
  split_ifs at h
  cases h
  rw [layout, BitVec.toNat_setWidth]
  exact (Nat.mod_le _ _).trans_lt (BitVec.isLt _)

variable (hsize : fat.fatSize.toNat < 65536) (hbytes : fat.btSector = 512)
  (hin : InTable fat cluster)

include hsize hin

lemma double_toNat : (cluster * 2).toNat = 2 * cluster.toNat := by
  rw [InTable] at hin
  rw [BitVec.toNat_mul, show (2 : Huint).toNat = 2 from rfl]
  omega

include hbytes

lemma entryOffset_toNat : (entryOffset fat cluster).toNat = 2 * (cluster.toNat % 256) := by
  rw [entryOffset, hbytes, BitVec.toNat_umod, double_toNat hsize hin,
    show (512 : Huint).toNat = 512 from rfl]
  omega

lemma entrySector_eq : entrySector fat cluster =
    BitVec.ofNat 32 ((fat.fatSector.toNat * 512 + 2 * cluster.toNat) / 512) := by
  apply BitVec.eq_of_toNat_eq
  rw [entrySector, hbytes, BitVec.toNat_add, BitVec.toNat_udiv, double_toNat hsize hin,
    show (512 : Huint).toNat = 512 from rfl, BitVec.toNat_ofNat]
  congr 1
  omega

lemma diskEntry_eq : diskEntry B fat cluster =
    (B.read (entrySector fat cluster)).2.little16 (2 * (cluster.toNat % 256)) := by
  have hsector := entrySector_eq hsize hbytes hin
  obtain ⟨a, ha⟩ : ∃ a, fat.fatSector.toNat * 512 + 2 * cluster.toNat = a := ⟨_, rfl⟩
  rw [diskEntry, ha, hsector, ha]
  have hsame : (a + 1) / 512 = a / 512 := by omega
  have hfirst : a % 512 = 2 * (cluster.toNat % 256) := by omega
  have hsecond : (a + 1) % 512 = 2 * (cluster.toNat % 256) + 1 := by omega
  simp only [Bytes.little16, Block.byte, hsame, hfirst, hsecond]

lemma getentry_of_not_fails (h : ¬ B.Fails (entrySector fat cluster)) :
    getentry B stack fat cluster entry =
      ⟨success, (Buffer.fill (B.read (entrySector fat cluster)).2 ⟨stack, []⟩).bytes.load16
        (2 * (2 * (cluster.toNat % 256))),
        [2 * (2 * (cluster.toNat % 256)), 2 * (2 * (cluster.toNat % 256)) + 1]⟩ := by
  rw [getentry, entryOffset_toNat hsize hbytes hin]
  exact if_neg h

lemma getentry_entry_of_lt (h : ¬ B.Fails (entrySector fat cluster))
    (hfirst : cluster.toNat % 256 < 128) : (getentry B stack fat cluster entry).entry =
      (B.read (entrySector fat cluster)).2.load16 (2 * (2 * (cluster.toNat % 256))) := by
  rw [getentry_of_not_fails hsize hbytes hin h, Bytes.load16, Bytes.load16, bytes_fill, bytes_fill,
    if_pos (by omega), if_pos (by omega)]

lemma entry_eq_iff (h : ¬ B.Fails (entrySector fat cluster))
    (hfirst : cluster.toNat % 256 < 128) :
    (getentry B stack fat cluster entry).entry = diskEntry B fat cluster ↔
      Coincides B fat cluster := by
  rw [getentry_entry_of_lt hsize hbytes hin h hfirst, diskEntry_eq hsize hbytes hin, Bytes.load16,
    Bytes.little16, append_byte_inj]
  exact ⟨fun h => ⟨hfirst, h.1, h.2⟩, fun h => ⟨h.high, h.low⟩⟩

lemma looksUp_iff :
    LooksUp B fat cluster ↔ B.Fails (entrySector fat cluster) ∨ Coincides B fat cluster := by
  by_cases h : B.Fails (entrySector fat cluster)
  · exact iff_of_true (.inl h) (.inl h)
  · rw [LooksUp, or_iff_right h, or_iff_right h]
    constructor
    · intro hlook
      obtain ⟨-, hentry, hreads⟩ := hlook (fun _ => 0) 0
      rw [getentry_of_not_fails hsize hbytes hin h] at hreads
      have hlast := hreads (2 * (2 * (cluster.toNat % 256)) + 1) (by simp)
      exact (entry_eq_iff hsize hbytes hin h (by omega)).mp hentry
    · intro hcoincides stack entry
      have hfirst := hcoincides.first
      refine ⟨?_, (entry_eq_iff hsize hbytes hin h hfirst).mpr hcoincides, fun o ho => ?_⟩
      · rw [getentry_of_not_fails hsize hbytes hin h]
      · rw [getentry_of_not_fails hsize hbytes hin h] at ho
        simp only [List.mem_cons, List.not_mem_nil, or_false] at ho
        omega

end Lookups

section Chains

variable {B : Block} {fat : Volume} {start : Huint} {stack : Bytes}

lemma iterate_next_eq (hsize : fat.fatSize.toNat < 65536) (hbytes : fat.btSector = 512) (n : ℕ)
    (h : ∀ c ∈ List.iterate (diskNext B fat) start n,
      InTable fat c ∧ ¬ B.Fails (entrySector fat c) ∧ Coincides B fat c) :
    List.iterate (fun c => next B fat c stack) start n =
      List.iterate (diskNext B fat) start n := by
  induction n generalizing start with
  | zero => rfl
  | succ n ih =>
    obtain ⟨hin, hreads, hcoincides⟩ := h start List.mem_cons_self
    have hnext : next B fat start stack = diskNext B fat start := by
      rw [next, diskNext, (entry_eq_iff hsize hbytes hin hreads hcoincides.first).mpr hcoincides]
    rw [List.iterate, List.iterate, hnext, ih fun c hc => h c (List.mem_cons_of_mem _ hc)]

end Chains

/-- The lookup takes the offset in bytes for an index of elements and does not exchange the bytes,
so that it finds the entry only where another one happens to hold the same two bytes, exchanged. -/
theorem fat16_getentry_looks_up_iff (B : Block) (sector : Huint) (memory : Bytes) (b : Buffer)
    (slot : ℕ) (fat : Volume) (hmount : mount B sector memory b slot = .mounted fat)
    (hbytes : fat.btSector = 512) :
    (∀ cluster, InTable fat cluster →
      (LooksUp B fat cluster ↔ B.Fails (entrySector fat cluster) ∨ Coincides B fat cluster)) ∧
    ∀ stack start n, (∀ c ∈ List.iterate (diskNext B fat) start n,
        InTable fat c ∧ ¬ B.Fails (entrySector fat c) ∧ Coincides B fat c) →
      List.iterate (fun c => next B fat c stack) start n =
        List.iterate (diskNext B fat) start n := by
  have hsize := fatSize_lt hmount
  exact ⟨fun cluster hin => looksUp_iff hsize hbytes hin,
    fun stack start n h => iterate_next_eq hsize hbytes n h⟩

section Sample

-- the chain 2, 3, 4
def chainTable : Bytes
  | 0 => 0xF8
  | 1 | 2 | 3 => 0xFF
  | 4 => 3
  | 6 => 4
  | 8 | 9 => 0xFF
  | _ => 0

def chainDisk : Block where
  read sector :=
    (success, if sector = 0 then sampleRecord 32 else if sector =
      33 then chainTable else sampleBoot)

lemma mount_chainDisk : ∃ fat, mount chainDisk 0 (fun _ => 0) ⟨fun _ => 0, []⟩ 0 = .mounted fat ∧
    fat.btSector = 512 ∧ fat.fatSector = 33 ∧ fat.fatSize = 32 :=
  ⟨_, rfl, by decide, by decide, by decide⟩

theorem fat16_getentry_looks_up_free_cluster :
    ∃ fat, mount chainDisk 0 (fun _ => 0) ⟨fun _ => 0, []⟩ 0 = .mounted fat ∧
      LooksUp chainDisk fat 5 := by
  obtain ⟨fat, hmount, hbytes, hsector, hsize⟩ := mount_chainDisk
  have hin : InTable fat 5 := by
    rw [InTable, hsize]
    decide
  have hread : entrySector fat 5 = 33 := by
    rw [entrySector, hbytes, hsector]
    decide
  refine ⟨fat, hmount, ((fat16_getentry_looks_up_iff chainDisk 0 (fun _ => 0) ⟨fun _ => 0, []⟩ 0
    fat hmount hbytes).1 5 hin).mpr (.inr ?_)⟩
  constructor
  · decide
  all_goals
    rw [hread]
    decide

/-- The entry of cluster 2 names cluster 3, and the lookup finds the end of the chain; for cluster
128 it leaves its buffer. -/
theorem fat16_getentry_misses_cluster_2 :
    ∃ fat, mount chainDisk 0 (fun _ => 0) ⟨fun _ => 0, []⟩ 0 = .mounted fat ∧
      fat.btSector = 512 ∧ InTable fat 2 ∧ InTable fat 128 ∧
      diskEntry chainDisk fat 2 = 3 ∧
      (∀ stack entry, (getentry chainDisk stack fat 2 entry).entry = 0xFFFF) ∧
      (∀ stack entry, (getentry chainDisk stack fat 128 entry).reads = [512, 513]) ∧
      ¬ LooksUp chainDisk fat 2 ∧ ¬ LooksUp chainDisk fat 128 := by
  obtain ⟨fat, hmount, hbytes, hsector, hsize⟩ := mount_chainDisk
  have hlt := fatSize_lt hmount
  have hread : entrySector fat 2 = 33 := by
    rw [entrySector, hbytes, hsector]
    decide
  have hin (c : Huint) (hc : c.toNat < 200) : InTable fat c := by
    rw [InTable, hsize, show (32 : Huint).toNat = 32 from rfl]
    omega
  have hworks (s : Huint) : ¬ chainDisk.Fails s := Bool.false_ne_true
  have h2 := looksUp_iff (B := chainDisk) hlt hbytes (hin 2 (by decide))
  have h128 := looksUp_iff (B := chainDisk) hlt hbytes (hin 128 (by decide))
  refine ⟨fat, hmount, hbytes, hin 2 (by decide), hin 128 (by decide), ?_, fun stack entry => ?_,
    fun stack entry => ?_, ?_, ?_⟩
  · rw [diskEntry_eq hlt hbytes (hin 2 (by decide)), hread]
    decide
  · rw [getentry_entry_of_lt hlt hbytes (hin 2 (by decide)) (hworks _) (by decide), hread]
    decide
  · rw [getentry_of_not_fails hlt hbytes (hin 128 (by decide)) (hworks _)]
    rfl
  · rw [h2, or_iff_right (hworks _)]
    intro hcoincides
    have hhigh := hcoincides.high
    rw [hread] at hhigh
    exact absurd hhigh (by decide)
  · rw [h128, or_iff_right (hworks _)]
    intro hcoincides
    exact absurd hcoincides.first (by decide)

end Sample

end Hthreads.Fat16
