import Hthreads.Fat16.Mount

/-! When the layout of a mounted volume is the one that its boot sector describes. -/

namespace Hthreads.Fat16

open Library Software

/-- The fields as they stand on the disk, low byte first. -/
def Boot.little (m : Bytes) : Boot where
  bytesPerSector := m.little16 11
  sectorsPerCluster := m 13
  reservedSectors := m.little16 14
  fats := m 16
  maxRoot := m.little16 17
  ssectors := m.little16 19
  sectorsPerFat := m.little16 22
  sectorsPerTrack := m.little16 24
  heads := m.little16 26
  hidden := m.little32 28
  sectors := m.little32 32
  serial := m.little32 39
  marker := m.little16 510

section Conversion

variable {b : Buffer} {m : Bytes} {i : ℕ}

@[simp] lemma bytes_convert16 (o : ℕ) : (b.convert16 o).bytes = b.bytes.convert16 o := rfl
@[simp] lemma bytes_convert32 (o : ℕ) : (b.convert32 o).bytes = b.bytes.convert32 o := rfl

@[simp] lemma bytes_fill : (b.fill m).bytes i = if i < 512 then m i else b.bytes i := rfl

lemma boot_load_readconvert : Boot.load (bootsReadconvert (b.fill m)).bytes = Boot.little m := by
  simp [Boot.load, Boot.little, bootsReadconvert, Bytes.load16, Bytes.load32, Bytes.little16,
    Bytes.little32]

structure EntryConverted (disk mbr : Bytes) (part : ℕ) : Prop where
  startSector : mbr.load16 (startSector part) = disk.little16 (startSector part)
  endSector : mbr.load16 (endSector part) = disk.little16 (endSector part)
  offset : mbr.load32 (offset part) = disk.little32 (offset part)
  size : mbr.load32 (size part) = disk.little32 (size part)

-- an entry that reads the same in both byte orders, such as an empty one
structure EntrySymmetric (disk : Bytes) (part : ℕ) : Prop where
  startSector : disk (part + 2) = disk (part + 3)
  endSector : disk (part + 6) = disk (part + 7)
  offset : disk (part + 8) = disk (part + 11) ∧ disk (part + 9) = disk (part + 10)
  size : disk (part + 12) = disk (part + 15) ∧ disk (part + 13) = disk (part + 14)

lemma entryConverted_of_lt {k : ℕ} (hk : k < 3) :
    EntryConverted m (mbrReadconvert (b.fill m)).bytes (partition k) := by
  interval_cases k <;> constructor <;>
    simp [mbrReadconvert, partReadconvert, partition, mbrBootSize, startSector, endSector, offset,
      size, executable, Bytes.load16, Bytes.load32, Bytes.little16, Bytes.little32]

lemma executable_readconvert :
    (mbrReadconvert (b.fill m)).bytes.load16 executable = m.little16 executable := by
  simp [mbrReadconvert, partReadconvert, partition, mbrBootSize, startSector, endSector, offset,
    size, executable, Bytes.load16, Bytes.little16]

lemma bytes_last_readconvert (hi : partition 3 ≤ i) (hi' : i < executable) :
    (mbrReadconvert (b.fill m)).bytes i = m i := by
  have hlow : 494 ≤ i := hi
  have hhigh : i < 510 := hi'
  interval_cases i <;>
    simp [mbrReadconvert, partReadconvert, partition, mbrBootSize, startSector, endSector, offset,
      size, executable]

lemma load16_last {o : ℕ} (ho : partition 3 ≤ o) (ho' : o + 1 < executable) :
    (mbrReadconvert (b.fill m)).bytes.load16 o = m.load16 o := by
  rw [Bytes.load16, Bytes.load16, bytes_last_readconvert ho (by omega),
    bytes_last_readconvert (by omega) ho']

lemma load32_last {o : ℕ} (ho : partition 3 ≤ o) (ho' : o + 3 < executable) :
    (mbrReadconvert (b.fill m)).bytes.load32 o = m.load32 o := by
  rw [Bytes.load32, Bytes.load32, bytes_last_readconvert ho (by omega),
    bytes_last_readconvert (by omega) (by omega), bytes_last_readconvert (by omega) (by omega),
    bytes_last_readconvert (by omega) ho']

lemma entryConverted_last_iff :
    EntryConverted m (mbrReadconvert (b.fill m)).bytes (partition 3) ↔
      EntrySymmetric m (partition 3) := by
  have hstart : (mbrReadconvert (b.fill m)).bytes.load16 (startSector (partition 3)) =
      m.load16 (startSector (partition 3)) := load16_last (by decide) (by decide)
  have hend : (mbrReadconvert (b.fill m)).bytes.load16 (endSector (partition 3)) =
      m.load16 (endSector (partition 3)) := load16_last (by decide) (by decide)
  have hoffset : (mbrReadconvert (b.fill m)).bytes.load32 (offset (partition 3)) =
      m.load32 (offset (partition 3)) := load32_last (by decide) (by decide)
  have hsize : (mbrReadconvert (b.fill m)).bytes.load32 (size (partition 3)) =
      m.load32 (size (partition 3)) := load32_last (by decide) (by decide)
  constructor
  · rintro ⟨h₁, h₂, h₃, h₄⟩
    exact ⟨Bytes.load16_eq_little16_iff.mp (hstart.symm.trans h₁),
      Bytes.load16_eq_little16_iff.mp (hend.symm.trans h₂),
      Bytes.load32_eq_little32_iff.mp (hoffset.symm.trans h₃),
      Bytes.load32_eq_little32_iff.mp (hsize.symm.trans h₄)⟩
  · rintro ⟨h₁, h₂, h₃, h₄⟩
    exact ⟨hstart.trans (Bytes.load16_eq_little16_iff.mpr h₁),
      hend.trans (Bytes.load16_eq_little16_iff.mpr h₂),
      hoffset.trans (Bytes.load32_eq_little32_iff.mpr h₃),
      hsize.trans (Bytes.load32_eq_little32_iff.mpr h₄)⟩

end Conversion

section Arithmetic

variable (boot : Boot)

def Boot.reserved : ℕ := boot.reservedSectors.toNat
def Boot.fatArea : ℕ := boot.fats.toNat * boot.sectorsPerFat.toNat

def Boot.rootArea : ℕ :=
  (boot.maxRoot.toNat * 32 + (boot.bytesPerSector.toNat - 1)) / boot.bytesPerSector.toNat

def Boot.total : ℕ := if boot.ssectors ≠ 0 then boot.ssectors.toNat else boot.sectors.toNat

/-- The four areas of a volume follow each other and are the whole of it. -/
structure Consecutive (fat : Volume) : Prop where
  sectors : fat.sectors.toNat = boot.total
  fatSector : fat.fatSector.toNat = fat.firstSector.toNat + boot.reserved
  rootSector : fat.rootSector.toNat = fat.fatSector.toNat + boot.fatArea
  rootSize : fat.rootSize.toNat = boot.rootArea
  dataSector : fat.dataSector.toNat =
    fat.firstSector.toNat + boot.reserved + boot.fatArea + fat.rootSize.toNat
  whole : fat.dataSector.toNat + fat.dataSize.toNat = fat.firstSector.toNat + fat.sectors.toNat

/-- The areas fit on the disk and in the volume, and the file allocation tables take as many
sectors as the computation of `data_size` subtracts for the start of the partition. -/
structure Boot.Fits (first : Huint) : Prop where
  disk : first.toNat + boot.reserved + boot.fatArea + boot.rootArea < 2 ^ 32
  volume : boot.reserved + boot.fatArea + boot.rootArea ≤ boot.total
  fats : boot.fatArea = 2 * first.toNat % 2 ^ 32

variable (first partSize : Huint)

lemma layout_sectors : (layout first partSize boot).sectors.toNat = boot.total := by
  rw [layout, Boot.total]
  split_ifs
  · exact BitVec.toNat_setWidth_of_le (by decide)
  · rfl

lemma toNat_setWidth₁₆ (x : BitVec 16) : (x.setWidth 32 : Huint).toNat = x.toNat :=
  BitVec.toNat_setWidth_of_le (by decide)

lemma toNat_setWidth₈ (x : Byte) : (x.setWidth 32 : Huint).toNat = x.toNat :=
  BitVec.toNat_setWidth_of_le (by decide)

lemma layout_rootSize (h : boot.bytesPerSector ≠ 0) :
    (layout first partSize boot).rootSize.toNat = boot.rootArea := by
  have hbytes : 0 < boot.bytesPerSector.toNat := Nat.pos_of_ne_zero fun h0 =>
    h (BitVec.eq_of_toNat_eq h0)
  have hlt := boot.bytesPerSector.isLt
  have hroot := boot.maxRoot.isLt
  have hsum :
    (boot.maxRoot.setWidth 32 * 32 + (boot.bytesPerSector.setWidth 32 - 1) : Huint).toNat =
      boot.maxRoot.toNat * 32 + (boot.bytesPerSector.toNat - 1) := by
    have h32 : (32 : Huint).toNat = 32 := rfl
    have h1 : (1 : Huint).toNat = 1 := rfl
    rw [BitVec.toNat_add, BitVec.toNat_mul, BitVec.toNat_sub, toNat_setWidth₁₆, toNat_setWidth₁₆,
      h32, h1]
    omega
  rw [layout, Boot.rootArea]
  dsimp only
  rw [BitVec.toNat_udiv, hsum, toNat_setWidth₁₆]

lemma Boot.fatArea_lt : boot.fatArea < 2 ^ 24 := by
  have hfats := boot.fats.isLt
  have hsize := boot.sectorsPerFat.isLt
  have hproduct : boot.fats.toNat * boot.sectorsPerFat.toNat < 2 ^ 8 * 2 ^ 16 :=
    Nat.mul_lt_mul'' hfats hsize
  exact hproduct

lemma layout_fatSector : (layout first partSize boot).fatSector.toNat =
    (first.toNat + boot.reserved) % 2 ^ 32 := by
  rw [layout, Boot.reserved, ← toNat_setWidth₁₆]
  exact BitVec.toNat_add _ _

lemma layout_rootSector : (layout first partSize boot).rootSector.toNat =
    (first.toNat + boot.reserved + boot.fatArea) % 2 ^ 32 := by
  have hproduct : (boot.fats.setWidth 32 * boot.sectorsPerFat.setWidth 32 : Huint).toNat =
      boot.fatArea := by
    have hlt : boot.fatArea < 2 ^ 24 := boot.fatArea_lt
    rw [BitVec.toNat_mul, toNat_setWidth₈, toNat_setWidth₁₆, ← Boot.fatArea]
    exact Nat.mod_eq_of_lt (by omega)
  have hroot : (layout first partSize boot).rootSector = (layout first partSize boot).fatSector +
      boot.fats.setWidth 32 * boot.sectorsPerFat.setWidth 32 := rfl
  rw [hroot, BitVec.toNat_add, hproduct, layout_fatSector boot first partSize]
  omega

lemma layout_dataSector (h : boot.bytesPerSector ≠ 0) :
    (layout first partSize boot).dataSector.toNat =
      (first.toNat + boot.reserved + boot.fatArea + boot.rootArea) % 2 ^ 32 := by
  have hdata : (layout first partSize boot).dataSector =
      (layout first partSize boot).rootSector + (layout first partSize boot).rootSize := rfl
  rw [hdata, BitVec.toNat_add, layout_rootSector, layout_rootSize boot first partSize h]
  omega

lemma layout_dataSize (h : boot.bytesPerSector ≠ 0) :
    ((layout first partSize boot).dataSize.toNat + 2 * first.toNat + boot.reserved +
      boot.rootArea) % 2 ^ 32 = boot.total := by
  have htotal := layout_sectors boot first partSize
  have hlt := (layout first partSize boot).sectors.isLt
  have hsum : (layout first partSize boot).dataSize + first +
      (layout first partSize boot).rootSize + (layout first partSize boot).fatSector =
        (layout first partSize boot).sectors := by
    have hdata : (layout first partSize boot).dataSize = (layout first partSize boot).sectors -
      (layout first partSize boot).fatSector - (layout first partSize boot).rootSize - first := rfl
    rw [hdata, BitVec.sub_add_cancel, BitVec.sub_add_cancel, BitVec.sub_add_cancel]
  have hnat := congrArg BitVec.toNat hsum
  rw [BitVec.toNat_add, BitVec.toNat_add, BitVec.toNat_add, layout_rootSize boot first partSize h,
    layout_fatSector,
    htotal] at hnat
  omega

lemma layout_consecutive_iff (h : boot.bytesPerSector ≠ 0) :
    Consecutive boot (layout first partSize boot) ↔ boot.Fits first := by
  have hfirst : (layout first partSize boot).firstSector.toNat = first.toNat := rfl
  have hsectors := layout_sectors boot first partSize
  have hsectorsLt := (layout first partSize boot).sectors.isLt
  have hfat := layout_fatSector boot first partSize
  have hroot := layout_rootSector boot first partSize
  have hsize := layout_rootSize boot first partSize h
  have hdata := layout_dataSector boot first partSize h
  have hdataSize := layout_dataSize boot first partSize h
  have hdataLt := (layout first partSize boot).dataSize.isLt
  have hfatArea : boot.fatArea < 2 ^ 24 := boot.fatArea_lt
  have hfirstLt := first.isLt
  constructor
  · rintro ⟨-, -, -, -, h₁, h₂⟩
    constructor <;> omega
  · rintro ⟨h₁, h₂, h₃⟩
    constructor <;> omega

end Arithmetic

end Hthreads.Fat16
