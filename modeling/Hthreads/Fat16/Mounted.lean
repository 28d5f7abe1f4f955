import Hthreads.Fat16.Layout

/-! What `fat16_mbr_read` and `fat16_create` leave of a disk: the memory they write, the fields they
convert and the layout they compute. -/

namespace Hthreads.Fat16

open Library Software

variable (B : Block) (sector : Huint) (memory : Bytes) (stack : Buffer) (slot : ℕ)

-- the record is read into memory that nothing has been written to yet
def record : Buffer := (mbrRead B sector ⟨memory, []⟩).2

def mount : Mounting :=
  create B stack ((record B sector memory).bytes.load32 (offset (partition slot)))
    ((record B sector memory).bytes.load32 (size (partition slot)))

def partitionStart : Huint := (B.read sector).2.little32 (offset (partition slot))

def bootOf (first : Huint) : Boot := .little (B.read first).2

/-- The result of a mount that had a master boot record. -/
structure LayoutSound : Prop where
  entries : ∀ k < 4, EntryConverted (B.read sector).2 (record B sector memory).bytes (partition k)
  executable : (record B sector memory).bytes.load16 executable =
    (B.read sector).2.little16 executable
  boot : ∀ first, ¬ B.Fails first → Boot.load (bootsRead B first stack).2.bytes = bootOf B first
  failed : ∀ res, mount B sector memory stack slot = .failed res → res.slt 0 = true
  division : mount B sector memory stack slot ≠ .divisionByZero
  consecutive : ∀ fat, mount B sector memory stack slot = .mounted fat →
    fat.firstSector = partitionStart B sector slot ∧
      Consecutive (bootOf B fat.firstSector) fat

def MountsConsistently : Prop :=
  (∀ o ∈ (record B sector memory).written, o < 512) ∧
    ((mbrRead B sector ⟨memory, []⟩).1.slt 0 = true ∨ LayoutSound B sector memory stack slot)

/-- The fourth entry reads the same in both byte orders, and the boot sector, if it can be read, has
a sector size and areas that fit. -/
def LayoutFits : Prop :=
  EntrySymmetric (B.read sector).2 (partition 3) ∧
    (B.Fails (partitionStart B sector slot) ∨
      (bootOf B (partitionStart B sector slot)).bytesPerSector ≠ 0 ∧
        (bootOf B (partitionStart B sector slot)).Fits (partitionStart B sector slot))

variable {B sector memory stack slot}

lemma record_of_not_fails (h : ¬ B.Fails sector) :
    record B sector memory = mbrReadconvert (Buffer.fill (B.read sector).2 ⟨memory, []⟩) := by
  rw [record, mbrRead, if_neg h]

lemma mem_written_record (h : ¬ B.Fails sector) : 512 ∈ (record B sector memory).written := by
  rw [record_of_not_fails h]
  simp [mbrReadconvert, partReadconvert, Buffer.convert16, Buffer.convert32, partition, mbrBootSize,
    startSector]

lemma bootsRead_of_not_fails {first : Huint} (h : ¬ B.Fails first) :
    Boot.load (bootsRead B first stack).2.bytes = bootOf B first := by
  rw [bootsRead, if_neg h, bootOf]
  exact boot_load_readconvert

lemma create_of_fails {first partSize : Huint} (h : B.Fails first) :
    create B stack first partSize = .failed (B.read first).1 := by
  have hres : (B.read first).1.slt 0 = true := h
  rw [create, bootsRead, if_pos h]
  dsimp only
  rw [if_pos hres]

lemma create_of_not_fails {first partSize : Huint} (h : ¬ B.Fails first) :
    create B stack first partSize =
      if (bootOf B first).bytesPerSector = 0 then .divisionByZero
      else .mounted (layout first partSize (bootOf B first)) := by
  have hload : Boot.load (bootsRead B first stack).2.bytes = bootOf B first :=
    bootsRead_of_not_fails h
  have hres : (success : Hint).slt 0 = false := rfl
  rw [bootsRead, if_neg h] at hload
  rw [create, bootsRead, if_neg h]
  dsimp only
  rw [hres, if_neg Bool.false_ne_true, hload]

lemma entries_iff (memory : Bytes) (h : ¬ B.Fails sector) :
    (∀ k < 4, EntryConverted (B.read sector).2 (record B sector memory).bytes (partition k)) ↔
      EntrySymmetric (B.read sector).2 (partition 3) := by
  rw [record_of_not_fails h]
  constructor
  · intro hentries
    exact entryConverted_last_iff.mp (hentries 3 (by decide))
  · intro hsymmetric k hk
    obtain hk | rfl := Nat.lt_succ_iff_lt_or_eq.mp hk
    · exact entryConverted_of_lt hk
    · exact entryConverted_last_iff.mpr hsymmetric

lemma create_sound_iff (stack : Buffer) (first partSize : Huint) :
    ((∀ res, create B stack first partSize = .failed res → res.slt 0 = true) ∧
      create B stack first partSize ≠ .divisionByZero ∧
      ∀ fat, create B stack first partSize = .mounted fat →
        fat.firstSector = first ∧ Consecutive (bootOf B fat.firstSector) fat) ↔
    B.Fails first ∨ (bootOf B first).bytesPerSector ≠ 0 ∧ (bootOf B first).Fits first := by
  by_cases hfails : B.Fails first
  · rw [create_of_fails hfails]
    refine iff_of_true ⟨fun res hres => ?_, by simp, by simp⟩ (.inl hfails)
    cases hres
    exact hfails
  · rw [create_of_not_fails hfails]
    by_cases hbytes : (bootOf B first).bytesPerSector = 0
    · rw [if_pos hbytes]
      exact iff_of_false (fun h => h.2.1 rfl) (by simp [hfails, hbytes])
    · rw [if_neg hbytes, ← layout_consecutive_iff (bootOf B first) first partSize hbytes]
      constructor
      · intro h
        exact .inr ⟨hbytes, (h.2.2 _ rfl).2⟩
      · rintro (h | ⟨-, h⟩)
        · exact (hfails h).elim
        · refine ⟨by simp, by simp, fun fat hfat => ?_⟩
          cases hfat
          exact ⟨rfl, h⟩

lemma layoutSound_iff (h : ¬ B.Fails sector) (hslot : slot < 4) :
    LayoutSound B sector memory stack slot ↔ LayoutFits B sector slot := by
  have hexecutable : (record B sector memory).bytes.load16 executable =
      (B.read sector).2.little16 executable := by
    rw [record_of_not_fails h]
    exact executable_readconvert
  rw [LayoutFits, ← entries_iff memory h]
  constructor
  · rintro ⟨hentries, -, -, hfailed, hdivision, hconsecutive⟩
    refine ⟨hentries, ?_⟩
    have hstart := (hentries slot hslot).offset
    rw [mount, hstart] at hfailed hdivision hconsecutive
    exact (create_sound_iff _ _ _).mp ⟨hfailed, hdivision, hconsecutive⟩
  · rintro ⟨hentries, hfits⟩
    have hstart := (hentries slot hslot).offset
    have hmount := (create_sound_iff stack (partitionStart B sector slot)
      ((record B sector memory).bytes.load32 (size (partition slot)))).mpr hfits
    rw [partitionStart, ← hstart] at hmount
    refine ⟨hentries, hexecutable, fun _ => bootsRead_of_not_fails, hmount.1, hmount.2.1, ?_⟩
    rw [partitionStart, ← hstart]
    exact hmount.2.2

/-- The conversion of the master boot record always writes behind it. Apart from that, a mount is
right exactly when the fourth entry needs no conversion and the boot sector fits. -/
theorem fat16_mount_consistent_iff (hslot : slot < 4) :
    (MountsConsistently B sector memory stack slot ↔ B.Fails sector) ∧
      (¬ B.Fails sector →
        (LayoutSound B sector memory stack slot ↔ LayoutFits B sector slot)) := by
  refine ⟨⟨fun hmounts => ?_, fun hfails => ?_⟩, fun h => layoutSound_iff h hslot⟩
  · by_contra hfails
    exact absurd (hmounts.1 512 (mem_written_record hfails)) (lt_irrefl 512)
  · rw [MountsConsistently, record, mbrRead, if_pos hfails]
    exact ⟨by simp, .inl hfails⟩

section Sample

-- a disk with one partition of 40000 sectors, two tables of 32 sectors and 512 root entries
def sampleRecord (start : Byte) : Bytes
  | 450 => 0x06
  | 454 => start
  | 458 => 0x40
  | 459 => 0x9C
  | 510 => 0x55
  | 511 => 0xAA
  | _ => 0

def sampleBoot : Bytes
  | 12 => 0x02
  | 13 => 4
  | 14 => 1
  | 16 => 2
  | 18 => 0x02
  | 19 => 0x40
  | 20 => 0x9C
  | 22 => 32
  | 510 => 0x55
  | 511 => 0xAA
  | _ => 0

def sampleDisk (start : Byte) : Block where
  read sector := (success, if sector = 0 then sampleRecord start else sampleBoot)

-- a partition that starts at half the size of its tables
theorem fat16_mount_consistent_at_32 :
    LayoutSound (sampleDisk 32) 0 (fun _ => 0) ⟨fun _ => 0, []⟩ 0 := by
  have hfails : ¬ (sampleDisk 32).Fails 0 := by decide
  have hslot : 0 < 4 := by decide
  refine ((fat16_mount_consistent_iff hslot).2 hfails).mpr ⟨?_, .inr ⟨by decide, ?_⟩⟩
  · constructor <;> decide
  · constructor <;> decide

/-- The usual start at sector 63: the data area ends 62 sectors before the volume does, and the
conversion has written behind the master boot record. -/
theorem fat16_mount_inconsistent_at_63 :
    (∃ fat, mount (sampleDisk 63) 0 (fun _ => 0) ⟨fun _ => 0, []⟩ 0 = .mounted fat ∧
      fat.firstSector.toNat + fat.sectors.toNat = 40063 ∧
      fat.dataSector.toNat + fat.dataSize.toNat = 40001) ∧
    ¬ MountsConsistently (sampleDisk 63) 0 (fun _ => 0) ⟨fun _ => 0, []⟩ 0 := by
  refine ⟨⟨_, rfl, by decide, by decide⟩, fun h => ?_⟩
  exact absurd (h.1 512 (mem_written_record (by decide))) (lt_irrefl 512)

end Sample

end Hthreads.Fat16
