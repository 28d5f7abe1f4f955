import Hthreads.Library.ByteOrder
import Hthreads.Software.SchedParam

/-! Mounting a FAT16 volume (`mbr.c`, `part.c`, `boots.c`, `fat16.c`): the master boot record, the
boot sector of a partition, and the layout that `fat16_create` computes from them. -/

namespace Hthreads.Fat16

open Library Software

/-- A device that answers a read of one sector with a result and, unless that is negative, with the
bytes of the sector. -/
structure Block where
  read (sector : Huint) : Hint × Bytes

def Block.Fails (B : Block) (sector : Huint) : Prop := (B.read sector).1.slt 0 = true

instance (B : Block) (sector : Huint) : Decidable (B.Fails sector) :=
  inferInstanceAs (Decidable (_ = true))

/-- The memory at a structure of the program and behind it, and the offsets that were written. -/
structure Buffer where
  bytes : Bytes
  written : List ℕ

namespace Buffer

def convert16 (o : ℕ) (b : Buffer) : Buffer :=
  ⟨b.bytes.convert16 o, [o, o + 1] ++ b.written⟩

def convert32 (o : ℕ) (b : Buffer) : Buffer :=
  ⟨b.bytes.convert32 o, [o, o + 1, o + 2, o + 3] ++ b.written⟩

def fill (sector : Bytes) (b : Buffer) : Buffer :=
  ⟨fun o => if o < 512 then sector o else b.bytes o, List.range 512 ++ b.written⟩

end Buffer

def mbrBootSize : ℕ := 446

-- the entry of a partition takes 16 bytes
def partition (k : ℕ) : ℕ := mbrBootSize + 16 * k
def startSector (part : ℕ) : ℕ := part + 2
def endSector (part : ℕ) : ℕ := part + 6
def offset (part : ℕ) : ℕ := part + 8
def size (part : ℕ) : ℕ := part + 12
def executable : ℕ := 510

def partReadconvert (part : ℕ) (b : Buffer) : Buffer :=
  (((b.convert16 (startSector part)).convert16 (endSector part)).convert32
    (offset part)).convert32 (size part)

-- the last of the four entries is the one with index 4, as in the source
def mbrReadconvert (b : Buffer) : Buffer :=
  let b := partReadconvert (partition 0) b
  let b := partReadconvert (partition 1) b
  let b := partReadconvert (partition 2) b
  let b := partReadconvert (partition 4) b
  b.convert16 executable

def mbrRead (B : Block) (sector : Huint) (mbr : Buffer) : Hint × Buffer :=
  if B.Fails sector then ((B.read sector).1, mbr)
  else (success, mbrReadconvert (mbr.fill (B.read sector).2))

structure Boot where
  bytesPerSector : BitVec 16
  sectorsPerCluster : Byte
  reservedSectors : BitVec 16
  fats : Byte
  maxRoot : BitVec 16
  ssectors : BitVec 16
  sectorsPerFat : BitVec 16
  sectorsPerTrack : BitVec 16
  heads : BitVec 16
  hidden : Huint
  sectors : Huint
  serial : Huint
  marker : BitVec 16
  deriving DecidableEq

/-- The fields of the structure at the start of the memory, as the processor loads them. -/
def Boot.load (m : Bytes) : Boot where
  bytesPerSector := m.load16 11
  sectorsPerCluster := m 13
  reservedSectors := m.load16 14
  fats := m 16
  maxRoot := m.load16 17
  ssectors := m.load16 19
  sectorsPerFat := m.load16 22
  sectorsPerTrack := m.load16 24
  heads := m.load16 26
  hidden := m.load32 28
  sectors := m.load32 32
  serial := m.load32 39
  marker := m.load16 510

def bootsReadconvert (b : Buffer) : Buffer :=
  let b := b.convert16 11
  let b := b.convert16 14
  let b := b.convert16 17
  let b := b.convert16 19
  let b := b.convert16 22
  let b := b.convert16 24
  let b := b.convert16 26
  let b := b.convert32 28
  let b := b.convert32 32
  let b := b.convert32 39
  b.convert16 510

def bootsRead (B : Block) (sector : Huint) (boot : Buffer) : Hint × Buffer :=
  if B.Fails sector then ((B.read sector).1, boot)
  else (success, bootsReadconvert (boot.fill (B.read sector).2))

structure Volume where
  sectors : Huint
  firstSector : Huint
  lastSector : Huint
  bootSector : Huint
  fatSize : Huint
  fatSector : Huint
  rootSector : Huint
  rootSize : Huint
  dataSector : Huint
  dataSize : Huint
  clSectors : Huint
  btSector : Huint
  deriving DecidableEq

inductive Mounting
  | failed (res : Hint)
  | divisionByZero
  | mounted (fat : Volume)

/-- The arithmetic of `fat16_create`, with a division that is only reached when it is defined. -/
def layout (first partSize : Huint) (boot : Boot) : Volume :=
  let sectors := if boot.ssectors ≠ 0 then boot.ssectors.setWidth 32 else boot.sectors
  let btSector : Huint := boot.bytesPerSector.setWidth 32
  let fatSector := first + boot.reservedSectors.setWidth 32
  let rootSector := fatSector + boot.fats.setWidth 32 * boot.sectorsPerFat.setWidth 32
  let rootSize := (boot.maxRoot.setWidth 32 * 32 + (btSector - 1)) / btSector
  { sectors
    firstSector := first
    lastSector := first + partSize
    bootSector := first
    fatSize := boot.sectorsPerFat.setWidth 32
    fatSector
    rootSector
    rootSize
    dataSector := rootSector + rootSize
    dataSize := sectors - fatSector - rootSize - first
    clSectors := boot.sectorsPerCluster.setWidth 32
    btSector }

def create (B : Block) (stack : Buffer) (first partSize : Huint) : Mounting :=
  let (res, b) := bootsRead B first stack
  if res.slt 0 then .failed res
  else
    let boot := Boot.load b.bytes
    if boot.bytesPerSector = 0 then .divisionByZero else .mounted (layout first partSize boot)

end Hthreads.Fat16
