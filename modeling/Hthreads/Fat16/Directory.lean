import Hthreads.Fat16.Mount
import Hthreads.Software.Attributes

/-! Going through the entries of a directory (`dirs.c`, `direntry.c`). -/

namespace Hthreads.Fat16

open Library Software

def direntryLongname : Byte := 0x0F
def direntrySize : ℕ := 32

-- one of the sixteen entries of a block
def direntry (m : Bytes) (i : ℕ) : Bytes := fun o => m (direntrySize * i + o)

namespace Direntry

variable (e : Bytes)

def attrs : Byte := e 11
def clusterHi : BitVec 16 := e.load16 20
def clusterLo : BitVec 16 := e.load16 26
def size : Huint := e.load32 28

inductive Free
  | valid
  | free
  | allFree
  deriving DecidableEq

def free : Free :=
  if e 0 = 0xE5 then .free
  else if e 0 = 0x00 then .allFree
  else .valid

def longname : Bool := attrs e &&& direntryLongname = direntryLongname

def blank (c : Byte) : Bool := c = 0x20 || c = 0

def tolower (c : Byte) : Byte := if 0x41 ≤ c ∧ c ≤ 0x5A then c + 0x20 else c

def lowered (lower : Bool) (c : Byte) : Byte := if lower then tolower c else c

-- `if( n < num ) buffer[n++] = c`, where `n` bytes have been written already
def put (num : ℕ) (c : Byte) (out : List Byte) : List Byte :=
  if out.length < num then out ++ [c] else out

def copyChar (num : ℕ) (lower : Bool) (i : ℕ) (out : List Byte) : List Byte :=
  let out := if i = 8 then put num 0x2E out else out
  put num (lowered lower (e i)) out

def copyName (num : ℕ) (lower : Bool) (i : ℕ) (out : List Byte) : ℕ → List Byte
  | 0 => out
  | left + 1 =>
    if 11 ≤ i then out
    else if blank (e i) then
      if i < 8 then
        if blank (e 8) then out
        else
          let lower := e 12 &&& 0x10 = 0x10
          copyName num lower 9 (copyChar e num lower 8 out) left
      else out
    else copyName num lower (i + 1) (copyChar e num lower i out) left

/-- The bytes that are written into a buffer of `num` bytes. -/
def shortName (num : Huint) : List Byte :=
  if num = 0 then []
  else copyName e (num.toNat - 1) (e 12 &&& 0x08 = 0x08) 0 [] 11 ++ [0]

end Direntry

structure Dir where
  block : Huint
  size : Huint

def nameMax : ℕ := 260

/-- The record of the caller: what it points to as its parent, and its memory from the name on. -/
structure DirEntry where
  parent : Dir
  name : Bytes

namespace DirEntry

-- the fields behind the `nameMax + 1` bytes of the name start at the next multiple of four
def entrynoAt : ℕ := 264
def attrsAt : ℕ := 268
def sizeAt : ℕ := 272
def clusterAt : ℕ := 276

variable (entry : DirEntry)

def entryno : Huint := entry.name.load32 entrynoAt
def attrs : Huint := entry.name.load32 attrsAt
def size : Huint := entry.name.load32 sizeAt
def cluster : Huint := entry.name.load32 clusterAt

end DirEntry

/-- The answer of a call: its result, the entry it was given to fill, and the blocks it read. -/
structure Answer where
  res : Hint
  entry : DirEntry
  reads : List Huint

def dirRoot (fat : Volume) : Dir := ⟨fat.rootSector, fat.rootSize⟩

def dirFindentry (m : Bytes) (i : ℕ) : ℕ → Hint
  | 0 => -1
  | left + 1 =>
    match Direntry.free (direntry m i) with
    | .valid =>
      if Direntry.longname (direntry m i) then dirFindentry m (i + 1) left else BitVec.ofNat 32 i
    | .free => dirFindentry m (i + 1) left
    | .allFree => -2

def Buffer.copy (pos : ℕ) (chars : List Byte) (b : Buffer) : Buffer :=
  ⟨fun o => if pos ≤ o then (chars[o - pos]?).getD (b.bytes o) else b.bytes o,
    List.range' pos chars.length ++ b.written⟩

/-- The result of a call, the name it leaves, the elements of `entries` it looked at and the blocks
it read. -/
structure NameRead where
  res : Hint
  name : Buffer
  looked : List ℕ
  reads : List Huint

section Names

variable (B : Block) (past : Bytes) (sblk : Huint)

-- the low bytes of the thirteen characters of a fragment
def longnameChars (e : Bytes) : List Byte :=
  [1, 3, 5, 7, 9, 14, 16, 18, 20, 22, 24, 28, 30].map e

/-- The loop of `fat16_dir_readname` on the memory at `name`, the next fragment going to `pos`. The
order byte is looked up at `nent` and not at its place in the block, so it can lie past the block.
-/
def readname (name : Buffer) (pos : ℕ) : ℕ → NameRead
  | 0 => ⟨success, name, [], []⟩
  | nent + 1 =>
    let blk := sblk + BitVec.ofNat 32 ((nent + 1) / 16)
    let off := (nent + 1) % 16
    let m := (B.read blk).2
    if B.Fails blk then ⟨(B.read blk).1, name, [], [blk]⟩
    else if direntry m off 11 &&& direntryLongname ≠ direntryLongname then
      ⟨success, name, [off], [blk]⟩
    else
      let name := name.copy pos (longnameChars (direntry m off))
      let order :=
        if nent + 1 < 16 then direntry m (nent + 1) 0 else past (direntrySize * (nent + 1))
      if order &&& 0x40 = 0x40 then ⟨success, name, [off, nent + 1], [blk]⟩
      else
        let r := readname name (pos + 13) nent
        { r with looked := off :: (nent + 1) :: r.looked, reads := blk :: r.reads }

def dirReadnameAt (entryno : Huint) (name : Bytes) : NameRead :=
  readname B past sblk ⟨name, []⟩ 0 (entryno - 1).toInt.toNat

end Names

section Calls

variable (B : Block) (past : Bytes)

def fillEntry (sblk : Huint) (e : Bytes) (entryno : Huint) (entry : DirEntry) :
    DirEntry × List Huint :=
  let m := entry.name.store32 DirEntry.entrynoAt entryno
  let m := m.store32 DirEntry.attrsAt ((Direntry.attrs e).setWidth 32)
  let m := m.store32 DirEntry.sizeAt (fromLittlel (Direntry.size e))
  let m := m.store32 DirEntry.clusterAt
    ((fromLittles (Direntry.clusterHi e)).setWidth 32 <<< 16 |||
      (fromLittles (Direntry.clusterLo e)).setWidth 32)
  let m := (Buffer.copy 0 (Direntry.shortName e (BitVec.ofNat 32 nameMax)) ⟨m, []⟩).bytes
  let r := dirReadnameAt B past sblk (m.load32 DirEntry.entrynoAt) m
  ({ entry with name := r.name.bytes }, r.reads)

/-- The loop over the blocks; `none` when it has not ended after `fuel` of them. -/
def dirScan (sblk : Huint) (entry : DirEntry) (blk : Huint) (off : ℕ) (ent : Huint) :
    ℕ → Option Answer
  | 0 => none
  | fuel + 1 =>
    if B.Fails blk then some ⟨(B.read blk).1, entry, [blk]⟩
    else
      let m := (B.read blk).2
      let res := dirFindentry m off (16 - off)
      if 0 ≤ res.toInt then
        let e := direntry m res.toNat
        let (entry, reads) :=
          fillEntry B past sblk e (ent + res - BitVec.ofNat 32 off) entry
        some ⟨success, entry, blk :: reads⟩
      else if res = -2 then some ⟨einval, entry, [blk]⟩
      else
        (dirScan sblk entry (blk + 1) 0 (ent + 16 - BitVec.ofNat 32 off) fuel).map fun a =>
          { a with reads := blk :: a.reads }

def dirNextentry (fuel : ℕ) (sblk sent : Huint) (entry : DirEntry) : Option Answer :=
  dirScan B past sblk entry (sblk + sent / 16) (sent % 16).toNat sent fuel

-- both callers pass a negative result on and turn every other one into SUCCESS
def report (a : Answer) : Answer := { a with res := if a.res.slt 0 then a.res else success }

def dirFirst (fuel : ℕ) (dir : Dir) (entry : DirEntry) : Option Answer :=
  (dirNextentry B past fuel dir.block 0 { entry with parent := dir }).map report

def dirNext (fuel : ℕ) (cur next : DirEntry) : Option Answer :=
  (dirNextentry B past fuel cur.parent.block (cur.entryno + 1)
    { next with parent := cur.parent }).map report

/-- The answers to `fat16_dir_first` and to the calls of `fat16_dir_next` after it, all on the same
entry. -/
def dirCalls (fuel : ℕ) (dir : Dir) (entry : DirEntry) : ℕ → Option Answer
  | 0 => dirFirst B past fuel dir entry
  | k + 1 => (dirCalls fuel dir entry k).bind fun a => dirNext B past fuel a.entry a.entry

end Calls

end Hthreads.Fat16
