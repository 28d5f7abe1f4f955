import Hthreads.Library.ByteOrder
import Hthreads.Software.SchedParam

/-! The cache of the SystemACE block device (`block.c`): write-back lines of several sectors, any of
which can hold any part of the device. Transfers of the device always complete, and `malloc` returns
as many bytes as it is asked for. -/

namespace Hthreads.Sysace

open Library Software

def dataSector : ℕ := 512
def infoSize : ℕ := 20
def sectorCount : Huint := 0x00FF

abbrev Sector := Fin dataSector → Byte

structure CacheInfo where
  lru : Huint
  sector : Huint
  dirty : Bool
  second : Bool
  cold : Bool

def CacheInfo.empty : CacheInfo := ⟨0xFFFFFFFF, 0, false, false, true⟩

/-- The structure of the driver together with the sectors of the device behind it. `cache` is the
memory from the start of the allocated one on, one sector after the other, of which `cacheBytes` are
allocated; an access behind them, or behind the `infoBytes` of `info`, is marked. -/
structure Ace where
  hit : Huint
  miss : Huint
  lines : Huint
  depth : Huint
  allocated : Bool
  cacheBytes : Huint
  infoBytes : Huint
  overrun : Bool
  info : ℕ → CacheInfo
  cache : ℕ → Sector
  device : Huint → Sector

namespace Ace

variable (ace : Ace)

-- the index into `cache`, which is computed in 32 bits
def index (line offset : ℕ) : Huint :=
  BitVec.ofNat 32 dataSector * (BitVec.ofNat 32 line * ace.lines + BitVec.ofNat 32 offset)

def slot (line offset : ℕ) : ℕ := (ace.index line offset).toNat / dataSector

/-- An access to some bytes of `cache`. -/
def reach (line offset bytes : ℕ) : Ace :=
  { ace with
    overrun := ace.overrun || decide (ace.cacheBytes.toNat <
      (ace.index line offset).toNat + bytes) }

@[simp] lemma reach_lines (line offset bytes : ℕ) :
    (ace.reach line offset bytes).lines = ace.lines := rfl

@[simp] lemma reach_info (line offset bytes : ℕ) :
    (ace.reach line offset bytes).info = ace.info := rfl

def lineBytes : ℕ := (ace.lines * BitVec.ofNat 32 dataSector).toNat

def setInfo (line : ℕ) (info : CacheInfo) : Ace :=
  { ace with info := Function.update ace.info line info }

-- `sysace_cf_readsector` into a line, and `sysace_cf_writesector` out of one
def cfReadsector (line : ℕ) (sector num : Huint) (j : ℕ) : Sector :=
  if ace.slot line 0 ≤ j ∧ j - ace.slot line 0 < (num &&& sectorCount).toNat then
    ace.device (sector + BitVec.ofNat 32 (j - ace.slot line 0))
  else ace.cache j

def cfWritesector (line : ℕ) (sector num s : Huint) : Sector :=
  if (s - sector).toNat < (num &&& sectorCount).toNat then
    ace.cache (ace.slot line (s - sector).toNat)
  else ace.device s

def holds (block : Huint) (i : ℕ) : Bool :=
  let diff := block - (ace.info i).sector
  decide (0 ≤ diff.toInt) && decide (diff < ace.lines) && !(ace.info i).cold

-- the line is returned as a signed number; it is not negative, since `info` is already overrun
-- when it is set up for 2 ^ 31 lines
def cachefind (block : Huint) : Option ℕ × Ace :=
  match (List.range ace.depth.toNat).find? (ace.holds block) with
  | some i => (some i, { ace with hit := ace.hit + 1 })
  | none => (none, { ace with miss := ace.miss + 1 })

def cacheload (line : ℕ) (sector : Huint) : Ace :=
  { ace.reach line 0 ace.lineBytes with
    cache := ace.cfReadsector line sector ace.lines
    info := Function.update ace.info line
      { ace.info line with sector := sector, cold := false, dirty := false } }

def cachestore (line : ℕ) : Ace :=
  { ace.reach line 0 ace.lineBytes with
    device := ace.cfWritesector line (ace.info line).sector ace.lines
    info := Function.update ace.info line { ace.info line with dirty := false } }

def cachetouch (line : ℕ) : Ace :=
  let lru := (ace.info line).lru
  if lru = 0 then ace
  else
    let aged i :=
      let info := ace.info i
      if i < ace.depth.toNat ∧ info.lru ≤ lru ∧ info.lru ≠ 0xFFFFFFFF then
        { info with lru := info.lru + 1 }
      else info
    { ace with info := Function.update aged line { aged line with lru := 0, second := false } }

/-- The loop of `sysace_block_cachereplace` from line `i` on: a cold line, or else the best one. -/
def pick (best i : ℕ) : ℕ → ℕ × Bool
  | 0 => (best, false)
  | left + 1 =>
    if (ace.info i).cold then (i, true)
    else pick (if (ace.info best).lru < (ace.info i).lru then i else best) (i + 1) left

def giveSecond (line : ℕ) : Ace :=
  ace.setInfo line { ace.info line with second := true }

-- the lines that can still be given a second chance
def chances : ℕ :=
  ((Finset.range (ace.depth.toNat + 1)).filter fun i => (ace.info i).second = false).card

variable {ace}

lemma pick_le {best i left : ℕ} (hbest : best ≤ i + left) :
    (ace.pick best i left).1 ≤ i + left := by
  induction left generalizing best i with
  | zero => exact hbest
  | succ left ih =>
    rw [pick]
    split
    · exact Nat.le_add_right i _
    · have hnext : (if (ace.info best).lru < (ace.info i).lru then i else best) ≤ i + 1 + left := by
        split <;> omega
      have := ih hnext
      omega

lemma chances_giveSecond {line : ℕ} (hline : line ≤ ace.depth.toNat)
    (hsecond : (ace.info line).second = false) :
    (ace.giveSecond line).chances < ace.chances := by
  refine Finset.card_lt_card (Finset.ssubset_iff_subset_ne.mpr ⟨fun i hi => ?_, fun heq => ?_⟩)
  · have hi' := Finset.mem_filter.mp hi
    refine Finset.mem_filter.mpr ⟨hi'.1, ?_⟩
    by_cases hli : i = line
    · rwa [hli]
    · simpa [giveSecond, setInfo, hli] using hi'.2
  · have hmem : line ∈ (Finset.range (ace.depth.toNat + 1)).filter
        fun i => (ace.info i).second = false :=
      Finset.mem_filter.mpr ⟨Finset.mem_range.mpr (Nat.lt_succ_of_le hline), hsecond⟩
    rw [← heq] at hmem
    have hgiven := (Finset.mem_filter.mp hmem).2
    simp [giveSecond, setInfo] at hgiven

variable (ace)

-- the recursion is the second chance of a dirty line
def cachereplace (ace : Ace) : ℕ × Ace :=
  let best := (ace.pick 0 0 ace.depth.toNat).1
  if (ace.pick 0 0 ace.depth.toNat).2 then (best, ace)
  else if _h : (ace.info best).dirty = true ∧ (ace.info best).second = false then
    cachereplace (ace.giveSecond best)
  else if (ace.info best).dirty then (best, ace.cachestore best)
  else (best, ace)
termination_by ace.chances
decreasing_by
  have hle : (ace.pick 0 0 ace.depth.toNat).1 ≤ 0 + ace.depth.toNat := pick_le (Nat.zero_le _)
  exact chances_giveSecond (hle.trans (Nat.zero_add _).le) (by assumption : _ ∧ _).2

def cacheread (block : Huint) : ℕ × Ace :=
  let (line, ace) := ace.cachereplace
  (line, ace.cacheload line (block - block % ace.lines))

/-- The line of a block, which is read in when no line has it. -/
def locate (block : Huint) : ℕ × Ace :=
  match ace.cachefind block with
  | (some line, ace) => (line, ace)
  | (none, ace) => ace.cacheread block

def offset (block : Huint) : ℕ := (block % ace.lines).toNat

-- the loops run from `start` to the unsigned sum of `start` and `num`
def rounds (start num : Huint) : ℕ := (start + num).toNat - start.toNat

def readLoop (ace : Ace) (block : Huint) : ℕ → List Sector × Ace
  | 0 => ([], ace)
  | left + 1 =>
    let (line, ace) := ace.locate block
    let sector := ace.cache (ace.slot line (ace.offset block))
    let ace := ace.reach line (ace.offset block) dataSector
    let (sectors, ace) := readLoop (ace.cachetouch line) (block + 1) left
    (sector :: sectors, ace)

def read (start num : Huint) : List Sector × Ace :=
  ace.readLoop start (rounds start num)

def writeSector (line : ℕ) (block : Huint) (data : Sector) : Ace :=
  let ace :=
    { ace.reach line (ace.offset block) dataSector with
      cache := Function.update ace.cache (ace.slot line (ace.offset block)) data }
  let ace := ace.cachetouch line
  ace.setInfo line { ace.info line with dirty := true }

def writeLoop (ace : Ace) (block : Huint) (buffer : ℕ → Sector) : ℕ → Ace
  | 0 => ace
  | left + 1 =>
    let (line, ace) := ace.locate block
    writeLoop (ace.writeSector line block (buffer 0)) (block + 1) (fun k => buffer (k + 1)) left

def write (start num : Huint) (buffer : ℕ → Sector) : Ace :=
  ace.writeLoop start buffer (rounds start num)

def flushLine (line : ℕ) : Ace :=
  let ace := if (ace.info line).dirty then ace.cachestore line else ace
  ace.setInfo line .empty

def flushLoop (ace : Ace) (i : ℕ) : ℕ → Ace
  | 0 => ace
  | left + 1 => flushLoop (ace.flushLine i) (i + 1) left

def cacheflush : Ace :=
  { ace.flushLoop 0 ace.depth.toNat with hit := 0, miss := 0 }

/-- New arrays; `memory` is what stands in the allocated sectors and behind them. Their sizes are
computed in 32 bits, and all the entries of `info` are set up. -/
def allot (lines depth : Huint) (memory : ℕ → Sector) : Ace :=
  let infoBytes := depth * BitVec.ofNat 32 infoSize
  { ace with
    lines
    depth
    allocated := true
    cacheBytes := lines * depth * BitVec.ofNat 32 dataSector
    infoBytes
    overrun := ace.overrun || decide (infoBytes.toNat < infoSize * depth.toNat)
    info := fun _ => .empty
    cache := memory }

def cachesize (lines depth : Huint) (memory : ℕ → Sector) : Ace :=
  let ace := if ace.allocated then ace.cacheflush else ace
  if 0 < lines ∧ 0 < depth then ace.allot lines depth memory
  else { ace with lines, depth }

def fresh (device : Huint → Sector) (memory : ℕ → Sector) : Ace where
  hit := 0
  miss := 0
  lines := 0
  depth := 0
  allocated := false
  cacheBytes := 0
  infoBytes := 0
  overrun := false
  info _ := .empty
  cache := memory
  device := device

/-- The driver of a device with the given sectors, as `sysace_block_create` sets it up. -/
def create (device : Huint → Sector) (lines depth : Huint) (memory : ℕ → Sector) : Ace :=
  (fresh device memory).cachesize lines depth memory

lemma create_eq (device : Huint → Sector) {lines depth : Huint} (hlines : 0 < lines)
    (hdepth : 0 < depth) (memory : ℕ → Sector) :
    create device lines depth memory = (fresh device memory).allot lines depth memory := by
  have hpos : 0 < lines ∧ 0 < depth := ⟨hlines, hdepth⟩
  simp only [create, cachesize, fresh, Bool.false_eq_true, if_false, if_pos hpos]

end Ace

end Hthreads.Sysace
