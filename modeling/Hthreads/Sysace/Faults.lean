import Hthreads.Sysace.Transfers

/-! The block cache over a device whose transfers can fail (`block.c`, `cf.c`). -/

namespace Hthreads.Sysace

open Library Software

-- the error numbers are those of `errno.h`
def success : ℤ := 0
def eio : ℤ := 5

/-- The outcome of a transfer: whether it returned fewer bytes than were asked for, and then how
many bytes it has moved. -/
structure Outcome where
  short : Bool
  moved : ℕ

namespace Ace

variable (ace : Ace)

-- a short transfer leaves the rest of a line, or of the device, as it was
def partRead (line : ℕ) (sector : Huint) (moved j : ℕ) : Sector := fun b =>
  if (j - ace.slot line 0) * dataSector + b < moved then ace.cfReadsector line sector ace.lines j b
  else ace.cache j b

def partWrite (line : ℕ) (sector : Huint) (moved : ℕ) (t : Huint) : Sector := fun b =>
  if (t - sector).toNat * dataSector + b < moved then ace.cfWritesector line sector ace.lines t b
  else ace.device t b

end Ace

/-- The driver over a device that answers the `k`-th transfer with `outcomes k`. `contents` is what
the writes taken over so far make of the device. A line number beyond the last line and a read of
something else than the contents are marked. -/
structure Driver where
  ace : Ace
  locked : Bool
  outcomes : ℕ → Outcome
  used : ℕ
  strayed : Bool
  misread : Bool
  contents : Huint → Sector

namespace Driver

variable (d : Driver)

def begin (line : ℕ) : Driver :=
  { d with
    locked := true
    used := d.used + 1
    strayed := d.strayed || decide (d.ace.depth.toNat ≤ line) }

def cacheload (line : ℕ) (sector : Huint) : ℤ × Driver :=
  if (d.outcomes d.used).short then
    (eio, { d.begin line with
      ace := { d.ace.reach line 0 (min d.ace.lineBytes (d.outcomes d.used).moved) with
        cache := d.ace.partRead line sector (d.outcomes d.used).moved } })
  else (line, { d.begin line with locked := false, ace := d.ace.cacheload line sector })

def cachestore (line : ℕ) : ℤ × Driver :=
  if (d.outcomes d.used).short then
    (eio, { d.begin line with
      ace := { d.ace.reach line 0 (min d.ace.lineBytes (d.outcomes d.used).moved) with
        device := d.ace.partWrite line (d.ace.info line).sector (d.outcomes d.used).moved } })
  else (success, { d.begin line with locked := false, ace := d.ace.cachestore line })

-- the result of the store is not looked at
def cachereplace (d : Driver) : ℕ × Driver :=
  let best := (d.ace.pick 0 0 d.ace.depth.toNat).1
  if (d.ace.pick 0 0 d.ace.depth.toNat).2 then (best, d)
  else if _h : (d.ace.info best).dirty = true ∧ (d.ace.info best).second = false then
    cachereplace { d with ace := d.ace.giveSecond best }
  else if (d.ace.info best).dirty then (best, (d.cachestore best).2)
  else (best, d)
termination_by d.ace.chances
decreasing_by
  have hle : (d.ace.pick 0 0 d.ace.depth.toNat).1 ≤ 0 + d.ace.depth.toNat :=
    Ace.pick_le (Nat.zero_le _)
  exact Ace.chances_giveSecond (hle.trans (Nat.zero_add _).le) (by assumption : _ ∧ _).2

def cacheread (block : Huint) : ℤ × Driver :=
  let (line, d) := d.cachereplace
  d.cacheload line (block - block % d.ace.lines)

/-- The line of a block as the loops of `sysace_block_read` and `sysace_block_write` get it: a
negative number is an error. -/
def locate (block : Huint) : ℤ × Driver :=
  match d.ace.cachefind block with
  | (some line, ace) => (line, { d with ace })
  | (none, ace) => cacheread { d with ace } block

def takeSector (line : ℕ) (block : Huint) : Driver :=
  { d with
    ace := (d.ace.reach line (d.ace.offset block) dataSector).cachetouch line
    strayed := d.strayed || decide (d.ace.depth.toNat ≤ line)
    misread := d.misread ||
      decide (d.ace.cache (d.ace.slot line (d.ace.offset block)) ≠ d.contents block) }

def readLoop (d : Driver) (block : Huint) : ℕ → ℤ × Driver
  | 0 => (success, d)
  | left + 1 =>
    let (line, d) := d.locate block
    if line < 0 then (line, d) else readLoop (d.takeSector line.toNat block) (block + 1) left

def putSector (line : ℕ) (block : Huint) (data : Sector) : Driver :=
  { d with
    ace := d.ace.writeSector line block data
    strayed := d.strayed || decide (d.ace.depth.toNat ≤ line)
    contents := Function.update d.contents block data }

def writeLoop (d : Driver) (block : Huint) (buffer : ℕ → Sector) : ℕ → ℤ × Driver
  | 0 => (success, d)
  | left + 1 =>
    let (line, d) := d.locate block
    if line < 0 then (line, d)
    else writeLoop (d.putSector line.toNat block (buffer 0)) (block + 1)
      (fun k => buffer (k + 1)) left

def flushLoop (d : Driver) (i : ℕ) : ℕ → ℤ × Driver
  | 0 => (success, { d with ace := { d.ace with hit := 0, miss := 0 } })
  | left + 1 =>
    let (res, d) := if (d.ace.info i).dirty then d.cachestore i else (success, d)
    if res < 0 then (res, d) else flushLoop { d with ace := d.ace.setInfo i .empty } (i + 1) left

def create (device : Huint → Sector) (lines depth : Huint) (memory : ℕ → Sector)
    (outcomes : ℕ → Outcome) : Driver :=
  ⟨Ace.create device lines depth memory, false, outcomes, 0, false, false, device⟩

end Driver

inductive Call
  | read (start num : Huint)
  | write (start num : Huint) (buffer : ℕ → Sector)
  | flush

namespace Call

def Allowed (size : ℕ) : Call → Prop
  | read start num | write start num _ => start.toNat + num.toNat ≤ size
  | flush => True

def perform (d : Driver) : Call → ℤ × Driver
  | read start num => d.readLoop start (Ace.rounds start num)
  | write start num buffer => d.writeLoop start buffer (Ace.rounds start num)
  | flush => d.flushLoop 0 d.ace.depth.toNat

end Call

def callAll (d : Driver) : List Call → Driver
  | [] => d
  | c :: rest => callAll (c.perform d).2 rest

def Driver.FailsTo (d e : Driver) : Prop :=
  ∃ k, d.used ≤ k ∧ k < e.used ∧ (d.outcomes k).short = true

/-- What a call should do whether its transfers fail or not: report a failure as a negative number,
use the lines of the cache only, release the controller, keep what is not yet stored in a dirty
line, and read nothing but the contents. -/
structure Survives (size : ℕ) (d : Driver) (result : ℤ × Driver) : Prop where
  error : d.FailsTo result.2 → result.1 < 0
  inRange : result.2.strayed = false
  released : result.2.locked = false
  kept : ∀ t, t.toNat < size → result.2.contents t ≠ result.2.ace.device t →
    ∃ i, result.2.ace.Warm i ∧ (result.2.ace.info i).dirty = true ∧ result.2.ace.Covers i t ∧
      result.2.ace.cache (result.2.ace.slot i (result.2.ace.offset t)) = result.2.contents t
  right : result.2.misread = false

def SurvivesAll (size : ℕ) (d : Driver) : List Call → Prop
  | [] => True
  | c :: rest => Survives size d (c.perform d) ∧ SurvivesAll size (c.perform d).2 rest

end Hthreads.Sysace
