import Hthreads.Library.Rings
import Mathlib.Data.Nat.Log

/-! The FIFO of a Fast Simplex Link on a block RAM (`sync_fifo.vhd`, `gen_sync_bram.vhd`). -/

namespace Hthreads.CondVars

open Library

variable {memSize w a : ℕ}

/-- `Sync_BRAM`: the read address is held in a register, and the word read follows the memory. -/
structure SyncBram (a w : ℕ) where
  ramMem : BitVec a → BitVec w
  readDpra : BitVec a

namespace SyncBram

def clock (we : Bool) (addr : BitVec a) (di : BitVec w) (dpraEn : Bool) (dpra : BitVec a)
    (m : SyncBram a w) : SyncBram a w where
  ramMem := if we then Function.update m.ramMem addr di else m.ramMem
  readDpra := if dpraEn then dpra else m.readDpra

def dpo (m : SyncBram a w) : BitVec w := m.ramMem m.readDpra

end SyncBram

-- `log2` of the architecture
def addrWidth (memSize : ℕ) : ℕ := Nat.clog 2 memSize

lemma le_addrWidth (memSize : ℕ) : memSize ≤ 2 ^ addrWidth memSize :=
  Nat.le_pow_clog one_lt_two memSize

structure FifoLines (w : ℕ) where
  reset : Bool
  we : Bool
  dataIn : BitVec w
  rd : Bool

structure SyncFifo (memSize w : ℕ) where
  fifoLength : ℕ
  firstWrite : Bool
  hasData : Bool
  useFallThrough : Bool
  fallThroughData : BitVec w
  readAddrPtr : BitVec (addrWidth memSize)
  writeAddrPtr : BitVec (addrWidth memSize)
  bram : SyncBram (addrWidth memSize) w

namespace SyncFifo

def full (f : SyncFifo memSize w) : Bool := f.fifoLength == memSize
def nonempty (f : SyncFifo memSize w) : Bool := f.fifoLength != 0
def lastWord (f : SyncFifo memSize w) : Bool := f.fifoLength == 1

def readBramEnable (x : FifoLines w) (f : SyncFifo memSize w) : Bool :=
  f.firstWrite || x.rd && (!f.lastWord || x.we)

def dataOut (f : SyncFifo memSize w) : BitVec w :=
  if f.useFallThrough then f.fallThroughData else f.bram.dpo

def clock (x : FifoLines w) (f : SyncFifo memSize w) : SyncFifo memSize w where
  fifoLength :=
    if x.reset then 0
    else if x.we && !x.rd && !f.full then f.fifoLength + 1
    else if !x.we && x.rd && f.nonempty then f.fifoLength - 1
    else f.fifoLength
  firstWrite := if x.reset then false else x.we && !f.nonempty
  -- the word is at the output of the block RAM one cycle after the flag
  hasData :=
    if x.reset then false
    else if f.firstWrite then true
    else if x.rd && !x.we && f.lastWord then false
    else f.hasData
  useFallThrough :=
    if x.rd && !x.we || x.reset then false
    else if x.rd && !f.lastWord then false
    else if x.rd then true
    else f.useFallThrough
  fallThroughData := if x.rd && x.we && f.lastWord then x.dataIn else f.fallThroughData
  readAddrPtr :=
    if x.reset then 0
    else if f.readBramEnable x then f.readAddrPtr + 1
    else f.readAddrPtr
  writeAddrPtr :=
    if x.reset then 0 else if x.we then f.writeAddrPtr + 1 else f.writeAddrPtr
  bram := f.bram.clock x.we f.writeAddrPtr x.dataIn (f.readBramEnable x) f.readAddrPtr

def run (f : SyncFifo memSize w) (inputs : ℕ → FifoLines w) : ℕ → SyncFifo memSize w
  | 0 => f
  | n + 1 => (run f inputs n).clock (inputs n)

/-- Nothing is written into a full FIFO, and nothing is read from one that shows no word. -/
structure Permits (x : FifoLines w) (f : SyncFifo memSize w) : Prop where
  we : x.we = true → f.full = false
  rd : x.rd = true → f.hasData = true

end SyncFifo

/-- What a cycle does to a queue of words. -/
def queueNext (x : FifoLines w) (q : List (BitVec w)) : List (BitVec w) :=
  if x.reset then [] else (if x.rd then q.tail else q) ++ if x.we then [x.dataIn] else []

/-- The queue lies in the memory from `head` on, and `write` is the address behind it. -/
structure Stored (memSize n : ℕ) (mem : BitVec a → BitVec w) (head write : BitVec a)
    (q : List (BitVec w)) : Prop where
  length : n = q.length
  room : q.length ≤ memSize
  ring : Ring mem head q
  next : write = Ring.next head q

namespace Stored

variable {n : ℕ} {mem : BitVec a → BitVec w} {head write : BitVec a} {q : List (BitVec w)}
  {x : BitVec w}

lemma append (h : Stored memSize n mem head write q) (ha : memSize ≤ 2 ^ a) (hn : n ≠ memSize) :
    Stored memSize (n + 1) (Function.update mem write x) head (write + 1) (q ++ [x]) := by
  have hlt : q.length < memSize := Nat.lt_of_le_of_ne h.room (h.length ▸ hn)
  refine ⟨?_, ?_, ?_, ?_⟩
  · rw [List.length_append, List.length_singleton, h.length]
  · rw [List.length_append, List.length_singleton]
    exact hlt
  · rw [h.next]
    exact h.ring.append (hlt.trans_le ha)
  · rw [Ring.next_append, h.next]

lemma tail (h : Stored memSize n mem head write (x :: q)) :
    Stored memSize (n - 1) mem (head + 1) write q := by
  refine ⟨?_, (Nat.le_succ _).trans h.room, h.ring.tail, ?_⟩
  · rw [h.length, List.length_cons, Nat.add_sub_cancel]
  · rw [h.next, Ring.next_cons]

end Stored

namespace SyncFifo

/-- The FIFO holds the queue: it is empty, or its only word is on the way to the output, or its
first word is at the output. -/
inductive Holds (f : SyncFifo memSize w) : List (BitVec w) → Prop
  | empty : f.firstWrite = false → f.hasData = false → f.useFallThrough = false →
      Stored memSize f.fifoLength f.bram.ramMem f.readAddrPtr f.writeAddrPtr [] → Holds f []
  | entering {y : BitVec w} : f.firstWrite = true → f.hasData = false → f.useFallThrough = false →
      Stored memSize f.fifoLength f.bram.ramMem f.readAddrPtr f.writeAddrPtr [y] → Holds f [y]
  | showing {y : BitVec w} {l : List (BitVec w)} : f.firstWrite = false → f.hasData = true →
      (f.useFallThrough = true → f.fallThroughData = y) → f.readAddrPtr = f.bram.readDpra + 1 →
      Stored memSize f.fifoLength f.bram.ramMem f.bram.readDpra f.writeAddrPtr (y :: l) →
      Holds f (y :: l)

section Cycles

variable {f : SyncFifo memSize w} {x : FifoLines w} {y z : BitVec w} {l q : List (BitVec w)}

lemma holds_reset (hreset : x.reset = true) : (f.clock x).Holds [] := by
  refine .empty ?_ ?_ ?_ ⟨?_, Nat.zero_le _, .nil _ _, ?_⟩
  all_goals simp [clock, hreset, Ring.next]

lemma clock_idle (hx : x.reset = false) (hwe : x.we = false) (hrd : x.rd = false)
    (hfirst : f.firstWrite = false) : f.clock x = f := by
  obtain ⟨fifoLength, firstWrite, hasData, useFallThrough, fallThroughData, readAddrPtr,
    writeAddrPtr, bram⟩ := f
  obtain rfl : firstWrite = false := hfirst
  simp [clock, SyncBram.clock, readBramEnable, hx, hrd, hwe]

lemma Permits.rd_eq_false (hp : f.Permits x) (hdata : f.hasData = false) : x.rd = false := by
  by_contra hrd
  rw [hp.rd (by simpa using hrd)] at hdata
  cases hdata

lemma Permits.fifoLength_ne (hp : f.Permits x) (hwe : x.we = true) : f.fifoLength ≠ memSize := by
  simpa [full] using hp.we hwe

lemma clock_empty (hfirst : f.firstWrite = false) (hdata : f.hasData = false)
    (hfall : f.useFallThrough = false)
    (h : Stored memSize f.fifoLength f.bram.ramMem f.readAddrPtr f.writeAddrPtr [])
    (hx : x.reset = false) (hp : f.Permits x) : (f.clock x).Holds (queueNext x []) := by
  have hrd := hp.rd_eq_false hdata
  have hlength : f.fifoLength = 0 := h.length
  cases hwe : x.we with
  | false =>
    rw [clock_idle hx hwe hrd hfirst]
    simpa [queueNext, hx, hrd, hwe] using Holds.empty hfirst hdata hfall h
  | true =>
    have hfull := hp.fifoLength_ne hwe
    have hstored := h.append (x := x.dataIn) (le_addrWidth memSize) hfull
    have hnext : queueNext x [] = [x.dataIn] := by
      simp [queueNext, hx, hrd, hwe]
    rw [hnext]
    refine .entering ?_ ?_ ?_ ?_
    · simp [clock, nonempty, hx, hwe, hlength]
    · simp [clock, hx, hrd, hfirst, hdata]
    · simp [clock, hx, hrd, hfall]
    · simpa [clock, SyncBram.clock, readBramEnable, full, hx, hrd, hwe, hfirst, hfull] using hstored

lemma clock_entering (hfirst : f.firstWrite = true) (hdata : f.hasData = false)
    (hfall : f.useFallThrough = false)
    (h : Stored memSize f.fifoLength f.bram.ramMem f.readAddrPtr f.writeAddrPtr [y])
    (hx : x.reset = false) (hp : f.Permits x) : (f.clock x).Holds (queueNext x [y]) := by
  have hrd := hp.rd_eq_false hdata
  have hlength : f.fifoLength = 1 := h.length
  cases hwe : x.we with
  | false =>
    have hnext : queueNext x [y] = [y] := by
      simp [queueNext, hx, hrd, hwe]
    rw [hnext]
    refine .showing ?_ ?_ ?_ ?_ ?_
    · simp [clock, hx, hwe]
    · simp [clock, hx, hfirst]
    · simp [clock, hx, hrd, hfall]
    · simp [clock, SyncBram.clock, readBramEnable, hx, hfirst]
    · simpa [clock, SyncBram.clock, readBramEnable, hx, hrd, hwe, hfirst] using h
  | true =>
    have hfull := hp.fifoLength_ne hwe
    have hstored := h.append (x := x.dataIn) (le_addrWidth memSize) hfull
    have hnext : queueNext x [y] = y :: [x.dataIn] := by
      simp [queueNext, hx, hrd, hwe]
    rw [hnext]
    refine .showing ?_ ?_ ?_ ?_ ?_
    · simp [clock, nonempty, hx, hlength]
    · simp [clock, hx, hfirst]
    · simp [clock, hx, hrd, hfall]
    · simp [clock, SyncBram.clock, readBramEnable, hx, hfirst]
    · simpa [clock, SyncBram.clock, readBramEnable, full, hx, hrd, hwe, hfirst, hfull] using hstored

section Showing

variable (hfirst : f.firstWrite = false) (hdata : f.hasData = true)
  (hptr : f.readAddrPtr = f.bram.readDpra + 1)
  (h : Stored memSize f.fifoLength f.bram.ramMem f.bram.readDpra f.writeAddrPtr (y :: l))
  (hx : x.reset = false)

include hfirst hdata hptr h hx

lemma clock_write (hfall : f.useFallThrough = true → f.fallThroughData = y) (hp : f.Permits x)
    (hwe : x.we = true) (hrd : x.rd = false) :
    (f.clock x).Holds (y :: l ++ [x.dataIn]) := by
  have hlength : f.fifoLength = l.length + 1 := h.length
  have hfull := hp.fifoLength_ne hwe
  have hstored := h.append (x := x.dataIn) (le_addrWidth memSize) hfull
  refine .showing ?_ ?_ ?_ ?_ ?_
  · simp [clock, nonempty, hx, hlength]
  · simp [clock, hx, hrd, hfirst, hdata]
  · simpa [clock, hx, hrd] using hfall
  · simpa [clock, SyncBram.clock, readBramEnable, hx, hrd, hfirst] using hptr
  · simpa [clock, SyncBram.clock, readBramEnable, full, hx, hrd, hwe, hfirst, hfull] using hstored

lemma clock_read (hwe : x.we = false) (hrd : x.rd = true) : (f.clock x).Holds l := by
  have hlength : f.fifoLength = l.length + 1 := h.length
  have htail := h.tail
  rw [← hptr] at htail
  cases l with
  | nil =>
    refine .empty ?_ ?_ ?_ ?_
    · simp [clock, hx, hwe]
    · simp [clock, lastWord, hx, hrd, hwe, hfirst, hlength]
    · simp [clock, hrd, hwe]
    · simpa [clock, SyncBram.clock, readBramEnable, lastWord, nonempty, hx, hrd, hwe,
        hfirst, hlength]
        using htail
  | cons z l =>
    refine .showing ?_ ?_ ?_ ?_ ?_
    · simp [clock, hx, hwe]
    · simp [clock, lastWord, hx, hfirst, hdata, hlength]
    · simp [clock, hrd, hwe]
    · simp [clock, SyncBram.clock, readBramEnable, lastWord, hx, hrd, hfirst, hlength]
    · simpa [clock, SyncBram.clock, readBramEnable, lastWord, nonempty, hx, hrd, hwe,
        hfirst, hlength]
        using htail

lemma clock_pass (hp : f.Permits x) (hwe : x.we = true) (hrd : x.rd = true) :
    (f.clock x).Holds (l ++ [x.dataIn]) := by
  have hlength : f.fifoLength = l.length + 1 := h.length
  have hfull := hp.fifoLength_ne hwe
  have hstored := (h.append (x := x.dataIn) (le_addrWidth memSize) hfull)
  rw [List.cons_append] at hstored
  have htail := hstored.tail
  rw [← hptr, Nat.add_sub_cancel] at htail
  cases l with
  | nil =>
    refine .showing ?_ ?_ ?_ ?_ ?_
    · simp [clock, nonempty, hx, hlength]
    · simp [clock, hx, hwe, hfirst, hdata]
    · simp [clock, lastWord, hrd, hwe, hlength]
    · simp [clock, SyncBram.clock, readBramEnable, hx, hrd, hwe]
    · simpa [clock, SyncBram.clock, readBramEnable, lastWord, hx, hrd, hwe] using htail
  | cons z l =>
    refine .showing ?_ ?_ ?_ ?_ ?_
    · simp [clock, nonempty, hx, hlength]
    · simp [clock, hx, hwe, hfirst, hdata]
    · simp [clock, lastWord, hx, hrd, hwe, hlength]
    · simp [clock, SyncBram.clock, readBramEnable, hx, hrd, hwe]
    · simpa [clock, SyncBram.clock, readBramEnable, lastWord, hx, hrd, hwe] using htail

end Showing

lemma Holds.clock (h : f.Holds q) (hp : f.Permits x) : (f.clock x).Holds (queueNext x q) := by
  cases hx : x.reset with
  | true =>
    have hnext : queueNext x q = [] := by
      simp [queueNext, hx]
    rw [hnext]
    exact holds_reset hx
  | false =>
    cases h with
    | empty hfirst hdata hfall h => exact clock_empty hfirst hdata hfall h hx hp
    | entering hfirst hdata hfall h => exact clock_entering hfirst hdata hfall h hx hp
    | @showing y l hfirst hdata hfall hptr h =>
      cases hwe : x.we <;> cases hrd : x.rd
      · rw [clock_idle hx hwe hrd hfirst]
        simpa [queueNext, hx, hrd, hwe] using Holds.showing hfirst hdata hfall hptr h
      · simpa [queueNext, hx, hrd, hwe] using clock_read hfirst hdata hptr h hx hwe hrd
      · simpa [queueNext, hx, hrd, hwe] using clock_write hfirst hdata hptr h hx hfall hp hwe hrd
      · simpa [queueNext, hx, hrd, hwe] using clock_pass hfirst hdata hptr h hx hp hwe hrd

lemma Holds.length (h : f.Holds q) : f.fifoLength = q.length := by
  cases h with
  | empty _ _ _ h | entering _ _ _ h | showing _ _ _ _ h => exact h.length

lemma Holds.room (h : f.Holds q) : q.length ≤ memSize := by
  cases h with
  | empty _ _ _ h | entering _ _ _ h | showing _ _ _ _ h => exact h.room

lemma Holds.full_iff (h : f.Holds q) : f.full = true ↔ q.length = memSize := by
  rw [full, beq_iff_eq, h.length]

lemma Holds.head (h : f.Holds q) (hdata : f.hasData = true) : q.head? = some f.dataOut := by
  cases h with
  | empty _ hnot _ _ | entering _ hnot _ _ =>
    rw [hnot] at hdata
    cases hdata
  | showing _ _ hfall _ h =>
    rw [dataOut]
    by_cases hthrough : f.useFallThrough = true
    · rw [if_pos hthrough, hfall hthrough, List.head?_cons]
    · rw [if_neg hthrough, SyncBram.dpo, h.ring.head_eq, List.head?_cons]

lemma Holds.prompt (h : f.Holds q) (hne : q ≠ []) (hx : x.reset = false) :
    f.hasData = true ∨ (f.clock x).hasData = true := by
  cases h with
  | empty _ _ _ _ => exact absurd rfl hne
  | entering hfirst _ _ _ => exact .inr (by simp [SyncFifo.clock, hx, hfirst])
  | showing _ hdata _ _ _ => exact .inl hdata

end Cycles

section Runs

def written (inputs : ℕ → FifoLines w) (n : ℕ) : List (BitVec w) :=
  (List.range n).flatMap fun k => if (inputs k).we then [(inputs k).dataIn] else []

def taken (f : SyncFifo memSize w) (inputs : ℕ → FifoLines w) (n : ℕ) : List (BitVec w) :=
  (List.range n).flatMap fun k => if (inputs k).rd then [(f.run inputs k).dataOut] else []

variable {f : SyncFifo memSize w} {inputs : ℕ → FifoLines w} {q : List (BitVec w)}

lemma written_succ (n : ℕ) :
    written inputs (n + 1) =
      written inputs n ++ if (inputs n).we then [(inputs n).dataIn] else [] := by
  rw [written, List.range_succ, List.flatMap_append, List.flatMap_singleton, ← written]

lemma taken_succ (n : ℕ) :
    taken f inputs (n + 1) =
      taken f inputs n ++ if (inputs n).rd then [(f.run inputs n).dataOut] else [] := by
  rw [taken, List.range_succ, List.flatMap_append, List.flatMap_singleton, ← taken]

lemma Holds.taken_queueNext {x : FifoLines w} (h : f.Holds q) (hx : x.reset = false)
    (hp : f.Permits x) :
    (if x.rd then [f.dataOut] else []) ++ queueNext x q =
      q ++ if x.we then [x.dataIn] else [] := by
  cases hrd : x.rd with
  | false => simp [queueNext, hx, hrd]
  | true =>
    have hhead := h.head (hp.rd hrd)
    obtain ⟨l, rfl⟩ : ∃ l, q = f.dataOut :: l := by
      cases q with
      | nil => cases hhead
      | cons y l => exact ⟨l, by rw [List.head?_cons, Option.some.injEq] at hhead; rw [hhead]⟩
    simp [queueNext, hx, hrd]

lemma holds_run (h : f.Holds []) (hrun : ∀ n, (inputs n).reset = false)
    (hp : ∀ n, (f.run inputs n).Permits (inputs n)) (n : ℕ) :
    ∃ q, (f.run inputs n).Holds q ∧ written inputs n = taken f inputs n ++ q := by
  induction n with
  | zero => exact ⟨[], h, rfl⟩
  | succ n ih =>
    obtain ⟨q, hq, heq⟩ := ih
    refine ⟨queueNext (inputs n) q, hq.clock (hp n), ?_⟩
    rw [written_succ, taken_succ, heq, List.append_assoc, List.append_assoc,
      hq.taken_queueNext (hrun n) (hp n)]

/-- The FIFO is a queue. From a reset on, while it is written only when it is not full and read
only when it shows a word, the words read are the words written, in their order; those that are
still inside are as many as it counts, the first of them is at the output whenever it shows a word,
and it shows one at the latest one cycle after it has one. -/
theorem words_in_order (f : SyncFifo memSize w) (x : FifoLines w) (hx : x.reset = true)
    (inputs : ℕ → FifoLines w) (hrun : ∀ n, (inputs n).reset = false)
    (hp : ∀ n, ((f.clock x).run inputs n).Permits (inputs n)) (n : ℕ) :
    ∃ q, written inputs n = taken (f.clock x) inputs n ++ q ∧
      ((f.clock x).run inputs n).fifoLength = q.length ∧ q.length ≤ memSize ∧
      (((f.clock x).run inputs n).full = true ↔ q.length = memSize) ∧
      (((f.clock x).run inputs n).hasData = true →
        q.head? = some ((f.clock x).run inputs n).dataOut) ∧
      (q ≠ [] → ((f.clock x).run inputs n).hasData = true ∨
        ((f.clock x).run inputs (n + 1)).hasData = true) := by
  obtain ⟨q, hq, heq⟩ := holds_run (holds_reset hx) hrun hp n
  exact ⟨q, heq, hq.length, hq.room, hq.full_iff, hq.head, fun hne => hq.prompt hne (hrun n)⟩

-- two words are written into a FIFO of four, and the first is read
def writeTwo (n : ℕ) : FifoLines 8 := ⟨false, n < 2, BitVec.ofNat 8 (5 + n), n == 3⟩

def powerUp : SyncFifo 4 8 := ⟨3, true, true, true, 9, 1, 2, ⟨fun _ => 0xA5, 3⟩⟩

theorem words_in_order_two :
    ∃ q, written writeTwo 6 =
      taken (powerUp.clock ⟨true, false, 0, false⟩) writeTwo 6 ++ q ∧ q.length = 1 := by
  have hp : ∀ n, ((powerUp.clock ⟨true, false, 0, false⟩).run writeTwo n).Permits (writeTwo n) := by
    intro n
    refine ⟨fun hwe => ?_, fun hrd => ?_⟩
    · have hn : n < 2 := by simpa [writeTwo] using hwe
      interval_cases n <;> decide
    · obtain rfl : n = 3 := by simpa [writeTwo] using hrd
      decide
  obtain ⟨q, heq, hlength, -⟩ := words_in_order powerUp ⟨true, false, 0, false⟩ rfl writeTwo
    (fun _ => rfl) hp 6
  refine ⟨q, heq, ?_⟩
  rw [← hlength]
  decide

end Runs

end SyncFifo

end Hthreads.CondVars
