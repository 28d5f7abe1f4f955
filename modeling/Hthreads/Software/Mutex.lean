import Hthreads.Software.SchedParam
import Hthreads.SyncManager.Ledger

/-! The mutex system calls (`mutex.c`, `syscall.c`, `mutex/hardware.h`): each is one read from an
address that encodes the command, the calling thread and the mutex, and one request to the core. -/

namespace Hthreads.Software

open Library Library.BitFields Scheduler SyncManager

variable {m : ℕ}

-- `(x & ((1 << bits) - 1)) << shift`
def maskShift (bits shift : ℕ) (x : Huint) : Huint :=
  (x &&& BitVec.ofNat 32 (2 ^ bits - 1)) <<< shift

def htMutexLock : Huint := 0
def htMutexUnlock : Huint := 1
def htMutexTry : Huint := 2
def htMutexBlock : Huint := 0x40000000
def ebusy : Hint := -8

/-- `mutex_cmd`, with `m` for `MUTEX_BITS`. -/
def mutexCmd (m : ℕ) (synchBaseaddr c t mid : Huint) : Huint :=
  synchBaseaddr ||| maskShift 3 (m + 10) c ||| maskShift 8 (m + 2) t ||| maskShift m 2 mid

/-- The address ranges of the core differ in the command field alone. -/
def chipSelect (m : ℕ) (addr : Huint) : Option SyncManager.Command :=
  let cmd := slice addr (19 - m) 3
  if cmd = 0b000 then some .lock
  else if cmd = 0b001 then some .unlock
  else if cmd = 0b010 then some .tryLock
  else if cmd = 0b011 then some .owner
  else if cmd = 0b100 then some .kind
  else if cmd = 0b101 then some .count
  else if cmd = 0b110 then some .result
  else none

def readBus (m : ℕ) (addr : Huint) : Bus := ⟨chipSelect m addr, addr, 0, true⟩

def readReg (addr : Huint) (s : Slave m) : Option (Word × List ThreadId × Slave m) :=
  s.serve (readBus m addr) 5

/-- What a call leaves behind: its return value, whether it gave up the processor on the way, the
threads named on the send port, and the core. -/
structure Returned (m : ℕ) where
  value : Hint
  ranSched : Bool := false
  woken : List ThreadId
  slave : Slave m

section Calls

variable (synchBaseaddr cur num : Huint) (s : Slave m)

def mutexAcquire : Option (Word × List ThreadId × Slave m) :=
  readReg (mutexCmd m synchBaseaddr htMutexLock cur num) s

def mutexTryacquire : Option (Word × List ThreadId × Slave m) :=
  (readReg (mutexCmd m synchBaseaddr htMutexTry cur num) s).map fun (sta, ids, s') =>
    (if sta ≠ 0 then failure else success, ids, s')

/-- The status that the core answers with is dropped. -/
def mutexRelease : Option (List ThreadId × Slave m) :=
  (readReg (mutexCmd m synchBaseaddr htMutexUnlock cur num) s).map fun (_, ids, s') => (ids, s')

def syscallMutexLock : Option (Returned m) :=
  (mutexAcquire synchBaseaddr cur num s).map fun (sta, ids, s') =>
    if sta = htMutexBlock then ⟨success, true, ids, s'⟩
    else if sta = success then ⟨success, false, ids, s'⟩
    else ⟨failure, false, ids, s'⟩

def syscallMutexTrylock : Option (Returned m) :=
  (mutexTryacquire synchBaseaddr cur num s).map fun (sta, ids, s') =>
    ⟨if sta ≠ success then ebusy else success, false, ids, s'⟩

def syscallMutexUnlock : Option (Returned m) :=
  (mutexRelease synchBaseaddr cur num s).map fun (ids, s') => ⟨success, false, ids, s'⟩

def hthreadMutexLock : Option (Returned m) := syscallMutexLock synchBaseaddr cur num s
def hthreadMutexTrylock : Option (Returned m) := syscallMutexTrylock synchBaseaddr cur num s
def hthreadMutexUnlock : Option (Returned m) := syscallMutexUnlock synchBaseaddr cur num s

end Calls

section Encoding

lemma getLsbD_maskShift (bits shift : ℕ) (x : Huint) {i : ℕ} (hi : i < 32) :
    (maskShift bits shift x).getLsbD i =
      (decide (shift ≤ i ∧ i < shift + bits) && x.getLsbD (i - shift)) := by
  simp only [maskShift, BitVec.getLsbD_shiftLeft, BitVec.getLsbD_and, BitVec.getLsbD_ofNat,
    Nat.testBit_two_pow_sub_one, hi, decide_true, Bool.true_and]
  by_cases hshift : shift ≤ i
  · have hlt : i - shift < 32 := by omega
    have hbits : i - shift < bits ↔ i < shift + bits := by omega
    simp [hshift, hlt, hbits, Nat.not_lt.mpr hshift, Bool.and_comm]
  · simp [hshift, Nat.lt_of_not_le hshift]

/-- The fields of an address lie below the base address of the core. -/
def Aligned (m : ℕ) (base : Huint) : Prop := ∀ i < m + 13, base.getLsbD i = false

variable {base c t mid : Huint}

lemma getLsbD_mutexCmd (hbase : Aligned m base) {i : ℕ} (hi : i < m + 13) (hm : m ≤ 19) :
    (mutexCmd m base c t mid).getLsbD i =
      ((decide (m + 10 ≤ i) && c.getLsbD (i - (m + 10))) ||
        (decide (m + 2 ≤ i ∧ i < m + 10) && t.getLsbD (i - (m + 2))) ||
        (decide (2 ≤ i ∧ i < m + 2) && mid.getLsbD (i - 2))) := by
  have hlt : i < 32 := by omega
  have htop : (m + 10 ≤ i ∧ i < m + 10 + 3) ↔ m + 10 ≤ i := by omega
  have hmid : (2 ≤ i ∧ i < 2 + m) ↔ 2 ≤ i ∧ i < m + 2 := by omega
  rw [mutexCmd, BitVec.getLsbD_or, BitVec.getLsbD_or, BitVec.getLsbD_or, hbase i hi,
    getLsbD_maskShift _ _ _ hlt, getLsbD_maskShift _ _ _ hlt, getLsbD_maskShift _ _ _ hlt,
    Bool.false_or, decide_eq_decide.mpr htop, decide_eq_decide.mpr hmid]

lemma mtxNumber_mutexCmd (hbase : Aligned m base) (hm : m ≤ 19) :
    mtxNumber m (mutexCmd m base c t mid) = mid.setWidth m := by
  apply BitVec.eq_of_getLsbD_eq
  intro i hi
  have hpos : 32 - (30 - m) - m + i = i + 2 := by omega
  have h1 : ¬ m + 10 ≤ i + 2 := by omega
  have h2 : ¬ (m + 2 ≤ i + 2 ∧ i + 2 < m + 10) := by omega
  have h3 : 2 ≤ i + 2 ∧ i + 2 < m + 2 := by omega
  rw [mtxNumber, getLsbD_slice, hpos, getLsbD_mutexCmd hbase (by omega) hm]
  simp only [h1, h2, h3, decide_false, and_self, decide_true, Bool.false_and, Bool.false_or,
    Bool.true_and, Nat.add_sub_cancel, BitVec.getLsbD_setWidth]

lemma thrNumber_mutexCmd (hbase : Aligned m base) (hm : m ≤ 19) :
    thrNumber m (mutexCmd m base c t mid) = t.setWidth 8 := by
  apply BitVec.eq_of_getLsbD_eq
  intro i hi
  have hpos : 32 - (22 - m) - 8 + i = i + (m + 2) := by omega
  have h1 : ¬ m + 10 ≤ i + (m + 2) := by omega
  have h2 : m + 2 ≤ i + (m + 2) ∧ i + (m + 2) < m + 10 := by omega
  have h3 : ¬ (2 ≤ i + (m + 2) ∧ i + (m + 2) < m + 2) := by omega
  rw [thrNumber, getLsbD_slice, hpos, getLsbD_mutexCmd hbase (by omega) hm]
  simp only [h1, h2, h3, decide_false, and_self, decide_true, Bool.false_and, Bool.false_or,
    Bool.or_false, Bool.true_and, Nat.add_sub_cancel, BitVec.getLsbD_setWidth]

lemma cmdNumber_mutexCmd (hbase : Aligned m base) (hm : m ≤ 19) :
    slice (mutexCmd m base c t mid) (19 - m) 3 = c.setWidth 3 := by
  apply BitVec.eq_of_getLsbD_eq
  intro i hi
  have hpos : 32 - (19 - m) - 3 + i = i + (m + 10) := by omega
  have h1 : m + 10 ≤ i + (m + 10) := by omega
  have h2 : ¬ (m + 2 ≤ i + (m + 10) ∧ i + (m + 10) < m + 10) := by omega
  have h3 : ¬ (2 ≤ i + (m + 10) ∧ i + (m + 10) < m + 2) := by omega
  rw [getLsbD_slice, hpos, getLsbD_mutexCmd hbase (by omega) hm]
  simp only [h1, h2, h3, decide_false, decide_true, Bool.false_and, Bool.or_false, Bool.true_and,
    Nat.add_sub_cancel, BitVec.getLsbD_setWidth]

lemma readBus_lock (hbase : Aligned m base) (hm : m ≤ 19) (t mid : Huint) :
    (readBus m (mutexCmd m base htMutexLock t mid)).request =
      some (.lock (mid.setWidth m) (t.setWidth 8)) := by
  have hcmd : chipSelect m (mutexCmd m base htMutexLock t mid) = some .lock := by
    rw [chipSelect, cmdNumber_mutexCmd hbase hm]
    rfl
  simp only [readBus, Bus.request, hcmd, mtxNumber_mutexCmd hbase hm, thrNumber_mutexCmd hbase hm]

lemma readBus_tryLock (hbase : Aligned m base) (hm : m ≤ 19) (t mid : Huint) :
    (readBus m (mutexCmd m base htMutexTry t mid)).request =
      some (.tryLock (mid.setWidth m) (t.setWidth 8)) := by
  have hcmd : chipSelect m (mutexCmd m base htMutexTry t mid) = some .tryLock := by
    rw [chipSelect, cmdNumber_mutexCmd hbase hm]
    rfl
  simp only [readBus, Bus.request, hcmd, mtxNumber_mutexCmd hbase hm, thrNumber_mutexCmd hbase hm]

lemma readBus_unlock (hbase : Aligned m base) (hm : m ≤ 19) (t mid : Huint) :
    (readBus m (mutexCmd m base htMutexUnlock t mid)).request =
      some (.unlock (mid.setWidth m) (t.setWidth 8)) := by
  have hcmd : chipSelect m (mutexCmd m base htMutexUnlock t mid) = some .unlock := by
    rw [chipSelect, cmdNumber_mutexCmd hbase hm]
    rfl
  simp only [readBus, Bus.request, hcmd, mtxNumber_mutexCmd hbase hm, thrNumber_mutexCmd hbase hm]

end Encoding

inductive MutexOp
  | lock
  | tryLock
  | unlock
  deriving DecidableEq

structure MutexCall where
  op : MutexOp
  thread : Huint
  num : Huint

namespace MutexCall

def perform (base : Huint) (c : MutexCall) (s : Slave m) : Option (Returned m) :=
  match c.op with
  | .lock => hthreadMutexLock base c.thread c.num s
  | .tryLock => hthreadMutexTrylock base c.thread c.num s
  | .unlock => hthreadMutexUnlock base c.thread c.num s

def mutex (m : ℕ) (c : MutexCall) : BitVec m := c.num.setWidth m

def caller (c : MutexCall) : ThreadId := c.thread.setWidth 8

/-- The caller comes out of the call with the mutex, without having waited. -/
def Granted (c : MutexCall) (R : Returned m) : Prop :=
  c.op ≠ .unlock ∧ R.value = success ∧ R.ranSched = false

instance (c : MutexCall) (R : Returned m) : Decidable (c.Granted R) :=
  inferInstanceAs (Decidable (_ ∧ _ ∧ _))

def request (m : ℕ) (c : MutexCall) : Request m :=
  match c.op with
  | .lock => .lock (c.mutex m) c.caller
  | .tryLock => .tryLock (c.mutex m) c.caller
  | .unlock => .unlock (c.mutex m) c.caller

end MutexCall

lemma MutexCall.request_asks {c : MutexCall} (hop : c.op ≠ .unlock) :
    (c.request m).asks (c.mutex m) = some c.caller := by
  cases hc : c.op with
  | lock => simp [request, hc, Request.asks]
  | tryLock => simp [request, hc, Request.asks]
  | unlock => exact absurd hc hop

section Performing

variable {base : Huint} {s : Slave m} {c : MutexCall}

/-- What every call does: one request, served at once. -/
structure Performs (c : MutexCall) (s : Slave m) (R : Returned m) : Prop where
  quiet : R.slave.Quiet
  stores : R.slave.stores = ((c.request m).effect s.stores).stores
  woken : R.woken = ((c.request m).effect s.stores).sent
  granted : c.Granted R ↔ c.op ≠ .unlock ∧ ((c.request m).effect s.stores).data = 0
  unlocked : c.op = .unlock → R.value = success

lemma perform_lock (hbase : Aligned m base) (hm : m ≤ 19) (hs : s.Quiet) (thread num : Huint) :
    ∃ R, hthreadMutexLock base thread num s = some R ∧ Performs ⟨.lock, thread, num⟩ s R := by
  obtain ⟨t, hserve, ht, hstores⟩ := Slave.serves_request hs (readBus_lock hbase hm thread num)
  simp only [hthreadMutexLock, syscallMutexLock, mutexAcquire, readReg, hserve, Option.map_some]
  refine ⟨_, rfl, ?_⟩
  have hblock : ¬ htMutexBlock = 0 := by decide
  have hfail : ¬ failure = success := by decide
  split
  next hsta =>
    refine ⟨ht, hstores, rfl, ?_, nofun⟩
    exact iff_of_false (fun h => Bool.noConfusion h.2.2) fun h => hblock (hsta.symm.trans h.2)
  next =>
    split
    next hzero =>
      refine ⟨ht, hstores, rfl, ?_, nofun⟩
      exact iff_of_true ⟨nofun, rfl, rfl⟩ ⟨nofun, hzero⟩
    next hne =>
      refine ⟨ht, hstores, rfl, ?_, nofun⟩
      exact iff_of_false (fun h => hfail h.2.1) fun h => hne h.2

lemma perform_tryLock (hbase : Aligned m base) (hm : m ≤ 19) (hs : s.Quiet)
    (thread num : Huint) :
    ∃ R, hthreadMutexTrylock base thread num s = some R ∧ Performs ⟨.tryLock, thread, num⟩ s R := by
  obtain ⟨t, hserve, ht, hstores⟩ := Slave.serves_request hs (readBus_tryLock hbase hm thread num)
  simp only [hthreadMutexTrylock, syscallMutexTrylock, mutexTryacquire, readReg, hserve,
    Option.map_some]
  have hfail : failure ≠ success := by decide
  have hbusy : ¬ ebusy = success := by decide
  refine ⟨_, rfl, ht, hstores, rfl, ?_, nofun⟩
  by_cases hdata : ((Request.tryLock (num.setWidth m) (thread.setWidth 8)).effect s.stores).data = 0
  · simp only [hdata, ne_eq, not_true_eq_false, if_false]
    exact iff_of_true ⟨nofun, rfl, rfl⟩ ⟨nofun, hdata⟩
  · simp only [hdata, ne_eq, not_false_eq_true, if_true, hfail]
    exact iff_of_false (fun h => hbusy h.2.1) fun h => hdata h.2

lemma perform_unlock (hbase : Aligned m base) (hm : m ≤ 19) (hs : s.Quiet)
    (thread num : Huint) :
    ∃ R, hthreadMutexUnlock base thread num s = some R ∧ Performs ⟨.unlock, thread, num⟩ s R := by
  obtain ⟨t, hserve, ht, hstores⟩ := Slave.serves_request hs (readBus_unlock hbase hm thread num)
  simp only [hthreadMutexUnlock, syscallMutexUnlock, mutexRelease, readReg, hserve, Option.map_some]
  refine ⟨_, rfl, ht, hstores, rfl, ?_, fun _ => rfl⟩
  exact iff_of_false (fun h => h.1 rfl) fun h => h.1 rfl

lemma perform_spec (hbase : Aligned m base) (hm : m ≤ 19) (hs : s.Quiet) (c : MutexCall) :
    ∃ R, c.perform base s = some R ∧ Performs c s R := by
  obtain ⟨op, thread, num⟩ := c
  cases op with
  | lock => exact perform_lock hbase hm hs thread num
  | tryLock => exact perform_tryLock hbase hm hs thread num
  | unlock => exact perform_unlock hbase hm hs thread num

end Performing

end Hthreads.Software
