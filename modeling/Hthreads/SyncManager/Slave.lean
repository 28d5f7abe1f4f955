import Hthreads.SyncManager.Entries

/-! The slave side of the synchronization manager (`slave.vhd`): seven controllers, one for each
command (`lock_fsm.vhd`, `unlock_fsm.vhd`, `trylock_fsm.vhd`, `owner_fsm.vhd`, `kind_fsm.vhd`,
`count_fsm.vhd`, `result_fsm.vhd`), over a mutex store and a thread store. -/

namespace Hthreads.SyncManager

open Library Library.BitFields Scheduler

variable {m : ℕ}

inductive LockState
  | idle
  | read
  | done
  | update
  deriving DecidableEq

inductive UnlockState
  | idle
  | readMutex
  | doneMutex
  | readThread
  | doneThread
  deriving DecidableEq

/-- The states of the controllers that only look at a mutex entry. -/
inductive ReadState
  | idle
  | read
  | done
  deriving DecidableEq

structure UnlockRegs where
  cs : UnlockState
  holdMinext : ThreadId

structure ResultRegs where
  results : Word
  data : Word
  finish : Bool

-- `IDLE` of every controller: a start reads the entry of the addressed mutex
def awaitStart {σ : Type} (x : Signals m) (idle read : σ) : Drive m σ :=
  if x.start then { next := read, mutex := .read x.mutex } else { next := idle }

def lockController (x : Signals m) : LockState → Drive m LockState
  | .idle => awaitStart x .idle .read
  | .read => { next := .done }
  | .done =>
    if x.entry.count = 0 then
      { next := .idle, finish := true
        mutex := .write x.mutex ⟨x.thread, x.thread, x.thread, x.entry.kind, 1⟩ }
    else if x.entry.kind = synchError ∧ x.entry.owner = x.thread then
      { next := .idle, finish := true, data := errorData }
    else if x.entry.kind = synchRecurs ∧ x.entry.owner = x.thread then
      { next := .idle, finish := true
        mutex := .write x.mutex { x.entry with count := x.entry.count + 1 } }
    else if x.entry.next = x.entry.owner then
      { next := .idle, finish := true, data := blockData
        mutex := .write x.mutex { x.entry with next := x.thread, last := x.thread }
        thread := .write x.thread x.thread }
    else
      { next := .update
        mutex := .write x.mutex { x.entry with last := x.thread }
        thread := .write x.entry.last x.thread }
  | .update =>
    { next := .idle, finish := true, data := blockData
      thread := .write x.thread x.thread }

def tryController (x : Signals m) : ReadState → Drive m ReadState
  | .idle => awaitStart x .idle .read
  | .read => { next := .done }
  | .done =>
    if x.entry.count = 0 then
      { next := .idle, finish := true
        mutex := .write x.mutex ⟨x.thread, x.thread, x.thread, x.entry.kind, 1⟩ }
    else if x.entry.kind = synchRecurs ∧ x.entry.owner = x.thread then
      { next := .idle, finish := true
        mutex := .write x.mutex { x.entry with count := x.entry.count + 1 } }
    else
      { next := .idle, finish := true, data := blockData }

/-- The thread that issues the command is not looked at. -/
def unlockController (x : Signals m) (r : UnlockRegs) : Drive m UnlockRegs :=
  match r.cs with
  | .idle => awaitStart x ⟨.idle, 0⟩ ⟨.readMutex, 0⟩
  | .readMutex => { next := ⟨.doneMutex, 0⟩ }
  | .doneMutex =>
    if x.entry.kind = synchRecurs ∧ x.entry.count ≠ 1 ∧ x.entry.count ≠ 0 then
      { next := ⟨.idle, 0⟩, finish := true
        mutex := .write x.mutex { x.entry with count := x.entry.count - 1 } }
    else if x.entry.count = 1 then
      if x.entry.last = x.entry.owner then
        { next := ⟨.idle, 0⟩, finish := true
          mutex := .write x.mutex ⟨0, 0, 0, x.entry.kind, 0⟩ }
      else
        { next := ⟨.readThread, x.entry.next⟩, thread := .read x.entry.next }
    else
      { next := ⟨.idle, 0⟩, finish := true, data := errorData }
  | .readThread => { next := ⟨.doneThread, r.holdMinext⟩ }
  | .doneThread =>
    { next := ⟨.idle, 0⟩, finish := true
      mutex := .write x.mutex ⟨r.holdMinext, x.tinext, x.entry.last, x.entry.kind, 1⟩ }

-- the send port: `sena` and `sid`
def UnlockRegs.sent (r : UnlockRegs) : Option ThreadId :=
  match r.cs with
  | .doneThread => some r.holdMinext
  | _ => none

def ownerController (x : Signals m) : ReadState → Drive m ReadState
  | .idle => awaitStart x .idle .read
  | .read => { next := .done }
  | .done => { next := .idle, finish := true, data := x.entry.owner.setWidth 32 }

def countController (x : Signals m) : ReadState → Drive m ReadState
  | .idle => awaitStart x .idle .read
  | .read => { next := .done }
  | .done => { next := .idle, finish := true, data := x.entry.count.setWidth 32 }

def kindController (x : Signals m) (rnw : Bool) (datain : Word) : ReadState → Drive m ReadState
  | .idle => awaitStart x .idle .read
  | .read => { next := .done }
  | .done =>
    if rnw then { next := .idle, finish := true, data := x.entry.kind.setWidth 32 }
    else
      { next := .idle, finish := true
        mutex := .write x.mutex { x.entry with kind := kndNumber datain } }

-- the outputs of this controller are registered, and it stores on a read
def resultController (start rnw : Bool) (datain : Word) (r : ResultRegs) : ResultRegs where
  results := if start && rnw then datain else r.results
  data := if start && !rnw then r.results else 0
  finish := start

structure Slave (m : ℕ) where
  lock : LockState
  unlock : UnlockRegs
  tryLock : ReadState
  owner : ReadState
  kind : ReadState
  count : ReadState
  result : ResultRegs
  mutexes : Store m MutexEntry
  threads : Store 8 ThreadId

namespace Slave

variable {m : ℕ}

def signals (b : Bus) (s : Slave m) (c : Command) : Signals m where
  start := b.start c
  mutex := mtxNumber m b.addr
  thread := thrNumber m b.addr
  entry := s.mutexes.dout
  tinext := s.threads.dout

def lockDrive (b : Bus) (s : Slave m) : Drive m LockState :=
  lockController (s.signals b .lock) s.lock

def unlockDrive (b : Bus) (s : Slave m) : Drive m UnlockRegs :=
  unlockController (s.signals b .unlock) s.unlock

def tryDrive (b : Bus) (s : Slave m) : Drive m ReadState :=
  tryController (s.signals b .tryLock) s.tryLock

def ownerDrive (b : Bus) (s : Slave m) : Drive m ReadState :=
  ownerController (s.signals b .owner) s.owner

def kindDrive (b : Bus) (s : Slave m) : Drive m ReadState :=
  kindController (s.signals b .kind) b.rnw b.data s.kind

def countDrive (b : Bus) (s : Slave m) : Drive m ReadState :=
  countController (s.signals b .count) s.count

def ack (b : Bus) (s : Slave m) : Bool :=
  (s.lockDrive b).finish || (s.unlockDrive b).finish || (s.tryDrive b).finish ||
    (s.ownerDrive b).finish || (s.countDrive b).finish || (s.kindDrive b).finish || s.result.finish

def ip2busData (b : Bus) (s : Slave m) : Word :=
  (s.lockDrive b).data ||| (s.unlockDrive b).data ||| (s.tryDrive b).data |||
    (s.ownerDrive b).data ||| (s.countDrive b).data ||| (s.kindDrive b).data ||| s.result.data

def mutexAccess (b : Bus) (s : Slave m) : Access m MutexEntry :=
  (s.lockDrive b).mutex ||| (s.unlockDrive b).mutex ||| (s.tryDrive b).mutex |||
    (s.ownerDrive b).mutex ||| (s.countDrive b).mutex ||| (s.kindDrive b).mutex

def threadAccess (b : Bus) (s : Slave m) : Access 8 ThreadId :=
  (s.lockDrive b).thread ||| (s.unlockDrive b).thread ||| (s.tryDrive b).thread |||
    (s.ownerDrive b).thread ||| (s.countDrive b).thread ||| (s.kindDrive b).thread

def clock (b : Bus) (s : Slave m) : Slave m where
  lock := (s.lockDrive b).next
  unlock := (s.unlockDrive b).next
  tryLock := (s.tryDrive b).next
  owner := (s.ownerDrive b).next
  kind := (s.kindDrive b).next
  count := (s.countDrive b).next
  result := resultController (b.start .result) b.rnw b.data s.result
  mutexes := s.mutexes.clock false (s.mutexAccess b)
  threads := s.threads.clock false (s.threadAccess b)

/-- A cycle in which the bus reset or the system reset is raised. -/
def reset (b : Bus) (s : Slave m) : Slave m where
  lock := .idle
  unlock := ⟨.idle, 0⟩
  tryLock := .idle
  owner := .idle
  kind := .idle
  count := .idle
  result := ⟨0, 0, false⟩
  mutexes := s.mutexes.clock true (s.mutexAccess b)
  threads := s.threads.clock true (s.threadAccess b)

def powerUp : Slave m where
  lock := .idle
  unlock := ⟨.idle, 0⟩
  tryLock := .idle
  owner := .idle
  kind := .idle
  count := .idle
  result := ⟨0, 0, false⟩
  mutexes := ⟨.off, fun _ => 0, 0, false, 0⟩
  threads := ⟨.off, fun _ => 0, 0, false, 0⟩

/-- No controller is busy. A write may still stand in a port register. -/
structure Quiet (s : Slave m) : Prop where
  lock : s.lock = .idle
  unlock : s.unlock = ⟨.idle, 0⟩
  tryLock : s.tryLock = .idle
  owner : s.owner = .idle
  kind : s.kind = .idle
  count : s.count = .idle
  finish : s.result.finish = false
  data : s.result.data = 0

/-- A bus transaction holds its lines until the acknowledge. The result is the data word with
the ids named on the send port meanwhile. -/
def serve (b : Bus) : ℕ → Slave m → Option (Word × List ThreadId × Slave m)
  | 0, _ => none
  | n + 1, s =>
    if s.ack b then some (s.ip2busData b, s.unlock.sent.toList, s.clock b)
    else (serve b n (s.clock b)).map fun (data, ids, t) => (data, s.unlock.sent.toList ++ ids, t)

lemma Quiet.clock_idle {s : Slave m} (h : s.Quiet) : (s.clock .idle).Quiet := by
  constructor <;>
    simp [clock, lockDrive, unlockDrive, tryDrive, ownerDrive, kindDrive, countDrive, signals,
      lockController, unlockController, tryController, ownerController, kindController,
      countController, resultController, awaitStart, h.lock, h.unlock, h.tryLock, h.owner, h.kind,
      h.count]

end Slave

end Hthreads.SyncManager
