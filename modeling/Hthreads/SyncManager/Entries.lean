import Hthreads.Library.BitFields
import Hthreads.Library.Store
import Hthreads.Scheduler.Entries

/-! Mutex entries, bus requests and the lines between the controllers of the synchronization
manager and its stores (`slave.vhd`, `mutex_store.vhd`, `common.vhd`). -/

namespace Hthreads.SyncManager

open Library Library.BitFields Scheduler

@[ext] structure MutexEntry where
  owner : ThreadId
  next : ThreadId
  last : ThreadId
  kind : BitVec 2
  count : BitVec 8
  deriving DecidableEq

namespace MutexEntry

instance : Zero MutexEntry := ⟨⟨0, 0, 0, 0, 0⟩⟩

instance : OrOp MutexEntry where
  or e f := ⟨e.owner ||| f.owner, e.next ||| f.next, e.last ||| f.last, e.kind ||| f.kind,
    e.count ||| f.count⟩

lemma or_def (e f : MutexEntry) :
    e ||| f = ⟨e.owner ||| f.owner, e.next ||| f.next, e.last ||| f.last, e.kind ||| f.kind,
      e.count ||| f.count⟩ := rfl

lemma zero_def : (0 : MutexEntry) = ⟨0, 0, 0, 0, 0⟩ := rfl

@[simp] lemma zero_or (e : MutexEntry) : 0 ||| e = e := by
  simp [or_def, zero_def]

@[simp] lemma or_zero (e : MutexEntry) : e ||| 0 = e := by
  simp [or_def, zero_def]

end MutexEntry

def synchFast : BitVec 2 := 0b00
def synchRecurs : BitVec 2 := 0b01
def synchError : BitVec 2 := 0b10

-- the data lines `data(0)` and `data(1)`
def errorData : Word := 0x80000000
def blockData : Word := 0x40000000

inductive Command
  | lock
  | unlock
  | tryLock
  | owner
  | kind
  | count
  | result
  deriving DecidableEq

/-- One cycle of the slave bus. The address ranges do not overlap, so at most one chip select
is raised. -/
structure Bus where
  select : Option Command
  addr : Word
  data : Word
  rnw : Bool

def Bus.idle : Bus := ⟨none, 0, 0, true⟩

def Bus.start (b : Bus) (c : Command) : Bool := b.select == some c

@[simp] lemma Bus.idle_start (c : Command) : Bus.idle.start c = false := rfl

variable (m : ℕ)

def mtxNumber (addr : Word) : BitVec m := slice addr (30 - m) m
def thrNumber (addr : Word) : ThreadId := slice addr (22 - m) 8
def kndNumber (data : Word) : BitVec 2 := slice data 30 2

structure Signals where
  start : Bool
  mutex : BitVec m
  thread : ThreadId
  entry : MutexEntry
  tinext : ThreadId

structure Drive (σ : Type) where
  next : σ
  finish : Bool := false
  data : Word := 0
  mutex : Access m MutexEntry := .off
  thread : Access 8 ThreadId := .off

variable {m}

@[simp] lemma mutex_off_or (p : Access m MutexEntry) : Access.off ||| p = p :=
  Access.off_or MutexEntry.zero_or p

@[simp] lemma mutex_or_off (p : Access m MutexEntry) : p ||| Access.off = p :=
  Access.or_off MutexEntry.or_zero p

@[simp] lemma thread_off_or (p : Access 8 ThreadId) : Access.off ||| p = p :=
  Access.off_or (fun _ => BitVec.zero_or) p

@[simp] lemma thread_or_off (p : Access 8 ThreadId) : p ||| Access.off = p :=
  Access.or_off (fun _ => BitVec.or_zero) p

end Hthreads.SyncManager
