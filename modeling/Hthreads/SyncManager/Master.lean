import Hthreads.SyncManager.Slave

/-! The master side of the synchronization manager: a queue of threads to wake, kept in the send
store, and a controller that reads ADD_THREAD from the thread manager for one of them at a time
(`master.vhd`, `send_store.vhd`). -/

namespace Hthreads.SyncManager

open Library Library.BitFields Scheduler

inductive QueueState
  | idle
  | done
  | getWait
  | getDone
  deriving DecidableEq

inductive SendState
  | idle
  | sending
  | finish
  deriving DecidableEq

structure Master where
  queue : QueueState
  sendCount : BitVec 8
  sendFirst : ThreadId
  sendLast : ThreadId
  sendCur : ThreadId
  sendValid : Bool
  send : SendState
  mstCmplt : Bool
  store : Store 8 ThreadId

structure MstBus where
  cmdAck : Bool
  cmplt : Bool
  deriving DecidableEq

namespace Master

def sendRdy (M : Master) : Bool := M.send == .idle

/-- `queue_controller`, with the access it makes to the send store. A hand-off is looked at in
`IDLE` only. -/
def queueController (sent : Option ThreadId) (M : Master) : Master × Access 8 ThreadId :=
  match M.queue with
  | .idle =>
    match sent with
    | some id =>
      if M.sendCount = 0 then
        ({ M with sendFirst := id, sendLast := id, sendCount := M.sendCount + 1
                  sendValid := false, queue := .done }, .off)
      else
        ({ M with sendLast := id, sendCount := M.sendCount + 1, sendValid := false
                  queue := .done }, .write M.sendLast id)
    | none =>
      if M.sendRdy && M.sendCount != 0 then
        ({ M with sendCur := M.sendFirst, sendValid := true, queue := .getWait },
          .read M.sendFirst)
      else ({ M with sendValid := false }, .off)
  | .done => ({ M with sendValid := false, queue := if sent.isSome then .done else .idle }, .off)
  | .getWait => ({ M with sendValid := false, queue := .getDone }, .off)
  | .getDone =>
    ({ M with sendFirst := M.store.dout, sendCount := M.sendCount - 1, sendValid := false
              queue := .idle }, .off)

/-- `send_controller`. The latch `mst_cmplt` takes a completion that comes while the request is
still up, and is never cleared. -/
def sendController (w : MstBus) (M : Master) : SendState × Bool :=
  match M.send with
  | .idle => (if M.sendValid then .sending else .idle, M.mstCmplt)
  | .sending => (if w.cmdAck then .finish else .sending, M.mstCmplt || w.cmplt)
  | .finish => (if M.mstCmplt || w.cmplt then .idle else .finish, M.mstCmplt)

section SendController

variable {w : MstBus} {M : Master}

lemma sendController_idle (h : M.send = .idle) :
    M.sendController w = (if M.sendValid then .sending else .idle, M.mstCmplt) := by
  rw [sendController, h]

lemma sendController_sending (h : M.send = .sending) :
    M.sendController w = (if w.cmdAck then .finish else .sending, M.mstCmplt || w.cmplt) := by
  rw [sendController, h]

lemma sendController_finish (h : M.send = .finish) :
    M.sendController w = (if M.mstCmplt || w.cmplt then .idle else .finish, M.mstCmplt) := by
  rw [sendController, h]

end SendController

/-- `add_thread`: the address of ADD_THREAD for a thread. -/
def addThread (base : Word) (tid : ThreadId) : Word :=
  slice base 0 17 ++ 0b00100#5 ++ tid ++ slice base 30 2

/-- The address lines of the bus while the read request is raised. -/
def mstRd (base : Word) (w : MstBus) (M : Master) : Option Word :=
  if M.send = .sending ∧ w.cmdAck = false then some (addThread base M.sendCur) else none

def clock (sent : Option ThreadId) (w : MstBus) (M : Master) : Master :=
  { (M.queueController sent).1 with
    send := (M.sendController w).1
    mstCmplt := (M.sendController w).2
    store := M.store.clock false (M.queueController sent).2 }

/-- The master after a reset. The latch has no reset, and the send store may hold anything. -/
structure AtRest (M : Master) : Prop where
  queue : M.queue = .idle
  sendCount : M.sendCount = 0
  sendValid : M.sendValid = false
  send : M.send = .idle

end Master

/-- The whole core with what can be observed of it: the address lines of the last cycle, the ids
handed off so far, and the reads issued so far. -/
structure Watched (m : ℕ) where
  slave : Slave m
  master : Master
  lines : Option Word
  handed : List ThreadId
  reads : List Word

namespace Watched

variable {m : ℕ}

/-- A read is issued in the first cycle of its request. -/
def clock (base : Word) (b : Bus) (w : MstBus) (x : Watched m) : Watched m where
  slave := x.slave.clock b
  master := x.master.clock x.slave.unlock.sent w
  lines := x.master.mstRd base w
  handed := x.handed ++ x.slave.unlock.sent.toList
  reads := x.reads ++ if x.lines = none then (x.master.mstRd base w).toList else []

def start (s : Slave m) (M : Master) : Watched m := ⟨s, M, none, [], []⟩

def inProgress (x : Watched m) : List ThreadId :=
  if x.master.send = .idle then [] else [x.master.sendCur]

def pending (x : Watched m) : List ThreadId := x.handed.drop x.reads.length ++ x.inProgress

/-- A hand-off in this cycle finds the queue controller in a state that looks at it, and room in
the count. -/
def Heard (x : Watched m) : Prop :=
  x.slave.unlock.sent.isSome →
    x.master.queue ≠ .getWait ∧ x.master.queue ≠ .getDone ∧ x.master.sendCount ≠ 255

end Watched

end Hthreads.SyncManager
