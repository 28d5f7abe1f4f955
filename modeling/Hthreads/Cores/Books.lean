import Hthreads.Cores.Wires
import Hthreads.Scheduler.Reset

/-! The thread manager with a scheduler that answers each request at once, that is the composition
without its waiting cycles, and the effect of a whole command on what the two cores remember. Every
definition of an effect collects the table accesses of one path of the state machine. -/

namespace Hthreads.Cores

open Library Library.BitFields Scheduler ThreadManager

structure Managed where
  tm : Swtm
  ready : Tables
  data : ThreadId

namespace Managed

def sch2tm (a : Managed) : Sch2Tm where
  busy := false
  data := a.data
  nextId := a.ready.nextThreadId
  nextIdValid := a.ready.nextThreadValid

def serve (op : TmRequest) (a : Managed) : Managed where
  tm := { a.tm with regs := { a.tm.regs with
    tm2schRequest := false
    tm2schData := 0
    tm2schOpcode := 0
    currentState := a.tm.regs.returnState } }
  ready := (asked a.tm op).effect a.ready
  data := (asked a.tm op).result a.ready

def clock (l : BusLines) (a : Managed) : Managed :=
  match a.tm.regs.currentState with
  | .waitAck op => a.serve op
  | _ => { a with tm := a.tm.clock l a.sch2tm false }

def inState (st : SwtmState) (a : Managed) : Bool := a.tm.regs.currentState == st

-- the cycle in which the bus is acknowledged
def acked (a : Managed) : Bool := a.inState .endTransaction || a.inState .raiseException

def answer (l : BusLines) (a : Managed) : Word := (a.tm.drive l a.sch2tm).ip2busData

/-- The bus holds its lines until it is acknowledged and lets them go in the cycle after. -/
def transact (l : BusLines) (a : Managed) : Option (Managed × Word) :=
  let b := runUntil clock acked (fun _ => l) 600 0 a
  if b.acked then
    some (runUntil clock (inState .idleState) (fun _ => .quiet) 2 0 (b.clock l), b.answer l)
  else none

structure AtRest (a : Managed) : Prop where
  state : a.tm.regs.currentState = .idleState
  request : a.tm.regs.tm2schRequest = false

end Managed

inductive Command
  | createJ
  | createD
  | clear (tid : ThreadId)
  | join (tid : ThreadId)
  | add (tid : ThreadId)
  | next
  | yield
  | exit (tid : ThreadId)
  | isQueued (tid : ThreadId)
  | isDetached (tid : ThreadId)
  | read (tid : ThreadId)
  | current
  deriving DecidableEq

def Command.lines : Command → BusLines
  | createJ => .read cCreateThreadJ 0
  | createD => .read cCreateThreadD 0
  | clear tid => .read cClearThread tid
  | join tid => .read cJoinThread tid
  | add tid => .read cAddThread tid
  | next => .read cNextThread 0
  | yield => .read cYieldThread 0
  | exit tid => .read cExitThread tid
  | isQueued tid => .read cIsQueued tid
  | isDetached tid => .read cIsDetached tid
  | read tid => .read cReadThread tid
  | current => .read cCurrentThread 0

structure Books where
  table : BitVec 9 → Word
  nextId : BitVec 9
  currentCpuThread : BitVec 9
  ready : Tables

namespace Books

def entry (b : Books) (tid : ThreadId) : Word := b.table (threadAddr tid)

def setEntry (b : Books) (tid : ThreadId) (w : Word) : Books :=
  { b with table := Function.update b.table (threadAddr tid) w }

def cpu (b : Books) : ThreadId := slice b.currentCpuThread 0 8

def running (b : Books) (tid : ThreadId) : Bool := entryStatus (b.entry tid) == 0b11

def create (command : BitVec 6) (b : Books) : Books × Word :=
  if bit b.nextId 0 then (b, 1)
  else
    let tid := entryId (b.table b.nextId)
    ({ b.setEntry tid (createdEntry command (b.entry tid) b.cpu) with nextId := b.nextId + 1 },
      0#23 ++ tid ++ 0#1)

-- the id goes back below the top of the stack, in the word of another thread
def deallocate (tid : ThreadId) (b : Books) : Books :=
  if b.nextId ≠ 0 then
    { b with
      table := Function.update b.table (b.nextId - 1) (insert 0 tid (b.table (b.nextId - 1)))
      nextId := b.nextId - 1 }
  else b

def clear (tid : ThreadId) (b : Books) : Books × Word :=
  if entryStatus (b.entry tid) = 0b10 then
    ((b.setEntry tid (entryId (b.entry tid) ++ 0#24)).deallocate tid, 0)
  else (b, withCode (b.entry tid) clearErrorNotUsed)

def join (tid : ThreadId) (b : Books) : Books × Word :=
  let e := b.entry tid
  if joinAllowed e b.currentCpuThread then
    if bit e 27 then (b.setEntry tid (insert 25 1#1 e), 0)
    else (b, 0#28 ++ threadAlreadyTerminated)
  else (b, withCode e (joinError e b.currentCpuThread))

def enqueue (tid : ThreadId) (b : Books) : Books := { b with ready := b.ready.enqueue tid }

def add (tid : ThreadId) (b : Books) : Books × Word :=
  let e := b.entry tid
  if b.running tid then
    if b.ready.queued tid then (b, withCode (insert 8 1#8 e) threadAlreadyQueued)
    else (b.enqueue tid, 0#8 ++ (Request.mk .enqueue tid).result b.ready ++ 0#16)
  else (b, withCode e errorInStatus)

def dispatch (b : Books) : Books :=
  { b with
    currentCpuThread := b.ready.nextThreadId ++ 0#1
    ready := b.ready.dequeue b.ready.nextThreadId }

-- a thread that is not used and running raises an exception, and the bus reads zero
def next (b : Books) : Books × Word :=
  if b.running b.ready.nextThreadId then (b.dispatch, 0#23 ++ b.ready.nextThreadId ++ 0#1)
  else (b, 0)

def yield (b : Books) : Books × Word :=
  if b.running b.cpu then
    if isEncoderZero b.ready.encoderInput then (b, 0#23 ++ b.currentCpuThread)
    else
      let b' := b.enqueue b.cpu
      (b'.dispatch, 0#23 ++ b'.ready.nextThreadId ++ 0#1)
  else (b, withCode (b.entry b.cpu) errorInStatus)

def exit (tid : ThreadId) (b : Books) : Books × Word :=
  let e := b.entry tid
  let b' := b.setEntry tid (insert 26 0b10#2 e)
  if !entryDetached e && entryJoined e then
    if b'.running (entryParent e) then (b'.enqueue (entryParent e), 0)
    else (b', withCode (b'.entry (entryParent e)) errorInStatus)
  else (b', 0)

end Books

/-- The effect of a command and the word it returns. NEXT waits while no thread is announced. -/
def Command.effect (b : Books) : Command → Option (Books × Word)
  | createJ => some (b.create cCreateThreadJ)
  | createD => some (b.create cCreateThreadD)
  | clear tid => some (b.clear tid)
  | join tid => some (b.join tid)
  | add tid => some (b.add tid)
  | next => if b.ready.nextThreadValid then some b.next else none
  | yield => some b.yield
  | exit tid => some (b.exit tid)
  | isQueued tid => some (b, 0#30 ++ BitVec.ofBool (b.ready.queued tid) ++ 0#1)
  | isDetached tid =>
    some (b, if entryDetached (b.entry tid) && entryUsed (b.entry tid) then 0b10 else 0)
  | read tid => some (b, b.entry tid)
  | current => some (b, 0#23 ++ b.currentCpuThread)

namespace Managed

def books (a : Managed) : Books where
  table := a.tm.threadTable.data
  nextId := a.tm.regs.nextId
  currentCpuThread := a.tm.regs.currentCpuThread
  ready := a.ready

def execute (cmd : Command) (a : Managed) : Option (Managed × Word) := a.transact cmd.lines

-- the command ends at rest, with these books and this word on the bus
def Returns (cmd : Command) (a : Managed) (b : Books) (w : Word) : Prop :=
  ∃ a', a.execute cmd = some (a', w) ∧ a'.AtRest ∧ a'.books = b

end Managed

end Hthreads.Cores
