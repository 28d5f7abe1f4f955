import Hthreads.ThreadManager.Registers

/-! The states of the thread manager. Some work on the thread table alone: soft reset, READ, CREATE,
CLEAR, JOIN and IS_DETACHED. The others ask the scheduler: IS_QUEUED, NEXT, ADD, YIELD and EXIT each
raise a request, wait for busy, wait for the end of busy and go on in their return state. In these
definitions `r` holds the register values that are kept by default. -/

namespace Hthreads.ThreadManager

open Library Library.BitFields Scheduler

def threadAlreadyTerminated : BitVec 4 := 0b0011
def joinErrorChildJoined : BitVec 4 := 0b1001
def joinErrorNotChild : BitVec 4 := 0b1011
def joinErrorChildDetached : BitVec 4 := 0b1101
def joinErrorChildNotUsed : BitVec 4 := 0b1111
def joinErrorUnknown : BitVec 4 := 0b0001
def clearErrorNotUsed : BitVec 4 := 0b1001

def exceptionToSoftReset : BitVec 4 := 0b0011
def exceptionIllegalState : BitVec 4 := 0b1111

def cCreateThreadD : BitVec 6 := 0b000110

-- the fields of a table entry
def entryId (entry : Word) : ThreadId := slice entry 0 8
def entryParent (entry : Word) : ThreadId := slice entry 16 8
def entryDetached (entry : Word) : Bool := bit entry 24
def entryJoined (entry : Word) : Bool := bit entry 25
def entryUsed (entry : Word) : Bool := bit entry 26

/-- `DOA(26 to 27)`: used, and not exited. -/
def entryStatus (entry : Word) : BitVec 2 := slice entry 26 2

/-- `DOA(0 to 27) & code`. -/
def withCode (entry : Word) (code : BitVec 4) : Word := insert 28 code entry

def finish (r : Registers) (data : Word) : Drive :=
  { next := { r with busDataOut := data, currentState := .endTransaction } }

def raise (r : Registers) (cause : BitVec 4) : Drive :=
  { next := { r with exceptionCause := cause, currentState := .raiseException } }

def readEntry (r : Registers) (tid : ThreadId) (s : SwtmState) : Drive :=
  { next := { r with currentState := s }
    a := .read (threadAddr tid) }

def softResetLogic (x : Signals) (r : Registers) : SoftResetState → Drive
  | .writeInit =>
    let r := { r with
      softResets := slice x.lines.bus2ipData 27 5
      resetStatus := 0
      swtmResetDone := false }
    if bit x.lines.bus2ipData 31 then
      { next := { r with
          busDataOut := 0
          newId := 0
          nextId := 0
          currentCpuThread := 0b000000001
          coreStop := false
          tm2schOpcode := 0
          tm2schData := 0
          tm2schRequest := false
          currentState := .softReset .initTable } }
    else { next := { r with currentState := .softReset .wait } }
  | .initTable =>
    { next :=
        if x.resetId = BitVec.allOnes 9 then
          { r with swtmResetDone := true, currentState := .softReset .wait }
        else r
      a := .write x.resetId (if bit x.resetId 0 then 0 else slice x.resetId 1 8 ++ 0#24) }
  | .wait =>
    if x.resetsDone = r.softResets then { next := { r with currentState := .endTransaction } }
    else if timeoutExpired then
      raise { r with resetStatus := x.resetsDone ^^^ r.softResets } exceptionToSoftReset
    else { next := r }

def readThreadLogic (x : Signals) (r : Registers) : EntryState → Drive
  | .init => readEntry r x.lines.threadId (.readThread .rdWait)
  | .rdWait => { next := { r with currentState := .readThread .available } }
  | .available => finish r x.doa

-- the status a new thread gets: used and running, detached or the child of the current thread
def createdEntry (command : BitVec 6) (entry : Word) (cpu : ThreadId) : Word :=
  if command = cCreateThreadD then entryId entry ++ 0#8 ++ 0#8 ++ 0b1011#4 ++ 0#4
  else entryId entry ++ 0#8 ++ cpu ++ 0b0011#4 ++ 0#4

def createThreadLogic (x : Signals) (r : Registers) : CreateThreadState → Drive
  | .init =>
    if bit r.nextId 0 then finish r 1
    else
      { next := { r with currentState := .createThread .newIdRdWait }
        a := .read r.nextId }
  | .newIdRdWait => { next := { r with currentState := .createThread .newIdAvailable } }
  | .newIdAvailable =>
    readEntry { r with newId := entryId x.doa } (entryId x.doa) (.createThread .entryRdWait)
  | .entryRdWait => { next := { r with currentState := .createThread .entryAvailable } }
  | .entryAvailable =>
    { next := { r with currentState := .createThread .done }
      a := .write (threadAddr r.newId) (createdEntry x.lines.command x.doa r.cpuThreadId) }
  | .done => finish { r with nextId := r.nextId + 1 } (0#23 ++ r.newId ++ 0#1)

def clearThreadLogic (x : Signals) (r : Registers) : ClearThreadState → Drive
  | .init => readEntry r x.lines.threadId (.clearThread .entryRdWait)
  | .entryRdWait => { next := { r with currentState := .clearThread .entryAvailable } }
  | .entryAvailable =>
    if entryStatus x.doa = 0b10 then
      { next := { r with
          busDataOut := 0
          currentState := .clearThread .deallocateId }
        a := .write (threadAddr x.lines.threadId) (entryId x.doa ++ 0#24) }
    else finish r (withCode x.doa clearErrorNotUsed)
  | .deallocateId =>
    if r.nextId ≠ 0 then
      { next := { r with
          nextId := r.nextId - 1
          currentState := .clearThread .deallocateNextEntryRdWait }
        a := .read (r.nextId - 1) }
    else { next := { r with currentState := .endTransaction } }
  | .deallocateNextEntryRdWait =>
    { next := { r with currentState := .clearThread .deallocateNextEntryAvail } }
  | .deallocateNextEntryAvail =>
    { next := { r with currentState := .endTransaction }
      a := .write r.nextId (insert 0 x.lines.threadId x.doa) }

-- the child of the current thread, neither detached nor joined, not unused
def joinAllowed (entry : Word) (currentCpuThread : BitVec 9) : Bool :=
  entryParent entry ++ 0#1 == currentCpuThread && !entryDetached entry && !entryJoined entry &&
    entryStatus entry != 0

def joinError (entry : Word) (currentCpuThread : BitVec 9) : BitVec 4 :=
  if entryDetached entry then joinErrorChildDetached
  else if entryJoined entry then joinErrorChildJoined
  else if !entryUsed entry then joinErrorChildNotUsed
  else if entryParent entry ++ 0#1 ≠ currentCpuThread then joinErrorNotChild
  else joinErrorUnknown

def joinThreadLogic (x : Signals) (r : Registers) : EntryState → Drive
  | .init => readEntry r x.lines.threadId (.joinThread .rdWait)
  | .rdWait => { next := { r with currentState := .joinThread .available } }
  | .available =>
    if joinAllowed x.doa r.currentCpuThread then
      if bit x.doa 27 then
        { finish r 0 with
          a := .write (threadAddr x.lines.threadId) (insert 25 1#1 x.doa) }
      else finish r (0#28 ++ threadAlreadyTerminated)
    else finish r (withCode x.doa (joinError x.doa r.currentCpuThread))

def isDetachedLogic (x : Signals) (r : Registers) : EntryState → Drive
  | .init => readEntry r x.lines.threadId (.isDetached .rdWait)
  | .rdWait => { next := { r with currentState := .isDetached .available } }
  | .available => finish r (if entryDetached x.doa && entryUsed x.doa then 0b10 else 0)

def errorInStatus : BitVec 4 := 0b0001
def threadAlreadyQueued : BitVec 4 := 0b0101
def errorFromScheduler : BitVec 4 := 0b0111

def exceptionToSchdIsQueued : BitVec 4 := 0b0100
def exceptionToSchdEnqueue : BitVec 4 := 0b0101
def exceptionToSchdDequeue : BitVec 4 := 0b0110
def exceptionToSchdIsEmpty : BitVec 4 := 0b0111
def exceptionToSchdNextThread : BitVec 4 := 0b1000
def exceptionSchdInvalidThread : BitVec 4 := 0b1001

def opcode : TmRequest → BitVec 6
  | .isQueued => 0b000001
  | .enqueue => 0b000010
  | .dequeue => 0b000011
  | .isEmpty => 0b000110

def exceptionToSchd : TmRequest → BitVec 4
  | .isQueued => exceptionToSchdIsQueued
  | .enqueue => exceptionToSchdEnqueue
  | .dequeue => exceptionToSchdDequeue
  | .isEmpty => exceptionToSchdIsEmpty

def ask (r : Registers) (op : TmRequest) (data : ThreadId) (s : SwtmState) : Drive :=
  { next := { r with
      tm2schOpcode := opcode op
      tm2schRequest := true
      tm2schData := data
      currentState := .waitAck op
      returnState := s } }

def waitAckLogic (x : Signals) (r : Registers) (op : TmRequest) : Drive :=
  if !x.sch.busy then { next := r }
  else if timeoutExpired then raise r (exceptionToSchd op)
  else
    { next := { r with
        tm2schRequest := false
        tm2schData := 0
        tm2schOpcode := 0
        currentState := .waitComplete op } }

def waitCompleteLogic (x : Signals) (r : Registers) (op : TmRequest) : Drive :=
  if x.sch.busy then { next := r }
  else if timeoutExpired then raise r (exceptionToSchd op)
  else
    { next := { r with
        tm2schData := 0
        tm2schOpcode := 0
        currentState := r.returnState } }

def isQueuedLogic (x : Signals) (r : Registers) : IsQueuedState → Drive
  | .init => ask r .isQueued x.lines.threadId (.isQueued .done)
  | .done => finish r (0#23 ++ x.sch.data ++ 0#1)

-- the error of the scheduler, or the current thread
def dispatched (x : Signals) (r : Registers) : Drive :=
  if bit x.sch.data 7 then finish r (0#28 ++ errorFromScheduler)
  else finish r (0#23 ++ r.cpuThreadId ++ 0#1)

def nextThreadLogic (x : Signals) (r : Registers) : NextThreadState → Drive
  | .init =>
    if x.sch.nextIdValid then readEntry r x.sch.nextId (.nextThread .rdWait)
    else { next := { r with currentState := .nextThread .wait4Scheduler } }
  | .wait4Scheduler =>
    if x.sch.nextIdValid then readEntry r x.sch.nextId (.nextThread .rdWait)
    else if timeoutExpired then raise r exceptionToSchdNextThread
    else { next := r }
  | .rdWait => { next := { r with currentState := .nextThread .available } }
  | .available =>
    if entryStatus x.doa = 0b11 then
      ask { r with currentCpuThread := x.sch.nextId ++ 0#1 } .dequeue 0 (.nextThread .checkDequeue)
    else
      raise { r with busDataOut := 0#23 ++ x.sch.nextId ++ 1#1 } exceptionSchdInvalidThread
  | .checkDequeue => dispatched x r

def addThreadLogic (x : Signals) (r : Registers) : AddThreadState → Drive
  | .init => readEntry r x.lines.threadId (.addThread .entryRdWait)
  | .entryRdWait => { next := { r with currentState := .addThread .entryAvailable } }
  | .entryAvailable =>
    if entryStatus x.doa = 0b11 then
      ask r .isQueued x.lines.threadId (.addThread .checkIsQueue)
    else finish r (withCode x.doa errorInStatus)
  | .checkIsQueue =>
    if !bit x.sch.data 7 then ask r .enqueue x.lines.threadId (.addThread .checkEnqueue)
    else finish r (withCode (insert 8 x.sch.data x.doa) threadAlreadyQueued)
  | .checkEnqueue =>
    if bit x.sch.data 7 then finish r (0#8 ++ x.sch.data ++ 0#12 ++ errorFromScheduler)
    else finish r (0#8 ++ x.sch.data ++ 0#16)
  -- declared but without a branch in the source
  | .isQueuedWait | .enqueueWait => raise r exceptionIllegalState

def yieldThreadLogic (x : Signals) (r : Registers) : YieldThreadState → Drive
  | .init => readEntry r r.cpuThreadId (.yieldThread .currentThreadRdWait)
  | .currentThreadRdWait =>
    { next := { r with currentState := .yieldThread .currentThreadAvailable } }
  -- the source's comment says used, not exited and not queued; the queue bit is not looked at
  | .currentThreadAvailable =>
    if entryStatus x.doa = 0b11 then ask r .isEmpty 0 (.yieldThread .checkQueueEmpty)
    else finish r (withCode x.doa errorInStatus)
  | .checkQueueEmpty =>
    if bit x.sch.data 7 then finish r (0#23 ++ r.currentCpuThread)
    else { next := { r with currentState := .yieldThread .enqueue } }
  | .enqueue => ask r .enqueue r.cpuThreadId (.yieldThread .checkEnqueue)
  | .checkEnqueue =>
    if !bit x.sch.data 7 then
      { next := { r with
          currentCpuThread := x.sch.nextId ++ 0#1
          currentState := .yieldThread .dequeue } }
    else finish r (0#28 ++ errorFromScheduler)
  | .dequeue => ask r .dequeue 0 (.yieldThread .checkDequeue)
  | .checkDequeue => dispatched x r

def exitThreadLogic (x : Signals) (r : Registers) : ExitThreadState → Drive
  | .init => readEntry { r with busDataOut := 0 } x.lines.threadId (.exitThread .rdWait)
  | .rdWait => { next := { r with currentState := .exitThread .available } }
  -- detached, joined or neither: the entry becomes used and exited, also if it was not used
  | .available =>
    { next := { r with
        currentStatus := x.doa
        currentState :=
          if entryDetached x.doa then .endTransaction
          else if entryJoined x.doa then .exitThread .readParent
          else .endTransaction }
      a := .write (threadAddr x.lines.threadId) (insert 26 0b10#2 x.doa) }
  | .readParent => readEntry r (entryParent r.currentStatus) (.exitThread .readParentWait)
  | .readParentWait => { next := { r with currentState := .exitThread .readParentAvailable } }
  | .readParentAvailable =>
    if entryStatus x.doa = 0b11 then
      ask r .enqueue (entryParent r.currentStatus) (.exitThread .checkEnqueue)
    else finish r (withCode x.doa errorInStatus)
  | .checkEnqueue =>
    if bit x.sch.data 7 then finish r (0#28 ++ errorFromScheduler) else finish r 0
  -- declared but without a branch in the source
  | .deallocate | .nextThreadRdWait | .nextThreadAvailable => raise r exceptionIllegalState

end Hthreads.ThreadManager
