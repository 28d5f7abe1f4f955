import Hthreads.Library.Bram
import Hthreads.Scheduler.Core

/-! Ports, registers and driven signals of the thread manager core (`user_logic.vhd`). -/

namespace Hthreads.ThreadManager

open Library Library.BitFields Scheduler

inductive SoftResetState
  | writeInit
  | initTable
  | wait
  deriving DecidableEq

/-- The three states of `READ_THREAD`, `JOIN_THREAD` and `IS_DETACHED`: the read of a table
entry, one cycle of waiting, and the entry in the output register. -/
inductive EntryState
  | init
  | rdWait
  | available
  deriving DecidableEq

inductive CreateThreadState
  | init
  | newIdRdWait
  | newIdAvailable
  | entryRdWait
  | entryAvailable
  | done
  deriving DecidableEq

inductive ClearThreadState
  | init
  | entryRdWait
  | entryAvailable
  | deallocateId
  | deallocateNextEntryRdWait
  | deallocateNextEntryAvail
  deriving DecidableEq

inductive IsQueuedState
  | init
  | done
  deriving DecidableEq

inductive NextThreadState
  | init
  | wait4Scheduler
  | rdWait
  | available
  | checkDequeue
  deriving DecidableEq

inductive AddThreadState
  | init
  | entryRdWait
  | entryAvailable
  | isQueuedWait
  | checkIsQueue
  | enqueueWait
  | checkEnqueue
  deriving DecidableEq

inductive YieldThreadState
  | init
  | currentThreadRdWait
  | currentThreadAvailable
  | checkQueueEmpty
  | enqueue
  | checkEnqueue
  | dequeue
  | checkDequeue
  deriving DecidableEq

inductive ExitThreadState
  | init
  | rdWait
  | available
  | deallocate
  | nextThreadRdWait
  | nextThreadAvailable
  | readParent
  | readParentWait
  | readParentAvailable
  | checkEnqueue
  deriving DecidableEq

/-- The four pairs `*_WAIT_ACK`, `*_WAIT_COMPLETE` carry the request they wait for. -/
inductive SwtmState
  | idleState
  | softReset (s : SoftResetState)
  | readThread (s : EntryState)
  | createThread (s : CreateThreadState)
  | clearThread (s : ClearThreadState)
  | joinThread (s : EntryState)
  | isQueued (s : IsQueuedState)
  | isDetached (s : EntryState)
  | nextThread (s : NextThreadState)
  | addThread (s : AddThreadState)
  | waitAck (op : TmRequest)
  | waitComplete (op : TmRequest)
  | yieldThread (s : YieldThreadState)
  | exitThread (s : ExitThreadState)
  | raiseException
  | endTransaction
  | endTransactionWait
  deriving DecidableEq

/-- The registers of `SWTM_STATE_PROC`. The last bit of `currentCpuThread` says invalid. -/
structure Registers where
  currentState : SwtmState
  returnState : SwtmState
  coreStop : Bool
  newId : ThreadId
  nextId : BitVec 9
  currentCpuThread : BitVec 9
  tm2schRequest : Bool
  tm2schData : ThreadId
  tm2schOpcode : BitVec 6
  currentStatus : Word
  exceptionAddress : Word
  exceptionCause : BitVec 4
  softResets : BitVec 5
  resetStatus : BitVec 5
  swtmResetDone : Bool
  busDataOut : Word

/-- The bus ports and the reset acknowledgements of the other cores during one cycle. -/
structure BusLines where
  bus2ipReset : Bool
  bus2ipAddr : Word
  bus2ipData : Word
  bus2ipRdCE : Bool
  bus2ipWrCE : Bool
  semaphoreResetDone : Bool
  spinLockResetDone : Bool
  userIpResetDone : Bool

structure Sch2Tm where
  busy : Bool
  data : ThreadId
  nextId : ThreadId
  nextIdValid : Bool

/-- Everything the combinational process reads besides the registers. -/
structure Signals where
  lines : BusLines
  sch : Sch2Tm
  doa : Word
  resetId : BitVec 9
  resetsDone : BitVec 5

/-- Everything `SWTM_LOGIC_PROC` drives during one cycle. -/
structure Drive where
  next : Registers
  a : Port 9 32 := .off
  ip2busData : Word := 0
  myAck : Bool := false
  accessError : Bool := false

namespace BusLines

def command (l : BusLines) : BitVec 6 := slice l.bus2ipAddr 16 6

def threadId (l : BusLines) : ThreadId := slice l.bus2ipAddr 22 8

end BusLines

def Registers.cpuThreadId (r : Registers) : ThreadId := slice r.currentCpuThread 0 8

/-- `TIMEOUT_EXPIRED`: both branches of `CYCLE_CONTROL` clear it. -/
def timeoutExpired : Bool := false

end Hthreads.ThreadManager
