import Hthreads.Library.Bram
import Hthreads.Scheduler.Encoder

/-! Ports, registers and driven signals of the scheduler core (`user_logic.vhd`). -/

namespace Hthreads.Scheduler

open Library

/-- The four one-bit request registers of `TM_CMD_PROC`, at most one of which is set. -/
inductive TmRequest
  | enqueue
  | dequeue
  | isQueued
  | isEmpty
  deriving DecidableEq

/-- The eleven one-bit request registers of `BUS_CMD_PROC`, at most one of which is set. -/
inductive BusRequest
  | getEncoderOutput
  | setSchedParam
  | togglePreemption
  | getIdleThread
  | setIdleThread
  | getEntry
  | defaultPriority
  | getSchedParam
  | checkSchedParam
  | mallocLock
  | error
  deriving DecidableEq

structure Requests where
  tm : Option TmRequest
  bus : Option BusRequest
  deriving DecidableEq

inductive ResetState
  | reset
  | resetBram
  | resetWait4Ack
  deriving DecidableEq

inductive EnqState
  | begin
  | lookupEnqueueEntryIdle
  | lookupEnqueueEntryFinished
  | startHwThreadBegin
  | startHwThreadFinished
  | lookupEnqueuePriEntryIdle
  | lookupEnqueuePriEntryFinished
  | initHeadPointer
  | initTailPointer
  | waitForEncoder0
  | lookupOldTailPtr
  | lookupOldTailPtrIdle
  | lookupOldTailPtrFinished
  | writeBackEntries
  | lookupHighestPriEntry
  | lookupHighestPriEntryIdle
  | lookupHighestPriEntryFinished
  | preemptionCheck
  deriving DecidableEq

inductive DeqState
  | begin
  | lookupDequeueEntryIdle
  | lookupDequeueEntryFinished
  | lookupDeqPriEntryIdle
  | lookupDeqPriEntryFinished
  | lookupOldHeadPtrIdle
  | lookupOldHeadPtrFinished
  | writeBackEntries
  | waitForEncoder0
  | waitForEncoder1
  | waitForEncoder2
  | checkEncoderOutput
  | lookupHighestPriEntryIdle
  | lookupHighestPriEntryFinished
  deriving DecidableEq

inductive SetSchedParamState
  | begin
  | lookupSetpriEntriesBegin
  | lookupSetpriEntriesIdle
  | lookupSetpriEntriesFinished
  | lookupOldPriEntryIdle
  | lookupOldPriEntryFinished
  | priorityFieldCheck
  | lookupOldHeadPtrIdle
  | lookupOldHeadPtrFinished
  | lookupOldTailPtrIdle
  | lookupOldTailPtrFinished
  | lookupPrevPtrIdle
  | lookupPrevPtrFinished
  | writeBackDeqPriEntry
  | beginAddToNewPriQueue
  | initTailPtr
  | lookupEnqOldTailPtrIdle
  | updateEnqueueInfo
  | writeBackEntries
  | waitForEncoder0
  | waitForEncoder1
  | lastWait0
  | lastWait1
  | checkEncoder
  | lookupHighestPriEntryIdle
  | lookupHighestPriEntryFinished
  | preemptionCheck
  | returnWithError
  | returnWithNoError
  deriving DecidableEq

/-- The four states that `GET_ENTRY`, `GET_SCHED_PARAM`, `CHECK_SCHED_PARAM` and `IS_QUEUED`
each go through. -/
inductive LookupState
  | begin
  | lookup
  | idle
  | finished
  deriving DecidableEq

inductive IsEmptyState
  | check
  | finished
  deriving DecidableEq

inductive SetIdleThreadState
  | begin
  | lookupEntriesIdle
  | lookupEntriesFinished
  | returnWithError
  | returnWithNoError
  deriving DecidableEq

inductive MallocLockState
  | request
  | idle
  | idleFinished
  | acquire
  | acquireReturn
  | release
  | releaseNext
  | releaseReturn
  deriving DecidableEq

inductive MasterState
  | idle
  | waitTransDone
  | reset (s : ResetState)
  | getEncoderOutput
  | setSchedParam (s : SetSchedParamState)
  | getSchedParam (s : LookupState)
  | checkSchedParam (s : LookupState)
  | enq (s : EnqState)
  | deq (s : DeqState)
  | mallocLock (s : MallocLockState)
  | getEntry (s : LookupState)
  | isQueued (s : LookupState)
  | isEmpty (s : IsEmptyState)
  | setIdleThread (s : SetIdleThreadState)
  deriving DecidableEq

/-- The registers of `MASTER_FSM_STATE_PROC`. -/
structure Registers where
  currentStateMaster : MasterState
  encoderEnable : Bool
  enqueuePriEntry : Word
  deqPriEntry : Word
  oldTailPtr : ThreadId
  encoderInput : Priority → Bool
  nextThreadIdReg : ThreadId
  lookupEntry : Word
  schedParam : Word
  dequeueEntry : Word
  enqueueEntry : Word
  currentEntryPriValue : Priority
  oldPriority : Priority
  newPriority : Priority
  lookupId : ThreadId
  idleThreadId : ThreadId
  debugReg : Word
  idleThreadValid : Bool
  tempValid : Bool
  insideReset : Bool
  preemptionInterruptEnable : Bool
  schedBusy : Bool
  nextThreadValidReg : Bool
  lockCount : BitVec 4
  lockOp : Bool
  mallocMutex : Bool
  mallocMutexHolder : ThreadId

def Registers.softReset : Registers where
  currentStateMaster := .reset .reset
  encoderEnable := false
  enqueuePriEntry := 0
  deqPriEntry := 0
  oldTailPtr := 0
  encoderInput := fun _ => false
  nextThreadIdReg := 0
  lookupEntry := 0
  schedParam := 0
  dequeueEntry := 0
  enqueueEntry := 0
  currentEntryPriValue := 0
  oldPriority := 0
  newPriority := 0
  lookupId := 0
  idleThreadId := 0
  debugReg := 0
  idleThreadValid := false
  tempValid := false
  insideReset := true
  preemptionInterruptEnable := false
  schedBusy := false
  nextThreadValidReg := false
  lockCount := 0
  lockOp := false
  mallocMutex := false
  mallocMutexHolder := 0xFF

/-- The input ports during one cycle. The two chip-enable vectors appear as their disjunctions,
and `swtm` is the thread manager's table behind the `SWTM` port. -/
structure Lines where
  softReset : Bool
  tm2schCurrentCpuTid : ThreadId
  tm2schOpcode : BitVec 6
  tm2schData : ThreadId
  tm2schRequest : Bool
  bus2ipAddr : Word
  bus2ipData : Word
  bus2ipRdCE : Bool
  bus2ipWrCE : Bool
  bus2ipReset : Bool
  bus2ipMstCmdAck : Bool
  bus2ipMstCmplt : Bool
  swtm : BitVec 9 → Word

/-- Everything the combinational process reads besides the registers. -/
structure Signals where
  lines : Lines
  requests : Requests
  doa : Word
  dob : Word
  dou : Word
  swtmDob : Word
  encoderOutput : Priority
  resetAddr : BitVec 9
  mstCmdSmBusy : Bool

/-- Everything `MASTER_FSM_LOGIC_PROC` drives during one cycle. Port `a` is THREAD_DATA,
`b` is PRIORITY_DATA and `u` is PARAM_DATA. -/
structure Drive where
  next : Registers
  a : Port 9 32 := .off
  b : Port 9 32 := .off
  u : Port 9 32 := .off
  swtm : Port 9 32 := .off
  busDataOut : Word := 0
  busDataReady : Bool := false
  busAckReady : Bool := false
  tmDataOut : ThreadId := 0
  tmDataReady : Bool := false
  preemptionInterruptLine : Bool := false
  encoderReset : Bool := false
  resetDone : Bool := false
  ip2busAddr : Word := 0
  ip2busMstWrReq : Bool := false
  ip2busMstWrD : Word := 0

/-- Addresses `'0' & tid` and `"00" & priority`. -/
def threadAddr (tid : ThreadId) : BitVec 9 := 0#1 ++ tid
def priorityAddr (p : Priority) : BitVec 9 := 0#2 ++ p

def isEncoderBitZero (p : Priority) (encoder : Priority → Bool) : Bool := !encoder p

def setEncoderBit (b : Bool) (p : Priority) (encoder : Priority → Bool) : Priority → Bool :=
  Function.update encoder p b

def isEncoderZero (encoder : Priority → Bool) : Bool := decide (∀ p, encoder p = false)

end Hthreads.Scheduler
