import Hthreads.Scheduler.Registers

/-! The states that serve the thread manager: ENQUEUE, DEQUEUE, IS_QUEUED and IS_EMPTY.
In these definitions `r` holds the register values that are kept by default. -/

namespace Hthreads.Scheduler

open Library Library.BitFields

def enqueueOpcode : BitVec 6 := 0b000010
def dequeueOpcode : BitVec 6 := 0b000011
def isQueuedOpcode : BitVec 6 := 0b000001
def isEmptyOpcode : BitVec 6 := 0b000110

def hwThreadStart : BitVec 4 := 0b0001

def debugEntry (opcode : BitVec 6) (data : ThreadId) : Word := 0#2 ++ opcode ++ data ++ 0#16

def startHwThread (r : Registers) (s : MasterState) : Drive :=
  { next := { r with currentStateMaster := s }
    ip2busAddr := r.schedParam
    ip2busMstWrReq := true
    ip2busMstWrD := 0#28 ++ hwThreadStart }

def enqLogic (x : Signals) (r : Registers) : EnqState → Drive
  | .begin =>
    { next := { r with
        debugReg := debugEntry enqueueOpcode x.lines.tm2schData
        schedBusy := true
        lookupId := x.lines.tm2schData
        currentStateMaster := .enq .lookupEnqueueEntryIdle }
      a := .read (threadAddr x.lines.tm2schData)
      u := .read (threadAddr x.lines.tm2schData) }
  | .lookupEnqueueEntryIdle =>
    { next := { r with currentStateMaster := .enq .lookupEnqueueEntryFinished } }
  | .lookupEnqueueEntryFinished =>
    if isSoftwareParam x.dou then
      { next := { r with
          debugReg := insert 28 0b1000#4 r.debugReg
          nextThreadValidReg := false
          enqueueEntry := setQueueBit true x.doa
          newPriority := getPriority x.doa
          currentStateMaster := .enq .lookupEnqueuePriEntryIdle }
        b := .read (priorityAddr (getPriority x.doa)) }
    else
      { next := { r with
          debugReg := insert 28 0b1110#4 r.debugReg
          schedParam := x.dou
          schedBusy := false
          currentStateMaster := .enq .startHwThreadBegin }
        tmDataOut := 0
        tmDataReady := true }
  | .startHwThreadBegin => startHwThread r (.enq .startHwThreadFinished)
  | .startHwThreadFinished =>
    if x.mstCmdSmBusy then startHwThread r (.enq .startHwThreadFinished)
    else { next := { r with currentStateMaster := .idle } }
  | .lookupEnqueuePriEntryIdle =>
    { next := { r with currentStateMaster := .enq .lookupEnqueuePriEntryFinished } }
  | .lookupEnqueuePriEntryFinished =>
    if isEncoderBitZero r.newPriority r.encoderInput then
      { next := { r with
          enqueuePriEntry := x.dob
          encoderInput := setEncoderBit true (getPriority r.enqueueEntry) r.encoderInput
          encoderEnable := true
          currentStateMaster := .enq .initHeadPointer } }
    else
      { next := { r with
          enqueuePriEntry := x.dob
          oldTailPtr := getTailPointer x.dob
          currentStateMaster := .enq .lookupOldTailPtr } }
  | .initHeadPointer =>
    { next := { r with
        enqueuePriEntry := setHeadPointer r.lookupId r.enqueuePriEntry
        currentStateMaster := .enq .initTailPointer } }
  | .initTailPointer =>
    { next := { r with
        enqueuePriEntry := setTailPointer r.lookupId r.enqueuePriEntry
        currentStateMaster := .enq .waitForEncoder0 } }
  | .waitForEncoder0 => { next := { r with currentStateMaster := .enq .writeBackEntries } }
  | .lookupOldTailPtr =>
    { next := { r with currentStateMaster := .enq .lookupOldTailPtrIdle }
      a := .read (threadAddr r.oldTailPtr) }
  | .lookupOldTailPtrIdle =>
    { next := { r with currentStateMaster := .enq .lookupOldTailPtrFinished } }
  | .lookupOldTailPtrFinished =>
    { next := { r with
        enqueueEntry := setPrevPointer r.oldTailPtr r.enqueueEntry
        enqueuePriEntry := setTailPointer r.lookupId r.enqueuePriEntry
        currentStateMaster := .enq .writeBackEntries }
      a := .write (threadAddr r.oldTailPtr) (setNextPointer r.lookupId x.doa) }
  | .writeBackEntries =>
    { next := { r with currentStateMaster := .enq .lookupHighestPriEntry }
      a := .write (threadAddr r.lookupId) r.enqueueEntry
      b := .write (priorityAddr (getPriority r.enqueueEntry)) r.enqueuePriEntry }
  | .lookupHighestPriEntry =>
    { next := { r with currentStateMaster := .enq .lookupHighestPriEntryIdle }
      b := .read (priorityAddr x.encoderOutput)
      a := .read (threadAddr x.lines.tm2schCurrentCpuTid) }
  | .lookupHighestPriEntryIdle =>
    { next := { r with currentStateMaster := .enq .lookupHighestPriEntryFinished } }
  | .lookupHighestPriEntryFinished =>
    { next := { r with
        currentEntryPriValue := getPriority x.doa
        nextThreadIdReg := getHeadPointer x.dob
        currentStateMaster := .enq .preemptionCheck } }
  | .preemptionCheck =>
    { next := { r with
        nextThreadValidReg := true
        schedBusy := false
        currentStateMaster := .idle }
      preemptionInterruptLine := decide (x.encoderOutput < r.currentEntryPriValue)
      tmDataOut := BitVec.ofBool (getQueueBit r.enqueueEntry) ++ 0#7
      tmDataReady := true }

def deqLogic (x : Signals) (r : Registers) : DeqState → Drive
  | .begin =>
    { next := { r with
        debugReg := debugEntry dequeueOpcode x.lines.tm2schData
        schedBusy := true
        nextThreadValidReg := false
        currentStateMaster := .deq .lookupDequeueEntryIdle }
      a := .read (threadAddr x.lines.tm2schCurrentCpuTid) }
  | .lookupDequeueEntryIdle =>
    { next := { r with currentStateMaster := .deq .lookupDequeueEntryFinished } }
  | .lookupDequeueEntryFinished =>
    { next := { r with
        dequeueEntry := setQueueBit false x.doa
        currentStateMaster := .deq .lookupDeqPriEntryIdle }
      b := .read (priorityAddr (getPriority x.doa)) }
  | .lookupDeqPriEntryIdle =>
    { next := { r with currentStateMaster := .deq .lookupDeqPriEntryFinished } }
  | .lookupDeqPriEntryFinished =>
    if getHeadPointer x.dob = getTailPointer x.dob then
      { next := { r with
          deqPriEntry := x.dob
          encoderInput := setEncoderBit false (getPriority r.dequeueEntry) r.encoderInput
          encoderEnable := true
          currentStateMaster := .deq .waitForEncoder0 } }
    else
      { next := { r with
          deqPriEntry := x.dob
          currentStateMaster := .deq .lookupOldHeadPtrIdle }
        a := .read (threadAddr (getHeadPointer x.dob)) }
  | .waitForEncoder0 => { next := { r with currentStateMaster := .deq .waitForEncoder1 } }
  | .waitForEncoder1 => { next := { r with currentStateMaster := .deq .waitForEncoder2 } }
  | .waitForEncoder2 => { next := { r with currentStateMaster := .deq .writeBackEntries } }
  | .lookupOldHeadPtrIdle =>
    { next := { r with currentStateMaster := .deq .lookupOldHeadPtrFinished } }
  | .lookupOldHeadPtrFinished =>
    { next := { r with
        deqPriEntry := setHeadPointer (getNextPointer x.doa) r.deqPriEntry
        currentStateMaster := .deq .writeBackEntries } }
  | .writeBackEntries =>
    { next := { r with currentStateMaster := .deq .checkEncoderOutput }
      a := .write (threadAddr x.lines.tm2schCurrentCpuTid) r.dequeueEntry
      b := .write (priorityAddr (getPriority r.dequeueEntry)) r.deqPriEntry }
  | .checkEncoderOutput =>
    if isEncoderZero r.encoderInput then
      { next := { r with
          nextThreadValidReg := r.idleThreadValid
          nextThreadIdReg := if r.idleThreadValid then r.idleThreadId else r.nextThreadIdReg
          schedBusy := false
          currentStateMaster := .idle }
        tmDataOut := 0
        tmDataReady := true }
    else
      { next := { r with currentStateMaster := .deq .lookupHighestPriEntryIdle }
        b := .read (priorityAddr x.encoderOutput) }
  | .lookupHighestPriEntryIdle =>
    { next := { r with currentStateMaster := .deq .lookupHighestPriEntryFinished } }
  | .lookupHighestPriEntryFinished =>
    { next := { r with
        nextThreadIdReg := getHeadPointer x.dob
        schedBusy := false
        nextThreadValidReg := true
        currentStateMaster := .idle }
      tmDataOut := 0
      tmDataReady := true }

def isQueuedLogic (x : Signals) (r : Registers) : LookupState → Drive
  | .begin =>
    { next := { r with
        debugReg := debugEntry isQueuedOpcode x.lines.tm2schData
        schedBusy := true
        lookupId := x.lines.tm2schData
        currentStateMaster := .isQueued .lookup } }
  | .lookup =>
    { next := { r with currentStateMaster := .isQueued .idle }
      a := .read (threadAddr r.lookupId) }
  | .idle => { next := { r with currentStateMaster := .isQueued .finished } }
  | .finished =>
    { next := { r with
        schedBusy := false
        currentStateMaster := .idle }
      tmDataOut := 0#7 ++ BitVec.ofBool (getQueueBit x.doa)
      tmDataReady := true }

def isEmptyLogic (x : Signals) (r : Registers) : IsEmptyState → Drive
  | .check =>
    { next := { r with
        debugReg := debugEntry isEmptyOpcode x.lines.tm2schData
        schedBusy := true
        currentStateMaster := .isEmpty .finished } }
  | .finished =>
    { next := { r with
        schedBusy := false
        currentStateMaster := .idle }
      tmDataOut := 0#7 ++ BitVec.ofBool (isEncoderZero r.encoderInput)
      tmDataReady := true }

end Hthreads.Scheduler
