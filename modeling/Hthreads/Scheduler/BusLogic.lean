import Hthreads.Scheduler.Registers

/-! The states that serve bus reads and writes. -/

namespace Hthreads.Scheduler

open Library Library.BitFields

/-- The thread id field `Bus2IP_Addr(16 to 23)`. -/
def addrThreadId (addr : Word) : ThreadId := slice addr 16 8

/-- Put a word on the bus, acknowledge it and wait for the end of the transaction. -/
def answer (r : Registers) (data : Word) : Drive :=
  { next := { r with currentStateMaster := .waitTransDone }
    busDataOut := data
    busDataReady := true
    busAckReady := true }

/-- The validity check of SET_SCHEDPARAM: the thread is used, and it or its parent is running. -/
def schedParamAllowed (swtmDob : Word) (tid currentCpuTid : ThreadId) : Bool :=
  bit swtmDob 26 && (tid == currentCpuTid || slice swtmDob 16 8 == currentCpuTid)

def setSchedParamLogic (x : Signals) (r : Registers) : SetSchedParamState → Drive
  | .begin =>
    { next := { r with
        debugReg := BitVec.allOnes 32
        tempValid := r.nextThreadValidReg
        nextThreadValidReg := false
        lookupId := addrThreadId x.lines.bus2ipAddr
        schedParam := x.lines.bus2ipData
        newPriority := paramPriority x.lines.bus2ipData
        currentStateMaster :=
          if isSoftwareParam x.lines.bus2ipData then .setSchedParam .lookupSetpriEntriesBegin
          else .setSchedParam .returnWithNoError }
      u := .write (threadAddr (addrThreadId x.lines.bus2ipAddr)) x.lines.bus2ipData }
  | .lookupSetpriEntriesBegin =>
    { next := { r with currentStateMaster := .setSchedParam .lookupSetpriEntriesIdle }
      a := .read (threadAddr r.lookupId)
      b := .read (priorityAddr r.newPriority)
      swtm := .read (threadAddr r.lookupId) }
  | .lookupSetpriEntriesIdle =>
    { next := { r with currentStateMaster := .setSchedParam .lookupSetpriEntriesFinished } }
  | .lookupSetpriEntriesFinished =>
    let r := { r with
      oldPriority := getPriority x.doa
      lookupEntry := x.doa
      enqueuePriEntry := x.dob }
    if schedParamAllowed x.swtmDob r.lookupId x.lines.tm2schCurrentCpuTid then
      if getQueueBit x.doa then
        { next := { r with currentStateMaster := .setSchedParam .lookupOldPriEntryIdle }
          b := .read (priorityAddr (getPriority x.doa)) }
      else
        { next := { r with currentStateMaster := .setSchedParam .checkEncoder }
          a := .write (threadAddr r.lookupId) (setPriority r.newPriority x.doa) }
    else { next := { r with currentStateMaster := .setSchedParam .returnWithError } }
  | .lookupOldPriEntryIdle =>
    { next := { r with currentStateMaster := .setSchedParam .lookupOldPriEntryFinished } }
  | .lookupOldPriEntryFinished =>
    { next := { r with
        deqPriEntry := x.dob
        currentStateMaster := .setSchedParam .priorityFieldCheck } }
  | .priorityFieldCheck =>
    let next := { r with lookupEntry := setPriority r.newPriority r.lookupEntry }
    if getTailPointer r.deqPriEntry = getHeadPointer r.deqPriEntry then
      { next := { next with
          encoderInput := setEncoderBit false r.oldPriority r.encoderInput
          currentStateMaster := .setSchedParam .beginAddToNewPriQueue } }
    else if r.lookupId = getHeadPointer r.deqPriEntry then
      { next := { next with currentStateMaster := .setSchedParam .lookupOldHeadPtrIdle }
        a := .read (threadAddr (getHeadPointer r.deqPriEntry)) }
    else if r.lookupId = getTailPointer r.deqPriEntry then
      { next := { next with currentStateMaster := .setSchedParam .lookupOldTailPtrIdle }
        a := .read (threadAddr (getTailPointer r.deqPriEntry)) }
    else
      { next := { next with currentStateMaster := .setSchedParam .lookupPrevPtrIdle }
        a := .read (threadAddr (getPrevPointer r.lookupEntry)) }
  | .lookupOldHeadPtrIdle =>
    { next := { r with currentStateMaster := .setSchedParam .lookupOldHeadPtrFinished } }
  | .lookupOldHeadPtrFinished =>
    { next := { r with
        deqPriEntry := setHeadPointer (getNextPointer x.doa) r.deqPriEntry
        currentStateMaster := .setSchedParam .writeBackDeqPriEntry } }
  | .lookupOldTailPtrIdle =>
    { next := { r with currentStateMaster := .setSchedParam .lookupOldTailPtrFinished } }
  | .lookupOldTailPtrFinished =>
    { next := { r with
        deqPriEntry := setTailPointer (getPrevPointer x.doa) r.deqPriEntry
        currentStateMaster := .setSchedParam .writeBackDeqPriEntry } }
  | .lookupPrevPtrIdle =>
    { next := { r with currentStateMaster := .setSchedParam .lookupPrevPtrFinished } }
  | .lookupPrevPtrFinished =>
    -- only the forward link around the thread is repaired; the successor keeps its prev pointer
    { next := { r with currentStateMaster := .setSchedParam .beginAddToNewPriQueue }
      a := .write (threadAddr (getPrevPointer r.lookupEntry))
        (setNextPointer (getNextPointer r.lookupEntry) x.doa) }
  | .writeBackDeqPriEntry =>
    { next := { r with currentStateMaster := .setSchedParam .beginAddToNewPriQueue }
      b := .write (priorityAddr r.oldPriority) r.deqPriEntry }
  | .beginAddToNewPriQueue =>
    if isEncoderBitZero r.newPriority r.encoderInput then
      { next := { r with
          enqueuePriEntry := setHeadPointer r.lookupId r.enqueuePriEntry
          encoderInput := setEncoderBit true r.newPriority r.encoderInput
          currentStateMaster := .setSchedParam .initTailPtr } }
    else
      { next := { r with currentStateMaster := .setSchedParam .lookupEnqOldTailPtrIdle }
        a := .read (threadAddr (getTailPointer r.enqueuePriEntry)) }
  | .initTailPtr =>
    { next := { r with
        enqueuePriEntry := setTailPointer r.lookupId r.enqueuePriEntry
        encoderEnable := true
        currentStateMaster := .setSchedParam .writeBackEntries } }
  | .lookupEnqOldTailPtrIdle =>
    { next := { r with
        lookupEntry := setPrevPointer (getTailPointer r.enqueuePriEntry) r.lookupEntry
        currentStateMaster := .setSchedParam .updateEnqueueInfo } }
  | .updateEnqueueInfo =>
    { next := { r with
        enqueuePriEntry := setTailPointer r.lookupId r.enqueuePriEntry
        encoderEnable := true
        currentStateMaster := .setSchedParam .writeBackEntries }
      a := .write (threadAddr (getTailPointer r.enqueuePriEntry))
        (setNextPointer r.lookupId x.doa) }
  | .writeBackEntries =>
    { next := { r with currentStateMaster := .setSchedParam .waitForEncoder0 }
      a := .write (threadAddr r.lookupId) r.lookupEntry
      b := .write (priorityAddr r.newPriority) r.enqueuePriEntry }
  | .waitForEncoder0 =>
    { next := { r with currentStateMaster := .setSchedParam .waitForEncoder1 } }
  | .waitForEncoder1 => { next := { r with currentStateMaster := .setSchedParam .lastWait0 } }
  | .lastWait0 => { next := { r with currentStateMaster := .setSchedParam .lastWait1 } }
  | .lastWait1 => { next := { r with currentStateMaster := .setSchedParam .checkEncoder } }
  | .checkEncoder =>
    { next := { r with currentStateMaster := .setSchedParam .lookupHighestPriEntryIdle }
      b := .read (priorityAddr x.encoderOutput)
      a := .read (threadAddr x.lines.tm2schCurrentCpuTid) }
  | .lookupHighestPriEntryIdle =>
    { next := { r with currentStateMaster := .setSchedParam .lookupHighestPriEntryFinished } }
  | .lookupHighestPriEntryFinished =>
    { next := { r with
        currentEntryPriValue := getPriority x.doa
        nextThreadIdReg := getHeadPointer x.dob
        currentStateMaster := .setSchedParam .preemptionCheck } }
  | .preemptionCheck =>
    -- whatever the idle test assigns to the valid flag, the last assignment sets it
    { next := { r with
        nextThreadIdReg :=
          if isEncoderZero r.encoderInput && r.idleThreadValid then r.idleThreadId
          else r.nextThreadIdReg
        nextThreadValidReg := true
        currentStateMaster := .setSchedParam .returnWithNoError }
      preemptionInterruptLine := decide (x.encoderOutput < r.currentEntryPriValue) }
  | .returnWithError =>
    answer { r with
      debugReg := insert 31 0b1#1 r.debugReg
      nextThreadValidReg := r.tempValid } 0
  | .returnWithNoError =>
    answer { r with
      debugReg := insert 31 0b0#1 r.debugReg
      nextThreadValidReg := r.tempValid } 0

def getSchedParamLogic (x : Signals) (r : Registers) : LookupState → Drive
  | .begin =>
    { next := { r with
        lookupId := addrThreadId x.lines.bus2ipAddr
        currentStateMaster := .getSchedParam .lookup } }
  | .lookup =>
    { next := { r with currentStateMaster := .getSchedParam .idle }
      u := .read (threadAddr r.lookupId) }
  | .idle => { next := { r with currentStateMaster := .getSchedParam .finished } }
  | .finished => answer r x.dou

def checkSchedParamLogic (x : Signals) (r : Registers) : LookupState → Drive
  | .begin =>
    { next := { r with
        lookupId := addrThreadId x.lines.bus2ipAddr
        currentStateMaster := .checkSchedParam .lookup } }
  | .lookup =>
    { next := { r with currentStateMaster := .checkSchedParam .idle }
      a := .read (threadAddr r.lookupId)
      u := .read (threadAddr r.lookupId)
      swtm := .read (threadAddr r.lookupId) }
  | .idle => { next := { r with currentStateMaster := .checkSchedParam .finished } }
  | .finished =>
    answer r (if getQueueBit x.doa then (if isSoftwareParam x.dou then 0 else 1) else 0)

def getEntryLogic (x : Signals) (r : Registers) : LookupState → Drive
  | .begin =>
    { next := { r with
        lookupId := addrThreadId x.lines.bus2ipAddr
        currentStateMaster := .getEntry .lookup } }
  | .lookup =>
    { next := { r with currentStateMaster := .getEntry .idle }
      a := .read (threadAddr r.lookupId) }
  | .idle => { next := { r with currentStateMaster := .getEntry .finished } }
  | .finished => answer r x.doa

def setIdleThreadLogic (x : Signals) (r : Registers) : SetIdleThreadState → Drive
  | .begin =>
    { next := { r with
        lookupId := addrThreadId x.lines.bus2ipAddr
        currentStateMaster := .setIdleThread .lookupEntriesIdle }
      a := .read (threadAddr (addrThreadId x.lines.bus2ipAddr))
      u := .read (threadAddr (addrThreadId x.lines.bus2ipAddr))
      swtm := .read (threadAddr (addrThreadId x.lines.bus2ipAddr)) }
  | .lookupEntriesIdle =>
    { next := { r with currentStateMaster := .setIdleThread .lookupEntriesFinished } }
  | .lookupEntriesFinished =>
    if !getQueueBit x.doa && bit x.swtmDob 26 && isSoftwareParam x.dou then
      { next := { r with
          idleThreadId := r.lookupId
          idleThreadValid := true
          currentStateMaster := .setIdleThread .returnWithNoError } }
    else { next := { r with currentStateMaster := .setIdleThread .returnWithError } }
  | .returnWithError => answer r 1
  | .returnWithNoError =>
    answer { r with
      nextThreadIdReg := if r.nextThreadValidReg then r.nextThreadIdReg else r.idleThreadId
      nextThreadValidReg := true } 0

def mallocLockLogic (x : Signals) (r : Registers) : MallocLockState → Drive
  | .request =>
    { next := { r with
        lockOp := bit x.lines.bus2ipAddr 13
        lookupId := addrThreadId x.lines.bus2ipAddr
        currentStateMaster := .mallocLock .idle } }
  | .idle => { next := { r with currentStateMaster := .mallocLock .idleFinished } }
  | .idleFinished =>
    { next := { r with
        currentStateMaster := if r.lockOp then .mallocLock .acquire else .mallocLock .release } }
  | .acquire =>
    let next := { r with currentStateMaster := .mallocLock .acquireReturn }
    if !r.mallocMutex then
      { next := { next with
          mallocMutexHolder := r.lookupId
          lockCount := r.lockCount + 1
          mallocMutex := true } }
    else if r.mallocMutexHolder = r.lookupId then
      { next := { next with lockCount := r.lockCount + 1 } }
    else { next := next }
  | .acquireReturn =>
    answer r (0#4 ++ r.lockCount ++ r.mallocMutexHolder ++ 0#15 ++
      BitVec.ofBool (r.mallocMutexHolder == r.lookupId))
  | .release =>
    { next := { r with
        lockCount := if r.mallocMutexHolder = r.lookupId then r.lockCount - 1 else r.lockCount
        currentStateMaster := .mallocLock .releaseNext } }
  | .releaseNext =>
    let next := { r with currentStateMaster := .mallocLock .releaseReturn }
    if r.lockCount = 0 then
      { next := { next with
          mallocMutex := false
          mallocMutexHolder := 0xFF } }
    else { next := next }
  | .releaseReturn =>
    answer r (0#4 ++ r.lockCount ++ r.mallocMutexHolder ++ 0#15 ++
      BitVec.ofBool (r.mallocMutexHolder == r.lookupId))

end Hthreads.Scheduler
