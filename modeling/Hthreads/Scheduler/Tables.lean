import Hthreads.Scheduler.Core

/-! What the scheduler remembers between two requests, and the effect of one whole request
on it. Every definition collects the table accesses of one path of the state machine. -/

namespace Hthreads.Scheduler

open Library Library.BitFields

structure Tables where
  thread : ThreadId → Word
  priority : Priority → Word
  param : ThreadId → Word
  encoderInput : Priority → Bool
  encoderOutput : Priority
  nextThreadId : ThreadId
  nextThreadValid : Bool
  idleThreadId : ThreadId
  idleThreadValid : Bool

def Core.tables (c : Core) : Tables where
  thread tid := c.threadData.data (threadAddr tid)
  priority p := c.priorityData.data (priorityAddr p)
  param tid := c.paramData.data (threadAddr tid)
  encoderInput := c.regs.encoderInput
  encoderOutput := c.encoder.best
  nextThreadId := c.regs.nextThreadIdReg
  nextThreadValid := c.regs.nextThreadValidReg
  idleThreadId := c.regs.idleThreadId
  idleThreadValid := c.regs.idleThreadValid

namespace Tables

def next (T : Tables) (tid : ThreadId) : ThreadId := getNextPointer (T.thread tid)
def prev (T : Tables) (tid : ThreadId) : ThreadId := getPrevPointer (T.thread tid)
def queued (T : Tables) (tid : ThreadId) : Bool := getQueueBit (T.thread tid)
def level (T : Tables) (tid : ThreadId) : Priority := getPriority (T.thread tid)
def head (T : Tables) (p : Priority) : ThreadId := getHeadPointer (T.priority p)
def tail (T : Tables) (p : Priority) : ThreadId := getTailPointer (T.priority p)

def runEncoder (T : Tables) : Tables :=
  { T with encoderOutput := Encoder.search T.encoderInput T.encoderOutput }

-- `entry` is the thread's new word and `pri` the cached word of the list it joins
def link (T : Tables) (tid : ThreadId) (entry pri : Word) (p : Priority) : Tables :=
  if T.encoderInput p then
    let old := getTailPointer pri
    { T with
      thread := Function.update (Function.update T.thread old (setNextPointer tid (T.thread old)))
        tid (setPrevPointer old entry)
      priority := Function.update T.priority p (setTailPointer tid pri) }
  else
    { T with
      thread := Function.update T.thread tid entry
      priority := Function.update T.priority p (setTailPointer tid (setHeadPointer tid pri))
      encoderInput := setEncoderBit true p T.encoderInput }

def announceHead (T : Tables) : Tables := { T with nextThreadId := T.head T.encoderOutput }

def enqueue (T : Tables) (tid : ThreadId) : Tables :=
  if isSoftwareParam (T.param tid) then
    let p := T.level tid
    let linked := T.link tid (setQueueBit true (T.thread tid)) (T.priority p) p
    let encoded := if T.encoderInput p then linked else linked.runEncoder
    { encoded.announceHead with nextThreadValid := true }
  else T

def unlinkFront (T : Tables) (tid : ThreadId) : Tables :=
  let p := T.level tid
  let thread := Function.update T.thread tid (setQueueBit false (T.thread tid))
  if T.head p = T.tail p then
    { T with
      thread := thread
      encoderInput := setEncoderBit false p T.encoderInput }.runEncoder
  else
    { T with
      thread := thread
      priority := Function.update T.priority p
        (setHeadPointer (T.next (T.head p)) (T.priority p)) }

def announce (T : Tables) : Tables :=
  if isEncoderZero T.encoderInput then
    { T with
      nextThreadValid := T.idleThreadValid
      nextThreadId := if T.idleThreadValid then T.idleThreadId else T.nextThreadId }
  else { T.announceHead with nextThreadValid := true }

def dequeue (T : Tables) (tid : ThreadId) : Tables := (T.unlinkFront tid).announce

-- the priority word of the emptied list stays as it is, only its encoder bit is cleared
def unlink (T : Tables) (tid : ThreadId) : Tables :=
  let p := T.level tid
  if T.tail p = T.head p then { T with encoderInput := setEncoderBit false p T.encoderInput }
  else if tid = T.head p then
    { T with
      priority := Function.update T.priority p
        (setHeadPointer (T.next (T.head p)) (T.priority p)) }
  else if tid = T.tail p then
    { T with
      priority := Function.update T.priority p
        (setTailPointer (T.prev (T.tail p)) (T.priority p)) }
  else
    { T with
      thread := Function.update T.thread (T.prev tid)
        (setNextPointer (T.next tid) (T.thread (T.prev tid))) }

def move (T : Tables) (tid : ThreadId) (p : Priority) : Tables :=
  ((T.unlink tid).link tid (setPriority p (T.thread tid)) (T.priority p) p).runEncoder

def reprioritize (T : Tables) (tid : ThreadId) (p : Priority) : Tables :=
  if T.queued tid then T.move tid p
  else { T with thread := Function.update T.thread tid (setPriority p (T.thread tid)) }

def refresh (T : Tables) : Tables :=
  { T with
    nextThreadId :=
      if isEncoderZero T.encoderInput && T.idleThreadValid then T.idleThreadId
      else T.head T.encoderOutput }

def setSchedParam (T : Tables) (swtm : Word) (currentCpuTid tid : ThreadId) (param : Word) :
    Tables :=
  let stored := { T with param := Function.update T.param tid param }
  if isSoftwareParam param && schedParamAllowed swtm tid currentCpuTid then
    (stored.reprioritize tid (paramPriority param)).refresh
  else stored

def idleAllowed (T : Tables) (swtm : Word) (tid : ThreadId) : Bool :=
  !T.queued tid && bit swtm 26 && isSoftwareParam (T.param tid)

def setIdleThread (T : Tables) (swtm : Word) (tid : ThreadId) : Tables :=
  if T.idleAllowed swtm tid then
    { T with
      idleThreadId := tid
      idleThreadValid := true
      nextThreadId := if T.nextThreadValid then T.nextThreadId else tid
      nextThreadValid := true }
  else T

def checkSchedParam (T : Tables) (tid : ThreadId) : Word :=
  if T.queued tid then (if isSoftwareParam (T.param tid) then 0 else 1) else 0

end Tables

end Hthreads.Scheduler
