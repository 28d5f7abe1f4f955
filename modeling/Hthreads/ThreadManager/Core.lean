import Hthreads.ThreadManager.ThreadLogic

/-! The clocked thread manager core: command decoding, the state machine and the thread table
advance on one clock. -/

namespace Hthreads.ThreadManager

open Library Library.BitFields Scheduler

def cClearThread : BitVec 6 := 0b000000
def cJoinThread : BitVec 6 := 0b000001
def cReadThread : BitVec 6 := 0b000011
def cAddThread : BitVec 6 := 0b000100
def cCreateThreadJ : BitVec 6 := 0b000101
def cExitThread : BitVec 6 := 0b000111
def cNextThread : BitVec 6 := 0b001000
def cYieldThread : BitVec 6 := 0b001001
def cCurrentThread : BitVec 6 := 0b010000
def cIsDetached : BitVec 6 := 0b011000
def cIsQueued : BitVec 6 := 0b011001
def cExceptionAddr : BitVec 6 := 0b010011
def cExceptionReg : BitVec 6 := 0b010100
def cSoftStart : BitVec 6 := 0b010101
def cSoftStop : BitVec 6 := 0b010110
def cSoftReset : BitVec 6 := 0b010111
def cSchedLines : BitVec 6 := 0b011010

def exceptionWriteToReadOnly : BitVec 4 := 0b0001
def exceptionUndefinedAddress : BitVec 4 := 0b0010

def writeLogic (x : Signals) (r : Registers) : Drive :=
  let command := x.lines.command
  if command = cSoftStart then
    { next := { r with
        softResets := 0
        swtmResetDone := false
        coreStop := false
        currentState := .endTransaction } }
  else if command = cSoftStop then
    { next := { r with coreStop := true, currentState := .endTransaction } }
  else if command = cSoftReset then { next := { r with currentState := .softReset .writeInit } }
  else if command = cReadThread then
    if r.coreStop then
      { next := { r with currentState := .endTransaction }
        a := .write (threadAddr x.lines.threadId) x.lines.bus2ipData }
    else raise r exceptionWriteToReadOnly
  else raise r exceptionUndefinedAddress

def schedLines (s : Sch2Tm) : Word :=
  0#7 ++ BitVec.ofBool s.busy ++ s.data ++ 0#7 ++ BitVec.ofBool s.nextIdValid ++ s.nextId

def readLogic (x : Signals) (r : Registers) : Drive :=
  let command := x.lines.command
  let go (s : SwtmState) : Drive := { next := { r with currentState := s } }
  if command = cSoftStart then finish r 0
  else if command = cSoftStop then finish r (0#31 ++ BitVec.ofBool r.coreStop)
  else if command = cSoftReset then finish r (0#27 ++ r.resetStatus)
  else if command = cCurrentThread then finish r (0#23 ++ r.currentCpuThread)
  else if command = cExceptionAddr then
    finish { r with exceptionAddress := 0 } r.exceptionAddress
  else if command = cExceptionReg then
    finish { r with exceptionCause := 0 } (0#28 ++ r.exceptionCause)
  else if command = cSchedLines then finish r (schedLines x.sch)
  else if command = cReadThread then go (.readThread .init)
  else if command = cCreateThreadD then go (.createThread .init)
  else if command = cCreateThreadJ then go (.createThread .init)
  else if command = cClearThread then go (.clearThread .init)
  else if command = cJoinThread then go (.joinThread .init)
  else if command = cIsDetached then go (.isDetached .init)
  else if command = cIsQueued then go (.isQueued .init)
  else if command = cNextThread then go (.nextThread .init)
  else if command = cAddThread then go (.addThread .init)
  else if command = cYieldThread then go (.yieldThread .init)
  else if command = cExitThread then go (.exitThread .init)
  else raise r exceptionUndefinedAddress

def idleLogic (x : Signals) (regs : Registers) : Drive :=
  let r := { regs with busDataOut := 0 }
  if x.lines.bus2ipWrCE then writeLogic x r
  else if x.lines.bus2ipRdCE then readLogic x r
  else { next := r }

def swtmLogic (x : Signals) (r : Registers) : Drive :=
  match r.currentState with
  | .idleState => idleLogic x r
  | .softReset s => softResetLogic x r s
  | .readThread s => readThreadLogic x r s
  | .createThread s => createThreadLogic x r s
  | .clearThread s => clearThreadLogic x r s
  | .joinThread s => joinThreadLogic x r s
  | .isQueued s => isQueuedLogic x r s
  | .isDetached s => isDetachedLogic x r s
  | .nextThread s => nextThreadLogic x r s
  | .addThread s => addThreadLogic x r s
  | .waitAck op => waitAckLogic x r op
  | .waitComplete op => waitCompleteLogic x r op
  | .yieldThread s => yieldThreadLogic x r s
  | .exitThread s => exitThreadLogic x r s
  | .raiseException =>
    { next := { r with
        exceptionAddress := x.lines.bus2ipAddr
        currentState := .endTransactionWait }
      myAck := true
      accessError := true }
  | .endTransaction =>
    { next := { r with currentState := .endTransactionWait }
      ip2busData := r.busDataOut
      myAck := true }
  | .endTransactionWait =>
    if !x.lines.bus2ipRdCE && !x.lines.bus2ipWrCE then
      { next := { r with currentState := .idleState } }
    else { next := r }

def BusLines.quiet : BusLines := ⟨false, 0, 0, false, false, false, false, false⟩

def BusLines.read (command : BitVec 6) (tid : ThreadId) : BusLines :=
  { BusLines.quiet with
    bus2ipAddr := 0#16 ++ command ++ tid ++ 0#2
    bus2ipRdCE := true }

def BusLines.write (command : BitVec 6) (data : Word) : BusLines :=
  { BusLines.quiet with
    bus2ipAddr := 0#16 ++ command ++ 0#10
    bus2ipData := data
    bus2ipWrCE := true }

structure Swtm where
  regs : Registers
  threadTable : Bram 9 32
  resetId : BitVec 9
  resetsDone : BitVec 5

namespace Swtm

def signals (l : BusLines) (x : Sch2Tm) (m : Swtm) : Signals where
  lines := l
  sch := x
  doa := m.threadTable.dout
  resetId := m.resetId
  resetsDone := m.resetsDone

def drive (l : BusLines) (x : Sch2Tm) (m : Swtm) : Drive := swtmLogic (m.signals l x) m.regs

def clock (l : BusLines) (x : Sch2Tm) (schedulerResetDone : Bool) (m : Swtm) : Swtm :=
  let d := m.drive l x
  { regs := if l.bus2ipReset then { d.next with currentState := .idleState } else d.next
    threadTable := m.threadTable.clockThrough d.a
    resetId :=
      if l.command = cSoftReset ∧ m.regs.currentState = .softReset .writeInit then 0
      else m.resetId + 1
    resetsDone := BitVec.ofBool l.userIpResetDone ++ BitVec.ofBool l.spinLockResetDone ++
      BitVec.ofBool l.semaphoreResetDone ++ BitVec.ofBool schedulerResetDone ++
      BitVec.ofBool d.next.swtmResetDone }

/-- `Scheduler_Reset`. -/
def schedulerReset (m : Swtm) : Bool := bit m.regs.softResets 3

/-- The declared initial values; signals declared without one are zero. -/
def powerUp : Swtm where
  regs :=
    { currentState := .idleState
      returnState := .idleState
      coreStop := false
      newId := 0
      nextId := 0
      currentCpuThread := 0
      tm2schRequest := false
      tm2schData := 0
      tm2schOpcode := 0
      currentStatus := 0
      exceptionAddress := 0
      exceptionCause := 0
      softResets := 0
      resetStatus := 0
      swtmResetDone := false
      busDataOut := 0 }
  threadTable := ⟨fun _ => 0, 0⟩
  resetId := 0
  resetsDone := 0

end Swtm

end Hthreads.ThreadManager
