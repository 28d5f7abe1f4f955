import Hthreads.Scheduler.BusLogic
import Hthreads.Scheduler.QueueLogic

/-! The clocked scheduler core: request decoding, the master state machine, the three
block RAMs, the encoder and the master command interface advance on one clock. -/

namespace Hthreads.Scheduler

open Library Library.BitFields

def tmCmdProc (l : Lines) : Option TmRequest :=
  if l.tm2schRequest then
    if l.tm2schOpcode = enqueueOpcode then some .enqueue
    else if l.tm2schOpcode = dequeueOpcode then some .dequeue
    else if l.tm2schOpcode = isQueuedOpcode then some .isQueued
    else if l.tm2schOpcode = isEmptyOpcode then some .isEmpty
    else none
  else none

def cTogglePreemption : BitVec 8 := 0x48
def cSetDefaultPriority : BitVec 8 := 0x4C
def cGetIdleThread : BitVec 8 := 0x50
def cSetIdleThread : BitVec 8 := 0x54
def cGetEncoderOutput : BitVec 8 := 0x58
def cSetSchedParam : BitVec 8 := 0x5C
def cGetEntry : BitVec 8 := 0x60
def cGetSchedParam : BitVec 8 := 0x64
def cCheckSchedParam : BitVec 8 := 0x68
def cMallocLock : BitVec 8 := 0x44

def busCmdProc (l : Lines) : Option BusRequest :=
  let command := slice l.bus2ipAddr 24 8
  if l.bus2ipWrCE then
    if command = cSetSchedParam then some .setSchedParam
    else if command = cTogglePreemption then some .togglePreemption
    else some .error
  else if l.bus2ipRdCE then
    if command = cGetIdleThread then some .getIdleThread
    else if command = cSetIdleThread then some .setIdleThread
    else if command = cGetEntry then some .getEntry
    else if command = cGetEncoderOutput then some .getEncoderOutput
    else if command = cSetDefaultPriority then some .defaultPriority
    else if command = cGetSchedParam then some .getSchedParam
    else if command = cCheckSchedParam then some .checkSchedParam
    else if command = cMallocLock then some .mallocLock
    else some .error
  else none

def idleLogic (x : Signals) (r : Registers) : Drive :=
  match x.requests.tm, x.requests.bus with
  | some .enqueue, none => { next := { r with currentStateMaster := .enq .begin } }
  | some .dequeue, none => { next := { r with currentStateMaster := .deq .begin } }
  | some .isQueued, none => { next := { r with currentStateMaster := .isQueued .begin } }
  | some .isEmpty, none => { next := { r with currentStateMaster := .isEmpty .check } }
  | none, some .getEncoderOutput => { next := { r with currentStateMaster := .getEncoderOutput } }
  | none, some .setSchedParam => { next := { r with currentStateMaster := .setSchedParam .begin } }
  | none, some .togglePreemption =>
    answer { r with preemptionInterruptEnable := bit x.lines.bus2ipData 0 } 0
  | none, some .getIdleThread =>
    answer r (0#23 ++ r.idleThreadId ++ BitVec.ofBool r.idleThreadValid)
  | none, some .setIdleThread => { next := { r with currentStateMaster := .setIdleThread .begin } }
  | none, some .getEntry => { next := { r with currentStateMaster := .getEntry .begin } }
  | none, some .defaultPriority => answer r (BitVec.allOnes 32)
  | none, some .getSchedParam => { next := { r with currentStateMaster := .getSchedParam .begin } }
  | none, some .checkSchedParam =>
    { next := { r with currentStateMaster := .checkSchedParam .begin } }
  | none, some .mallocLock => { next := { r with currentStateMaster := .mallocLock .request } }
  | none, some .error => answer r (BitVec.allOnes 32)
  -- the decode is one-hot: two registered requests, like none, leave the machine in idle
  | _, _ => { next := { r with currentStateMaster := .idle } }

def resetLogic (x : Signals) (r : Registers) : ResetState → Drive
  | .reset =>
    { next := { r with currentStateMaster := .reset .resetBram }
      encoderReset := true
      tmDataOut := 0
      tmDataReady := true }
  | .resetBram =>
    { next := { r with
        currentStateMaster :=
          if x.resetAddr = 0b011111111 then .reset .resetWait4Ack else .reset .resetBram }
      a := .write x.resetAddr (setPriority 0b1000000 (0#23 ++ x.resetAddr))
      b := .write x.resetAddr 0
      u := .write x.resetAddr 0 }
  | .resetWait4Ack =>
    if x.lines.softReset then { next := r, resetDone := true }
    else
      { next := { r with
          insideReset := false
          currentStateMaster := .idle } }

def masterLogic (x : Signals) (regs : Registers) : Drive :=
  let r := { regs with encoderEnable := false }
  match regs.currentStateMaster with
  | .idle => idleLogic x r
  | .waitTransDone =>
    if !x.lines.bus2ipRdCE && !x.lines.bus2ipWrCE then
      { next := { r with currentStateMaster := .idle } }
    else { next := r }
  | .reset s => resetLogic x r s
  | .getEncoderOutput => answer r r.debugReg
  | .setSchedParam s => setSchedParamLogic x r s
  | .getSchedParam s => getSchedParamLogic x r s
  | .checkSchedParam s => checkSchedParamLogic x r s
  | .enq s => enqLogic x r s
  | .deq s => deqLogic x r s
  | .mallocLock s => mallocLockLogic x r s
  | .getEntry s => getEntryLogic x r s
  | .isQueued s => isQueuedLogic x r s
  | .isEmpty s => isEmptyLogic x r s
  | .setIdleThread s => setIdleThreadLogic x r s

inductive MstCmdState
  | cmdIdle
  | cmdRun
  | cmdWaitForData
  | cmdDone
  deriving DecidableEq

structure MstCmd where
  state : MstCmdState
  busy : Bool
  wrReq : Bool
  addr : Word

def MstCmd.clock (l : Lines) (go : Bool) (addr : Word) (m : MstCmd) : MstCmd :=
  if l.bus2ipReset then ⟨.cmdIdle, false, false, 0⟩
  else match m.state with
    | .cmdIdle => if go then ⟨.cmdRun, true, false, 0⟩ else ⟨.cmdIdle, false, false, 0⟩
    | .cmdRun =>
      if l.bus2ipMstCmdAck && !l.bus2ipMstCmplt then ⟨.cmdWaitForData, true, false, 0⟩
      else if l.bus2ipMstCmplt then ⟨.cmdDone, true, false, 0⟩
      else ⟨.cmdRun, true, true, addr⟩
    | .cmdWaitForData =>
      if l.bus2ipMstCmplt then ⟨.cmdDone, true, false, 0⟩ else ⟨.cmdWaitForData, true, false, 0⟩
    | .cmdDone => ⟨.cmdIdle, false, false, 0⟩

/-- The whole core between two clock edges. `swtmDob` is the output register of the port
through which the scheduler reads the thread manager's table. -/
structure Core where
  regs : Registers
  requests : Requests
  threadData : Bram 9 32
  priorityData : Bram 9 32
  paramData : Bram 9 32
  swtmDob : Word
  encoder : Encoder
  resetAddr : BitVec 9
  sch2tmData : ThreadId
  ip2busData : Word
  ip2busAck : Bool
  mstCmd : MstCmd

namespace Core

def signals (l : Lines) (c : Core) : Signals where
  lines := l
  requests := c.requests
  doa := c.threadData.dout
  dob := c.priorityData.dout
  dou := c.paramData.dout
  swtmDob := c.swtmDob
  encoderOutput := c.encoder.best
  resetAddr := c.resetAddr
  mstCmdSmBusy := c.mstCmd.busy

def drive (l : Lines) (c : Core) : Drive := masterLogic (c.signals l) c.regs

def clock (l : Lines) (c : Core) : Core :=
  let d := c.drive l
  let enterReset := l.softReset && !c.regs.insideReset
  { regs := if enterReset then .softReset else d.next
    requests := ⟨tmCmdProc l, busCmdProc l⟩
    threadData := c.threadData.clock d.a
    priorityData := c.priorityData.clock d.b
    paramData := c.paramData.clock d.u
    swtmDob := if d.swtm.en then l.swtm d.swtm.addr else c.swtmDob
    encoder := c.encoder.clock d.encoderReset c.regs.encoderEnable c.regs.encoderInput
    resetAddr := if enterReset then 0 else if d.a.en then c.resetAddr + 1 else c.resetAddr
    sch2tmData := if d.tmDataReady then d.tmDataOut else c.sch2tmData
    ip2busData := if d.busDataReady then d.busDataOut else 0
    ip2busAck := d.busDataReady && d.busAckReady
    mstCmd := c.mstCmd.clock l d.ip2busMstWrReq d.ip2busAddr }

end Core

end Hthreads.Scheduler
