import Hthreads.Scheduler.Commands
import Hthreads.ThreadManager.Core

/-! The thread manager and the scheduler on one clock. The thread manager drives the request
lines out of registers and reads back the registered busy flag, data and next thread. -/

namespace Hthreads.Cores

open Library Library.BitFields Scheduler ThreadManager

structure System where
  tm : Swtm
  sch : Core

structure Inputs where
  tm : BusLines
  schAddr : Word
  schData : Word
  schRdCE : Bool
  schWrCE : Bool
  schReset : Bool
  mstCmdAck : Bool
  mstCmplt : Bool

namespace System

def lines (x : Inputs) (m : Swtm) : Lines where
  softReset := m.schedulerReset
  tm2schCurrentCpuTid := m.regs.cpuThreadId
  tm2schOpcode := m.regs.tm2schOpcode
  tm2schData := m.regs.tm2schData
  tm2schRequest := m.regs.tm2schRequest
  bus2ipAddr := x.schAddr
  bus2ipData := x.schData
  bus2ipRdCE := x.schRdCE
  bus2ipWrCE := x.schWrCE
  bus2ipReset := x.schReset
  bus2ipMstCmdAck := x.mstCmdAck
  bus2ipMstCmplt := x.mstCmplt
  swtm := m.threadTable.data

def sch2tm (c : Core) : Sch2Tm where
  busy := c.regs.schedBusy
  data := c.sch2tmData
  nextId := c.regs.nextThreadIdReg
  nextIdValid := c.regs.nextThreadValidReg

def clock (x : Inputs) (s : System) : System where
  tm := s.tm.clock x.tm (sch2tm s.sch) (s.sch.drive (lines x s.tm)).resetDone
  sch := s.sch.clock (lines x s.tm)

-- the state after `n` cycles
def after (xs : ℕ → Inputs) : ℕ → System → System
  | 0, s => s
  | n + 1, s => (after xs n s).clock (xs n)

end System

/-- A request of the thread manager. DEQUEUE is about the current thread, not about the data. -/
structure Request where
  op : TmRequest
  tid : ThreadId
  deriving DecidableEq

namespace Request

def onLines (l : Lines) (op : TmRequest) : Request where
  op := op
  tid := match op with
    | .dequeue => l.tm2schCurrentCpuTid
    | _ => l.tm2schData

def effectful (q : Request) : Bool :=
  match q.op with
  | .enqueue | .dequeue => true
  | .isQueued | .isEmpty => false

def effect (q : Request) (T : Tables) : Tables :=
  match q.op with
  | .enqueue => T.enqueue q.tid
  | .dequeue => T.dequeue q.tid
  | .isQueued | .isEmpty => T

def result (q : Request) (T : Tables) : ThreadId :=
  match q.op with
  | .enqueue => if isSoftwareParam (T.param q.tid) then 0x80 else 0
  | .dequeue => 0
  | .isQueued => 0#7 ++ BitVec.ofBool (T.queued q.tid)
  | .isEmpty => 0#7 ++ BitVec.ofBool (isEncoderZero T.encoderInput)

end Request

-- a request whose first state the scheduler went through, and the tables it found then
structure Execution extends Request where
  tables : Tables

/-- What happened on the wires so far, newest first. `before` is what had been executed when the
newest request was issued, `answered` what had been executed when the data register of the
scheduler was last written. -/
structure Journal where
  issued : List Request
  executed : List Execution
  before : List Execution
  answered : List Execution

namespace Journal

def empty : Journal := ⟨[], [], [], []⟩

-- the request that the thread manager raises at the end of this cycle
def raised (m m' : Swtm) : Option TmRequest :=
  match m.regs.currentState, m'.regs.currentState with
  | .waitAck _, _ => none
  | _, .waitAck op => some op
  | _, _ => none

-- the request that the scheduler starts to execute in this cycle
def begun (c : Core) : Option TmRequest :=
  match c.regs.currentStateMaster with
  | .enq .begin => some .enqueue
  | .deq .begin => some .dequeue
  | .isQueued .begin => some .isQueued
  | .isEmpty .check => some .isEmpty
  | _ => none

def record (x : Inputs) (s : System) (j : Journal) : Journal :=
  let l := System.lines x s.tm
  let executed := match begun s.sch with
    | some op => ⟨Request.onLines l op, s.sch.tables⟩ :: j.executed
    | none => j.executed
  let s' := s.clock x
  { issued := match raised s.tm s'.tm with
      | some op => Request.onLines (System.lines x s'.tm) op :: j.issued
      | none => j.issued
    executed := executed
    before := if (raised s.tm s'.tm).isSome then executed else j.before
    answered := if (s.sch.drive l).tmDataReady then executed else j.answered }

def effectsIssued (j : Journal) : List Request := j.issued.filter Request.effectful

def effectsExecuted (j : Journal) : List Request :=
  (j.executed.map Execution.toRequest).filter Request.effectful

end Journal

-- no command for the scheduler on its own bus, and no reset of the whole board
structure Inputs.Undisturbed (x : Inputs) : Prop where
  rdCE : x.schRdCE = false
  wrCE : x.schWrCE = false
  reset : x.tm.bus2ipReset = false

/-- Every clocked run that begins with both cores idle. -/
inductive Run : System → Journal → Prop
  | start {s : System} : s.tm.regs.currentState = .idleState → s.tm.regs.tm2schRequest = false →
    s.sch.Quiescent → Run s .empty
  | step {s : System} {j : Journal} (x : Inputs) :
    x.Undisturbed → Run s j → Run (s.clock x) (j.record x s)

end Hthreads.Cores
