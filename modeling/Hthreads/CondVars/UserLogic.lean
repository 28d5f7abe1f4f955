import Hthreads.CondVars.Core
import Hthreads.Library.BitFields

/-! The bus interface of the condition variable core (`user_logic.vhd`), and a bus that sends it
one command after the other. -/

namespace Hthreads.CondVars

open Library Library.BitFields Scheduler

inductive MasterState
  | idle
  | waitTransDone
  | reset
  | resetCore
  | resetWait4Ack
  | commandBegin (op : Op)
  | commandFinish (op : Op)
  deriving DecidableEq

structure Requests where
  enqueue : Bool
  dequeue : Bool
  dequeueAll : Bool
  error : Bool
  deriving DecidableEq

def Requests.none : Requests := ⟨false, false, false, false⟩

def Requests.of : Op → Requests
  | .enqueue => ⟨true, false, false, false⟩
  | .dequeue => ⟨false, true, false, false⟩
  | .dequeueAll => ⟨false, false, true, false⟩

structure Bus where
  rdCE : Bool
  wrCE : Bool
  addr : Word
  softReset : Bool
  full : Bool

def getCVAR (addr : Word) : Cvar := 0#2 ++ slice addr 24 6
def getTID (addr : Word) : ThreadId := slice addr 16 8
def getOpcode (addr : Word) : BitVec 2 := slice addr 13 2

-- `BUS_CMD_PROC`
def busCmdProc (b : Bus) : Requests :=
  if b.wrCE then { Requests.none with error := true }
  else if b.rdCE then
    match Op.ofCode (getOpcode b.addr) with
    | some op => .of op
    | none => { Requests.none with error := true }
  else .none

structure UserLogic where
  state : MasterState
  insideReset : Bool
  requests : Requests
  ack : Bool
  data : Word
  core : Core

structure MasterDrive where
  next : MasterState
  insideReset : Bool
  cmd : Bool := false
  opcode : BitVec 2 := 0
  cvar : Cvar := 0
  tid : ThreadId := 0
  dataOut : Word := 0
  dataReady : Bool := false
  ackReady : Bool := false
  resetSig : Bool := false
  resetDone : Bool := false

namespace UserLogic

-- `MASTER_FSM_LOGIC_PROC`; the acknowledge of the core is its register `done`
def masterDrive (b : Bus) (u : UserLogic) : MasterDrive :=
  match u.state with
  | .idle =>
    match u.requests with
    | ⟨true, false, false, false⟩ =>
      { next := .commandBegin .enqueue, insideReset := u.insideReset }
    | ⟨false, true, false, false⟩ =>
      { next := .commandBegin .dequeue, insideReset := u.insideReset }
    | ⟨false, false, true, false⟩ =>
      { next := .commandBegin .dequeueAll, insideReset := u.insideReset }
    | ⟨false, false, false, true⟩ =>
      { next := .waitTransDone, insideReset := u.insideReset, dataOut := BitVec.allOnes 32
        dataReady := true, ackReady := true }
    | _ => { next := .idle, insideReset := u.insideReset }
  | .waitTransDone =>
    { next := if !b.rdCE && !b.wrCE then .idle else .waitTransDone, insideReset := u.insideReset }
  | .reset => { next := .resetCore, insideReset := u.insideReset, resetSig := true }
  | .resetCore =>
    { next := if u.core.regs.done then .resetWait4Ack else .resetCore
      insideReset := u.insideReset }
  | .resetWait4Ack =>
    if b.softReset then
      { next := .resetWait4Ack, insideReset := u.insideReset, resetDone := true }
    else { next := .idle, insideReset := false }
  | .commandBegin op =>
    if u.core.regs.done then { next := .commandFinish op, insideReset := u.insideReset }
    else
      { next := .commandBegin op, insideReset := u.insideReset, cmd := true, opcode := op.code
        cvar := getCVAR b.addr, tid := getTID b.addr }
  | .commandFinish _ =>
    { next := .waitTransDone, insideReset := u.insideReset, dataReady := true, ackReady := true }

def lines (b : Bus) (u : UserLogic) : Lines :=
  let d := u.masterDrive b
  ⟨d.cmd, d.opcode, d.cvar, d.tid, b.full⟩

def clock (b : Bus) (u : UserLogic) : UserLogic :=
  let d := u.masterDrive b
  { state := if b.softReset && !u.insideReset then .reset else d.next
    insideReset := if b.softReset && !u.insideReset then true else d.insideReset
    requests := busCmdProc b
    ack := d.dataReady && d.ackReady
    data := if d.dataReady then d.dataOut else 0
    core := if d.resetSig then u.core.reset (u.lines b) else u.core.clock (u.lines b) }

def sent (b : Bus) (u : UserLogic) : Option ThreadId := u.core.sent (u.lines b)

end UserLogic

inductive Command
  | wait (cvar : Cvar) (tid : ThreadId)
  | signal (cvar : Cvar)
  | broadcast (cvar : Cvar)
  deriving DecidableEq

def Op.command (cvar : Cvar) (tid : ThreadId) : Op → Command
  | enqueue => .wait cvar tid
  | dequeue => .signal cvar
  | dequeueAll => .broadcast cvar

def command (addr : Word) : Option Command :=
  (Op.ofCode (getOpcode addr)).map (Op.command (getCVAR addr) (getTID addr))

def Core.accepts (x : Lines) (c : Core) : Option Command :=
  if c.regs.state = .idle ∧ x.cmd = true then (Op.ofCode x.opcode).map (Op.command x.cvar x.tid)
  else none

inductive Phase
  | idle
  | asserting (addr : Word)
  | held (addr : Word)

/-- What the surroundings decide in one cycle: whether the channel is full, whether the bus begins
its next transaction and whether it still holds the lines of one that has been answered. -/
structure Tick where
  full : Bool
  start : Bool
  hold : Bool

structure Bench where
  logic : UserLogic
  phase : Phase
  pending : List Word
  answered : ℕ
  sent : List ThreadId
  executed : List Command

namespace Bench

def bus (t : Tick) (b : Bench) : Bus :=
  match b.phase with
  | .idle => ⟨false, false, 0, false, t.full⟩
  | .asserting addr | .held addr => ⟨true, false, addr, false, t.full⟩

def release (hold : Bool) (addr : Word) : Phase := if hold then .held addr else .idle

def advance (t : Tick) (b : Bench) : Bench :=
  { b with
    logic := b.logic.clock (b.bus t)
    sent := b.sent ++ (b.logic.sent (b.bus t)).toList
    executed := b.executed ++ (b.logic.core.accepts (b.logic.lines (b.bus t))).toList }

-- the bus holds its lines until it sees the acknowledge
def clock (t : Tick) (b : Bench) : Bench :=
  let c := b.advance t
  match b.phase, b.pending with
  | .idle, addr :: rest =>
    if t.start then { c with phase := .asserting addr, pending := rest } else c
  | .idle, [] => c
  | .asserting addr, _ =>
    if b.logic.ack then { c with phase := release t.hold addr, answered := b.answered + 1 } else c
  | .held addr, _ => { c with phase := release t.hold addr }

def run (b : Bench) (ticks : ℕ → Tick) : ℕ → Bench
  | 0 => b
  | n + 1 => (run b ticks n).clock (ticks n)

end Bench

end Hthreads.CondVars
