import Hthreads.Scheduler.BusTransactions

/-! Whole commands at the ports of the scheduler. The thread manager holds its request until
the scheduler is busy, the bus holds its chip enable until it is acknowledged. -/

namespace Hthreads.Scheduler

open Library Library.BitFields Hthreads.Scheduler.Core

inductive Command
  | enqueue (tid : ThreadId)
  | dequeue
  | isQueued (tid : ThreadId)
  | isEmpty
  | setSchedParam (tid : ThreadId) (param : Word)
  | setIdleThread (tid : ThreadId)
  | getSchedParam (tid : ThreadId)
  | checkSchedParam (tid : ThreadId)
  | getEntry (tid : ThreadId)
  deriving DecidableEq

/-- What the thread manager shows to the scheduler while a command runs. -/
structure Environment where
  currentCpuTid : ThreadId
  swtm : ThreadId → Word

namespace Environment

def quietLines (e : Environment) : Lines where
  softReset := false
  tm2schCurrentCpuTid := e.currentCpuTid
  tm2schOpcode := 0
  tm2schData := 0
  tm2schRequest := false
  bus2ipAddr := 0
  bus2ipData := 0
  bus2ipRdCE := false
  bus2ipWrCE := false
  bus2ipReset := false
  bus2ipMstCmdAck := true
  bus2ipMstCmplt := true
  swtm addr := e.swtm (addr.setWidth 8)

def resetLines (e : Environment) : Lines := { e.quietLines with softReset := true }

def tmLines (e : Environment) (opcode : BitVec 6) (data : ThreadId) : Lines :=
  { e.quietLines with
    tm2schRequest := true
    tm2schOpcode := opcode
    tm2schData := data }

def busAddr (tid : ThreadId) (command : BitVec 8) : Word := 0#16 ++ tid ++ command

def readLines (e : Environment) (tid : ThreadId) (command : BitVec 8) : Lines :=
  { e.quietLines with
    bus2ipAddr := busAddr tid command
    bus2ipRdCE := true }

def writeLines (e : Environment) (tid : ThreadId) (command : BitVec 8) (data : Word) : Lines :=
  { e.quietLines with
    bus2ipAddr := busAddr tid command
    bus2ipData := data
    bus2ipWrCE := true }

end Environment

namespace Command

def lines (e : Environment) : Command → Lines
  | enqueue tid => e.tmLines enqueueOpcode tid
  | dequeue => e.tmLines dequeueOpcode e.currentCpuTid
  | isQueued tid => e.tmLines isQueuedOpcode tid
  | isEmpty => e.tmLines isEmptyOpcode 0
  | setSchedParam tid param => e.writeLines tid cSetSchedParam param
  | setIdleThread tid => e.readLines tid cSetIdleThread
  | getSchedParam tid => e.readLines tid cGetSchedParam
  | checkSchedParam tid => e.readLines tid cCheckSchedParam
  | getEntry tid => e.readLines tid cGetEntry

def accepted : Command → Core → Bool
  | enqueue _ | dequeue | isQueued _ | isEmpty => Core.busy
  | _ => acknowledged

def effect (e : Environment) : Command → Tables → Tables
  | enqueue tid, T => T.enqueue tid
  | dequeue, T => T.dequeue e.currentCpuTid
  | setSchedParam tid param, T => T.setSchedParam (e.swtm tid) e.currentCpuTid tid param
  | setIdleThread tid, T => T.setIdleThread (e.swtm tid) tid
  | _, T => T

end Command

namespace Core

def hold (e : Environment) (cmd : Command) (c : Core) : Core :=
  runUntil Core.clock cmd.accepted (fun _ => cmd.lines e) 32 0 c

def execute (e : Environment) (cmd : Command) (c : Core) : Core :=
  runUntil Core.clock (inState .idle) (fun _ => e.quietLines) 32 0 (c.hold e cmd)

def run : List (Environment × Command) → Core → Core
  | [], c => c
  | (e, cmd) :: cmds, c => run cmds (c.execute e cmd)

structure Quiescent (c : Core) : Prop extends Ready c where
  state : c.regs.currentStateMaster = .idle
  schedBusy : c.regs.schedBusy = false
  ack : c.ip2busAck = false
  requests : c.requests = ⟨none, none⟩

end Core

lemma addrThreadId_busAddr (tid : ThreadId) (command : BitVec 8) :
    addrThreadId (Environment.busAddr tid command) = tid := by
  apply BitVec.eq_of_getLsbD_eq
  intro i hi
  have hlow : ¬ 32 - 16 - 8 + i < 8 := by omega
  have hsub : 32 - 16 - 8 + i - 8 = i := by omega
  simp only [addrThreadId, getLsbD_slice, Environment.busAddr, BitVec.getLsbD_append, hi, hlow,
    hsub, decide_true, Bool.true_and, if_true, if_false]

lemma command_busAddr (tid : ThreadId) (command : BitVec 8) :
    slice (Environment.busAddr tid command) 24 8 = command := by
  apply BitVec.eq_of_getLsbD_eq
  intro i hi
  have hsub : 32 - 24 - 8 + i = i := by omega
  simp only [getLsbD_slice, Environment.busAddr, BitVec.getLsbD_append, hi, hsub, decide_true,
    Bool.true_and, if_true]

lemma setWidth_threadAddr (tid : ThreadId) : (threadAddr tid).setWidth 8 = tid := by
  apply BitVec.eq_of_getLsbD_eq
  intro i hi
  simp only [threadAddr, BitVec.getLsbD_setWidth, BitVec.getLsbD_append, hi, decide_true,
    Bool.true_and, if_true]

def TmRequest.start : TmRequest → MasterState
  | .enqueue => .enq .begin
  | .dequeue => .deq .begin
  | .isQueued => .isQueued .begin
  | .isEmpty => .isEmpty .check

def BusRequest.start : BusRequest → Option MasterState
  | .setSchedParam => some (.setSchedParam .begin)
  | .setIdleThread => some (.setIdleThread .begin)
  | .getEntry => some (.getEntry .begin)
  | .getSchedParam => some (.getSchedParam .begin)
  | .checkSchedParam => some (.checkSchedParam .begin)
  | .mallocLock => some (.mallocLock .request)
  | .getEncoderOutput => some .getEncoderOutput
  | _ => none

structure Decoded (c c' : Core) (s : MasterState) : Prop extends Settled c' s c.tables where
  ack : c'.ip2busAck = false

attribute [local simp] Core.clock Core.drive Core.signals masterLogic idleLogic Encoder.clock
  Core.tables in
lemma tm_decoded {c : Core} (hc : c.Quiescent) {l : Lines} {r : TmRequest}
    (hs : l.softReset = false) (hr : tmCmdProc l = some r) (hb : busCmdProc l = none) :
    Decoded c ((c.clock l).clock l) r.start := by
  obtain ⟨⟨he, hf, hi, hm⟩, hstate, hbusy, hack, hreq⟩ := hc
  cases r
  all_goals
    simp [TmRequest.start, he, hf, hi, hm, hstate, hbusy, hreq, hs, hr, hb]
    exact ⟨⟨⟨rfl, hf, rfl, rfl⟩, rfl, rfl, rfl⟩, rfl⟩

attribute [local simp] Core.clock Core.drive Core.signals masterLogic idleLogic Encoder.clock
  Core.tables in
lemma bus_decoded {c : Core} (hc : c.Quiescent) {l : Lines} {r : BusRequest} {s : MasterState}
    (hs : l.softReset = false) (ht : tmCmdProc l = none) (hb : busCmdProc l = some r)
    (hr : r.start = some s) : Decoded c ((c.clock l).clock l) s := by
  obtain ⟨⟨he, hf, hi, hm⟩, hstate, hbusy, hack, hreq⟩ := hc
  cases r
  all_goals
    simp only [BusRequest.start, reduceCtorEq, Option.some.injEq] at hr
  all_goals
    subst hr
    simp [he, hf, hi, hm, hstate, hbusy, hreq, hs, ht, hb]
    exact ⟨⟨⟨rfl, hf, rfl, rfl⟩, rfl, rfl, rfl⟩, rfl⟩

lemma clock_quiescent {c : Core} (hc : c.Quiescent) {l : Lines} (hs : l.softReset = false) :
    (c.clock l).regs.schedBusy = false ∧ (c.clock l).ip2busAck = false := by
  simp [Core.clock, Core.drive, Core.signals, masterLogic, idleLogic, hc.state, hc.schedBusy,
    hc.requests, hs]

lemma tm_busy {c : Core} {r : TmRequest} {l : Lines} (hs : l.softReset = false)
    (h : c.regs.currentStateMaster = r.start) :
    (c.clock l).regs.schedBusy = true ∧ (c.clock l).inState .idle = false := by
  cases r
  all_goals
    simp [TmRequest.start] at h
    simp [Core.clock, Core.drive, Core.signals, masterLogic, enqLogic, deqLogic, isQueuedLogic,
      isEmptyLogic, Core.inState, hs, h]

lemma requests_quietLines (e : Environment) (c : Core) :
    (c.clock e.quietLines).requests = ⟨none, none⟩ := by
  simp [Core.clock, tmCmdProc, busCmdProc, Environment.quietLines]

-- the lines of a command held for one cycle and then released
def release (e : Environment) (l : Lines) (k : ℕ) : Lines := if k = 0 then l else e.quietLines

lemma release_steady {e : Environment} {l : Lines} (hs : l.softReset = false)
    (hc : l.tm2schCurrentCpuTid = e.currentCpuTid) : SteadyLines (release e l) e.currentCpuTid := by
  constructor
  · intro k
    by_cases hk : k = 0 <;> simp [release, hk, hs, Environment.quietLines]
  · intro k
    by_cases hk : k = 0 <;> simp [release, hk, hc, Environment.quietLines]

structure Executed (c : Core) (T : Tables) : Prop extends Quiescent c where
  tables : c.tables = T

lemma execute_tm {e : Environment} {cmd : Command} {c : Core} {r : TmRequest} (hc : c.Quiescent)
    (hacc : cmd.accepted = Core.busy) (hs : (cmd.lines e).softReset = false)
    (hr : tmCmdProc (cmd.lines e) = some r) (hb : busCmdProc (cmd.lines e) = none) :
    c.execute e cmd = runUntil Core.clock (inState .idle) (release e (cmd.lines e)) 33 0
      ((c.clock (cmd.lines e)).clock (cmd.lines e)) ∧
    (c.execute e cmd).requests = ⟨none, none⟩ := by
  set l := cmd.lines e with hl
  have hd := tm_decoded hc hs hr hb
  obtain ⟨hbusy, hidle⟩ := tm_busy hs hd.state
  have hhold : c.hold e cmd = ((c.clock l).clock l).clock l := by
    rw [Core.hold, hacc, ← hl]
    have h0 : c.busy = false := hc.schedBusy
    have h1 : (c.clock l).busy = false := (clock_quiescent hc hs).1
    have h2 : ((c.clock l).clock l).busy = false := hd.schedBusy
    have h3 : (((c.clock l).clock l).clock l).busy = true := hbusy
    simp [runUntil, h0, h1, h2, h3]
  have hstart : ((c.clock l).clock l).inState .idle = false := by
    rw [Core.inState, hd.state]
    cases r <;> rfl
  constructor
  · rw [Core.execute, hhold, runUntil_step Core.clock (release e l) 32 0 hstart]
    apply runUntil_congr
    intro j
    simp [release]
  · rw [Core.execute, hhold]
    exact runUntil_after Core.clock (fun _ => e.quietLines)
      (P := fun c' => c'.requests = ⟨none, none⟩) (fun _ c' => requests_quietLines e c') 31 0 hidle

lemma executed_tm {e : Environment} {cmd : Command} {c : Core} {r : TmRequest} {T : Tables}
    {data : ThreadId} (hc : c.Quiescent)
    (hacc : cmd.accepted = Core.busy) (hs : (cmd.lines e).softReset = false)
    (hr : tmCmdProc (cmd.lines e) = some r) (hb : busCmdProc (cmd.lines e) = none)
    (hserved : ∀ c', Decoded c c' r.start →
      Served (runUntil Core.clock (inState .idle) (release e (cmd.lines e)) 13 0 c') T data) :
    Executed (c.execute e cmd) T ∧ (c.execute e cmd).sch2tmData = data := by
  obtain ⟨heq, hreq⟩ := execute_tm hc hacc hs hr hb
  have hsv := hserved _ (tm_decoded hc hs hr hb)
  have hidle : inState .idle (runUntil Core.clock (inState .idle) (release e (cmd.lines e)) 13 0
      ((c.clock (cmd.lines e)).clock (cmd.lines e))) = true := by
    rw [Core.inState, hsv.state]
    rfl
  rw [runUntil_mono Core.clock _ 0 (by omega : 13 ≤ 33) hidle] at heq
  rw [heq] at hreq ⊢
  exact ⟨⟨⟨hsv.toReady, hsv.state, hsv.schedBusy, hsv.ack, hreq⟩, hsv.tables⟩, hsv.data⟩

section ThreadManagerCommands

variable {c : Core} (e : Environment)

lemma execute_enqueue (hc : c.Quiescent) (tid : ThreadId) :
    Executed (c.execute e (.enqueue tid)) (c.tables.enqueue tid) ∧
      (c.execute e (.enqueue tid)).sch2tmData =
        if isSoftwareParam (c.tables.param tid) then 0x80 else 0 := by
  refine executed_tm (r := .enqueue) hc rfl rfl rfl rfl fun c' hd => ?_
  have hl := release_steady (e := e) (l := (Command.enqueue tid).lines e) rfl rfl
  rw [← hd.tables]
  cases hp : isSoftwareParam (c'.tables.param tid) with
  | true => exact enqueue_served hl hd.toReady hd.state rfl hp
  | false =>
    refine enqueue_started hl ?_ ?_ hd.toReady hd.state rfl hp
    · intro k
      by_cases hk : k = 0 <;> simp [release, hk] <;> rfl
    · intro k
      by_cases hk : k = 0 <;> simp [release, hk] <;> rfl

lemma execute_dequeue (hc : c.Quiescent) :
    Executed (c.execute e .dequeue) (c.tables.dequeue e.currentCpuTid) ∧
      (c.execute e .dequeue).sch2tmData = 0 := by
  refine executed_tm (r := .dequeue) hc rfl rfl rfl rfl fun c' hd => ?_
  rw [← hd.tables]
  exact dequeue_served (release_steady rfl rfl) hd.toReady hd.state

lemma execute_isQueued (hc : c.Quiescent) (tid : ThreadId) :
    Executed (c.execute e (.isQueued tid)) c.tables ∧
      (c.execute e (.isQueued tid)).sch2tmData = 0#7 ++ BitVec.ofBool (c.tables.queued tid) := by
  refine executed_tm (r := .isQueued) hc rfl rfl rfl rfl fun c' hd => ?_
  rw [← hd.tables]
  exact isQueued_served (release_steady rfl rfl) hd.toReady hd.state rfl

lemma execute_isEmpty (hc : c.Quiescent) :
    Executed (c.execute e .isEmpty) c.tables ∧
      (c.execute e .isEmpty).sch2tmData =
        0#7 ++ BitVec.ofBool (isEncoderZero c.tables.encoderInput) := by
  refine executed_tm (r := .isEmpty) hc rfl rfl rfl rfl fun c' hd => ?_
  rw [← hd.tables]
  exact isEmpty_served (release_steady rfl rfl) hd.toReady hd.state

end ThreadManagerCommands

lemma waitTransDone_released {c : Core} {T : Tables} {data : Word} (hc : Answered c T data)
    (e : Environment) :
      Executed (runUntil Core.clock (inState .idle) (fun _ => e.quietLines) 32 0 c)
      T := by
  obtain ⟨⟨⟨he, hf, hi, hm⟩, hstate, hbusy, rfl⟩, -, -⟩ := hc
  have hs : e.quietLines.softReset = false := rfl
  have hr : e.quietLines.bus2ipRdCE = false := rfl
  have hw : e.quietLines.bus2ipWrCE = false := rfl
  have ht : tmCmdProc e.quietLines = none := rfl
  have hb : busCmdProc e.quietLines = none := rfl
  simp [runUntil, inState, Core.clock, Core.drive, Core.signals, masterLogic, Encoder.clock, hstate,
    hs, hr, hw, ht, hb, hm, hf, hbusy, hi, he]
  exact ⟨⟨⟨rfl, hf, rfl, rfl⟩, rfl, rfl, rfl, rfl⟩, rfl⟩

lemma executed_bus {e : Environment} {cmd : Command} {c : Core} {r : BusRequest} {s : MasterState}
    {T : Tables} {data : Word} (hc : c.Quiescent)
    (hacc : cmd.accepted = acknowledged) (hs : (cmd.lines e).softReset = false)
    (ht : tmCmdProc (cmd.lines e) = none) (hb : busCmdProc (cmd.lines e) = some r)
    (hr : r.start = some s)
    (hanswered : ∀ c', Decoded c c' s →
      Answered (runUntil Core.clock acknowledged (fun _ => cmd.lines e) 24 0 c') T data) :
    Executed (c.execute e cmd) T ∧ (c.hold e cmd).ip2busData = data := by
  set l := cmd.lines e with hl
  have hd := bus_decoded hc hs ht hb hr
  have ha := hanswered _ hd
  have hhold : c.hold e cmd = runUntil Core.clock acknowledged (fun _ => l) 24 0
      ((c.clock l).clock l) := by
    have h0 : c.acknowledged = false := hc.ack
    have h1 : (c.clock l).acknowledged = false := (clock_quiescent hc hs).2
    rw [Core.hold, hacc, ← hl, runUntil_step Core.clock _ 31 0 h0,
      runUntil_step Core.clock _ 30 1 h1,
      ← runUntil_mono Core.clock _ 0 (by omega : 24 ≤ 30) ha.ack]
    exact runUntil_congr Core.clock acknowledged 30 (1 + 1) 0 _ (fun _ => rfl)
  rw [Core.execute, hhold]
  exact ⟨waitTransDone_released ha e, ha.data⟩

section BusCommands

variable {c : Core} (e : Environment)

lemma lines_operands {l : Lines} {tid : ThreadId} {command : BitVec 8} {param : Word}
    (ha : l.bus2ipAddr = Environment.busAddr tid command) (hd : l.bus2ipData = param)
    (hw : l.swtm = e.quietLines.swtm) : BusOperands (fun _ => l) tid param (e.swtm tid) := by
  refine ⟨?_, hd, fun _ => ?_⟩
  · rw [ha, addrThreadId_busAddr]
  · rw [hw]
    exact congrArg e.swtm (setWidth_threadAddr tid)

lemma lines_steady {l : Lines} (hs : l.softReset = false)
    (hc : l.tm2schCurrentCpuTid = e.currentCpuTid) : SteadyLines (fun _ => l) e.currentCpuTid :=
  ⟨fun _ => hs, fun _ => hc⟩

attribute [local simp] busCmdProc Command.lines Environment.writeLines Environment.readLines
  Environment.quietLines command_busAddr cSetSchedParam cTogglePreemption cGetIdleThread
  cSetIdleThread cGetEntry cGetEncoderOutput cSetDefaultPriority cGetSchedParam cCheckSchedParam
  cMallocLock

lemma busCmdProc_setSchedParam (tid : ThreadId) (param : Word) :
    busCmdProc ((Command.setSchedParam tid param).lines e) = some .setSchedParam := by
  simp

lemma execute_setSchedParam (hc : c.Quiescent) (tid : ThreadId) (param : Word) :
    Executed (c.execute e (.setSchedParam tid param))
      (c.tables.setSchedParam (e.swtm tid) e.currentCpuTid tid param) ∧
      (c.hold e (.setSchedParam tid param)).ip2busData = 0 := by
  refine executed_bus hc rfl rfl rfl (busCmdProc_setSchedParam e tid param) rfl fun c' hd => ?_
  rw [← hd.tables]
  exact setSchedParam_answered (lines_steady e rfl rfl) (lines_operands e rfl rfl rfl) hd.toReady
    hd.schedBusy hd.ack hd.state

lemma execute_setIdleThread (hc : c.Quiescent) (tid : ThreadId) :
    Executed (c.execute e (.setIdleThread tid)) (c.tables.setIdleThread (e.swtm tid) tid) ∧
      (c.hold e (.setIdleThread tid)).ip2busData =
        if c.tables.idleAllowed (e.swtm tid) tid then 0 else 1 := by
  have hb : busCmdProc ((Command.setIdleThread tid).lines e) = some .setIdleThread := by simp
  refine executed_bus hc rfl rfl rfl hb rfl fun c' hd => ?_
  rw [← hd.tables]
  exact setIdleThread_answered (lines_steady e rfl rfl) (lines_operands e rfl rfl rfl) hd.toReady
    hd.schedBusy hd.ack hd.state

lemma execute_getSchedParam (hc : c.Quiescent) (tid : ThreadId) :
    Executed (c.execute e (.getSchedParam tid)) c.tables ∧
      (c.hold e (.getSchedParam tid)).ip2busData = c.tables.param tid := by
  have hb : busCmdProc ((Command.getSchedParam tid).lines e) = some .getSchedParam := by simp
  refine executed_bus hc rfl rfl rfl hb rfl fun c' hd => ?_
  rw [← hd.tables]
  exact getSchedParam_answered (lines_steady e rfl rfl) (lines_operands e rfl rfl rfl) hd.toReady
    hd.schedBusy hd.ack hd.state

lemma execute_checkSchedParam (hc : c.Quiescent) (tid : ThreadId) :
    Executed (c.execute e (.checkSchedParam tid)) c.tables ∧
      (c.hold e (.checkSchedParam tid)).ip2busData = c.tables.checkSchedParam tid := by
  have hb : busCmdProc ((Command.checkSchedParam tid).lines e) = some .checkSchedParam := by simp
  refine executed_bus hc rfl rfl rfl hb rfl fun c' hd => ?_
  rw [← hd.tables]
  exact checkSchedParam_answered (lines_steady e rfl rfl) (lines_operands e rfl rfl rfl) hd.toReady
    hd.schedBusy hd.ack hd.state

lemma execute_getEntry (hc : c.Quiescent) (tid : ThreadId) :
    Executed (c.execute e (.getEntry tid)) c.tables ∧
      (c.hold e (.getEntry tid)).ip2busData = c.tables.thread tid := by
  have hb : busCmdProc ((Command.getEntry tid).lines e) = some .getEntry := by simp
  refine executed_bus hc rfl rfl rfl hb rfl fun c' hd => ?_
  rw [← hd.tables]
  exact getEntry_answered (lines_steady e rfl rfl) (lines_operands e rfl rfl rfl) hd.toReady
    hd.schedBusy hd.ack hd.state

end BusCommands

lemma execute_spec {c : Core} (hc : c.Quiescent) (e : Environment) (cmd : Command) :
    Executed (c.execute e cmd) (cmd.effect e c.tables) := by
  cases cmd with
  | enqueue tid => exact (execute_enqueue e hc tid).1
  | dequeue => exact (execute_dequeue e hc).1
  | isQueued tid => exact (execute_isQueued e hc tid).1
  | isEmpty => exact (execute_isEmpty e hc).1
  | setSchedParam tid param => exact (execute_setSchedParam e hc tid param).1
  | setIdleThread tid => exact (execute_setIdleThread e hc tid).1
  | getSchedParam tid => exact (execute_getSchedParam e hc tid).1
  | checkSchedParam tid => exact (execute_checkSchedParam e hc tid).1
  | getEntry tid => exact (execute_getEntry e hc tid).1

end Hthreads.Scheduler
