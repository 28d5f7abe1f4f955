import Hthreads.Scheduler.Reset

/-! The lock behind MALLOC_LOCK: its three registers, and a whole request on the bus. -/

namespace Hthreads.Scheduler

open Library Library.BitFields Hthreads.Scheduler.Core

structure MallocLock where
  mutex : Bool
  holder : ThreadId
  count : BitVec 4
  deriving DecidableEq

inductive MallocRequest
  | acquire (tid : ThreadId)
  | release (tid : ThreadId)
  deriving DecidableEq

namespace MallocLock

def initial : MallocLock := ⟨false, 0xFF, 0⟩

def acquire (tid : ThreadId) (m : MallocLock) : MallocLock :=
  if !m.mutex then ⟨true, tid, m.count + 1⟩
  else if m.holder = tid then { m with count := m.count + 1 }
  else m

-- the second cycle of a release looks at the count, not at who releases
def release (tid : ThreadId) (m : MallocLock) : MallocLock :=
  let count := if m.holder = tid then m.count - 1 else m.count
  if count = 0 then ⟨false, 0xFF, count⟩ else ⟨m.mutex, m.holder, count⟩

def answer (tid : ThreadId) (m : MallocLock) : Word :=
  0#4 ++ m.count ++ m.holder ++ 0#15 ++ BitVec.ofBool (m.holder == tid)

end MallocLock

namespace MallocRequest

def thread : MallocRequest → ThreadId
  | acquire tid | release tid => tid

def effect : MallocRequest → MallocLock → MallocLock
  | acquire tid => MallocLock.acquire tid
  | release tid => MallocLock.release tid

/-- `Bus2IP_Addr(13)` tells an acquire from a release. -/
def lines (e : Environment) : MallocRequest → Lines
  | acquire tid => { e.quietLines with
    bus2ipAddr := 0#13 ++ 1#1 ++ 0#2 ++ tid ++ cMallocLock
    bus2ipRdCE := true }
  | release tid => { e.quietLines with
    bus2ipAddr := 0#13 ++ 0#1 ++ 0#2 ++ tid ++ cMallocLock
    bus2ipRdCE := true }

end MallocRequest

namespace Core

def mallocLock (c : Core) : MallocLock where
  mutex := c.regs.mallocMutex
  holder := c.regs.mallocMutexHolder
  count := c.regs.lockCount

def holdMalloc (e : Environment) (r : MallocRequest) (c : Core) : Core :=
  runUntil Core.clock acknowledged (fun _ => r.lines e) 32 0 c

def requestMalloc (e : Environment) (r : MallocRequest) (c : Core) : Core :=
  runUntil Core.clock (inState .idle) (fun _ => e.quietLines) 32 0 (c.holdMalloc e r)

def mallocAnswer (e : Environment) (r : MallocRequest) (c : Core) : Word :=
  (c.holdMalloc e r).ip2busData

end Core

-- the operands the state machine takes from the lines of a request
structure MallocOperands (r : MallocRequest) (l : Lines) : Prop where
  op : bit l.bus2ipAddr 13 = match r with
    | .acquire _ => true
    | .release _ => false
  tid : addrThreadId l.bus2ipAddr = r.thread
  command : slice l.bus2ipAddr 24 8 = cMallocLock
  rdCE : l.bus2ipRdCE = true
  softReset : l.softReset = false
  request : l.tm2schRequest = false
  wrCE : l.bus2ipWrCE = false

lemma malloc_operands (e : Environment) (r : MallocRequest) : MallocOperands r (r.lines e) := by
  cases r with
  | acquire tid =>
    refine ⟨?_, ?_, ?_, rfl, rfl, rfl, rfl⟩
    · simp only [MallocRequest.lines, bit, BitVec.getLsbD_append]
      simp
    all_goals
      apply BitVec.eq_of_getLsbD_eq
      intro i hi
      simp only [MallocRequest.lines, MallocRequest.thread, addrThreadId, getLsbD_slice,
        BitVec.getLsbD_append, hi]
      grind
  | release tid =>
    refine ⟨?_, ?_, ?_, rfl, rfl, rfl, rfl⟩
    · simp only [MallocRequest.lines, bit, BitVec.getLsbD_append]
      simp
    all_goals
      apply BitVec.eq_of_getLsbD_eq
      intro i hi
      simp only [MallocRequest.lines, MallocRequest.thread, addrThreadId, getLsbD_slice,
        BitVec.getLsbD_append, hi]
      grind

section Cycles

attribute [local simp] runUntil acknowledged Core.inState Core.clock Core.drive Core.signals
  masterLogic idleLogic mallocLockLogic answer Encoder.clock tmCmdProc busCmdProc cSetSchedParam
  cTogglePreemption cGetIdleThread cSetIdleThread cGetEntry cGetEncoderOutput cSetDefaultPriority
  cGetSchedParam cCheckSchedParam cMallocLock

structure MallocHeld (c c' : Core) (m : MallocLock) (w : Word) : Prop where
  ready : c'.Ready
  state : c'.regs.currentStateMaster = .waitTransDone
  schedBusy : c'.regs.schedBusy = false
  tables : c'.tables = c.tables
  lock : c'.mallocLock = m
  data : c'.ip2busData = w

variable {c : Core} {e : Environment} {tid : ThreadId}

lemma malloc_acquired (hc : c.Quiescent) : MallocHeld c (c.holdMalloc e (.acquire tid))
    (c.mallocLock.acquire tid) ((c.mallocLock.acquire tid).answer tid) := by
  obtain ⟨⟨he, hf, hi, hm⟩, hstate, hbusy, hack, hreq⟩ := hc
  obtain ⟨hop, htid, hcmd, hrd, hs, ht, hw⟩ := malloc_operands e (.acquire tid)
  rw [Core.holdMalloc]
  generalize MallocRequest.lines e (.acquire tid) = l at *
  rw [MallocRequest.thread] at htid
  simp only [cMallocLock] at hcmd
  cases hmutex : c.regs.mallocMutex with
  | false =>
    simp [he, hf, hi, hm, hstate, hbusy, hack, hreq, hop, htid, hcmd, hrd, hs, ht, hw, hmutex]
    refine ⟨⟨rfl, hf, rfl, rfl⟩, rfl, rfl, rfl, ?_, ?_⟩
    all_goals simp [MallocLock.acquire, MallocLock.answer, Core.mallocLock, hmutex]
  | true =>
    by_cases hholder : c.regs.mallocMutexHolder = tid
    · simp [he, hf, hi, hm, hstate, hbusy, hack, hreq, hop, htid, hcmd, hrd, hs, ht, hw, hmutex,
        hholder]
      refine ⟨⟨rfl, hf, rfl, rfl⟩, rfl, rfl, rfl, ?_, ?_⟩
      all_goals simp [MallocLock.acquire, MallocLock.answer, Core.mallocLock, hmutex, hholder]
    · simp [he, hf, hi, hm, hstate, hbusy, hack, hreq, hop, htid, hcmd, hrd, hs, ht, hw, hmutex,
        hholder]
      refine ⟨⟨rfl, hf, rfl, rfl⟩, rfl, rfl, rfl, ?_, ?_⟩
      all_goals simp [MallocLock.acquire, MallocLock.answer, Core.mallocLock, hmutex, hholder]

lemma malloc_released (hc : c.Quiescent) : MallocHeld c (c.holdMalloc e (.release tid))
    (c.mallocLock.release tid) ((c.mallocLock.release tid).answer tid) := by
  obtain ⟨⟨he, hf, hi, hm⟩, hstate, hbusy, hack, hreq⟩ := hc
  obtain ⟨hop, htid, hcmd, hrd, hs, ht, hw⟩ := malloc_operands e (.release tid)
  rw [Core.holdMalloc]
  generalize MallocRequest.lines e (.release tid) = l at *
  rw [MallocRequest.thread] at htid
  simp only [cMallocLock] at hcmd
  by_cases hholder : c.regs.mallocMutexHolder = tid
  · by_cases hcount : c.regs.lockCount - 1#4 = 0#4
    · simp [he, hf, hi, hm, hstate, hbusy, hack, hreq, hop, htid, hcmd, hrd, hs, ht, hw, hholder,
        hcount]
      refine ⟨⟨rfl, hf, rfl, rfl⟩, rfl, rfl, rfl, ?_, ?_⟩
      all_goals simp [MallocLock.release, MallocLock.answer, Core.mallocLock, hholder, hcount]
    · simp [he, hf, hi, hm, hstate, hbusy, hack, hreq, hop, htid, hcmd, hrd, hs, ht, hw, hholder,
        hcount]
      refine ⟨⟨rfl, hf, rfl, rfl⟩, rfl, rfl, rfl, ?_, ?_⟩
      all_goals simp [MallocLock.release, MallocLock.answer, Core.mallocLock, hholder, hcount]
  · by_cases hcount : c.regs.lockCount = 0#4
    · simp [he, hf, hi, hm, hstate, hbusy, hack, hreq, hop, htid, hcmd, hrd, hs, ht, hw, hholder,
        hcount]
      refine ⟨⟨rfl, hf, rfl, rfl⟩, rfl, rfl, rfl, ?_, ?_⟩
      all_goals simp [MallocLock.release, MallocLock.answer, Core.mallocLock, hholder, hcount]
    · simp [he, hf, hi, hm, hstate, hbusy, hack, hreq, hop, htid, hcmd, hrd, hs, ht, hw, hholder,
        hcount]
      refine ⟨⟨rfl, hf, rfl, rfl⟩, rfl, rfl, rfl, ?_, ?_⟩
      all_goals simp [MallocLock.release, MallocLock.answer, Core.mallocLock, hholder, hcount]

lemma malloc_held (hc : c.Quiescent) (e : Environment) (r : MallocRequest) :
    MallocHeld c (c.holdMalloc e r) (r.effect c.mallocLock)
      ((r.effect c.mallocLock).answer r.thread) := by
  cases r with
  | acquire tid => exact malloc_acquired hc
  | release tid => exact malloc_released hc

lemma malloc_idle {c' : Core} {m : MallocLock} {w : Word} (h : MallocHeld c c' m w)
    (e : Environment) : let d := runUntil Core.clock (inState .idle) (fun _ => e.quietLines) 32 0 c'
    Executed d c.tables ∧ d.mallocLock = m := by
  obtain ⟨⟨he, hf, hi, hm⟩, hstate, hbusy, htables, hlock, -⟩ := h
  have hs : e.quietLines.softReset = false := rfl
  have hr : e.quietLines.bus2ipRdCE = false := rfl
  have hw : e.quietLines.bus2ipWrCE = false := rfl
  have ht : e.quietLines.tm2schRequest = false := rfl
  simp [hstate, hs, hr, hw, ht, hm, hf, hbusy, hi, he]
  exact ⟨⟨⟨⟨rfl, hf, rfl, rfl⟩, rfl, rfl, rfl, rfl⟩, htables⟩, hlock⟩

/-- A whole request: the lock steps on, nothing else changes, and the answer names the holder. -/
lemma requestMalloc_spec (hc : c.Quiescent) (e : Environment) (r : MallocRequest) :
    Executed (c.requestMalloc e r) c.tables ∧
      (c.requestMalloc e r).mallocLock = r.effect c.mallocLock ∧
      c.mallocAnswer e r = (r.effect c.mallocLock).answer r.thread := by
  have hheld := malloc_held hc e r
  obtain ⟨hexec, hlock⟩ := malloc_idle hheld e
  exact ⟨hexec, hlock, hheld.data⟩

end Cycles

lemma softReset_mallocLock (e : Environment) {c : Core} (h : c.regs.insideReset = false) :
    (c.softReset e).mallocLock = .initial := by
  obtain ⟨d, hclear, heq⟩ := softReset_eq e h
  rw [heq]
  have hs : e.quietLines.softReset = false := rfl
  simp [Core.mallocLock, Core.clock, Core.drive, masterLogic, resetLogic, Core.signals,
    hclear.regs, hs, Registers.softReset, MallocLock.initial]

end Hthreads.Scheduler
