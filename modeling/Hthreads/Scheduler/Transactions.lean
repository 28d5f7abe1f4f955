import Hthreads.Library.Cycles
import Hthreads.Scheduler.Tables

/-! The cycles the state machine spends on one thread manager request, read as one step on
its tables. -/

namespace Hthreads.Scheduler

open Library Library.BitFields

lemma threadAddr_injective : Function.Injective threadAddr := by
  intro a b h
  apply BitVec.eq_of_getLsbD_eq
  intro i hi
  have hb := congrArg (fun v => v.getLsbD i) h
  simpa only [threadAddr, BitVec.getLsbD_append, hi, if_true] using hb

lemma priorityAddr_injective : Function.Injective priorityAddr := by
  intro a b h
  apply BitVec.eq_of_getLsbD_eq
  intro i hi
  have hb := congrArg (fun v => v.getLsbD i) h
  simpa only [priorityAddr, BitVec.getLsbD_append, hi, if_true] using hb

@[simp] lemma update_threadAddr (data : BitVec 9 → Word) (t u : ThreadId) (w : Word) :
    Function.update data (threadAddr t) w (threadAddr u) =
      Function.update (fun v => data (threadAddr v)) t w u :=
  congrFun (Function.update_comp_eq_of_injective data threadAddr_injective t w) u

@[simp] lemma update_priorityAddr (data : BitVec 9 → Word) (p q : Priority) (w : Word) :
    Function.update data (priorityAddr p) w (priorityAddr q) =
      Function.update (fun v => data (priorityAddr v)) p w q :=
  congrFun (Function.update_comp_eq_of_injective data priorityAddr_injective p w) q

def MstCmd.free : MstCmd := ⟨.cmdIdle, false, false, 0⟩

@[simp] lemma MstCmd.clock_free (l : Lines) (addr : Word) :
    MstCmd.clock l false addr .free = .free := by
  cases h : l.bus2ipReset <;> simp [MstCmd.clock, MstCmd.free, h]

-- the inputs a running request depends on besides its own operands
structure SteadyLines (ls : ℕ → Lines) (cpu : ThreadId) : Prop where
  softReset : ∀ k, (ls k).softReset = false
  currentCpuTid : ∀ k, (ls k).tm2schCurrentCpuTid = cpu

namespace Core

def inState (s : MasterState) (c : Core) : Bool := c.regs.currentStateMaster == s

def busy (c : Core) : Bool := c.regs.schedBusy

def acknowledged (c : Core) : Bool := c.ip2busAck

-- no search is running, no reset is in progress and the bus master is free
structure Ready (c : Core) : Prop where
  encoderEnable : c.regs.encoderEnable = false
  findCurrent : c.encoder.findCurrent = .narrowSearch
  insideReset : c.regs.insideReset = false
  mstCmd : c.mstCmd = .free

structure Settled (c : Core) (s : MasterState) (T : Tables) : Prop extends Ready c where
  state : c.regs.currentStateMaster = s
  schedBusy : c.regs.schedBusy = false
  tables : c.tables = T

structure Served (c : Core) (T : Tables) (data : ThreadId) : Prop extends Settled c .idle T where
  ack : c.ip2busAck = false
  data : c.sch2tmData = data

end Core

open Hthreads.Scheduler.Core

attribute [local irreducible] Encoder.search Encoder.bestNext Encoder.priInNext Encoder.narrowNext
  isEncoderZero setEncoderBit

attribute [local simp] runUntil inState Core.clock Core.drive Core.signals masterLogic enqLogic
  deqLogic isQueuedLogic isEmptyLogic Encoder.clock isEncoderBitZero Core.tables

lemma enqueue_served {ls : ℕ → Lines} {cpu tid : ThreadId} {c : Core} (hl : SteadyLines ls cpu)
    (hr : c.Ready) (h : c.regs.currentStateMaster = .enq .begin)
    (ht : (ls 0).tm2schData = tid) (hp : isSoftwareParam (c.tables.param tid) = true) :
    Served (runUntil Core.clock (inState .idle) ls 13 0 c) (c.tables.enqueue tid) 0x80 := by
  obtain ⟨he, hf, hi, hm⟩ := hr
  obtain ⟨hs, hc⟩ := hl
  replace hp : isSoftwareParam (c.paramData.data (threadAddr tid)) = true := hp
  cases hq : c.regs.encoderInput (getPriority (c.threadData.data (threadAddr tid))) with
  | true =>
    simp [h, he, hf, hi, hm, hs, hc, ht, hp, hq]
    refine ⟨⟨⟨rfl, hf, rfl, rfl⟩, rfl, rfl, ?_⟩, rfl, rfl⟩
    simp [hp, hq, Tables.enqueue, Tables.level, Tables.link, Tables.announceHead, Tables.head]
  | false =>
    simp [h, he, hf, hi, hm, hs, hc, ht, hp, hq]
    refine ⟨⟨⟨rfl, rfl, rfl, rfl⟩, rfl, rfl, ?_⟩, rfl, rfl⟩
    simp [hp, hq, Tables.enqueue, Tables.level, Tables.link, Tables.announceHead, Tables.head,
      Tables.runEncoder]

lemma enqueue_started {ls : ℕ → Lines} {cpu tid : ThreadId} {c : Core} (hl : SteadyLines ls cpu)
    (hb : ∀ k, (ls k).bus2ipReset = false) (hd : ∀ k, (ls k).bus2ipMstCmplt = true)
    (hr : c.Ready) (h : c.regs.currentStateMaster = .enq .begin)
    (ht : (ls 0).tm2schData = tid) (hp : isSoftwareParam (c.tables.param tid) = false) :
    Served (runUntil Core.clock (inState .idle) ls 13 0 c) (c.tables.enqueue tid) 0 := by
  obtain ⟨he, hf, hi, hm⟩ := hr
  obtain ⟨hs, hc⟩ := hl
  replace hp : isSoftwareParam (c.paramData.data (threadAddr tid)) = false := hp
  simp [h, he, hf, hi, hm, hs, hb, hd, ht, hp, startHwThread, MstCmd.clock, MstCmd.free]
  refine ⟨⟨⟨rfl, hf, rfl, rfl⟩, rfl, rfl, ?_⟩, rfl, rfl⟩
  simp [hp, Tables.enqueue]

lemma dequeue_served {ls : ℕ → Lines} {cpu : ThreadId} {c : Core} (hl : SteadyLines ls cpu)
    (hr : c.Ready) (h : c.regs.currentStateMaster = .deq .begin) :
    Served (runUntil Core.clock (inState .idle) ls 13 0 c) (c.tables.dequeue cpu) 0 := by
  obtain ⟨he, hf, hi, hm⟩ := hr
  obtain ⟨hs, hc⟩ := hl
  by_cases hq : getHeadPointer (c.priorityData.data (priorityAddr
      (getPriority (c.threadData.data (threadAddr cpu))))) =
      getTailPointer (c.priorityData.data (priorityAddr
        (getPriority (c.threadData.data (threadAddr cpu)))))
  · cases hz : isEncoderZero (setEncoderBit false
        (getPriority (c.threadData.data (threadAddr cpu))) c.regs.encoderInput)
    all_goals
      simp [h, he, hf, hi, hm, hs, hc, hq, hz]
      refine ⟨⟨⟨rfl, rfl, rfl, rfl⟩, rfl, rfl, ?_⟩, rfl, rfl⟩
      simp [hq, Tables.dequeue, Tables.unlinkFront, Tables.level, Tables.head, Tables.tail,
        Tables.runEncoder]
      simp [hz, Tables.announce, Tables.announceHead, Tables.head]
  · cases hz : isEncoderZero c.regs.encoderInput
    all_goals
      simp [h, he, hf, hi, hm, hs, hc, hq, hz]
      refine ⟨⟨⟨rfl, hf, rfl, rfl⟩, rfl, rfl, ?_⟩, rfl, rfl⟩
      simp [hq, Tables.dequeue, Tables.unlinkFront, Tables.level, Tables.head, Tables.tail,
        Tables.next]
      simp [hz, Tables.announce, Tables.announceHead, Tables.head]

lemma isQueued_served {ls : ℕ → Lines} {cpu tid : ThreadId} {c : Core} (hl : SteadyLines ls cpu)
    (hr : c.Ready) (h : c.regs.currentStateMaster = .isQueued .begin)
    (ht : (ls 0).tm2schData = tid) :
    Served (runUntil Core.clock (inState .idle) ls 13 0 c) c.tables
      (0#7 ++ BitVec.ofBool (c.tables.queued tid)) := by
  obtain ⟨he, hf, hi, hm⟩ := hr
  obtain ⟨hs, hc⟩ := hl
  simp [h, he, hf, hi, hm, hs, ht, Tables.queued]
  exact ⟨⟨⟨rfl, hf, rfl, rfl⟩, rfl, rfl, rfl⟩, rfl, rfl⟩

lemma isEmpty_served {ls : ℕ → Lines} {cpu : ThreadId} {c : Core} (hl : SteadyLines ls cpu)
    (hr : c.Ready) (h : c.regs.currentStateMaster = .isEmpty .check) :
    Served (runUntil Core.clock (inState .idle) ls 13 0 c) c.tables
      (0#7 ++ BitVec.ofBool (isEncoderZero c.tables.encoderInput)) := by
  obtain ⟨he, hf, hi, hm⟩ := hr
  obtain ⟨hs, hc⟩ := hl
  simp [h, he, hf, hi, hm, hs]
  exact ⟨⟨⟨rfl, hf, rfl, rfl⟩, rfl, rfl, rfl⟩, rfl, rfl⟩

end Hthreads.Scheduler
