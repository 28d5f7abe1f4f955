import Hthreads.Scheduler.Transactions

/-! The cycles the state machine spends on one bus request, up to its acknowledgement. -/

namespace Hthreads.Scheduler

open Library Library.BitFields Hthreads.Scheduler.Core

attribute [local irreducible] Encoder.search Encoder.bestNext Encoder.priInNext Encoder.narrowNext
  isEncoderZero setEncoderBit

attribute [local simp] runUntil acknowledged Core.clock Core.drive Core.signals masterLogic
  setSchedParamLogic setIdleThreadLogic getSchedParamLogic checkSchedParamLogic getEntryLogic answer
  Encoder.clock isEncoderBitZero Core.tables

namespace Core

structure Answered (c : Core) (T : Tables) (data : Word) : Prop
    extends Settled c .waitTransDone T where
  ack : c.ip2busAck = true
  data : c.ip2busData = data

end Core

-- the operands of a bus request, with the word the thread manager's table has for the thread
structure BusOperands (ls : ℕ → Lines) (tid : ThreadId) (param entry : Word) : Prop where
  addr : addrThreadId (ls 0).bus2ipAddr = tid
  data : (ls 0).bus2ipData = param
  swtm : ∀ k, (ls k).swtm (threadAddr tid) = entry

section SetSchedParam

variable {ls : ℕ → Lines} {cpu tid : ThreadId} {param entry : Word} {c : Core}

lemma setSchedParam_refused (hl : SteadyLines ls cpu) (ho : BusOperands ls tid param entry)
    (hr : c.Ready) (hb : c.regs.schedBusy = false) (hk : c.ip2busAck = false)
    (h : c.regs.currentStateMaster = .setSchedParam .begin)
    (hp : (isSoftwareParam param && schedParamAllowed entry tid cpu) = false) :
    Answered (runUntil Core.clock acknowledged ls 24 0 c)
      (c.tables.setSchedParam entry cpu tid param) 0 := by
  obtain ⟨he, hf, hi, hm⟩ := hr
  obtain ⟨hs, hc⟩ := hl
  obtain ⟨ha, hd, hw⟩ := ho
  cases hsw : isSoftwareParam param with
  | false =>
    simp [h, he, hf, hi, hm, hb, hk, hs, ha, hd, hsw]
    refine ⟨⟨⟨rfl, hf, rfl, rfl⟩, rfl, rfl, ?_⟩, rfl, rfl⟩
    simp [Tables.setSchedParam, hsw]
  | true =>
    rw [hsw, Bool.true_and] at hp
    simp [h, he, hf, hi, hm, hb, hk, hs, hc, ha, hd, hw, hsw, hp]
    refine ⟨⟨⟨rfl, hf, rfl, rfl⟩, rfl, rfl, ?_⟩, rfl, rfl⟩
    simp [Tables.setSchedParam, hsw, hp]

lemma setSchedParam_unqueued (hl : SteadyLines ls cpu) (ho : BusOperands ls tid param entry)
    (hr : c.Ready) (hb : c.regs.schedBusy = false) (hk : c.ip2busAck = false)
    (h : c.regs.currentStateMaster = .setSchedParam .begin) (hsw : isSoftwareParam param = true)
    (hp : schedParamAllowed entry tid cpu = true) (hq : c.tables.queued tid = false) :
    Answered (runUntil Core.clock acknowledged ls 24 0 c)
      (c.tables.setSchedParam entry cpu tid param) 0 := by
  obtain ⟨he, hf, hi, hm⟩ := hr
  obtain ⟨hs, hc⟩ := hl
  obtain ⟨ha, hd, hw⟩ := ho
  replace hq : getQueueBit (c.threadData.data (threadAddr tid)) = false := hq
  simp [h, he, hf, hi, hm, hb, hk, hs, hc, ha, hd, hw, hsw, hp, hq]
  refine ⟨⟨⟨rfl, hf, rfl, rfl⟩, rfl, rfl, ?_⟩, rfl, rfl⟩
  simp [Tables.setSchedParam, Tables.reprioritize, Tables.queued, Tables.refresh, Tables.head,
    hsw, hp, hq]

lemma setSchedParam_queued (hl : SteadyLines ls cpu) (ho : BusOperands ls tid param entry)
    (hr : c.Ready) (hb : c.regs.schedBusy = false) (hk : c.ip2busAck = false)
    (h : c.regs.currentStateMaster = .setSchedParam .begin) (hsw : isSoftwareParam param = true)
    (hp : schedParamAllowed entry tid cpu = true) (hq : c.tables.queued tid = true) :
    Answered (runUntil Core.clock acknowledged ls 24 0 c)
      (c.tables.setSchedParam entry cpu tid param) 0 := by
  obtain ⟨he, hf, hi, hm⟩ := hr
  obtain ⟨hs, hc⟩ := hl
  obtain ⟨ha, hd, hw⟩ := ho
  replace hq : getQueueBit (c.threadData.data (threadAddr tid)) = true := hq
  by_cases halone : getTailPointer (c.priorityData.data (priorityAddr
      (getPriority (c.threadData.data (threadAddr tid))))) =
      getHeadPointer (c.priorityData.data (priorityAddr
        (getPriority (c.threadData.data (threadAddr tid)))))
  · cases hn : setEncoderBit false (getPriority (c.threadData.data (threadAddr tid)))
      c.regs.encoderInput (paramPriority param)
    all_goals
      simp [h, he, hf, hi, hm, hb, hk, hs, hc, ha, hd, hw, hsw, hp, hq, halone, hn]
      refine ⟨⟨⟨rfl, rfl, rfl, rfl⟩, rfl, rfl, ?_⟩, rfl, rfl⟩
      simp [Tables.setSchedParam, Tables.reprioritize, Tables.queued, Tables.refresh, Tables.head,
        Tables.move, Tables.unlink, Tables.link, Tables.level, Tables.tail, Tables.runEncoder,
        hsw, hp, hq, halone, hn]
  by_cases hhead : getHeadPointer (c.priorityData.data (priorityAddr
      (getPriority (c.threadData.data (threadAddr tid))))) = tid
  · rw [hhead] at halone
    cases hn : c.regs.encoderInput (paramPriority param)
    all_goals
      simp [h, he, hf, hi, hm, hb, hk, hs, hc, ha, hd, hw, hsw, hp, hq, halone, hhead, hn]
      refine ⟨⟨⟨rfl, rfl, rfl, rfl⟩, rfl, rfl, ?_⟩, rfl, rfl⟩
      simp [Tables.setSchedParam, Tables.reprioritize, Tables.queued, Tables.refresh, Tables.head,
        Tables.move, Tables.unlink, Tables.link, Tables.level, Tables.tail, Tables.runEncoder,
        Tables.next, hsw, hp, hq, halone, hhead, hn]
  by_cases htail : getTailPointer (c.priorityData.data (priorityAddr
      (getPriority (c.threadData.data (threadAddr tid))))) = tid
  · rw [htail] at halone
    cases hn : c.regs.encoderInput (paramPriority param)
    all_goals
      simp [h, he, hf, hi, hm, hb, hk, hs, hc, ha, hd, hw, hsw, hp, hq, halone, htail, hn]
      refine ⟨⟨⟨rfl, rfl, rfl, rfl⟩, rfl, rfl, ?_⟩, rfl, rfl⟩
      simp [Tables.setSchedParam, Tables.reprioritize, Tables.queued, Tables.refresh, Tables.head,
        Tables.move, Tables.unlink, Tables.link, Tables.level, Tables.tail, Tables.runEncoder,
        Tables.prev, hsw, hp, hq, halone, htail, hn]
  · cases hn : c.regs.encoderInput (paramPriority param)
    all_goals
      simp [h, he, hf, hi, hm, hb, hk, hs, hc, ha, hd, hw, hsw, hp, hq, halone, Ne.symm hhead,
        Ne.symm htail, hn]
      refine ⟨⟨⟨rfl, rfl, rfl, rfl⟩, rfl, rfl, ?_⟩, rfl, rfl⟩
      simp [Tables.setSchedParam, Tables.reprioritize, Tables.queued, Tables.refresh, Tables.head,
        Tables.move, Tables.unlink, Tables.link, Tables.level, Tables.tail, Tables.runEncoder,
        Tables.prev, Tables.next, hsw, hp, hq, halone, Ne.symm hhead, Ne.symm htail, hn]

lemma setSchedParam_answered (hl : SteadyLines ls cpu) (ho : BusOperands ls tid param entry)
    (hr : c.Ready) (hb : c.regs.schedBusy = false) (hk : c.ip2busAck = false)
    (h : c.regs.currentStateMaster = .setSchedParam .begin) :
    Answered (runUntil Core.clock acknowledged ls 24 0 c)
      (c.tables.setSchedParam entry cpu tid param) 0 := by
  cases hp : isSoftwareParam param && schedParamAllowed entry tid cpu with
  | false => exact setSchedParam_refused hl ho hr hb hk h hp
  | true =>
    obtain ⟨hsw, hp⟩ := Bool.and_eq_true_iff.mp hp
    cases hq : c.tables.queued tid with
    | false => exact setSchedParam_unqueued hl ho hr hb hk h hsw hp hq
    | true => exact setSchedParam_queued hl ho hr hb hk h hsw hp hq

end SetSchedParam

section Lookups

variable {ls : ℕ → Lines} {cpu tid : ThreadId} {param entry : Word} {c : Core}

lemma setIdleThread_answered (hl : SteadyLines ls cpu) (ho : BusOperands ls tid param entry)
    (hr : c.Ready) (hb : c.regs.schedBusy = false) (hk : c.ip2busAck = false)
    (h : c.regs.currentStateMaster = .setIdleThread .begin) :
    Answered (runUntil Core.clock acknowledged ls 24 0 c)
      (c.tables.setIdleThread entry tid) (if c.tables.idleAllowed entry tid then 0 else 1) := by
  obtain ⟨he, hf, hi, hm⟩ := hr
  obtain ⟨hs, hc⟩ := hl
  obtain ⟨ha, hd, hw⟩ := ho
  cases hq : !getQueueBit (c.threadData.data (threadAddr tid)) && bit entry 26 &&
    isSoftwareParam (c.paramData.data (threadAddr tid))
  all_goals
    simp only [Tables.setIdleThread, Tables.idleAllowed, Tables.queued]
    simp [h, he, hf, hi, hm, hb, hk, hs, ha, hw, hq]
    exact ⟨⟨⟨rfl, hf, rfl, rfl⟩, rfl, rfl, rfl⟩, rfl, rfl⟩

lemma getSchedParam_answered (hl : SteadyLines ls cpu) (ho : BusOperands ls tid param entry)
    (hr : c.Ready) (hb : c.regs.schedBusy = false) (hk : c.ip2busAck = false)
    (h : c.regs.currentStateMaster = .getSchedParam .begin) :
    Answered (runUntil Core.clock acknowledged ls 24 0 c) c.tables
      (c.tables.param tid) := by
  obtain ⟨he, hf, hi, hm⟩ := hr
  obtain ⟨hs, hc⟩ := hl
  obtain ⟨ha, hd, hw⟩ := ho
  simp [h, he, hf, hi, hm, hb, hk, hs, ha]
  exact ⟨⟨⟨rfl, hf, rfl, rfl⟩, rfl, rfl, rfl⟩, rfl, rfl⟩

lemma checkSchedParam_answered (hl : SteadyLines ls cpu) (ho : BusOperands ls tid param entry)
    (hr : c.Ready) (hb : c.regs.schedBusy = false) (hk : c.ip2busAck = false)
    (h : c.regs.currentStateMaster = .checkSchedParam .begin) :
    Answered (runUntil Core.clock acknowledged ls 24 0 c) c.tables
      (c.tables.checkSchedParam tid) := by
  obtain ⟨he, hf, hi, hm⟩ := hr
  obtain ⟨hs, hc⟩ := hl
  obtain ⟨ha, hd, hw⟩ := ho
  simp [h, he, hf, hi, hm, hb, hk, hs, ha]
  exact ⟨⟨⟨rfl, hf, rfl, rfl⟩, rfl, rfl, rfl⟩, rfl, rfl⟩

lemma getEntry_answered (hl : SteadyLines ls cpu) (ho : BusOperands ls tid param entry)
    (hr : c.Ready) (hb : c.regs.schedBusy = false) (hk : c.ip2busAck = false)
    (h : c.regs.currentStateMaster = .getEntry .begin) :
    Answered (runUntil Core.clock acknowledged ls 24 0 c) c.tables
      (c.tables.thread tid) := by
  obtain ⟨he, hf, hi, hm⟩ := hr
  obtain ⟨hs, hc⟩ := hl
  obtain ⟨ha, hd, hw⟩ := ho
  simp [h, he, hf, hi, hm, hb, hk, hs, ha]
  exact ⟨⟨⟨rfl, hf, rfl, rfl⟩, rfl, rfl, rfl⟩, rfl, rfl⟩

end Lookups

end Hthreads.Scheduler
