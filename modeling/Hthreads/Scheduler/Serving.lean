import Hthreads.Scheduler.Arbitration

/-! A request of the thread manager from the cycle after its first state to the end of busy,
whatever the bus of the scheduler does in the meantime. -/

namespace Hthreads.Scheduler

open Library Library.BitFields

namespace Core

-- no search of the encoder is running
structure Rested (c : Core) : Prop where
  encoderEnable : c.regs.encoderEnable = false
  findCurrent : c.encoder.findCurrent = .narrowSearch

-- between two requests, possibly while the bus master starts a hardware thread
structure Resting (c : Core) : Prop extends Rested c where
  insideReset : c.regs.insideReset = false
  schedBusy : c.regs.schedBusy = false
  state : c.regs.currentStateMaster = .idle ∨
    c.regs.currentStateMaster = .enq .startHwThreadBegin ∨
    c.regs.currentStateMaster = .enq .startHwThreadFinished

-- between two requests or inside of a soft reset
inductive Quiet (c : Core) : Prop
  | resting : Resting c → Quiet c
  | reset (s : ResetState) : Rested c → c.regs.schedBusy = false →
    c.regs.currentStateMaster = .reset s → Quiet c

structure Started (op : TmRequest) (c : Core) : Prop extends Rested c where
  insideReset : c.regs.insideReset = false
  schedBusy : c.regs.schedBusy = false
  state : c.regs.currentStateMaster = op.start

-- the second component says whether the data register for the thread manager was written
def note (l : Lines) (x : Core × Bool) : Core × Bool :=
  (x.1.clock l, x.2 || (x.1.drive l).tmDataReady)

def notBusy (x : Core × Bool) : Bool := !x.1.regs.schedBusy

structure Finished (x : Core × Bool) (T : Tables) (data : ThreadId) : Prop extends Resting x.1 where
  tables : x.1.tables = T
  data : x.1.sch2tmData = data
  written : x.2 = true

/-- Within `n` cycles busy ends, under every input that leaves the current thread alone. -/
def Finishing (n : ℕ) (cpu : ThreadId) (x : Core × Bool) (T : Tables) (data : ThreadId) : Prop :=
  ∀ ls, SteadyLines ls cpu → Finished (runUntil note notBusy ls n 0 x) T data

end Core

open Hthreads.Scheduler.Core

structure SteadyLine (l : Lines) (cpu : ThreadId) : Prop where
  softReset : l.softReset = false
  currentCpuTid : l.tm2schCurrentCpuTid = cpu

section Steps

variable {n : ℕ} {cpu : ThreadId} {x : Core × Bool} {T : Tables} {data : ThreadId} {l : Lines}

lemma Core.Finishing.finished (h : Finishing n cpu x T data) (hl : SteadyLine l cpu)
    (hb : x.1.regs.schedBusy = false) : Finished x T data := by
  have hstop : notBusy x = true := by
    rw [notBusy, hb]
    rfl
  have hx := h (fun _ => l) ⟨fun _ => hl.softReset, fun _ => hl.currentCpuTid⟩
  rwa [runUntil_stop note _ n 0 hstop] at hx

lemma Core.Finishing.step (h : Finishing (n + 1) cpu x T data) (hl : SteadyLine l cpu)
    (hb : x.1.regs.schedBusy = true) : Finishing n cpu (note l x) T data := by
  intro ls hls
  have hstop : notBusy x = false := by
    rw [notBusy, hb]
    rfl
  obtain ⟨ls', hzero, hsucc⟩ : ∃ ls' : ℕ → Lines, ls' 0 = l ∧ ∀ k, ls' (k + 1) = ls k :=
    ⟨fun k => if k = 0 then l else ls (k - 1), rfl, fun _ => rfl⟩
  have hx := h ls' ⟨?_, ?_⟩
  · rw [runUntil_step note _ n 0 hstop, hzero] at hx
    rwa [runUntil_congr note notBusy n 0 1 _ fun j => ?_]
    rw [Nat.zero_add, Nat.add_comm 1 j, hsucc]
  · intro k
    cases k with
    | zero => exact hzero ▸ hl.softReset
    | succ k => exact hsucc k ▸ hls.softReset k
  · intro k
    cases k with
    | zero => exact hzero ▸ hl.currentCpuTid
    | succ k => exact hsucc k ▸ hls.currentCpuTid k

lemma Core.Finishing.not_busy_of_zero (h : Finishing 0 cpu x T data) (hl : SteadyLine l cpu) :
    x.1.regs.schedBusy = false :=
  (h (fun _ => l) ⟨fun _ => hl.softReset, fun _ => hl.currentCpuTid⟩).schedBusy

end Steps

attribute [local irreducible] Encoder.search Encoder.bestNext Encoder.priInNext Encoder.narrowNext
  isEncoderZero setEncoderBit

attribute [local simp] runUntil note notBusy Core.clock Core.drive Core.signals masterLogic enqLogic
  deqLogic isQueuedLogic isEmptyLogic Encoder.clock isEncoderBitZero Core.tables startHwThread

lemma enqueue_finishing {l : Lines} {cpu tid : ThreadId} {c : Core} {w : Bool}
    (hl : SteadyLine l cpu) (hr : Started .enqueue c) (ht : l.tm2schData = tid) :
    Finishing 12 cpu (note l (c, w)) (c.tables.enqueue tid)
      (if isSoftwareParam (c.tables.param tid) then 0x80 else 0) := by
  intro ls hls
  obtain ⟨⟨he, hf⟩, hi, -, h⟩ := hr
  rw [TmRequest.start] at h
  obtain ⟨hs, hc⟩ := hls
  obtain ⟨hs', hc'⟩ := hl
  change Finished _ _ (if isSoftwareParam (c.paramData.data (threadAddr tid)) then _ else _)
  cases hp : isSoftwareParam (c.paramData.data (threadAddr tid)) with
  | false =>
    simp [h, he, hf, hs, hs', ht, hp]
    refine ⟨⟨⟨rfl, hf⟩, hi, rfl, .inr (.inl rfl)⟩, ?_, rfl, rfl⟩
    simp [hp, Tables.enqueue]
  | true =>
    cases hq : c.regs.encoderInput (getPriority (c.threadData.data (threadAddr tid))) with
    | true =>
      simp [h, he, hf, hs, hs', hc, ht, hp, hq]
      refine ⟨⟨⟨rfl, hf⟩, hi, rfl, .inl rfl⟩, ?_, rfl, rfl⟩
      simp [hp, hq, Tables.enqueue, Tables.level, Tables.link, Tables.announceHead, Tables.head]
    | false =>
      simp [h, he, hf, hs, hs', hc, ht, hp, hq]
      refine ⟨⟨⟨rfl, rfl⟩, hi, rfl, .inl rfl⟩, ?_, rfl, rfl⟩
      simp [hp, hq, Tables.enqueue, Tables.level, Tables.link, Tables.announceHead, Tables.head,
        Tables.runEncoder]

lemma dequeue_finishing {l : Lines} {cpu : ThreadId} {c : Core} {w : Bool}
    (hl : SteadyLine l cpu) (hr : Started .dequeue c) :
    Finishing 12 cpu (note l (c, w)) (c.tables.dequeue cpu) 0 := by
  intro ls hls
  obtain ⟨⟨he, hf⟩, hi, -, h⟩ := hr
  rw [TmRequest.start] at h
  obtain ⟨hs, hc⟩ := hls
  obtain ⟨hs', hc'⟩ := hl
  by_cases hq : getHeadPointer (c.priorityData.data (priorityAddr
      (getPriority (c.threadData.data (threadAddr cpu))))) =
      getTailPointer (c.priorityData.data (priorityAddr
        (getPriority (c.threadData.data (threadAddr cpu)))))
  · cases hz : isEncoderZero (setEncoderBit false
        (getPriority (c.threadData.data (threadAddr cpu))) c.regs.encoderInput)
    all_goals
      simp [h, he, hf, hs, hs', hc, hc', hq, hz]
      refine ⟨⟨⟨rfl, rfl⟩, hi, rfl, .inl rfl⟩, ?_, rfl, rfl⟩
      simp [hq, Tables.dequeue, Tables.unlinkFront, Tables.level, Tables.head, Tables.tail,
        Tables.runEncoder]
      simp [hz, Tables.announce, Tables.announceHead, Tables.head]
  · cases hz : isEncoderZero c.regs.encoderInput
    all_goals
      simp [h, he, hf, hs, hs', hc, hc', hq, hz]
      refine ⟨⟨⟨rfl, hf⟩, hi, rfl, .inl rfl⟩, ?_, rfl, rfl⟩
      simp [hq, Tables.dequeue, Tables.unlinkFront, Tables.level, Tables.head, Tables.tail,
        Tables.next]
      simp [hz, Tables.announce, Tables.announceHead, Tables.head]

lemma isQueued_finishing {l : Lines} {cpu tid : ThreadId} {c : Core} {w : Bool}
    (hl : SteadyLine l cpu) (hr : Started .isQueued c) (ht : l.tm2schData = tid) :
    Finishing 12 cpu (note l (c, w)) c.tables (0#7 ++ BitVec.ofBool (c.tables.queued tid)) := by
  intro ls hls
  obtain ⟨⟨he, hf⟩, hi, -, h⟩ := hr
  rw [TmRequest.start] at h
  obtain ⟨hs, hc⟩ := hls
  obtain ⟨hs', hc'⟩ := hl
  simp [h, he, hf, hs, hs', ht, Tables.queued]
  exact ⟨⟨⟨rfl, hf⟩, hi, rfl, .inl rfl⟩, rfl, rfl, rfl⟩

lemma isEmpty_finishing {l : Lines} {cpu : ThreadId} {c : Core} {w : Bool}
    (hl : SteadyLine l cpu) (hr : Started .isEmpty c) :
    Finishing 12 cpu (note l (c, w)) c.tables
      (0#7 ++ BitVec.ofBool (isEncoderZero c.tables.encoderInput)) := by
  intro ls hls
  obtain ⟨⟨he, hf⟩, hi, -, h⟩ := hr
  rw [TmRequest.start] at h
  obtain ⟨hs, hc⟩ := hls
  obtain ⟨hs', hc'⟩ := hl
  simp [h, he, hf, hs, hs']
  exact ⟨⟨⟨rfl, hf⟩, hi, rfl, .inl rfl⟩, rfl, rfl, rfl⟩

section Cycles

variable {c : Core} {l : Lines}

lemma rested_encoder (hr : c.Rested) : (c.clock l).encoder.findCurrent = .narrowSearch := by
  have henc : ∀ b, (c.encoder.clock b false c.regs.encoderInput).findCurrent = .narrowSearch := by
    intro b
    cases b
    · simp [hr.findCurrent]
    · rfl
  rw [Core.clock, hr.encoderEnable]
  exact henc _

lemma clock_enterReset (hs : (l.softReset && !c.regs.insideReset) = true) :
    (c.clock l).regs = .softReset := by
  simp only [Core.clock, hs, if_true]

lemma clock_regs (hs : (l.softReset && !c.regs.insideReset) = false) :
    (c.clock l).regs = (masterLogic (c.signals l) c.regs).next := by
  simp only [Core.clock, Core.drive, hs, Bool.false_eq_true, if_false]

lemma enterReset_quiet (hr : c.Rested) (hs : (l.softReset && !c.regs.insideReset) = true) :
    Quiet (c.clock l) := by
  refine .reset .reset ⟨?_, rested_encoder hr⟩ ?_ ?_
  all_goals
    rw [clock_enterReset hs]
    rfl

lemma Core.Resting.step (h : Resting c) (hs : l.softReset = false)
    (hreq : c.regs.currentStateMaster = .idle → c.requests = ⟨none, none⟩) :
    Resting (c.clock l) ∧ (c.clock l).tables = c.tables ∧
      (c.clock l).sch2tmData = c.sch2tmData ∧ (c.drive l).tmDataReady = false := by
  obtain ⟨⟨he, hf⟩, hi, hb, h⟩ := h
  rcases h with h | h | h
  · have hnone := hreq h
    simp [h, hs, hnone, idleLogic, he, hf, hi, hb]
    exact ⟨⟨rfl, hf⟩, rfl, rfl, .inl rfl⟩
  · simp [h, hs, he, hf, hi, hb]
    exact ⟨⟨rfl, hf⟩, rfl, rfl, .inr (.inr rfl)⟩
  · cases hm : c.mstCmd.busy with
    | true =>
      simp [h, hs, he, hf, hi, hb, hm]
      exact ⟨⟨rfl, hf⟩, rfl, rfl, .inr (.inr rfl)⟩
    | false =>
      simp [h, hs, he, hf, hi, hb, hm]
      exact ⟨⟨rfl, hf⟩, rfl, rfl, .inl rfl⟩

lemma idle_started {op : TmRequest} (h : Resting c) (hidle : c.regs.currentStateMaster = .idle)
    (hs : l.softReset = false) (hreq : c.requests = ⟨some op, none⟩) :
    Started op (c.clock l) ∧ (c.clock l).tables = c.tables ∧
      (c.clock l).sch2tmData = c.sch2tmData ∧ (c.drive l).tmDataReady = false := by
  obtain ⟨⟨he, hf⟩, hi, hb, -⟩ := h
  cases op
  all_goals
    simp [hidle, hs, hreq, idleLogic, he, hf, hi, hb]
    exact ⟨⟨rfl, hf⟩, rfl, rfl, rfl⟩

lemma reset_quiet {s : ResetState} (hr : c.Rested) (hb : c.regs.schedBusy = false)
    (hs : (l.softReset && !c.regs.insideReset) = false)
    (h : c.regs.currentStateMaster = .reset s) : Quiet (c.clock l) := by
  have hregs := clock_regs hs
  have henc := rested_encoder (l := l) hr
  cases s with
  | reset =>
    refine .reset .resetBram ⟨?_, henc⟩ ?_ ?_
    all_goals
      rw [hregs]
      simp [h, hb, resetLogic]
  | resetBram =>
    by_cases ha : c.resetAddr = 255#9
    · refine .reset .resetWait4Ack ⟨?_, henc⟩ ?_ ?_
      all_goals
        rw [hregs]
        simp [h, hb, resetLogic, ha]
    · refine .reset .resetBram ⟨?_, henc⟩ ?_ ?_
      all_goals
        rw [hregs]
        simp [h, hb, resetLogic, ha]
  | resetWait4Ack =>
    cases hl : l.softReset with
    | true =>
      refine .reset .resetWait4Ack ⟨?_, henc⟩ ?_ ?_
      all_goals
        rw [hregs]
        simp [h, hb, resetLogic, hl]
    | false =>
      refine .resting ⟨⟨?_, henc⟩, ?_, ?_, .inl ?_⟩
      all_goals
        rw [hregs]
        simp [h, hb, resetLogic, hl]

lemma Core.Quiet.rested (h : Quiet c) : Rested c := by
  cases h with
  | resting h => exact h.toRested
  | reset s h _ _ => exact h

lemma Core.Quiet.step (h : Quiet c) (hreq : c.requests = ⟨none, none⟩) : Quiet (c.clock l) := by
  cases hs : l.softReset && !c.regs.insideReset with
  | true => exact enterReset_quiet h.rested hs
  | false =>
    cases h with
    | resting h =>
      rw [h.insideReset, Bool.not_false, Bool.and_true] at hs
      exact .resting (h.step hs fun _ => hreq).1
    | reset s hr hb h => exact reset_quiet hr hb hs h

lemma Core.Quiet.decode {op : TmRequest} (h : Quiet c) (hreq : c.requests = ⟨some op, none⟩) :
    Quiet (c.clock l) ∨ Started op (c.clock l) ∧ l.softReset = false := by
  cases hs : l.softReset && !c.regs.insideReset with
  | true => exact .inl (enterReset_quiet h.rested hs)
  | false =>
    cases h with
    | resting h =>
      rw [h.insideReset, Bool.not_false, Bool.and_true] at hs
      by_cases hidle : c.regs.currentStateMaster = .idle
      · exact .inr ⟨(idle_started h hidle hs hreq).1, hs⟩
      · exact .inl (.resting (h.step hs fun hi => absurd hi hidle).1)
    | reset s hr hb h => exact .inl (reset_quiet hr hb hs h)

lemma Core.Started.busy {op : TmRequest} (h : Started op c) (hs : l.softReset = false) :
    (c.clock l).regs.schedBusy = true ∧ (c.drive l).tmDataReady = false := by
  have hstate := h.state
  cases op
  all_goals
    rw [TmRequest.start] at hstate
    simp [hstate, hs]

lemma Core.Started.stays_busy {op : TmRequest} (h : Started op c) (hop : op ≠ .isEmpty)
    {l' : Lines} (hs : l.softReset = false) (hs' : l'.softReset = false) :
    ((c.clock l).clock l').regs.schedBusy = true := by
  have hstate := h.state
  cases op
  case isEmpty => exact absurd rfl hop
  all_goals
    rw [TmRequest.start] at hstate
    simp [hstate, hs, hs']

-- the second run of IS_EMPTY, whose answer nobody reads
structure Core.Echo (c : Core) : Prop extends Rested c where
  insideReset : c.regs.insideReset = false
  state : c.regs.currentStateMaster = .isEmpty .finished

lemma Core.Started.echo (h : Started .isEmpty c) : Quiet (c.clock l) ∨ Echo (c.clock l) := by
  cases hs : l.softReset with
  | true =>
    refine .inl (enterReset_quiet h.toRested ?_)
    rw [hs, h.insideReset]
    rfl
  | false =>
    obtain ⟨⟨he, hf⟩, hi, -, hstate⟩ := h
    rw [TmRequest.start] at hstate
    simp [hstate, hs, he, hf, hi]
    exact .inr ⟨⟨rfl, hf⟩, rfl, rfl⟩

lemma Core.Echo.step (h : Echo c) : Quiet (c.clock l) := by
  cases hs : l.softReset with
  | true =>
    refine enterReset_quiet h.toRested ?_
    rw [hs, h.insideReset]
    rfl
  | false =>
    obtain ⟨⟨he, hf⟩, hi, hstate⟩ := h
    simp [hstate, hs, he, hf, hi]
    exact .resting ⟨⟨rfl, hf⟩, rfl, rfl, .inl rfl⟩

lemma Core.Started.isEmpty_clock (h : Started .isEmpty c) (hs : l.softReset = false) :
    Echo (c.clock l) ∧ (c.clock l).tables = c.tables := by
  obtain ⟨⟨he, hf⟩, hi, -, hstate⟩ := h
  rw [TmRequest.start] at hstate
  simp [hstate, hs, he, hf, hi]
  exact ⟨⟨rfl, hf⟩, rfl, rfl⟩

lemma Core.Echo.clock (h : Echo c) (hs : l.softReset = false) :
    Resting (c.clock l) ∧ (c.clock l).tables = c.tables := by
  obtain ⟨⟨he, hf⟩, hi, hstate⟩ := h
  simp [hstate, hs, he, hf, hi]
  exact ⟨⟨rfl, hf⟩, rfl, rfl, .inl rfl⟩

end Cycles

/-- The scheduler is not inside of a soft reset. -/
def Core.Calm (c : Core) : Prop := ∀ r, c.regs.currentStateMaster ≠ .reset r

section Calm

variable {c : Core}

lemma Core.Resting.calm (h : Resting c) : c.Calm := by
  intro r hr
  rcases h.state with hs | hs | hs <;> rw [hs] at hr <;> cases hr

lemma Core.Started.calm {op : TmRequest} (h : Started op c) : c.Calm := by
  intro r hr
  rw [h.state] at hr
  cases op <;> cases hr

lemma Core.Echo.calm (h : Echo c) : c.Calm := by
  intro r hr
  rw [h.state] at hr
  cases hr

lemma calm_of_allowed (h : busyAllowed c.regs.currentStateMaster = true) : c.Calm := by
  intro r hr
  rw [hr] at h
  cases h

lemma Core.Quiet.resting_of_calm (h : Quiet c) (hc : c.Calm) : Resting c := by
  cases h with
  | resting h => exact h
  | reset r _ _ hr => exact absurd hr (hc r)

end Calm

end Hthreads.Scheduler
