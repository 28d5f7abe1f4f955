import Hthreads.Scheduler.Front

/-! When the scheduler interrupts the running thread: the cycles of a command in which it raises
`Preemption_Interrupt_Line`. -/

namespace Hthreads.Scheduler

open Library Library.BitFields Library.Fifo Hthreads.Scheduler.Core

/-- One cycle of the core, with whether the interrupt line has been up so far. -/
def Core.watch (l : Lines) (x : Core × Bool) : Core × Bool :=
  (x.1.clock l, x.2 || (x.1.drive l).preemptionInterruptLine)

attribute [local irreducible] Encoder.search Encoder.bestNext Encoder.priInNext Encoder.narrowNext
  isEncoderZero setEncoderBit

attribute [local simp] runUntil inState acknowledged Core.watch Core.clock Core.drive Core.signals
  masterLogic enqLogic setSchedParamLogic answer Encoder.clock isEncoderBitZero Core.tables

lemma enqueue_watched {ls : ℕ → Lines} {cpu tid : ThreadId} {c : Core} (hl : SteadyLines ls cpu)
    (hr : c.Ready) (h : c.regs.currentStateMaster = .enq .begin)
    (ht : (ls 0).tm2schData = tid) (hp : isSoftwareParam (c.tables.param tid) = true) :
    (runUntil Core.watch (fun x => inState .idle x.1) ls 13 0 (c, false)).2 =
      decide ((c.tables.enqueue tid).encoderOutput < (c.tables.enqueue tid).level cpu) := by
  obtain ⟨he, hf, hi, hm⟩ := hr
  obtain ⟨hs, hc⟩ := hl
  replace hp : isSoftwareParam (c.paramData.data (threadAddr tid)) = true := hp
  cases hq : c.regs.encoderInput (getPriority (c.threadData.data (threadAddr tid))) with
  | true =>
    simp [h, he, hf, hi, hm, hs, hc, ht, hp, hq]
    simp [hp, hq, Tables.enqueue, Tables.level, Tables.link, Tables.announceHead, Tables.head]
  | false =>
    simp [h, he, hf, hi, hm, hs, hc, ht, hp, hq]
    simp [hp, hq, Tables.enqueue, Tables.level, Tables.link, Tables.announceHead, Tables.head,
      Tables.runEncoder]

section SetSchedParam

variable {ls : ℕ → Lines} {cpu tid : ThreadId} {param entry : Word} {c : Core}

lemma setSchedParam_watched_unqueued (hl : SteadyLines ls cpu) (ho : BusOperands ls tid param entry)
    (hr : c.Ready) (hk : c.ip2busAck = false)
    (h : c.regs.currentStateMaster = .setSchedParam .begin) (hsw : isSoftwareParam param = true)
    (hp : schedParamAllowed entry tid cpu = true) (hq : c.tables.queued tid = false) :
    (runUntil Core.watch (fun x => acknowledged x.1) ls 24 0 (c, false)).2 =
      decide ((c.tables.setSchedParam entry cpu tid param).encoderOutput <
        (c.tables.setSchedParam entry cpu tid param).level cpu) := by
  obtain ⟨he, hf, hi, hm⟩ := hr
  obtain ⟨hs, hc⟩ := hl
  obtain ⟨ha, hd, hw⟩ := ho
  replace hq : getQueueBit (c.threadData.data (threadAddr tid)) = false := hq
  simp [h, he, hf, hi, hm, hk, hs, hc, ha, hd, hw, hsw, hp, hq]
  simp [Tables.setSchedParam, Tables.reprioritize, Tables.queued, Tables.refresh, Tables.head,
    Tables.level, hsw, hp, hq]

lemma setSchedParam_watched_queued (hl : SteadyLines ls cpu) (ho : BusOperands ls tid param entry)
    (hr : c.Ready) (hk : c.ip2busAck = false)
    (h : c.regs.currentStateMaster = .setSchedParam .begin) (hsw : isSoftwareParam param = true)
    (hp : schedParamAllowed entry tid cpu = true) (hq : c.tables.queued tid = true) :
    (runUntil Core.watch (fun x => acknowledged x.1) ls 24 0 (c, false)).2 =
      decide ((c.tables.setSchedParam entry cpu tid param).encoderOutput <
        (c.tables.setSchedParam entry cpu tid param).level cpu) := by
  obtain ⟨he, hf, hi, hm⟩ := hr
  obtain ⟨hs, hc⟩ := hl
  obtain ⟨ha, hd, hw⟩ := ho
  replace hq : getQueueBit (c.threadData.data (threadAddr tid)) = true := hq
  by_cases halone : getTailPointer (c.priorityData.data (priorityAddr
      (getPriority (c.threadData.data (threadAddr tid))))) =
      getHeadPointer (c.priorityData.data (priorityAddr
        (getPriority (c.threadData.data (threadAddr tid)))))
  · cases hn : setEncoderBit false (getPriority (c.threadData.data (threadAddr tid)))
      c.regs.encoderInput (paramPriority param)
    all_goals
      simp [h, he, hf, hi, hm, hk, hs, hc, ha, hd, hw, hsw, hp, hq, halone, hn]
      simp [Tables.setSchedParam, Tables.reprioritize, Tables.queued, Tables.refresh, Tables.head,
        Tables.move, Tables.unlink, Tables.link, Tables.level, Tables.tail, Tables.runEncoder,
        hsw, hp, hq, halone, hn]
  by_cases hhead : getHeadPointer (c.priorityData.data (priorityAddr
      (getPriority (c.threadData.data (threadAddr tid))))) = tid
  · rw [hhead] at halone
    cases hn : c.regs.encoderInput (paramPriority param)
    all_goals
      simp [h, he, hf, hi, hm, hk, hs, hc, ha, hd, hw, hsw, hp, hq, halone, hhead, hn]
      simp [Tables.setSchedParam, Tables.reprioritize, Tables.queued, Tables.refresh, Tables.head,
        Tables.move, Tables.unlink, Tables.link, Tables.level, Tables.tail, Tables.runEncoder,
        Tables.next, hsw, hp, hq, halone, hhead, hn]
  by_cases htail : getTailPointer (c.priorityData.data (priorityAddr
      (getPriority (c.threadData.data (threadAddr tid))))) = tid
  · rw [htail] at halone
    cases hn : c.regs.encoderInput (paramPriority param)
    all_goals
      simp [h, he, hf, hi, hm, hk, hs, hc, ha, hd, hw, hsw, hp, hq, halone, htail, hn]
      simp [Tables.setSchedParam, Tables.reprioritize, Tables.queued, Tables.refresh, Tables.head,
        Tables.move, Tables.unlink, Tables.link, Tables.level, Tables.tail, Tables.runEncoder,
        Tables.prev, hsw, hp, hq, halone, htail, hn]
  · cases hn : c.regs.encoderInput (paramPriority param)
    all_goals
      simp [h, he, hf, hi, hm, hk, hs, hc, ha, hd, hw, hsw, hp, hq, halone, Ne.symm hhead,
        Ne.symm htail, hn]
      simp [Tables.setSchedParam, Tables.reprioritize, Tables.queued, Tables.refresh, Tables.head,
        Tables.move, Tables.unlink, Tables.link, Tables.level, Tables.tail, Tables.runEncoder,
        Tables.prev, Tables.next, hsw, hp, hq, halone, Ne.symm hhead, Ne.symm htail, hn]

end SetSchedParam

/-- The interrupt line goes up while the command runs. -/
def Core.preempts (e : Environment) (cmd : Command) (c : Core) : Bool :=
  (runUntil Core.watch (fun x => inState .idle x.1) (fun _ => e.quietLines) 32 0
    (runUntil Core.watch (fun x => cmd.accepted x.1) (fun _ => cmd.lines e) 32 0 (c, false))).2

section Watching

variable {c : Core} {e : Environment} {cmd : Command} {l : Lines}

lemma watch_fst (stop : Core → Bool) (ls : ℕ → Lines) (n k : ℕ) (x : Core × Bool) :
    (runUntil Core.watch (fun x => stop x.1) ls n k x).1 =
      runUntil Core.clock stop ls n k x.1 := by
  induction n generalizing k x with
  | zero => rfl
  | succ n ih =>
    rw [runUntil, runUntil]
    split
    · rfl
    · exact ih (k + 1) _

lemma watch_step {stop : Core → Bool} (ls : ℕ → Lines) (n k : ℕ) {x : Core × Bool}
    (h : stop x.1 = false) :
    runUntil Core.watch (fun x => stop x.1) ls (n + 1) k x =
      runUntil Core.watch (fun x => stop x.1) ls n (k + 1) (Core.watch (ls k) x) :=
  runUntil_step Core.watch ls n k h

lemma watch_stop {stop : Core → Bool} (ls : ℕ → Lines) (n k : ℕ) {x : Core × Bool}
    (h : stop x.1 = true) : runUntil Core.watch (fun x => stop x.1) ls n k x = x :=
  runUntil_stop Core.watch ls n k h

lemma idle_line (h : c.regs.currentStateMaster = .idle) :
    (c.drive l).preemptionInterruptLine = false := by
  simp only [Core.drive, masterLogic, h, idleLogic]
  split <;> rfl

lemma watch_idle (h : c.regs.currentStateMaster = .idle) :
    Core.watch l (c, false) = (c.clock l, false) := by
  rw [Core.watch, idle_line h]
  rfl

lemma preempts_tm {r : TmRequest} (hc : c.Quiescent)
    (hacc : cmd.accepted = Core.busy) (hs : (cmd.lines e).softReset = false)
    (hr : tmCmdProc (cmd.lines e) = some r) (hb : busCmdProc (cmd.lines e) = none) :
    c.preempts e cmd = (runUntil Core.watch (fun x => inState .idle x.1)
      (release e (cmd.lines e)) 33 0 ((c.clock (cmd.lines e)).clock (cmd.lines e), false)).2 := by
  set l := cmd.lines e with hl
  have hd := tm_decoded hc hs hr hb
  obtain ⟨hbusy, -⟩ := tm_busy hs hd.state
  have h0 : Core.busy c = false := hc.schedBusy
  have h1 : Core.busy (c.clock l) = false := (clock_quiescent hc hs).1
  have h2 : Core.busy ((c.clock l).clock l) = false := hd.schedBusy
  have h3 : Core.busy (((c.clock l).clock l).clock l) = true := hbusy
  have hstart : inState .idle ((c.clock l).clock l) = false := by
    rw [inState, hd.state]
    cases r <;> rfl
  have hidle : (c.clock l).regs.currentStateMaster = .idle := by
    simp [idleLogic, hc.state, hc.requests, hs]
  have hheld : runUntil Core.watch (fun x => Core.busy x.1) (fun _ => l) 32 0 (c, false) =
      Core.watch l ((c.clock l).clock l, false) := by
    rw [watch_step _ 31 0 h0, watch_idle hc.state, watch_step _ 30 1 h1, watch_idle hidle,
      watch_step _ 29 2 h2, watch_stop _ 29 3 h3]
  rw [Core.preempts, hacc, ← hl, hheld, watch_step (release e l) 32 0 hstart]
  refine congrArg Prod.snd (runUntil_congr Core.watch _ 32 0 (0 + 1) _ fun j => ?_)
  simp [release]

lemma preempts_bus {T : Tables} {data : Word} (hc : c.Quiescent)
    (hacc : cmd.accepted = acknowledged) (hs : (cmd.lines e).softReset = false)
    (ha : Answered (runUntil Core.clock acknowledged (fun _ => cmd.lines e) 24 0
      ((c.clock (cmd.lines e)).clock (cmd.lines e))) T data) :
    c.preempts e cmd = (runUntil Core.watch (fun x => acknowledged x.1) (fun _ => cmd.lines e) 24 0
      ((c.clock (cmd.lines e)).clock (cmd.lines e), false)).2 := by
  set l := cmd.lines e with hl
  have h0 : acknowledged c = false := hc.ack
  have h1 : acknowledged (c.clock l) = false := (clock_quiescent hc hs).2
  have hidle : (c.clock l).regs.currentStateMaster = .idle := by
    simp [idleLogic, hc.state, hc.requests, hs]
  have hfst := watch_fst acknowledged (fun _ => l) 24 0 ((c.clock l).clock l, false)
  have hstop : acknowledged (runUntil Core.watch (fun x => acknowledged x.1) (fun _ => l) 24 0
      ((c.clock l).clock l, false)).1 = true := by
    rw [hfst]
    exact ha.ack
  have hheld : runUntil Core.watch (fun x => acknowledged x.1) (fun _ => l) 32 0 (c, false) =
      runUntil Core.watch (fun x => acknowledged x.1) (fun _ => l) 24 0
        ((c.clock l).clock l, false) := by
    rw [watch_step _ 31 0 h0, watch_idle hc.state, watch_step _ 30 1 h1,
      watch_idle hidle, ← runUntil_mono Core.watch _ 0 (by omega : 24 ≤ 30) hstop]
    exact runUntil_congr Core.watch _ 30 (1 + 1) 0 _ fun _ => rfl
  rw [Core.preempts, hacc, ← hl, hheld]
  have hstate := ha.state
  rw [← hfst] at hstate
  generalize runUntil Core.watch (fun x => acknowledged x.1) (fun _ => l) 24 0
    ((c.clock l).clock l, false) = x at hstate
  have hline : (x.1.drive e.quietLines).preemptionInterruptLine = false := by
    simp [hstate, Environment.quietLines]
  have hnext : inState .idle (x.1.clock e.quietLines) = true := by
    simp [hstate, Environment.quietLines]
  have hnot : inState .idle x.1 = false := by
    rw [inState, hstate]
    rfl
  rw [watch_step _ 31 0 hnot, watch_stop _ 31 1 hnext, Core.watch, hline, Bool.or_false]

end Watching

/-- The operations that look whether the running thread is to be preempted. -/
def Looks (e : Environment) (T : Tables) : Command → Prop
  | .enqueue tid => isSoftwareParam (T.param tid) = true
  | .setSchedParam tid param =>
    isSoftwareParam param = true ∧ schedParamAllowed (e.swtm tid) tid e.currentCpuTid = true
  | _ => False

/-- The line shows how the encoder's output compares with the priority that the running thread
then has. -/
lemma preempts_eq {c : Core} (hc : c.Quiescent) {e : Environment} {cmd : Command}
    (h : Looks e c.tables cmd) :
    c.preempts e cmd = decide ((cmd.effect e c.tables).encoderOutput <
      (cmd.effect e c.tables).level e.currentCpuTid) := by
  cases cmd with
  | enqueue tid =>
    have hd := tm_decoded (r := .enqueue) hc (l := (Command.enqueue tid).lines e) rfl rfl rfl
    have hl := release_steady (e := e) (l := (Command.enqueue tid).lines e) rfl rfl
    have hp : isSoftwareParam (Tables.param (Core.tables _) tid) = true := hd.tables.symm ▸ h
    have hsv := enqueue_served hl hd.toReady hd.state rfl hp
    have hstop : inState .idle (runUntil Core.watch (fun x => inState .idle x.1)
        (release e ((Command.enqueue tid).lines e)) 13 0
        ((c.clock ((Command.enqueue tid).lines e)).clock ((Command.enqueue tid).lines e),
          false)).1 = true := by
      rw [watch_fst, inState, hsv.state]
      rfl
    rw [preempts_tm (r := .enqueue) hc rfl rfl rfl rfl,
      runUntil_mono Core.watch _ 0 (by omega : 13 ≤ 33) hstop,
      enqueue_watched hl hd.toReady hd.state rfl hp, hd.tables]
    rfl
  | setSchedParam tid param =>
    obtain ⟨hsw, hp⟩ := h
    have hd := bus_decoded hc rfl rfl (busCmdProc_setSchedParam e tid param) rfl
    have hl := lines_steady e (l := (Command.setSchedParam tid param).lines e) rfl rfl
    have ho : BusOperands (fun _ => (Command.setSchedParam tid param).lines e) tid param
      (e.swtm tid) := lines_operands e rfl rfl rfl
    have ha := setSchedParam_answered hl ho hd.toReady hd.schedBusy hd.ack hd.state
    rw [preempts_bus hc rfl rfl ha, Command.effect, ← hd.tables]
    cases hq : Tables.queued _ tid with
    | false => exact setSchedParam_watched_unqueued hl ho hd.toReady hd.ack hd.state hsw hp hq
    | true => exact setSchedParam_watched_queued hl ho hd.toReady hd.ack hd.state hsw hp hq
  | dequeue | isQueued _ | isEmpty | setIdleThread _ | getSchedParam _ | checkSchedParam _
  | getEntry _ => exact h.elim

-- ENQUEUE of unqueued threads, DEQUEUE from the front or of an unqueued thread whose own list is
-- empty, moves along links that can be followed
def preemptGuard : Guard := fun e cmd T =>
  match cmd with
  | .enqueue tid => isSoftwareParam (T.param tid) = true → T.queued tid = false
  | .dequeue => Front T e.currentCpuTid ∨
    T.queued e.currentCpuTid = false ∧ T.readyList (T.level e.currentCpuTid) = []
  | .setSchedParam tid param => isSoftwareParam param = true →
    schedParamAllowed (e.swtm tid) tid e.currentCpuTid = true → T.queued tid = true →
    T.Movable T.readyList tid (paramPriority param)
  | _ => True

def BetterQueued (T : Tables) (cpu : ThreadId) : Prop :=
  ∃ u, T.queued u = true ∧ T.level u < T.level cpu

/-- The encoder's last output is of use: a thread is queued, or the output is no better than the
priority that the running thread gets. -/
def OutputOfUse (e : Environment) (T : Tables) : Command → Prop
  | .setSchedParam tid param => (∃ u, T.queued u = true) ∨
    (if tid = e.currentCpuTid then paramPriority param else T.level e.currentCpuTid) ≤
      T.encoderOutput
  | _ => True

section Preemption

variable {T : Tables} {e : Environment} {cmd : Command} {cpu : ThreadId}

lemma intact_preempt (e : Environment) (cmd : Command) (T : Tables) (h : Intact T)
    (hg : preemptGuard e cmd T) : Intact (cmd.effect e T) := by
  cases cmd with
  | enqueue tid =>
    by_cases hp : isSoftwareParam (T.param tid) = true
    · exact h.enqueue (hg hp)
    · rw [Command.effect, Tables.enqueue, if_neg hp]
      exact h
  | dequeue =>
    obtain hf | ⟨hq, hnil⟩ := hg
    · exact h.dequeue_front hf
    · exact h.dequeue_unqueued hq hnil
  | setSchedParam tid param => exact h.setSchedParam hg
  | setIdleThread tid => exact h.setIdleThread _
  | isQueued tid | isEmpty | getSchedParam tid | checkSchedParam tid | getEntry tid => exact h

lemma Intact.output_lt_iff (h : Intact T) (hq : ∃ u, T.queued u = true) :
    T.encoderOutput < T.level cpu ↔ BetterQueued T cpu := by
  obtain ⟨t, ht⟩ := hq
  obtain ⟨hbest, hlow⟩ :=
    h.fresh.isBest h.lists ⟨_, List.ne_nil_of_mem (h.lists.exists_mem ht)⟩
  constructor
  · intro hlt
    obtain ⟨u, hu⟩ := List.exists_mem_of_ne_nil _ hbest
    exact ⟨u, h.lists.queued_eq hu, by rwa [((h.lists.mem u _).mp hu).2]⟩
  · rintro ⟨u, hu, hlt⟩
    have hbelow : ¬ T.level u < T.encoderOutput := by
      intro hbelow
      have hmem := h.lists.exists_mem hu
      rw [hlow _ hbelow] at hmem
      exact List.not_mem_nil hmem
    rw [BitVec.lt_def] at hbelow hlt ⊢
    omega

lemma queued_enqueue (h : Intact T) {tid : ThreadId} (hp : isSoftwareParam (T.param tid) = true)
    (ht : T.queued tid = false) : (T.enqueue tid).queued tid = true := by
  have hmem : tid ∈ push T.readyList (T.level tid) tid (T.level tid) := by
    rw [push_self]
    simp
  exact (h.lists.enqueue hp ht).queued_eq hmem

lemma setSchedParam_idle (hno : ¬ ∃ u, T.queued u = true) {tid : ThreadId} {param entry : Word}
    (hsw : isSoftwareParam param = true) (hp : schedParamAllowed entry tid cpu = true) :
    (T.setSchedParam entry cpu tid param).encoderOutput = T.encoderOutput ∧
    (T.setSchedParam entry cpu tid param).queued = T.queued ∧
    (T.setSchedParam entry cpu tid param).level cpu =
      if tid = cpu then paramPriority param else T.level cpu := by
  have hfree : T.queued tid = false := Bool.eq_false_of_not_eq_true fun h => hno ⟨tid, h⟩
  rw [Tables.setSchedParam_of_unqueued hsw hp hfree]
  refine ⟨rfl, ?_, ?_⟩
  · funext u
    by_cases hu : u = tid <;> simp [Tables.refresh, Tables.queued, hu]
  · by_cases hcpu : tid = cpu
    · simp [Tables.refresh, Tables.level, hcpu]
    · simp [Tables.refresh, Tables.level, hcpu, Ne.symm hcpu]

lemma queued_setSchedParam (h : Intact T) {tid : ThreadId} {param : Word}
    (hg : preemptGuard e (.setSchedParam tid param) T) (hq : ∃ u, T.queued u = true) :
    ∃ u, (T.setSchedParam (e.swtm tid) e.currentCpuTid tid param).queued u = true := by
  obtain ⟨u, hu⟩ := hq
  have hintact := h.setSchedParam hg
  obtain heq | ⟨-, -, hmoved, heq⟩ := h.setSchedParam_lists hg
  · exact ⟨u, hintact.lists.queued_eq (heq ▸ h.lists.exists_mem hu)⟩
  · refine ⟨tid, hintact.lists.queued_eq (p := paramPriority param) ?_⟩
    rw [heq, move, push_self]
    simp

/-- What the line shows, against what it is for. -/
lemma preempts_iff_of_use (h : Intact T) (hg : preemptGuard e cmd T) (hlook : Looks e T cmd) :
    (((cmd.effect e T).encoderOutput < (cmd.effect e T).level e.currentCpuTid) ↔
      BetterQueued (cmd.effect e T) e.currentCpuTid) ↔ OutputOfUse e T cmd := by
  have hafter := intact_preempt e cmd T h hg
  cases cmd with
  | enqueue tid =>
    exact iff_of_true (hafter.output_lt_iff ⟨tid, queued_enqueue h hlook (hg hlook)⟩) trivial
  | setSchedParam tid param =>
    obtain ⟨hsw, hp⟩ := hlook
    by_cases hq : ∃ u, T.queued u = true
    · exact iff_of_true (hafter.output_lt_iff (queued_setSchedParam h hg hq)) (.inl hq)
    · obtain ⟨houtput, hqueued, hlevel⟩ := setSchedParam_idle hq hsw hp
      have hnone : ¬ BetterQueued (T.setSchedParam (e.swtm tid) e.currentCpuTid tid param)
          e.currentCpuTid := by
        rintro ⟨u, hu, -⟩
        rw [hqueued] at hu
        exact hq ⟨u, hu⟩
      rw [Command.effect, OutputOfUse, iff_false_right hnone, or_iff_right hq, houtput, hlevel]
      exact BitVec.not_lt
  | dequeue | isQueued _ | isEmpty | setIdleThread _ | getSchedParam _ | checkSchedParam _
  | getEntry _ => exact hlook.elim

end Preemption

/-- In the runs that keep the lists whole, ENQUEUE and SET_SCHEDPARAM interrupt the running thread
for a better queued thread exactly when the encoder's last output is of use. -/
theorem preempts_rightly_iff (c : Core) (hc : c.Reachable preemptGuard) (e : Environment)
    (cmd : Command) (hg : preemptGuard e cmd c.tables) (hlook : Looks e c.tables cmd) :
    (c.preempts e cmd = true ↔ BetterQueued (c.execute e cmd).tables e.currentCpuTid) ↔
      OutputOfUse e c.tables cmd := by
  obtain ⟨hquiet, hintact⟩ := reachable_invariant intact_initial intact_preempt hc
  rw [preempts_eq hquiet hlook, decide_eq_true_eq, (execute_spec hquiet e cmd).tables]
  exact preempts_iff_of_use hintact hg hlook

section Samples

def runner : Environment := ⟨9, fun _ => 0x20⟩

-- thread 1 waits behind thread 9, which then takes a worse priority
theorem preempts_rightly_for_waiting :
    (((Core.powerUp.softReset runner).execute runner (.enqueue 1)).preempts runner
        (.setSchedParam 9 0x50) = true ↔
      BetterQueued (((Core.powerUp.softReset runner).execute runner (.enqueue 1)).execute runner
        (.setSchedParam 9 0x50)).tables 9) := by
  have hreset := softReset_spec runner (c := Core.powerUp) rfl
  have htables : ((Core.powerUp.softReset runner).execute runner (.enqueue 1)).tables =
      Tables.initial.enqueue 1 := by
    rw [(execute_spec hreset.toQuiescent runner (.enqueue 1)).tables, hreset.tables]
    rfl
  have hfirst : preemptGuard runner (.enqueue 1) (Core.powerUp.softReset runner).tables := by
    rw [hreset.tables]
    intro _
    decide
  refine (preempts_rightly_iff _ (.step (.reset runner rfl) hfirst) runner (.setSchedParam 9 0x50)
    (fun _ _ hq => ?_) ⟨by decide, by decide⟩).mpr (.inl ⟨1, ?_⟩)
  · rw [htables] at hq
    exact absurd hq (by decide)
  · rw [htables]
    decide

/-- Nothing is queued, and thread 9 is interrupted because it takes a worse priority than 0, where
the encoder stands after the reset. -/
theorem preempts_for_nothing :
    ¬ ∀ c : Core, c.Reachable (fun _ _ _ => True) → ∀ (e : Environment) (cmd : Command),
      Looks e c.tables cmd →
        (c.preempts e cmd = true ↔ BetterQueued (c.execute e cmd).tables e.currentCpuTid) := by
  intro hclaim
  have hreset := softReset_spec runner (c := Core.powerUp) rfl
  have hlook : Looks runner (Core.powerUp.softReset runner).tables (.setSchedParam 9 0x05) :=
    ⟨by decide, by decide⟩
  have hright := hclaim _ (.reset runner rfl) runner (.setSchedParam 9 0x05) hlook
  rw [preempts_eq hreset.toQuiescent hlook,
    (execute_spec hreset.toQuiescent runner _).tables, hreset.tables] at hright
  obtain ⟨u, hu, -⟩ := hright.mp (by decide)
  have hno : ∀ u, ((Command.setSchedParam 9 0x05).effect runner .initial).queued u = false := by
    decide
  rw [hno u] at hu
  cases hu

end Samples

end Hthreads.Scheduler
