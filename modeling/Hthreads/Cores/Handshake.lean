import Hthreads.Cores.Wires
import Hthreads.Scheduler.Reset

/-! Every request of the thread manager is executed once, and the answer that the thread manager
looks at is the answer to that request. -/

namespace Hthreads.Cores

open Library Library.BitFields Scheduler Scheduler.Core ThreadManager

section Steps

variable {s : System} {j : Journal} {x : Inputs}

lemma Asks.congr {m m' : Swtm} {op : TmRequest} (h : Asks m op) (hr : m'.regs = m.regs) :
    Asks m' op ∧ asked m' op = asked m op := by
  refine ⟨⟨hr ▸ h.state, hr ▸ h.request, hr ▸ h.opcode, hr ▸ h.returns⟩, ?_⟩
  simp only [asked, hr]

lemma Awaits.congr {m m' : Swtm} {op : TmRequest} (h : Awaits m op) (hr : m'.regs = m.regs) :
    Awaits m' op :=
  ⟨hr ▸ h.state, hr ▸ h.request, hr ▸ h.returns⟩

lemma start_finishing {c : Core} {op : TmRequest} {l : Lines} {cpu : ThreadId} {w : Bool}
    (h : Started op c) (hl : SteadyLine l cpu) :
    Finishing 12 cpu (note l (c, w)) ((Request.onLines l op).effect c.tables)
      ((Request.onLines l op).result c.tables) := by
  cases op with
  | enqueue => exact enqueue_finishing hl h rfl
  | dequeue =>
    rw [Request.onLines]
    simp only [Request.effect, Request.result, hl.currentCpuTid]
    exact dequeue_finishing hl h
  | isQueued => exact isQueued_finishing hl h rfl
  | isEmpty => exact isEmpty_finishing hl h

lemma free_step (hx : x.Undisturbed) (hw : s.tm.regs.currentState.waiting = false)
    (hreq : s.tm.regs.tm2schRequest = false) (hq : Quiet (s.clock x).sch)
    (hbal : (j.record x s).effectsExecuted = j.effectsIssued) :
    Phase (s.clock x) (j.record x s) := by
  have hout := swtmLogic_outcome (x := s.tm.signals x.tm (System.sch2tm s.sch)) hreq hw
  rw [← tm_regs hx] at hout
  have hsilent := requests_silent hx hreq
  cases hout with
  | works hwork htests hreq' =>
    refine .working hwork htests hreq' hq hsilent ?_
    rw [Balanced, hbal, Journal.effectsIssued, Journal.effectsIssued,
      (record_issued_none (raised_none_of_working hwork)).1]
  | asks op hstate hreturn hreq' hopcode =>
    obtain ⟨hissued, hbefore⟩ := record_issued_some (j := j) (raised_some hw hstate)
    exact .asking op ⟨hstate, hreq', hopcode, hreturn⟩ hq (.inl hsilent)
      ⟨hbefore.symm, j.issued, hissued, hbal⟩

lemma effectsExecuted_none (h : Journal.begun s.sch = none) :
    (j.record x s).effectsExecuted = j.effectsExecuted := by
  rw [Journal.effectsExecuted, Journal.effectsExecuted, record_executed_none h]

lemma Pending.keep {q : Request} (h : Pending j q)
    (hr : Journal.raised s.tm (s.clock x).tm = none) (hb : Journal.begun s.sch = none) :
    Pending (j.record x s) q := by
  obtain ⟨hissued, hbefore⟩ := record_issued_none (j := j) hr
  obtain ⟨older, hold, hexec⟩ := h.issued
  refine ⟨?_, older, ?_, ?_⟩
  · rw [record_executed_none hb, hbefore, h.before]
  · rw [hissued, hold]
  · rw [effectsExecuted_none hb, hexec]

lemma Executed.keep {q : Request} {T : Tables} (h : Executed j q T)
    (hr : Journal.raised s.tm (s.clock x).tm = none) (hb : Journal.begun s.sch = none) :
    Executed (j.record x s) q T := by
  obtain ⟨hissued, hbefore⟩ := record_issued_none (j := j) hr
  refine ⟨?_, ?_, ?_⟩
  · rw [hissued, h.issued]
  · rw [record_executed_none hb, hbefore, h.executed]
  · rw [Balanced, effectsExecuted_none hb, Journal.effectsIssued, hissued]
    exact h.balanced

lemma Pending.begin {op : TmRequest} (h : Pending j (asked s.tm op))
    (hr : Journal.raised s.tm (s.clock x).tm = none) (hb : Journal.begun s.sch = some op) :
    Executed (j.record x s) (asked s.tm op) s.sch.tables := by
  obtain ⟨hissued, hbefore⟩ := record_issued_none (j := j) hr
  have hexecuted := record_executed_some (j := j) (x := x) hb
  obtain ⟨older, hold, hexec⟩ := h.issued
  refine ⟨?_, ?_, ?_⟩
  · rw [hissued, hold]
    rfl
  · rw [hexecuted, hbefore, h.before]
  · rw [Journal.effectsExecuted] at hexec
    rw [Balanced, Journal.effectsExecuted, Journal.effectsIssued, hexecuted, hissued, hold,
      List.map_cons, List.filter_cons, List.filter_cons, hexec]

lemma written_step {w : Bool} (hw : w = true → j.answered = j.executed)
    (hb : Journal.begun s.sch = none)
    (h : (w || (s.sch.drive (System.lines x s.tm)).tmDataReady) = true) :
    (j.record x s).answered = (j.record x s).executed := by
  cases hd : (s.sch.drive (System.lines x s.tm)).tmDataReady with
  | true => exact record_answered_new hd hb
  | false =>
    rw [hd, Bool.or_false] at h
    rw [record_answered hd, record_executed_none hb]
    exact hw h

lemma Finishing_pred {n : ℕ} {cpu : ThreadId} {p : Core × Bool} {T : Tables} {data : ThreadId}
    {l : Lines} (h : Finishing n cpu p T data) (hl : SteadyLine l cpu)
    (hb : p.1.regs.schedBusy = true) : ∃ k, n = k + 1 ∧ Finishing k cpu (note l p) T data := by
  cases n with
  | zero =>
    rw [h.not_busy_of_zero hl] at hb
    exact Bool.noConfusion hb
  | succ k => exact ⟨k, rfl, h.step hl hb⟩

lemma working_step (hx : x.Undisturbed) (hw : s.tm.regs.currentState.waiting = false)
    (hreq : s.tm.regs.tm2schRequest = false) (hq : Quiet s.sch)
    (hsilent : s.sch.requests = ⟨none, none⟩) (hbal : Balanced j) :
    Phase (s.clock x) (j.record x s) := by
  refine free_step hx hw hreq (hq.step hsilent) ?_
  rw [effectsExecuted_none (begun_quiet hq)]
  exact hbal

lemma asking_step (hx : x.Undisturbed) {op : TmRequest} (ha : Asks s.tm op) (hq : Quiet s.sch)
    (hreq : s.sch.requests = ⟨none, none⟩ ∨ s.sch.requests = ⟨some op, none⟩)
    (hp : Pending j (asked s.tm op)) : Phase (s.clock x) (j.record x s) := by
  have hbusy : s.sch.regs.schedBusy = false := by
    cases hq with
    | resting h => exact h.schedBusy
    | reset _ _ h _ => exact h
  have hregs := tm_waitAck hx ha.state hbusy
  obtain ⟨ha', hasked⟩ := ha.congr hregs
  have hp' := hp.keep (raised_none_of_waiting ha.state) (begun_quiet hq) (x := x)
  rw [← hasked] at hp'
  have hreq' := requests_asked hx ha
  rcases hreq with hnone | hsome
  · exact .asking op ha' (hq.step hnone) (.inr hreq') hp'
  · rcases hq.decode (l := System.lines x s.tm) hsome with hquiet | ⟨hstarted, hs⟩
    · exact .asking op ha' hquiet (.inr hreq') hp'
    · refine .begun op ha' ?_ hstarted hreq' hp'
      rw [Swtm.schedulerReset, hregs]
      exact hs

lemma begun_step (hx : x.Undisturbed) {op : TmRequest} (ha : Asks s.tm op)
    (hs : s.tm.schedulerReset = false) (hst : Started op s.sch)
    (hp : Pending j (asked s.tm op)) : Phase (s.clock x) (j.record x s) := by
  have hregs := tm_waitAck hx ha.state hst.schedBusy
  obtain ⟨ha', hasked⟩ := ha.congr hregs
  have hl := steady_lines (x := x) hs
  have hfin := start_finishing (w := false) hst hl
  obtain ⟨hbusy, hready⟩ := hst.busy hl.softReset
  have hexec := hp.begin (raised_none_of_waiting ha.state) (begun_started hst) (x := x)
  have hnote : note (System.lines x s.tm) (s.sch, false) = ((s.clock x).sch, false) := by
    rw [note, hready]
    rfl
  rw [onLines_lines, ← hasked, hnote] at hfin
  rw [← hasked] at hexec
  refine .acknowledged op 12 false s.sch.tables ha' ?_ hbusy ?_ ?_ hexec ?_
  · rw [Swtm.schedulerReset, hregs]
    exact hs
  · rw [hregs]
    exact hfin
  · intro hop l' hs'
    exact hst.stays_busy hop hl.softReset hs'
  · intro hw
    exact Bool.noConfusion hw

lemma finished_answered {q : Request} {T : Tables} {n : ℕ} {w : Bool}
    (hs : s.tm.schedulerReset = false)
    (hfin : Finishing n s.tm.regs.cpuThreadId (note (System.lines x s.tm) (s.sch, w)) (q.effect T)
      (q.result T))
    (hb : (s.clock x).sch.regs.schedBusy = false) (hbegun : Journal.begun s.sch = none)
    (hexec : Executed (j.record x s) q T) (hw : w = true → j.answered = j.executed) :
    Resting (s.clock x).sch ∧ Answered (s.clock x) (j.record x s) q T := by
  have hdone := hfin.finished (steady_lines (x := x) hs) hb
  exact ⟨hdone.toResting, hexec, written_step hw hbegun hdone.written, hdone.data, hdone.tables⟩

lemma acknowledged_step (hx : x.Undisturbed) {op : TmRequest} {n : ℕ} {w : Bool} {T : Tables}
    (ha : Asks s.tm op) (hs : s.tm.schedulerReset = false) (hb : s.sch.regs.schedBusy = true)
    (hallowed : busyAllowed s.sch.regs.currentStateMaster = true)
    (hfin : Finishing n s.tm.regs.cpuThreadId (s.sch, w) ((asked s.tm op).effect T)
      ((asked s.tm op).result T))
    (hop : op ≠ .isEmpty → ∀ l : Lines, l.softReset = false →
      (s.sch.clock l).regs.schedBusy = true)
    (hexec : Executed j (asked s.tm op) T) (hw : w = true → j.answered = j.executed) :
    Phase (s.clock x) (j.record x s) := by
  obtain ⟨hawaits, hreset, hcpu⟩ := tm_acknowledged hx ha hb
  rw [hs] at hreset
  have hl := steady_lines (x := x) hs
  have hbegun := begun_busy hallowed
  have hexec' := hexec.keep (raised_none_of_waiting ha.state) hbegun (x := x)
  obtain ⟨k, -, hfin'⟩ := Finishing_pred hfin hl hb
  cases hb' : (s.clock x).sch.regs.schedBusy with
  | true =>
    refine .serving (asked s.tm op) k _ T hawaits hreset hb' ?_ hexec' (written_step hw hbegun)
    rw [hcpu]
    exact hfin'
  | false =>
    have hempty : op = .isEmpty := by
      by_contra hne
      have hbusy : (s.clock x).sch.regs.schedBusy = true := hop hne _ hl.softReset
      rw [hb'] at hbusy
      exact Bool.noConfusion hbusy
    obtain ⟨hrest, hans⟩ := finished_answered hs hfin' hb' hbegun hexec' hw
    refine .served (asked s.tm op) T hawaits hreset hrest (.inr ⟨hempty, ?_⟩) hans
    rw [requests_asked hx ha, hempty]

lemma serving_step (hx : x.Undisturbed) {q : Request} {n : ℕ} {w : Bool} {T : Tables}
    (ha : Awaits s.tm q.op) (hs : s.tm.schedulerReset = false) (hb : s.sch.regs.schedBusy = true)
    (hallowed : busyAllowed s.sch.regs.currentStateMaster = true)
    (hfin : Finishing n s.tm.regs.cpuThreadId (s.sch, w) (q.effect T) (q.result T))
    (hexec : Executed j q T) (hw : w = true → j.answered = j.executed) :
    Phase (s.clock x) (j.record x s) := by
  have hregs := tm_waitComplete hx ha.state hb
  have ha' := ha.congr hregs
  have hl := steady_lines (x := x) hs
  have hbegun := begun_busy hallowed
  have hraised : Journal.raised s.tm (s.clock x).tm = none := by
    rw [Journal.raised, hregs, ha.state]
  have hreset : (s.clock x).tm.schedulerReset = false := by
    rw [Swtm.schedulerReset, hregs]
    exact hs
  have hexec' := hexec.keep hraised hbegun (x := x)
  obtain ⟨k, -, hfin'⟩ := Finishing_pred hfin hl hb
  cases hb' : (s.clock x).sch.regs.schedBusy with
  | true =>
    refine .serving q k _ T ha' hreset hb' ?_ hexec' (written_step hw hbegun)
    rw [hregs]
    exact hfin'
  | false =>
    obtain ⟨hrest, hans⟩ := finished_answered hs hfin' hb' hbegun hexec' hw
    exact .served q T ha' hreset hrest (.inl (requests_silent hx ha.request)) hans

-- the scheduler rests, or decodes the IS_EMPTY request a second time
lemma resting_decodes {c : Core} {l : Lines} {op : TmRequest} (hr : Resting c)
    (hl : l.softReset = false)
    (hreq : c.requests = ⟨none, none⟩ ∨ op = .isEmpty ∧ c.requests = ⟨some .isEmpty, none⟩) :
    (Resting (c.clock l) ∨ op = .isEmpty ∧ Started .isEmpty (c.clock l)) ∧
      (c.clock l).tables = c.tables ∧ (c.clock l).sch2tmData = c.sch2tmData ∧
      (c.drive l).tmDataReady = false := by
  by_cases hidle : c.regs.currentStateMaster = .idle
  · rcases hreq with hnone | ⟨hop, hsome⟩
    · obtain ⟨hq, hkeep⟩ := hr.step hl fun _ => hnone
      exact ⟨.inl hq, hkeep⟩
    · obtain ⟨hst, hkeep⟩ := idle_started hr hidle hl hsome
      exact ⟨.inr ⟨hop, hst⟩, hkeep⟩
  · obtain ⟨hq, hkeep⟩ := hr.step hl fun h => absurd h hidle
    exact ⟨.inl hq, hkeep⟩

lemma served_step (hx : x.Undisturbed) {q : Request} {T : Tables} (ha : Awaits s.tm q.op)
    (hs : s.tm.schedulerReset = false) (hr : Resting s.sch)
    (hreq : s.sch.requests = ⟨none, none⟩ ∨
      q.op = .isEmpty ∧ s.sch.requests = ⟨some .isEmpty, none⟩)
    (hans : Answered s j q T) : Phase (s.clock x) (j.record x s) := by
  obtain ⟨hstate, hreq'⟩ := tm_returned hx ha hr.schedBusy
  have htests : (s.clock x).tm.regs.currentState.tests = some q.op := by
    rw [hstate]
    exact ha.returns
  have hbegun := begun_quiet (.resting hr)
  have hraised := raised_none_of_working (m := s.tm) (not_waiting_of_tests htests)
  have hexec := hans.toExecuted.keep hraised hbegun
  have hl : (System.lines x s.tm).softReset = false := hs
  obtain ⟨hsch, htables, hdata, hready⟩ := resting_decodes hr hl hreq
  refine .returning q T htests hreq' (requests_silent hx ha.request)
    (hsch.imp_left .resting) ⟨hexec, ?_, ?_, ?_⟩
  · rw [record_answered hready, record_executed_none hbegun, hans.answered]
  · exact hdata.trans hans.data
  · exact htables.trans hans.tables

lemma effectsExecuted_isEmpty (h : Started .isEmpty s.sch) :
    (j.record x s).effectsExecuted = j.effectsExecuted := by
  rw [Journal.effectsExecuted, Journal.effectsExecuted, record_executed_some (begun_started h),
    List.map_cons, List.filter_cons_of_neg]
  exact Bool.false_ne_true

lemma tests_isEmpty {st : SwtmState} (h : st.tests = some .isEmpty) :
    st = .yieldThread .checkQueueEmpty := by
  unfold SwtmState.tests at h
  split at h
  all_goals simp_all

lemma returning_step (hx : x.Undisturbed) {q : Request}
    (ht : s.tm.regs.currentState.tests = some q.op) (hreq : s.tm.regs.tm2schRequest = false)
    (hsilent : s.sch.requests = ⟨none, none⟩)
    (hsch : Quiet s.sch ∨ q.op = .isEmpty ∧ Started .isEmpty s.sch) (hbal : Balanced j) :
    Phase (s.clock x) (j.record x s) := by
  have hw := not_waiting_of_tests ht
  rcases hsch with hq | ⟨hop, hst⟩
  · exact working_step hx hw hreq hq hsilent hbal
  · have hbal' : (j.record x s).effectsExecuted = j.effectsIssued :=
      (effectsExecuted_isEmpty hst).trans hbal
    rcases hst.echo (l := System.lines x s.tm) with hq | hecho
    · exact free_step hx hw hreq hq hbal'
    · rw [hop] at ht
      have hnext := checkQueueEmpty_next (x := s.tm.signals x.tm (System.sch2tm s.sch)) hreq
      have hregs := tm_regs (s := s) hx
      rw [swtmLogic, tests_isEmpty ht] at hregs
      rw [← hregs] at hnext
      refine .echoing hnext.1 hnext.2 hecho (requests_silent hx hreq) ?_
      have hworks : (s.clock x).tm.regs.currentState.waiting = false := by
        rcases hnext.1 with h | h <;> rw [h] <;> rfl
      rw [Balanced, hbal', Journal.effectsIssued, Journal.effectsIssued,
        (record_issued_none (raised_none_of_working hworks)).1]

lemma echoing_step (hx : x.Undisturbed)
    (ht : s.tm.regs.currentState = .yieldThread .enqueue ∨
      s.tm.regs.currentState = .endTransaction)
    (hreq : s.tm.regs.tm2schRequest = false) (hecho : Echo s.sch) (hbal : Balanced j) :
    Phase (s.clock x) (j.record x s) := by
  have hw : s.tm.regs.currentState.waiting = false := by
    rcases ht with h | h <;> rw [h] <;> rfl
  refine free_step hx hw hreq hecho.step ?_
  rw [effectsExecuted_none (begun_echo hecho)]
  exact hbal

end Steps

lemma clock_busyAllowed {c : Core} {l : Lines}
    (h : c.regs.schedBusy = true → busyAllowed c.regs.currentStateMaster = true) :
    (c.clock l).regs.schedBusy = true → busyAllowed (c.clock l).regs.currentStateMaster = true := by
  cases hs : l.softReset && !c.regs.insideReset with
  | true =>
    rw [clock_enterReset hs]
    intro hb
    exact Bool.noConfusion hb
  | false =>
    rw [clock_regs hs]
    exact (orderly_masterLogic h).busy

lemma run_phase {s : System} {j : Journal} (h : Run s j) :
    Phase s j ∧ (s.sch.regs.schedBusy = true →
      busyAllowed s.sch.regs.currentStateMaster = true) := by
  induction h with
  | @start s hstate hreq hq =>
    refine ⟨.working ?_ ?_ hreq (.resting ?_) hq.requests rfl, fun hb => ?_⟩
    · rw [hstate]
      rfl
    · rw [hstate]
      rfl
    · exact ⟨⟨hq.encoderEnable, hq.findCurrent⟩, hq.insideReset, hq.schedBusy, .inl hq.state⟩
    · rw [hq.schedBusy] at hb
      exact Bool.noConfusion hb
  | @step s j x hx _ ih =>
    obtain ⟨hphase, hallowed⟩ := ih
    refine ⟨?_, clock_busyAllowed hallowed⟩
    cases hphase with
    | working hw _ hreq hq hsilent hbal => exact working_step hx hw hreq hq hsilent hbal
    | asking op ha hq hreq hp => exact asking_step hx ha hq hreq hp
    | begun op ha hs hst _ hp => exact begun_step hx ha hs hst hp
    | acknowledged op n w T ha hs hb hfin hop hexec hw =>
      exact acknowledged_step hx ha hs hb (hallowed hb) hfin hop hexec hw
    | serving q n w T ha hs hb hfin hexec hw =>
      exact serving_step hx ha hs hb (hallowed hb) hfin hexec hw
    | served q T ha hs hr hreq hans => exact served_step hx ha hs hr hreq hans
    | returning q T ht hreq hsilent hsch hans =>
      exact returning_step hx ht hreq hsilent hsch hans.balanced
    | echoing ht hreq hecho _ hbal => exact echoing_step hx ht hreq hecho hbal

section Progress

variable {s : System} {op : TmRequest} {R : SwtmState}

-- within `n` cycles the thread manager is in state `R`
def Reaches (R : SwtmState) (n : ℕ) (s : System) : Prop :=
  ∀ xs : ℕ → Inputs, (∀ k, (xs k).Undisturbed) →
    ∃ m ≤ n, (System.after xs m s).tm.regs.currentState = R

lemma after_succ (xs : ℕ → Inputs) (n : ℕ) (s : System) :
    System.after xs (n + 1) s = System.after (fun k => xs (k + 1)) n (s.clock (xs 0)) := by
  induction n with
  | zero => rfl
  | succ n ih => rw [System.after, ih, System.after]

lemma reaches_succ {n : ℕ} (h : ∀ x : Inputs, x.Undisturbed → Reaches R n (s.clock x)) :
    Reaches R (n + 1) s := by
  intro xs hxs
  obtain ⟨m, hm, hstate⟩ := h (xs 0) (hxs 0) (fun k => xs (k + 1)) fun k => hxs (k + 1)
  refine ⟨m + 1, by omega, ?_⟩
  rw [after_succ]
  exact hstate

lemma reaches_now {n : ℕ} (h : s.tm.regs.currentState = R) : Reaches R n s :=
  fun _ _ => ⟨0, Nat.zero_le n, h⟩

lemma serving_reaches {n : ℕ} {w : Bool} {T : Tables} {data : ThreadId} (ha : Awaits s.tm op)
    (hs : s.tm.schedulerReset = false)
    (hfin : Finishing n s.tm.regs.cpuThreadId (s.sch, w) T data) :
    Reaches s.tm.regs.returnState (n + 1) s := by
  induction n generalizing s w with
  | zero =>
    refine reaches_succ fun x hx => reaches_now ?_
    exact (tm_returned hx ha (hfin.not_busy_of_zero (steady_lines (x := x) hs))).1
  | succ n ih =>
    refine reaches_succ fun x hx => ?_
    cases hb : s.sch.regs.schedBusy with
    | false => exact reaches_now (tm_returned hx ha hb).1
    | true =>
      have hregs := tm_waitComplete hx ha.state hb
      have hfin' := hfin.step (steady_lines (x := x) hs) hb
      rw [← hregs] at hfin' ⊢
      refine ih (ha.congr hregs) ?_ hfin'
      rw [Swtm.schedulerReset, hregs]
      exact hs

lemma begun_reaches (ha : Asks s.tm op) (hs : s.tm.schedulerReset = false)
    (hst : Started op s.sch) : Reaches s.tm.regs.returnState 14 s := by
  refine reaches_succ fun x hx => ?_
  have hregs := tm_waitAck hx ha.state hst.schedBusy
  have hl := steady_lines (x := x) hs
  have hfin := start_finishing (w := false) hst hl
  have hbusy := (hst.busy hl.softReset).1
  have ha' := (ha.congr hregs).1
  have hs' : (s.clock x).tm.schedulerReset = false := by
    rw [Swtm.schedulerReset, hregs]
    exact hs
  rw [← hregs] at hfin ⊢
  -- one cycle later the thread manager has seen busy
  refine reaches_succ fun y hy => ?_
  obtain ⟨hawaits, hreset, hcpu⟩ := tm_acknowledged hy ha' hbusy
  have hfin' := hfin.step (steady_lines (x := y) hs') hbusy
  have hreturn : (((s.clock x).clock y).tm.regs.returnState) = (s.clock x).tm.regs.returnState := by
    have hb : (System.sch2tm (s.clock x).sch).busy = true := hbusy
    rw [tm_regs hy]
    simp [swtmLogic, ha'.state, waitAckLogic, Swtm.signals, hb, timeoutExpired]
  rw [← hcpu] at hfin'
  rw [← hreturn]
  exact serving_reaches hawaits (hreset.trans hs') hfin'

lemma asking_reaches (ha : Asks s.tm op) (hs : s.tm.schedulerReset = false) (hr : Resting s.sch)
    (hidle : s.sch.regs.currentStateMaster = .idle)
    (hreq : s.sch.requests = ⟨none, none⟩ ∨ s.sch.requests = ⟨some op, none⟩) :
    Reaches s.tm.regs.returnState 16 s := by
  have hdecoded : ∀ {t : System}, Asks t.tm op → t.tm.schedulerReset = false → Resting t.sch →
      t.sch.regs.currentStateMaster = .idle → t.sch.requests = ⟨some op, none⟩ →
      Reaches t.tm.regs.returnState 15 t := by
    intro t ha hs hr hidle hreq
    refine reaches_succ fun x hx => ?_
    have hregs := tm_waitAck hx ha.state hr.schedBusy
    have hst := (idle_started (l := System.lines x t.tm) hr hidle hs hreq).1
    rw [← hregs]
    refine begun_reaches (ha.congr hregs).1 ?_ hst
    rw [Swtm.schedulerReset, hregs]
    exact hs
  rcases hreq with hnone | hsome
  · refine reaches_succ fun x hx => ?_
    have hregs := tm_waitAck hx ha.state hr.schedBusy
    have hrest := (hr.step (l := System.lines x s.tm) hs fun _ => hnone).1
    have hidle' : (s.clock x).sch.regs.currentStateMaster = .idle := by
      rw [System.clock, clock_idle_state hidle hs]
      simp [Scheduler.idleLogic, Core.signals, hnone]
    rw [← hregs]
    refine hdecoded (ha.congr hregs).1 ?_ hrest hidle' (requests_asked hx ha)
    rw [Swtm.schedulerReset, hregs]
    exact hs
  · intro xs hxs
    obtain ⟨m, hm, hstate⟩ := hdecoded ha hs hr hidle hsome xs hxs
    exact ⟨m, by omega, hstate⟩

end Progress

theorem handshake_exact {s : System} {j : Journal} (h : Run s j) :
    (s.tm.regs.currentState.waiting = false → j.effectsExecuted = j.effectsIssued) ∧
    (∀ op, s.tm.regs.currentState.tests = some op →
      ∃ q T, q.op = op ∧ j.issued.head? = some q ∧ j.executed = ⟨q, T⟩ :: j.before ∧
        j.answered = j.executed ∧ s.sch.sch2tmData = q.result T ∧ s.sch.tables = q.effect T) ∧
    (∀ op, s.tm.regs.currentState = .waitAck op → s.tm.schedulerReset = false →
      s.sch.regs.currentStateMaster = .idle → Reaches s.tm.regs.returnState 16 s) := by
  obtain ⟨hphase, hallowed⟩ := run_phase h
  cases hphase with
  | working hw ht _ _ _ hbal =>
    refine ⟨fun _ => hbal, fun op hop => ?_, fun op hop => ?_⟩
    · rw [ht] at hop
      cases hop
    · rw [hop] at hw
      exact Bool.noConfusion hw
  | asking op ha hq hreq hp =>
    refine ⟨fun hw => ?_, fun op' hop => ?_, fun op' hop hs hidle => ?_⟩
    · rw [ha.state] at hw
      exact Bool.noConfusion hw
    · rw [ha.state] at hop
      cases hop
    · cases hq with
      | resting hr => exact asking_reaches ha hs hr hidle hreq
      | reset _ _ _ hreset =>
        rw [hidle] at hreset
        exact MasterState.noConfusion hreset
  | begun op ha _ hst _ _ =>
    refine ⟨fun hw => ?_, fun op' hop => ?_, fun op' hop hs _ => ?_⟩
    · rw [ha.state] at hw
      exact Bool.noConfusion hw
    · rw [ha.state] at hop
      cases hop
    · intro xs hxs
      obtain ⟨m, hm, hstate⟩ := begun_reaches ha hs hst xs hxs
      exact ⟨m, by omega, hstate⟩
  | acknowledged op n w T ha _ hb =>
    refine ⟨fun hw => ?_, fun op' hop => ?_, fun op' hop _ hidle => ?_⟩
    · rw [ha.state] at hw
      exact Bool.noConfusion hw
    · rw [ha.state] at hop
      cases hop
    · have := hallowed hb
      rw [hidle] at this
      exact Bool.noConfusion this
  | serving q n w T ha | served q T ha =>
    refine ⟨fun hw => ?_, fun op hop => ?_, fun op hop => ?_⟩
    · rw [ha.state] at hw
      exact Bool.noConfusion hw
    · rw [ha.state] at hop
      cases hop
    · rw [ha.state] at hop
      exact SwtmState.noConfusion hop
  | returning q T ht _ _ _ hans =>
    refine ⟨fun _ => hans.balanced, fun op hop => ?_, fun op hop => ?_⟩
    · rw [ht] at hop
      exact ⟨q, T, Option.some.inj hop, hans.issued, hans.executed, hans.answered, hans.data,
        hans.tables⟩
    · rw [hop] at ht
      cases ht
  | echoing ht _ _ _ hbal =>
    refine ⟨fun _ => hbal, fun op hop => ?_, fun op hop => ?_⟩
    all_goals
      rcases ht with h | h <;> rw [h] at hop <;> cases hop

-- the bus asks whether thread 5 is queued
def isQueuedInputs : Inputs where
  tm := .read cIsQueued 5
  schAddr := 0
  schData := 0
  schRdCE := false
  schWrCE := false
  schReset := false
  mstCmdAck := true
  mstCmplt := true

def recorded (x : Inputs) : ℕ → System × Journal → System × Journal
  | 0, p => p
  | n + 1, p => recorded x n (p.1.clock x, p.2.record x p.1)

lemma run_recorded {x : Inputs} (hx : x.Undisturbed) (n : ℕ) {p : System × Journal}
    (h : Run p.1 p.2) : Run (recorded x n p).1 (recorded x n p).2 := by
  induction n generalizing p with
  | zero => exact h
  | succ n ih => exact ih (.step x hx h)

theorem handshake_exact_isQueued :
    let p := recorded isQueuedInputs 9 (⟨Swtm.powerUp, Core.powerUp⟩, .empty)
    p.1.tm.regs.currentState = .isQueued .done ∧
      ∃ q T, q.op = .isQueued ∧ p.2.issued.head? = some q ∧ p.2.executed = ⟨q, T⟩ :: p.2.before ∧
        p.2.answered = p.2.executed ∧ p.1.sch.sch2tmData = q.result T ∧
        p.1.sch.tables = q.effect T := by
  have hrun := run_recorded (x := isQueuedInputs) ⟨rfl, rfl, rfl⟩ 9
    (p := (⟨Swtm.powerUp, Core.powerUp⟩, .empty))
    (.start rfl rfl ⟨⟨rfl, rfl, rfl, rfl⟩, rfl, rfl, rfl, rfl⟩)
  have hstate : (recorded isQueuedInputs 9
      (⟨Swtm.powerUp, Core.powerUp⟩, .empty)).1.tm.regs.currentState = .isQueued .done := by
    decide
  refine ⟨hstate, (handshake_exact hrun).2.1 .isQueued ?_⟩
  rw [hstate]
  rfl

end Hthreads.Cores
