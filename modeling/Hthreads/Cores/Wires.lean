import Hthreads.Cores.Composition
import Hthreads.Scheduler.Serving
import Hthreads.ThreadManager.Asking

/-! The request wires between the two cores, and what one cycle changes on each side. -/

namespace Hthreads.Cores

open Library Library.BitFields Scheduler Scheduler.Core ThreadManager

-- the request on the wires of the thread manager
def asked (m : Swtm) (op : TmRequest) : Request where
  op := op
  tid := match op with
    | .dequeue => m.regs.cpuThreadId
    | _ => m.regs.tm2schData

structure Asks (m : Swtm) (op : TmRequest) : Prop where
  state : m.regs.currentState = .waitAck op
  request : m.regs.tm2schRequest = true
  opcode : m.regs.tm2schOpcode = opcode op
  returns : m.regs.returnState.tests = some op

structure Awaits (m : Swtm) (op : TmRequest) : Prop where
  state : m.regs.currentState = .waitComplete op
  request : m.regs.tm2schRequest = false
  returns : m.regs.returnState.tests = some op

def Balanced (j : Journal) : Prop := j.effectsExecuted = j.effectsIssued

-- the newest request has been issued and nothing has been executed since
structure Pending (j : Journal) (q : Request) : Prop where
  before : j.executed = j.before
  issued : ∃ older, j.issued = q :: older ∧ j.effectsExecuted = older.filter Request.effectful

-- the newest request alone has been executed since it was issued
structure Executed (j : Journal) (q : Request) (T : Tables) : Prop where
  issued : j.issued.head? = some q
  executed : j.executed = ⟨q, T⟩ :: j.before
  balanced : Balanced j

structure Answered (s : System) (j : Journal) (q : Request) (T : Tables) : Prop
    extends Executed j q T where
  answered : j.answered = j.executed
  data : s.sch.sch2tmData = q.result T
  tables : s.sch.tables = q.effect T

/-- The two cores as seen from the wires between them. -/
inductive Phase (s : System) (j : Journal) : Prop
  | working : s.tm.regs.currentState.waiting = false → s.tm.regs.currentState.tests = none →
    s.tm.regs.tm2schRequest = false → Quiet s.sch → s.sch.requests = ⟨none, none⟩ →
    Balanced j → Phase s j
  | asking (op : TmRequest) : Asks s.tm op → Quiet s.sch →
    (s.sch.requests = ⟨none, none⟩ ∨ s.sch.requests = ⟨some op, none⟩) →
    Pending j (asked s.tm op) → Phase s j
  | begun (op : TmRequest) : Asks s.tm op → s.tm.schedulerReset = false → Started op s.sch →
    s.sch.requests = ⟨some op, none⟩ → Pending j (asked s.tm op) → Phase s j
  | acknowledged (op : TmRequest) (n : ℕ) (w : Bool) (T : Tables) : Asks s.tm op →
    s.tm.schedulerReset = false → s.sch.regs.schedBusy = true →
    Finishing n s.tm.regs.cpuThreadId (s.sch, w) ((asked s.tm op).effect T)
      ((asked s.tm op).result T) →
    (op ≠ .isEmpty → ∀ l : Lines, l.softReset = false → (s.sch.clock l).regs.schedBusy = true) →
    Executed j (asked s.tm op) T → (w = true → j.answered = j.executed) → Phase s j
  | serving (q : Request) (n : ℕ) (w : Bool) (T : Tables) : Awaits s.tm q.op →
    s.tm.schedulerReset = false → s.sch.regs.schedBusy = true →
    Finishing n s.tm.regs.cpuThreadId (s.sch, w) (q.effect T) (q.result T) →
    Executed j q T → (w = true → j.answered = j.executed) → Phase s j
  | served (q : Request) (T : Tables) : Awaits s.tm q.op → s.tm.schedulerReset = false →
    Resting s.sch → (s.sch.requests = ⟨none, none⟩ ∨
      q.op = .isEmpty ∧ s.sch.requests = ⟨some .isEmpty, none⟩) →
    Answered s j q T → Phase s j
  | returning (q : Request) (T : Tables) : s.tm.regs.currentState.tests = some q.op →
    s.tm.regs.tm2schRequest = false → s.sch.requests = ⟨none, none⟩ →
    (Quiet s.sch ∨ q.op = .isEmpty ∧ Started .isEmpty s.sch) → Answered s j q T → Phase s j
  | echoing : s.tm.regs.currentState = .yieldThread .enqueue ∨
      s.tm.regs.currentState = .endTransaction →
    s.tm.regs.tm2schRequest = false → Echo s.sch → s.sch.requests = ⟨none, none⟩ →
    Balanced j → Phase s j

section Wires

variable {s : System} {j : Journal} {x : Inputs}

lemma onLines_lines (x : Inputs) (m : Swtm) (op : TmRequest) :
    Request.onLines (System.lines x m) op = asked m op := rfl

lemma requests_silent (hx : x.Undisturbed) (h : s.tm.regs.tm2schRequest = false) :
    (s.clock x).sch.requests = ⟨none, none⟩ := by
  simp [System.clock, Core.clock, tmCmdProc, busCmdProc, System.lines, h, hx.rdCE, hx.wrCE]

lemma requests_asked (hx : x.Undisturbed) {op : TmRequest} (h : Asks s.tm op) :
    (s.clock x).sch.requests = ⟨some op, none⟩ := by
  have hop := h.opcode
  cases op
  all_goals
    simp [System.clock, Core.clock, tmCmdProc, busCmdProc, System.lines, h.request, hop, hx.rdCE,
      hx.wrCE, opcode, enqueueOpcode, dequeueOpcode, isQueuedOpcode, isEmptyOpcode]

lemma tm_regs (hx : x.Undisturbed) : (s.clock x).tm.regs =
    (swtmLogic (s.tm.signals x.tm (System.sch2tm s.sch)) s.tm.regs).next := by
  simp only [System.clock, Swtm.clock, Swtm.drive, hx.reset, Bool.false_eq_true, if_false]

lemma tm_waitAck (hx : x.Undisturbed) {op : TmRequest} (h : s.tm.regs.currentState = .waitAck op)
    (hb : s.sch.regs.schedBusy = false) : (s.clock x).tm.regs = s.tm.regs := by
  have hbusy : (System.sch2tm s.sch).busy = false := hb
  rw [tm_regs hx]
  simp only [swtmLogic, h, waitAckLogic, Swtm.signals, hbusy, Bool.not_false, if_true]

lemma tm_acknowledged_regs (hx : x.Undisturbed) {op : TmRequest}
    (h : s.tm.regs.currentState = .waitAck op) (hb : s.sch.regs.schedBusy = true) :
    (s.clock x).tm.regs = { s.tm.regs with
      tm2schRequest := false
      tm2schData := 0
      tm2schOpcode := 0
      currentState := .waitComplete op } := by
  have hbusy : (System.sch2tm s.sch).busy = true := hb
  rw [tm_regs hx]
  simp [swtmLogic, h, waitAckLogic, Swtm.signals, hbusy, timeoutExpired]

lemma tm_acknowledged (hx : x.Undisturbed) {op : TmRequest} (h : Asks s.tm op)
    (hb : s.sch.regs.schedBusy = true) :
    Awaits (s.clock x).tm op ∧ (s.clock x).tm.schedulerReset = s.tm.schedulerReset ∧
      (s.clock x).tm.regs.cpuThreadId = s.tm.regs.cpuThreadId := by
  have hregs := tm_acknowledged_regs hx h.state hb
  refine ⟨⟨?_, ?_, ?_⟩, ?_, ?_⟩
  · rw [hregs]
  · rw [hregs]
  · rw [hregs]
    exact h.returns
  · rw [Swtm.schedulerReset, hregs]
    rfl
  · rw [hregs]
    rfl

lemma tm_waitComplete (hx : x.Undisturbed) {op : TmRequest}
    (h : s.tm.regs.currentState = .waitComplete op) (hb : s.sch.regs.schedBusy = true) :
    (s.clock x).tm.regs = s.tm.regs := by
  have hbusy : (System.sch2tm s.sch).busy = true := hb
  rw [tm_regs hx]
  simp only [swtmLogic, h, waitCompleteLogic, Swtm.signals, hbusy, if_true]

lemma tm_returned_regs (hx : x.Undisturbed) {op : TmRequest}
    (h : s.tm.regs.currentState = .waitComplete op) (hb : s.sch.regs.schedBusy = false) :
    (s.clock x).tm.regs = { s.tm.regs with
      tm2schData := 0
      tm2schOpcode := 0
      currentState := s.tm.regs.returnState } := by
  have hbusy : (System.sch2tm s.sch).busy = false := hb
  rw [tm_regs hx]
  simp [swtmLogic, h, waitCompleteLogic, Swtm.signals, hbusy, timeoutExpired]

lemma tm_returned (hx : x.Undisturbed) {op : TmRequest} (h : Awaits s.tm op)
    (hb : s.sch.regs.schedBusy = false) :
    (s.clock x).tm.regs.currentState = s.tm.regs.returnState ∧
      (s.clock x).tm.regs.tm2schRequest = false := by
  rw [tm_returned_regs hx h.state hb]
  exact ⟨rfl, h.request⟩

lemma steady_lines (h : s.tm.schedulerReset = false) :
    SteadyLine (System.lines x s.tm) s.tm.regs.cpuThreadId := ⟨h, rfl⟩

end Wires

section Records

variable {s : System} {j : Journal} {x : Inputs}

lemma not_waiting_of_tests {st : SwtmState} {op : TmRequest} (h : st.tests = some op) :
    st.waiting = false := by
  cases st <;> simp_all [SwtmState.tests, SwtmState.waiting]

lemma raised_none_of_working {m m' : Swtm} (h : m'.regs.currentState.waiting = false) :
    Journal.raised m m' = none := by
  unfold Journal.raised
  split
  · rfl
  · next hs _ =>
    rw [hs] at h
    exact Bool.noConfusion h
  · rfl

lemma raised_none_of_waiting {m m' : Swtm} {op : TmRequest}
    (h : m.regs.currentState = .waitAck op) : Journal.raised m m' = none := by
  rw [Journal.raised, h]

lemma raised_some {m m' : Swtm} {op : TmRequest} (h : m.regs.currentState.waiting = false)
    (h' : m'.regs.currentState = .waitAck op) : Journal.raised m m' = some op := by
  unfold Journal.raised
  split
  · next hs =>
    rw [hs] at h
    exact Bool.noConfusion h
  · next hs _ =>
    rw [h'] at hs
    exact congrArg some (SwtmState.waitAck.inj hs).symm
  · next hno =>
    exact absurd h' (hno op)

lemma begun_quiet {c : Core} (h : Quiet c) : Journal.begun c = none := by
  cases h with
  | resting h => rcases h.state with hs | hs | hs <;> rw [Journal.begun, hs]
  | reset s _ _ hs => rw [Journal.begun, hs]

lemma begun_started {c : Core} {op : TmRequest} (h : Started op c) :
    Journal.begun c = some op := by
  rw [Journal.begun, h.state]
  cases op <;> rfl

lemma begun_echo {c : Core} (h : Echo c) : Journal.begun c = none := by
  rw [Journal.begun, h.state]

lemma begun_busy {c : Core} (h : busyAllowed c.regs.currentStateMaster = true) :
    Journal.begun c = none := by
  unfold Journal.begun
  split
  all_goals simp_all [busyAllowed]

lemma record_issued_none (h : Journal.raised s.tm (s.clock x).tm = none) :
    (j.record x s).issued = j.issued ∧ (j.record x s).before = j.before := by
  simp [Journal.record, h]

lemma record_issued_some {op : TmRequest} (h : Journal.raised s.tm (s.clock x).tm = some op) :
    (j.record x s).issued = asked (s.clock x).tm op :: j.issued ∧
      (j.record x s).before = (j.record x s).executed := by
  simp [Journal.record, h, onLines_lines]

lemma record_executed_none (h : Journal.begun s.sch = none) :
    (j.record x s).executed = j.executed := by
  simp only [Journal.record, h]

lemma record_executed_some {op : TmRequest} (h : Journal.begun s.sch = some op) :
    (j.record x s).executed = ⟨asked s.tm op, s.sch.tables⟩ :: j.executed := by
  simp only [Journal.record, h, onLines_lines]

lemma record_answered (h : (s.sch.drive (System.lines x s.tm)).tmDataReady = false) :
    (j.record x s).answered = j.answered := by
  simp only [Journal.record, h, Bool.false_eq_true, if_false]

lemma record_answered_new (h : (s.sch.drive (System.lines x s.tm)).tmDataReady = true)
    (hb : Journal.begun s.sch = none) : (j.record x s).answered = (j.record x s).executed := by
  simp only [Journal.record, h, hb, if_true]

end Records

end Hthreads.Cores
