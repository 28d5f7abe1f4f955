import Hthreads.Cores.Books
import Hthreads.Cores.Handshake

/-! The clocked composition of the two cores simulates the machine without waiting cycles: a run of
the former, less the cycles in which the thread manager waits, is a run of the latter. -/

namespace Hthreads.Cores

open Library Library.BitFields Scheduler Scheduler.Core ThreadManager

/-- No reset begins, no register is written, and nobody reads the lines between the cores. -/
structure Inputs.Ordinary (x : Inputs) : Prop extends x.Undisturbed where
  read : x.tm.bus2ipWrCE = false
  lines : x.tm.command ≠ cSchedLines

/-- The cycles that the machine without waiting makes. -/
def System.moves (s : System) : Bool :=
  match s.tm.regs.currentState with
  | .waitAck _ => false
  | .waitComplete _ => !s.sch.regs.schedBusy
  | _ => true

/-- The bus lines of the first `n` cycles, but for those in which the thread manager waits. -/
def System.worked (xs : ℕ → Inputs) (s : System) (n : ℕ) : List BusLines :=
  ((List.range n).filter fun k => (after xs k s).moves).map fun k => (xs k).tm

def Managed.clocks (a : Managed) (ls : List BusLines) : Managed :=
  ls.foldl (fun a l => a.clock l) a

/-- The machine without waiting where the composition stands. While a request is under way it has
not gone on. -/
inductive Stands (s : System) (j : Journal) (a : Managed) : Prop
  | level : s.tm.regs.currentState.waiting = false → a.tm.regs = s.tm.regs →
    a.ready = s.sch.tables →
    (∀ op, s.tm.regs.currentState.tests = some op → a.data = s.sch.sch2tmData) → Stands s j a
  | asking (op : TmRequest) : s.tm.regs.currentState = .waitAck op → a.tm.regs = s.tm.regs →
    (j.executed = j.before ∧ a.ready = s.sch.tables ∨
      j.executed = ⟨asked s.tm op, a.ready⟩ :: j.before) → Stands s j a
  | awaiting (op : TmRequest) : a.tm.regs.currentState = .waitAck op →
    s.tm.regs = { a.tm.regs with
      tm2schRequest := false
      tm2schData := 0
      tm2schOpcode := 0
      currentState := .waitComplete op } →
    j.executed = ⟨asked a.tm op, a.ready⟩ :: j.before → Stands s j a

structure Mirrors (s : System) (j : Journal) (a : Managed) : Prop where
  view : Stands s j a
  table : a.tm.threadTable = s.tm.threadTable
  unreset : s.tm.schedulerReset = false
  state : s.tm.regs.currentState.resetting = false
  calm : s.sch.Calm

section Steps

variable {s : System} {j : Journal} {a : Managed} {x : Inputs}

lemma schedulerReset_keeps {m m' : Swtm} (h : m'.regs.softResets = m.regs.softResets) :
    m'.schedulerReset = m.schedulerReset := by
  rw [Swtm.schedulerReset, Swtm.schedulerReset, h]

lemma moves_of_working (hw : s.tm.regs.currentState.waiting = false) : s.moves = true := by
  rw [System.moves]
  split
  next op hs =>
    rw [hs] at hw
    cases hw
  next op hs =>
    rw [hs] at hw
    cases hw
  next => rfl

lemma table_waiting (h : s.tm.regs.currentState.waiting = true) :
    (s.clock x).tm.threadTable = s.tm.threadTable := by
  have hoff : (s.tm.drive x.tm (System.sch2tm s.sch)).a = .off := by
    rw [Swtm.drive, swtmLogic]
    cases hs : s.tm.regs.currentState
    case waitAck op =>
      simp only [waitAckLogic]
      split_ifs <;> rfl
    case waitComplete op =>
      simp only [waitCompleteLogic]
      split_ifs <;> rfl
    all_goals simp [hs, SwtmState.waiting] at h
  rw [System.clock, Swtm.clock, hoff]
  rfl

lemma clock_level (hw : s.tm.regs.currentState.waiting = false) (ha : a.tm.regs = s.tm.regs) :
    a.clock x.tm = { a with tm := a.tm.clock x.tm a.sch2tm false } := by
  rw [Managed.clock, ha]
  split
  next op hs =>
    rw [hs] at hw
    cases hw
  next => rfl

lemma drive_level (hx : x.Ordinary) (hw : s.tm.regs.currentState.waiting = false)
    (hr : s.tm.regs.currentState.resetting = false) (ha : a.tm.regs = s.tm.regs)
    (htable : a.tm.threadTable = s.tm.threadTable) (hready : a.ready = s.sch.tables)
    (hdata : ∀ op, s.tm.regs.currentState.tests = some op → a.data = s.sch.sch2tmData) :
    a.tm.drive x.tm a.sch2tm = s.tm.drive x.tm (System.sch2tm s.sch) := by
  rw [Swtm.drive, Swtm.drive, Swtm.signals, Swtm.signals, Managed.sch2tm, System.sch2tm, ha, htable,
    hready]
  exact swtmLogic_congr hw hr hdata hx.read hx.lines

lemma Mirrors.level (h : Mirrors s j a) (hw : s.tm.regs.currentState.waiting = false) :
    a.tm.regs = s.tm.regs ∧ a.ready = s.sch.tables ∧
      ∀ op, s.tm.regs.currentState.tests = some op → a.data = s.sch.sch2tmData := by
  cases h.view with
  | level _ hregs hready hdata => exact ⟨hregs, hready, hdata⟩
  | asking op hs =>
    rw [hs] at hw
    cases hw
  | awaiting op _ hs =>
    rw [hs] at hw
    cases hw

lemma Mirrors.asking (h : Mirrors s j a) {op : TmRequest}
    (hs : s.tm.regs.currentState = .waitAck op) :
    a.tm.regs = s.tm.regs ∧ (j.executed = j.before ∧ a.ready = s.sch.tables ∨
      j.executed = ⟨asked s.tm op, a.ready⟩ :: j.before) := by
  cases h.view with
  | level hw =>
    rw [hs] at hw
    cases hw
  | asking op' hs' hregs hready =>
    obtain rfl : op = op' := SwtmState.waitAck.inj (hs.symm.trans hs')
    exact ⟨hregs, hready⟩
  | awaiting op' _ hs' =>
    rw [hs'] at hs
    cases hs

lemma Mirrors.awaiting (h : Mirrors s j a) {op : TmRequest}
    (hs : s.tm.regs.currentState = .waitComplete op) :
    a.tm.regs.currentState = .waitAck op ∧
      s.tm.regs = { a.tm.regs with
        tm2schRequest := false
        tm2schData := 0
        tm2schOpcode := 0
        currentState := .waitComplete op } ∧
      j.executed = ⟨asked a.tm op, a.ready⟩ :: j.before := by
  cases h.view with
  | level hw =>
    rw [hs] at hw
    cases hw
  | asking op' hs' =>
    rw [hs'] at hs
    cases hs
  | awaiting op' ha hregs hexec =>
    rw [hregs] at hs
    obtain rfl : op' = op := SwtmState.waitComplete.inj hs
    exact ⟨ha, hregs, hexec⟩

lemma Mirrors.free (h : Mirrors s j a) (hx : x.Ordinary)
    (hw : s.tm.regs.currentState.waiting = false) (hreq : s.tm.regs.tm2schRequest = false)
    (htables : (s.clock x).sch.tables = s.sch.tables) (hcalm : (s.clock x).sch.Calm) :
    Mirrors (s.clock x) (j.record x s) (a.clock x.tm) := by
  obtain ⟨hregs, hready, hdata⟩ := h.level hw
  have hdrive := drive_level hx hw h.state hregs h.table hready hdata
  have hkeeps := swtmLogic_keepsResets (x := s.tm.signals x.tm (System.sch2tm s.sch)) hw h.state
    hx.read
  rw [← tm_regs hx.toUndisturbed] at hkeeps
  rw [clock_level hw hregs]
  have hready' := hready.trans htables.symm
  have hregs' : (a.tm.clock x.tm a.sch2tm false).regs = (s.clock x).tm.regs := by
    rw [tm_regs hx.toUndisturbed, Swtm.clock, hx.reset, if_neg Bool.false_ne_true, hdrive]
    rfl
  refine ⟨?_, ?_, (schedulerReset_keeps hkeeps.softResets).trans h.unreset, hkeeps.state, hcalm⟩
  · have hout := swtmLogic_outcome (x := s.tm.signals x.tm (System.sch2tm s.sch)) hreq hw
    rw [← tm_regs hx.toUndisturbed] at hout
    cases hout with
    | works hwork htests =>
      refine .level hwork hregs' hready' fun op hop => ?_
      rw [htests] at hop
      cases hop
    | asks op hstate =>
      exact .asking op hstate hregs'
        (.inl ⟨(record_issued_some (raised_some hw hstate)).2.symm, hready'⟩)
  · rw [Swtm.clock, hdrive, h.table]
    rfl

lemma Mirrors.asking_step (h : Mirrors s j a) (hx : x.Ordinary) {op : TmRequest}
    (ha : Asks s.tm op) (hq : Quiet s.sch)
    (hreq : s.sch.requests = ⟨none, none⟩ ∨ s.sch.requests = ⟨some op, none⟩)
    (hp : Pending j (asked s.tm op)) : Mirrors (s.clock x) (j.record x s) a := by
  have hrest := hq.resting_of_calm h.calm
  have hregs := tm_waitAck hx.toUndisturbed ha.state hrest.schedBusy
  have hsch : (s.clock x).sch.Calm ∧ (s.clock x).sch.tables = s.sch.tables := by
    by_cases hidle : s.sch.regs.currentStateMaster = .idle
    · rcases hreq with hnone | hsome
      · obtain ⟨hnext, htables, -⟩ := hrest.step (l := System.lines x s.tm) h.unreset fun _ => hnone
        exact ⟨hnext.calm, htables⟩
      · obtain ⟨hst, htables, -⟩ :=
        idle_started (l := System.lines x s.tm) hrest hidle h.unreset hsome
        exact ⟨hst.calm, htables⟩
    · obtain ⟨hnext, htables, -⟩ :=
        hrest.step (l := System.lines x s.tm) h.unreset fun hi => absurd hi hidle
      exact ⟨hnext.calm, htables⟩
  obtain ⟨hregsa, hready⟩ := h.asking ha.state
  refine ⟨.asking op (hregs ▸ ha.state) (hregsa.trans hregs.symm) (.inl ⟨?_, ?_⟩),
    h.table.trans (table_waiting (ha.state ▸ rfl)).symm,
    (schedulerReset_keeps (hregs ▸ rfl)).trans h.unreset, hregs ▸ h.state, hsch.1⟩
  · rw [record_executed_none (begun_quiet hq), hp.before,
      (record_issued_none (raised_none_of_waiting ha.state)).2]
  · rcases hready with ⟨-, hready⟩ | hexec
    · exact hready.trans hsch.2.symm
    · rw [hp.before] at hexec
      exact absurd hexec (List.cons_ne_self _ _).symm

lemma Mirrors.begun_step (h : Mirrors s j a) (hx : x.Ordinary) {op : TmRequest}
    (ha : Asks s.tm op) (hst : Started op s.sch) (hp : Pending j (asked s.tm op))
    (hallowed : (s.clock x).sch.regs.schedBusy = true →
      busyAllowed (s.clock x).sch.regs.currentStateMaster = true) :
    Mirrors (s.clock x) (j.record x s) a := by
  have hregs := tm_waitAck hx.toUndisturbed ha.state hst.schedBusy
  obtain ⟨hregsa, hready⟩ := h.asking ha.state
  refine ⟨.asking op (hregs ▸ ha.state) (hregsa.trans hregs.symm) (.inr ?_),
    h.table.trans (table_waiting (ha.state ▸ rfl)).symm,
    (schedulerReset_keeps (hregs ▸ rfl)).trans h.unreset, hregs ▸ h.state,
    calm_of_allowed (hallowed (hst.busy (l := System.lines x s.tm) h.unreset).1)⟩
  rcases hready with ⟨-, hready⟩ | hexec
  · have hexecuted :=
      (hp.begin (raised_none_of_waiting ha.state) (begun_started hst) (x := x)).executed
    rw [hexecuted, hready, (ha.congr hregs).2]
  · rw [hp.before] at hexec
    exact absurd hexec (List.cons_ne_self _ _).symm

lemma Mirrors.acknowledged_step (h : Mirrors s j a) (hx : x.Ordinary) {op : TmRequest}
    (ha : Asks s.tm op) (hb : s.sch.regs.schedBusy = true) {T : Tables}
    (hbegun : Journal.begun s.sch = none) (hexec : Executed j (asked s.tm op) T)
    (hcalm : (s.clock x).sch.Calm) : Mirrors (s.clock x) (j.record x s) a := by
  have hregs := tm_acknowledged_regs hx.toUndisturbed ha.state hb
  obtain ⟨hregsa, hready⟩ := h.asking ha.state
  have hasked : asked a.tm op = asked s.tm op := by simp only [asked, hregsa]
  refine ⟨.awaiting op (hregsa ▸ ha.state) (hregsa ▸ hregs) ?_,
    h.table.trans (table_waiting (ha.state ▸ rfl)).symm,
    (schedulerReset_keeps (hregs ▸ rfl)).trans h.unreset, hregs ▸ rfl, hcalm⟩
  have hnew := (hexec.keep (raised_none_of_waiting ha.state) hbegun (x := x)).executed
  rcases hready with ⟨hnone, -⟩ | hold
  · rw [hexec.executed] at hnone
    exact absurd hnone (List.cons_ne_self _ _)
  · rw [hexec.executed] at hold
    obtain ⟨hT, -⟩ := List.cons.inj hold
    rw [hnew, hT, hasked]

lemma Mirrors.serving_step (h : Mirrors s j a) (hx : x.Ordinary) {op : TmRequest}
    (ha : Awaits s.tm op) (hb : s.sch.regs.schedBusy = true)
    (hbegun : Journal.begun s.sch = none) (hcalm : (s.clock x).sch.Calm) :
    Mirrors (s.clock x) (j.record x s) a := by
  have hregs := tm_waitComplete hx.toUndisturbed ha.state hb
  obtain ⟨hstate, hregsa, hexec⟩ := h.awaiting ha.state
  have hraised : Journal.raised s.tm (s.clock x).tm = none := by
    rw [Journal.raised, hregs, ha.state]
  refine ⟨.awaiting op hstate (hregs.trans hregsa) ?_,
    h.table.trans (table_waiting (ha.state ▸ rfl)).symm,
    (schedulerReset_keeps (hregs ▸ rfl)).trans h.unreset, hregs ▸ h.state, hcalm⟩
  rw [record_executed_none hbegun, hexec, (record_issued_none hraised).2]

lemma Mirrors.served_step (h : Mirrors s j a) (hx : x.Ordinary) {op : TmRequest} {q : Request}
    {T : Tables} (hop : q.op = op) (ha : Awaits s.tm op) (hr : Resting s.sch)
    (hreq : s.sch.requests = ⟨none, none⟩ ∨
      op = .isEmpty ∧ s.sch.requests = ⟨some .isEmpty, none⟩)
    (hans : Answered s j q T) : Mirrors (s.clock x) (j.record x s) (a.clock x.tm) := by
  have hregs := tm_returned_regs hx.toUndisturbed ha.state hr.schedBusy
  obtain ⟨hstate, hregsa, hexec⟩ := h.awaiting ha.state
  obtain ⟨hsch, htables, hdata, -⟩ := resting_decodes (l := System.lines x s.tm) hr h.unreset hreq
  have hclock : a.clock x.tm = a.serve op := by rw [Managed.clock, hstate]
  rw [hans.executed] at hexec
  obtain ⟨rfl, rfl⟩ := Execution.mk.inj (List.cons.inj hexec).1
  have htests : (s.clock x).tm.regs.currentState.tests = some op := by
    rw [hregs]
    exact ha.returns
  rw [hclock]
  refine ⟨.level (not_waiting_of_tests htests) ?_ ?_ fun _ _ => ?_,
    h.table.trans (table_waiting (ha.state ▸ rfl)).symm,
    (schedulerReset_keeps (hregs ▸ rfl)).trans h.unreset, ?_, ?_⟩
  · rw [hregs, hregsa]
    rfl
  · exact (htables.trans hans.tables).symm
  · exact (hdata.trans hans.data).symm
  · cases hnext : (s.clock x).tm.regs.currentState
    case softReset r =>
      rw [hnext] at htests
      cases htests
    all_goals rfl
  · rcases hsch with hrest | ⟨-, hst⟩
    · exact hrest.calm
    · exact hst.calm

theorem Mirrors.step (h : Mirrors s j a) (hx : x.Ordinary) (hphase : Phase s j)
    (hallowed : s.sch.regs.schedBusy = true → busyAllowed s.sch.regs.currentStateMaster = true) :
    Mirrors (s.clock x) (j.record x s) (if s.moves then a.clock x.tm else a) := by
  have hl := steady_lines (x := x) h.unreset
  have hallowed' := clock_busyAllowed (l := System.lines x s.tm) hallowed
  have hbusy {n : ℕ} {w : Bool} {T : Tables} {data : ThreadId} (hb : s.sch.regs.schedBusy = true)
      (hfin : Finishing n s.tm.regs.cpuThreadId (s.sch, w) T data) : (s.clock x).sch.Calm := by
    cases hb' : (s.clock x).sch.regs.schedBusy with
    | true => exact calm_of_allowed (hallowed' hb')
    | false =>
      obtain ⟨k, -, hfin'⟩ := Finishing_pred hfin hl hb
      exact (hfin'.finished hl hb').toResting.calm
  cases hphase with
  | working hw _ hreq hq hsilent =>
    obtain ⟨hrest, htables, -⟩ := (hq.resting_of_calm h.calm).step hl.softReset fun _ => hsilent
    rw [if_pos (moves_of_working hw)]
    exact h.free hx hw hreq htables hrest.calm
  | asking op ha hq hreq hp =>
    rw [if_neg (by simp [System.moves, ha.state])]
    exact h.asking_step hx ha hq hreq hp
  | begun op ha _ hst _ hp =>
    rw [if_neg (by simp [System.moves, ha.state])]
    exact h.begun_step hx ha hst hp hallowed'
  | acknowledged op n w T ha _ hb hfin _ hexec =>
    rw [if_neg (by simp [System.moves, ha.state])]
    exact h.acknowledged_step hx ha hb (begun_busy (hallowed hb)) hexec (hbusy hb hfin)
  | serving q n w T ha _ hb hfin =>
    rw [if_neg (by simp [System.moves, ha.state, hb])]
    exact h.serving_step hx ha hb (begun_busy (hallowed hb)) (hbusy hb hfin)
  | served q T ha _ hr hreq hans =>
    rw [if_pos (by simp [System.moves, ha.state, hr.schedBusy])]
    exact h.served_step hx rfl ha hr hreq hans
  | returning q T ht hreq hsilent hsch =>
    have hw := not_waiting_of_tests ht
    rw [if_pos (moves_of_working hw)]
    rcases hsch with hq | ⟨-, hst⟩
    · obtain ⟨hrest, htables, -⟩ := (hq.resting_of_calm h.calm).step hl.softReset fun _ => hsilent
      exact h.free hx hw hreq htables hrest.calm
    · obtain ⟨hecho, htables⟩ := hst.isEmpty_clock hl.softReset
      exact h.free hx hw hreq htables hecho.calm
  | echoing ht hreq hecho =>
    have hw : s.tm.regs.currentState.waiting = false := by
      rcases ht with ht | ht <;> rw [ht] <;> rfl
    obtain ⟨hrest, htables⟩ := hecho.clock hl.softReset
    rw [if_pos (moves_of_working hw)]
    exact h.free hx hw hreq htables hrest.calm

end Steps

section Runs

variable {s : System} {xs : ℕ → Inputs}

lemma worked_succ (xs : ℕ → Inputs) (s : System) (n : ℕ) (a : Managed) :
    a.clocks (s.worked xs (n + 1)) =
      if (System.after xs n s).moves then (a.clocks (s.worked xs n)).clock (xs n).tm
      else a.clocks (s.worked xs n) := by
  rw [System.worked, List.range_succ, List.filter_append, List.map_append, Managed.clocks,
    List.foldl_append, System.worked, Managed.clocks]
  cases hm : (System.after xs n s).moves <;> simp [hm]

lemma run_mirrors (hxs : ∀ n, (xs n).Ordinary) (hstate : s.tm.regs.currentState = .idleState)
    (hreq : s.tm.regs.tm2schRequest = false) (hreset : s.tm.schedulerReset = false)
    (hq : s.sch.Quiescent) (n : ℕ) :
    ∃ j, Run (System.after xs n s) j ∧ Mirrors (System.after xs n s) j
      (Managed.clocks ⟨s.tm, s.sch.tables, s.sch.sch2tmData⟩ (s.worked xs n)) := by
  induction n with
  | zero =>
    refine ⟨.empty, .start hstate hreq hq, .level ?_ rfl rfl fun _ _ => rfl, rfl, hreset, ?_, ?_⟩
    · exact hstate ▸ rfl
    · exact hstate ▸ rfl
    · intro r hr
      rw [System.after, hq.state] at hr
      cases hr
  | succ n ih =>
    obtain ⟨j, hrun, hmirrors⟩ := ih
    obtain ⟨hphase, hallowed⟩ := run_phase hrun
    refine ⟨_, .step (xs n) (hxs n).toUndisturbed hrun, ?_⟩
    rw [worked_succ]
    exact hmirrors.step (hxs n) hphase hallowed

/-- The clocked composition refines the machine without waiting cycles: from two idle cores on,
whenever the thread manager does not wait, its registers and its table and the tables of the
scheduler are those of a machine that has been given the bus lines of the other cycles. -/
theorem composition_refines_managed (hxs : ∀ n, (xs n).Ordinary)
    (hstate : s.tm.regs.currentState = .idleState) (hreq : s.tm.regs.tm2schRequest = false)
    (hreset : s.tm.schedulerReset = false) (hq : s.sch.Quiescent) (n : ℕ)
    (hw : (System.after xs n s).tm.regs.currentState.waiting = false) :
    let a := Managed.clocks ⟨s.tm, s.sch.tables, s.sch.sch2tmData⟩ (s.worked xs n)
    a.tm.regs = (System.after xs n s).tm.regs ∧
      a.tm.threadTable = (System.after xs n s).tm.threadTable ∧
      a.ready = (System.after xs n s).sch.tables := by
  obtain ⟨j, -, hmirrors⟩ := run_mirrors hxs hstate hreq hreset hq n
  obtain ⟨hregs, hready, -⟩ := hmirrors.level hw
  exact ⟨hregs, hmirrors.table, hready⟩

end Runs

end Hthreads.Cores
