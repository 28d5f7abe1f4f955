import Hthreads.Scheduler.Runs

/-! Requests of the thread manager and of the bus that meet in the idle state. -/

namespace Hthreads.Scheduler

open Library

-- the thread manager holds its request until it sees busy, the bus until it is acknowledged
structure Holding (c : Core) (l l' : Lines) : Prop where
  tm : l.tm2schRequest = true → c.busy = false →
    l'.tm2schRequest = true ∧ l'.tm2schOpcode = l.tm2schOpcode ∧ l'.tm2schData = l.tm2schData
  bus : (l.bus2ipRdCE || l.bus2ipWrCE) = true → c.acknowledged = false →
    l'.bus2ipRdCE = l.bus2ipRdCE ∧ l'.bus2ipWrCE = l.bus2ipWrCE ∧
      l'.bus2ipAddr = l.bus2ipAddr ∧ l'.bus2ipData = l.bus2ipData

/-- A state of the core together with the lines of the coming clock edge. -/
inductive Clocked : Core → Lines → Prop
  | start (e : Environment) {c : Core} {l : Lines} :
    c.regs.insideReset = false → l.softReset = false → Clocked (c.softReset e) l
  | step {c : Core} {l l' : Lines} :
    Clocked c l → Holding (c.clock l) l l' → l'.softReset = false → Clocked (c.clock l) l'

def Core.LeavesIdle (c : Core) (l : Lines) : Prop :=
  ∃ n, ((Core.clock l)^[n] c).inState .idle = false

def Requests.single (r : Requests) : Bool := r.tm.isSome != r.bus.isSome

def Requests.both (r : Requests) : Bool := r.tm.isSome && r.bus.isSome

def decode (l : Lines) : Requests := ⟨tmCmdProc l, busCmdProc l⟩

-- the states that serve the thread manager, past the first and a started hardware thread apart
def busyAllowed : MasterState → Bool
  | .enq .begin | .enq .startHwThreadBegin | .enq .startHwThreadFinished => false
  | .deq .begin | .isQueued .begin | .isEmpty .check => false
  | .enq _ | .deq _ | .isQueued _ | .isEmpty _ => true
  | _ => false

structure Orderly (c : Core) : Prop where
  insideReset : c.regs.insideReset = false
  busy : c.regs.schedBusy = true → busyAllowed c.regs.currentStateMaster = true
  ack : c.ip2busAck = true → c.regs.currentStateMaster = .waitTransDone

-- what one cycle of the combinational process does to the flags that the invariant mentions
structure OrderlyDrive (r : Registers) (d : Drive) : Prop where
  insideReset : d.next.insideReset = r.insideReset ∨ d.next.insideReset = false
  busy : d.next.schedBusy = true → busyAllowed d.next.currentStateMaster = true
  ack : d.busAckReady = true → d.next.currentStateMaster = .waitTransDone

variable {x : Signals} {r : Registers}

lemma orderly_enqLogic {s : EnqState}
    (hb : r.schedBusy = true → busyAllowed (.enq s) = true) :
    OrderlyDrive r (enqLogic x r s) := by
  cases s
  all_goals
    simp only [busyAllowed] at hb
    simp only [enqLogic, startHwThread]
    try split
  all_goals
    constructor <;> simp_all [busyAllowed]

lemma orderly_deqLogic (s : DeqState) : OrderlyDrive r (deqLogic x r s) := by
  cases s
  all_goals
    simp only [deqLogic]
    try split
  all_goals
    constructor <;> simp [busyAllowed]

lemma orderly_setSchedParamLogic (hb : r.schedBusy = false) (s : SetSchedParamState) :
    OrderlyDrive r (setSchedParamLogic x r s) := by
  cases s
  all_goals
    simp only [setSchedParamLogic, answer]
    try split_ifs
  all_goals
    constructor <;> simp [busyAllowed, hb]

lemma orderly_lookups (s : LookupState) :
    OrderlyDrive r (isQueuedLogic x r s) ∧ (r.schedBusy = false →
      OrderlyDrive r (getSchedParamLogic x r s) ∧ OrderlyDrive r (checkSchedParamLogic x r s) ∧
      OrderlyDrive r (getEntryLogic x r s)) := by
  cases s
  all_goals
    refine ⟨?_, fun hb => ⟨?_, ?_, ?_⟩⟩
  all_goals
    constructor <;> simp_all [isQueuedLogic, getSchedParamLogic, checkSchedParamLogic,
      getEntryLogic, answer, busyAllowed]

lemma orderly_isEmptyLogic (s : IsEmptyState) : OrderlyDrive r (isEmptyLogic x r s) := by
  cases s
  all_goals
    constructor <;> simp [isEmptyLogic, busyAllowed]

lemma orderly_setIdleThreadLogic (hb : r.schedBusy = false) (s : SetIdleThreadState) :
    OrderlyDrive r (setIdleThreadLogic x r s) := by
  cases s
  all_goals
    simp only [setIdleThreadLogic, answer]
    try split
  all_goals
    constructor <;> simp [hb]

lemma orderly_mallocLockLogic (hb : r.schedBusy = false) (s : MallocLockState) :
    OrderlyDrive r (mallocLockLogic x r s) := by
  cases s
  all_goals
    simp only [mallocLockLogic, answer]
    try split_ifs
  all_goals
    constructor <;> simp [hb]

lemma orderly_resetLogic (hb : r.schedBusy = false) (s : ResetState) :
    OrderlyDrive r (resetLogic x r s) := by
  cases s
  all_goals
    simp only [resetLogic]
    try split
  all_goals
    constructor <;> simp [hb]

lemma orderly_idleLogic (hb : r.schedBusy = false) : OrderlyDrive r (idleLogic x r) := by
  rw [idleLogic]
  split
  all_goals
    constructor <;> simp [answer, hb]

lemma orderly_masterLogic
    (hb : r.schedBusy = true → busyAllowed r.currentStateMaster = true) :
    OrderlyDrive r (masterLogic x r) := by
  suffices h : OrderlyDrive { r with encoderEnable := false } (masterLogic x r) from
    ⟨h.insideReset, h.busy, h.ack⟩
  unfold masterLogic
  extract_lets r'
  have hbusy : r'.schedBusy = r.schedBusy := rfl
  change OrderlyDrive r' _
  clear_value r'
  rw [← hbusy] at hb
  generalize r.currentStateMaster = s at hb ⊢
  have hidle (h : busyAllowed s = false) : r'.schedBusy = false := by
    rw [← Bool.not_eq_true]
    intro htrue
    rw [hb htrue] at h
    exact Bool.noConfusion h
  cases s with
  | idle => exact orderly_idleLogic (hidle rfl)
  | waitTransDone =>
    have hfalse := hidle rfl
    simp only
    split
    all_goals
      constructor <;> simp [hfalse]
  | getEncoderOutput =>
    have hfalse := hidle rfl
    constructor <;> simp [answer, hfalse]
  | reset s => exact orderly_resetLogic (hidle rfl) s
  | setSchedParam s => exact orderly_setSchedParamLogic (hidle rfl) s
  | getSchedParam s => exact ((orderly_lookups s).2 (hidle rfl)).1
  | checkSchedParam s => exact ((orderly_lookups s).2 (hidle rfl)).2.1
  | getEntry s => exact ((orderly_lookups s).2 (hidle rfl)).2.2
  | setIdleThread s => exact orderly_setIdleThreadLogic (hidle rfl) s
  | mallocLock s => exact orderly_mallocLockLogic (hidle rfl) s
  | enq s => exact orderly_enqLogic hb
  | deq s => exact orderly_deqLogic s
  | isQueued s => exact (orderly_lookups s).1
  | isEmpty s => exact orderly_isEmptyLogic s

lemma Orderly.clock {c : Core} {l : Lines} (h : Orderly c) (hs : l.softReset = false) :
    Orderly (c.clock l) := by
  have hd : OrderlyDrive c.regs (c.drive l) := orderly_masterLogic h.busy
  have hregs : (c.clock l).regs = (c.drive l).next := by
    simp only [Core.clock, hs, Bool.false_and, Bool.false_eq_true, if_false]
  refine ⟨?_, ?_, fun hack => ?_⟩
  · rw [hregs]
    rcases hd.insideReset with heq | heq
    · exact heq.trans h.insideReset
    · exact heq
  · rw [hregs]
    exact hd.busy
  · rw [hregs]
    exact hd.ack (Bool.and_eq_true_iff.mp hack).2

lemma Quiescent_orderly {c : Core} (h : c.Quiescent) : Orderly c := by
  refine ⟨h.insideReset, fun hb => ?_, fun ha => ?_⟩
  · rw [h.schedBusy] at hb
    exact Bool.noConfusion hb
  · rw [h.ack] at ha
    exact Bool.noConfusion ha

-- in idle both requesters still hold what has been registered
structure Registered (c : Core) (l : Lines) : Prop extends Orderly c where
  softReset : l.softReset = false
  held : c.regs.currentStateMaster = .idle → c.requests.both = true → decode l = c.requests

lemma tmCmdProc_congr {l l' : Lines} (h1 : l'.tm2schRequest = l.tm2schRequest)
    (h2 : l'.tm2schOpcode = l.tm2schOpcode) : tmCmdProc l' = tmCmdProc l := by
  simp only [tmCmdProc, h1, h2]

lemma busCmdProc_congr {l l' : Lines} (h1 : l'.bus2ipRdCE = l.bus2ipRdCE)
    (h2 : l'.bus2ipWrCE = l.bus2ipWrCE) (h3 : l'.bus2ipAddr = l.bus2ipAddr) :
    busCmdProc l' = busCmdProc l := by
  simp only [busCmdProc, h1, h2, h3]

lemma clocked_registered {c : Core} {l : Lines} (h : Clocked c l) : Registered c l := by
  induction h with
  | start e hreset hs =>
    have hexec := softReset_spec e hreset
    refine ⟨Quiescent_orderly hexec.toQuiescent, hs, fun _ hboth => ?_⟩
    rw [hexec.requests] at hboth
    exact Bool.noConfusion hboth
  | @step c l l' _ hhold hs ih =>
    have horderly := ih.toOrderly.clock ih.softReset
    refine ⟨horderly, hs, fun hidle hboth => ?_⟩
    have hbusy : (c.clock l).busy = false := by
      rw [← Bool.not_eq_true]
      intro hb
      have := horderly.busy hb
      rw [hidle] at this
      exact Bool.noConfusion this
    have hack : (c.clock l).acknowledged = false := by
      rw [← Bool.not_eq_true]
      intro ha
      have := horderly.ack ha
      rw [hidle] at this
      exact MasterState.noConfusion this
    have hreq : (c.clock l).requests = decode l := rfl
    rw [hreq] at hboth ⊢
    obtain ⟨htm, hbus⟩ := Bool.and_eq_true_iff.mp hboth
    have hrequest : l.tm2schRequest = true := by
      by_contra hno
      simp [decode, tmCmdProc, hno] at htm
    have hce : (l.bus2ipRdCE || l.bus2ipWrCE) = true := by
      by_contra hno
      simp only [Bool.or_eq_true, not_or, Bool.not_eq_true] at hno
      simp [decode, busCmdProc, hno.1, hno.2] at hbus
    obtain ⟨h1, h2, -⟩ := hhold.tm hrequest hbusy
    obtain ⟨h3, h4, h5, -⟩ := hhold.bus hce hack
    rw [decode, decode, tmCmdProc_congr (h1.trans hrequest.symm) h2, busCmdProc_congr h3 h4 h5]

lemma clock_idle_state {c : Core} {l : Lines} (hidle : c.regs.currentStateMaster = .idle)
    (hs : l.softReset = false) :
    (c.clock l).regs.currentStateMaster =
      (idleLogic (c.signals l) { c.regs with encoderEnable := false }).next.currentStateMaster := by
  simp only [Core.clock, Core.drive, masterLogic, hidle, hs, Bool.false_and, Bool.false_eq_true,
    if_false]

lemma idleLogic_single {x : Signals} {r : Registers} (h : x.requests.single = true) :
    (idleLogic x r).next.currentStateMaster ≠ .idle := by
  rcases hreq : x.requests with ⟨tm, bus⟩
  rw [hreq] at h
  cases tm with
  | none =>
    cases bus with
    | none => exact absurd h (by decide)
    | some b => cases b <;> simp [idleLogic, hreq, answer]
  | some t =>
    cases bus with
    | none => cases t <;> simp [idleLogic, hreq]
    | some b => exact absurd h (by simp [Requests.single])

lemma idleLogic_both {x : Signals} {r : Registers} (h : x.requests.both = true) :
    (idleLogic x r).next.currentStateMaster = .idle := by
  rcases hreq : x.requests with ⟨tm, bus⟩
  rw [hreq] at h
  cases tm with
  | none => exact absurd h (by simp [Requests.both])
  | some t =>
    cases bus with
    | none => exact absurd h (by simp [Requests.both])
    | some b => cases t <;> simp [idleLogic, hreq]

lemma both_stuck {c : Core} {l : Lines} (hs : l.softReset = false)
    (hidle : c.regs.currentStateMaster = .idle) (hboth : c.requests.both = true)
    (hheld : decode l = c.requests) (n : ℕ) :
    ((Core.clock l)^[n] c).regs.currentStateMaster = .idle := by
  induction n generalizing c with
  | zero => exact hidle
  | succ n ih =>
    rw [Function.iterate_succ_apply]
    have hreq : (c.clock l).requests = decode l := rfl
    refine ih ?_ ?_ hreq.symm
    · rw [clock_idle_state hidle hs]
      exact idleLogic_both hboth
    · rw [hreq, hheld]
      exact hboth

theorem request_served_iff (c : Core) (l : Lines) (h : Clocked c l)
    (hidle : c.regs.currentStateMaster = .idle)
    (hreq : c.requests.tm.isSome = true ∨ c.requests.bus.isSome = true) :
    c.LeavesIdle l ↔ ¬ (c.requests.tm.isSome = true ∧ c.requests.bus.isSome = true) := by
  have hreg := clocked_registered h
  constructor
  · rintro ⟨n, hn⟩ ⟨htm, hbus⟩
    have hboth : c.requests.both = true := Bool.and_eq_true_iff.mpr ⟨htm, hbus⟩
    have hstuck := both_stuck hreg.softReset hidle hboth (hreg.held hidle hboth) n
    rw [Core.inState, hstuck] at hn
    exact Bool.noConfusion hn
  · intro hnot
    have hsingle : c.requests.single = true := by
      cases htm : c.requests.tm.isSome <;> cases hbus : c.requests.bus.isSome <;>
        simp_all [Requests.single]
    refine ⟨1, ?_⟩
    rw [Function.iterate_one, Core.inState, clock_idle_state hidle hreg.softReset]
    simpa using idleLogic_single hsingle

lemma Holding.refl (c : Core) (l : Lines) : Holding c l l :=
  ⟨fun h _ => ⟨h, rfl, rfl⟩, fun _ _ => ⟨rfl, rfl, rfl, rfl⟩⟩

lemma clocked_first (e : Environment) {l : Lines} (hs : l.softReset = false) :
    Clocked ((Core.powerUp.softReset e).clock l) l ∧
      ((Core.powerUp.softReset e).clock l).regs.currentStateMaster = .idle ∧
      ((Core.powerUp.softReset e).clock l).requests = decode l := by
  have hexec := softReset_spec e (c := Core.powerUp) rfl
  refine ⟨.step (.start e rfl hs) (Holding.refl _ l) hs, ?_, rfl⟩
  rw [clock_idle_state hexec.state hs]
  simp [idleLogic, Core.signals, hexec.requests]

theorem enqueue_leaves_idle :
    ((Core.powerUp.softReset ⟨0, fun _ => 0⟩).clock
      (Environment.tmLines ⟨0, fun _ => 0⟩ enqueueOpcode 3)).LeavesIdle
      (Environment.tmLines ⟨0, fun _ => 0⟩ enqueueOpcode 3) := by
  obtain ⟨hclocked, hidle, hreq⟩ :=
    clocked_first ⟨0, fun _ => 0⟩ (l := Environment.tmLines ⟨0, fun _ => 0⟩ enqueueOpcode 3) rfl
  refine (request_served_iff _ _ hclocked hidle ?_).mpr ?_
  · rw [hreq]
    exact .inl rfl
  · rw [hreq]
    exact fun h => Bool.noConfusion h.2

theorem simultaneous_requests_not_served :
    ¬ ∀ (c : Core) (l : Lines), Clocked c l → c.regs.currentStateMaster = .idle →
      (c.requests.tm.isSome = true ∨ c.requests.bus.isSome = true) → c.LeavesIdle l := by
  intro hclaim
  let l : Lines :=
    { Environment.readLines ⟨0, fun _ => 0⟩ 0 cGetIdleThread with
      tm2schRequest := true
      tm2schOpcode := enqueueOpcode
      tm2schData := 3 }
  obtain ⟨hclocked, hidle, hreq⟩ := clocked_first ⟨0, fun _ => 0⟩ (l := l) rfl
  have hboth : (decode l).both = true := rfl
  rw [← hreq] at hboth
  obtain ⟨n, hn⟩ := hclaim _ l hclocked hidle (.inl (Bool.and_eq_true_iff.mp hboth).1)
  have hstuck := both_stuck rfl hidle hboth hreq.symm n
  rw [Core.inState, hstuck] at hn
  exact Bool.noConfusion hn

end Hthreads.Scheduler
