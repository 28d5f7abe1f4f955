import Hthreads.Scheduler.Reset

/-! The priority encoder beside the master state machine, one clock edge after the other. -/

namespace Hthreads.Scheduler

open Library

/-- The cores that any lines at all lead to from power up. -/
inductive Core.Attained : Core → Prop
  | powerUp : Attained Core.powerUp
  | clock (l : Lines) {c : Core} : Attained c → Attained (c.clock l)

def Fresh (input : Priority → Bool) (best : Priority) : Prop :=
  (∃ p, input p = true) → firstSet input = some best

inductive SearchPhase
  | settled
  | stale
  | requested
  | narrowed
  | encoded
  | cleared
  deriving DecidableEq

namespace SearchPhase

def after : SearchPhase → SearchPhase
  | .requested => .narrowed
  | .narrowed => .encoded
  | .encoded => .settled
  | .cleared => .settled
  | .settled => .settled
  | .stale => .stale

def rests (p : SearchPhase) : Bool := p = .settled || p = .stale

def Holds (enable : Bool) (input : Priority → Bool) (e : Encoder) : SearchPhase → Prop
  | .settled => enable = false ∧ e.findCurrent = .narrowSearch ∧ Fresh input e.best
  | .stale => enable = false ∧ e.findCurrent = .narrowSearch
  | .requested => enable = true ∧ e.findCurrent = .narrowSearch
  | .narrowed => e.findCurrent = .priorEncode ∧ e.narrow = Encoder.narrowNext input
  | .encoded => e.findCurrent = .priorRead ∧ e.narrow = Encoder.narrowNext input ∧
      ∃ priIn, e.priIn = Encoder.priInNext input (Encoder.narrowNext input) priIn
  | .cleared => ∀ p, input p = false

end SearchPhase

def searchPhase : MasterState → SearchPhase
  | .reset .reset => .cleared
  | .enq .initHeadPointer => .requested
  | .enq .initTailPointer => .narrowed
  | .enq .waitForEncoder0 => .encoded
  | .deq .waitForEncoder0 => .requested
  | .deq .waitForEncoder1 => .narrowed
  | .deq .waitForEncoder2 => .encoded
  -- the bits change here before anything enables the encoder
  | .setSchedParam .beginAddToNewPriQueue => .stale
  | .setSchedParam .initTailPtr => .stale
  | .setSchedParam .lookupEnqOldTailPtrIdle => .stale
  | .setSchedParam .updateEnqueueInfo => .stale
  | .setSchedParam .writeBackEntries => .requested
  | .setSchedParam .waitForEncoder0 => .narrowed
  | .setSchedParam .waitForEncoder1 => .encoded
  | _ => .settled

def Core.InPhase (c : Core) : Prop :=
  (searchPhase c.regs.currentStateMaster).Holds c.regs.encoderEnable c.regs.encoderInput c.encoder

/-- What the master state machine can do to the encoder in one cycle. -/
inductive Paces (r : Registers) (d : Drive) : Prop
  | waits : d.encoderReset = false → d.next.encoderEnable = false →
    d.next.encoderInput = r.encoderInput → r.currentStateMaster ≠ .reset .reset →
    searchPhase d.next.currentStateMaster = (searchPhase r.currentStateMaster).after → Paces r d
  | touches : d.encoderReset = false → d.next.encoderEnable = false →
    (searchPhase r.currentStateMaster).rests = true →
    searchPhase d.next.currentStateMaster = .stale → Paces r d
  | asks : d.encoderReset = false → d.next.encoderEnable = true →
    (searchPhase r.currentStateMaster).rests = true →
    searchPhase d.next.currentStateMaster = .requested → Paces r d
  | clears : d.encoderReset = true → d.next.encoderEnable = false →
    d.next.encoderInput = r.encoderInput → r.currentStateMaster = .reset .reset →
    searchPhase d.next.currentStateMaster = .settled → Paces r d

lemma Paces.stays {r : Registers} {d : Drive} {s : MasterState} (hs : r.currentStateMaster = s)
    (hreset : d.encoderReset = false) (henable : d.next.encoderEnable = false)
    (hinput : d.next.encoderInput = r.encoderInput) (hne : s ≠ .reset .reset)
    (hnext : searchPhase d.next.currentStateMaster = (searchPhase s).after) : Paces r d := by
  rw [← hs] at hne hnext
  exact .waits hreset henable hinput hne hnext

section Drives

variable {x : Signals} {r : Registers} (hr : r.encoderEnable = false)

include hr

lemma paces_enqLogic {s : EnqState} (hs : r.currentStateMaster = .enq s) :
    Paces r (enqLogic x r s) := by
  cases s
  case lookupEnqueuePriEntryFinished =>
    simp only [enqLogic]
    split
    · exact Paces.asks rfl rfl (by rw [hs]; rfl) rfl
    · exact Paces.stays hs rfl hr rfl (by simp) rfl
  all_goals
    simp only [enqLogic, startHwThread]
    try split
  all_goals
    exact Paces.stays hs rfl hr rfl (by simp) rfl

lemma paces_deqLogic {s : DeqState} (hs : r.currentStateMaster = .deq s) :
    Paces r (deqLogic x r s) := by
  cases s
  case lookupDeqPriEntryFinished =>
    simp only [deqLogic]
    split
    · exact Paces.asks rfl rfl (by rw [hs]; rfl) rfl
    · exact Paces.stays hs rfl hr rfl (by simp) rfl
  all_goals
    simp only [deqLogic]
    try split
  all_goals
    exact Paces.stays hs rfl hr rfl (by simp) rfl

lemma paces_setSchedParamLogic {s : SetSchedParamState}
    (hs : r.currentStateMaster = .setSchedParam s) : Paces r (setSchedParamLogic x r s) := by
  cases s
  case initTailPtr | updateEnqueueInfo =>
    exact Paces.asks rfl rfl (by rw [hs]; rfl) rfl
  case lookupPrevPtrFinished | writeBackDeqPriEntry =>
    exact Paces.touches rfl hr (by rw [hs]; rfl) rfl
  case beginAddToNewPriQueue =>
    simp only [setSchedParamLogic]
    split
    · exact Paces.touches rfl hr (by rw [hs]; rfl) rfl
    · exact Paces.touches rfl hr (by rw [hs]; rfl) rfl
  case priorityFieldCheck =>
    simp only [setSchedParamLogic]
    split_ifs
    · exact Paces.touches rfl hr (by rw [hs]; rfl) rfl
    all_goals
      exact Paces.stays hs rfl hr rfl (by simp) rfl
  case begin =>
    refine Paces.stays hs rfl hr rfl (by simp) ?_
    simp only [setSchedParamLogic]
    split <;> rfl
  all_goals
    simp only [setSchedParamLogic, answer]
    try split_ifs
  all_goals
    exact Paces.stays hs rfl hr rfl (by simp) rfl

lemma paces_lookups {s : LookupState} :
    (r.currentStateMaster = .isQueued s → Paces r (isQueuedLogic x r s)) ∧
      (r.currentStateMaster = .getSchedParam s → Paces r (getSchedParamLogic x r s)) ∧
      (r.currentStateMaster = .checkSchedParam s → Paces r (checkSchedParamLogic x r s)) ∧
      (r.currentStateMaster = .getEntry s → Paces r (getEntryLogic x r s)) := by
  refine ⟨fun hs => ?_, fun hs => ?_, fun hs => ?_, fun hs => ?_⟩
  all_goals
    cases s
  all_goals
    exact Paces.stays hs rfl hr rfl (by simp) rfl

lemma paces_isEmptyLogic {s : IsEmptyState} (hs : r.currentStateMaster = .isEmpty s) :
    Paces r (isEmptyLogic x r s) := by
  cases s
  all_goals
    exact Paces.stays hs rfl hr rfl (by simp) rfl

lemma paces_setIdleThreadLogic {s : SetIdleThreadState}
    (hs : r.currentStateMaster = .setIdleThread s) : Paces r (setIdleThreadLogic x r s) := by
  cases s
  all_goals
    simp only [setIdleThreadLogic, answer]
    try split
  all_goals
    exact Paces.stays hs rfl hr rfl (by simp) rfl

lemma paces_mallocLockLogic {s : MallocLockState} (hs : r.currentStateMaster = .mallocLock s) :
    Paces r (mallocLockLogic x r s) := by
  cases s
  case idleFinished =>
    refine Paces.stays hs rfl hr rfl (by simp) ?_
    simp only [mallocLockLogic]
    split <;> rfl
  all_goals
    simp only [mallocLockLogic, answer]
    try split_ifs
  all_goals
    exact Paces.stays hs rfl hr rfl (by simp) rfl

lemma paces_resetLogic {s : ResetState} (hs : r.currentStateMaster = .reset s) :
    Paces r (resetLogic x r s) := by
  cases s with
  | reset => exact Paces.clears rfl hr rfl hs rfl
  | resetBram =>
    refine Paces.stays hs rfl hr rfl (by simp) ?_
    simp only [resetLogic]
    split <;> rfl
  | resetWait4Ack =>
    simp only [resetLogic]
    split
    · exact Paces.stays hs rfl hr rfl (by simp) (congrArg searchPhase hs)
    · exact Paces.stays hs rfl hr rfl (by simp) rfl

lemma paces_idleLogic (hs : r.currentStateMaster = .idle) : Paces r (idleLogic x r) := by
  rw [idleLogic]
  split
  all_goals
    exact Paces.stays hs rfl hr rfl (by simp) rfl

end Drives

lemma paces_masterLogic (x : Signals) (regs : Registers) :
    Paces { regs with encoderEnable := false } (masterLogic x regs) := by
  unfold masterLogic
  extract_lets r
  have hr : r.encoderEnable = false := rfl
  have hstate : r.currentStateMaster = regs.currentStateMaster := rfl
  change Paces r _
  clear_value r
  split
  case h_1 hs => exact paces_idleLogic hr (hstate.trans hs)
  case h_2 hs =>
    have hs' := hstate.trans hs
    split
    · exact Paces.stays hs' rfl hr rfl (by simp) rfl
    · exact Paces.stays hs' rfl hr rfl (by simp) (congrArg searchPhase hs')
  case h_3 hs => exact paces_resetLogic hr (hstate.trans hs)
  case h_4 hs => exact Paces.stays (hstate.trans hs) rfl hr rfl (by simp) rfl
  case h_5 hs => exact paces_setSchedParamLogic hr (hstate.trans hs)
  case h_6 hs => exact (paces_lookups hr).2.1 (hstate.trans hs)
  case h_7 hs => exact (paces_lookups hr).2.2.1 (hstate.trans hs)
  case h_8 hs => exact paces_enqLogic hr (hstate.trans hs)
  case h_9 hs => exact paces_deqLogic hr (hstate.trans hs)
  case h_10 hs => exact paces_mallocLockLogic hr (hstate.trans hs)
  case h_11 hs => exact (paces_lookups hr).2.2.2 (hstate.trans hs)
  case h_12 hs => exact (paces_lookups hr).1 (hstate.trans hs)
  case h_13 hs => exact paces_isEmptyLogic hr (hstate.trans hs)
  case h_14 hs => exact paces_setIdleThreadLogic hr (hstate.trans hs)

namespace SearchPhase

variable {enable : Bool} {input : Priority → Bool} {e : Encoder} {p : SearchPhase}

lemma Holds.rests (h : p.Holds enable input e) (hp : p.rests = true) :
    enable = false ∧ e.findCurrent = .narrowSearch := by
  cases p with
  | settled => exact ⟨h.1, h.2.1⟩
  | stale => exact h
  | requested => exact Bool.noConfusion hp
  | narrowed => exact Bool.noConfusion hp
  | encoded => exact Bool.noConfusion hp
  | cleared => exact Bool.noConfusion hp

lemma clock_of_rests (h : p.Holds enable input e) (hp : p.rests = true) :
    e.clock false enable input = e := by
  obtain ⟨henable, hfind⟩ := h.rests hp
  simp only [Encoder.clock, hfind, henable, Bool.false_eq_true, if_false]

lemma Holds.clock (h : p.Holds enable input e) (hp : p ≠ .cleared) :
    p.after.Holds false input (e.clock false enable input) := by
  cases p with
  | settled =>
    rw [clock_of_rests h rfl]
    exact ⟨rfl, h.2⟩
  | stale =>
    rw [clock_of_rests h rfl]
    exact ⟨rfl, h.2⟩
  | requested =>
    obtain ⟨henable, hfind⟩ := h
    simp only [Encoder.clock, hfind, henable, Bool.false_eq_true, if_false, if_true]
    exact ⟨rfl, rfl⟩
  | narrowed =>
    obtain ⟨hfind, hnarrow⟩ := h
    simp only [Encoder.clock, hfind, Bool.false_eq_true, if_false]
    refine ⟨rfl, hnarrow, e.priIn, ?_⟩
    rw [hnarrow]
  | encoded =>
    obtain ⟨hfind, hnarrow, priIn, hpri⟩ := h
    simp only [Encoder.clock, hfind, Bool.false_eq_true, if_false]
    refine ⟨rfl, rfl, fun hset => ?_⟩
    rw [hnarrow, hpri, Encoder.bestNext_priInNext]
    exact Encoder.search_of_exists hset e.best
  | cleared => exact absurd rfl hp

end SearchPhase

lemma Core.InPhase.clock {c : Core} (h : c.InPhase) (l : Lines) : (c.clock l).InPhase := by
  by_cases hreset : (l.softReset && !c.regs.insideReset) = true
  · have hregs : (c.clock l).regs = .softReset := by
      simp only [Core.clock, hreset, if_true]
    rw [Core.InPhase, hregs]
    exact fun p => rfl
  · have hregs : (c.clock l).regs = (c.drive l).next := if_neg hreset
    have hencoder : (c.clock l).encoder =
        c.encoder.clock (c.drive l).encoderReset c.regs.encoderEnable c.regs.encoderInput := rfl
    rw [Core.InPhase] at h ⊢
    rw [hregs, hencoder]
    cases paces_masterLogic (c.signals l) c.regs with
    | waits hrst henable hinput hstate hphase =>
      have hne : searchPhase c.regs.currentStateMaster ≠ .cleared := by
        intro hc
        unfold searchPhase at hc
        split at hc <;> first | exact absurd ‹_› hstate | cases hc
      rw [Core.drive, hrst, henable, hinput, hphase]
      exact h.clock hne
    | touches hrst henable hrests hphase =>
      rw [Core.drive, hrst, henable, hphase, SearchPhase.clock_of_rests h hrests]
      exact ⟨rfl, (h.rests hrests).2⟩
    | asks hrst henable hrests hphase =>
      rw [Core.drive, hrst, henable, hphase, SearchPhase.clock_of_rests h hrests]
      exact ⟨rfl, (h.rests hrests).2⟩
    | clears hrst henable hinput hstate hphase =>
      have hclear : ∀ p, c.regs.encoderInput p = false := by
        rw [show c.regs.currentStateMaster = .reset .reset from hstate] at h
        exact h
      rw [Core.drive, hrst, henable, hinput, hphase]
      refine ⟨rfl, rfl, fun ⟨p, hp⟩ => ?_⟩
      rw [hclear p] at hp
      exact Bool.noConfusion hp

lemma Core.Attained.inPhase {c : Core} (h : c.Attained) : c.InPhase := by
  induction h with
  | powerUp =>
    refine ⟨rfl, rfl, fun ⟨p, hp⟩ => ?_⟩
    exact Bool.noConfusion hp
  | clock l _ ih => exact ih.clock l

def readsEncoder : MasterState → Bool
  | .enq .lookupHighestPriEntry | .enq .preemptionCheck => true
  | .deq .checkEncoderOutput => true
  | .setSchedParam .checkEncoder | .setSchedParam .preemptionCheck => true
  | _ => false

lemma searchPhase_of_readsEncoder {s : MasterState} (h : readsEncoder s = true) :
    searchPhase s = .settled := by
  unfold readsEncoder at h
  split at h
  all_goals
    first | rfl | exact Bool.noConfusion h

theorem encoder_fresh_where_read {c : Core} (hc : c.Attained)
    (hs : readsEncoder c.regs.currentStateMaster = true)
    (hset : ∃ p, c.regs.encoderInput p = true) (l : Lines) :
    c.regs.encoderInput (c.signals l).encoderOutput = true ∧
      ∀ p < (c.signals l).encoderOutput, c.regs.encoderInput p = false := by
  have hphase := hc.inPhase
  rw [Core.InPhase, searchPhase_of_readsEncoder hs] at hphase
  exact (firstSet_eq_some_iff _ _).mp (hphase.2.2 hset)

def firstEnqueueLines : Lines where
  softReset := false
  tm2schCurrentCpuTid := 0
  tm2schOpcode := enqueueOpcode
  tm2schData := 3
  tm2schRequest := true
  bus2ipAddr := 0
  bus2ipData := 0
  bus2ipRdCE := false
  bus2ipWrCE := false
  bus2ipReset := false
  bus2ipMstCmdAck := false
  bus2ipMstCmplt := false
  swtm _ := 0

lemma Core.Attained.iterate {c : Core} (h : c.Attained) (l : Lines) (n : ℕ) :
    ((Core.clock l)^[n] c).Attained := by
  induction n with
  | zero => exact h
  | succ n ih =>
    rw [Function.iterate_succ_apply']
    exact Attained.clock l ih

def midFirstEnqueue : Core := (Core.clock firstEnqueueLines)^[11] Core.powerUp

theorem encoder_fresh_in_first_enqueue :
    midFirstEnqueue.regs.currentStateMaster = .enq .lookupHighestPriEntry ∧
      midFirstEnqueue.regs.encoderInput midFirstEnqueue.encoder.best = true ∧
      ∀ p < midFirstEnqueue.encoder.best, midFirstEnqueue.regs.encoderInput p = false := by
  refine ⟨by decide, ?_⟩
  apply encoder_fresh_where_read (Core.Attained.powerUp.iterate firstEnqueueLines 11)
    (l := firstEnqueueLines)
  · decide
  · exact ⟨0, by decide⟩

end Hthreads.Scheduler
