import Hthreads.Scheduler.Reset

/-! Runs of commands from a soft reset, what they preserve, and what a SET_SCHEDPARAM leaves that
the validity check refuses. -/

namespace Hthreads.Scheduler

-- a guard on a command, read in the state the command is issued in
abbrev Guard := Environment → Command → Tables → Prop

namespace Core

def Allowed (guard : Guard) : List (Environment × Command) → Core → Prop
  | [], _ => True
  | (e, cmd) :: cmds, c => guard e cmd c.tables ∧ Allowed guard cmds (c.execute e cmd)

inductive Reachable (guard : Guard) : Core → Prop
  | reset (e : Environment) {c : Core} : c.regs.insideReset = false →
    Reachable guard (c.softReset e)
  | step {e : Environment} {cmd : Command} {c : Core} :
    Reachable guard c → guard e cmd c.tables → Reachable guard (c.execute e cmd)

end Core

namespace Tables

def run : List (Environment × Command) → Tables → Tables
  | [], T => T
  | (e, cmd) :: cmds, T => run cmds (cmd.effect e T)

def Allowed (guard : Guard) : List (Environment × Command) → Tables → Prop
  | [], _ => True
  | (e, cmd) :: cmds, T => guard e cmd T ∧ Allowed guard cmds (cmd.effect e T)

instance Allowed.decidable (guard : Guard) [∀ e cmd T, Decidable (guard e cmd T)] :
    ∀ cmds T, Decidable (Allowed guard cmds T)
  | [], _ => inferInstanceAs (Decidable True)
  | (e, cmd) :: cmds, T =>
    have := Allowed.decidable guard cmds (cmd.effect e T)
    inferInstanceAs (Decidable (_ ∧ _))

end Tables

variable {guard : Guard} {c : Core}

lemma run_tables (hc : c.Quiescent) (cmds : List (Environment × Command)) :
    (c.run cmds).Quiescent ∧ (c.run cmds).tables = c.tables.run cmds := by
  induction cmds generalizing c with
  | nil => exact ⟨hc, rfl⟩
  | cons x cmds ih =>
    have hexec := execute_spec hc x.1 x.2
    have hrun := ih hexec.toQuiescent
    rw [hexec.tables] at hrun
    exact hrun

lemma allowed_iff_tables (hc : c.Quiescent) (cmds : List (Environment × Command)) :
    c.Allowed guard cmds ↔ c.tables.Allowed guard cmds := by
  induction cmds generalizing c with
  | nil => exact Iff.rfl
  | cons x cmds ih =>
    have hexec := execute_spec hc x.1 x.2
    have hrest := ih hexec.toQuiescent
    rw [hexec.tables] at hrest
    exact and_congr_right fun _ => hrest

/-- A value that is updated along a run, each time from the tables the command meets. -/
def Core.follow {σ : Type*} (step : Environment → Command → Tables → σ → σ) :
    List (Environment × Command) → Core → σ → σ
  | [], _, s => s
  | (e, cmd) :: cmds, c, s => follow step cmds (c.execute e cmd) (step e cmd c.tables s)

def Tables.follow {σ : Type*} (step : Environment → Command → Tables → σ → σ) :
    List (Environment × Command) → Tables → σ → σ
  | [], _, s => s
  | (e, cmd) :: cmds, T, s => follow step cmds (cmd.effect e T) (step e cmd T s)

lemma follow_tables {σ : Type*} (step : Environment → Command → Tables → σ → σ)
    (hc : c.Quiescent) (cmds : List (Environment × Command)) (s : σ) :
    c.follow step cmds s = c.tables.follow step cmds s := by
  induction cmds generalizing c s with
  | nil => rfl
  | cons x cmds ih =>
    have hexec := execute_spec hc x.1 x.2
    have hrest := ih hexec.toQuiescent (step x.1 x.2 c.tables s)
    rw [hexec.tables] at hrest
    exact hrest

lemma follow_eq_foldl {σ : Type*} (step : Command → σ → σ) (cmds : List (Environment × Command))
    (c : Core) (s : σ) :
    c.follow (fun _ cmd _ s => step cmd s) cmds s = cmds.foldl (fun s x => step x.2 s) s := by
  induction cmds generalizing c s with
  | nil => rfl
  | cons x cmds ih => exact ih _ _

lemma run_simulates {σ : Type*} {R : Tables → σ → Prop}
    {step : Environment → Command → Tables → σ → σ}
    (hstep : ∀ e cmd T s, R T s → guard e cmd T → R (cmd.effect e T) (step e cmd T s))
    (hc : c.Quiescent) {s : σ} (hs : R c.tables s) {cmds : List (Environment × Command)}
    (hcmds : c.Allowed guard cmds) :
    (c.run cmds).Quiescent ∧ R (c.run cmds).tables (c.follow step cmds s) := by
  induction cmds generalizing c s with
  | nil => exact ⟨hc, hs⟩
  | cons x cmds ih =>
    obtain ⟨e, cmd⟩ := x
    obtain ⟨hguard, hcmds⟩ := hcmds
    have hexec := execute_spec hc e cmd
    refine ih hexec.toQuiescent ?_ hcmds
    rw [hexec.tables]
    exact hstep e cmd c.tables s hs hguard

lemma reachable_invariant {P : Tables → Prop} (hinit : P .initial)
    (hstep : ∀ e cmd T, P T → guard e cmd T → P (cmd.effect e T)) (hc : c.Reachable guard) :
    c.Quiescent ∧ P c.tables := by
  induction hc with
  | reset e h =>
    have hreset := softReset_spec e h
    exact ⟨hreset.toQuiescent, hreset.tables ▸ hinit⟩
  | @step e cmd c _ hguard ih =>
    have hexec := execute_spec ih.1 e cmd
    refine ⟨hexec.toQuiescent, ?_⟩
    rw [hexec.tables]
    exact hstep e cmd c.tables ih.2 hguard

lemma Core.Reachable.run (hc : c.Reachable guard) {cmds : List (Environment × Command)}
    (hcmds : c.Allowed guard cmds) : (c.run cmds).Reachable guard := by
  induction cmds generalizing c with
  | nil => exact hc
  | cons x cmds ih => exact ih (.step hc hcmds.1) hcmds.2

-- every command at any time; only unqueued threads are enqueued, and the announced one is dequeued
def announceGuard : Guard := fun e cmd T =>
  match cmd with
  | .enqueue tid => T.queued tid = false
  | .dequeue => e.currentCpuTid = T.nextThreadId
  | _ => True

instance announceGuard.decidable (e : Environment) (cmd : Command) (T : Tables) :
    Decidable (announceGuard e cmd T) :=
  match cmd with
  | .enqueue tid => inferInstanceAs (Decidable (T.queued tid = false))
  | .dequeue => inferInstanceAs (Decidable (e.currentCpuTid = T.nextThreadId))
  | .isQueued _ | .isEmpty | .setSchedParam _ _ | .setIdleThread _ | .getSchedParam _
  | .checkSchedParam _ | .getEntry _ => inferInstanceAs (Decidable True)

def threeQueued : List (Environment × Command) :=
  let e : Environment := ⟨2, fun _ => 0x20⟩
  [(e, .enqueue 1), (e, .enqueue 2), (e, .enqueue 3)]

lemma threeQueued_state (e : Environment) :
    ((Core.powerUp.softReset e).run threeQueued).Quiescent ∧
      ((Core.powerUp.softReset e).run threeQueued).tables = Tables.initial.run threeQueued := by
  have hreset := softReset_spec e (c := Core.powerUp) rfl
  rw [← hreset.tables]
  exact run_tables hreset.toQuiescent threeQueued

-- nothing the command could touch has changed, and later commands cannot tell the difference
structure NoEffect (c c' : Core) : Prop where
  thread : c'.tables.thread = c.tables.thread
  priority : c'.tables.priority = c.tables.priority
  param : c'.tables.param = c.tables.param
  encoderInput : c'.tables.encoderInput = c.tables.encoderInput
  nextThreadId : c'.tables.nextThreadId = c.tables.nextThreadId
  nextThreadValid : c'.tables.nextThreadValid = c.tables.nextThreadValid
  enqueue : ∀ e tid, (c'.execute e (.enqueue tid)).tables = (c.execute e (.enqueue tid)).tables
  getSchedParam : ∀ e tid, (c'.hold e (.getSchedParam tid)).ip2busData =
    (c.hold e (.getSchedParam tid)).ip2busData

variable {c' : Core}

lemma noEffect_of_tables (hc : c.Quiescent) (hc' : c'.Quiescent) (h : c'.tables = c.tables) :
    NoEffect c c' := by
  refine ⟨by rw [h], by rw [h], by rw [h], by rw [h], by rw [h], by rw [h], fun e tid => ?_,
    fun e tid => ?_⟩
  · rw [(execute_spec hc' e _).tables, (execute_spec hc e _).tables, h]
  · rw [(execute_getSchedParam e hc' tid).2, (execute_getSchedParam e hc tid).2, h]

lemma setSchedParam_refused_tables {T : Tables} {entry param : Word} {cpu tid : ThreadId}
    (h : schedParamAllowed entry tid cpu = false) :
    T.setSchedParam entry cpu tid param =
      { T with param := Function.update T.param tid param } := by
  simp only [Tables.setSchedParam, h, Bool.and_false, Bool.false_eq_true, if_false]

theorem refused_no_effect_iff (c : Core) (hc : c.Quiescent) (e : Environment) (tid : ThreadId)
    (param : Word) (hrefused : schedParamAllowed (e.swtm tid) tid e.currentCpuTid = false) :
    NoEffect c (c.execute e (.setSchedParam tid param)) ↔ c.tables.param tid = param := by
  have hexec := execute_spec hc e (.setSchedParam tid param)
  rw [Command.effect, setSchedParam_refused_tables hrefused] at hexec
  constructor
  · intro h
    have hparam := congrFun h.param tid
    rw [hexec.tables] at hparam
    exact hparam.symm.trans (Function.update_self tid param c.tables.param)
  · rintro rfl
    rw [Function.update_eq_self] at hexec
    exact noEffect_of_tables hc hexec.toQuiescent hexec.tables

theorem refused_no_effect_rewrite :
    NoEffect (Core.powerUp.softReset ⟨0, fun _ => 0⟩)
      ((Core.powerUp.softReset ⟨0, fun _ => 0⟩).execute ⟨7, fun _ => 0⟩ (.setSchedParam 3 0)) := by
  have hreset := softReset_spec ⟨0, fun _ => 0⟩ (c := Core.powerUp) rfl
  refine (refused_no_effect_iff _ hreset.toQuiescent ⟨7, fun _ => 0⟩ 3 0 (by decide)).mpr ?_
  rw [hreset.tables]
  rfl

theorem refused_parameter_stored :
    ¬ ∀ c : Core, c.Reachable announceGuard → ∀ (e : Environment) (tid : ThreadId) (param : Word),
      schedParamAllowed (e.swtm tid) tid e.currentCpuTid = false →
      NoEffect c (c.execute e (.setSchedParam tid param)) := by
  intro hclaim
  have hreset := softReset_spec ⟨0, fun _ => 0⟩ (c := Core.powerUp) rfl
  have h := hclaim _ (.reset ⟨0, fun _ => 0⟩ (c := Core.powerUp) rfl) ⟨7, fun _ => 0⟩
    3 5 (by decide)
  have hparam := congrFun h.param 3
  rw [(execute_spec hreset.toQuiescent _ _).tables, hreset.tables] at hparam
  revert hparam
  decide

end Hthreads.Scheduler
