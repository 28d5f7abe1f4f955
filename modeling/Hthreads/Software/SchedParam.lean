import Hthreads.Scheduler.Operations
import Hthreads.Scheduler.Runs

/-! The system call that changes a scheduling parameter (`_syscall_set_schedparam`): a write of
SET_SCHEDPARAM followed by a read of CHECK_SCHEDPARAM. -/

namespace Hthreads.Software

open Scheduler

abbrev Huint := BitVec 32
abbrev Hint := BitVec 32

def success : Hint := 0
def failure : Hint := -1
def errBit : Huint := 1

def hasError (status : Huint) : Bool := status &&& errBit != 0

-- the thread field that `sched_cmd` cuts out of the id
def schedTid (id : Huint) : ThreadId := id.setWidth 8

def checkSchedparam (e : Environment) (id : Huint) (c : Core) : Huint × Core :=
  let cmd := Command.checkSchedParam (schedTid id)
  let res := (c.hold e cmd).ip2busData
  (if hasError res then failure else success, c.execute e cmd)

/-- The processor may be in a different environment when it gets to the second access. -/
def setSchedparam (e e' : Environment) (id pr : Huint) (c : Core) : Hint × Core :=
  let written := c.execute e (.setSchedParam (schedTid id) pr)
  let (res, checked) := checkSchedparam e' id written
  (if hasError res then failure else success, checked)

def syscallSetSchedparam (e e' : Environment) (th pr : Huint) (c : Core) : Hint × Core :=
  setSchedparam e e' th pr c

-- success means that the priority is the one asked for, and that the caller may ask for it
structure ReportsTruly (e e' : Environment) (th pr : Huint) (c : Core) : Prop where
  effective : (syscallSetSchedparam e e' th pr c).1 = success →
    (syscallSetSchedparam e e' th pr c).2.tables.level (schedTid th) = paramPriority pr
  refused : schedParamAllowed (e.swtm (schedTid th)) (schedTid th) e.currentCpuTid = false →
    (syscallSetSchedparam e e' th pr c).1 ≠ success

variable {T : Tables} {tid : ThreadId} {p : Priority}

lemma move_level_self : (T.move tid p).level tid = p := by
  rw [Tables.move]
  exact (Tables.link_level (u := tid)).trans (by simp)

lemma setSchedParam_level {entry param : Word} {cpu : ThreadId} (hp : isSoftwareParam param = true)
    (ha : schedParamAllowed entry tid cpu = true) :
    (T.setSchedParam entry cpu tid param).level tid = paramPriority param := by
  cases hq : T.queued tid with
  | true =>
    rw [Tables.setSchedParam_of_queued hp ha hq]
    exact move_level_self
  | false =>
    rw [Tables.setSchedParam_of_unqueued hp ha hq]
    exact (congrFun Tables.setLevel_level tid).trans (Function.update_self tid _ _)

lemma move_param : (T.move tid p).param = T.param := by
  simp only [Tables.move, Tables.runEncoder, Tables.link, Tables.unlink]
  split_ifs <;> rfl

/-- The parameter of the thread is stored, accepted or not. -/
lemma setSchedParam_stored (entry param : Word) (cpu : ThreadId) :
    (T.setSchedParam entry cpu tid param).param = Function.update T.param tid param := by
  rw [Tables.setSchedParam]
  split
  · rw [Tables.refresh, Tables.reprioritize]
    split
    · exact move_param
    · rfl
  · rfl

lemma setSchedParam_param (entry param : Word) (cpu : ThreadId) :
    (T.setSchedParam entry cpu tid param).param tid = param := by
  rw [setSchedParam_stored, Function.update_self]

lemma syscall_success {c : Core} (hc : c.Quiescent) (e e' : Environment) (th pr : Huint)
    (hp : isSoftwareParam pr = true) : (syscallSetSchedparam e e' th pr c).1 = success := by
  have hwritten := execute_spec hc e (.setSchedParam (schedTid th) pr)
  have hanswer := (execute_checkSchedParam e' hwritten.toQuiescent (schedTid th)).2
  have hzero : (c.execute e (.setSchedParam (schedTid th) pr)).tables.checkSchedParam
      (schedTid th) = 0 := by
    rw [hwritten.tables, Tables.checkSchedParam, Command.effect, setSchedParam_param, hp]
    simp
  rw [hzero] at hanswer
  simp only [syscallSetSchedparam, setSchedparam, checkSchedparam, hanswer]
  decide

lemma syscall_tables {c : Core} (hc : c.Quiescent) (e e' : Environment) (th pr : Huint) :
    (syscallSetSchedparam e e' th pr c).2.tables =
      c.tables.setSchedParam (e.swtm (schedTid th)) e.currentCpuTid (schedTid th) pr := by
  have hwritten := execute_spec hc e (.setSchedParam (schedTid th) pr)
  exact (execute_spec hwritten.toQuiescent e' (.checkSchedParam (schedTid th))).tables.trans
    hwritten.tables

theorem syscall_reports_truly_iff (c : Core) (hc : c.Quiescent) (e e' : Environment)
    (th pr : Huint) (hp : isSoftwareParam pr = true) :
    ReportsTruly e e' th pr c ↔
      schedParamAllowed (e.swtm (schedTid th)) (schedTid th) e.currentCpuTid = true := by
  constructor
  · intro h
    by_contra hrefused
    rw [Bool.not_eq_true] at hrefused
    exact h.refused hrefused (syscall_success hc e e' th pr hp)
  · intro ha
    refine ⟨fun _ => ?_, fun hrefused => ?_⟩
    · rw [syscall_tables hc]
      exact setSchedParam_level hp ha
    · rw [ha] at hrefused
      exact Bool.noConfusion hrefused

theorem syscall_reports_truly_self :
    ReportsTruly ⟨3, fun _ => 0x20⟩ ⟨3, fun _ => 0x20⟩ 3 5
      (Core.powerUp.softReset ⟨0, fun _ => 0⟩) := by
  have hreset := softReset_spec ⟨0, fun _ => 0⟩ (c := Core.powerUp) rfl
  exact (syscall_reports_truly_iff _ hreset.toQuiescent _ _ 3 5 (by decide)).mpr (by decide)

theorem syscall_success_for_unused_thread :
    ¬ ∀ c : Core, c.Reachable announceGuard → ∀ (e e' : Environment) (th pr : Huint),
      isSoftwareParam pr = true → ReportsTruly e e' th pr c := by
  intro hclaim
  have hreset := softReset_spec ⟨0, fun _ => 0⟩ (c := Core.powerUp) rfl
  have h := hclaim _ (.reset ⟨0, fun _ => 0⟩ (c := Core.powerUp) rfl) ⟨7, fun _ => 0⟩
    ⟨7, fun _ => 0⟩
    3 5 (by decide)
  exact h.refused (by decide) (syscall_success hreset.toQuiescent _ _ 3 5 (by decide))

end Hthreads.Software
