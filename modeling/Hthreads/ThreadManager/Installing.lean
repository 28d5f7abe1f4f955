import Hthreads.ThreadManager.Asking

/-! Which thread is current while a DEQUEUE is on its way: the one that was announced when it
was installed. -/

namespace Hthreads.ThreadManager

open Library Library.BitFields Scheduler

/-- The current thread is installed and its DEQUEUE is not served yet. -/
def SwtmState.installed : SwtmState → Bool
  | waitAck .dequeue | yieldThread .dequeue => true
  | _ => false

inductive Installs (x : Signals) (r n : Registers) : Prop
  | other : n.currentState.installed = false → Installs x r n
  | announced : n.cpuThreadId = x.sch.nextId → Installs x r n
  | kept : r.currentState.installed = true → n.cpuThreadId = r.cpuThreadId → Installs x r n

variable {x : Signals} {r : Registers}

lemma Installs.ite {p : Prop} [Decidable p] {d d' : Drive} (h : Installs x r d.next)
    (h' : Installs x r d'.next) : Installs x r (if p then d else d').next := by
  split
  · exact h
  · exact h'

lemma cpuThreadId_install (r : Registers) (tid : ThreadId) :
    ({ r with currentCpuThread := tid ++ 0#1 } : Registers).cpuThreadId = tid := by
  apply BitVec.eq_of_getLsbD_eq
  intro i hi
  simp only [Registers.cpuThreadId, getLsbD_slice, BitVec.getLsbD_append, hi]
  grind

lemma idleLogic_installs (hs : r.currentState = .idleState) :
    Installs x r (idleLogic x r).next := by
  have hidle : Installs x r { r with busDataOut := 0 } := .other (hs ▸ rfl)
  rw [idleLogic, writeLogic, readLogic]
  repeat' apply Installs.ite
  all_goals first | exact .other rfl | exact hidle

lemma softResetLogic_installs {s : SoftResetState} (hs : r.currentState = .softReset s) :
    Installs x r (softResetLogic x r s).next := by
  have hkeep : Installs x r r := .other (hs ▸ rfl)
  cases s
  all_goals
    simp only [softResetLogic]
    split_ifs
  all_goals first | exact .other rfl | exact hkeep

lemma tableLogic_installs (c : CreateThreadState) (d : ClearThreadState) (s : EntryState) :
    Installs x r (createThreadLogic x r c).next ∧ Installs x r (clearThreadLogic x r d).next ∧
      Installs x r (joinThreadLogic x r s).next := by
  refine ⟨?_, ?_, ?_⟩
  · cases c
    case init =>
      simp only [createThreadLogic]
      split <;> exact .other rfl
    all_goals exact .other rfl
  · cases d
    case entryAvailable =>
      simp only [clearThreadLogic]
      split <;> exact .other rfl
    case deallocateId =>
      simp only [clearThreadLogic]
      split <;> exact .other rfl
    all_goals exact .other rfl
  · cases s
    case available =>
      simp only [joinThreadLogic]
      split_ifs <;> exact .other rfl
    all_goals exact .other rfl

lemma dispatched_installs : Installs x r (dispatched x r).next := by
  rw [dispatched]
  exact .ite (.other rfl) (.other rfl)

lemma nextThreadLogic_installs {s : NextThreadState} (hs : r.currentState = .nextThread s) :
    Installs x r (nextThreadLogic x r s).next := by
  cases s with
  | init => exact .ite (.other rfl) (.other rfl)
  | wait4Scheduler => exact .ite (.other rfl) (.ite (.other rfl) (.other (hs ▸ rfl)))
  | rdWait => exact .other rfl
  | available => exact .ite (.announced (cpuThreadId_install r _)) (.other rfl)
  | checkDequeue => exact dispatched_installs

lemma addThreadLogic_installs (s : AddThreadState) :
    Installs x r (addThreadLogic x r s).next := by
  cases s with
  | entryAvailable => exact .ite (.other rfl) (.other rfl)
  | checkIsQueue => exact .ite (.other rfl) (.other rfl)
  | checkEnqueue => exact .ite (.other rfl) (.other rfl)
  | init | entryRdWait | isQueuedWait | enqueueWait => exact .other rfl

lemma yieldThreadLogic_installs {s : YieldThreadState} (hs : r.currentState = .yieldThread s) :
    Installs x r (yieldThreadLogic x r s).next := by
  cases s with
  | currentThreadAvailable => exact .ite (.other rfl) (.other rfl)
  | checkQueueEmpty => exact .ite (.other rfl) (.other rfl)
  | checkEnqueue => exact .ite (.announced (cpuThreadId_install r _)) (.other rfl)
  | dequeue => exact .kept (hs ▸ rfl) rfl
  | checkDequeue => exact dispatched_installs
  | init | currentThreadRdWait | enqueue => exact .other rfl

lemma exitThreadLogic_installs (s : ExitThreadState) :
    Installs x r (exitThreadLogic x r s).next := by
  cases s
  case available =>
    simp only [exitThreadLogic]
    split_ifs <;> exact .other rfl
  case readParentAvailable => exact .ite (.other rfl) (.other rfl)
  case checkEnqueue => exact .ite (.other rfl) (.other rfl)
  all_goals exact .other rfl

lemma swtmLogic_installs (hw : r.currentState.waiting = false) :
    Installs x r (swtmLogic x r).next := by
  rw [swtmLogic]
  split
  next hs => exact idleLogic_installs hs
  next s hs => exact softResetLogic_installs hs
  next s _ => cases s <;> exact .other rfl
  next s _ => exact (tableLogic_installs s .init .init).1
  next s _ => exact (tableLogic_installs .init s .init).2.1
  next s _ => exact (tableLogic_installs .init .init s).2.2
  next s _ => cases s <;> exact .other rfl
  next s _ => cases s <;> exact .other rfl
  next s hs => exact nextThreadLogic_installs hs
  next s _ => exact addThreadLogic_installs s
  next op hs =>
    rw [hs] at hw
    exact Bool.noConfusion hw
  next op hs =>
    rw [hs] at hw
    exact Bool.noConfusion hw
  next s hs => exact yieldThreadLogic_installs hs
  next s _ => exact exitThreadLogic_installs s
  next => exact .other rfl
  next => exact .other rfl
  next hs => exact .ite (.other rfl) (.other (hs ▸ rfl))

end Hthreads.ThreadManager
