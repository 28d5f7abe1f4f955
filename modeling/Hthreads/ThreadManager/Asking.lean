import Hthreads.ThreadManager.Core

/-! What one cycle of the thread manager does to its request to the scheduler and to the resets, and
what it looks at. -/

namespace Hthreads.ThreadManager

open Library Library.BitFields Scheduler

namespace SwtmState

def waiting : SwtmState → Bool
  | waitAck _ | waitComplete _ => true
  | _ => false

/-- The request whose answer on `sch2tm_data` a state looks at. -/
def tests : SwtmState → Option TmRequest
  | isQueued .done | addThread .checkIsQueue => some .isQueued
  | addThread .checkEnqueue | yieldThread .checkEnqueue | exitThread .checkEnqueue => some .enqueue
  | nextThread .checkDequeue | yieldThread .checkDequeue => some .dequeue
  | yieldThread .checkQueueEmpty => some .isEmpty
  | _ => none

end SwtmState

-- after a cycle outside of the waiting states
inductive Outcome (n : Registers) : Prop
  | works : n.currentState.waiting = false → n.currentState.tests = none →
    n.tm2schRequest = false → Outcome n
  | asks (op : TmRequest) : n.currentState = .waitAck op → n.returnState.tests = some op →
    n.tm2schRequest = true → n.tm2schOpcode = opcode op → Outcome n

lemma Outcome.ite {p : Prop} [Decidable p] {d d' : Drive} (h : Outcome d.next)
    (h' : Outcome d'.next) : Outcome (if p then d else d').next := by
  split
  · exact h
  · exact h'

section Outcomes

variable {x : Signals} {r : Registers} (h : r.tm2schRequest = false)

include h

lemma writeLogic_outcome : Outcome (writeLogic x r).next := by
  rw [writeLogic]
  repeat' apply Outcome.ite
  all_goals exact .works rfl rfl h

lemma readLogic_outcome : Outcome (readLogic x r).next := by
  rw [readLogic]
  repeat' apply Outcome.ite
  all_goals exact .works rfl rfl h

lemma idleLogic_outcome (hs : r.currentState = .idleState) : Outcome (idleLogic x r).next := by
  have h' : ({ r with busDataOut := 0 } : Registers).tm2schRequest = false := h
  rw [idleLogic]
  refine .ite (writeLogic_outcome h') (.ite (readLogic_outcome h') (.works ?_ ?_ h'))
  all_goals
    simp only [hs]
    rfl

lemma softResetLogic_outcome {s : SoftResetState} (hs : r.currentState = .softReset s) :
    Outcome (softResetLogic x r s).next := by
  have hkeep : Outcome r := by
    refine .works ?_ ?_ h
    all_goals
      rw [hs]
      cases s <;> rfl
  cases s with
  | writeInit =>
    simp only [softResetLogic]
    split
    · exact .works rfl rfl rfl
    · exact .works rfl rfl h
  | initTable =>
    simp only [softResetLogic]
    split
    · exact .works rfl rfl h
    · exact hkeep
  | wait =>
    simp only [softResetLogic]
    split_ifs
    · exact .works rfl rfl h
    · exact .works rfl rfl h
    · exact hkeep

lemma createThreadLogic_outcome (s : CreateThreadState) :
    Outcome (createThreadLogic x r s).next := by
  cases s
  case init =>
    simp only [createThreadLogic]
    split
    all_goals exact .works rfl rfl h
  all_goals exact .works rfl rfl h

lemma clearThreadLogic_outcome (s : ClearThreadState) : Outcome (clearThreadLogic x r s).next := by
  cases s
  case entryAvailable =>
    simp only [clearThreadLogic]
    split
    all_goals exact .works rfl rfl h
  case deallocateId =>
    simp only [clearThreadLogic]
    split
    all_goals exact .works rfl rfl h
  all_goals exact .works rfl rfl h

lemma entryLogic_outcome (s : EntryState) :
    Outcome (readThreadLogic x r s).next ∧ Outcome (joinThreadLogic x r s).next ∧
      Outcome (isDetachedLogic x r s).next := by
  cases s
  case available =>
    refine ⟨.works rfl rfl h, ?_, .works rfl rfl h⟩
    simp only [joinThreadLogic]
    split_ifs
    all_goals exact .works rfl rfl h
  all_goals exact ⟨.works rfl rfl h, .works rfl rfl h, .works rfl rfl h⟩

lemma isQueuedLogic_outcome (s : IsQueuedState) : Outcome (isQueuedLogic x r s).next := by
  cases s with
  | init => exact .asks .isQueued rfl rfl rfl rfl
  | done => exact .works rfl rfl h

lemma dispatched_outcome : Outcome (dispatched x r).next := by
  simp only [dispatched]
  split
  all_goals exact .works rfl rfl h

lemma nextThreadLogic_outcome {s : NextThreadState} (hs : r.currentState = .nextThread s) :
    Outcome (nextThreadLogic x r s).next := by
  cases s with
  | init =>
    simp only [nextThreadLogic]
    split
    all_goals exact .works rfl rfl h
  | wait4Scheduler =>
    simp only [nextThreadLogic]
    split_ifs
    · exact .works rfl rfl h
    · exact .works rfl rfl h
    · refine .works ?_ ?_ h
      all_goals
        rw [hs]
        rfl
  | rdWait => exact .works rfl rfl h
  | available =>
    simp only [nextThreadLogic]
    split
    · exact .asks .dequeue rfl rfl rfl rfl
    · exact .works rfl rfl h
  | checkDequeue => exact dispatched_outcome h

lemma addThreadLogic_outcome (s : AddThreadState) : Outcome (addThreadLogic x r s).next := by
  cases s with
  | entryAvailable =>
    simp only [addThreadLogic]
    split
    · exact .asks .isQueued rfl rfl rfl rfl
    · exact .works rfl rfl h
  | checkIsQueue =>
    simp only [addThreadLogic]
    split
    · exact .asks .enqueue rfl rfl rfl rfl
    · exact .works rfl rfl h
  | checkEnqueue =>
    simp only [addThreadLogic]
    split
    all_goals exact .works rfl rfl h
  | init => exact .works rfl rfl h
  | entryRdWait => exact .works rfl rfl h
  | isQueuedWait => exact .works rfl rfl h
  | enqueueWait => exact .works rfl rfl h

lemma checkQueueEmpty_next :
    ((yieldThreadLogic x r .checkQueueEmpty).next.currentState = .yieldThread .enqueue ∨
      (yieldThreadLogic x r .checkQueueEmpty).next.currentState = .endTransaction) ∧
    (yieldThreadLogic x r .checkQueueEmpty).next.tm2schRequest = false := by
  simp only [yieldThreadLogic]
  split
  · exact ⟨.inr rfl, h⟩
  · exact ⟨.inl rfl, h⟩

lemma yieldThreadLogic_outcome (s : YieldThreadState) :
    Outcome (yieldThreadLogic x r s).next := by
  cases s with
  | currentThreadAvailable =>
    simp only [yieldThreadLogic]
    split
    · exact .asks .isEmpty rfl rfl rfl rfl
    · exact .works rfl rfl h
  | checkQueueEmpty =>
    obtain ⟨hs | hs, hreq⟩ := checkQueueEmpty_next (x := x) h
    all_goals
      refine .works ?_ ?_ hreq
      all_goals
        rw [hs]
        rfl
  | enqueue => exact .asks .enqueue rfl rfl rfl rfl
  | checkEnqueue =>
    simp only [yieldThreadLogic]
    split
    all_goals exact .works rfl rfl h
  | dequeue => exact .asks .dequeue rfl rfl rfl rfl
  | checkDequeue => exact dispatched_outcome h
  | init => exact .works rfl rfl h
  | currentThreadRdWait => exact .works rfl rfl h

lemma exitThreadLogic_outcome (s : ExitThreadState) : Outcome (exitThreadLogic x r s).next := by
  cases s
  case available =>
    simp only [exitThreadLogic]
    split_ifs
    all_goals exact .works rfl rfl h
  case readParentAvailable =>
    simp only [exitThreadLogic]
    split
    · exact .asks .enqueue rfl rfl rfl rfl
    · exact .works rfl rfl h
  case checkEnqueue =>
    simp only [exitThreadLogic]
    split
    all_goals exact .works rfl rfl h
  all_goals exact .works rfl rfl h

lemma swtmLogic_outcome (hw : r.currentState.waiting = false) : Outcome (swtmLogic x r).next := by
  rw [swtmLogic]
  split
  next hs => exact idleLogic_outcome h hs
  next s hs => exact softResetLogic_outcome h hs
  next s _ => exact (entryLogic_outcome h s).1
  next s _ => exact createThreadLogic_outcome h s
  next s _ => exact clearThreadLogic_outcome h s
  next s _ => exact (entryLogic_outcome h s).2.1
  next s _ => exact isQueuedLogic_outcome h s
  next s _ => exact (entryLogic_outcome h s).2.2
  next s hs => exact nextThreadLogic_outcome h hs
  next s _ => exact addThreadLogic_outcome h s
  next op hs =>
    rw [hs] at hw
    exact Bool.noConfusion hw
  next op hs =>
    rw [hs] at hw
    exact Bool.noConfusion hw
  next s _ => exact yieldThreadLogic_outcome h s
  next s _ => exact exitThreadLogic_outcome h s
  next => exact .works rfl rfl h
  next => exact .works rfl rfl h
  next hs =>
    split
    · exact .works rfl rfl h
    · refine .works ?_ ?_ h
      all_goals
        rw [hs]
        rfl

end Outcomes

def SwtmState.resetting : SwtmState → Bool
  | softReset _ => true
  | _ => false

-- no soft reset begins, and the resets that have been asked for stay as they are
structure KeepsResets (r n : Registers) : Prop where
  softResets : n.softResets = r.softResets
  state : n.currentState.resetting = false

lemma KeepsResets.ite {r : Registers} {p : Prop} [Decidable p] {d d' : Drive}
    (h : KeepsResets r d.next) (h' : KeepsResets r d'.next) :
    KeepsResets r (if p then d else d').next := by
  split
  · exact h
  · exact h'

section Resets

variable {x : Signals} {r : Registers}

lemma idleLogic_keepsResets (hs : r.currentState = .idleState)
    (hread : x.lines.bus2ipWrCE = false) : KeepsResets r (idleLogic x r).next := by
  have hidle : KeepsResets r { r with busDataOut := 0 } := ⟨rfl, hs ▸ rfl⟩
  rw [idleLogic, hread, if_neg Bool.false_ne_true, readLogic]
  repeat' apply KeepsResets.ite
  all_goals first | exact ⟨rfl, rfl⟩ | exact hidle

lemma tableLogic_keepsResets (c : CreateThreadState) (d : ClearThreadState) (s : EntryState) :
    KeepsResets r (createThreadLogic x r c).next ∧ KeepsResets r (clearThreadLogic x r d).next ∧
      KeepsResets r (joinThreadLogic x r s).next := by
  refine ⟨?_, ?_, ?_⟩
  · cases c
    case init => exact .ite ⟨rfl, rfl⟩ ⟨rfl, rfl⟩
    all_goals exact ⟨rfl, rfl⟩
  · cases d
    case entryAvailable => exact .ite ⟨rfl, rfl⟩ ⟨rfl, rfl⟩
    case deallocateId => exact .ite ⟨rfl, rfl⟩ ⟨rfl, rfl⟩
    all_goals exact ⟨rfl, rfl⟩
  · cases s
    case available => exact .ite (.ite ⟨rfl, rfl⟩ ⟨rfl, rfl⟩) ⟨rfl, rfl⟩
    all_goals exact ⟨rfl, rfl⟩

lemma dispatched_keepsResets : KeepsResets r (dispatched x r).next := .ite ⟨rfl, rfl⟩ ⟨rfl, rfl⟩

lemma nextThreadLogic_keepsResets {s : NextThreadState} (hs : r.currentState = .nextThread s) :
    KeepsResets r (nextThreadLogic x r s).next := by
  cases s with
  | init => exact .ite ⟨rfl, rfl⟩ ⟨rfl, rfl⟩
  | wait4Scheduler => exact .ite ⟨rfl, rfl⟩ (.ite ⟨rfl, rfl⟩ ⟨rfl, hs ▸ rfl⟩)
  | rdWait => exact ⟨rfl, rfl⟩
  | available => exact .ite ⟨rfl, rfl⟩ ⟨rfl, rfl⟩
  | checkDequeue => exact dispatched_keepsResets

lemma addThreadLogic_keepsResets (s : AddThreadState) :
    KeepsResets r (addThreadLogic x r s).next := by
  cases s with
  | entryAvailable | checkIsQueue | checkEnqueue => exact .ite ⟨rfl, rfl⟩ ⟨rfl, rfl⟩
  | init | entryRdWait | isQueuedWait | enqueueWait => exact ⟨rfl, rfl⟩

lemma yieldThreadLogic_keepsResets (s : YieldThreadState) :
    KeepsResets r (yieldThreadLogic x r s).next := by
  cases s with
  | currentThreadAvailable | checkQueueEmpty | checkEnqueue =>
    exact .ite ⟨rfl, rfl⟩ ⟨rfl, rfl⟩
  | checkDequeue => exact dispatched_keepsResets
  | init | currentThreadRdWait | enqueue | dequeue => exact ⟨rfl, rfl⟩

lemma exitThreadLogic_keepsResets (s : ExitThreadState) :
    KeepsResets r (exitThreadLogic x r s).next := by
  cases s
  case available =>
    simp only [exitThreadLogic]
    split_ifs <;> exact ⟨rfl, rfl⟩
  case readParentAvailable => exact .ite ⟨rfl, rfl⟩ ⟨rfl, rfl⟩
  case checkEnqueue => exact .ite ⟨rfl, rfl⟩ ⟨rfl, rfl⟩
  all_goals exact ⟨rfl, rfl⟩

lemma swtmLogic_keepsResets (hw : r.currentState.waiting = false)
    (hr : r.currentState.resetting = false) (hread : x.lines.bus2ipWrCE = false) :
    KeepsResets r (swtmLogic x r).next := by
  rw [swtmLogic]
  split
  next hs => exact idleLogic_keepsResets hs hread
  next s hs =>
    rw [hs] at hr
    exact Bool.noConfusion hr
  next s _ => cases s <;> exact ⟨rfl, rfl⟩
  next s _ => exact (tableLogic_keepsResets s .init .init).1
  next s _ => exact (tableLogic_keepsResets .init s .init).2.1
  next s _ => exact (tableLogic_keepsResets .init .init s).2.2
  next s _ => cases s <;> exact ⟨rfl, rfl⟩
  next s _ => cases s <;> exact ⟨rfl, rfl⟩
  next s hs => exact nextThreadLogic_keepsResets hs
  next s _ => exact addThreadLogic_keepsResets s
  next op hs =>
    rw [hs] at hw
    exact Bool.noConfusion hw
  next op hs =>
    rw [hs] at hw
    exact Bool.noConfusion hw
  next s _ => exact yieldThreadLogic_keepsResets s
  next s _ => exact exitThreadLogic_keepsResets s
  next => exact ⟨rfl, rfl⟩
  next => exact ⟨rfl, rfl⟩
  next hs => exact .ite ⟨rfl, rfl⟩ ⟨rfl, hs ▸ rfl⟩

/-- What the state machine looks at outside of a soft reset: of the lines from the scheduler only
the announced thread, and the data when a state tests it. -/
lemma swtmLogic_congr {l : BusLines} {b b' v : Bool} {d d' n : ThreadId} {e : Word}
    {i i' : BitVec 9} {k k' : BitVec 5} (hw : r.currentState.waiting = false)
    (hr : r.currentState.resetting = false)
    (hd : ∀ op, r.currentState.tests = some op → d = d') (hread : l.bus2ipWrCE = false)
    (hlines : l.command ≠ cSchedLines) :
    swtmLogic ⟨l, ⟨b, d, n, v⟩, e, i, k⟩ r = swtmLogic ⟨l, ⟨b', d', n, v⟩, e, i', k'⟩ r := by
  cases hs : r.currentState with
  | idleState =>
    simp only [swtmLogic, hs, idleLogic, readLogic, hread, hlines, Bool.false_eq_true, if_false]
  | softReset s =>
    rw [hs] at hr
    exact Bool.noConfusion hr
  | waitAck op | waitComplete op =>
    rw [hs] at hw
    exact Bool.noConfusion hw
  | isQueued s | nextThread s | addThread s | yieldThread s | exitThread s =>
    simp only [swtmLogic, hs]
    rw [hs] at hd
    cases s
    all_goals first | rfl | rw [hd _ rfl]; rfl
  | readThread s | createThread s | clearThread s | joinThread s | isDetached s =>
    simp only [swtmLogic, hs]
    cases s <;> rfl
  | raiseException | endTransaction | endTransactionWait => simp only [swtmLogic, hs]

end Resets

end Hthreads.ThreadManager
