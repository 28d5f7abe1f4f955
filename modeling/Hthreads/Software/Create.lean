import Hthreads.Software.Bus
import Hthreads.Software.Setup

/-! The system call that creates a thread (`_syscall_create`): CREATE, setup of the kernel's
tables, SET_SCHEDPARAM and ADD, with what it does when one of them fails. -/

namespace Hthreads.Software

open Library Library.BitFields Scheduler ThreadManager Cores

namespace Bus

def checkSchedparam (id : Huint) : Syscall Hint := do
  let res ← Program.issue (.checkSchedParam (schedTid id))
  pure (if hasError res then failure else success)

def setSchedparam (id pr : Huint) : Syscall Hint := do
  let _ ← Program.issue (.setSchedParam (schedTid id) pr)
  let res ← checkSchedparam id
  pure (if hasError res then failure else success)

def destroyThread (id : Huint) (k : Kernel) : Syscall Kernel := do
  let _ ← Program.issue (.manager (.clear (id.setWidth 8)))
  pure (k.forgetStack (id.setWidth 8))

/-- The status, the id stored through `th`, and the kernel's tables. -/
def syscallCreate (I : Image) (attr : Attr) (start arg : Huint) (k : Kernel) :
    Syscall (Hint × Option Huint × Kernel) := do
  let threadStatus ← Program.issue (.manager (if attr.detached then .createD else .createJ))
  if hasError threadStatus then pure (eagain, none, k)
  else
    let threadID := extractId threadStatus
    let (setupStatus, k) := k.setupThread I threadID attr start arg
    if setupStatus ≠ success then pure (setupStatus, none, k)
    else
      let schedStatus ← setSchedparam threadID
        (if attr.hardware then attr.hardwareAddr else attr.schedParam)
      if schedStatus ≠ success then pure (schedStatus, none, k)
      else
        let addStatus ← Program.issue (.manager (.add (threadID.setWidth 8)))
        if hasError addStatus then
          let _ ← Program.issue (.schedEntry (schedTid threadID))
          let k ← destroyThread threadID k
          let _ ← Program.issue (.manager (.clear (threadID.setWidth 8)))
          pure (eagain, none, k)
        else pure (success, some threadID, k)

end Bus

section Words

variable {e : Word} {tid : ThreadId}

lemma hasError_withCode (e : Word) (code : BitVec 4) (hcode : code.getLsbD 0 = true) :
    hasError (withCode e code) = true := by
  have hslice := slice_insert_self 28 code e (by omega)
  have hbit := congrArg (BitVec.getLsbD · 0) hslice
  rw [getLsbD_slice, hcode] at hbit
  rw [hasError_eq, withCode]
  simpa using hbit

lemma hasError_named (x : ThreadId) : hasError (0#23 ++ x ++ 0#1 : Word) = false := by
  rw [hasError_eq, BitVec.getLsbD_append]
  simp

lemma hasError_added (x : BitVec 8) : hasError (0#8 ++ x ++ 0#16 : Word) = false := by
  rw [hasError_eq, BitVec.getLsbD_append]
  simp

lemma extractId_created (tid : ThreadId) :
    extractId (0#23 ++ tid ++ 0#1 : Word) = tid.setWidth 32 := by
  have hcast : (0#23 ++ tid ++ 0#1 : Word) = 0#23 ++ (tid ++ 0#1) := by
    rw [BitVec.append_assoc]
    rfl
  have hslice : slice (tid ++ 0#1) 0 8 = tid := by
    apply BitVec.eq_of_getLsbD_eq
    intro i hi
    rw [getLsbD_slice, BitVec.getLsbD_append, decide_eq_true hi]
    simp
  rw [hcast, extractId_named, hslice]

end Words

section Outcome

variable {I : Image} {attr : Attr} {start arg : Huint} {k : Kernel} {b : Books} {tid : ThreadId}

def Attr.createCommand (attr : Attr) : BitVec 6 :=
  if attr.detached then cCreateThreadD else cCreateThreadJ

def Attr.param (attr : Attr) : Word := if attr.hardware then attr.hardwareAddr else attr.schedParam

def freshId (b : Books) : ThreadId := entryId (b.table b.nextId)

def allocated (attr : Attr) (b : Books) : Books := (b.create attr.createCommand).1

-- SET_SCHEDPARAM for the new thread
def parameterized (attr : Attr) (b : Books) : Books :=
  let b' := allocated attr b
  { b' with
    ready := b'.ready.setSchedParam (b'.entry (freshId b)) b'.cpu (freshId b) attr.param }

lemma access_create (b : Books) :
    bookAccess (.manager (if attr.detached then .createD else .createJ)) b =
      some (b.create attr.createCommand) := by
  rw [Attr.createCommand]
  cases attr.detached <;> rfl

lemma create_of_free (h : bit b.nextId 0 = false) :
    b.create attr.createCommand = (allocated attr b, 0#23 ++ freshId b ++ 0#1) := by
  rw [allocated, freshId, Books.create, if_neg (Bool.eq_false_iff.mp h)]

lemma running_allocated (h : bit b.nextId 0 = false) :
    (allocated attr b).running (freshId b) = true := by
  have hentry : (allocated attr b).entry (freshId b) =
      createdEntry attr.createCommand (b.entry (freshId b)) b.cpu := by
    rw [allocated, Books.create, if_neg (Bool.eq_false_iff.mp h), freshId]
    exact entry_setEntry.trans (if_pos rfl)
  rw [Books.running, hentry, entryStatus_createdEntry]
  rfl

lemma setSchedParam_queuedBit (T : Tables) (entry param : Word) (cpu tid : ThreadId) :
    (T.setSchedParam entry cpu tid param).queued tid = T.queued tid := by
  have hmove (T : Tables) (p : Priority) : (T.move tid p).queued tid = T.queued tid := by
    simp only [Tables.move, Tables.runEncoder, Tables.link, Tables.queued]
    split
    · simp
    · simp
  rw [Tables.setSchedParam]
  split
  · rw [Tables.refresh, Tables.reprioritize]
    split
    · exact hmove _ _
    · simp [Tables.queued]
  · rfl

lemma setSchedparam_run (b : Books) (tid : ThreadId) (pr : Huint) :
    (Bus.setSchedparam (tid.setWidth 32) pr).run bookAccess b =
      some ({ b with ready := b.ready.setSchedParam (b.entry tid) b.cpu tid pr },
        if b.ready.queued tid && !isSoftwareParam pr then failure else success) := by
  have htid : schedTid (tid.setWidth 32) = tid := by simp [schedTid]
  have hcheck : (b.ready.setSchedParam (b.entry tid) b.cpu tid pr).checkSchedParam tid =
      if b.ready.queued tid && !isSoftwareParam pr then 1 else 0 := by
    rw [Tables.checkSchedParam, setSchedParam_queuedBit, setSchedParam_param]
    cases b.ready.queued tid <;> cases isSoftwareParam pr <;> rfl
  simp only [Bus.setSchedparam, Bus.checkSchedparam, Program.run_bind, Program.run_issue,
    Program.run_pure, bookAccess, htid, Option.bind_some, environment, Scheduler.Command.effect,
    hcheck]
  cases b.ready.queued tid && !isSoftwareParam pr <;> rfl

lemma syscallCreate_full (h : bit b.nextId 0 = true) :
    (Bus.syscallCreate I attr start arg k).run bookAccess b = some (b, eagain, none, k) := by
  have hone : hasError 1 = true := by decide
  simp only [Bus.syscallCreate, Program.run_bind, Program.run_issue, access_create,
    create_full h, Option.bind_some, hone, if_true, Program.run_pure]

lemma syscallCreate_refused (h : bit b.nextId 0 = false) (hstack : ¬ attr.StackAccepted) :
    (Bus.syscallCreate I attr start arg k).run bookAccess b =
      some (allocated attr b, einval, none, k) := by
  have hne : einval ≠ success := by decide
  simp only [Bus.syscallCreate, Program.run_bind, Program.run_issue, access_create,
    create_of_free h, Option.bind_some, hasError_named, Bool.false_eq_true, if_false,
    extractId_created, setupThread_refused hstack, hne, ne_eq, not_false_eq_true, if_true,
    Program.run_pure]

lemma clear_running (h : b.running tid = true) :
    b.clear tid = (b, withCode (b.entry tid) clearErrorNotUsed) := by
  have hstatus : entryStatus (b.entry tid) = 0b11 := beq_iff_eq.mp h
  have hne : (0b11 : BitVec 2) ≠ 0b10 := by decide
  rw [Books.clear, hstatus, if_neg hne]

lemma add_queued (h : b.running tid = true) (hq : b.ready.queued tid = true) :
    b.add tid = (b, withCode (insert 8 1#8 (b.entry tid)) threadAlreadyQueued) := by
  simp only [Books.add, h, hq, if_true]

lemma add_unqueued (h : b.running tid = true) (hq : b.ready.queued tid = false) :
    b.add tid = (b.enqueue tid, 0#8 ++ (Request.mk .enqueue tid).result b.ready ++ 0#16) := by
  simp only [Books.add, h, hq, if_true, Bool.false_eq_true, if_false]

lemma running_parameterized (h : bit b.nextId 0 = false) :
    (parameterized attr b).running (freshId b) = true := running_allocated h

lemma queued_parameterized : (parameterized attr b).ready.queued (freshId b) =
    b.ready.queued (freshId b) := by
  rw [parameterized, setSchedParam_queuedBit, allocated, create_ready]

lemma syscallCreate_accepted (h : bit b.nextId 0 = false) (hstack : attr.StackAccepted) {r : Hint}
    (hr : (if b.ready.queued (freshId b) && !isSoftwareParam attr.param then failure else success) =
      r) : (Bus.syscallCreate I attr start arg k).run bookAccess b =
      (if r ≠ success then
        pure (r, none, (k.setupThread I ((freshId b).setWidth 32) attr start arg).2)
      else do
        let addStatus ← Program.issue (.manager (.add (freshId b)))
        if hasError addStatus then
          let _ ← Program.issue (.schedEntry (freshId b))
          let k ← Bus.destroyThread ((freshId b).setWidth 32)
            (k.setupThread I ((freshId b).setWidth 32) attr start arg).2
          let _ ← Program.issue (.manager (.clear (freshId b)))
          pure (eagain, none, k)
        else pure (success, some ((freshId b).setWidth 32),
          (k.setupThread I ((freshId b).setWidth 32) attr start arg).2) : Syscall _).run bookAccess
        (parameterized attr b) := by
  have hsetup : (k.setupThread I ((freshId b).setWidth 32) attr start arg).1 = success :=
    setupThread_success hstack
  have hqueued : (allocated attr b).ready.queued (freshId b) = b.ready.queued (freshId b) := by
    rw [allocated, create_ready]
  have htid : ((freshId b).setWidth 32).setWidth 8 = freshId b := by simp
  simp only [Bus.syscallCreate, Program.run_bind, Program.run_issue, access_create,
    create_of_free h, Option.bind_some, hasError_named, Bool.false_eq_true, if_false,
    extractId_created, hsetup, ne_eq, not_true_eq_false, htid, schedTid]
  rw [← Attr.param, setSchedparam_run, hqueued, hr]
  rfl

/-- Both ways out keep the id: its record says that the thread is running, and CLEAR refuses it. -/
lemma syscallCreate_queued (h : bit b.nextId 0 = false) (hstack : attr.StackAccepted)
    (hq : b.ready.queued (freshId b) = true) :
    ∃ r k', r ≠ success ∧ (Bus.syscallCreate I attr start arg k).run bookAccess b =
      some (parameterized attr b, r, none, k') := by
  have hrun : (parameterized attr b).running (freshId b) = true := running_parameterized h
  cases hsoft : isSoftwareParam attr.param with
  | false =>
    have hne : failure ≠ success := by decide
    have hfail : (if b.ready.queued (freshId b) && !isSoftwareParam attr.param then failure
        else success) = failure := by
      rw [hq, hsoft]
      rfl
    refine ⟨failure, (k.setupThread I ((freshId b).setWidth 32) attr start arg).2, hne, ?_⟩
    rw [syscallCreate_accepted h hstack hfail, if_pos hne]
    rfl
  | true =>
    have hne : eagain ≠ success := by decide
    have herr : hasError (withCode (insert 8 1#8 ((parameterized attr b).entry (freshId b)))
        threadAlreadyQueued) = true := hasError_withCode _ _ rfl
    have htid : ((freshId b).setWidth 32).setWidth 8 = freshId b := by simp
    have hpass : (if b.ready.queued (freshId b) && !isSoftwareParam attr.param then failure
        else success) = success := by
      rw [hsoft, Bool.not_true, Bool.and_false]
      rfl
    refine ⟨eagain, (k.setupThread I ((freshId b).setWidth 32) attr start arg).2.forgetStack
      (freshId b), hne, ?_⟩
    rw [syscallCreate_accepted h hstack hpass, if_neg (not_not_intro rfl)]
    simp only [Program.run_bind, Program.run_issue, bookAccess, Cores.Command.effect,
      add_queued hrun (queued_parameterized.trans hq), Option.bind_some, herr, if_true,
      Bus.destroyThread, htid, clear_running hrun, Program.run_pure]

lemma syscallCreate_success (h : bit b.nextId 0 = false) (hstack : attr.StackAccepted)
    (hq : b.ready.queued (freshId b) = false) :
    (Bus.syscallCreate I attr start arg k).run bookAccess b =
      some ((parameterized attr b).enqueue (freshId b), success, some ((freshId b).setWidth 32),
        (k.setupThread I ((freshId b).setWidth 32) attr start arg).2) := by
  have hrun : (parameterized attr b).running (freshId b) = true := running_parameterized h
  have hpass : (if b.ready.queued (freshId b) && !isSoftwareParam attr.param then failure
      else success) = success := by
    rw [hq]
    rfl
  rw [syscallCreate_accepted h hstack hpass, if_neg (not_not_intro rfl)]
  simp only [Program.run_bind, Program.run_issue, bookAccess, Cores.Command.effect,
    add_unqueued hrun (queued_parameterized.trans hq), Option.bind_some, hasError_added,
    Bool.false_eq_true, if_false, Program.run_pure]

lemma of_syscallCreate_some {b' : Books} {r : Hint} {th : Huint} {k' : Kernel}
    (hrun : (Bus.syscallCreate I attr start arg k).run bookAccess b = some (b', r, some th, k')) :
    attr.StackAccepted ∧ b.ready.queued (freshId b) = false ∧
      b' = (parameterized attr b).enqueue (freshId b) ∧ th = (freshId b).setWidth 32 := by
  have hno {b₁ : Books} {r₁ : Hint} {k₁ : Kernel}
      (h : (Bus.syscallCreate I attr start arg k).run bookAccess b = some (b₁, r₁, none, k₁)) :
      False := by
    rw [hrun] at h
    have hth := congrArg (Option.map (·.2.2.1)) h
    cases hth
  cases hfull : bit b.nextId 0 with
  | true => exact (hno (syscallCreate_full hfull)).elim
  | false =>
    by_cases hstack : attr.StackAccepted
    · cases hq : b.ready.queued (freshId b) with
      | true =>
        obtain ⟨r₁, k₁, -, hqueued⟩ := syscallCreate_queued hfull hstack hq
        exact (hno hqueued).elim
      | false =>
        rw [syscallCreate_success hfull hstack hq] at hrun
        obtain ⟨hb, hresult⟩ := Prod.mk.inj (Option.some.inj hrun)
        have hth := Option.some.inj (Prod.mk.inj (Prod.mk.inj hresult).2).1
        exact ⟨hstack, rfl, hb.symm, hth.symm⟩
    · exact (hno (syscallCreate_refused hfull hstack)).elim

end Outcome

end Hthreads.Software
