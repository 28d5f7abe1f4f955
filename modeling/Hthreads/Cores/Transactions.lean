import Hthreads.Cores.Books

/-! The cycles the thread manager spends on one bus command, read as one step on its books. -/

namespace Hthreads.Cores

open Library Library.BitFields Scheduler ThreadManager Managed

lemma command_read (command : BitVec 6) (tid : ThreadId) :
    (BusLines.read command tid).command = command := by
  apply BitVec.eq_of_getLsbD_eq
  intro i hi
  simp only [BusLines.command, BusLines.read, getLsbD_slice, BitVec.getLsbD_append]
  grind

lemma threadId_read (command : BitVec 6) (tid : ThreadId) :
    (BusLines.read command tid).threadId = tid := by
  apply BitVec.eq_of_getLsbD_eq
  intro i hi
  simp only [BusLines.threadId, BusLines.read, getLsbD_slice, BitVec.getLsbD_append]
  grind

lemma bus2ipRdCE_read (command : BitVec 6) (tid : ThreadId) :
    (BusLines.read command tid).bus2ipRdCE = true := rfl

lemma bus2ipWrCE_read (command : BitVec 6) (tid : ThreadId) :
    (BusLines.read command tid).bus2ipWrCE = false := rfl

lemma bus2ipReset_read (command : BitVec 6) (tid : ThreadId) :
    (BusLines.read command tid).bus2ipReset = false := rfl

-- the cycle in which a command that raised no exception answers
structure Ended (a : Managed) (b : Books) (w : Word) : Prop where
  state : a.tm.regs.currentState = .endTransaction
  request : a.tm.regs.tm2schRequest = false
  books : a.books = b
  word : a.tm.regs.busDataOut = w

lemma transact_of_acked {a : Managed} {l : BusLines} {n : ℕ} (hn : n ≤ 600)
    (h : (runUntil Managed.clock acked (fun _ => l) n 0 a).acked = true) :
    a.transact l = some (runUntil Managed.clock (Managed.inState .idleState) (fun _ => .quiet) 2 0
      ((runUntil Managed.clock acked (fun _ => l) n 0 a).clock l),
      (runUntil Managed.clock acked (fun _ => l) n 0 a).answer l) := by
  rw [transact, runUntil_mono Managed.clock (fun _ => l) 0 hn h, if_pos h]

section Release

attribute [local simp] runUntil Managed.clock acked Managed.inState Swtm.clock Swtm.drive
  Swtm.signals swtmLogic BusLines.quiet Managed.answer Managed.books

variable {a b : Managed} {l : BusLines} {n : ℕ}

lemma released (hl : l.bus2ipReset = false) (hr : b.tm.regs.tm2schRequest = false)
    (h : b.acked = true) :
    (runUntil Managed.clock (Managed.inState .idleState) (fun _ => .quiet) 2 0
      (b.clock l)).AtRest ∧
    (runUntil Managed.clock (Managed.inState .idleState) (fun _ => .quiet) 2 0
      (b.clock l)).books = b.books := by
  rw [acked, Bool.or_eq_true, Managed.inState, Managed.inState, beq_iff_eq, beq_iff_eq] at h
  rcases h with h | h
  all_goals
    simp [h, hl]
    exact ⟨rfl, hr⟩

lemma returns_of_ended {cmd : Command} {c : Books} {w : Word} (hl : cmd.lines.bus2ipReset = false)
    (hn : n ≤ 600) (h : Ended (runUntil Managed.clock acked (fun _ => cmd.lines) n 0 a) c w) :
    Returns cmd a c w := by
  have hacked : (runUntil Managed.clock acked (fun _ => cmd.lines) n 0 a).acked = true := by
    rw [acked, Managed.inState, h.state]
    rfl
  obtain ⟨hrest, hbooks⟩ := released hl h.request hacked
  refine ⟨_, ?_, hrest, hbooks.trans h.books⟩
  have hanswer := h.word
  rw [execute, transact_of_acked hn hacked]
  rw [Managed.answer, Swtm.drive, swtmLogic, h.state, hanswer]

lemma returns_of_raised {cmd : Command} {c : Books} (hl : cmd.lines.bus2ipReset = false)
    (hn : n ≤ 600)
    (hs : (runUntil Managed.clock acked (fun _ => cmd.lines) n 0 a).tm.regs.currentState =
      .raiseException)
    (hr : (runUntil Managed.clock acked (fun _ => cmd.lines) n 0 a).tm.regs.tm2schRequest = false)
    (hb : (runUntil Managed.clock acked (fun _ => cmd.lines) n 0 a).books = c) :
    Returns cmd a c 0 := by
  have hacked : (runUntil Managed.clock acked (fun _ => cmd.lines) n 0 a).acked = true := by
    rw [acked, Managed.inState, Managed.inState, hs]
    rfl
  obtain ⟨hrest, hbooks⟩ := released hl hr hacked
  refine ⟨_, ?_, hrest, hbooks.trans hb⟩
  rw [execute, transact_of_acked hn hacked]
  rw [Managed.answer, Swtm.drive, swtmLogic, hs]

end Release

section Commands

attribute [local simp] runUntil Managed.clock acked Managed.inState Swtm.clock Swtm.drive
  Swtm.signals swtmLogic ThreadManager.idleLogic readLogic createThreadLogic clearThreadLogic
  joinThreadLogic readThreadLogic isDetachedLogic ThreadManager.isQueuedLogic nextThreadLogic
  addThreadLogic yieldThreadLogic exitThreadLogic dispatched ask raise readEntry finish serve asked
  Registers.cpuThreadId Request.effect Request.result Managed.sch2tm

attribute [local simp] command_read threadId_read bus2ipRdCE_read bus2ipWrCE_read bus2ipReset_read
  cClearThread cJoinThread cReadThread cAddThread cCreateThreadJ cCreateThreadD cExitThread
  cNextThread cYieldThread cCurrentThread cIsDetached cIsQueued cExceptionAddr cExceptionReg
  cSoftStart cSoftStop cSoftReset cSchedLines

lemma error_one : bit (1#8) 7 = true := by decide

lemma error_zero : bit (0#8) 7 = false := by decide

lemma error_enqueued (b : Bool) : bit (if b = true then 128#8 else 0#8) 7 = false := by
  cases b <;> decide

lemma slice_current (tid : ThreadId) : slice (tid ++ 0#1 : BitVec (8 + 1)) 0 8 = tid := by
  apply BitVec.eq_of_getLsbD_eq
  intro i hi
  simp only [getLsbD_slice, BitVec.getLsbD_append, hi]
  grind

attribute [local simp] error_one error_zero error_enqueued slice_current

variable {a : Managed}

lemma returns_create (h : a.AtRest) {cmd : Command} {command : BitVec 6}
    (hcmd : cmd = .createJ ∧ command = cCreateThreadJ ∨ cmd = .createD ∧ command = cCreateThreadD) :
    Returns cmd a (a.books.create command).1 (a.books.create command).2 := by
  obtain ⟨hs, hr⟩ := h
  rcases hcmd with ⟨rfl, rfl⟩ | ⟨rfl, rfl⟩
  all_goals
    apply returns_of_ended (n := 12) rfl (by omega)
    rw [Command.lines]
    cases hn : bit a.tm.regs.nextId 0 with
    | true =>
      simp [hs, hn]
      refine ⟨rfl, hr, ?_, ?_⟩
      all_goals simp [Books.create, Managed.books, hn]
    | false =>
      simp [hs, hn]
      refine ⟨rfl, hr, ?_, ?_⟩
      all_goals simp [Books.create, Books.entry, Books.setEntry, Books.cpu, Managed.books, hn]

lemma returns_clear (h : a.AtRest) (tid : ThreadId) :
    Returns (.clear tid) a (a.books.clear tid).1 (a.books.clear tid).2 := by
  obtain ⟨hs, hr⟩ := h
  apply returns_of_ended (n := 12) rfl (by omega)
  rw [Command.lines]
  by_cases he : entryStatus (a.tm.threadTable.data (threadAddr tid)) = 2#2
  · by_cases hn : a.tm.regs.nextId = 0#9
    · simp [hs, he, hn]
      refine ⟨rfl, hr, ?_, ?_⟩
      all_goals simp [Books.clear, Books.entry, Books.setEntry, Books.deallocate,
        Managed.books, he, hn]
    · simp [hs, he, hn]
      refine ⟨rfl, hr, ?_, ?_⟩
      all_goals simp [Books.clear, Books.entry, Books.setEntry, Books.deallocate,
        Managed.books, he, hn]
  · simp [hs, he]
    refine ⟨rfl, hr, ?_, ?_⟩
    all_goals simp [Books.clear, Books.entry, Managed.books, he]

lemma returns_join (h : a.AtRest) (tid : ThreadId) :
    Returns (.join tid) a (a.books.join tid).1 (a.books.join tid).2 := by
  obtain ⟨hs, hr⟩ := h
  apply returns_of_ended (n := 12) rfl (by omega)
  rw [Command.lines]
  cases hj : joinAllowed (a.tm.threadTable.data (threadAddr tid)) a.tm.regs.currentCpuThread with
  | true =>
    cases hb : bit (a.tm.threadTable.data (threadAddr tid)) 27 with
    | true =>
      simp [hs, hj, hb]
      refine ⟨rfl, hr, ?_, ?_⟩
      all_goals simp [Books.join, Books.entry, Books.setEntry, Managed.books, hj, hb]
    | false =>
      simp [hs, hj, hb]
      refine ⟨rfl, hr, ?_, ?_⟩
      all_goals simp [Books.join, Books.entry, Managed.books, hj, hb]
  | false =>
    simp [hs, hj]
    refine ⟨rfl, hr, ?_, ?_⟩
    all_goals simp [Books.join, Books.entry, Managed.books, hj]

lemma returns_add (h : a.AtRest) (tid : ThreadId) :
    Returns (.add tid) a (a.books.add tid).1 (a.books.add tid).2 := by
  obtain ⟨hs, hr⟩ := h
  apply returns_of_ended (n := 16) rfl (by omega)
  rw [Command.lines]
  by_cases he : entryStatus (a.tm.threadTable.data (threadAddr tid)) = 3#2
  · cases hq : a.ready.queued tid with
    | true =>
      simp [hs, he, hq]
      refine ⟨rfl, rfl, ?_, ?_⟩
      all_goals simp [Books.add, Books.running, Books.entry, Managed.books, he, hq]
    | false =>
      simp [hs, he, hq]
      refine ⟨rfl, rfl, ?_, ?_⟩
      · simp [Books.add, Books.running, Books.entry, Books.enqueue, Managed.books, he, hq]
      · simp [Books.add, Books.running, Books.entry, Managed.books, he, hq]
        rfl
  · simp [hs, he]
    refine ⟨rfl, hr, ?_, ?_⟩
    all_goals simp [Books.add, Books.running, Books.entry, Managed.books, he]

lemma returns_next (h : a.AtRest) (hv : a.ready.nextThreadValid = true) :
    Returns .next a a.books.next.1 a.books.next.2 := by
  obtain ⟨hs, hr⟩ := h
  by_cases he : entryStatus (a.tm.threadTable.data (threadAddr a.ready.nextThreadId)) = 3#2
  · apply returns_of_ended (n := 16) rfl (by omega)
    rw [Command.lines]
    simp [hs, he, hv]
    refine ⟨rfl, rfl, ?_, ?_⟩
    all_goals
      simp [Books.next, Books.running, Books.entry, Books.dispatch, Managed.books, he]
  · have hnext : a.books.next = (a.books, 0) := by
      simp [Books.next, Books.running, Books.entry, Managed.books, he]
    rw [hnext]
    apply returns_of_raised (n := 16) rfl (by omega)
    all_goals
      rw [Command.lines]
      simp [hs, he, hv, hr, Managed.books]

lemma returns_yield (h : a.AtRest) :
    Returns .yield a a.books.yield.1 a.books.yield.2 := by
  obtain ⟨hs, hr⟩ := h
  apply returns_of_ended (n := 16) rfl (by omega)
  rw [Command.lines]
  by_cases he : entryStatus (a.tm.threadTable.data
      (threadAddr (slice a.tm.regs.currentCpuThread 0 8))) = 3#2
  · cases hq : isEncoderZero a.ready.encoderInput with
    | true =>
      simp [hs, he, hq]
      refine ⟨rfl, rfl, ?_, ?_⟩
      all_goals simp [Books.yield, Books.running, Books.entry, Books.cpu, Managed.books, he, hq]
    | false =>
      simp [hs, he, hq]
      refine ⟨rfl, rfl, ?_, ?_⟩
      all_goals
        simp [Books.yield, Books.running, Books.entry, Books.cpu, Books.enqueue, Books.dispatch,
          Managed.books, he, hq]
  · simp [hs, he]
    refine ⟨rfl, hr, ?_, ?_⟩
    all_goals simp [Books.yield, Books.running, Books.entry, Books.cpu, Managed.books, he]

lemma returns_exit (h : a.AtRest) (tid : ThreadId) :
    Returns (.exit tid) a (a.books.exit tid).1 (a.books.exit tid).2 := by
  obtain ⟨hs, hr⟩ := h
  apply returns_of_ended (n := 16) rfl (by omega)
  rw [Command.lines]
  obtain ⟨e, hentry⟩ : ∃ e, a.tm.threadTable.data (threadAddr tid) = e := ⟨_, rfl⟩
  cases hd : entryDetached e with
  | true =>
    simp [hs, hentry, hd]
    refine ⟨rfl, hr, ?_, ?_⟩
    all_goals simp [Books.exit, Books.entry, Books.setEntry, Managed.books, hentry, hd]
  | false =>
    cases hj : entryJoined e with
    | false =>
      simp [hs, hentry, hd, hj]
      refine ⟨rfl, hr, ?_, ?_⟩
      all_goals simp [Books.exit, Books.entry, Books.setEntry, Managed.books, hentry, hd, hj]
    | true =>
      by_cases hp : entryStatus (Function.update (fun v => a.tm.threadTable.data (threadAddr v)) tid
          (insert 26 2#2 e) (entryParent e)) = 3#2
      · simp [hs, hentry, hd, hj, hp]
        refine ⟨rfl, rfl, ?_, ?_⟩
        all_goals
          simp [Books.exit, Books.entry, Books.setEntry, Books.running, Books.enqueue,
            Managed.books, hentry, hd, hj, hp]
      · simp [hs, hentry, hd, hj, hp]
        refine ⟨rfl, hr, ?_, ?_⟩
        all_goals
          simp [Books.exit, Books.entry, Books.setEntry, Books.running, Managed.books, hentry, hd,
            hj, hp]

lemma returns_lookups (h : a.AtRest) (tid : ThreadId) :
    Returns (.isDetached tid) a a.books
      (if entryDetached (a.books.entry tid) && entryUsed (a.books.entry tid) then 0b10 else 0) ∧
    Returns (.read tid) a a.books (a.books.entry tid) ∧
    Returns .current a a.books (0#23 ++ a.books.currentCpuThread) := by
  obtain ⟨hs, hr⟩ := h
  refine ⟨?_, ?_, ?_⟩
  all_goals
    apply returns_of_ended (n := 12) rfl (by omega)
    rw [Command.lines]
    simp [hs]
    exact ⟨rfl, hr, rfl, rfl⟩

lemma returns_isQueued (h : a.AtRest) (tid : ThreadId) :
    Returns (.isQueued tid) a a.books
      (0#30 ++ BitVec.ofBool (a.books.ready.queued tid) ++ 0#1) := by
  obtain ⟨hs, hr⟩ := h
  apply returns_of_ended (n := 12) rfl (by omega)
  rw [Command.lines]
  cases hq : a.ready.queued tid
  all_goals
    simp [hs, hq, Managed.books]
    exact ⟨rfl, rfl, rfl, rfl⟩

lemma next_waits {l : BusLines} (hl : l.bus2ipReset = false)
    (hs : a.tm.regs.currentState = .nextThread .wait4Scheduler)
    (hv : a.ready.nextThreadValid = false) (n k : ℕ) :
    (runUntil Managed.clock acked (fun _ => l) n k a).acked = false := by
  have hacked : a.acked = false := by simp [hs]
  induction n generalizing a k with
  | zero => exact hacked
  | succ n ih =>
    have hs' : (a.clock l).tm.regs.currentState = .nextThread .wait4Scheduler := by
      simp [hs, hv, hl, timeoutExpired]
    have hv' : (a.clock l).ready.nextThreadValid = false := by
      simp [hs, hv]
    rw [runUntil_step Managed.clock (fun _ => l) n k hacked]
    exact ih hs' hv' (k + 1) (by simp only [acked, Managed.inState, hs']; rfl)

lemma execute_next_none (h : a.AtRest) (hv : a.ready.nextThreadValid = false) :
    a.execute .next = none := by
  have hs := h.state
  have hacked : (runUntil Managed.clock acked (fun _ => Command.next.lines) 600 0 a).acked =
      false := by
    have h0 : a.acked = false := by simp [hs]
    have h1 : (a.clock Command.next.lines).acked = false := by simp [hs, Command.lines]
    rw [runUntil_step Managed.clock _ 599 0 h0, runUntil_step Managed.clock _ 598 1 h1]
    apply next_waits rfl
    · simp [hs, hv, Command.lines]
    · simp [hs, hv, Command.lines]
  rw [execute, transact, if_neg (by rw [hacked]; exact Bool.false_ne_true)]

end Commands

lemma execute_some {a : Managed} (h : a.AtRest) {cmd : Command} {b : Books} {w : Word}
    (he : cmd.effect a.books = some (b, w)) : Returns cmd a b w := by
  cases cmd with
  | next =>
    rw [Command.effect] at he
    split at he
    · next hv =>
      have heq : a.books.next = (b, w) := Option.some.inj he
      have hret := returns_next h hv
      rwa [heq] at hret
    · cases he
  | createJ =>
    have hret := returns_create h (.inl ⟨rfl, rfl⟩)
    rwa [Option.some.inj he] at hret
  | createD =>
    have hret := returns_create h (.inr ⟨rfl, rfl⟩)
    rwa [Option.some.inj he] at hret
  | clear tid =>
    have hret := returns_clear h tid
    rwa [Option.some.inj he] at hret
  | join tid =>
    have hret := returns_join h tid
    rwa [Option.some.inj he] at hret
  | add tid =>
    have hret := returns_add h tid
    rwa [Option.some.inj he] at hret
  | yield =>
    have hret := returns_yield h
    rwa [Option.some.inj he] at hret
  | exit tid =>
    have hret := returns_exit h tid
    rwa [Option.some.inj he] at hret
  | isQueued tid =>
    cases he
    exact returns_isQueued h tid
  | isDetached tid =>
    cases he
    exact (returns_lookups h tid).1
  | read tid =>
    cases he
    exact (returns_lookups h tid).2.1
  | current =>
    cases he
    exact (returns_lookups h 0).2.2

lemma execute_none {a : Managed} (h : a.AtRest) {cmd : Command}
    (he : cmd.effect a.books = none) : a.execute cmd = none := by
  cases cmd with
  | next =>
    rw [Command.effect] at he
    split at he
    · cases he
    · next hv => exact execute_next_none h (Bool.not_eq_true _ ▸ hv)
  | createJ | createD | clear tid | join tid | add tid | yield | exit tid | isQueued tid
  | isDetached tid | read tid | current => cases he

/-- A command on the machine is its effect on the books. -/
lemma execute_iff {a a' : Managed} (h : a.AtRest) {cmd : Command} {w : Word}
    (he : a.execute cmd = some (a', w)) :
    cmd.effect a.books = some (a'.books, w) ∧ a'.AtRest := by
  cases heff : cmd.effect a.books with
  | none =>
    rw [execute_none h heff] at he
    cases he
  | some p =>
    obtain ⟨b, w'⟩ := p
    obtain ⟨a'', hexec, hrest, rfl⟩ := execute_some h heff
    rw [he] at hexec
    cases hexec
    exact ⟨rfl, hrest⟩

end Hthreads.Cores
