import Hthreads.CondVars.Transactions

/-! The soft reset clears the table. -/

namespace Hthreads.CondVars

open Library Scheduler

namespace UserLogic

def resetBus (softReset full : Bool) : Bus := ⟨false, false, 0, softReset, full⟩

@[simp] lemma resetBus_softReset (softReset full : Bool) :
    (resetBus softReset full).softReset = softReset := rfl

def runReset (u : UserLogic) (f : ℕ → Bool) : ℕ → UserLogic
  | 0 => u
  | n + 1 => (runReset u f n).clock (resetBus true (f n))

/-- The loop of `init_bram` has still to clear the addresses up to `k`. -/
structure Clearing (k : ℕ) (u : UserLogic) : Prop where
  state : u.state = .resetCore
  inside : u.insideReset = true
  core : u.core.regs.state = .initBram
  done : u.core.regs.done = false
  counter : u.core.regs.addrCounter.toNat = k
  cleared : ∀ a, a = 0 ∨ k < a.toNat → u.core.contents a = 0

structure Cleared (s : MasterState) (u : UserLogic) : Prop where
  state : u.state = s
  inside : u.insideReset = true
  core : u.core.regs.state = .idle
  cleared : ∀ a, u.core.contents a = 0

variable {u : UserLogic} {f : ℕ → Bool} {k n : ℕ}

lemma clearing_begin (hinside : u.insideReset = false) : (u.runReset f 3).Clearing 2047 := by
  refine ⟨?_, ?_, ?_, ?_, ?_, fun a ha => ?_⟩
  all_goals simp [runReset, clock, masterDrive, hinside, Core.clock, Core.reset, Core.driven, drive,
    Core.contents]
  rcases ha with rfl | ha
  · simp
  · have hlt := a.isLt
    omega

lemma Clearing.clock_succ (h : u.Clearing (k + 1)) (full : Bool) :
    (u.clock (resetBus true full)).Clearing k := by
  have hne : ¬ u.core.regs.addrCounter = 0#11 := by
    intro hzero
    have hcounter := h.counter
    rw [hzero] at hcounter
    cases hcounter
  have hdrive : u.core.driven (u.lines (resetBus true full)) =
      { next := { u.core.regs with addrCounter := u.core.regs.addrCounter - 1 }
        port0 := .write u.core.regs.addrCounter 0 } := by
    simp [Core.driven, drive, h.core, hne]
  have hcore : (u.clock (resetBus true full)).core =
      ⟨{ u.core.regs with addrCounter := u.core.regs.addrCounter - 1 },
        ⟨Function.update u.core.contents u.core.regs.addrCounter 0, 0, u.core.table.dout1⟩⟩ := by
    simp [clock, masterDrive, h.state, Core.clock, hdrive, Core.contents]
  refine ⟨?_, ?_, ?_, ?_, ?_, fun a ha => ?_⟩
  · simp [clock, masterDrive, h.state, h.inside, h.done]
  · simp [clock, masterDrive, h.state, h.inside]
  · rw [hcore]
    exact h.core
  · rw [hcore]
    exact h.done
  · rw [hcore]
    change (u.core.regs.addrCounter - 1).toNat = k
    rw [BitFields.toNat_pred_of_ne_zero hne, h.counter, Nat.add_sub_cancel]
  · rw [hcore]
    change Function.update u.core.contents u.core.regs.addrCounter 0 a = 0
    by_cases heq : a = u.core.regs.addrCounter
    · rw [heq, Function.update_self]
    · rw [Function.update_of_ne heq]
      have hcounter := h.counter
      have hnat : a.toNat ≠ u.core.regs.addrCounter.toNat := mt BitVec.eq_of_toNat_eq heq
      refine h.cleared a (ha.imp_right fun hlt => ?_)
      omega

lemma Clearing.clock_zero (h : u.Clearing 0) (full : Bool) :
    (u.clock (resetBus true full)).Cleared .resetCore ∧
      (u.clock (resetBus true full)).core.regs.done = true := by
  have hzero : u.core.regs.addrCounter = 0 := BitVec.eq_of_toNat_eq h.counter
  have hcore : (u.clock (resetBus true full)).core =
      ⟨{ u.core.regs with state := .idle, done := true }, u.core.table⟩ := by
    simp [clock, masterDrive, h.state, Core.clock, Core.driven, drive, h.core, hzero]
  refine ⟨⟨?_, ?_, ?_, fun a => ?_⟩, ?_⟩
  · simp [clock, masterDrive, h.state, h.inside, h.done]
  · simp [clock, masterDrive, h.state, h.inside]
  · rw [hcore]
  · rw [hcore]
    refine h.cleared a ?_
    by_cases ha : a = 0
    · exact .inl ha
    · have hnat : a.toNat ≠ (0 : Addr).toNat := mt BitVec.eq_of_toNat_eq ha
      exact .inr (Nat.pos_of_ne_zero hnat)
  · rw [hcore]

lemma clearing_run (hinside : u.insideReset = false) (hn : n ≤ 2047) :
    (u.runReset f (n + 3)).Clearing (2047 - n) := by
  induction n with
  | zero => exact clearing_begin hinside
  | succ n ih =>
    have hstep := ih (by omega)
    have hk : 2047 - n = (2047 - (n + 1)) + 1 := by omega
    rw [hk] at hstep
    have hclock := hstep.clock_succ (f (n + 3))
    have hnext : u.runReset f (n + 1 + 3) =
        (u.runReset f (n + 3)).clock (resetBus true (f (n + 3))) := by
      rw [Nat.add_right_comm, runReset]
    rw [hnext]
    exact hclock

lemma Cleared.clock {s : MasterState} (h : u.Cleared s) (full : Bool)
    (hs : s = .resetCore ∧ u.core.regs.done = true ∨ s = .resetWait4Ack) :
    (u.clock (resetBus true full)).Cleared .resetWait4Ack ∧
      (u.clock (resetBus true full)).core.Quiet := by
  have hcmd : (u.lines (resetBus true full)).cmd = false := by
    rcases hs with ⟨rfl, hdone⟩ | rfl
    · simp [lines, masterDrive, h.state]
    · simp [lines, masterDrive, h.state]
  have hcore : (u.clock (resetBus true full)).core =
      ⟨{ u.core.regs with done := false }, u.core.table⟩ := by
    have hreset : (u.masterDrive (resetBus true full)).resetSig = false := by
      rcases hs with ⟨rfl, hdone⟩ | rfl
      · simp [masterDrive, h.state]
      · simp [masterDrive, h.state]
    simp [UserLogic.clock, hreset, Core.clock, Core.driven, drive, idleDrive, h.core, hcmd]
  refine ⟨⟨?_, ?_, ?_, ?_⟩, ?_, ?_⟩
  · rcases hs with ⟨rfl, hdone⟩ | rfl
    · simp [UserLogic.clock, masterDrive, h.state, h.inside, hdone]
    · simp [UserLogic.clock, masterDrive, h.state, h.inside]
  · rcases hs with ⟨rfl, hdone⟩ | rfl
    · simp [UserLogic.clock, masterDrive, h.state, h.inside]
    · simp [UserLogic.clock, masterDrive, h.state, h.inside]
  · rw [hcore]
    exact h.core
  · rw [hcore]
    exact h.cleared
  · rw [hcore]
    exact h.core
  · rw [hcore]

lemma cleared_run (hinside : u.insideReset = false) (k : ℕ) :
    (u.runReset f (k + 2052)).Cleared .resetWait4Ack ∧ (u.runReset f (k + 2052)).core.Quiet := by
  induction k with
  | zero =>
    obtain ⟨hcleared, hdone⟩ := (clearing_run (f := f) (n := 2047) hinside le_rfl).clock_zero
      (f 2050)
    exact hcleared.clock (f 2051) (.inl ⟨rfl, hdone⟩)
  | succ k ih =>
    have hnext : u.runReset f (k + 1 + 2052) =
        (u.runReset f (k + 2052)).clock (resetBus true (f (k + 2052))) := by
      rw [Nat.add_right_comm, runReset]
    rw [hnext]
    exact ih.1.clock _ (.inr rfl)

structure Ready (u : UserLogic) : Prop where
  state : u.state = .idle
  requests : u.requests = .none
  ack : u.ack = false
  quiet : u.core.Quiet
  table : ∀ a, u.core.contents a = 0

lemma Cleared.release (h : u.Cleared .resetWait4Ack) (hquiet : u.core.Quiet) (full : Bool) :
    (u.clock (resetBus false full)).Ready := by
  have hdrive : u.masterDrive (resetBus false full) = { next := .idle, insideReset := false } := by
    simp [masterDrive, h.state]
  have hsame :=
    (hquiet.clock (x := u.lines (resetBus false full)) (congrArg MasterDrive.cmd hdrive)).1
  have hcore : (u.clock (resetBus false full)).core = u.core := by
    simp only [UserLogic.clock, hdrive, Bool.false_eq_true, if_false, hsame]
  refine ⟨?_, rfl, ?_, ?_, ?_⟩
  · simp [UserLogic.clock, hdrive]
  · simp [UserLogic.clock, hdrive]
  · rw [hcore]
    exact hquiet
  · rw [hcore]
    exact h.cleared

/-- A soft reset that is held long enough, and then released, makes the interface ready. -/
theorem ready_after_reset (hinside : u.insideReset = false) (hn : 2052 ≤ n) (full : Bool) :
    ((u.runReset f n).clock (resetBus false full)).Ready := by
  obtain ⟨k, rfl⟩ := Nat.exists_eq_add_of_le' hn
  obtain ⟨hcleared, hquiet⟩ := cleared_run (f := f) hinside k
  exact hcleared.release hquiet full

end UserLogic

end Hthreads.CondVars
