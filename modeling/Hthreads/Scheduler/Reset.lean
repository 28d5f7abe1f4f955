import Hthreads.Scheduler.Commands

/-! The soft reset clears the three tables one address a cycle. -/

namespace Hthreads.Scheduler

open Library Library.BitFields Hthreads.Scheduler.Core

/-- The declared initial values; signals declared without one are zero. -/
def Core.powerUp : Core where
  regs := { Registers.softReset with currentStateMaster := .idle, insideReset := false }
  requests := ⟨none, none⟩
  threadData := ⟨fun _ => 0, 0⟩
  priorityData := ⟨fun _ => 0, 0⟩
  paramData := ⟨fun _ => 0, 0⟩
  swtmDob := 0
  encoder := .init
  resetAddr := 0
  sch2tmData := 0
  ip2busData := 0
  ip2busAck := false
  mstCmd := .free

def Core.softReset (e : Environment) (c : Core) : Core :=
  runUntil Core.clock (inState .idle) (fun _ => e.quietLines) 2 0
    (runUntil Core.clock (inState (.reset .resetWait4Ack)) (fun _ => e.resetLines) 300 0
      (c.clock e.resetLines))

def resetEntry (addr : BitVec 9) : Word := setPriority 0b1000000 (0#23 ++ addr)

def Tables.initial : Tables where
  thread tid := resetEntry (threadAddr tid)
  priority _ := 0
  param _ := 0
  encoderInput _ := false
  encoderOutput := 0
  nextThreadId := 0
  nextThreadValid := false
  idleThreadId := 0
  idleThreadValid := false

lemma threadAddr_toNat_lt (tid : ThreadId) : (threadAddr tid).toNat < 256 := by
  have h := tid.isLt
  rw [threadAddr, BitVec.toNat_append]
  simpa using h

lemma priorityAddr_toNat_lt (p : Priority) : (priorityAddr p).toNat < 256 := by
  have h := p.isLt
  rw [priorityAddr, BitVec.toNat_append]
  simp only [BitVec.toNat_ofNat, Nat.zero_mod, Nat.zero_shiftLeft, Nat.zero_or]
  omega

lemma mstCmd_settles {l : Lines} (hr : l.bus2ipReset = false) (hc : l.bus2ipMstCmplt = true)
    (m : MstCmd) : (fun m => MstCmd.clock l false 0 m)^[3] m = .free := by
  cases hs : m.state <;> simp [MstCmd.clock, MstCmd.free, hr, hc, hs]

-- the tables are cleared below address `k`
structure Clearing (e : Environment) (s : ResetState) (k : ℕ) (c : Core) : Prop where
  regs : c.regs = { Registers.softReset with currentStateMaster := .reset s }
  encoder : c.encoder = Encoder.init
  resetAddr : c.resetAddr = BitVec.ofNat 9 k
  thread : ∀ a : BitVec 9, a.toNat < k → c.threadData.data a = resetEntry a
  priority : ∀ a : BitVec 9, a.toNat < k → c.priorityData.data a = 0
  param : ∀ a : BitVec 9, a.toNat < k → c.paramData.data a = 0
  mstCmd : ∃ m, c.mstCmd = (fun m => MstCmd.clock e.resetLines false 0 m)^[k] m

lemma clearing_begin (e : Environment) {c : Core} (h : c.regs.insideReset = false) :
    Clearing e .resetBram 0 ((c.clock e.resetLines).clock e.resetLines) := by
  have hs : e.resetLines.softReset = true := rfl
  refine ⟨?_, ?_, ?_, ?_, ?_, ?_, ⟨_, rfl⟩⟩
  · simp [Core.clock, Core.drive, Core.signals, masterLogic, resetLogic, Registers.softReset, h, hs]
  · simp [Core.clock, Core.drive, Core.signals, masterLogic, resetLogic, Registers.softReset, h, hs,
      Encoder.clock]
  · simp [Core.clock, Core.drive, Core.signals, masterLogic, resetLogic, Registers.softReset, h, hs]
  all_goals
    intro a ha
    omega

lemma update_below {v : Word} {data f : BitVec 9 → Word} {k : ℕ}
    (hd : ∀ a : BitVec 9, a.toNat < k → data a = f a) (hv : v = f (BitVec.ofNat 9 k))
    (a : BitVec 9) (ha : a.toNat < k + 1) :
    Function.update data (BitVec.ofNat 9 k) v a = f a := by
  by_cases h : a = BitVec.ofNat 9 k
  · rw [h, Function.update_self, hv]
  · rw [Function.update_of_ne h]
    apply hd
    have hne : a.toNat ≠ k := by
      intro heq
      apply h
      rw [← heq, BitVec.ofNat_toNat, BitVec.setWidth_eq]
    omega

lemma clearing_step {e : Environment} {k : ℕ} {c : Core} (hk : k < 256)
    (h : Clearing e .resetBram k c) :
    Clearing e (if k = 255 then .resetWait4Ack else .resetBram) (k + 1) (c.clock e.resetLines) := by
  obtain ⟨hregs, henc, haddr, ht, hp, hu, m, hm⟩ := h
  have hlast : c.resetAddr = 0b011111111 ↔ k = 255 := by
    rw [haddr, ← BitVec.toNat_inj, BitVec.toNat_ofNat, Nat.mod_eq_of_lt (by omega)]
    rfl
  have hdrive : c.drive e.resetLines = resetLogic (c.signals e.resetLines) c.regs .resetBram := by
    simp only [Core.drive, masterLogic, hregs]
    rfl
  have hreset : (e.resetLines.softReset && !c.regs.insideReset) = false := by
    rw [hregs]
    rfl
  refine ⟨?_, ?_, ?_, ?_, ?_, ?_, ⟨m, ?_⟩⟩
  · simp only [Core.clock, hreset, hdrive, Bool.false_eq_true, if_false]
    simp only [resetLogic, Core.signals, hlast, hregs]
    split <;> rfl
  · simp only [Core.clock, hdrive, resetLogic, hregs, henc]
    rfl
  · simp only [Core.clock, hreset, hdrive, resetLogic, Core.signals, haddr]
    exact (BitVec.ofNat_add k 1).symm
  · simp only [Core.clock, hdrive, resetLogic, Core.signals, haddr, Bram.clock_write]
    exact update_below ht rfl
  · simp only [Core.clock, hdrive, resetLogic, Core.signals, haddr, Bram.clock_write]
    exact update_below hp rfl
  · simp only [Core.clock, hdrive, resetLogic, Core.signals, haddr, Bram.clock_write]
    exact update_below hu rfl
  · simp only [Core.clock, hdrive, resetLogic, hm, Function.iterate_succ_apply']

lemma clearing_run {e : Environment} (n : ℕ) {k j : ℕ} {c : Core} (hk : k < 256)
    (hn : 256 ≤ k + n) (h : Clearing e .resetBram k c) :
    Clearing e .resetWait4Ack 256 (runUntil Core.clock (inState (.reset .resetWait4Ack))
      (fun _ => e.resetLines) n j c) := by
  induction n generalizing k j c with
  | zero => omega
  | succ n ih =>
    have hstop : c.inState (.reset .resetWait4Ack) = false := by
      rw [Core.inState, h.regs]
      rfl
    have hstep := clearing_step hk h
    rw [runUntil_step Core.clock _ n j hstop]
    by_cases hlast : k = 255
    · subst hlast
      have hdone : (c.clock e.resetLines).inState (.reset .resetWait4Ack) = true := by
        rw [Core.inState, hstep.regs]
        rfl
      rw [runUntil_stop Core.clock _ n (j + 1) hdone]
      exact hstep
    · rw [if_neg hlast] at hstep
      exact ih (by omega) (by omega) hstep

lemma clearing_release {e : Environment} {c : Core} (h : Clearing e .resetWait4Ack 256 c) :
    Executed (c.clock e.quietLines) .initial := by
  obtain ⟨hregs, henc, -, ht, hp, hu, m, hm⟩ := h
  have hfree : c.mstCmd = .free := by
    rw [hm, Function.iterate_add_apply _ 253 3 m, mstCmd_settles rfl rfl]
    exact Function.iterate_fixed (MstCmd.clock_free e.resetLines 0) 253
  have hs : e.quietLines.softReset = false := rfl
  have htables : (c.clock e.quietLines).tables = .initial := by
    have hthread : ∀ tid, c.threadData.data (threadAddr tid) = resetEntry (threadAddr tid) :=
      fun tid => ht _ (threadAddr_toNat_lt tid)
    have hpriority : ∀ p, c.priorityData.data (priorityAddr p) = 0 :=
      fun p => hp _ (priorityAddr_toNat_lt p)
    have hparam : ∀ tid, c.paramData.data (threadAddr tid) = 0 :=
      fun tid => hu _ (threadAddr_toNat_lt tid)
    simp [Core.tables, Tables.initial, Core.clock, Core.drive, masterLogic,
      resetLogic, Core.signals,
      hregs, henc, hs, Registers.softReset, Encoder.clock, Encoder.init, hthread, hpriority, hparam]
  refine ⟨⟨⟨?_, ?_, ?_, ?_⟩, ?_, ?_, ?_, rfl⟩, htables⟩
  all_goals
    simp [Core.clock, Core.drive, masterLogic, resetLogic, Core.signals, hregs, henc, hfree, hs,
      Registers.softReset, Encoder.clock, Encoder.init]

lemma softReset_eq (e : Environment) {c : Core} (h : c.regs.insideReset = false) :
    ∃ d, Clearing e .resetWait4Ack 256 d ∧ c.softReset e = d.clock e.quietLines := by
  have hfirst : (c.clock e.resetLines).inState (.reset .resetWait4Ack) = false := by
    have hs : e.resetLines.softReset = true := rfl
    simp [Core.inState, Core.clock, Registers.softReset, h, hs]
  have hclear := clearing_run 299 (j := 1) (by omega) (by omega) (clearing_begin e h)
  rw [← runUntil_step Core.clock (fun _ => e.resetLines) 299 0 hfirst] at hclear
  have hwait : inState .idle (runUntil Core.clock (inState (.reset .resetWait4Ack))
      (fun _ => e.resetLines) 300 0 (c.clock e.resetLines)) = false := by
    rw [Core.inState, hclear.regs]
    rfl
  have hidle := (clearing_release hclear).state
  refine ⟨_, hclear, ?_⟩
  rw [Core.softReset, runUntil_step Core.clock _ 1 0 hwait, runUntil_stop Core.clock]
  rw [Core.inState, hidle]
  rfl

lemma softReset_spec (e : Environment) {c : Core} (h : c.regs.insideReset = false) :
    Executed (c.softReset e) .initial := by
  obtain ⟨d, hclear, heq⟩ := softReset_eq e h
  rw [heq]
  exact clearing_release hclear

end Hthreads.Scheduler
