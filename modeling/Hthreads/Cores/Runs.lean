import Hthreads.Cores.Transactions

/-! Runs of thread manager commands from a soft reset, which fills the free-id stack one address a
cycle, and what they preserve. -/

namespace Hthreads.Cores

open Library Library.BitFields Scheduler ThreadManager

section Reset

open Managed

def freshEntry (addr : BitVec 9) : Word := if bit addr 0 then 0 else slice addr 1 8 ++ 0#24

def Books.initial : Books where
  table := freshEntry
  nextId := 0
  currentCpuThread := 0b000000001
  ready := .initial

/-- Soft reset, then soft start; the scheduler's own reset builds its initial tables. -/
def Managed.softReset (a : Managed) : Option Managed := do
  let (a, _) ← a.transact (.write cSoftReset 1)
  let (a, _) ← a.transact (.write cSoftStart 0)
  some { a with ready := .initial }

-- the table is filled below address `k`
structure Filling (k : ℕ) (a : Managed) : Prop where
  state : a.tm.regs.currentState = .softReset .initTable
  request : a.tm.regs.tm2schRequest = false
  nextId : a.tm.regs.nextId = 0
  current : a.tm.regs.currentCpuThread = 0b000000001
  softResets : a.tm.regs.softResets = 0b00001
  resetId : a.tm.resetId = BitVec.ofNat 9 k
  table : ∀ addr : BitVec 9, addr.toNat < k → a.tm.threadTable.data addr = freshEntry addr

section Filling

attribute [local simp] Managed.clock acked Managed.inState Swtm.clock Swtm.drive Swtm.signals
  swtmLogic ThreadManager.idleLogic writeLogic softResetLogic finish

variable {a : Managed}

def resetLines : BusLines := .write cSoftReset 1

lemma filling_begin (h : a.AtRest) : Filling 0 ((a.clock resetLines).clock resetLines) := by
  have hcmd : resetLines.command = cSoftReset := by decide
  have hwr : resetLines.bus2ipWrCE = true := rfl
  have hrst : resetLines.bus2ipReset = false := rfl
  have hdata : resetLines.bus2ipData = 1#32 := rfl
  have hbit : bit (1#32) 31 = true := by decide
  have hmask : slice (1#32) 27 5 = 1#5 := by decide
  have h1 : ¬ cSoftReset = cSoftStart := by decide
  have h2 : ¬ cSoftReset = cSoftStop := by decide
  refine ⟨?_, ?_, ?_, ?_, ?_, ?_, ?_⟩
  all_goals
    simp [h.state, hcmd, hwr, hrst, hdata, hbit, hmask, h1, h2]

lemma filling_table {k : ℕ} (h : Filling k a) (addr : BitVec 9) (ha : addr.toNat < k + 1) :
    (a.clock resetLines).tm.threadTable.data addr = freshEntry addr := by
  have htable : (a.clock resetLines).tm.threadTable.data =
      Function.update a.tm.threadTable.data (BitVec.ofNat 9 k) (freshEntry (BitVec.ofNat 9 k)) := by
    simp [h.state, h.resetId, freshEntry]
  rw [htable]
  exact update_below h.table rfl addr ha

lemma filling_step {k : ℕ} (hk : k < 511) (h : Filling k a) :
    Filling (k + 1) (a.clock resetLines) := by
  have hlast : ¬ BitVec.ofNat 9 k = 511#9 := by
    intro heq
    have hnat := congrArg BitVec.toNat heq
    rw [BitVec.toNat_ofNat, BitVec.toNat_ofNat, Nat.mod_eq_of_lt (by omega)] at hnat
    omega
  have hrst : resetLines.bus2ipReset = false := rfl
  have hregs : (a.clock resetLines).tm.regs = a.tm.regs := by
    simp [h.state, h.resetId, hrst, hlast]
  refine ⟨hregs ▸ h.state, hregs ▸ h.request, hregs ▸ h.nextId, hregs ▸ h.current,
    hregs ▸ h.softResets, ?_, filling_table h⟩
  simp [h.state, h.resetId]
  exact (BitVec.ofNat_add k 1).symm

lemma filling_end (h : Filling 511 a) :
    Ended ((a.clock resetLines).clock resetLines) { Books.initial with ready := a.ready }
      a.tm.regs.busDataOut := by
  have htable : (a.clock resetLines).tm.threadTable.data = freshEntry := by
    funext addr
    exact filling_table h addr addr.isLt
  have hrst : resetLines.bus2ipReset = false := rfl
  have hregs : (a.clock resetLines).tm.regs =
      { a.tm.regs with swtmResetDone := true, currentState := .softReset .wait } := by
    simp [h.state, h.resetId, hrst]
  have hdone : (a.clock resetLines).tm.resetsDone = 0b00001 := by
    simp [h.state, h.resetId]
    decide
  have hready : (a.clock resetLines).ready = a.ready := by simp [h.state]
  generalize a.clock resetLines = c at htable hregs hdone hready ⊢
  refine ⟨?_, ?_, ?_, ?_⟩
  all_goals
    simp [hdone, hrst, Managed.books, Books.initial, hregs, h.softResets, h.request, h.nextId,
      h.current, htable, hready]

lemma filling_run (n : ℕ) {k j : ℕ} (hk : k ≤ 511) (hn : 513 ≤ k + n) (h : Filling k a) :
    ∃ w, Ended (runUntil Managed.clock acked (fun _ => resetLines) n j a)
      { Books.initial with ready := a.ready } w := by
  induction n generalizing k j a with
  | zero => omega
  | succ n ih =>
    have hstop : a.acked = false := by simp [h.state]
    rw [runUntil_step Managed.clock _ n j hstop]
    have hready : (a.clock resetLines).ready = a.ready := by simp [h.state]
    by_cases hlast : k = 511
    · subst hlast
      have hend := filling_end h
      obtain ⟨n, rfl⟩ : ∃ i, n = i + 1 := ⟨n - 1, by omega⟩
      have hnot : (a.clock resetLines).acked = false := by
        have hrst : resetLines.bus2ipReset = false := rfl
        simp [h.state, h.resetId, hrst]
      have hacked : ((a.clock resetLines).clock resetLines).acked = true := by
        rw [acked, Managed.inState, hend.state]
        rfl
      rw [runUntil_step Managed.clock _ n (j + 1) hnot, runUntil_stop Managed.clock _ n _ hacked]
      exact ⟨_, hend⟩
    · rw [← hready]
      exact ih (by omega) (by omega) (filling_step (by omega) h)

lemma transact_softReset (h : a.AtRest) : ∃ a' w, a.transact resetLines = some (a', w) ∧
    a'.AtRest ∧ a'.books = { Books.initial with ready := a.ready } := by
  have hfill := filling_begin h
  have hwr : resetLines.bus2ipWrCE = true := rfl
  have hrst : resetLines.bus2ipReset = false := rfl
  have hcmd : resetLines.command = cSoftReset := by decide
  have h1 : ¬ cSoftReset = cSoftStart := by decide
  have h2 : ¬ cSoftReset = cSoftStop := by decide
  have hready : ((a.clock resetLines).clock resetLines).ready = a.ready := by
    simp [h.state, hcmd, hwr, hrst, h1, h2]
  have hnot0 : a.acked = false := by simp [h.state]
  have hnot1 : (a.clock resetLines).acked = false := by simp [h.state, hcmd, hwr, hrst, h1, h2]
  obtain ⟨w, hend⟩ := filling_run 598 (j := 2) (by omega) (by omega) hfill
  rw [← runUntil_step Managed.clock (fun _ => resetLines) 598 1 hnot1,
    ← runUntil_step Managed.clock (fun _ => resetLines) 599 0 hnot0, hready] at hend
  have hacked : (runUntil Managed.clock acked (fun _ => resetLines) 600 0 a).acked = true := by
    rw [acked, Managed.inState, hend.state]
    rfl
  obtain ⟨hrest, hbooks⟩ := released hrst hend.request hacked
  exact ⟨_, _, transact_of_acked le_rfl hacked, hrest, hbooks.trans hend.books⟩

lemma transact_softStart (h : a.AtRest) : ∃ a' w, a.transact (.write cSoftStart 0) = some (a', w) ∧
    a'.AtRest ∧ a'.books = a.books := by
  obtain ⟨l, hl⟩ : ∃ l, BusLines.write cSoftStart 0 = l := ⟨_, rfl⟩
  have hwr : l.bus2ipWrCE = true := hl ▸ rfl
  have hrst : l.bus2ipReset = false := hl ▸ rfl
  have hcmd : l.command = cSoftStart := by
    rw [← hl]
    decide
  rw [hl]
  have hend : Ended (runUntil Managed.clock acked (fun _ => l) 3 0 a) a.books 0 := by
    simp [runUntil, h.state, hcmd, hwr, hrst]
    exact ⟨rfl, h.request, rfl, rfl⟩
  have hacked : (runUntil Managed.clock acked (fun _ => l) 3 0 a).acked = true := by
    rw [acked, Managed.inState, hend.state]
    rfl
  obtain ⟨hrest, hbooks⟩ := released hrst hend.request hacked
  exact ⟨_, _, transact_of_acked (by omega) hacked, hrest, hbooks.trans hend.books⟩

end Filling

lemma softReset_books {a : Managed} (h : a.AtRest) :
    ∃ a', a.softReset = some a' ∧ a'.AtRest ∧ a'.books = .initial := by
  obtain ⟨b, w, hb, hbrest, hbbooks⟩ := transact_softReset h
  obtain ⟨c, v, hc, hcrest, hcbooks⟩ := transact_softStart hbrest
  rw [resetLines] at hb
  refine ⟨{ c with ready := .initial }, ?_, ⟨hcrest.state, hcrest.request⟩, ?_⟩
  · rw [Managed.softReset, hb]
    simp only [Option.bind_eq_bind, Option.bind_some, hc]
  · rw [hbbooks] at hcbooks
    have htable := congrArg Books.table hcbooks
    have hnext := congrArg Books.nextId hcbooks
    have hcurrent := congrArg Books.currentCpuThread hcbooks
    simp only [Managed.books, Books.initial] at htable hnext hcurrent ⊢
    rw [htable, hnext, hcurrent]

end Reset

-- a guard on a command, read on the books the command meets
abbrev Guard := Command → Books → Prop

structure Event where
  before : Books
  command : Command
  word : Word
  after : Books

namespace Managed

inductive Reachable (guard : Guard) : Managed → Prop
  | reset {a a' : Managed} : a.AtRest → a.softReset = some a' → Reachable guard a'
  | step {a a' : Managed} {cmd : Command} {w : Word} :
    Reachable guard a → guard cmd a.books → a.execute cmd = some (a', w) → Reachable guard a'

inductive Run : Managed → List Event → Managed → Prop
  | nil (a : Managed) : Run a [] a
  | cons {a b c : Managed} {cmd : Command} {w : Word} {es : List Event} :
    a.execute cmd = some (b, w) → Run b es c → Run a (⟨a.books, cmd, w, b.books⟩ :: es) c

end Managed

namespace Books

def follow : List Command → Books → Option Books
  | [], b => some b
  | cmd :: cmds, b => cmd.effect b |>.bind fun p => follow cmds p.1

def trace : List Command → Books → Option (List Event)
  | [], _ => some []
  | cmd :: cmds, b =>
    cmd.effect b |>.bind fun p => (trace cmds p.1).map fun es => ⟨b, cmd, p.2, p.1⟩ :: es

def Allowed (guard : Guard) : List Command → Books → Prop
  | [], _ => True
  | cmd :: cmds, b => guard cmd b ∧ ∀ p ∈ cmd.effect b, Allowed guard cmds p.1

instance Allowed.decidable (guard : Guard) [∀ cmd b, Decidable (guard cmd b)] :
    ∀ cmds b, Decidable (Allowed guard cmds b)
  | [], _ => inferInstanceAs (Decidable True)
  | cmd :: cmds, b =>
    have (p : Books × Word) := Allowed.decidable guard cmds p.1
    inferInstanceAs (Decidable (_ ∧ ∀ p ∈ cmd.effect b, Allowed guard cmds p.1))

end Books

variable {guard : Guard} {a : Managed}

/-- What holds of the books after a soft reset and is kept by every command the guard lets
through holds of the books of every reachable machine. -/
lemma reachable_invariant {P : Books → Prop} (hinit : P .initial)
    (hstep : ∀ cmd b b' w, P b → guard cmd b → cmd.effect b = some (b', w) → P b')
    (ha : a.Reachable guard) : a.AtRest ∧ P a.books := by
  induction ha with
  | @reset a a' h hreset =>
    obtain ⟨c, hc, hrest, hbooks⟩ := softReset_books h
    rw [hreset] at hc
    cases hc
    exact ⟨hrest, hbooks ▸ hinit⟩
  | @step a a' cmd w _ hguard hexec ih =>
    obtain ⟨heff, hrest⟩ := execute_iff ih.1 hexec
    exact ⟨hrest, hstep cmd a.books a'.books w ih.2 hguard heff⟩

lemma Managed.Reachable.atRest (ha : a.Reachable guard) : a.AtRest :=
  (reachable_invariant (P := fun _ => True) trivial (fun _ _ _ _ _ _ _ => trivial) ha).1

lemma Managed.Reachable.follow (ha : a.Reachable guard) {cmds : List Command} {b : Books}
    (hcmds : a.books.Allowed guard cmds) (hb : a.books.follow cmds = some b) :
    ∃ a' : Managed, a'.Reachable guard ∧ a'.books = b := by
  induction cmds generalizing a with
  | nil => exact ⟨a, ha, Option.some.inj hb⟩
  | cons cmd cmds ih =>
    cases heff : cmd.effect a.books with
    | none =>
      rw [Books.follow, heff] at hb
      cases hb
    | some p =>
      obtain ⟨a', hexec, -, hbooks⟩ := execute_some ha.atRest (b := p.1) (w := p.2) heff
      rw [Books.follow, heff, Option.bind_some, ← hbooks] at hb
      have hrest := hcmds.2 p heff
      rw [← hbooks] at hrest
      exact ih (.step ha hcmds.1 hexec) hrest hb

lemma run_of_trace (ha : a.AtRest) {cmds : List Command} {es : List Event}
    (h : a.books.trace cmds = some es) : ∃ z, a.Run es z := by
  induction cmds generalizing a es with
  | nil =>
    cases h
    exact ⟨a, .nil a⟩
  | cons cmd cmds ih =>
    rw [Books.trace, Option.bind_eq_some_iff] at h
    obtain ⟨p, heff, h⟩ := h
    obtain ⟨es, htrace, rfl⟩ := Option.map_eq_some_iff.mp h
    obtain ⟨a', hexec, hrest, hbooks⟩ := execute_some ha (b := p.1) (w := p.2) heff
    rw [← hbooks] at htrace ⊢
    obtain ⟨z, hz⟩ := ih hrest htrace
    exact ⟨z, .cons hexec hz⟩

-- both cores as they leave the configuration of the device
def Managed.powerUp : Managed := ⟨Swtm.powerUp, .initial, 0⟩

/-- Commands that the guard lets through, one after the other from a soft reset, reach a machine
with the books they lead to. -/
lemma reachable_of_follow {cmds : List Command} {b : Books}
    (hcmds : Books.initial.Allowed guard cmds) (hb : Books.initial.follow cmds = some b) :
    ∃ a : Managed, a.Reachable guard ∧ a.books = b := by
  obtain ⟨a, ha, -, hbooks⟩ := softReset_books (a := .powerUp) ⟨rfl, rfl⟩
  rw [← hbooks] at hcmds hb
  exact Managed.Reachable.follow (.reset ⟨rfl, rfl⟩ ha) hcmds hb

end Hthreads.Cores
