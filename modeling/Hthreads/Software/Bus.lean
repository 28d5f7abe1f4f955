import Hthreads.Cores.Allocation
import Hthreads.Library.Program
import Hthreads.Software.SchedParam

/-! The accesses of the kernel to the thread manager and the scheduler, and the fields it cuts out
of their answers (`manager/hardware.h`, `scheduler/hardware.h`). -/

namespace Hthreads.Software

open Library Library.BitFields Scheduler ThreadManager Cores

inductive BusAccess
  | manager (cmd : Cores.Command)
  | setSchedParam (tid : ThreadId) (param : Word)
  | checkSchedParam (tid : ThreadId)
  | schedEntry (tid : ThreadId)

abbrev Syscall := Program BusAccess Word

-- what the thread manager shows to the scheduler
def environment (b : Books) : Environment := ⟨b.cpu, b.entry⟩

/-- One access on what the two cores remember. The answer to a write is not looked at. -/
def bookAccess : BusAccess → Books → Option (Books × Word)
  | .manager cmd, b => cmd.effect b
  | .setSchedParam tid param, b =>
    some ({ b with ready :=
      (Scheduler.Command.setSchedParam tid param).effect (environment b) b.ready }, 0)
  | .checkSchedParam tid, b => some (b, b.ready.checkSchedParam tid)
  | .schedEntry tid, b => some (b, b.ready.thread tid)

def machineAccess : BusAccess → Managed → Option (Managed × Word)
  | .manager cmd, a => a.execute cmd
  | .setSchedParam tid param, a =>
    some ({ a with ready :=
      (Scheduler.Command.setSchedParam tid param).effect (environment a.books) a.ready }, 0)
  | .checkSchedParam tid, a => some (a, a.ready.checkSchedParam tid)
  | .schedEntry tid, a => some (a, a.ready.thread tid)

-- the machine is between two commands, with these books
structure Rests (a : Managed) (b : Books) : Prop where
  atRest : a.AtRest
  books : a.books = b

lemma access_alike (i : BusAccess) (a : Managed) (b : Books) (h : Rests a b) :
    Program.Alike Rests (machineAccess i a) (bookAccess i b) := by
  obtain ⟨hrest, rfl⟩ := h
  cases i with
  | manager cmd =>
    simp only [machineAccess, bookAccess]
    cases heff : cmd.effect a.books with
    | none =>
      rw [execute_none hrest heff]
      exact .none
    | some p =>
      obtain ⟨a', hexec, hrest', hbooks⟩ := execute_some hrest (b := p.1) (w := p.2) heff
      rw [hexec]
      exact .some ⟨⟨hrest', hbooks⟩, rfl⟩
  | setSchedParam tid param => exact .some ⟨⟨⟨hrest.state, hrest.request⟩, rfl⟩, rfl⟩
  | checkSchedParam tid => exact .some ⟨⟨hrest, rfl⟩, rfl⟩
  | schedEntry tid => exact .some ⟨⟨hrest, rfl⟩, rfl⟩

/-- The kernel runs on the machine as it runs on the books of the machine. -/
lemma run_machine {α : Type} (p : Syscall α) {a a' : Managed} (h : a.AtRest) {r : α}
    (hrun : p.run machineAccess a = some (a', r)) :
    a'.AtRest ∧ p.run bookAccess a.books = some (a'.books, r) := by
  have halike := p.run_alike access_alike ⟨h, rfl⟩
  rw [hrun] at halike
  obtain ⟨b, hbooks, hrest⟩ := halike.exists_right
  rw [hrest.books]
  exact ⟨hrest.atRest, hbooks⟩

lemma run_machine_of_books {α : Type} (p : Syscall α) {a : Managed} (h : a.AtRest) {b : Books}
    {r : α} (hrun : p.run bookAccess a.books = some (b, r)) :
    ∃ a', p.run machineAccess a = some (a', r) ∧ a'.AtRest ∧ a'.books = b := by
  have halike := p.run_alike access_alike ⟨h, rfl⟩
  rw [hrun] at halike
  obtain ⟨a', hmachine, hrest⟩ := halike.exists_left
  exact ⟨a', hmachine, hrest.atRest, hrest.books⟩

def threadShift : ℕ := 1
def threadMask : Huint := 0x000000FF

def extractId (status : Huint) : Huint := (status >>> threadShift) &&& threadMask

section Fields

lemma getLsbD_extractId (status : Huint) (i : ℕ) :
    (extractId status).getLsbD i = (decide (i < 8) && status.getLsbD (1 + i)) := by
  have hmask : threadMask.getLsbD i = decide (i < 8) := by
    have hpow : threadMask = BitVec.ofNat 32 (2 ^ 8 - 1) := rfl
    rw [hpow, BitVec.getLsbD_ofNat, Nat.testBit_two_pow_sub_one]
    by_cases hi : i < 8
    · rw [decide_eq_true hi, decide_eq_true (by omega : i < 32)]
      rfl
    · rw [decide_eq_false hi, Bool.and_false]
  rw [extractId, BitVec.getLsbD_and, hmask, threadShift, BitVec.getLsbD_ushiftRight, Bool.and_comm]

lemma extractId_named (x : BitVec 9) : extractId (0#23 ++ x) = (slice x 0 8).setWidth 32 := by
  apply BitVec.eq_of_getLsbD_eq
  intro i hi
  rw [getLsbD_extractId, BitVec.getLsbD_append, BitVec.getLsbD_setWidth, getLsbD_slice,
    decide_eq_true hi, Bool.true_and]
  by_cases h8 : i < 8
  · rw [if_pos (by omega : 1 + i < 9)]
  · rw [decide_eq_false h8, Bool.false_and, Bool.false_and]

lemma hasError_eq (status : Huint) : hasError status = status.getLsbD 0 := by
  have hand : status &&& errBit = if status.getLsbD 0 then 1 else 0 := by
    apply BitVec.eq_of_getLsbD_eq
    intro i _
    rw [BitVec.getLsbD_and, errBit]
    by_cases hi : i = 0
    · rw [hi]
      cases status.getLsbD 0 <;> rfl
    · cases h : status.getLsbD 0 <;> simp [BitVec.getLsbD_one, hi]
  rw [hasError, hand]
  cases status.getLsbD 0 <;> rfl

end Fields

end Hthreads.Software
