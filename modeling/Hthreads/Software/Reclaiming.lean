import Hthreads.Cores.Allocation
import Hthreads.Cores.WakeProtocol
import Hthreads.Software.SchedParam

/-! The three ways in which a thread ends, as the thread manager sees them: `_syscall_exit` on the
host, the boot loop of a slave (`proc_hw_thread_exit`) and `_syscall_exit` of the HAL. EXIT_THREAD
leaves the id of a detached thread to CLEAR_THREAD. -/

namespace Hthreads.Software

open Library Library.BitFields Scheduler ThreadManager Cores

/-- How far a thread is on its way out. The host asks whether it is detached before EXIT, the HAL
asks after it; both issue EXIT again when it fails. -/
inductive Stage
  | staying
  | asked (destroy : Bool)
  | again (destroy : Option Bool)
  | exited
  | leaving (destroy : Bool)
  | gone
  deriving DecidableEq

-- the HAL has no answer yet
def Stage.afterExit (destroy : Option Bool) (status : Word) : Stage :=
  if hasError status then again destroy
  else match destroy with
    | some destroy => leaving destroy
    | none => exited

def Stage.InProgress : Stage → Prop
  | staying | gone => False
  | asked _ | again _ | exited | leaving _ => True

/-- The thread manager and the exits that are going on. An id can have been given to a new thread
before the old one is through with its exit, so threads are told apart by a generation. -/
structure Exits where
  machine : Managed
  generation : ThreadId → ℕ
  stage : ThreadId → ℕ → Stage

namespace Exits

variable (s : Exits)

def books : Books := s.machine.books

def current (tid : ThreadId) : Stage := s.stage tid (s.generation tid)

def setStage (tid : ThreadId) (g : ℕ) (stage : Stage) : Exits :=
  { s with stage := Function.update s.stage tid (Function.update (s.stage tid) g stage) }

/-- A command that is part of no exit. CREATE begins a new generation of the id it returns. -/
def after (cmd : Cores.Command) (a : Managed) (w : Word) : Exits :=
  { s with
    machine := a
    generation := fun tid =>
      if (Event.mk s.books cmd w a.books).creates tid then s.generation tid + 1
      else s.generation tid }

def install (a : Managed) : Exits := { s with machine := a }

end Exits

/-- What is asked of the threads that a boot loop ends, and of every EXIT of the host and the HAL.
-/
structure ExitRules where
  boot : Books → ThreadId → Prop
  exit : Books → ThreadId → Prop

inductive Exits.Step (rules : ExitRules) : Exits → Exits → Prop
  | command {s : Exits} {cmd : Cores.Command} {a : Managed} {w : Word} :
    s.machine.execute cmd = some (a, w) → (∀ tid, cmd ≠ .exit tid) → Step rules s (s.after cmd a w)
  | ask {s : Exits} {tid : ThreadId} {a : Managed} {w : Word} :
    s.books.running tid = true → s.current tid = .staying →
    s.machine.execute (.isDetached tid) = some (a, w) →
    Step rules s ((s.install a).setStage tid (s.generation tid) (.asked (w != 0)))
  | exitHost {s : Exits} {tid : ThreadId} {g : ℕ} {destroy : Bool} {a : Managed} {w : Word} :
    s.stage tid g = .asked destroy → rules.exit s.books tid →
    s.machine.execute (.exit tid) = some (a, w) →
    Step rules s ((s.install a).setStage tid g (.afterExit (some destroy) w))
  | exitBoot {s : Exits} {tid : ThreadId} {a : Managed} {w : Word} :
    s.books.running tid = true → s.current tid = .staying → rules.boot s.books tid →
    s.machine.execute (.exit tid) = some (a, w) →
    Step rules s ((s.install a).setStage tid (s.generation tid) .gone)
  | exitHal {s : Exits} {tid : ThreadId} {a : Managed} {w : Word} :
    s.books.running tid = true → s.current tid = .staying → rules.exit s.books tid →
    s.machine.execute (.exit tid) = some (a, w) →
    Step rules s ((s.install a).setStage tid (s.generation tid) (.afterExit none w))
  | exitAgain {s : Exits} {tid : ThreadId} {g : ℕ} {destroy : Option Bool}
    {a : Managed} {w : Word} :
    s.stage tid g = .again destroy → rules.exit s.books tid →
    s.machine.execute (.exit tid) = some (a, w) →
    Step rules s ((s.install a).setStage tid g (.afterExit destroy w))
  | askHal {s : Exits} {tid : ThreadId} {g : ℕ} {a : Managed} {w : Word} :
    s.stage tid g = .exited → s.machine.execute (.isDetached tid) = some (a, w) →
    Step rules s ((s.install a).setStage tid g (.leaving (w != 0)))
  | clear {s : Exits} {tid : ThreadId} {g : ℕ} {a : Managed} {w : Word} :
    s.stage tid g = .leaving true → s.machine.execute (.clear tid) = some (a, w) →
    Step rules s ((s.install a).setStage tid g .gone)
  | leave {s : Exits} {tid : ThreadId} {g : ℕ} :
    s.stage tid g = .leaving false → Step rules s (s.setStage tid g .gone)

inductive Exits.Reachable (rules : ExitRules) : Exits → Prop
  | reset {a a' : Managed} : a.AtRest → a.softReset = some a' →
    Reachable rules ⟨a', fun _ => 0, fun _ _ => .staying⟩
  | step {s s' : Exits} : Reachable rules s → s.Step rules s' → Reachable rules s'

/-- The path of no thread between its first and its last command. -/
def Exits.Settled (s : Exits) : Prop := ∀ tid g, ¬ (s.stage tid g).InProgress

def allIds : List ThreadId := (List.range 256).map (BitVec.ofNat 8)

-- a joinable thread that has exited and waits to be joined
def waitsForJoin (b : Books) (tid : ThreadId) : Bool :=
  entryStatus (b.entry tid) == 0b10 && !entryDetached (b.entry tid)

/-- Ids come back: a detached thread that is gone does not use its id, ids that are not used are on
the free stack once, and when no exit is in progress the used ones are accounted for, so that CREATE
finds an id unless all of them stand for threads. -/
structure Reclaimed (s : Exits) : Prop where
  stack : Allocates s.books
  gone : ∀ tid, s.current tid = .gone → s.books.used tid = true →
    entryDetached (s.books.entry tid) = false
  count : s.Settled → allIds.countP s.books.used =
    allIds.countP s.books.running + allIds.countP (waitsForJoin s.books)
  create : s.Settled →
    allIds.countP s.books.running + allIds.countP (waitsForJoin s.books) < 256 →
    ∀ cmd a w, cmd = .createJ ∨ cmd = .createD → s.machine.execute cmd = some (a, w) →
      bit w 31 = false

def ExitRules.any : ExitRules := ⟨fun _ _ => True, fun _ _ => True⟩

/-- A boot loop ends joinable threads only, and no other EXIT is answered with an error. -/
def ExitRules.keeping : ExitRules :=
  ⟨fun b tid => entryDetached (b.entry tid) = false, fun b tid => hasError (b.exit tid).2 = false⟩

end Hthreads.Software
