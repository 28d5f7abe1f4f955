import Hthreads.Slaves.BootLoop
import Hthreads.Software.ReclaimRuns

/-! How the result of a thread and its execution time come to the thread that joins it: the writes
of the creator, of the three exit paths and of the bootstrap code, and the reads of `_syscall_join`
on the host, of `_syscall_join` of the HAL and of `thread_join`. -/

namespace Hthreads.Slaves

open Library Library.BitFields Scheduler ThreadManager Cores Software

/-- The fields of `threads[tid]` that are read after the thread has ended. `hardware` names the
V-HWTI of a thread on a slave. -/
structure Tcb where
  retval : Huint
  executionTime : Time
  hardware : Option ℕ

/-- How a thread ends: in the bootstrap code of the host or by `hthread_exit` there, in the boot
loop of a slave, or by `hthread_exit` of the HAL. -/
inductive Path
  | hostReturn
  | hostExit
  | boot
  | hal
  deriving DecidableEq

inductive Task
  | retval (value : Huint)
  | executionTime (time : Time)
  | hardware (place : Option ℕ)
  | result (value : Huint)
  | ask
  deriving DecidableEq

-- the writes of `_setup_thread`
def setupTasks (place : Option ℕ) : List Task := [.retval null, .executionTime 0, .hardware place]

/-- What is left to do before EXIT when a thread ends with this value after this time. -/
def Path.tasks (value : Huint) (time : Time) : Path → List Task
  | hostReturn => [.executionTime time, .ask, .retval value]
  | hostExit => [.ask, .retval value]
  | boot => .executionTime time :: if value ≠ null then [.result value, .retval value] else []
  | hal => [.retval value]

-- whether the thread returned from its start function
def Path.returns : Path → Bool
  | hostReturn | boot => true
  | hostExit | hal => false

def Path.onHost : Path → Bool
  | hostReturn | hostExit => true
  | boot | hal => false

/-- What a thread has returned from its start function or passed to `hthread_exit`, and how long it
has run. -/
structure Outcome where
  value : Huint
  time : Time
  returned : Bool

inductive Life
  | unborn
  | setup (place : Option ℕ) (todo : List Task)
  | running (place : Option ℕ)
  | exiting (path : Path) (place : Option ℕ) (destroy : Bool) (todo : List Task)
  | again (path : Path) (place : Option ℕ) (destroy : Bool)
  | exited
  | leaving (destroy : Bool)
  | gone

def Life.afterExit (path : Path) (place : Option ℕ) (destroy : Bool) (status : Word) : Life :=
  match path with
  | .boot => gone
  | .hostReturn | .hostExit =>
    if hasError status then again path place destroy else leaving destroy
  | .hal => if hasError status then again path place destroy else exited

/-- How far a join is. `value` is what was stored in `*retval`, if that was asked for. -/
inductive Phase
  | blocked
  | ready
  | located (place : Option ℕ)
  | stored (value : Option Huint)
  | clearing (value : Option Huint)
  | returned (value : Option Huint)
  | finished (value : Option Huint) (time : Time)

/-- The id is still the one of the thread that is joined. -/
def Phase.early : Phase → Bool
  | returned _ | finished _ _ => false
  | _ => true

def Phase.value : Phase → Option Huint
  | stored value | clearing value | returned value | finished value _ => value
  | blocked | ready | located _ => none

structure Joining where
  th : ThreadId
  generation : ℕ
  hal : Bool
  phase : Phase

def htAlreadyExited : Huint := 0x001

def extractError (status : Huint) : Huint := (status >>> 1) &&& 0x00000007

-- `none` is EINVAL
def joinPhase (status : Huint) : Option Phase :=
  if hasError status && extractError status != htAlreadyExited then none
  else if extractError status ≠ htAlreadyExited then some .blocked
  else some .ready

/-- The thread manager, the memory of the host, the result registers of the slaves, and the threads
and joins that are under way. Threads that have had the same id are told apart by a generation;
`outcome` and `writer` are only there to say what happened. -/
structure Results where
  machine : Managed
  generation : ThreadId → ℕ
  life : ThreadId → ℕ → Life
  outcome : ThreadId → ℕ → Option Outcome
  tcb : ThreadId → Tcb
  result : ℕ → Huint
  writer : ℕ → Option (ThreadId × ℕ)
  joins : ℕ → Option Joining

namespace Results

variable (s : Results)

def books : Books := s.machine.books

def install (a : Managed) : Results := { s with machine := a }

def setLife (tid : ThreadId) (g : ℕ) (life : Life) : Results :=
  { s with life := Function.update s.life tid (Function.update (s.life tid) g life) }

def setOutcome (tid : ThreadId) (g : ℕ) (o : Outcome) : Results :=
  { s with outcome := Function.update s.outcome tid (Function.update (s.outcome tid) g (some o)) }

def setPhase (k : ℕ) (j : Joining) (phase : Phase) : Results :=
  { s with joins := Function.update s.joins k (some { j with phase := phase }) }

end Results

def Task.apply (t : Tcb) : Task → Tcb
  | retval value => { t with retval := value }
  | executionTime time => { t with executionTime := time }
  | hardware place => { t with hardware := place }
  | result _ | ask => t

-- the result register that a write goes to
def Task.register (place : Option ℕ) : Task → Option (ℕ × Huint)
  | result value => place.map fun p => (p, value)
  | _ => none

/-- One write for a thread, to its entry or to the result register of its slave. -/
def Results.perform (s : Results) (tid : ThreadId) (g : ℕ) (place : Option ℕ) (task : Task) :
    Results :=
  { s with
    tcb := Function.update s.tcb tid (task.apply (s.tcb tid))
    result := match task.register place with
      | some (p, value) => Function.update s.result p value
      | none => s.result
    writer := match task.register place with
      | some (p, _) => Function.update s.writer p (some (tid, g))
      | none => s.writer }

def Results.bear (s : Results) (place : Option ℕ) (cmd : Cores.Command) (a : Managed) (w : Word) :
    Results :=
  { s with
    machine := a
    generation := fun tid =>
      if (Event.mk s.books cmd w a.books).creates tid then s.generation tid + 1
      else s.generation tid
    life := fun tid =>
      if (Event.mk s.books cmd w a.books).creates tid then
        Function.update (s.life tid) (s.generation tid + 1) (.setup place (setupTasks place))
      else s.life tid }

-- commands that change nothing in the entry of a thread
def quiet : Cores.Command → Bool
  | .add _ | .next | .yield | .isQueued _ | .isDetached _ | .read _ | .current => true
  | .createJ | .createD | .clear _ | .join _ | .exit _ => false

/-- What is asked of the steps of a run. -/
structure ResultRules where
  exit : Books → ThreadId → Prop
  ask : Results → ThreadId → ℕ → Prop
  join : Results → ThreadId → Prop
  resume : Results → Joining → Prop
  result : Results → Joining → ℕ → Prop
  time : Results → Joining → Prop

inductive Results.Step (rules : ResultRules) : Results → Results → Prop
  | command {s : Results} {cmd : Cores.Command} {a : Managed} {w : Word} :
    quiet cmd = true → s.machine.execute cmd = some (a, w) → Step rules s (s.install a)
  | create {s : Results} {cmd : Cores.Command} {place : Option ℕ} {a : Managed} {w : Word} :
    cmd = .createJ ∨ cmd = .createD → s.machine.execute cmd = some (a, w) →
    Step rules s (s.bear place cmd a w)
  | setup {s : Results} {tid : ThreadId} {g : ℕ} {place : Option ℕ} {task : Task}
    {todo : List Task} :
    s.life tid g = .setup place (task :: todo) →
    Step rules s ((s.perform tid g place task).setLife tid g (.setup place todo))
  | start {s : Results} {tid : ThreadId} {g : ℕ} {place : Option ℕ} :
    s.life tid g = .setup place [] → Step rules s (s.setLife tid g (.running place))
  | finish {s : Results} {tid : ThreadId} {g : ℕ} {place : Option ℕ} {path : Path}
    {value : Huint} {time : Time} :
    s.life tid g = .running place → path.onHost = place.isNone →
    Step rules s ((s.setOutcome tid g ⟨value, time, path.returns⟩).setLife tid g
      (.exiting path place false (path.tasks value time)))
  | write {s : Results} {tid : ThreadId} {g : ℕ} {path : Path} {place : Option ℕ}
    {destroy : Bool} {task : Task} {todo : List Task} :
    s.life tid g = .exiting path place destroy (task :: todo) → task ≠ .ask →
    Step rules s ((s.perform tid g place task).setLife tid g (.exiting path place destroy todo))
  | ask {s : Results} {tid : ThreadId} {g : ℕ} {path : Path} {place : Option ℕ} {destroy : Bool}
    {todo : List Task} {a : Managed} {w : Word} :
    s.life tid g = .exiting path place destroy (.ask :: todo) →
    s.machine.execute (.isDetached tid) = some (a, w) →
    Step rules s ((s.install a).setLife tid g (.exiting path place (w != 0) todo))
  | exit {s : Results} {tid : ThreadId} {g : ℕ} {path : Path} {place : Option ℕ}
    {destroy : Bool} {a : Managed} {w : Word} :
    s.life tid g = .exiting path place destroy [] → rules.exit s.books tid →
    s.machine.execute (.exit tid) = some (a, w) →
    Step rules s ((s.install a).setLife tid g (.afterExit path place destroy w))
  | exitAgain {s : Results} {tid : ThreadId} {g : ℕ} {path : Path} {place : Option ℕ}
    {destroy : Bool} {a : Managed} {w : Word} :
    s.life tid g = .again path place destroy → rules.exit s.books tid →
    s.machine.execute (.exit tid) = some (a, w) →
    Step rules s ((s.install a).setLife tid g (.afterExit path place destroy w))
  | askHal {s : Results} {tid : ThreadId} {g : ℕ} {a : Managed} {w : Word} :
    s.life tid g = .exited → rules.ask s tid g →
    s.machine.execute (.isDetached tid) = some (a, w) →
    Step rules s ((s.install a).setLife tid g (.leaving (w != 0)))
  | clear {s : Results} {tid : ThreadId} {g : ℕ} {a : Managed} {w : Word} :
    s.life tid g = .leaving true → s.machine.execute (.clear tid) = some (a, w) →
    Step rules s ((s.install a).setLife tid g .gone)
  | leave {s : Results} {tid : ThreadId} {g : ℕ} :
    s.life tid g = .leaving false → Step rules s (s.setLife tid g .gone)
  | join {s : Results} {k : ℕ} {th : ThreadId} {hal : Bool} {phase : Phase} {a : Managed}
    {w : Word} :
    s.joins k = none → rules.join s th → s.machine.execute (.join th) = some (a, w) →
    joinPhase w = some phase →
    Step rules s ((s.install a).setPhase k ⟨th, s.generation th, hal, phase⟩ phase)
  | joinRefused {s : Results} {th : ThreadId} {a : Managed} {w : Word} :
    s.machine.execute (.join th) = some (a, w) → joinPhase w = none →
    Step rules s (s.install a)
  | resume {s : Results} {k : ℕ} {j : Joining} :
    s.joins k = some j → j.phase = .blocked → rules.resume s j →
    Step rules s (s.setPhase k j .ready)
  | skip {s : Results} {k : ℕ} {j : Joining} :
    s.joins k = some j → j.phase = .ready → Step rules s (s.setPhase k j (.stored none))
  | fetch {s : Results} {k : ℕ} {j : Joining} :
    s.joins k = some j → j.hal = false → j.phase = .ready →
    Step rules s (s.setPhase k j (.stored (some (s.tcb j.th).retval)))
  | locate {s : Results} {k : ℕ} {j : Joining} :
    s.joins k = some j → j.hal = true → j.phase = .ready →
    Step rules s (s.setPhase k j (.located (s.tcb j.th).hardware))
  | fetchHost {s : Results} {k : ℕ} {j : Joining} :
    s.joins k = some j → j.phase = .located none →
    Step rules s (s.setPhase k j (.stored (some (s.tcb j.th).retval)))
  | fetchSlave {s : Results} {k p : ℕ} {j : Joining} :
    s.joins k = some j → j.phase = .located (some p) → rules.result s j p →
    Step rules s (s.setPhase k j (.stored (some (s.result p))))
  | askJoin {s : Results} {k : ℕ} {j : Joining} {value : Option Huint} {a : Managed} {w : Word} :
    s.joins k = some j → j.phase = .stored value →
    s.machine.execute (.isDetached j.th) = some (a, w) →
    Step rules s ((s.install a).setPhase k j
      (if w = 0 then .clearing value else .returned value))
  | clearJoin {s : Results} {k : ℕ} {j : Joining} {value : Option Huint} {a : Managed} {w : Word} :
    s.joins k = some j → j.phase = .clearing value →
    s.machine.execute (.clear j.th) = some (a, w) →
    Step rules s ((s.install a).setPhase k j (.returned value))
  | time {s : Results} {k : ℕ} {j : Joining} {value : Option Huint} :
    s.joins k = some j → j.hal = false → j.phase = .returned value → rules.time s j →
    Step rules s (s.setPhase k j (.finished value (s.tcb j.th).executionTime))

def Results.start (a : Managed) (tcb : ThreadId → Tcb) (result : ℕ → Huint) : Results where
  machine := a
  generation _ := 0
  life _ _ := .unborn
  outcome _ _ := none
  tcb := tcb
  result := result
  writer _ := none
  joins _ := none

inductive Results.Reachable (rules : ResultRules) : Results → Prop
  | reset {a a' : Managed} {tcb : ThreadId → Tcb} {result : ℕ → Huint} :
    a.AtRest → a.softReset = some a' → Reachable rules (.start a' tcb result)
  | step {s s' : Results} : Reachable rules s → s.Step rules s' → Reachable rules s'

/-- A join brings what its child returned, and the time that its child took. -/
structure Results.Delivered (s : Results) : Prop where
  value : ∀ k j v, s.joins k = some j → j.phase.value = some v →
    ∃ o, s.outcome j.th j.generation = some o ∧ v = o.value
  time : ∀ k j v t, s.joins k = some j → j.phase = .finished v t →
    ∃ o, s.outcome j.th j.generation = some o ∧ t = o.time

def ResultRules.any : ResultRules :=
  ⟨fun _ _ => True, fun _ _ _ => True, fun _ _ => True, fun _ _ => True, fun _ _ _ => True,
    fun _ _ => True⟩

/-- No EXIT is answered with an error, the HAL asks about a detached thread before its id is given
away, joins of one thread do not overlap and wait for its EXIT. The HAL reads a result register that
the child was the last to write, and `thread_join` reads the time of a child that returned before
its id is given away. -/
def ResultRules.keeping : ResultRules where
  exit b tid := hasError (b.exit tid).2 = false
  ask s tid g := s.generation tid = g
  join s th := ∀ k j, s.joins k = some j → j.phase.early = true → j.th ≠ th
  resume s j := s.books.running j.th = false
  result s j p := s.writer p = some (j.th, j.generation)
  time s j := s.generation j.th = j.generation ∧
    ∀ o, s.outcome j.th j.generation = some o → o.returned = true

end Hthreads.Slaves
