import Hthreads.CondVars.Refinement
import Hthreads.Cores.DispatchResults
import Hthreads.Slaves.Results
import Hthreads.Software.Mutex
import Hthreads.Software.Switching

/-! The system calls of one processor, the hardware threads, the cores behind the bus and the
wake-up messages on their way to the thread manager. A step is one command on the bus. -/

namespace Hthreads.Kernel

open Library Library.BitFields Scheduler ThreadManager Cores Software

variable {m : ℕ}

/-- Where a thread leaves the processor: outside of the kernel, or in the `_run_sched` of a call. -/
inductive Point (m : ℕ)
  | user
  | joining (child : ThreadId)
  | locking (mutex : BitVec m)
  | waiting (cond : CondVars.Cvar) (mutex : BitVec m)
  | relocking (cond : CondVars.Cvar) (mutex : BitVec m)
  deriving DecidableEq

/-- How far the current thread is in its system call. `asleep` is in front of NEXT. -/
inductive Stage (m : ℕ)
  | user
  | created (child : ThreadId)
  | prepared (child : ThreadId)
  | reap (child : ThreadId)
  | waited (cond : CondVars.Cvar) (mutex : BitVec m)
  | relock (cond : CondVars.Cvar) (mutex : BitVec m)
  | asleep (p : Point m)
  | dying
  | leaving
  deriving DecidableEq

/-- SUCCESS of `_syscall_mutex_lock` and of `_syscall_cond_wait`. -/
inductive Answer (m : ℕ)
  | locked (thread : ThreadId) (mutex : BitVec m)
  | waited (thread : ThreadId) (cond : CondVars.Cvar) (mutex : BitVec m)
  deriving DecidableEq

/-- The commands of a thread on a slave. -/
inductive Call (m : ℕ)
  | lock (mutex : BitVec m)
  | tryLock (mutex : BitVec m)
  | unlock (mutex : BitVec m)
  | signal (cond : CondVars.Cvar)
  | broadcast (cond : CondVars.Cvar)
  | exit
  deriving DecidableEq

inductive Act (m : ℕ)
  | create (detached : Bool)
  | param (param : Word)
  | add
  | join (child : ThreadId)
  | clear
  | yield
  | exit
  | next
  | lock (mutex : BitVec m)
  | tryLock (mutex : BitVec m)
  | unlock (mutex : BitVec m)
  | wait (cond : CondVars.Cvar) (mutex : BitVec m)
  | release
  | relock
  | signal (cond : CondVars.Cvar)
  | broadcast (cond : CondVars.Cvar)
  | hardware (thread : ThreadId) (call : Call m)
  | deliver (thread : ThreadId)
  deriving DecidableEq

/-- `mail` holds the ids in the ADD_THREAD messages that the two synchronization cores have sent.
`started` says for which threads ADD_THREAD was accepted in `_syscall_create`. -/
structure Node (m : ℕ) where
  books : Books
  mutexes : SyncManager.Stores m
  conds : CondVars.Table
  mail : List ThreadId
  started : ThreadId → Bool
  saved : ThreadId → Point m
  stage : Stage m

namespace Node

variable (x : Node m)

def cpu : ThreadId := x.books.cpu
def idle : ThreadId := x.books.ready.idleThreadId
def software (t : ThreadId) : Bool := isSoftwareParam (x.books.ready.param t)
def detached (t : ThreadId) : Bool := entryDetached (x.books.entry t) && entryUsed (x.books.entry t)

def goto (s : Stage m) : Node m := { x with stage := s }

def save (t : ThreadId) (p : Point m) : Node m := { x with saved := Function.update x.saved t p }

def manager (cmd : Cores.Command) : Option (Node m × Word) :=
  (cmd.effect x.books).map fun (b, w) => ({ x with books := b }, w)

def request (r : SyncManager.Request m) : Node m :=
  { x with
    mutexes := (r.effect x.mutexes).stores
    mail := x.mail ++ (r.effect x.mutexes).sent }

def condition (c : CondVars.Command) : Node m :=
  { x with
    conds := (x.conds.execute c).2
    mail := x.mail ++ (x.conds.execute c).1 }

/-- A thread goes on behind the `_run_sched` that it stands in. -/
def resume (t : ThreadId) : Point m → Node m × Option (Answer m)
  | .user => (x.goto .user, none)
  | .joining c => (x.goto (.reap c), none)
  | .locking μ => (x.goto .user, some (.locked t μ))
  | .waiting κ μ => (x.goto (.relock κ μ), none)
  | .relocking κ μ => (x.goto .user, some (.waited t κ μ))

/-- What becomes of the processor at the end of `_run_sched` or of a yield at `p`. -/
def control (p : Point m) : Control → Node m × Option (Answer m)
  | .back => x.resume x.cpu p
  | .switch curr next _ =>
    let y := x.save (curr.setWidth 8) p
    y.resume (next.setWidth 8) (y.saved (next.setWidth 8))
  | .restore _ next _ => x.resume (next.setWidth 8) (x.saved (next.setWidth 8))

-- the two other reads of `_run_sched` are of the current thread, which NEXT alone changes
def runSched (save : Bool) (p : Point m) : Option (Node m × Option (Answer m)) :=
  ((Bus.runSched save).run bookAccess x.books).map fun (b, c) => { x with books := b }.control p c

def yield : Option (Node m × Option (Answer m)) :=
  (Bus.syscallYield.run bookAccess x.books).map fun (b, c) => { x with books := b }.control .user c

/-- `_syscall_mutex_lock` up to its `_run_sched`, whose place is `p`. -/
def lock (μ : BitVec m) (p : Point m) : Node m × Option (Answer m) :=
  let sta := ((SyncManager.Request.lock μ x.cpu).effect x.mutexes).data
  let y := x.request (.lock μ x.cpu)
  if sta = htMutexBlock then (y.goto (.asleep p), none)
  else if sta = success then y.resume x.cpu p
  else (y.goto .user, none)

def create (detached : Bool) : Option (Node m × Option (Answer m)) :=
  (x.manager (if detached then .createD else .createJ)).map fun (y, w) =>
    if hasError w then (y, none)
    else
      let t := (extractId w).setWidth 8
      ({ y with
        started := Function.update y.started t false
        saved := Function.update y.saved t .user
        stage := .created t }, none)

def param (t : ThreadId) (p : Word) : Node m :=
  { x with
    books := { x.books with
      ready := (Scheduler.Command.setSchedParam t p).effect (environment x.books) x.books.ready }
    stage := .prepared t }

-- behind a refused ADD both CLEARs are refused as well
def add (t : ThreadId) : Option (Node m × Option (Answer m)) :=
  (x.manager (.add t)).map fun (y, w) =>
    if hasError w then (y.goto .user, none)
    else ({ y with started := Function.update y.started t true, stage := .user }, none)

def join (c : ThreadId) : Option (Node m × Option (Answer m)) :=
  (x.manager (.join c)).map fun (y, w) =>
    match Slaves.joinPhase w with
    | some .blocked => (y.goto (.asleep (.joining c)), none)
    | some _ => (y.goto (.reap c), none)
    | none => (y, none)

-- the end of `_syscall_join`
def reap (c : ThreadId) : Option (Node m × Option (Answer m)) :=
  if x.detached c then some (x.goto .user, none)
  else (x.manager (.clear c)).map fun (y, _) => (y.goto .user, none)

-- the loop behind an EXIT that fails is left out
def exit : Option (Node m × Option (Answer m)) :=
  (x.manager (.exit x.cpu)).bind fun (y, w) =>
    if hasError w then none
    else some (y.goto (if x.detached x.cpu then .dying else .leaving), none)

/-- A hardware thread that does not wait for a GO. -/
def awake (h : ThreadId) : Bool :=
  x.books.running h && x.started h && !x.software h && x.saved h == .user

def perform (h : ThreadId) : Call m → Option (Node m)
  | .lock μ =>
    let y := x.request (.lock μ h)
    if ((SyncManager.Request.lock μ h).effect x.mutexes).data = htMutexBlock then
      some (y.save h (.locking μ))
    else some y
  | .tryLock μ => some (x.request (.tryLock μ h))
  | .unlock μ => some (x.request (.unlock μ h))
  | .signal κ => some (x.condition (.signal κ))
  | .broadcast κ => some (x.condition (.broadcast κ))
  | .exit => (x.manager (.exit h)).map Prod.fst

-- ENQUEUE of a hardware thread is the GO that it waits for
def deliver (t : ThreadId) : Option (Node m) :=
  if t ∈ x.mail then
    (x.manager (.add t)).map fun (y, _) =>
      let z := { y with mail := y.mail.erase t }
      if x.software t then z else z.save t .user
  else none

-- the idle thread calls `hthread_sched` over and over again
def calls (s : Option (Node m × Option (Answer m))) : Option (Node m × Option (Answer m)) :=
  if x.cpu = x.idle then none else s

def step (a : Act m) : Option (Node m × Option (Answer m)) :=
  match x.stage, a with
  | .user, .create detached => x.calls (x.create detached)
  | .created t, .param p => some (x.param t p, none)
  | .prepared t, .add => x.add t
  | .user, .join c => x.calls (x.join c)
  | .reap c, .clear => x.reap c
  | .user, .yield => x.yield
  | .user, .exit => x.calls x.exit
  | .dying, .clear => (x.manager (.clear x.cpu)).map fun (y, _) => (y.goto .leaving, none)
  | .leaving, .next => x.runSched false .user
  | .asleep p, .next => x.runSched true p
  | .user, .next => if x.cpu = x.idle then x.runSched true .user else none
  | .user, .lock μ => x.calls (some (x.lock μ (.locking μ)))
  | .user, .tryLock μ => x.calls (some (x.request (.tryLock μ x.cpu), none))
  | .user, .unlock μ => x.calls (some (x.request (.unlock μ x.cpu), none))
  | .user, .wait κ μ => x.calls (some ((x.condition (.wait κ x.cpu)).goto (.waited κ μ), none))
  | .waited κ μ, .release =>
    some ((x.request (.unlock μ x.cpu)).goto (.asleep (.waiting κ μ)), none)
  | .relock κ μ, .relock => some (x.lock μ (.relocking κ μ))
  | .user, .signal κ => x.calls (some (x.condition (.signal κ), none))
  | .user, .broadcast κ => x.calls (some (x.condition (.broadcast κ), none))
  | _, .hardware h call => if x.awake h then (x.perform h call).map (·, none) else none
  | _, .deliver t => (x.deliver t).map (·, none)
  | _, _ => none

end Node

-- `hthread_init`: the main thread, which is detached, and the idle thread
def bootSteps : List Cores.Step :=
  [.manager .createD, .scheduler (.setSchedParam 0 0x40), .manager (.add 0), .manager .next,
    .manager .createD, .scheduler (.setSchedParam 1 0x7F), .scheduler (.setIdleThread 1)]

def bootBooks : Option Books :=
  bootSteps.foldlM (fun b s => (s.effect b).map Prod.fst) .initial

/-- The state behind `hthread_init`, with free mutexes of any kinds. -/
structure Node.Boot (x : Node m) : Prop where
  books : some x.books = bootBooks
  mutexes : ∃ kinds : BitVec m → BitVec 2, x.mutexes = ⟨fun μ => ⟨0, 0, 0, kinds μ, 0⟩, fun _ => 0⟩
  conds : ∀ a, x.conds a = 0
  mail : x.mail = []
  started : x.started = fun t => t == 0 || t == 1
  saved : x.saved = fun _ => .user
  stage : x.stage = .user

/-- The states of the runs whose steps all meet the guard. -/
inductive Node.Reachable (guard : Act m → Node m → Prop) : Node m → Prop
  | boot {x : Node m} : x.Boot → Reachable guard x
  | step {x y : Node m} {a : Act m} {r : Option (Answer m)} : Reachable guard x → guard a x →
    x.step a = some (y, r) → Reachable guard y

/-- A thread locks a mutex that it owns already only where the mutex counts this, or refuses it. -/
def Nestable (S : SyncManager.Stores m) : SyncManager.Request m → Prop
  | .lock μ t => (S.mutexes μ).count ≠ 0 → (S.mutexes μ).owner = t →
    (S.mutexes μ).kind = SyncManager.synchRecurs ∧ (S.mutexes μ).count ≠ 255 ∨
      (S.mutexes μ).kind = SyncManager.synchError
  | .tryLock μ t => (S.mutexes μ).count ≠ 0 → (S.mutexes μ).owner = t →
    (S.mutexes μ).kind = SyncManager.synchRecurs → (S.mutexes μ).count ≠ 255
  | _ => True

/-- The request by which a step asks for a mutex. -/
def Node.asks (x : Node m) : Act m → Option (SyncManager.Request m)
  | .lock μ => some (.lock μ x.cpu)
  | .tryLock μ => some (.tryLock μ x.cpu)
  | .relock =>
    match x.stage with
    | .relock _ μ => some (.lock μ x.cpu)
    | _ => none
  | .hardware h (.lock μ) => some (.lock μ h)
  | .hardware h (.tryLock μ) => some (.tryLock μ h)
  | _ => none

def nests (a : Act m) (x : Node m) : Prop := ∀ r ∈ x.asks a, Nestable x.mutexes r

instance Nestable.decidable (S : SyncManager.Stores m) (r : SyncManager.Request m) :
    Decidable (Nestable S r) :=
  match r with
  | .lock _ _ | .tryLock _ _ => inferInstanceAs (Decidable (_ → _))
  | .unlock _ _ | .setKind _ _ | .kind _ | .owner _ | .count _ => inferInstanceAs (Decidable True)

instance nests.decidable (a : Act m) (x : Node m) : Decidable (nests a x) :=
  inferInstanceAs (Decidable (∀ r ∈ x.asks a, Nestable x.mutexes r))

end Hthreads.Kernel
