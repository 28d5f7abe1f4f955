import Hthreads.Slaves.Matching
import Hthreads.Software.Bus
import Hthreads.Software.Mutex

/-! The code on a slave processor: its boot loop (`hw_thread.c`, `proc_hw_thread.c`) and the system
calls that the HAL offers to the threads it runs (`hal/.../syscall.c`). -/

namespace Hthreads.Slaves

open Library Scheduler Software

abbrev Time := BitVec 64

-- the words of a V-HWTI that the code uses
inductive Register
  | tid
  | utilized
  | command
  | argument
  | result
  | function
  | contextBase
  | firstUsed
  | firstUsedPtr
  | lastUsed
  | lastUsedPtr
  deriving DecidableEq

/-- One access of a slave to its V-HWTI, to its own memory, to the memory of the host or to a core.
`awaitGo` is the loop that polls the command register for GO, and `spin` is a loop without an end.
-/
inductive Access
  | read (r : Register)
  | write (r : Register) (value : Huint)
  | readTime
  | writeTime (time : Time)
  | timeGet
  | awaitGo
  | setExecutionTime (tid : Huint) (time : Time)
  | setRetval (tid retval : Huint)
  | clearStack (tid : Huint)
  | readPrevLastUsed
  | writePrevLastUsed (acc : Huint)
  | store (ptr value : Huint)
  | manager (cmd : Cores.Command)
  | lock (tid num : Huint)
  | unlock (tid num : Huint)
  | spin
  deriving DecidableEq

structure Answer where
  word : Huint
  time : Time

abbrev Code := Program Access Answer

namespace Code

def read (r : Register) : Code Huint := do
  let answer ← Program.issue (.read r)
  pure answer.word

def time (a : Access) : Code Time := do
  let answer ← Program.issue a
  pure answer.time

def perform (a : Access) : Code Unit := do
  let _ ← Program.issue a
  pure ()

def waitForGoCommand : Code Unit := do
  perform .awaitGo
  perform (.write .firstUsed noAcc)
  perform (.writeTime 0)
  let now ← time .timeGet
  perform (.writeTime now)
  perform (.write .command 0)

/-- The first accelerator that the thread used goes where the host has said. -/
def reportFirstUsed : Code Unit := do
  let first ← read .firstUsed
  if first ≠ noAcc then
    let firstUsedAcc ← read .firstUsedPtr
    if firstUsedAcc ≠ null then
      let acc ← read .firstUsed
      perform (.store firstUsedAcc acc)
    else pure ()
  else pure ()

/-- So does the last one, when it is not the one that the slave remembers. -/
def reportLastUsed : Code Unit := do
  let last ← read .lastUsed
  let prev ← Program.issue .readPrevLastUsed
  if last ≠ prev.word then
    let lastUsedAcc ← read .lastUsedPtr
    (if lastUsedAcc ≠ null then do
      let acc ← read .lastUsed
      perform (.store lastUsedAcc acc)
    else pure ())
    let acc ← read .lastUsed
    perform (.writePrevLastUsed acc)
  else pure ()

def exitThread (tid : Huint) : Code Huint := do
  let answer ← Program.issue (.manager (.exit (tid.setWidth 8)))
  pure answer.word

def procHwThreadExit (ret : Huint) : Code Huint := do
  let _ ← read .contextBase
  let stop ← time .timeGet
  let start ← time .readTime
  perform (.writeTime (stop - start))
  let tid ← read .tid
  perform (.setExecutionTime tid (stop - start))
  (if ret ≠ null then do
    perform (.write .result ret)
    perform (.setRetval tid ret)
  else pure ())
  reportFirstUsed
  reportLastUsed
  let tid ← read .tid
  let status ← exitThread tid
  perform (.write .utilized flagHwtiFree)
  pure status

def procHwMutexLock (lockNumber : Huint) : Code Unit := do
  let tid ← read .tid
  let status ← Program.issue (.lock tid lockNumber)
  if status.word = htMutexBlock then waitForGoCommand else pure ()

def procHwMutexUnlock (lockNumber : Huint) : Code Unit := do
  let tid ← read .tid
  perform (.unlock tid lockNumber)

-- the HAL: a thread stays on its slave, so that there is nothing to switch to
def runSched (save : Bool) : Code Unit :=
  if save then do
    perform .awaitGo
    perform (.write .command 0)
  else pure ()

def syscallMutexLock (num : Huint) : Code Hint := do
  let cur ← read .tid
  let sta ← Program.issue (.lock cur num)
  if sta.word = htMutexBlock then
    runSched true
    pure success
  else if sta.word = success then pure success
  else pure failure

def syscallMutexUnlock (num : Huint) : Code Hint := do
  let cur ← read .tid
  perform (.unlock cur num)
  pure success

-- EXIT_THREAD as the HAL issues it frees the slave at once
def halExitThread (tid : Huint) : Code Huint := do
  let status ← exitThread tid
  perform (.write .utilized flagHwtiFree)
  pure status

/-- The retry loop of the HAL's exit, with a bound on its rounds. -/
def halExitRetry (current : Huint) : ℕ → Huint → Code Unit
  | n, status =>
    if hasError status then
      match n with
      | 0 => perform .spin
      | n + 1 => do
        let status ← halExitThread current
        halExitRetry current n status
    else pure ()

def syscallExit (n : ℕ) (retval : Huint) : Code Unit := do
  let current ← read .tid
  let _ ← read .contextBase
  perform (.setRetval current retval)
  let status ← halExitThread current
  halExitRetry current n status
  let detached ← Program.issue (.manager (.isDetached (current.setWidth 8)))
  (if detached.word ≠ 0 then do
    perform (.manager (.clear (current.setWidth 8)))
    perform (.clearStack current)
  else pure ())
  runSched false

/-- The system call returns on a slave, and the caller goes on into an empty loop. -/
def hthreadExit (n : ℕ) (retval : Huint) : Code Unit := do
  syscallExit n retval
  perform .spin

end Code

/-- What a thread does that the slave can see, apart from its computations. -/
inductive Action
  | lock (num : Huint)
  | unlock (num : Huint)
  | halLock (num : Huint)
  | halUnlock (num : Huint)

inductive Ending
  | returns (ret : Huint)
  | exits (retval : Huint)

structure Body where
  actions : List Action
  ending : Ending

namespace Code

def act : Action → Code Unit
  | .lock num => procHwMutexLock num
  | .unlock num => procHwMutexUnlock num
  | .halLock num => do
    let _ ← syscallMutexLock num
    pure ()
  | .halUnlock num => do
    let _ ← syscallMutexUnlock num
    pure ()

def actAll : List Action → Code Unit
  | [] => pure ()
  | a :: rest => do
    act a
    actAll rest

/-- The start function of a thread. `n` bounds the rounds of the retry loop it may run into. -/
def start (n : ℕ) (body : Body) : Code Huint := do
  actAll body.actions
  match body.ending with
  | .returns ret => pure ret
  | .exits retval => do
    hthreadExit n retval
    pure null

def bootstrapThread (n : ℕ) (body : Body) : Code Huint := do
  let ret ← start n body
  procHwThreadExit ret

/-- One round of the boot loop. `code` says which body the function pointer and the argument in the
V-HWTI stand for. -/
def bootRound (n : ℕ) (code : Huint → Huint → Body) : Code Unit := do
  perform (.write .firstUsed noAcc)
  waitForGoCommand
  -- once for the register of position-independent code, and once for the call
  let _ ← read .function
  let func ← read .function
  let arg ← read .argument
  let _ ← bootstrapThread n (code func arg)
  pure ()

end Code

end Hthreads.Slaves
