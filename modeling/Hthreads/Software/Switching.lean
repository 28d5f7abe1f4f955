import Hthreads.Software.Create

/-! The places where the kernel switches to another context: `_run_sched`, `_syscall_yield`, the
retry loop of `_syscall_exit` and the preemption branch of the interrupt handler. -/

namespace Hthreads.Software

open Library Library.BitFields Scheduler ThreadManager Cores

/-- How a part of the kernel ends: it returns, or the processor leaves it for another context. The
status word is the one that the id of that context was cut out of. -/
inductive Control
  | back
  | switch (curr next : Huint) (status : Word)
  | restore (curr next : Huint) (status : Word)

def Kernel.setRetval (th : ThreadId) (retval : Huint) (k : Kernel) : Kernel :=
  { k with threads := Function.update k.threads th { k.threads th with retval := retval } }

namespace Bus

def currentThread : Syscall Huint := do
  let sta ← Program.issue (.manager .current)
  pure (extractId sta)

-- an error bit in the status is only printed
def nextThread : Syscall (Huint × Word) := do
  let sta ← Program.issue (.manager .next)
  pure (extractId sta, sta)

def yieldThread : Syscall (Huint × Word) := do
  let sta ← Program.issue (.manager .yield)
  pure (extractId sta, sta)

def detachedThread (id : Huint) : Syscall Bool := do
  let status ← Program.issue (.manager (.isDetached (id.setWidth 8)))
  pure (status != 0)

def runSched (save : Bool) : Syscall Control := do
  let curr ← currentThread
  let (next, status) ← nextThread
  let newCurr ← currentThread
  if newCurr ≠ next then pure .back
  else if curr = next then pure .back
  else if save then pure (.switch curr next status)
  else pure (.restore curr next status)

def syscallYield : Syscall Control := do
  let curr ← currentThread
  let (next, status) ← yieldThread
  if curr ≠ next then pure (.switch curr next status) else pure .back

-- `none` is an interrupt of another kind
def interruptHandler (pending preemptMask : Huint) : Syscall (Option Control) :=
  if pending &&& preemptMask ≠ 0 then do
    let currentThread ← currentThread
    let (nextThread, status) ← yieldThread
    if currentThread ≠ nextThread then pure (some (.switch currentThread nextThread status))
    else pure (some .back)
  else pure none

/-- The retry loop as long as the processor does not leave it. `some .back` is the way out of the
loop, and `none` stands for a loop that is still going on. -/
def exitRetry (current : Huint) : ℕ → Word → Syscall (Option Control)
  | n, status =>
    if hasError status then
      match n with
      | 0 => pure none
      | n + 1 => do
        match ← syscallYield with
        | .back =>
          let status ← Program.issue (.manager (.exit (current.setWidth 8)))
          exitRetry current n status
        | left => pure (some left)
    else pure (some .back)

-- a detached thread is destroyed once the loop is left
def finishExit (destroyFlag : Bool) (current : Huint) (k : Kernel) :
    Option Control → Syscall (Option Control × Kernel)
  | some .back => do
    let k ← (if destroyFlag then destroyThread current k else pure k)
    let c ← runSched false
    pure (some c, k)
  | left => pure (left, k)

def syscallExit (n : ℕ) (retval : Huint) (k : Kernel) : Syscall (Option Control × Kernel) := do
  let current ← currentThread
  let destroyFlag ← detachedThread current
  let status ← Program.issue (.manager (.exit (current.setWidth 8)))
  let left ← exitRetry current n status
  finishExit destroyFlag current (k.setRetval (current.setWidth 8) retval) left

end Bus

/-- The context is the one of the current thread, and its id came without an error. -/
def Control.Sound (b : Books) : Control → Prop
  | back => True
  | switch _ next status | restore _ next status =>
    hasError status = false ∧ next = b.cpu.setWidth 32

inductive SwitchSite
  | runSched (save : Bool)
  | yield
  | preemption (pending preemptMask : Huint)
  | exit (retval : Huint) (k : Kernel)

/-- The program of a site, with a number of rounds for the loop it may have. -/
def SwitchSite.program (n : ℕ) : SwitchSite → Syscall (Option Control)
  | runSched save => do
    let c ← Bus.runSched save
    pure (some c)
  | yield => do
    let c ← Bus.syscallYield
    pure (some c)
  | preemption pending preemptMask => Bus.interruptHandler pending preemptMask
  | exit retval k => do
    let (c, _) ← Bus.syscallExit n retval k
    pure c

def SwitchSite.Safe (site : SwitchSite) (a : Managed) : Prop :=
  ∀ n a' c, (site.program n).run machineAccess a = some (a', some c) → c.Sound a'.books

section Sites

variable {b b' : Books} {c : Control}

lemma currentThread_run (b : Books) :
    Bus.currentThread.run bookAccess b = some (b, b.cpu.setWidth 32) := by
  simp only [Bus.currentThread, Program.run_bind, Program.run_issue, Program.run_pure, bookAccess,
    Cores.Command.effect, Option.bind_some, extractId_named]
  rfl

lemma extractId_zero : extractId 0 = 0 := by decide

lemma runSched_sound {save : Bool} (h : (Bus.runSched save).run bookAccess b = some (b', c)) :
    c.Sound b' := by
  simp only [Bus.runSched, Bus.nextThread, Program.run_bind, Program.run_issue, Program.run_pure,
    currentThread_run, bookAccess, Cores.Command.effect, Option.bind_some] at h
  cases hv : b.ready.nextThreadValid with
  | false =>
    rw [hv] at h
    cases h
  | true =>
    rw [hv] at h
    simp only [if_true, Option.bind_some] at h
    cases hr : b.running b.ready.nextThreadId with
    | true =>
      have hnext : b.next = (b.dispatch, 0#23 ++ b.ready.nextThreadId ++ 0#1) := by
        rw [Books.next, hr, if_pos rfl]
      simp only [hnext, extractId_created, dispatch_cpu, ne_eq, not_true_eq_false, if_false] at h
      split at h
      · cases h
        trivial
      · split at h
        all_goals
          cases h
          exact ⟨hasError_named _, by rw [dispatch_cpu]⟩
    | false =>
      have hnext : b.next = (b, 0) := by
        rw [Books.next, hr, if_neg Bool.false_ne_true]
      simp only [hnext, extractId_zero] at h
      split at h
      · cases h
        trivial
      · next heq =>
        rw [not_not] at heq
        rw [if_pos heq] at h
        cases h
        trivial

def refusedId (b : Books) : Huint := extractId (withCode (b.entry b.cpu) errorInStatus)

lemma syscallYield_refused (h : b.running b.cpu = false) :
    Bus.syscallYield.run bookAccess b = some (b, if b.cpu.setWidth 32 ≠ refusedId b then
      .switch (b.cpu.setWidth 32) (refusedId b) (withCode (b.entry b.cpu) errorInStatus)
      else .back) := by
  have hyield : b.yield = (b, withCode (b.entry b.cpu) errorInStatus) := by
    rw [Books.yield, h, if_neg Bool.false_ne_true]
  have hid : extractId (withCode (b.entry b.cpu) errorInStatus) = refusedId b := rfl
  simp only [Bus.syscallYield, Bus.yieldThread, Program.run_bind, Program.run_issue,
    Program.run_pure, currentThread_run, bookAccess, Cores.Command.effect, hyield,
    Option.bind_some, hid]
  split <;> rfl

lemma syscallYield_sound (hr : b.running b.cpu = true)
    (h : Bus.syscallYield.run bookAccess b = some (b', c)) : c.Sound b' := by
  simp only [Bus.syscallYield, Bus.yieldThread, Program.run_bind, Program.run_issue,
    Program.run_pure, currentThread_run, bookAccess, Cores.Command.effect, Option.bind_some] at h
  cases hempty : isEncoderZero b.ready.encoderInput with
  | true =>
    have hyield : b.yield = (b, 0#23 ++ b.currentCpuThread) := by
      simp only [Books.yield, hr, hempty, if_true]
    have hsame : extractId (0#23 ++ b.currentCpuThread) = b.cpu.setWidth 32 := extractId_named _
    simp only [hyield, hsame, ne_eq, not_true_eq_false, if_false] at h
    cases h
    trivial
  | false =>
    have hyield : b.yield = ((b.enqueue b.cpu).dispatch,
        0#23 ++ (b.enqueue b.cpu).ready.nextThreadId ++ 0#1) := by
      simp only [Books.yield, hr, hempty, if_true, Bool.false_eq_true, if_false]
    simp only [hyield, extractId_created] at h
    split at h
    · cases h
      exact ⟨hasError_named _, by rw [dispatch_cpu]⟩
    · cases h
      trivial

/-- A yield is safe when YIELD is not refused, or names the current thread by chance. -/
def yieldSafe (b : Books) : Prop := b.running b.cpu = true ∨ refusedId b = b.cpu.setWidth 32

lemma syscallYield_sound_iff (h : Bus.syscallYield.run bookAccess b = some (b', c)) :
    c.Sound b' ↔ yieldSafe b := by
  cases hr : b.running b.cpu with
  | true => exact iff_of_true (syscallYield_sound hr h) (.inl hr)
  | false =>
    rw [syscallYield_refused hr] at h
    obtain ⟨rfl, rfl⟩ := Prod.mk.inj (Option.some.inj h)
    have herr : hasError (withCode (b.entry b.cpu) errorInStatus) = true :=
      hasError_withCode _ _ rfl
    by_cases hid : refusedId b = b.cpu.setWidth 32
    · rw [if_neg (not_not_intro hid.symm)]
      exact iff_of_true trivial (.inr hid)
    · rw [if_pos (Ne.symm hid)]
      refine iff_of_false (fun hsound => ?_) fun hsafe => ?_
      · rw [hsound.1] at herr
        cases herr
      · rcases hsafe with hrun | hsame
        · rw [hr] at hrun
          cases hrun
        · exact hid hsame

end Sites

end Hthreads.Software
