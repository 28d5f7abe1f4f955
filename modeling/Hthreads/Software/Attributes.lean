import Hthreads.Software.SchedParam

/-! Thread attributes and the functions that set them (`thread_attr.c`). -/

namespace Hthreads.Software

def eagain : Hint := 11
def enomem : Hint := 12
def einval : Hint := 22

def null : Huint := 0

def hthreadStackMin : Huint := 128
def hthreadSchedparamMax : Hint := 128
def hthreadStackReserve : Huint := 64
def htStackSize : ℕ := 16 * 1024
def htDefaultStackSize : Huint := 16 * 1024
def hwtiCommandOffset : Huint := 0x000C

def hthreadCreateJoinable : Hint := 1
def hthreadCreateDetached : Hint := 2

structure Attr where
  detached : Bool
  hardware : Bool
  hardwareAddr : Huint
  stackSize : Huint
  stackAddr : Huint
  schedParam : Huint
  deriving DecidableEq

namespace Attr

-- `hthread_attr_init` and `hthread_attr_destroy` write every field
def init : Attr where
  detached := false
  hardware := false
  hardwareAddr := 0x00000000
  stackSize := htDefaultStackSize
  stackAddr := null
  schedParam := 64

def setStackSize (stacksize : Huint) (attr : Attr) : Hint × Attr :=
  if stacksize < hthreadStackMin then (einval, attr)
  else (success, { attr with stackSize := stacksize })

def setStackAddr (stackaddr : Huint) (attr : Attr) : Hint × Attr :=
  (success, { attr with stackAddr := stackaddr })

-- the address is stored even when the size is refused
def setStack (addr stacksize : Huint) (attr : Attr) : Hint × Attr :=
  (attr.setStackAddr addr).2.setStackSize stacksize

def setDetachState (detachstate : Hint) (attr : Attr) : Hint × Attr :=
  if detachstate = hthreadCreateJoinable then (success, { attr with detached := false })
  else if detachstate = hthreadCreateDetached then (success, { attr with detached := true })
  else (einval, attr)

/-- The priority is a signed integer. -/
def setSchedParam (priority : Hint) (attr : Attr) : Hint × Attr :=
  if priority.slt 0 || hthreadSchedparamMax.slt priority then (einval, attr)
  else (success, { attr with schedParam := priority })

def setHardware (baseaddr : Huint) (attr : Attr) : Hint × Attr :=
  (success,
    { attr with
      hardware := true
      hardwareAddr := baseaddr + hwtiCommandOffset
      stackSize := 0
      stackAddr := null })

end Attr

inductive AttrCall
  | init
  | destroy
  | setStackSize (stacksize : Huint)
  | setStackAddr (stackaddr : Huint)
  | setStack (addr stacksize : Huint)
  | setDetachState (detachstate : Hint)
  | setSchedParam (priority : Hint)
  | setHardware (baseaddr : Huint)

def AttrCall.perform (attr : Attr) : AttrCall → Hint × Attr
  | init | destroy => (success, .init)
  | setStackSize stacksize => attr.setStackSize stacksize
  | setStackAddr stackaddr => attr.setStackAddr stackaddr
  | setStack addr stacksize => attr.setStack addr stacksize
  | setDetachState detachstate => attr.setDetachState detachstate
  | setSchedParam priority => attr.setSchedParam priority
  | setHardware baseaddr => attr.setHardware baseaddr

/-- What a program can make of an attribute after it has initialised it. -/
inductive Attr.Reachable : Attr → Prop
  | init : Reachable .init
  | call {attr : Attr} (c : AttrCall) : Reachable attr → Reachable (c.perform attr).2

section Bounds

variable {attr : Attr}

lemma setStackSize_success_iff (stacksize : Huint) :
    (attr.setStackSize stacksize).1 = success ↔ hthreadStackMin ≤ stacksize := by
  rw [Attr.setStackSize]
  split
  next hlt =>
    have hne : einval ≠ success := by decide
    exact iff_of_false hne fun hle => BitVec.not_lt.mpr hle hlt
  next hlt => exact iff_of_true rfl (BitVec.not_lt.mp hlt)

lemma setStackSize_stackSize (stacksize : Huint) (h : hthreadStackMin ≤ attr.stackSize) :
    hthreadStackMin ≤ (attr.setStackSize stacksize).2.stackSize := by
  rw [Attr.setStackSize]
  split
  next => exact h
  next hlt => exact BitVec.not_lt.mp hlt

/-- Every attribute of a software thread asks for a stack that `hthread_attr_setstacksize` takes. -/
lemma Attr.Reachable.stackMin_le (h : attr.Reachable) (hs : attr.hardware = false) :
    hthreadStackMin ≤ attr.stackSize := by
  have hinit : hthreadStackMin ≤ Attr.init.stackSize := by decide
  induction h with
  | init => exact hinit
  | @call attr c _ ih =>
    cases c with
    | init => exact hinit
    | destroy => exact hinit
    | setStackSize stacksize =>
      refine setStackSize_stackSize stacksize (ih ?_)
      simp only [AttrCall.perform, Attr.setStackSize] at hs
      split at hs <;> exact hs
    | setStackAddr stackaddr => exact ih hs
    | setStack addr stacksize =>
      refine setStackSize_stackSize stacksize (ih ?_)
      simp only [AttrCall.perform, Attr.setStack, Attr.setStackAddr, Attr.setStackSize] at hs
      split at hs <;> exact hs
    | setDetachState detachstate =>
      simp only [AttrCall.perform, Attr.setDetachState] at hs ⊢
      split at hs <;> simp_all
      split at hs <;> simp_all
    | setSchedParam priority =>
      simp only [AttrCall.perform, Attr.setSchedParam] at hs ⊢
      split at hs <;> simp_all
    | setHardware baseaddr => cases hs

end Bounds

end Hthreads.Software
