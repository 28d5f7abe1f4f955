import Hthreads.Software.Attributes

/-! Low level thread setup: the thread records, their contexts and the registers of the hardware
thread interfaces (`setup.c`, `arch.c`). -/

namespace Hthreads.Software

open Scheduler

def maxThreads : Huint := 256

/-- Where the linker has put the kernel, and the cache bits it was compiled with. -/
structure Image where
  threads : Huint
  contexts : Huint
  stackArray : Huint
  bootstrapThread : Huint
  cacheBits : Huint
  stackArray_pos : 0 < stackArray.toNat
  stackArray_fit : stackArray.toNat + 256 * htStackSize ≤ 2 ^ 32

structure Thread where
  newthread : Bool
  retval : Huint
  context : Huint
  stack : Huint
  stacksize : Huint
  hardware : Huint
  executionTime : BitVec 64

abbrev Context := Fin 33 → Huint

def mbSp : Fin 33 := 1
def mbArg0 : Fin 33 := 5
def mbArg1 : Fin 33 := 6
def mbLr : Fin 33 := 15
def mbMsr : Fin 33 := 32

def msrIe : Huint := 0x00000002
def msrEe : Huint := 0x00000100
def msrUm : Huint := 0x00000800

/-- The kernel's tables, and its writes to hardware thread interfaces in their order. -/
structure Kernel where
  threads : ThreadId → Thread
  contexts : ThreadId → Context
  hwti : List (Huint × Huint)

def htCmdHwtiSetid : Huint := 0x0000
def htCmdHwtiUtilized : Huint := 0x0004
def htCmdHwtiCommand : Huint := 0x000C
def htCmdHwtiSetarg : Huint := 0x0010
def htCmdHwtiFuncPtr : Huint := 0x0018
def htCmdHwtiStackBase : Huint := 0x0020
def htCmdHwtiContextBase : Huint := 0x0024
def htCmdHwtiContextTableBase : Huint := 0x0028
def htCmdHwtiBootstrap : Huint := 0x002C
def htHwtiReset : Huint := 0x0002
def flagHwtiUtilized : Huint := 0x0001

-- `&stacks[tid]` and `&mb_context_table[th]`
def Image.stackOf (I : Image) (tid : ThreadId) : Huint :=
  I.stackArray + BitVec.ofNat 32 (htStackSize * tid.toNat)
def Image.contextOf (I : Image) (tid : ThreadId) : Huint :=
  I.contexts + BitVec.ofNat 32 (4 * 33 * tid.toNat)

namespace Kernel

variable (I : Image)

def archSetupThread (th : ThreadId) (start arg : Huint) (k : Kernel) : Hint × Kernel :=
  let thread := k.threads th
  let sp := if 0 < thread.stacksize then thread.stack + thread.stacksize - hthreadStackReserve
    else 0
  let regs := Function.update (k.contexts th) mbSp sp
  let regs := Function.update regs mbLr I.bootstrapThread
  let regs := Function.update regs mbArg0 start
  let regs := Function.update regs mbArg1 arg
  let regs := Function.update regs mbMsr (msrIe ||| msrEe ||| msrUm ||| I.cacheBits)
  (success,
    { k with
      threads := Function.update k.threads th { thread with context := I.contextOf th }
      contexts := Function.update k.contexts th regs })

/-- The registers written for a hardware thread, in the order of the writes. -/
def hwtiSetup (base tid start arg : Huint) : List (Huint × Huint) :=
  [(base ||| htCmdHwtiCommand, htHwtiReset), (base ||| htCmdHwtiSetid, tid),
    (base ||| htCmdHwtiSetarg, arg), (base ||| htCmdHwtiFuncPtr, start),
    (base ||| htCmdHwtiContextBase, I.threads), (base ||| htCmdHwtiContextTableBase, I.contexts),
    (base ||| htCmdHwtiStackBase, I.stackArray), (base ||| htCmdHwtiBootstrap, I.bootstrapThread),
    (base ||| htCmdHwtiUtilized, flagHwtiUtilized)]

-- the stack of the thread, or the error of the request for one
def chooseStack (tid : ThreadId) (attr : Attr) : Except Hint Huint :=
  if attr.stackAddr = null ∧ attr.hardware = false then
    if attr.stackSize ≤ hthreadStackMin then .error einval
    else if I.stackOf tid = null then .error enomem
    else .ok (I.stackOf tid)
  else .ok attr.stackAddr

def setupThread (tid : Huint) (attr : Attr) (start arg : Huint) (k : Kernel) : Hint × Kernel :=
  if maxThreads ≤ tid then (einval, k)
  else
    let th := tid.setWidth 8
    match chooseStack I th attr with
    | .error e => (e, k)
    | .ok stack =>
      let record := { k.threads th with
        stack := stack
        stacksize := attr.stackSize
        newthread := true
        retval := null
        executionTime := 0 }
      if attr.hardware = false then
        archSetupThread I th start arg
          { k with threads := Function.update k.threads th { record with hardware := 0 } }
      else
        let base := attr.hardwareAddr - hwtiCommandOffset
        (success,
          { k with
            threads := Function.update k.threads th { record with hardware := attr.hardwareAddr }
            hwti := k.hwti ++ hwtiSetup I base tid start arg })

-- what `_destroy_thread` does beside CLEAR_THREAD
def forgetStack (id : ThreadId) (k : Kernel) : Kernel :=
  { k with threads := Function.update k.threads id { k.threads id with stack := null } }

end Kernel

def Attr.Allocated (attr : Attr) : Prop := attr.stackAddr = null ∧ attr.hardware = false

/-- `_setup_thread` finds no fault with the stack. -/
def Attr.StackAccepted (attr : Attr) : Prop := attr.Allocated → hthreadStackMin < attr.stackSize

instance Attr.StackAccepted.decidable (attr : Attr) : Decidable attr.StackAccepted :=
  inferInstanceAs (Decidable (_ ∧ _ → _))

section Spec

variable {I : Image} {k : Kernel} {attr : Attr} {tid : ThreadId} {start arg : Huint}

lemma stackOf_toNat (I : Image) (tid : ThreadId) :
    (I.stackOf tid).toNat = I.stackArray.toNat + htStackSize * tid.toNat := by
  have hfit := I.stackArray_fit
  have hlt := tid.isLt
  simp only [Image.stackOf, htStackSize, BitVec.toNat_add, BitVec.toNat_ofNat] at hfit ⊢
  omega

lemma stackOf_ne_null (I : Image) (tid : ThreadId) : I.stackOf tid ≠ null := by
  intro heq
  have hpos := I.stackArray_pos
  have hnat := congrArg BitVec.toNat heq
  rw [stackOf_toNat, null] at hnat
  simp only [BitVec.ofNat_eq_ofNat, BitVec.toNat_zero] at hnat
  omega

lemma chooseStack_ok (h : attr.StackAccepted) : Kernel.chooseStack I tid attr =
    .ok (if attr.stackAddr = null ∧ attr.hardware = false then I.stackOf tid
      else attr.stackAddr) := by
  rw [Kernel.chooseStack]
  by_cases halloc : attr.stackAddr = null ∧ attr.hardware = false
  · have hmin : ¬ attr.stackSize ≤ hthreadStackMin := BitVec.not_le.mpr (h halloc)
    rw [if_pos halloc, if_neg hmin, if_neg (stackOf_ne_null I tid), if_pos halloc]
  · rw [if_neg halloc, if_neg halloc]

lemma chooseStack_error (h : ¬ attr.StackAccepted) :
    Kernel.chooseStack I tid attr = .error einval := by
  obtain ⟨⟨hnull, hsoft⟩, hmin⟩ := Classical.not_imp.mp h
  rw [Kernel.chooseStack, if_pos ⟨hnull, hsoft⟩, if_pos (BitVec.not_lt.mp hmin)]

lemma not_maxThreads_le (tid : ThreadId) : ¬ maxThreads ≤ tid.setWidth 32 := by
  have hlt := tid.isLt
  rw [BitVec.not_le, BitVec.lt_def, BitVec.toNat_setWidth_of_le (by omega)]
  exact hlt

lemma setupThread_refused (h : ¬ attr.StackAccepted) :
    k.setupThread I (tid.setWidth 32) attr start arg = (einval, k) := by
  rw [Kernel.setupThread, if_neg (not_maxThreads_le tid)]
  simp only [chooseStack_error h]

lemma setupThread_success (h : attr.StackAccepted) :
    (k.setupThread I (tid.setWidth 32) attr start arg).1 = success := by
  rw [Kernel.setupThread, if_neg (not_maxThreads_le tid)]
  simp only [chooseStack_ok h]
  split <;> rfl

lemma setupThread_success_iff :
    (k.setupThread I (tid.setWidth 32) attr start arg).1 = success ↔ attr.StackAccepted := by
  refine ⟨fun hsuccess => ?_, setupThread_success⟩
  by_contra hfault
  rw [setupThread_refused hfault] at hsuccess
  have hne : einval ≠ success := by decide
  exact hne hsuccess

lemma setupThread_of_ne {u : ThreadId} (hu : u ≠ tid) :
    (k.setupThread I (tid.setWidth 32) attr start arg).2.threads u = k.threads u ∧
      (k.setupThread I (tid.setWidth 32) attr start arg).2.contexts u = k.contexts u := by
  have htid : (tid.setWidth 32).setWidth 8 = tid := by simp
  by_cases h : attr.StackAccepted
  · rw [Kernel.setupThread, if_neg (not_maxThreads_le tid)]
    simp only [htid, chooseStack_ok h]
    split <;> simp [Kernel.archSetupThread, hu]
  · rw [setupThread_refused h]
    exact ⟨rfl, rfl⟩

lemma setupThread_allocated (halloc : attr.Allocated) (h : attr.StackAccepted) :
    ((k.setupThread I (tid.setWidth 32) attr start arg).2.threads tid).stack = I.stackOf tid ∧
      ((k.setupThread I (tid.setWidth 32) attr start arg).2.threads tid).stacksize =
        attr.stackSize ∧
      (k.setupThread I (tid.setWidth 32) attr start arg).2.contexts tid mbSp =
        I.stackOf tid + attr.stackSize - hthreadStackReserve := by
  have htid : (tid.setWidth 32).setWidth 8 = tid := by simp
  have hpos : 0 < attr.stackSize := by
    have hmin := h halloc
    rw [BitVec.lt_def] at hmin ⊢
    exact Nat.lt_of_le_of_lt (Nat.zero_le _) hmin
  rw [Kernel.setupThread, if_neg (not_maxThreads_le tid)]
  simp only [htid, chooseStack_ok h, halloc.1, halloc.2, and_self, Kernel.archSetupThread,
    Function.update_self, hpos, if_true, true_and]
  simp [Function.update, mbSp, mbLr, mbArg0, mbArg1, mbMsr]

end Spec

end Hthreads.Software
