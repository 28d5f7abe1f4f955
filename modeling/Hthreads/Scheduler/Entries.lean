import Hthreads.Library.BitFields

/-! The words of the scheduler's tables. A thread entry packs the queue bit, the next
pointer, the priority and the previous pointer; a priority entry packs head and tail. -/

namespace Hthreads.Scheduler

open Library.BitFields

abbrev Word := BitVec 32
abbrev ThreadId := BitVec 8
abbrev Priority := BitVec 7

def getHeadPointer (entry : Word) : ThreadId := slice entry 0 8
def setHeadPointer (headPtr : ThreadId) (entry : Word) : Word := insert 0 headPtr entry
def getTailPointer (entry : Word) : ThreadId := slice entry 8 8
def setTailPointer (tailPtr : ThreadId) (entry : Word) : Word := insert 8 tailPtr entry

def getPriority (entry : Word) : Priority := slice entry 9 7
def setPriority (priority : Priority) (entry : Word) : Word := insert 9 priority entry
def getNextPointer (entry : Word) : ThreadId := slice entry 1 8
def setNextPointer (nextPtr : ThreadId) (entry : Word) : Word := insert 1 nextPtr entry
def getPrevPointer (entry : Word) : ThreadId := slice entry 16 8
def setPrevPointer (prevPtr : ThreadId) (entry : Word) : Word := insert 16 prevPtr entry
def getQueueBit (entry : Word) : Bool := bit entry 0
def setQueueBit (qBit : Bool) (entry : Word) : Word := insert 0 (BitVec.ofBool qBit) entry

/-- The test of `DOU(0 to 24)` against zero: the parameter is a software priority. -/
def isSoftwareParam (param : Word) : Bool := slice param 0 25 == 0

def paramPriority (param : Word) : Priority := slice param 25 7

section Fields

variable (p : Priority) (t : ThreadId) (b : Bool) (e : Word)

@[simp] lemma getHeadPointer_setHeadPointer : getHeadPointer (setHeadPointer t e) = t :=
  slice_insert_self 0 t e (by decide)

@[simp] lemma getHeadPointer_setTailPointer :
    getHeadPointer (setTailPointer t e) = getHeadPointer e :=
  slice_insert_of_disjoint 8 0 t e (by decide) (by decide) (by decide)

@[simp] lemma getTailPointer_setTailPointer : getTailPointer (setTailPointer t e) = t :=
  slice_insert_self 8 t e (by decide)

@[simp] lemma getTailPointer_setHeadPointer :
    getTailPointer (setHeadPointer t e) = getTailPointer e :=
  slice_insert_of_disjoint 0 8 t e (by decide) (by decide) (by decide)

@[simp] lemma getPriority_setPriority : getPriority (setPriority p e) = p :=
  slice_insert_self 9 p e (by decide)

@[simp] lemma getPriority_setNextPointer : getPriority (setNextPointer t e) = getPriority e :=
  slice_insert_of_disjoint 1 9 t e (by decide) (by decide) (by decide)

@[simp] lemma getPriority_setPrevPointer : getPriority (setPrevPointer t e) = getPriority e :=
  slice_insert_of_disjoint 16 9 t e (by decide) (by decide) (by decide)

@[simp] lemma getPriority_setQueueBit : getPriority (setQueueBit b e) = getPriority e :=
  slice_insert_of_disjoint 0 9 (BitVec.ofBool b) e (by decide) (by decide) (by decide)

@[simp] lemma getNextPointer_setNextPointer : getNextPointer (setNextPointer t e) = t :=
  slice_insert_self 1 t e (by decide)

@[simp] lemma getNextPointer_setPriority :
    getNextPointer (setPriority p e) = getNextPointer e :=
  slice_insert_of_disjoint 9 1 p e (by decide) (by decide) (by decide)

@[simp] lemma getNextPointer_setPrevPointer :
    getNextPointer (setPrevPointer t e) = getNextPointer e :=
  slice_insert_of_disjoint 16 1 t e (by decide) (by decide) (by decide)

@[simp] lemma getNextPointer_setQueueBit :
    getNextPointer (setQueueBit b e) = getNextPointer e :=
  slice_insert_of_disjoint 0 1 (BitVec.ofBool b) e (by decide) (by decide) (by decide)

@[simp] lemma getPrevPointer_setPrevPointer : getPrevPointer (setPrevPointer t e) = t :=
  slice_insert_self 16 t e (by decide)

@[simp] lemma getPrevPointer_setPriority :
    getPrevPointer (setPriority p e) = getPrevPointer e :=
  slice_insert_of_disjoint 9 16 p e (by decide) (by decide) (by decide)

@[simp] lemma getPrevPointer_setNextPointer :
    getPrevPointer (setNextPointer t e) = getPrevPointer e :=
  slice_insert_of_disjoint 1 16 t e (by decide) (by decide) (by decide)

@[simp] lemma getPrevPointer_setQueueBit :
    getPrevPointer (setQueueBit b e) = getPrevPointer e :=
  slice_insert_of_disjoint 0 16 (BitVec.ofBool b) e (by decide) (by decide) (by decide)

@[simp] lemma getQueueBit_setQueueBit : getQueueBit (setQueueBit b e) = b :=
  bit_insert_ofBool 0 b e (by decide)

@[simp] lemma getQueueBit_setPriority : getQueueBit (setPriority p e) = getQueueBit e :=
  bit_insert_of_outside 9 0 p e (by decide) (by decide) (by decide)

@[simp] lemma getQueueBit_setNextPointer : getQueueBit (setNextPointer t e) = getQueueBit e :=
  bit_insert_of_outside 1 0 t e (by decide) (by decide) (by decide)

@[simp] lemma getQueueBit_setPrevPointer : getQueueBit (setPrevPointer t e) = getQueueBit e :=
  bit_insert_of_outside 16 0 t e (by decide) (by decide) (by decide)

end Fields

end Hthreads.Scheduler
