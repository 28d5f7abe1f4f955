import Hthreads.Library.Outcomes
import Hthreads.Slaves.BootLoop
import Mathlib.Logic.Relation

/-! The accelerators in the slaves' sockets: `perform_PR` (`pr.c`, `pr_mblaze.c`), the polymorphic
functions of the HAL (`acc_common.c`), and the four places that say which one is loaded. -/

namespace Hthreads.Slaves

open Library Software

inductive Accelerator
  | crc
  | bubblesort
  | vectoradd
  | vectormul
  | matrixmul
  deriving DecidableEq

def Accelerator.code : Accelerator → Huint
  | crc => 0
  | bubblesort => 1
  | vectoradd => 2
  | vectormul => 3
  | matrixmul => 4

-- in the order of their numbers
def accelerators : List Accelerator := [.crc, .bubblesort, .vectoradd, .vectormul, .matrixmul]

def prFlag : Huint := 1

/-- A reconfiguration controller is not part of the repository. It has two registers and works on
its own; `queue` are the triggers that it has not finished with, `loaded` is the accelerator whose
configuration was completed last, and `failed` says that the last trigger came to nothing. -/
structure Controller (κ : Type) where
  trigger : κ → Huint
  status : κ → Huint
  write : κ → Huint → κ
  Moves : κ → κ → Prop
  queue : κ → List Huint
  loaded : κ → Huint
  failed : κ → Prop

/-- What `perform_PR` relies on. The controller loads what it is asked for and nothing else, one
trigger after the other, and the status says that it is full, or shows an error, only when no
trigger is left. -/
structure Controller.Documented {κ : Type} (C : Controller κ) : Prop where
  idle : ∀ c c', C.Moves c c' → C.queue c = [] →
    C.queue c' = [] ∧ C.loaded c' = C.loaded c ∧ (C.failed c' ↔ C.failed c)
  works : ∀ c c' a rest, C.Moves c c' → C.queue c = a :: rest →
    (C.queue c' = a :: rest ∧ C.loaded c' = C.loaded c) ∨
    (C.queue c' = rest ∧ C.loaded c' = a ∧ ¬ C.failed c') ∨
    (C.queue c' = rest ∧ C.loaded c' = C.loaded c ∧ C.failed c')
  accepts : ∀ c (acc : Accelerator), C.trigger c &&& 0x8000 = 0 →
    C.queue (C.write c acc.code) = C.queue c ++ [acc.code] ∧
    C.loaded (C.write c acc.code) = C.loaded c
  pending : ∀ c, C.trigger c &&& 0x8000 ≠ 0 → C.queue c ≠ []
  full : ∀ c, C.status c &&& 0x78 = 0 → C.status c &&& 0x07 = 7 → C.queue c = [] ∧ ¬ C.failed c
  error : ∀ c, C.status c &&& 0x78 ≠ 0 → C.queue c = [] ∧ C.failed c

abbrev SlaveId := Fin 16

/-- What is written down about the accelerator of one slave: the entry in the table of the host, the
words of the V-HWTI, and the variable of the slave. -/
structure Record where
  acc : Huint
  firstUsed : Huint
  firstUsedPtr : Huint
  lastUsed : Huint
  lastUsedPtr : Huint
  prFlag : Huint
  prevLastUsed : Huint
  deriving DecidableEq

structure Socket (κ : Type) where
  record : Record
  controller : κ

abbrev Sockets (κ : Type) := SlaveId → Socket κ

/-- Where the linker has put `slave_table[i].acc` and `func_2_acc_table[func_id]`. -/
structure Layout where
  entry : SlaveId → Huint
  profile : Huint → Huint
  entry_injective : Function.Injective entry
  entry_ne_null : ∀ i, entry i ≠ null
  profile_ne_entry : ∀ f i, profile f ≠ entry i

/-- An access to a socket, to the entry of its slave or to its V-HWTI. `worthwhile` compares the two
times of the tuning table, which are floating-point numbers. -/
inductive SocketAccess
  | readTrigger
  | writeTrigger (acc : Huint)
  | readStatus
  | readAcc
  | writeAcc (acc : Huint)
  | readPrFlag
  | writePrFlag (flag : Huint)
  | worthwhile (acc size : Huint)
  | own (a : Access)
  deriving DecidableEq

inductive Request
  | socket (i : SlaveId) (a : SocketAccess)
  | stop

namespace SocketAccess

variable {κ : Type} (C : Controller κ)

-- `none` where the rest of the system has the answer
def answer (x : Socket κ) : SocketAccess → Option Huint
  | readTrigger => some (C.trigger x.controller)
  | readStatus => some (C.status x.controller)
  | readAcc => some x.record.acc
  | readPrFlag => some x.record.prFlag
  | own (.read .firstUsed) => some x.record.firstUsed
  | own (.read .firstUsedPtr) => some x.record.firstUsedPtr
  | own (.read .lastUsed) => some x.record.lastUsed
  | own (.read .lastUsedPtr) => some x.record.lastUsedPtr
  | own .readPrevLastUsed => some x.record.prevLastUsed
  | _ => none

def record (v : Record) : SocketAccess → Record
  | writeAcc acc => { v with acc := acc }
  | writePrFlag flag => { v with prFlag := flag }
  | own (.write .firstUsed value) => { v with firstUsed := value }
  | own (.write .firstUsedPtr value) => { v with firstUsedPtr := value }
  | own (.write .lastUsed value) => { v with lastUsed := value }
  | own (.write .lastUsedPtr value) => { v with lastUsedPtr := value }
  | own (.writePrevLastUsed acc) => { v with prevLastUsed := acc }
  | _ => v

def controller (c : κ) : SocketAccess → κ
  | writeTrigger acc => C.write c acc
  | _ => c

-- a slave stores through the pointers that the host has given to it
def stored (L : Layout) (j : SlaveId) (v : Record) : SocketAccess → Record
  | own (.store ptr value) => if ptr = L.entry j then { v with acc := value } else v
  | _ => v

end SocketAccess

namespace Sockets

variable {κ : Type} (C : Controller κ) (L : Layout)

/-- The controllers work on their own. -/
def Moves (s t : Sockets κ) : Prop :=
  ∀ j, (t j).record = (s j).record ∧
    Relation.ReflTransGen C.Moves (s j).controller (t j).controller

def apply (i : SlaveId) (a : SocketAccess) (s : Sockets κ) : Sockets κ := fun j =>
  if j = i then
    ⟨a.stored L j (a.record (s j).record), a.controller C (s j).controller⟩
  else ⟨a.stored L j (s j).record, (s j).controller⟩

def Step : Request → Sockets κ → Sockets κ → Answer → Prop
  | .socket i a, s, t, b => a ≠ .own .spin ∧ ∃ m, Moves C s m ∧
      (∀ w, a.answer C (m i) = some w → b.word = w) ∧ t = apply C L i a m
  | .stop, _, _, _ => False

end Sockets

/-- Code that runs on the host or on a slave. -/
abbrev SocketCode := Program Request Answer

namespace SocketCode

def perform (i : SlaveId) (a : SocketAccess) : SocketCode Unit := do
  let _ ← Program.issue (.socket i a)
  pure ()

def read (i : SlaveId) (a : SocketAccess) : SocketCode Huint := do
  let answer ← Program.issue (.socket i a)
  pure answer.word

def own {α : Type} (i : SlaveId) (p : Code α) : SocketCode α := p.via fun a => .socket i (.own a)

/-- The loop that polls the status, with a bound on its rounds; it is left early on an error. -/
def pollStatus (i : SlaveId) : ℕ → SocketCode Hint
  | 0 => do
    let _ ← Program.issue .stop
    pure failure
  | n + 1 => do
    let readStatus ← read i .readStatus
    if readStatus &&& 0x78 ≠ 0 then pure failure
    else if readStatus &&& 0x07 ≠ 7 then pollStatus i n
    else pure success

/-- `perform_PR` after the `switch` that finds the registers of the socket. `base` is the slave
whose V-HWTI is written. -/
def performPR (n : ℕ) (base mb : SlaveId) (acceleratorType : Huint) : SocketCode Hint := do
  let trigger ← read mb .readTrigger
  -- is there anything pending for this socket?
  (if trigger &&& 0x8000 = 0 then perform mb (.writeTrigger acceleratorType) else pure ())
  let status ← pollStatus mb n
  if status = failure then pure failure
  else do
    perform base (.own (.write .lastUsed acceleratorType))
    pure success

-- `pr.c`: the V-HWTI of the slave that is reconfigured
def hostPerformPR (n : ℕ) (mb acceleratorType : Huint) : SocketCode Hint :=
  if h : mb.toNat < 16 then performPR n ⟨mb.toNat, h⟩ ⟨mb.toNat, h⟩ acceleratorType
  else pure failure

-- `pr_mblaze.c`: the V-HWTI of the slave that the code runs on
def slavePerformPR (n : ℕ) (self : SlaveId) (mb acceleratorType : Huint) : SocketCode Hint :=
  if h : mb.toNat < 16 then performPR n self ⟨mb.toNat, h⟩ acceleratorType else pure failure

def slaveNum (i : SlaveId) : Huint := BitVec.ofNat 32 i

def useHW (n : ℕ) (self : SlaveId) (acceleratorType size : Huint) : SocketCode Bool := do
  let currentAccelerator ← read self (.own (.read .lastUsed))
  let hasPR ← read self .readPrFlag
  if hasPR ≠ prFlag ∧ currentAccelerator ≠ acceleratorType then pure false
  else do
    let first ← read self (.own (.read .firstUsed))
    (if first = noAcc then perform self (.own (.write .firstUsed acceleratorType)) else pure ())
    if currentAccelerator = acceleratorType then pure true
    else if hasPR ≠ 0 then do
      let worthwhile ← read self (.worthwhile acceleratorType size)
      if worthwhile ≠ 0 then do
        let status ← slavePerformPR n self (slaveNum self) acceleratorType
        pure (status == success)
      else pure false
    else pure false

def forEach {α : Type} (body : α → SocketCode Unit) : List α → SocketCode Unit
  | [] => pure ()
  | a :: rest => do
    body a
    forEach body rest

def callAll (n : ℕ) (self : SlaveId) (calls : List (Accelerator × Huint)) : SocketCode Unit :=
  forEach (fun call => do
    let _ ← useHW n self call.1.code call.2
    pure ()) calls

/-- A thread on a slave, from the pointer that `thread_create` writes to its exit. -/
def thread (L : Layout) (n : ℕ) (self : SlaveId) (funcId : Huint)
    (calls : List (Accelerator × Huint)) (ret : Huint) : SocketCode Unit := do
  perform self (.own (.write .firstUsedPtr (L.profile funcId)))
  own self Code.waitForGoCommand
  callAll n self calls
  let _ ← own self (Code.procHwThreadExit ret)
  pure ()

/-- The host reconfigures a slave and updates its table, as `init_slaves` and `init_tuning_table`
do; it stops when this fails. -/
def reconfigure (n : ℕ) (i : SlaveId) (acc : Accelerator) : SocketCode Unit := do
  let status ← hostPerformPR n (slaveNum i) acc.code
  if status ≠ success then do
    let _ ← Program.issue .stop
    pure ()
  else perform i (.writeAcc acc.code)

def introduce (L : Layout) (i : SlaveId) : SocketCode Unit := do
  perform i (.own (.write .lastUsedPtr (L.entry i)))
  let acc ← read i .readAcc
  perform i (.own (.write .lastUsed acc))
  perform i (.writePrFlag prFlag)

def selftest (n : ℕ) (i : SlaveId) : SocketCode Unit := forEach (reconfigure n i) accelerators

def initSlaves (L : Layout) (n : ℕ) (slaves : List SlaveId) : SocketCode Unit := do
  forEach (introduce L) slaves
  forEach (selftest n) slaves

end SocketCode

end Hthreads.Slaves
