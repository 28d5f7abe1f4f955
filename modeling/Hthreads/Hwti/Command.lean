import Hthreads.Library.BitFields
import Hthreads.Scheduler.Entries

/-! The request words of a hardware thread (`common.vhd`) and the command controller of its
interface (`command.vhd`). -/

namespace Hthreads.Hwti

open Library.BitFields Scheduler

def hthreadMtxLock : BitVec 8 := 0x00
def hthreadMtxUnlock : BitVec 8 := 0x01
def hthreadMtxTrylock : BitVec 8 := 0x02
def hthreadMtxOwner : BitVec 8 := 0x03
def hthreadMtxKind : BitVec 8 := 0x04
def hthreadMtxCount : BitVec 8 := 0x05
def hthreadMtxSetkind : BitVec 8 := 0x06

def hthreadCdvOwner : BitVec 8 := 0x10
def hthreadCdvSignal : BitVec 8 := 0x11
def hthreadCdvWait : BitVec 8 := 0x12
def hthreadCdvBroad : BitVec 8 := 0x13

def hthreadThrClear : BitVec 8 := 0x20
def hthreadThrJoin : BitVec 8 := 0x21
def hthreadThrDetach : BitVec 8 := 0x22
def hthreadThrAdd : BitVec 8 := 0x24
def hthreadThrExit : BitVec 8 := 0x27

def statusRunning : BitVec 8 := 0x02
def statusBlocked : BitVec 8 := 0x04
def statusExited : BitVec 8 := 0x08

def commandRun : BitVec 4 := 1

abbrev Tfsl := BitVec 64

section Constructors

variable (mtx cdv : BitVec 6) (knd : BitVec 2) (cmd : BitVec 8) (tid : ThreadId) (arg : Word)

def hwtiMtxCmd : Tfsl := cmd ++ 0#16 ++ knd ++ mtx ++ 0#32

def hwtiMtxLock : Tfsl := hwtiMtxCmd mtx 0 hthreadMtxLock
def hwtiMtxUnlock : Tfsl := hwtiMtxCmd mtx 0 hthreadMtxUnlock
def hwtiMtxTrylock : Tfsl := hwtiMtxCmd mtx 0 hthreadMtxTrylock
def hwtiMtxOwner : Tfsl := hwtiMtxCmd mtx 0 hthreadMtxOwner
def hwtiMtxKind : Tfsl := hwtiMtxCmd mtx 0 hthreadMtxKind
def hwtiMtxSetkind : Tfsl := hwtiMtxCmd mtx knd hthreadMtxSetkind
def hwtiMtxCount : Tfsl := hwtiMtxCmd mtx 0 hthreadMtxCount

def hwtiCdvCmd : Tfsl := cmd ++ 0#16 ++ 0#2 ++ cdv ++ 0#32

def hwtiCdvOwner : Tfsl := hwtiCdvCmd cdv hthreadCdvOwner
def hwtiCdvWait : Tfsl := hwtiCdvCmd cdv hthreadCdvWait
def hwtiCdvSignal : Tfsl := hwtiCdvCmd cdv hthreadCdvSignal
def hwtiCdvBroadcast : Tfsl := hwtiCdvCmd cdv hthreadCdvBroad

def hwtiThrCmd : Tfsl := cmd ++ 0#24 ++ arg

-- the command is that of an exit
def hwtiThrJoin : Tfsl := hwtiThrCmd hthreadThrExit (0#24 ++ tid)
def hwtiThrExit : Tfsl := hwtiThrCmd hthreadThrExit arg
def hwtiThrClear : Tfsl := hwtiThrCmd hthreadThrClear (0#24 ++ tid)
def hwtiThrDetach : Tfsl := hwtiThrCmd hthreadThrDetach 0
def hwtiThrAdd : Tfsl := hwtiThrCmd hthreadThrAdd (0#24 ++ tid)

end Constructors

/-- A request that a hardware thread can make, but for those to the memory. -/
inductive Request
  | mtxLock (mtx : BitVec 6)
  | mtxUnlock (mtx : BitVec 6)
  | mtxTrylock (mtx : BitVec 6)
  | mtxOwner (mtx : BitVec 6)
  | mtxKind (mtx : BitVec 6)
  | mtxSetkind (mtx : BitVec 6) (knd : BitVec 2)
  | mtxCount (mtx : BitVec 6)
  | cdvOwner (cdv : BitVec 6)
  | cdvWait (cdv : BitVec 6)
  | cdvSignal (cdv : BitVec 6)
  | cdvBroadcast (cdv : BitVec 6)
  | thrJoin (tid : ThreadId)
  | thrExit (arg : Word)
  | thrClear (tid : ThreadId)
  | thrDetach
  | thrAdd (tid : ThreadId)
  deriving DecidableEq

def Request.encode : Request → Tfsl
  | .mtxLock mtx => hwtiMtxLock mtx
  | .mtxUnlock mtx => hwtiMtxUnlock mtx
  | .mtxTrylock mtx => hwtiMtxTrylock mtx
  | .mtxOwner mtx => hwtiMtxOwner mtx
  | .mtxKind mtx => hwtiMtxKind mtx
  | .mtxSetkind mtx knd => hwtiMtxSetkind mtx knd
  | .mtxCount mtx => hwtiMtxCount mtx
  | .cdvOwner cdv => hwtiCdvOwner cdv
  | .cdvWait cdv => hwtiCdvWait cdv
  | .cdvSignal cdv => hwtiCdvSignal cdv
  | .cdvBroadcast cdv => hwtiCdvBroadcast cdv
  | .thrJoin tid => hwtiThrJoin tid
  | .thrExit arg => hwtiThrExit arg
  | .thrClear tid => hwtiThrClear tid
  | .thrDetach => hwtiThrDetach
  | .thrAdd tid => hwtiThrAdd tid

-- `opdev`, `opcmd` and `oparg`
def opdev (w : Tfsl) : BitVec 4 := slice w 0 4
def opcmd (w : Tfsl) : BitVec 4 := slice w 4 4
def oparg (w : Tfsl) : BitVec 24 := slice w 8 24
def opknd (w : Tfsl) : BitVec 2 := slice w 24 2

inductive CommandState
  | start | wakeup | idle | read | send | write | recv | hold | blocked
  deriving DecidableEq

/-- The base addresses of the cores. Below them there is room for what a command is made of. -/
structure Bases where
  mtx : Word
  cdv : Word
  mng : Word
  mtx_clear : ∀ i, 2 ≤ i → i < 20 → mtx.getLsbD i = false
  cdv_clear : ∀ i, 2 ≤ i → i < 21 → cdv.getLsbD i = false
  mng_clear : ∀ i, 2 ≤ i → i < 18 → mng.getLsbD i = false

/-- The defaults of the generics. -/
def Bases.default : Bases where
  mtx := 0x75000000
  cdv := 0x74000000
  mng := 0x60000000
  mtx_clear i hlo hhi := by interval_cases i <;> rfl
  cdv_clear i hlo hhi := by interval_cases i <;> rfl
  mng_clear i hlo hhi := by interval_cases i <;> rfl

section Addresses

variable (b : Bases) (tid : ThreadId) (arg : BitVec 24) (cmd : BitVec 4)

def mutexCmd : Word := insert 12 cmd (insert 16 tid (insert 24 (slice arg 18 6) b.mtx))
def condvCmd : Word := insert 11 cmd (insert 16 tid (insert 24 (slice arg 18 6) b.cdv))
def managCmd : Word := insert 18 cmd (insert 22 tid b.mng)

end Addresses

structure Inputs where
  tid : ThreadId
  arg : Word
  opcodeData : Tfsl
  opcodeExists : Bool
  resultFull : Bool
  memrd : Bool
  memwr : Bool
  command : BitVec 4
  ack : Bool
  last : Bool
  results : BitVec 64

structure Drive where
  opcodeRead : Bool := false
  resultWrite : Bool := false
  resultData : Tfsl := 0
  resultControl : Bool := false
  memrdack : Bool := false
  memwrack : Bool := false
  setsta : Bool := false
  osta : BitVec 8 := 0
  setres : Bool := false
  ores : Word := 0
  rd : Bool := false
  wr : Bool := false
  addr : Word := 0
  data : BitVec 64 := 0
  bytes : BitVec 24 := 0

structure Regs where
  cmdCs : CommandState
  lastCv : Bool

/-- The access that a request word is turned into, with the state that waits for it. A word for no
device is answered and stays where it is. -/
def idle (b : Bases) (i : Inputs) : CommandState × Drive :=
  let dev := opdev i.opcodeData
  let cmd := opcmd i.opcodeData
  let arg := oparg i.opcodeData
  if dev = 0 then
    if cmd = 6 then
      (.hold, { wr := true, bytes := 4, addr := mutexCmd b i.tid arg 4
                data := (opknd i.opcodeData).setWidth 64 })
    else (.hold, { rd := true, bytes := 4, addr := mutexCmd b i.tid arg cmd })
  else if dev = 1 then (.hold, { rd := true, bytes := 4, addr := condvCmd b i.tid arg cmd })
  else if dev = 2 then
    (.hold,
      { rd := true, bytes := 4
        addr := managCmd b (if cmd = 7 ∨ cmd = 2 then i.tid else slice arg 16 8) cmd })
  else if dev = 3 then
    let addr := slice i.opcodeData 32 32
    if cmd = 0 then (.read, { rd := true, bytes := arg, addr := addr })
    else (.recv, { wr := true, bytes := arg, addr := addr })
  else (.idle, { resultControl := true, resultWrite := true })

/-- What becomes of a request when its access has been acknowledged, besides the reading of the
word. -/
def acknowledged (i : Inputs) (d : Drive) : CommandState × Drive :=
  let dev := opdev i.opcodeData
  let cmd := opcmd i.opcodeData
  let low := slice i.results 60 4
  let block : CommandState × Drive := (.blocked, { d with setsta := true, osta := statusBlocked })
  let answer : CommandState × Drive := (.idle, { d with resultWrite := true })
  if dev = 0 then if bit i.results 1 = true ∧ cmd ≠ 2 then block else answer
  else if dev = 1 then
    -- a failed one is left unanswered in `HOLD`
    if low ≠ 0xe then if cmd = 2 then block else answer
    else (.hold, d)
  else if dev = 2 then
    if low = 0b0011 then block
    else if cmd = 7 then
      (.start, { d with setsta := true, osta := statusExited, setres := true
                        ores := slice i.opcodeData 32 32 })
    else answer
  else answer

/-- `controller`. -/
def controller (b : Bases) (i : Inputs) (s : Regs) : Regs × Drive :=
  match s.cmdCs with
  | .start =>
    if i.command = commandRun then (⟨.wakeup, false⟩, { setsta := true, osta := statusRunning })
    else (⟨.start, false⟩, {})
  | .wakeup =>
    if i.resultFull = false then
      (⟨.idle, false⟩,
        { resultWrite := true, resultControl := true, resultData := 0#24 ++ i.tid ++ i.arg })
    else (⟨.wakeup, false⟩, {})
  | .idle =>
    if i.opcodeExists = true ∧ i.resultFull = false then
      let next := idle b i
      (⟨next.1, false⟩, next.2)
    else (⟨.idle, false⟩, {})
  | .read =>
    if i.last then (⟨.idle, false⟩, { resultData := i.results, opcodeRead := true })
    else if i.memwr then
      if i.resultFull = false then
        (⟨.read, false⟩, { resultData := i.results, memwrack := true, resultWrite := true })
      else (⟨.send, false⟩, { resultData := i.results })
    else (⟨.read, false⟩, { resultData := i.results })
  | .send =>
    if i.resultFull = false then
      (⟨if s.lastCv then .idle else .read, s.lastCv⟩,
        { memwrack := true, resultWrite := true, resultData := i.results })
    else (⟨.send, s.lastCv⟩, {})
  | .write =>
    if i.last then (⟨.idle, false⟩, {})
    else if i.memrd then
      if i.opcodeExists then (⟨.write, false⟩, { opcodeRead := true, memrdack := true })
      else (⟨.recv, false⟩, {})
    else (⟨.write, false⟩, {})
  | .recv =>
    if i.opcodeExists then (⟨.write, false⟩, { opcodeRead := true, memrdack := true })
    else (⟨.recv, false⟩, {})
  | .hold =>
    let waits : Drive :=
      { memwrack := i.memrd, memrdack := i.memwr, data := (opknd i.opcodeData).setWidth 64 }
    if i.ack then
      let next := acknowledged i { waits with opcodeRead := true }
      (⟨next.1, false⟩, next.2)
    else (⟨.hold, false⟩, waits)
  | .blocked =>
    if i.command = commandRun then
      (⟨.idle, false⟩, { resultWrite := true, setsta := true, osta := statusRunning })
    else (⟨.blocked, false⟩, {})

end Hthreads.Hwti
