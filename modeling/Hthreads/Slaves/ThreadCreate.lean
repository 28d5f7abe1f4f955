import Hthreads.Slaves.Matching

/-! `thread_create` with its three ways to place a thread: on the host, on a slave that it looks
for, and on the slave that the type names. -/

namespace Hthreads.Slaves

open Software

def softwareThread : Huint := 0
def dynamicHw : Huint := 1
def staticHw0 : Huint := 2
def staticHwOffset : Huint := -2

structure Qnode where
  tid : Huint
  attr : Huint
  funcId : Huint
  arg : Huint
  deriving DecidableEq

structure Call where
  tid : Huint
  attr : Huint
  attributes : Attr
  funcId : Huint
  arg : Huint
  type : Huint

def Call.request (c : Call) : Qnode := ⟨c.tid, c.attr, c.funcId, c.arg⟩

structure ThreadQueue where
  slots : Fin threadQueueMax → Qnode
  head : Fin threadQueueMax
  tail : Fin threadQueueMax
  threadHeadIndex : Huint
  threadTailIndex : Huint
  threadEntries : Huint

instance : NeZero threadQueueMax := ⟨by decide⟩

namespace ThreadQueue

def reset (q : ThreadQueue) : ThreadQueue :=
  { q with head := 0, tail := 0, threadHeadIndex := 0, threadTailIndex := 0, threadEntries := 0 }

def nextTailIndex (q : ThreadQueue) : Huint :=
  (q.threadTailIndex + 1) % BitVec.ofNat 32 threadQueueMax

def enqueue (request : Qnode) (q : ThreadQueue) : ThreadQueue :=
  { q with
    slots := Function.update q.slots q.tail request
    threadTailIndex := q.nextTailIndex
    tail := Fin.ofNat threadQueueMax q.nextTailIndex.toNat
    threadEntries := q.threadEntries + 1 }

end ThreadQueue

structure Tables where
  tableInitializedFlag : Bool
  queue : ThreadQueue
  threadCounter : Huint

structure Creation where
  tid : Huint
  attributes : Option Attr
  func : Huint
  arg : Huint
  status : Hint

/-- A call on its way: the threads that it has asked the kernel for and the array elements that it
has looked at. -/
structure Progress where
  ret : Huint
  created : List Creation
  indexed : List Cell
  tables : Tables

namespace Progress

variable (P : Platform) (E : Surroundings) (c : Call)

def look (cells : List Cell) (o : Progress) : Progress :=
  { o with indexed := o.indexed ++ cells }

def initHostTables (o : Progress) : Progress :=
  if o.tables.tableInitializedFlag then o
  else
    { o with
      indexed := o.indexed ++ P.allSlaves ++ (List.range P.cpus).map .slaveTable ++ [.threadQueue 0]
      tables := { o.tables with tableInitializedFlag := true, queue := o.tables.queue.reset } }

def hthreadCreate (attributes : Option Attr) (func : Huint) (o : Progress) : Progress :=
  let status := E.created o.created.length
  { o with
    ret := status
    created := o.created ++ [⟨c.tid, attributes, func, c.arg, status⟩] }

def countThread (o : Progress) : Progress :=
  { o with tables := { o.tables with threadCounter := o.tables.threadCounter + 1 } }

def softwareCreate (attributes : Option Attr) (o : Progress) : Progress :=
  let func := P.lookupThread c.funcId P.typeHost
  (o.initHostTables P).countThread.hthreadCreate E c attributes func

def enqueue (o : Progress) : Progress :=
  { o with
    ret := success
    indexed := o.indexed ++
      [.threadQueue o.tables.queue.tail, .threadQueue o.tables.queue.nextTailIndex.toNat]
    tables := { o.tables with queue := o.tables.queue.enqueue c.request } }

def createOnSlave (slaveNum : Huint) (o : Progress) : Progress :=
  let func := P.lookupThread c.funcId (P.slaveTable slaveNum.toNat).isa
  let attributes := (c.attributes.setHardware (P.hwtiArray slaveNum.toNat)).2
  (o.look [.slaveTable slaveNum.toNat, .hwtiArray slaveNum.toNat]).hthreadCreate E c
    (some attributes) func

def createSoftware (o : Progress) : Progress :=
  if c.attributes.hardware then { o with ret := failure }
  else o.softwareCreate P E c (some c.attributes)

def createDynamic (o : Progress) : Progress :=
  let (slaveNum, cells) := P.findBestMatch E c.funcId
  let o := o.look cells
  if slaveNum = failure then o.softwareCreate P E c none
  else if slaveNum = enqueueThread then o.enqueue c
  else o.createOnSlave P E c slaveNum

-- a slave number that is too large gets a software thread, and then is used all the same
def createStatic (o : Progress) : Progress :=
  let slaveNum := c.type + staticHwOffset
  let o := if P.cpus ≤ slaveNum.toNat then o.softwareCreate P E c none else o
  let o := o.look [.hwtiArray slaveNum.toNat]
  if E.flagged = flagHwtiUtilized then o.softwareCreate P E c none
  else o.createOnSlave P E c slaveNum

def start (d : Tables) : Progress :=
  initHostTables P { ret := 0, created := [], indexed := [], tables := d }

end Progress

/-- `none` is a call that the assertion stops, or that still waits after `fuel` rounds. -/
def threadCreate (P : Platform) (E : Surroundings) (fuel : ℕ) (c : Call) (d : Tables) :
    Option Progress :=
  if c.attr = null then none
  else if c.type = dynamicHw then
    (P.awaitFree E fuel 0).map fun waited => ((Progress.start P d).look waited).createDynamic P E c
  else if c.type = softwareThread then some ((Progress.start P d).createSoftware P E c)
  else some ((Progress.start P d).createStatic P E c)

end Hthreads.Slaves
