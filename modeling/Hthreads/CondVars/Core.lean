import Hthreads.Library.Bram
import Hthreads.Scheduler.Entries

/-! The state machine of the condition variable core (`cond_vars.des`, `condvar.vhd`). -/

namespace Hthreads.CondVars

open Library Scheduler

abbrev Cvar := BitVec 8
abbrev Addr := BitVec 11

-- four regions of one table
def lengthEntry (cvar : Cvar) : Addr := 0#3 ++ cvar
def linkEntry (tid : ThreadId) : Addr := 1#3 ++ tid
def lastReqEntry (cvar : Cvar) : Addr := 2#3 ++ cvar
def ownerEntry (cvar : Cvar) : Addr := 3#3 ++ cvar

inductive Op
  | enqueue
  | dequeue
  | dequeueAll
  deriving DecidableEq

def Op.code : Op → BitVec 2
  | enqueue => 2
  | dequeue => 1
  | dequeueAll => 3

def Op.ofCode (opcode : BitVec 2) : Option Op :=
  if opcode = Op.enqueue.code then some .enqueue
  else if opcode = Op.dequeue.code then some .dequeue
  else if opcode = Op.dequeueAll.code then some .dequeueAll
  else none

@[simp] lemma Op.ofCode_code (op : Op) : ofCode op.code = some op := by
  cases op <;> rfl

inductive State
  | reset
  | initBram
  | idle
  | enqBegin
  | extra1
  | extra2
  | enqAdjustQueue
  | enqAddToEmptyQueue
  | enqAddToNonemptyQueue
  | extra3
  | extra4
  | enqAddLink
  | deqBegin
  | extra5
  | extra6
  | deqExamineLength
  | extra7
  | extra8
  | deqRemoveOnly
  | extra9
  | extra10
  | deqRemoveGeneral
  | extra11
  | extra12
  | deqSendOwner
  | deqallBegin
  | extra13
  | extra14
  | deqallExamineLength
  | extra15
  | extra16
  | extra17
  | extra18
  | deqallRemoveLoop
  | extra19
  | extra20
  | deqallDone
  | transactionComplete
  | returnToIdle
  deriving DecidableEq

structure Regs where
  state : State
  addrCounter : Addr
  argCvar : Cvar
  argTid : ThreadId
  entry : BitVec 8
  done : Bool

structure Lines where
  cmd : Bool
  opcode : BitVec 2
  cvar : Cvar
  tid : ThreadId
  full : Bool

structure Core where
  regs : Regs
  table : DualBram 11 8

/-- What the core drives in one cycle: its next registers, both ports of the table and the
message channel. -/
structure Drive where
  next : Regs
  port0 : Port 11 8 := .off
  port1 : Port 11 8 := .off
  sent : Option ThreadId := none

-- the write waits as long as the channel is full
def sendOrStall (full : Bool) (r next : Regs) : Drive :=
  if full then { next := r } else { next := next, sent := some r.entry }

def idleDrive (x : Lines) (r : Regs) : Drive :=
  match x.cmd, Op.ofCode x.opcode with
  | true, some .enqueue =>
    { next := { r with state := .enqBegin, argCvar := x.cvar, argTid := x.tid } }
  | true, some .dequeue => { next := { r with state := .deqBegin, argCvar := x.cvar } }
  | true, some .dequeueAll => { next := { r with state := .deqallBegin, argCvar := x.cvar } }
  | _, _ => { next := { r with done := false } }

def drive (x : Lines) (dout0 dout1 : BitVec 8) (r : Regs) : Drive :=
  match r.state with
  | .reset =>
    { next := { r with state := .initBram, addrCounter := BitVec.allOnes 11 }, port0 := .write 0 0 }
  | .initBram =>
    if r.addrCounter ≠ 0 then
      { next := { r with addrCounter := r.addrCounter - 1 }, port0 := .write r.addrCounter 0 }
    else { next := { r with state := .idle, done := true } }
  | .idle => idleDrive x r
  | .enqBegin => { next := { r with state := .extra1 }, port0 := .read (lengthEntry r.argCvar) }
  | .extra1 => { next := { r with state := .extra2 } }
  | .extra2 => { next := { r with state := .enqAdjustQueue, entry := dout0 + 1 } }
  | .enqAdjustQueue =>
    { next := { r with state := if r.entry = 1 then .enqAddToEmptyQueue else
      .enqAddToNonemptyQueue }
      port0 := .write (lengthEntry r.argCvar) r.entry }
  | .enqAddToEmptyQueue =>
    { next := { r with state := .transactionComplete, done := true }
      port0 := .write (ownerEntry r.argCvar) r.argTid
      port1 := .write (lastReqEntry r.argCvar) r.argTid }
  | .enqAddToNonemptyQueue =>
    { next := { r with state := .extra3 }, port0 := .read (lastReqEntry r.argCvar) }
  | .extra3 => { next := { r with state := .extra4 } }
  | .extra4 => { next := { r with state := .enqAddLink, entry := dout0 } }
  | .enqAddLink =>
    { next := { r with state := .transactionComplete, done := true }
      port0 := .write (lastReqEntry r.argCvar) r.argTid
      port1 := .write (linkEntry r.entry) r.argTid }
  | .deqBegin => { next := { r with state := .extra5 }, port0 := .read (lengthEntry r.argCvar) }
  | .extra5 => { next := { r with state := .extra6 } }
  | .extra6 => { next := { r with state := .deqExamineLength, entry := dout0 } }
  | .deqExamineLength =>
    if r.entry = 0 then { next := { r with state := .transactionComplete, done := true } }
    else
      { next := { r with state := if r.entry = 1 then .extra7 else .extra9 }
        port1 := .read (ownerEntry r.argCvar) }
  | .extra7 => { next := { r with state := .extra8 } }
  | .extra8 =>
    { next := { r with state := .deqRemoveOnly, entry := dout1 }
      port0 := .write (lengthEntry r.argCvar) 0 }
  | .deqRemoveOnly => sendOrStall x.full r { r with state := .transactionComplete, done := true }
  | .extra9 => { next := { r with state := .extra10 } }
  | .extra10 =>
    { next := { r with state := .deqRemoveGeneral, entry := dout1 }
      port0 := .write (lengthEntry r.argCvar) (r.entry - 1) }
  | .deqRemoveGeneral =>
    { next := { r with state := .extra11 }, port1 := .read (linkEntry r.entry) }
  | .extra11 => { next := { r with state := .extra12 } }
  | .extra12 =>
    { next := { r with state := .deqSendOwner }, port0 := .write (ownerEntry r.argCvar) dout1 }
  | .deqSendOwner => sendOrStall x.full r { r with state := .transactionComplete, done := true }
  | .deqallBegin => { next := { r with state := .extra13 }, port0 := .read (lengthEntry r.argCvar) }
  | .extra13 => { next := { r with state := .extra14 } }
  | .extra14 => { next := { r with state := .deqallExamineLength, entry := dout0 } }
  | .deqallExamineLength =>
    if r.entry = 0 then { next := { r with state := .transactionComplete, done := true } }
    else
      { next := { r with state := if r.entry = 1 then .extra15 else .extra17 }
        port1 := .read (ownerEntry r.argCvar) }
  | .extra15 => { next := { r with state := .extra16 } }
  | .extra16 =>
    { next := { r with state := .deqRemoveOnly, entry := dout1 }
      port0 := .write (lengthEntry r.argCvar) 0 }
  | .extra17 => { next := { r with state := .extra18 } }
  -- the register of the thread id counts the waiters still to be woken
  | .extra18 =>
    { next := { r with state := .deqallRemoveLoop, entry := dout1, argTid := r.entry }
      port0 := .write (lengthEntry r.argCvar) 0 }
  | .deqallRemoveLoop =>
    if r.argTid ≠ 0 then
      { next := { r with state := .extra19 }, port0 := .read (linkEntry r.entry) }
    else { next := { r with state := .deqallDone } }
  | .extra19 => { next := { r with state := .extra20 } }
  | .extra20 =>
    sendOrStall x.full r
      { r with state := .deqallRemoveLoop, entry := dout0, argTid := r.argTid - 1 }
  | .deqallDone => { next := { r with state := .transactionComplete, done := true } }
  | .transactionComplete => { next := { r with state := .returnToIdle, done := false } }
  | .returnToIdle => { next := if x.cmd then r else { r with state := .idle } }

namespace Core

def driven (x : Lines) (c : Core) : Drive := drive x c.table.dout0 c.table.dout1 c.regs

def clock (x : Lines) (c : Core) : Core :=
  ⟨(c.driven x).next, c.table.clock (c.driven x).port0 (c.driven x).port1⟩

def reset (x : Lines) (c : Core) : Core :=
  ⟨⟨.reset, 0, 0, 0, 0, false⟩, c.table.clock (c.driven x).port0 (c.driven x).port1⟩

def sent (x : Lines) (c : Core) : Option ThreadId := (c.driven x).sent

end Core

end Hthreads.CondVars
