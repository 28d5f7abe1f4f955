import Hthreads.Software.Attributes

/-! How the thread table code of an application (`table_code_template.c`) looks for a free slave
processor. -/

namespace Hthreads.Slaves

open Software

def flagHwtiFree : Huint := 0x0000
def flagHwtiUtilized : Huint := 0x0001

def noAcc : Huint := -1
def enqueueThread : Hint := -2

-- the mark that `hcompile` writes in a preference list after the last slave
def notListed : Huint := -1

structure Slave where
  isa : Huint
  pr : Bool

structure ThreadProfile where
  firstAccelerator : Huint
  preferPR : Bool

/-- The tables that `hcompile` puts in front of the code. An array is a function because the code
can be made to look past its end; what it finds there is not the array's. -/
structure Platform where
  cpus : ℕ
  hwtiArray : ℕ → Huint
  slaveTable : ℕ → Slave
  typeHost : Huint
  lookupThread (funcId type : Huint) : Huint
  threadProfile (funcId : Huint) : ThreadProfile
  preferredList (funcId : Huint) (index : ℕ) : Huint
  nonPreferredList (funcId : Huint) (index : ℕ) : Huint
  opcodeFlagging : Bool
  checkFirstPolymorphic : Bool
  cpus_lt : cpus < 2 ^ 31
  preferredList_lt (funcId : Huint) (index : ℕ) :
    preferredList funcId index = notListed ∨ (preferredList funcId index).toNat < cpus
  nonPreferredList_lt (funcId : Huint) (index : ℕ) :
    nonPreferredList funcId index = notListed ∨ (nonPreferredList funcId index).toNat < cpus

/-- What the slaves and the kernel answer during one call. The flags and the accelerator of a slave
change while the code looks at them, so each look has its own answer. -/
structure Surroundings where
  counted (round slave : ℕ) : Huint
  matched (index : ℕ) : Huint
  accelerator (index : ℕ) : Huint
  flagged : Huint
  created (call : ℕ) : Hint

inductive Cell
  | hwtiArray (i : ℕ)
  | slaveTable (i : ℕ)
  | threadQueue (i : ℕ)

def threadQueueMax : ℕ := 100

def Cell.InBounds (P : Platform) : Cell → Prop
  | hwtiArray i | slaveTable i => i < P.cpus
  | threadQueue i => i < threadQueueMax

namespace Platform

variable (P : Platform) (E : Surroundings) (funcId : Huint)

def hasPolyFunction : Bool := (P.threadProfile funcId).firstAccelerator != noAcc

-- `none` is the return of ENQUEUE_THREAD at the end of a list
def slaveAt (index : ℕ) : Option Huint :=
  if P.opcodeFlagging then
    if !P.hasPolyFunction funcId then
      let slave :=
        if P.preferredList funcId 0 = notListed then P.nonPreferredList funcId index
        else P.preferredList funcId index
      if slave = notListed then none else some slave
    else if P.preferredList funcId index = notListed then some (P.nonPreferredList funcId index)
    else some (P.preferredList funcId index)
  else some (BitVec.ofNat 32 index)

inductive Fit
  | perfect
  | best
  | better
  | possible
  deriving DecidableEq

def fit (slave : Huint) (acc : Huint) : Fit :=
  let profile := P.threadProfile funcId
  if profile.preferPR then
    if (P.slaveTable slave.toNat).pr then
      if profile.firstAccelerator = acc then .perfect else .best
    else if profile.firstAccelerator = acc then .better
    else .possible
  else if profile.firstAccelerator = acc then
    if (P.slaveTable slave.toNat).pr then .best else .perfect
  else if (P.slaveTable slave.toNat).pr then .better
  else .possible

structure Matches where
  bestMatch : Hint
  betterMatch : Hint
  possibleMatch : Hint

def Matches.none : Matches := ⟨-1, -1, -1⟩

-- each match keeps the first slave that it was set to
def Matches.record (m : Matches) (slave : Hint) : Fit → Matches
  | .perfect => m
  | .best => { m with bestMatch := if m.bestMatch = -1 then slave else m.bestMatch }
  | .better => { m with betterMatch := if m.betterMatch = -1 then slave else m.betterMatch }
  | .possible => { m with possibleMatch := if m.possibleMatch = -1 then slave else m.possibleMatch }

def Matches.choose (m : Matches) : Hint :=
  if 0 ≤ m.bestMatch.toInt then m.bestMatch
  else if 0 ≤ m.betterMatch.toInt then m.betterMatch
  else if 0 ≤ m.possibleMatch.toInt then m.possibleMatch
  else enqueueThread

/-- The loop from `index` on, with `left` rounds to go, and the array elements it looks at. -/
def scan (m : Matches) (index : ℕ) : ℕ → Hint × List Cell
  | 0 => (m.choose, [])
  | left + 1 =>
    match P.slaveAt funcId index with
    | .none => (enqueueThread, [])
    | some slave =>
      let flag := Cell.hwtiArray slave.toNat
      if E.matched index = flagHwtiFree then
        if P.hasPolyFunction funcId then
          let table := Cell.slaveTable slave.toNat
          let fit := P.fit funcId slave (E.accelerator index)
          if P.checkFirstPolymorphic ∧ fit ≠ .perfect then
            let (found, cells) := scan (m.record slave fit) (index + 1) left
            (found, flag :: table :: cells)
          else (slave, [flag, table])
        else (slave, [flag])
      else
        let (found, cells) := scan m (index + 1) left
        (found, flag :: cells)

def findBestMatch : Hint × List Cell :=
  P.scan E funcId .none 0 P.cpus

def getNumFreeSlaves (flag : ℕ → Huint) : ℕ :=
  (List.range P.cpus).countP (fun i => flag i = flagHwtiFree)

def allSlaves : List Cell :=
  (List.range P.cpus).map .hwtiArray

/-- The loop that waits for a free slave; `none` when it still waits after `fuel` rounds. -/
def awaitFree : ℕ → ℕ → Option (List Cell)
  | 0, _ => none
  | fuel + 1, round =>
    if P.getNumFreeSlaves (E.counted round) = 0 then
      (awaitFree fuel (round + 1)).map (P.allSlaves ++ ·)
    else some P.allSlaves

end Platform

end Hthreads.Slaves
