import Hthreads.Library.ByteOrder

/-! The buffers of the controller and the routines that fill, empty, signal and release them
(`ethlite.c`). -/

namespace Hthreads.Ethlite

open Library

abbrev Word := BitVec 32

def controlStatus : Word := 0x1
def controlIntr : Word := 0x8

/-- The driver's record with the registers it points to. The ping buffer is `false`, the pong
buffer `true`; `acks` lists the receive buffers released so far. -/
structure Eth where
  recvToggle : Bool
  sendToggle : Bool
  rxintr : Word
  txintr : Word
  rxbuffer : Bool → Words
  txbuffer : Bool → Words
  rxcontrol : Bool → Word
  txcontrol : Bool → Word
  txlength : Bool → Word
  acks : List Bool

def statusSet (control : Word) : Bool := control &&& controlStatus != 0

-- `none`: the loop polls once more
def txwait (eth : Eth) : Option Bool :=
  let busy b := statusSet (eth.txcontrol b)
  if !eth.sendToggle then (if busy false then none else some false)
  else if busy false && busy true then none
  else if busy false then some true
  else some false

def rxwait (eth : Eth) : Option Bool :=
  let full b := statusSet (eth.rxcontrol b)
  if !eth.recvToggle then (if !full false then none else some false)
  else if !full false && !full true then none
  else if !full false then some true
  else some false

def wordLength (len : ℕ) : ℕ := if len % 4 = 0 then len / 4 else len / 4 + 1

-- the stores of a loop that copies `l` words
def fill (data : Words) (l : ℕ) : List (ℕ × Word) := (List.range l).map fun i => (i, data i)

def sendfill (eth : Eth) (b : Bool) (data : Words) (len : ℕ) : Eth :=
  let stores := fill data (wordLength len)
  { eth with txbuffer := Function.update eth.txbuffer b (Words.stored stores (eth.txbuffer b)) }

def sendsignal (eth : Eth) (b : Bool) (length : BitVec 16) : Eth :=
  { eth with
    txlength := Function.update eth.txlength b (length.setWidth 32)
    txcontrol := Function.update eth.txcontrol b (eth.txintr ||| controlStatus) }

def recvfill (eth : Eth) (b : Bool) (len : ℕ) : List (ℕ × Word) :=
  fill (eth.rxbuffer b) (wordLength len)

def recvack (eth : Eth) (b : Bool) : Eth :=
  { eth with
    rxcontrol := Function.update eth.rxcontrol b eth.rxintr
    acks := eth.acks ++ [b] }

/-- The word the length pointer of a receive buffer points to, twelve bytes into the frame. -/
def rxlength (eth : Eth) (b : Bool) : Word := eth.rxbuffer b 3

def recvsize (eth : Eth) (b : Bool) : ℕ :=
  let len := (rxlength eth b >>> 16).toNat
  if len > 1500 then 1500 else len

lemma wordLength_eq (len : ℕ) : wordLength len = (len + 3) / 4 := by
  rw [wordLength]
  split
  all_goals omega

lemma recvsize_le (eth : Eth) (b : Bool) : recvsize eth b ≤ 1500 := by
  rw [recvsize]
  split
  all_goals omega

lemma stored_fill (data buffer : Words) (l : ℕ) :
    Words.stored (fill data l) buffer = buffer.overwrite data l := Words.stored_range

end Hthreads.Ethlite
