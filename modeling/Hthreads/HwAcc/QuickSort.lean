import Hthreads.HwAcc.Channel
import Hthreads.Library.Bram

/-! The quick sort core (`hw_acc_quicksort`). It recurses by way of the processor, which keeps the
local variables, the arguments and the return addresses of its calls. -/

namespace Hthreads.HwAcc.QuickSort

open Library

inductive State
  | reset | idle | decode | sendRequest | sendRequest2 | waitForMblaze
  | readSortdata4 | readSortdata5 | readSortdata6 | readSortdata7 | readSortdata8
  | callQsort1 | callQsort2 | callQsort3 | exitThread1
  | quicksort1 | quicksort2 | quicksort3 | quicksort4 | quicksort5 | quicksort6 | quicksort7
  | quicksort8 | quicksort9 | quicksortA | quicksortB | quicksortDo
  | whileLeft0 | whileLeft1 | whileLeft2 | whileLeft3 | break
  | whileRight1 | whileRight2 | whileRight3 | swap1 | swap2 | swap3 | swap4 | swap5 | while
  | callQs0 | callQs1 | callQs2 | callQs3 | callQs4 | callQs5 | callQs6 | callQs7 |
    callQs8 | callQs9
  | callQsA | quicksortReturn
  deriving DecidableEq

def uExitThread1 : BitVec 16 := 0x0021
def uQuicksortCallQs6 : BitVec 16 := 0x0171
def uQuicksortReturn : BitVec 16 := 0x0181

def opcodeDeclare : BitVec 6 := 0b000011
def opcodeRead : BitVec 6 := 0b000100
def opcodeWrite : BitVec 6 := 0b000101
def opcodePush : BitVec 6 := 0b010000
def opcodePop : BitVec 6 := 0b010001
def opcodeCall : BitVec 6 := 0b010010
def opcodeReturn : BitVec 6 := 0b010011

structure Vars where
  startPtr : Word
  endPtr : Word
  leftPtr : Word
  rightPtr : Word
  left : Word
  right : Word
  pivot : Word

structure Link where
  data1 : Word
  arg1 : Word
  arg2 : Word
  param1 : BitVec 16
  param2 : Word
  opcode : BitVec 6
  returnState : State
  mblazeRet : Word

structure Core where
  currentState : State
  vars : Vars
  link : Link

def Core.send (s : Core) (x : Link) : Core := { s with currentState := .sendRequest, link := x }

structure Wires where
  array_dOUT0 : Word
  chan1_exists : Bool
  chan1_full : Bool
  chan1_channelDataOut : Word

structure Drive where
  array : Port 32 32 := .off
  chan1 : ChanDrive := {}

/-- Where a return goes on, by the code that the call has left with the processor. -/
def returnTo (code : BitVec 16) : State :=
  if code = uQuicksortCallQs6 then .callQs6
  else if code = uQuicksortReturn then .quicksortReturn
  else if code = uExitThread1 then .exitThread1
  else .reset

/-- `FSM_COMB_PROCESS`, and the clock edge after it. -/
def comb (w : Wires) (s : Core) : Core × Drive :=
  let v := s.vars
  let x := s.link
  let next (st : State) (v : Vars) : Core × Drive := ({ s with currentState := st, vars := v }, {})
  match s.currentState with
  | .sendRequest =>
    let drive : Drive :=
      { chan1 := { channelWrite := true, channelDataIn := x.opcode ++ 0#10 ++ x.param1 } }
    if w.chan1_full then (s, drive)
    else if x.opcode = opcodePush ∨ x.opcode = opcodeWrite then
      ({ s with currentState := .sendRequest2 }, drive)
    else ({ s with currentState := .waitForMblaze }, drive)
  | .sendRequest2 =>
    let drive : Drive := { chan1 := { channelWrite := true, channelDataIn := x.param2 } }
    if w.chan1_full then (s, drive) else ({ s with currentState := .waitForMblaze }, drive)
  | .waitForMblaze =>
    let drive : Drive := { chan1 := { channelRead := true } }
    if w.chan1_exists then
      ({ s with
          link := { x with mblazeRet := w.chan1_channelDataOut }
          currentState :=
            if x.opcode ≠ opcodeReturn then x.returnState
            else returnTo (w.chan1_channelDataOut.extractLsb' 0 16) }, drive)
    else (s, drive)
  | .reset => next .idle v
  | .idle =>
    if w.chan1_exists then
      ({ s with currentState := .decode, link := { x with data1 := w.chan1_channelDataOut } },
        { chan1 := { channelRead := true } })
    else (s, {})
  | .decode =>
    ({ s with
        currentState := .readSortdata4
        link := { x with arg2 := endField x.data1, arg1 := startField x.data1 } }, {})
  | .readSortdata4 =>
    ({ s with
        currentState := .sendRequest
        vars := { v with
          endPtr := x.arg2, startPtr := x.arg1, leftPtr := x.arg1, rightPtr := x.arg2 }
        link := { x with
          opcode := opcodeDeclare, param1 := 4, returnState := .readSortdata5 } }, {})
  | .readSortdata5 =>
    (s.send { x with
      opcode := opcodeWrite, param1 := 0, param2 := v.startPtr, returnState := .readSortdata6 }, {})
  | .readSortdata6 =>
    (s.send { x with
      opcode := opcodeWrite, param1 := 1, param2 := v.endPtr, returnState := .readSortdata7 }, {})
  | .readSortdata7 =>
    (s.send { x with
      opcode := opcodeWrite, param1 := 2, param2 := v.leftPtr, returnState := .readSortdata8 }, {})
  | .readSortdata8 =>
    (s.send { x with
      opcode := opcodeWrite, param1 := 3, param2 := v.rightPtr, returnState := .callQsort1 }, {})
  | .callQsort1 =>
    (s.send { x with opcode := opcodePush, param2 := v.rightPtr, returnState := .callQsort2 }, {})
  | .callQsort2 =>
    (s.send { x with opcode := opcodePush, param2 := v.leftPtr, returnState := .callQsort3 }, {})
  | .callQsort3 =>
    (s.send { x with opcode := opcodeCall, param1 := uExitThread1, returnState := .quicksort1 }, {})
  | .exitThread1 => (s.send { x with opcode := 0, param1 := 0, returnState := .idle }, {})
  | .quicksort1 => (s.send { x with opcode := opcodePop, returnState := .quicksort2 }, {})
  | .quicksort2 =>
    ({ s with
        currentState := .sendRequest, vars := { v with startPtr := x.mblazeRet }
        link := { x with opcode := opcodePop, returnState := .quicksort3 } }, {})
  | .quicksort3 => next .quicksort4 { v with endPtr := x.mblazeRet }
  | .quicksort4 =>
    (s.send { x with opcode := opcodeDeclare, param1 := 2, returnState := .quicksort5 }, {})
  | .quicksort5 => next .quicksort6 { v with leftPtr := v.startPtr, rightPtr := v.endPtr }
  | .quicksort6 =>
    if v.leftPtr ≥ v.rightPtr then next .quicksortReturn v else next .quicksort7 v
  | .quicksort7 => ({ s with currentState := .quicksort8 }, { array := .read v.leftPtr })
  | .quicksort8 =>
    ({ s with currentState := .quicksort9, vars := { v with left := w.array_dOUT0 } },
      { array := .read v.rightPtr })
  | .quicksort9 => next .quicksortA { v with right := w.array_dOUT0 }
  | .quicksortA => next .quicksortB { v with pivot := v.left + v.right }
  | .quicksortB => next .quicksortDo { v with pivot := 0#1 ++ v.pivot.extractLsb' 1 31 }
  | .quicksortDo => next .whileLeft0 v
  | .whileLeft0 =>
    if v.leftPtr < v.rightPtr then next .whileLeft1 v
    else next .break { v with leftPtr := v.rightPtr }
  | .whileLeft1 =>
    if v.left ≤ v.pivot then next .whileLeft2 { v with leftPtr := v.leftPtr + 4 } else next .break v
  | .whileLeft2 => ({ s with currentState := .whileLeft3 }, { array := .read v.leftPtr })
  | .whileLeft3 => next .whileLeft0 { v with left := w.array_dOUT0 }
  | .break => if v.leftPtr ≥ v.rightPtr then next .callQs0 v else next .whileRight1 v
  | .whileRight1 =>
    if v.right > v.pivot then next .whileRight2 { v with rightPtr := v.rightPtr - 4 }
    else next .swap1 v
  | .whileRight2 => ({ s with currentState := .whileRight3 }, { array := .read v.rightPtr })
  | .whileRight3 => next .break { v with right := w.array_dOUT0 }
  | .swap1 => ({ s with currentState := .swap2 }, { array := .write v.rightPtr v.left })
  | .swap2 => ({ s with currentState := .swap3 }, { array := .write v.leftPtr v.right })
  | .swap3 => next .swap4 { v with leftPtr := v.leftPtr + 4, rightPtr := v.rightPtr - 4 }
  | .swap4 => ({ s with currentState := .swap5 }, { array := .read v.leftPtr })
  | .swap5 =>
    ({ s with currentState := .while, vars := { v with left := w.array_dOUT0 } },
      { array := .read v.rightPtr })
  | .while =>
    if v.leftPtr < v.rightPtr then next .quicksortDo { v with right := w.array_dOUT0 }
    else next .callQs0 { v with right := w.array_dOUT0 }
  | .callQs0 =>
    if v.leftPtr = v.rightPtr then
      if v.right ≥ v.pivot then next .callQs1 { v with leftPtr := v.rightPtr - 4 }
      else next .callQs1 { v with rightPtr := v.rightPtr + 4 }
    else if v.right > v.pivot then next .callQs1 { v with leftPtr := v.rightPtr - 4 }
    else next .callQs1 { v with leftPtr := v.rightPtr, rightPtr := v.leftPtr }
  | .callQs1 =>
    (s.send { x with
      opcode := opcodeWrite, param1 := 0, param2 := v.rightPtr, returnState := .callQs2 }, {})
  | .callQs2 =>
    (s.send { x with
      opcode := opcodeWrite, param1 := 1, param2 := v.endPtr, returnState := .callQs3 }, {})
  | .callQs3 =>
    (s.send { x with opcode := opcodePush, param2 := v.leftPtr, returnState := .callQs4 }, {})
  | .callQs4 =>
    (s.send { x with opcode := opcodePush, param2 := v.startPtr, returnState := .callQs5 }, {})
  | .callQs5 =>
    (s.send { x with
      opcode := opcodeCall, param1 := uQuicksortCallQs6, returnState := .quicksort1 }, {})
  | .callQs6 =>
    (s.send { x with opcode := opcodeRead, param1 := 1, returnState := .callQs7 }, {})
  | .callQs7 =>
    ({ s with
        currentState := .sendRequest, vars := { v with endPtr := x.mblazeRet }
        link := { x with opcode := opcodeRead, param1 := 0, returnState := .callQs8 } }, {})
  | .callQs8 =>
    ({ s with
        currentState := .sendRequest, vars := { v with rightPtr := x.mblazeRet }
        link := { x with opcode := opcodePush, param2 := v.endPtr, returnState := .callQs9 } }, {})
  | .callQs9 =>
    (s.send { x with opcode := opcodePush, param2 := v.rightPtr, returnState := .callQsA }, {})
  | .callQsA =>
    (s.send { x with
      opcode := opcodeCall, param1 := uQuicksortReturn, returnState := .quicksort1 }, {})
  | .quicksortReturn => (s.send { x with opcode := opcodeReturn }, {})

section Host

structure Frame where
  code : BitVec 16
  locals : List Word

/-- A call and a return, with the frames of the caller then, and the request that ends a run. -/
inductive Call
  | call (code : BitVec 16) (callers : List Frame)
  | ret (code : BitVec 16) (callers : List Frame)
  | done

/-- The processor: its frames, the innermost first, the arguments that have been pushed, the first
word of a request that has two, and the calls so far. -/
structure Host where
  frames : List Frame
  args : List Word
  first : Option Word
  calls : List Call

namespace Host

variable (ack : Word) (h : Host) (w : Word)

def mapTop (f : List Word → List Word) : List Frame → List Frame
  | [] => []
  | t :: fs => { t with locals := f t.locals } :: fs

def top : Frame := h.frames.headD ⟨0, []⟩

/-- What a request does, and the word that it is answered with. -/
def answer (opcode : BitVec 6) (param1 : BitVec 16) (param2 : Word) : Host × Word :=
  if opcode = opcodeDeclare then
    ({ h with frames := mapTop (fun _ => List.replicate param1.toNat 0) h.frames }, ack)
  else if opcode = opcodeRead then (h, h.top.locals.getD param1.toNat 0)
  else if opcode = opcodeWrite then
    ({ h with frames := mapTop (fun l => l.set param1.toNat param2) h.frames }, ack)
  else if opcode = opcodePush then ({ h with args := param2 :: h.args }, ack)
  else if opcode = opcodePop then ({ h with args := h.args.tail }, h.args.headD 0)
  else if opcode = opcodeCall then
    ({ h with
        frames := ⟨param1, []⟩ :: h.frames, calls := h.calls ++ [.call param1 h.frames] }, ack)
  else if opcode = opcodeReturn then
    ({ h with
        frames := h.frames.tail, calls := h.calls ++ [.ret h.top.code h.frames.tail] },
      0#16 ++ h.top.code)
  else ({ h with calls := h.calls ++ [.done] }, ack)

/-- A word from the core: the request is answered when it is complete. -/
def receive : Host × List Word :=
  let opcode (w : Word) : BitVec 6 := w.extractLsb' 26 6
  let param1 (w : Word) : BitVec 16 := w.extractLsb' 0 16
  match h.first with
  | some r =>
    let next := answer ack { h with first := none } (opcode r) (param1 r) w
    (next.1, [next.2])
  | none =>
    if opcode w = opcodePush ∨ opcode w = opcodeWrite then ({ h with first := some w }, [])
    else
      let next := answer ack h (opcode w) (param1 w) 0
      (next.1, [next.2])

end Host

end Host

/-- The core with its memory and the processor. The accesses that are not `inside` are kept. -/
structure System where
  core : Core
  array : Bram 32 32
  pending : List Word
  host : Host
  strays : List Word

def wires (i : ChanInput) (s : System) : Wires where
  array_dOUT0 := s.array.dout
  chan1_exists := i.ready && !s.pending.isEmpty
  chan1_full := i.full
  chan1_channelDataOut := s.pending.headD 0

def clock (inside : Word → Bool) (ack : Word) (i : ChanInput) (s : System) : System :=
  let next := comb (wires i s) s.core
  let chan1 := next.2.chan1
  let heard := if chan1.channelWrite && !i.full then s.host.receive ack chan1.channelDataIn
    else (s.host, [])
  let rest := if chan1.channelRead && (wires i s).chan1_exists then s.pending.tail else s.pending
  { core := next.1
    array := s.array.clock next.2.array
    pending := rest ++ heard.2
    host := heard.1
    strays :=
      if next.2.array.en && !inside next.2.array.addr then s.strays ++ [next.2.array.addr]
      else s.strays }

section Requests

variable {inputs : ℕ → ChanInput} {inside : Word → Bool} {ack : Word} {st : State} {v v' : Vars}
  {x x' : Link} {a a' : Bram 32 32} {h h' : Host}

def sys (st : State) (v : Vars) (x : Link) (a : Bram 32 32) (h : Host) : System :=
  ⟨⟨st, v, x⟩, a, [], h, []⟩

lemma leads (drive : Port 32 32) {st' : State}
    (hcomb : ∀ i, comb (wires i (sys st v x a h)) (sys st v x a h).core =
      (⟨st', v', x'⟩, { array := drive }))
    (hinside : drive.en = true → inside drive.addr = true) (ha : a.clock drive = a') :
    Leads (clock inside ack) inputs (sys st v x a h) (sys st' v' x' a' h) := by
  refine .of_step fun i => ?_
  have hdrive : (drive.en && !inside drive.addr) = false := by
    cases hen : drive.en with
    | false => rfl
    | true => rw [hinside hen]; rfl
  rw [clock, hcomb i]
  simp only [sys, hdrive, ha]
  rfl

lemma low_append (y p : BitVec 16) : (y ++ p : Word).extractLsb' 0 16 = p := by
  apply BitVec.eq_of_getLsbD_eq
  intro i hi
  rw [BitVec.getLsbD_extractLsb', BitVec.getLsbD_append, if_pos (by omega)]
  simp [hi]

lemma param1_append (opcode : BitVec 6) (param1 : BitVec 16) :
    (opcode ++ 0#10 ++ param1 : Word).extractLsb' 0 16 = param1 :=
      low_append (opcode ++ 0#10) param1

lemma opcode_append (opcode : BitVec 6) (param1 : BitVec 16) :
    (opcode ++ 0#10 ++ param1 : Word).extractLsb' 26 6 = opcode := by
  apply BitVec.eq_of_getLsbD_eq
  intro i hi
  have hplace : 26 + i - 16 - 10 = i := by omega
  rw [BitVec.getLsbD_extractLsb', BitVec.getLsbD_append, BitVec.getLsbD_append, if_neg (by omega),
    if_neg (by omega), hplace]
  simp [hi]

namespace Host

lemma answer_param2 {opcode : BitVec 6} (hone : ¬ (opcode = opcodePush ∨ opcode = opcodeWrite))
    (param1 : BitVec 16) (param2 : Word) :
    h.answer ack opcode param1 param2 = h.answer ack opcode param1 0 := by
  rw [not_or] at hone
  simp only [answer, if_neg hone.1, if_neg hone.2]

lemma receive_request (hfirst : h.first = none) {opcode : BitVec 6} {param1 : BitVec 16}
    (hone : ¬ (opcode = opcodePush ∨ opcode = opcodeWrite)) (param2 : Word) :
    h.receive ack (opcode ++ 0#10 ++ param1) =
      ((h.answer ack opcode param1 param2).1, [(h.answer ack opcode param1 param2).2]) := by
  rw [answer_param2 hone param1 param2]
  simp only [receive, hfirst, opcode_append, param1_append, if_neg hone]

lemma receive_first (hfirst : h.first = none) {opcode : BitVec 6} {param1 : BitVec 16}
    (htwo : opcode = opcodePush ∨ opcode = opcodeWrite) :
    h.receive ack (opcode ++ 0#10 ++ param1) =
      ({ h with first := some (opcode ++ 0#10 ++ param1) }, []) := by
  simp only [receive, hfirst, opcode_append, if_pos htwo]

lemma receive_second (hfirst : h.first = none) (opcode : BitVec 6) (param1 : BitVec 16)
    (param2 : Word) :
    ({ h with first := some (opcode ++ 0#10 ++ param1) } : Host).receive ack param2 =
      ((h.answer ack opcode param1 param2).1, [(h.answer ack opcode param1 param2).2]) := by
  obtain ⟨frames, args, first, calls⟩ := h
  obtain rfl : first = none := hfirst
  simp only [receive, opcode_append, param1_append]

end Host

def waiting (ack : Word) (v : Vars) (x : Link) (a : Bram 32 32) (h : Host) : System :=
  let next := h.answer ack x.opcode x.param1 x.param2
  ⟨⟨.waitForMblaze, v, x⟩, a, [next.2], next.1, []⟩

lemma send_request (hs : Serves inputs) (hfirst : h.first = none) :
    Leads (clock inside ack) inputs (sys .sendRequest v x a h) (waiting ack v x a h) := by
  by_cases hone : x.opcode = opcodePush ∨ x.opcode = opcodeWrite
  · have hword : Leads (clock inside ack) inputs (sys .sendRequest v x a h)
        (sys .sendRequest2 v x a { h with first := some (x.opcode ++ 0#10 ++ x.param1) }) := by
      refine hs.leads_room (fun i hi => ?_) fun i hi => ?_
      · simp [clock, comb, wires, sys, hi]
      · simp [clock, comb, wires, sys, hi, hone, Host.receive_first hfirst hone]
    refine hword.trans (hs.leads_room (fun i hi => ?_) fun i hi => ?_)
    · simp [clock, comb, wires, sys, hi]
    · simp [clock, comb, wires, sys, waiting, hi, Host.receive_second hfirst]
  · refine hs.leads_room (fun i hi => ?_) fun i hi => ?_
    · simp [clock, comb, wires, sys, hi]
    · simp [clock, comb, wires, sys, waiting, hi, hone, Host.receive_request hfirst hone x.param2]

lemma request (hs : Serves inputs) (hfirst : h.first = none) (hop : x.opcode ≠ opcodeReturn) :
    Leads (clock inside ack) inputs (sys .sendRequest v x a h)
      (sys x.returnState v { x with mblazeRet := (h.answer ack x.opcode x.param1 x.param2).2 } a
        (h.answer ack x.opcode x.param1 x.param2).1) := by
  refine (send_request hs hfirst).trans
    (hs.leads_ready (fun i hi => ?_) fun i hi => ?_)
  · simp [clock, comb, wires, waiting, hi]
  · simp [clock, comb, wires, waiting, sys, hi, hop]

lemma return_request (hs : Serves inputs) (hop : x.opcode = opcodeReturn) (f : Frame)
    (fs : List Frame) (args : List Word) (calls : List Call) :
    ∃ x', Leads (clock inside ack) inputs (sys .sendRequest v x a ⟨f :: fs, args, none, calls⟩)
      (sys (returnTo f.code) v x' a ⟨fs, args, none, calls ++ [.ret f.code fs]⟩) := by
  have hanswer : (⟨f :: fs, args, none, calls⟩ : Host).answer ack opcodeReturn x.param1 x.param2 =
      (⟨fs, args, none, calls ++ [.ret f.code fs]⟩, 0#16 ++ f.code) := rfl
  refine ⟨{ x with mblazeRet := 0#16 ++ f.code }, (send_request hs rfl).trans
    (hs.leads_ready (fun i hi => ?_) fun i hi => ?_)⟩
  · simp [clock, comb, wires, waiting, hi]
  · simp [clock, comb, wires, waiting, sys, hi, hop, hanswer, low_append]

end Requests

end Hthreads.HwAcc.QuickSort
