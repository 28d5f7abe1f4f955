import Hthreads.HwAcc.Channel
import Hthreads.Library.Bram

/-! The cipher core (`hw_acc_idea`): each block of four words goes through eight rounds and an
output step, with the keys read one by one. -/

namespace Hthreads.HwAcc.Idea

open Library

inductive State
  | reset | fetch | getInstr | decode | ideaState1 | halt | extra1 | readX1 | extra2 | readX2
  | extra3 | readX3 | extra4 | startRound | extra5 | r1_1 | extra6 | r1_2 | extra7 | r1_3
  | extra8 | r1_4 | extra9 | r1_5 | extra10 | r1_6 | extra11 | r1_7 | extra12 | roundPart0
  | extra13 | r2_1 | extra14 | r2_2 | extra15 | r2_3 | extra16 | r2_4 | extra17 | r2_5 | extra18
  | r2_6 | extra19 | r2_7 | extra20 | extra21 | r3_1 | extra22 | r3_2 | extra23 | r3_3 | extra24
  | r3_4 | extra25 | r3_5 | extra26 | r3_6 | extra27 | r3_7 | extra28 | extra29 | r4_1 | extra30
  | r4_2 | extra31 | r4_3 | extra32 | r4_4 | extra33 | r4_5 | extra34 | r4_6 | extra35 | r4_7
  | extra36 | extra37 | r5_1 | extra38 | r5_2 | extra39 | r5_3 | extra40 | r5_4 | extra41 | r5_5
  | extra42 | r5_6 | extra43 | r5_7 | extra44 | extra45 | r6_1 | extra46 | r6_2 | extra47 | r6_3
  | extra48 | r6_4 | extra49 | r6_5 | extra50 | r6_6 | extra51 | r6_7 | extra52 | extra53 | r7_1
  | extra54 | r7_2 | extra55 | r7_3 | extra56 | r7_4 | extra57 | r7_5 | extra58 | r7_6 | extra59
  | r7_7 | extra60 | extra61 | r8_1 | extra62 | r8_2 | extra63 | r8_3 | extra64 | r8_4 | extra65
  | r8_5 | extra66 | r8_6 | extra67 | r8_7 | extra68 | extra69 | r9_4 | extra70 | r9_2 | extra71
  | r9_3 | extra72 | preCalcResults | roundPart1 | roundPart2 | roundPart3 | roundPart4
  | roundPart5 | roundPart6 | roundPart7 | roundPart8 | calcResults | outputResults | nextResult
  | nextNextResult | nextNextNextResult
  deriving DecidableEq

inductive KeyReg
  | z1_r | z2_r | z3_r | z4_r | z5_r | z6_r | z7_r | z8_r
  deriving DecidableEq

structure Core where
  currentState : State
  i : Word
  n : Word
  instruction : Word
  index : Word
  ret : Word
  op : BitVec 2
  r : Word
  mult_res1 : BitVec 64
  mult_res2 : BitVec 64
  out1 : Word
  out2 : Word
  out3 : Word
  out4 : Word
  x1 : Word
  x2 : Word
  x3 : Word
  x4 : Word
  kk : Word
  t1 : Word
  t2 : Word
  a : Word
  z : KeyReg → Word

def maxim : Word := 65537
def one : Word := 65535

/-- `q` is the low word of the product of `a` and `b`. -/
def mul (a b q : Word) : Word :=
  let p :=
    if a = 0 then maxim - b
    else if b = 0 then maxim - a
    else
      let x := q &&& one
      let p := x - (0#16 ++ q.extractLsb' 16 16)
      -- the sign bit stands for `p <= 0`
      if p.msb then p + maxim else p
  p &&& one

def product (a b : Word) : BitVec 64 := a.setWidth 64 * b.setWidth 64

-- `p(32 to 63)`
def low (p : BitVec 64) : Word := p.extractLsb' 0 32

/-- What the core sees in a cycle; it reads nothing from the third memory. -/
structure Wires where
  vectorA_dOUT0 : Word
  vectorB_dOUT0 : Word
  chan1_exists : Bool
  chan1_full : Bool
  chan1_channelDataOut : Word

structure Drive where
  vectorA : Port 32 32 := .off
  vectorB : Port 32 32 := .off
  vectorC : Port 32 32 := .off
  chan1 : ChanDrive := {}

namespace Core

variable (s : Core)

def roundPart0 : Core :=
  { s with mult_res2 := product s.x4 (s.z .z4_r), mult_res1 := product s.x1 (s.z .z1_r) }

def roundPart1 : Core :=
  { s with
    x4 := mul s.x4 (s.z .z4_r) (low s.mult_res2), x3 := (s.x3 + s.z .z3_r) &&& one
    x2 := (s.x2 + s.z .z2_r) &&& one, x1 := mul s.x1 (s.z .z1_r) (low s.mult_res1) }

def roundPart2 : Core :=
  { s with mult_res1 := product (s.z .z5_r) (s.x1 ^^^ s.x3), kk := s.x1 ^^^ s.x3 }

def roundPart3 : Core := { s with kk := mul (s.z .z5_r) s.kk (low s.mult_res1) }

def roundPart4 : Core :=
  { s with
    mult_res1 := product (s.z .z6_r) ((s.kk + (s.x2 ^^^ s.x4)) &&& one)
    t1 := (s.kk + (s.x2 ^^^ s.x4)) &&& one }

def roundPart5 : Core := { s with t1 := mul (s.z .z6_r) s.t1 (low s.mult_res1) }

def roundPart6 : Core := { s with t2 := (s.kk + s.t1) &&& one }

def roundPart7 : Core :=
  { s with
    x3 := s.x2 ^^^ s.t2, a := s.x2 ^^^ s.t2, x4 := s.x4 ^^^ s.t2, x2 := s.x3 ^^^ s.t1
    x1 := s.x1 ^^^ s.t1 }

def roundPart8 : Core := { s with r := s.r + 1 }

-- `pre_calc_results` starts the same two products as `round_part0`
def calcResults : Core :=
  { s with
    out4 := mul s.x4 (s.z .z4_r) (low s.mult_res2), out3 := (s.x2 + s.z .z3_r) &&& one
    out2 := (s.x3 + s.z .z2_r) &&& one, out1 := mul s.x1 (s.z .z1_r) (low s.mult_res1) }

end Core

-- the branches that ask for a word, take it, or write one
def readBlock (k : Word) (next : State) (s : Core) : Core × Drive :=
  ({ s with currentState := next }, { vectorA := .read (wordAddr (s.i + k)) })

def readKey (k : Word) (next : State) (s : Core) : Core × Drive :=
  ({ s with currentState := next }, { vectorB := .read (wordAddr (s.ret + k)) })

def takeKey (z : KeyReg) (next : State) (w : Wires) (s : Core) : Core × Drive :=
  ({ s with currentState := next, z := Function.update s.z z w.vectorB_dOUT0 }, {})

def writeResult (k out : Word) (next : State) (s : Core) : Core × Drive :=
  ({ s with currentState := next }, { vectorC := .write (wordAddr (s.i + k)) out })

/-- `FSM_COMB_PROCESS`, and the clock edge after it. -/
def comb (w : Wires) (s : Core) : Core × Drive :=
  match s.currentState with
  | .reset => ({ s with currentState := .fetch }, {})
  | .fetch =>
    if w.chan1_exists then
      ({ s with currentState := .getInstr, instruction := w.chan1_channelDataOut },
        { chan1 := { channelRead := true } })
    else (s, {})
  | .getInstr =>
    ({ s with
        currentState := .decode, ret := 0, index := startField s.instruction
        n := endField s.instruction, op := s.instruction.extractLsb' 30 2 }, {})
  | .decode => ({ s with currentState := .ideaState1, i := s.index }, {})
  | .ideaState1 =>
    if s.n ≤ s.i then ({ s with currentState := .halt }, {}) else readBlock 0 .extra1 s
  | .halt =>
    if w.chan1_full then (s, {})
    else
      ({ s with currentState := .fetch },
        { chan1 := { channelWrite := true, channelDataIn := s.out4 } })
  | .extra1 => ({ s with currentState := .readX1, x1 := w.vectorA_dOUT0 }, {})
  | .readX1 => readBlock 1 .extra2 s
  | .extra2 => ({ s with currentState := .readX2, x2 := w.vectorA_dOUT0 }, {})
  | .readX2 => readBlock 2 .extra3 s
  | .extra3 => ({ s with currentState := .readX3, x3 := w.vectorA_dOUT0 }, {})
  | .readX3 => readBlock 3 .extra4 s
  | .extra4 => ({ s with currentState := .startRound, r := 1, x4 := w.vectorA_dOUT0 }, {})
  | .startRound =>
    if s.r = 1 then readKey 0 .extra5 s
    else if s.r = 2 then readKey 8 .extra13 s
    else if s.r = 3 then readKey 16 .extra21 s
    else if s.r = 4 then readKey 24 .extra29 s
    else if s.r = 5 then readKey 32 .extra37 s
    else if s.r = 6 then readKey 40 .extra45 s
    else if s.r = 7 then readKey 48 .extra53 s
    else if s.r = 8 then readKey 56 .extra61 s
    else readKey 64 .extra69 s
  | .extra5 => takeKey .z1_r .r1_1 w s
  | .r1_1 => readKey 1 .extra6 s
  | .extra6 => takeKey .z2_r .r1_2 w s
  | .r1_2 => readKey 2 .extra7 s
  | .extra7 => takeKey .z3_r .r1_3 w s
  | .r1_3 => readKey 3 .extra8 s
  | .extra8 => takeKey .z4_r .r1_4 w s
  | .r1_4 => readKey 4 .extra9 s
  | .extra9 => takeKey .z5_r .r1_5 w s
  | .r1_5 => readKey 5 .extra10 s
  | .extra10 => takeKey .z6_r .r1_6 w s
  | .r1_6 => readKey 6 .extra11 s
  | .extra11 => takeKey .z7_r .r1_7 w s
  | .r1_7 => readKey 7 .extra12 s
  | .extra12 => takeKey .z8_r .roundPart0 w s
  | .extra13 => takeKey .z1_r .r2_1 w s
  | .r2_1 => readKey 9 .extra14 s
  | .extra14 => takeKey .z2_r .r2_2 w s
  | .r2_2 => readKey 10 .extra15 s
  | .extra15 => takeKey .z3_r .r2_3 w s
  | .r2_3 => readKey 11 .extra16 s
  | .extra16 => takeKey .z4_r .r2_4 w s
  | .r2_4 => readKey 12 .extra17 s
  | .extra17 => takeKey .z5_r .r2_5 w s
  | .r2_5 => readKey 13 .extra18 s
  | .extra18 => takeKey .z6_r .r2_6 w s
  | .r2_6 => readKey 14 .extra19 s
  | .extra19 => takeKey .z7_r .r2_7 w s
  | .r2_7 => readKey 15 .extra20 s
  | .extra20 => takeKey .z8_r .roundPart0 w s
  | .extra21 => takeKey .z1_r .r3_1 w s
  | .r3_1 => readKey 17 .extra22 s
  | .extra22 => takeKey .z2_r .r3_2 w s
  | .r3_2 => readKey 18 .extra23 s
  | .extra23 => takeKey .z3_r .r3_3 w s
  | .r3_3 => readKey 19 .extra24 s
  | .extra24 => takeKey .z4_r .r3_4 w s
  | .r3_4 => readKey 20 .extra25 s
  | .extra25 => takeKey .z5_r .r3_5 w s
  | .r3_5 => readKey 21 .extra26 s
  | .extra26 => takeKey .z6_r .r3_6 w s
  | .r3_6 => readKey 22 .extra27 s
  | .extra27 => takeKey .z7_r .r3_7 w s
  | .r3_7 => readKey 23 .extra28 s
  | .extra28 => takeKey .z8_r .roundPart0 w s
  | .extra29 => takeKey .z1_r .r4_1 w s
  | .r4_1 => readKey 25 .extra30 s
  | .extra30 => takeKey .z2_r .r4_2 w s
  | .r4_2 => readKey 26 .extra31 s
  | .extra31 => takeKey .z3_r .r4_3 w s
  | .r4_3 => readKey 27 .extra32 s
  | .extra32 => takeKey .z4_r .r4_4 w s
  | .r4_4 => readKey 28 .extra33 s
  | .extra33 => takeKey .z5_r .r4_5 w s
  | .r4_5 => readKey 29 .extra34 s
  | .extra34 => takeKey .z6_r .r4_6 w s
  | .r4_6 => readKey 30 .extra35 s
  | .extra35 => takeKey .z7_r .r4_7 w s
  | .r4_7 => readKey 31 .extra36 s
  | .extra36 => takeKey .z8_r .roundPart0 w s
  | .extra37 => takeKey .z1_r .r5_1 w s
  | .r5_1 => readKey 33 .extra38 s
  | .extra38 => takeKey .z2_r .r5_2 w s
  | .r5_2 => readKey 34 .extra39 s
  | .extra39 => takeKey .z3_r .r5_3 w s
  | .r5_3 => readKey 35 .extra40 s
  | .extra40 => takeKey .z4_r .r5_4 w s
  | .r5_4 => readKey 36 .extra41 s
  | .extra41 => takeKey .z5_r .r5_5 w s
  | .r5_5 => readKey 37 .extra42 s
  | .extra42 => takeKey .z6_r .r5_6 w s
  | .r5_6 => readKey 38 .extra43 s
  | .extra43 => takeKey .z7_r .r5_7 w s
  | .r5_7 => readKey 39 .extra44 s
  | .extra44 => takeKey .z8_r .roundPart0 w s
  | .extra45 => takeKey .z1_r .r6_1 w s
  | .r6_1 => readKey 41 .extra46 s
  | .extra46 => takeKey .z2_r .r6_2 w s
  | .r6_2 => readKey 42 .extra47 s
  | .extra47 => takeKey .z3_r .r6_3 w s
  | .r6_3 => readKey 43 .extra48 s
  | .extra48 => takeKey .z4_r .r6_4 w s
  | .r6_4 => readKey 44 .extra49 s
  | .extra49 => takeKey .z5_r .r6_5 w s
  | .r6_5 => readKey 45 .extra50 s
  | .extra50 => takeKey .z6_r .r6_6 w s
  | .r6_6 => readKey 46 .extra51 s
  | .extra51 => takeKey .z7_r .r6_7 w s
  | .r6_7 => readKey 47 .extra52 s
  | .extra52 => takeKey .z8_r .roundPart0 w s
  | .extra53 => takeKey .z1_r .r7_1 w s
  | .r7_1 => readKey 49 .extra54 s
  | .extra54 => takeKey .z2_r .r7_2 w s
  | .r7_2 => readKey 50 .extra55 s
  | .extra55 => takeKey .z3_r .r7_3 w s
  | .r7_3 => readKey 51 .extra56 s
  | .extra56 => takeKey .z4_r .r7_4 w s
  | .r7_4 => readKey 52 .extra57 s
  | .extra57 => takeKey .z5_r .r7_5 w s
  | .r7_5 => readKey 53 .extra58 s
  | .extra58 => takeKey .z6_r .r7_6 w s
  | .r7_6 => readKey 54 .extra59 s
  | .extra59 => takeKey .z7_r .r7_7 w s
  | .r7_7 => readKey 55 .extra60 s
  | .extra60 => takeKey .z8_r .roundPart0 w s
  | .extra61 => takeKey .z1_r .r8_1 w s
  | .r8_1 => readKey 57 .extra62 s
  | .extra62 => takeKey .z2_r .r8_2 w s
  | .r8_2 => readKey 58 .extra63 s
  | .extra63 => takeKey .z3_r .r8_3 w s
  | .r8_3 => readKey 59 .extra64 s
  | .extra64 => takeKey .z4_r .r8_4 w s
  | .r8_4 => readKey 60 .extra65 s
  | .extra65 => takeKey .z5_r .r8_5 w s
  | .r8_5 => readKey 61 .extra66 s
  | .extra66 => takeKey .z6_r .r8_6 w s
  | .r8_6 => readKey 62 .extra67 s
  | .extra67 => takeKey .z7_r .r8_7 w s
  | .r8_7 => readKey 63 .extra68 s
  | .extra68 => takeKey .z8_r .roundPart0 w s
  | .extra69 => takeKey .z1_r .r9_4 w s
  | .r9_4 => readKey 67 .extra70 s
  | .extra70 => takeKey .z4_r .r9_2 w s
  | .r9_2 => readKey 65 .extra71 s
  | .extra71 => takeKey .z2_r .r9_3 w s
  | .r9_3 => readKey 66 .extra72 s
  | .extra72 => takeKey .z3_r .preCalcResults w s
  | .roundPart0 => ({ s.roundPart0 with currentState := .roundPart1 }, {})
  | .roundPart1 => ({ s.roundPart1 with currentState := .roundPart2 }, {})
  | .roundPart2 => ({ s.roundPart2 with currentState := .roundPart3 }, {})
  | .roundPart3 => ({ s.roundPart3 with currentState := .roundPart4 }, {})
  | .roundPart4 => ({ s.roundPart4 with currentState := .roundPart5 }, {})
  | .roundPart5 => ({ s.roundPart5 with currentState := .roundPart6 }, {})
  | .roundPart6 => ({ s.roundPart6 with currentState := .roundPart7 }, {})
  | .roundPart7 => ({ s.roundPart7 with currentState := .roundPart8 }, {})
  | .roundPart8 => ({ s.roundPart8 with currentState := .startRound }, {})
  | .preCalcResults => ({ s.roundPart0 with currentState := .calcResults }, {})
  | .calcResults => ({ s.calcResults with currentState := .outputResults }, {})
  | .outputResults => writeResult 0 s.out1 .nextResult s
  | .nextResult => writeResult 1 s.out2 .nextNextResult s
  | .nextNextResult => writeResult 2 s.out3 .nextNextNextResult s
  | .nextNextNextResult =>
    ({ s with currentState := .ideaState1, i := s.i + 4 },
      { vectorC := .write (wordAddr (s.i + 3)) s.out4 })

structure System where
  core : Core
  vectorA : Bram 32 32
  vectorB : Bram 32 32
  vectorC : Bram 32 32
  chan1 : Channel

def wires (i : ChanInput) (s : System) : Wires where
  vectorA_dOUT0 := s.vectorA.dout
  vectorB_dOUT0 := s.vectorB.dout
  chan1_exists := s.chan1.exist i
  chan1_full := i.full
  chan1_channelDataOut := s.chan1.channelDataOut

def clock (i : ChanInput) (s : System) : System :=
  let next := comb (wires i s) s.core
  ⟨next.1, s.vectorA.clock next.2.vectorA, s.vectorB.clock next.2.vectorB,
    s.vectorC.clock next.2.vectorC, s.chan1.clock i next.2.chan1⟩

end Hthreads.HwAcc.Idea
