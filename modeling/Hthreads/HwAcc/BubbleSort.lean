import Hthreads.HwAcc.Channel
import Hthreads.Library.Bram

/-! The bubble sort core in its two forms, the FSM language (`bubblesort_chan.des`) and the VHDL,
and the loops that both of them run. -/

namespace Hthreads.HwAcc.BubbleSort

open Library

structure Regs where
  swapped : Bool
  n : Word
  nNew : Word
  i : Word
  data1 : Word
  data2 : Word
  arg1 : Word
  arg2 : Word

structure Sorting extends Regs where
  array0 : Word → Word

namespace Des

inductive State
  | reset | idle | decode | dispatch | beginSort | forLoop | condCheck | condBody | halt
  deriving DecidableEq

structure System extends Sorting where
  currentState : State
  chan1 : Channel

/-- `TRANS`. -/
def trans (i : ChanInput) (s : System) : System :=
  match s.currentState with
  | .reset => { s with currentState := .idle }
  | .idle =>
    if s.chan1.exist i then
      { s with
        currentState := .decode, n := s.chan1.channelDataOut
        chan1 := s.chan1.clock i { channelRead := true } }
    else s
  | .decode =>
    { s with currentState := .dispatch, arg1 := startField s.n, arg2 := endField s.n }
  | .dispatch =>
    { s with currentState := .beginSort, nNew := s.arg2, n := s.arg2, swapped := true }
  | .beginSort =>
    if s.swapped then
      { s with
        currentState := .forLoop, swapped := false, i := s.arg1, data1 := s.array0 s.arg1 }
    else { s with currentState := .halt }
  | .forLoop =>
    if s.i < s.n then { s with currentState := .condCheck, data2 := s.array0 (s.i + 1) }
    else { s with currentState := .beginSort, n := s.nNew }
  | .condCheck =>
    if s.data1 ≤ s.data2 then
      { s with currentState := .forLoop, data1 := s.data2, i := s.i + 1 }
    else
      { s with currentState := .condBody, array0 := Function.update s.array0 s.i s.data2 }
  | .condBody =>
    { s with
      currentState := .forLoop, array0 := Function.update s.array0 (s.i + 1) s.data1
      nNew := s.i, swapped := true, i := s.i + 1 }
  | .halt =>
    if i.full then s
    else
      { s with
        currentState := .idle
        chan1 := s.chan1.clock i { channelWrite := true, channelDataIn := 0 } }

end Des

namespace Vhdl

inductive State
  | reset | idle | decode | dispatch | beginSort | halt | extra1 | forLoop | extra2 | condCheck
  | condBody
  deriving DecidableEq

structure Core extends Regs where
  currentState : State

structure Wires where
  array0_dOUT0 : Word
  chan1_exists : Bool
  chan1_full : Bool
  chan1_channelDataOut : Word

structure Drive where
  array0 : Port 32 32 := .off
  chan1 : ChanDrive := {}

/-- `FSM_COMB_PROCESS`, and the clock edge after it. -/
def comb (w : Wires) (s : Core) : Core × Drive :=
  match s.currentState with
  | .beginSort =>
    if s.swapped = false then ({ s with currentState := .halt }, {})
    else ({ s with currentState := .extra1 }, { array0 := .read s.arg1 })
  | .condBody =>
    ({ s with currentState := .forLoop, i := s.i + 1, swapped := true, nNew := s.i },
      { array0 := .write (s.i + 1) s.data1 })
  | .condCheck =>
    if s.data1 ≤ s.data2 then
      ({ s with currentState := .forLoop, i := s.i + 1, data1 := s.data2 }, {})
    else ({ s with currentState := .condBody }, { array0 := .write s.i s.data2 })
  | .decode =>
    ({ s with currentState := .dispatch, arg2 := endField s.n, arg1 := startField s.n }, {})
  | .dispatch =>
    ({ s with currentState := .beginSort, swapped := true, n := s.arg2, nNew := s.arg2 }, {})
  | .extra1 =>
    ({ s with
        currentState := .forLoop, data1 := w.array0_dOUT0, i := s.arg1, swapped := false }, {})
  | .extra2 => ({ s with currentState := .condCheck, data2 := w.array0_dOUT0 }, {})
  | .forLoop =>
    if s.i ≥ s.n then ({ s with currentState := .beginSort, n := s.nNew }, {})
    else ({ s with currentState := .extra2 }, { array0 := .read (s.i + 1) })
  | .halt =>
    if w.chan1_full then (s, {})
    else
      ({ s with currentState := .idle },
        { chan1 := { channelWrite := true, channelDataIn := 0 } })
  | .idle =>
    if w.chan1_exists then
      ({ s with currentState := .decode, n := w.chan1_channelDataOut },
        { chan1 := { channelRead := true } })
    else (s, {})
  | .reset => ({ s with currentState := .idle }, {})

structure System where
  core : Core
  array0 : Bram 32 32
  chan1 : Channel

def wires (i : ChanInput) (s : System) : Wires where
  array0_dOUT0 := s.array0.dout
  chan1_exists := s.chan1.exist i
  chan1_full := i.full
  chan1_channelDataOut := s.chan1.channelDataOut

def clock (i : ChanInput) (s : System) : System :=
  let next := comb (wires i s) s.core
  ⟨next.1, s.array0.clock next.2.array0, s.chan1.clock i next.2.chan1⟩

end Vhdl

section Loops

/-- One turn of `for_loop`: the pair at `i` is put in order. -/
def turn (x : Sorting) : Sorting :=
  let x := { x with data2 := x.array0 (x.i + 1) }
  if x.data1 ≤ x.data2 then { x with data1 := x.data2, i := x.i + 1 }
  else
    { x with
      array0 := Function.update (Function.update x.array0 x.i x.data2) (x.i + 1) x.data1
      nNew := x.i, swapped := true, i := x.i + 1 }

def beginPass (x : Sorting) : Sorting :=
  { x with swapped := false, i := x.arg1, data1 := x.array0 x.arg1 }

/-- The turns from `for_loop` back to `begin_sort`. -/
inductive Pass : Sorting → Sorting → Prop
  | done {x} : x.n ≤ x.i → Pass x { x with n := x.nNew }
  | turn {x y} : x.i < x.n → Pass (turn x) y → Pass x y

/-- The passes from `begin_sort` to `halt`. -/
inductive Passes : Sorting → Sorting → Prop
  | done {x} : x.swapped = false → Passes x x
  | pass {x y z} : x.swapped = true → Pass (beginPass x) y → Passes y z → Passes x z

end Loops

section Forms

variable {inputs : ℕ → ChanInput} {x y : Sorting} {c : Channel} {d : Word}

def Des.at (st : Des.State) (x : Sorting) (c : Channel) : Des.System :=
  { x with currentState := st, chan1 := c }

def Vhdl.at (st : Vhdl.State) (x : Sorting) (d : Word) (c : Channel) : Vhdl.System :=
  ⟨{ x.toRegs with currentState := st }, ⟨x.array0, d⟩, c⟩

lemma Des.turn (h : x.i < x.n) :
    Leads Des.trans inputs (Des.at .forLoop x c) (Des.at .forLoop (BubbleSort.turn x) c) := by
  refine .cons (t := Des.at .condCheck { x with data2 := x.array0 (x.i + 1) } c)
    (fun i => if_pos h) ?_
  by_cases hle : x.data1 ≤ x.array0 (x.i + 1)
  · rw [BubbleSort.turn, if_pos hle]
    exact .of_step fun i => if_pos hle
  · rw [BubbleSort.turn, if_neg hle]
    exact .cons (fun i => if_neg hle) (.of_step fun i => rfl)

lemma Vhdl.leads {s t : Vhdl.System} {drive : Vhdl.Drive}
    (hcomb : ∀ i, Vhdl.comb (Vhdl.wires i s) s.core = (t.core, drive))
    (harray : s.array0.clock drive.array0 = t.array0)
    (hchan : ∀ i, s.chan1.clock i drive.chan1 = t.chan1) : Leads Vhdl.clock inputs s t := by
  refine .of_step fun i => ?_
  simp only [Vhdl.clock, hcomb, harray, hchan]

lemma Vhdl.turn (h : x.i < x.n) : ∃ d',
    Leads Vhdl.clock inputs (Vhdl.at .forLoop x d c)
      (Vhdl.at .forLoop (BubbleSort.turn x) d' c) := by
  let pair : Sorting := { x with data2 := x.array0 (x.i + 1) }
  have hread : Leads Vhdl.clock inputs (Vhdl.at .forLoop x d c)
      (Vhdl.at .extra2 x pair.data2 c) :=
    Vhdl.leads (fun i => if_neg (BitVec.not_le.mpr h)) rfl fun i => rfl
  have hdata2 : Leads Vhdl.clock inputs (Vhdl.at .extra2 x pair.data2 c)
      (Vhdl.at .condCheck pair pair.data2 c) :=
    Vhdl.leads (fun i => rfl) rfl fun i => rfl
  by_cases hle : x.data1 ≤ pair.data2
  · rw [BubbleSort.turn, if_pos hle]
    exact ⟨_, hread.trans (hdata2.trans (Vhdl.leads (fun i => if_pos hle) rfl fun i => rfl))⟩
  · rw [BubbleSort.turn, if_neg hle]
    -- the two halves of the exchange, in a state each
    let half : Word → Word := Function.update x.array0 x.i pair.data2
    have hfirst : Leads Vhdl.clock inputs (Vhdl.at .condCheck pair pair.data2 c)
        (Vhdl.at .condBody { pair with array0 := half } (x.array0 x.i) c) :=
      Vhdl.leads (fun i => if_neg hle) (Bram.clock_write _ _ _) fun i => rfl
    refine ⟨half (x.i + 1), hread.trans (hdata2.trans (hfirst.trans ?_))⟩
    exact Vhdl.leads (fun i => rfl) (Bram.clock_write _ _ _) fun i => rfl

lemma Des.pass (h : Pass x y) :
    Leads Des.trans inputs (Des.at .forLoop x c) (Des.at .beginSort y c) := by
  induction h with
  | done hn => exact .of_step fun i => if_neg (BitVec.not_lt.mpr hn)
  | turn hi _ ih => exact (Des.turn hi).trans ih

lemma Vhdl.pass (h : Pass x y) (d : Word) : ∃ d',
    Leads Vhdl.clock inputs (Vhdl.at .forLoop x d c) (Vhdl.at .beginSort y d' c) := by
  induction h generalizing d with
  | done hn => exact ⟨d, Vhdl.leads (fun i => if_pos hn) rfl fun i => rfl⟩
  | turn hi _ ih =>
    obtain ⟨d₁, hturn⟩ := Vhdl.turn hi
    obtain ⟨d', hrest⟩ := ih d₁
    exact ⟨d', hturn.trans hrest⟩

lemma Des.passes (h : Passes x y) :
    Leads Des.trans inputs (Des.at .beginSort x c) (Des.at .halt y c) := by
  induction h with
  | done hs => exact .of_step fun i => if_neg (by simp [Des.at, hs])
  | pass hs hpass _ ih => exact .cons (fun i => if_pos hs) ((Des.pass hpass).trans ih)

lemma Vhdl.passes (h : Passes x y) (d : Word) : ∃ d',
    Leads Vhdl.clock inputs (Vhdl.at .beginSort x d c) (Vhdl.at .halt y d' c) := by
  induction h generalizing d with
  | done hs => exact ⟨d, Vhdl.leads (fun i => if_pos hs) rfl fun i => rfl⟩
  | @pass x y z hs hpass _ ih =>
    have hread : Leads Vhdl.clock inputs (Vhdl.at .beginSort x d c)
        (Vhdl.at .extra1 x (x.array0 x.arg1) c) :=
      Vhdl.leads (fun i => if_neg (by simp [Vhdl.at, hs])) rfl fun i => rfl
    have hbegin : Leads Vhdl.clock inputs (Vhdl.at .extra1 x (x.array0 x.arg1) c)
        (Vhdl.at .forLoop (beginPass x) (x.array0 x.arg1) c) :=
      Vhdl.leads (fun i => rfl) rfl fun i => rfl
    obtain ⟨d₁, hpass⟩ := Vhdl.pass hpass (x.array0 x.arg1)
    obtain ⟨d', hrest⟩ := ih d₁
    exact ⟨d', hread.trans (hbegin.trans (hpass.trans hrest))⟩

def dispatch (w : Word) (x : Sorting) : Sorting :=
  { x with
    n := endField w, nNew := endField w, arg1 := startField w, arg2 := endField w, swapped := true }

variable {w : Word} {rest sent : List Word}

lemma Des.fetch (hs : Serves inputs) : Leads Des.trans inputs (Des.at .idle x ⟨w :: rest, sent⟩)
    (Des.at .beginSort (dispatch w x) ⟨rest, sent⟩) := by
  have hword : Leads Des.trans inputs (Des.at .idle x ⟨w :: rest, sent⟩)
      (Des.at .decode { x with n := w } ⟨rest, sent⟩) := by
    refine hs.leads_ready (fun i hi => ?_) fun i hi => ?_
    · simp [Des.trans, Des.at, Channel.exist_cons, hi]
    · simp [Des.trans, Des.at, Channel.exist_cons, Channel.clock, Channel.channelDataOut, hi]
  exact hword.trans (.cons (fun i => rfl) (.of_step fun i => rfl))

lemma Des.answer (hs : Serves inputs) : Leads Des.trans inputs (Des.at .halt x ⟨rest, sent⟩)
    (Des.at .idle x ⟨rest, sent ++ [0]⟩) := by
  refine hs.leads_room (fun i hi => ?_) fun i hi => ?_
  · simp [Des.trans, Des.at, hi]
  · simp [Des.trans, Des.at, Channel.clock, hi]

lemma Vhdl.fetch (hs : Serves inputs) : Leads Vhdl.clock inputs
    (Vhdl.at .idle x d ⟨w :: rest, sent⟩) (Vhdl.at .beginSort (dispatch w x) d ⟨rest, sent⟩) := by
  have hword : Leads Vhdl.clock inputs (Vhdl.at .idle x d ⟨w :: rest, sent⟩)
      (Vhdl.at .decode { x with n := w } d ⟨rest, sent⟩) := by
    refine hs.leads_ready (fun i hi => ?_) fun i hi => ?_
    · simp [Vhdl.clock, Vhdl.comb, Vhdl.wires, Vhdl.at, Channel.exist_cons, Channel.clock, hi]
    · simp [Vhdl.clock, Vhdl.comb, Vhdl.wires, Vhdl.at, Channel.exist_cons, Channel.clock,
        Channel.channelDataOut, hi]
  have hdecode : Leads Vhdl.clock inputs (Vhdl.at .decode { x with n := w } d ⟨rest, sent⟩)
      (Vhdl.at .dispatch { x with n := w, arg1 := startField w, arg2 := endField w } d
        ⟨rest, sent⟩) := .of_step fun i => rfl
  exact hword.trans (hdecode.trans (.of_step fun i => rfl))

lemma Vhdl.answer (hs : Serves inputs) : Leads Vhdl.clock inputs
    (Vhdl.at .halt x d ⟨rest, sent⟩) (Vhdl.at .idle x d ⟨rest, sent ++ [0]⟩) := by
  refine hs.leads_room (fun i hi => ?_) fun i hi => ?_
  · simp [Vhdl.clock, Vhdl.comb, Vhdl.wires, Vhdl.at, Channel.clock, hi]
  · simp [Vhdl.clock, Vhdl.comb, Vhdl.wires, Vhdl.at, Channel.clock, hi]

end Forms

end Hthreads.HwAcc.BubbleSort
