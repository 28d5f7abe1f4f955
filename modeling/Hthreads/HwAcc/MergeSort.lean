import Hthreads.HwAcc.BubbleSort

/-! The merge sort core in its two forms (`bubblesort_chan.des` and the VHDL of `hw_acc_mergesort`).
It sorts a range as the bubble sort core does, or merges two halves of one memory into another. -/

namespace Hthreads.HwAcc.MergeSort

open Library

structure Regs extends toSortRegs : BubbleSort.Regs where
  size : Word
  ptr1 : Word
  ptr2 : Word
  opcode : BitVec 2

namespace Regs

variable (r : Regs)

-- `'0' & size(0 to 30)`
def half : Word := 0#1 ++ r.size.extractLsb' 1 31

end Regs

structure Merging extends Regs where
  array0 : Word → Word
  array1 : Word → Word

namespace Des

/-- From `begin_sort` on the states are those of the bubble sort. -/
inductive State
  | reset | idle | decode | dispatch | beginMerge | mergeLoop | halt
  | bubble (st : BubbleSort.Des.State)
  deriving DecidableEq

structure System extends Merging where
  currentState : State
  end1 : Word
  end2 : Word
  chan1 : Channel

def First (s : System) : Prop :=
  s.i < s.size ∧ (s.data1 < s.data2 ∧ s.ptr1 ≤ s.end1 ∨ s.ptr2 > s.end2)

def Second (s : System) : Prop :=
  s.i < s.size ∧ (s.data1 ≥ s.data2 ∧ s.ptr2 ≤ s.end2 ∨ s.ptr1 > s.end1)

instance (s : System) : Decidable (First s) := inferInstanceAs (Decidable (_ ∧ _))
instance (s : System) : Decidable (Second s) := inferInstanceAs (Decidable (_ ∧ _))

def sorting (st : BubbleSort.Des.State) (i : ChanInput) (s : System) : System :=
  let next := BubbleSort.Des.trans i
    { s.toSortRegs with array0 := s.array0, currentState := st, chan1 := s.chan1 }
  { s with
    toSortRegs := next.toRegs, array0 := next.array0, chan1 := next.chan1
    currentState := if next.currentState = .halt then .halt else .bubble next.currentState }

/-- `TRANS`. -/
def trans (i : ChanInput) (s : System) : System :=
  match s.currentState with
  | .reset => { s with currentState := .idle }
  | .idle =>
    if s.chan1.exist i then
      { s with
        currentState := .decode, n := s.chan1.channelDataOut
        chan1 := s.chan1.clock i { channelRead := true } }
    else s
  | .decode =>
    { s with
      currentState := .dispatch, arg1 := startField s.n, arg2 := endField s.n
      opcode := s.n.extractLsb' 30 2 }
  | .dispatch =>
    if s.opcode = 0 then
      { s with currentState := .bubble .beginSort, nNew := s.arg2, n := s.arg2, swapped := true }
    else if s.opcode = 1 then
      if s.chan1.exist i then
        { s with
          currentState := .beginMerge, ptr1 := s.arg1 + 1, ptr2 := s.arg2 + 1
          size := s.chan1.channelDataOut, i := 0, data1 := s.array0 s.arg1
          chan1 := s.chan1.clock i { channelRead := true } }
      else s
    else { s with currentState := .halt }
  | .beginMerge =>
    { s with
      currentState := .mergeLoop, data2 := s.array0 s.arg2, end1 := s.arg1 + s.half - 1
      end2 := s.arg2 + s.half - 1 }
  | .mergeLoop =>
    if First s then
      { s with
        ptr1 := s.ptr1 + 1, array1 := Function.update s.array1 s.i s.data1
        data1 := s.array0 s.ptr1, i := s.i + 1 }
    else if Second s then
      { s with
        ptr2 := s.ptr2 + 1, array1 := Function.update s.array1 s.i s.data2
        data2 := s.array0 s.ptr2, i := s.i + 1 }
    else { s with currentState := .halt }
  | .halt =>
    if i.full then s
    else
      { s with
        currentState := .idle
        chan1 := s.chan1.clock i { channelWrite := true, channelDataIn := 0 } }
  | .bubble st => sorting st i s

end Des

namespace Vhdl

/-- From `begin_sort` on the states are those of the bubble sort (whose `extra1` and `extra2` are
`extra5` and `extra6` here). -/
inductive State
  | reset | idle | decode | dispatch | extra1 | beginMerge | halt | extra2 | mergeLoop | extra3
  | extra4 | bubble (st : BubbleSort.Vhdl.State)
  deriving DecidableEq

structure Core extends Regs where
  currentState : State

/-- What the core sees in a cycle; it reads nothing from `array1`. -/
structure Wires where
  array0_dOUT0 : Word
  chan1_exists : Bool
  chan1_full : Bool
  chan1_channelDataOut : Word

structure Drive where
  array0 : Port 32 32 := .off
  array1 : Port 32 32 := .off
  chan1 : ChanDrive := {}

def First (s : Regs) : Prop :=
  s.i < s.size ∧ (s.data1 < s.data2 ∧ s.ptr1 - s.half ≤ s.arg1 ∨ s.ptr2 - s.half > s.arg2)

def Second (s : Regs) : Prop :=
  s.i < s.size ∧ (s.data1 ≥ s.data2 ∧ s.ptr2 - s.half ≤ s.arg2 ∨ s.ptr1 - s.half > s.arg1)

instance (s : Regs) : Decidable (First s) := inferInstanceAs (Decidable (_ ∧ _))
instance (s : Regs) : Decidable (Second s) := inferInstanceAs (Decidable (_ ∧ _))

def sorting (st : BubbleSort.Vhdl.State) (w : Wires) (s : Core) : Core × Drive :=
  let next := BubbleSort.Vhdl.comb
    ⟨w.array0_dOUT0, w.chan1_exists, w.chan1_full, w.chan1_channelDataOut⟩
    { s.toSortRegs with currentState := st }
  ({ s with
      toSortRegs := next.1.toRegs
      currentState := if next.1.currentState = .halt then .halt else .bubble next.1.currentState },
    { array0 := next.2.array0, chan1 := next.2.chan1 })

/-- `FSM_COMB_PROCESS`, and the clock edge after it. -/
def comb (w : Wires) (s : Core) : Core × Drive :=
  match s.currentState with
  | .beginMerge => ({ s with currentState := .extra2 }, { array0 := .read s.arg2 })
  | .decode =>
    ({ s with
        currentState := .dispatch, opcode := s.n.extractLsb' 30 2, arg2 := endField s.n
        arg1 := startField s.n }, {})
  | .dispatch =>
    if s.opcode = 0 then
      ({ s with currentState := .bubble .beginSort, swapped := true, n := s.arg2, nNew := s.arg2 },
        {})
    else if s.opcode = 1 then
      ({ s with currentState := .extra1 }, { array0 := .read s.arg1 })
    else ({ s with currentState := .halt }, {})
  | .extra1 =>
    if w.chan1_exists then
      ({ s with
          currentState := .beginMerge, data1 := w.array0_dOUT0, i := 0
          size := w.chan1_channelDataOut, ptr2 := s.arg2 + 1, ptr1 := s.arg1 + 1 },
        { chan1 := { channelRead := true } })
    else (s, {})
  | .extra2 => ({ s with currentState := .mergeLoop, data2 := w.array0_dOUT0 }, {})
  | .extra3 =>
    ({ s with
        currentState := .mergeLoop, i := s.i + 1, data1 := w.array0_dOUT0, ptr1 := s.ptr1 + 1 },
      { array1 := .write s.i s.data1 })
  | .extra4 =>
    ({ s with
        currentState := .mergeLoop, i := s.i + 1, data2 := w.array0_dOUT0, ptr2 := s.ptr2 + 1 },
      { array1 := .write s.i s.data2 })
  | .halt =>
    if w.chan1_full then (s, {})
    else
      ({ s with currentState := .idle },
        { chan1 := { channelWrite := true, channelDataIn := 0 } })
  | .idle =>
    if w.chan1_exists then
      ({ s with currentState := .decode, n := w.chan1_channelDataOut },
        { chan1 := { channelRead := true } })
    else (s, {})
  | .mergeLoop =>
    if First s.toRegs then ({ s with currentState := .extra3 }, { array0 := .read s.ptr1 })
    else if Second s.toRegs then
      ({ s with currentState := .extra4 }, { array0 := .read s.ptr2 })
    else ({ s with currentState := .halt }, {})
  | .reset => ({ s with currentState := .idle }, {})
  | .bubble st => sorting st w s

structure System where
  core : Core
  array0 : Bram 32 32
  array1 : Bram 32 32
  chan1 : Channel

def wires (i : ChanInput) (s : System) : Wires where
  array0_dOUT0 := s.array0.dout
  chan1_exists := s.chan1.exist i
  chan1_full := i.full
  chan1_channelDataOut := s.chan1.channelDataOut

def clock (i : ChanInput) (s : System) : System :=
  let next := comb (wires i s) s.core
  ⟨next.1, s.array0.clock next.2.array0, s.array1.clock next.2.array1, s.chan1.clock i next.2.chan1⟩

end Vhdl

section Loop

def takeFirst (x : Merging) : Merging :=
  { x with
    ptr1 := x.ptr1 + 1, array1 := Function.update x.array1 x.i x.data1, data1 := x.array0 x.ptr1
    i := x.i + 1 }

def takeSecond (x : Merging) : Merging :=
  { x with
    ptr2 := x.ptr2 + 1, array1 := Function.update x.array1 x.i x.data2, data2 := x.array0 x.ptr2
    i := x.i + 1 }

/-- The turns from `merge_loop` to `halt`, by when an element of the first half is taken and when,
if not, one of the second. -/
inductive Loop (first second : Merging → Prop) : Merging → Merging → Prop
  | done {x} : ¬ first x → ¬ second x → Loop first second x x
  | first {x y} : first x → Loop first second (takeFirst x) y → Loop first second x y
  | second {x y} : ¬ first x → second x → Loop first second (takeSecond x) y → Loop first second x y

end Loop

section Forms

variable {inputs : ℕ → ChanInput} {x y : Merging} {c : Channel} {end1 end2 d d1 : Word}

def Des.at (st : Des.State) (x : Merging) (end1 end2 : Word) (c : Channel) : Des.System :=
  { x with currentState := st, end1, end2, chan1 := c }

-- in `merge_loop` the ends have been computed
def Des.merging (x : Merging) (c : Channel) : Des.System :=
  Des.at .mergeLoop x (x.arg1 + x.half - 1) (x.arg2 + x.half - 1) c

def Des.TakesFirst (x : Merging) : Prop := Des.First (Des.merging x ⟨[], []⟩)

def Des.TakesSecond (x : Merging) : Prop := Des.Second (Des.merging x ⟨[], []⟩)

def Vhdl.at (st : Vhdl.State) (x : Merging) (d d1 : Word) (c : Channel) : Vhdl.System :=
  ⟨{ x.toRegs with currentState := st }, ⟨x.array0, d⟩, ⟨x.array1, d1⟩, c⟩

def Vhdl.TakesFirst (x : Merging) : Prop := Vhdl.First x.toRegs

def Vhdl.TakesSecond (x : Merging) : Prop := Vhdl.Second x.toRegs

lemma Des.loop (h : Loop Des.TakesFirst Des.TakesSecond x y) : ∃ end1 end2,
    Leads Des.trans inputs (Des.merging x c) (Des.at .halt y end1 end2 c) := by
  induction h with
  | done h h' => exact ⟨_, _, .of_step fun i => (if_neg h).trans (if_neg h')⟩
  | first h _ ih =>
    obtain ⟨end1, end2, hrest⟩ := ih
    exact ⟨end1, end2, .cons (fun i => if_pos h) hrest⟩
  | second h h' _ ih =>
    obtain ⟨end1, end2, hrest⟩ := ih
    exact ⟨end1, end2, .cons (fun i => (if_neg h).trans (if_pos h')) hrest⟩

lemma Vhdl.leads {s t : Vhdl.System} {drive : Vhdl.Drive}
    (hcomb : ∀ i, Vhdl.comb (Vhdl.wires i s) s.core = (t.core, drive))
    (harray : s.array0.clock drive.array0 = t.array0)
    (harray' : s.array1.clock drive.array1 = t.array1)
    (hchan : ∀ i, s.chan1.clock i drive.chan1 = t.chan1) : Leads Vhdl.clock inputs s t := by
  refine .of_step fun i => ?_
  simp only [Vhdl.clock, hcomb, harray, harray', hchan]

lemma Vhdl.loop (h : Loop Vhdl.TakesFirst Vhdl.TakesSecond x y) (d d1 : Word) : ∃ d' d1',
    Leads Vhdl.clock inputs (Vhdl.at .mergeLoop x d d1 c) (Vhdl.at .halt y d' d1' c) := by
  induction h generalizing d d1 with
  | done h h' =>
    exact ⟨d, d1, Vhdl.leads (fun i => (if_neg h).trans (if_neg h')) rfl rfl fun i => rfl⟩
  | @first x y h _ ih =>
    have hread : Leads Vhdl.clock inputs (Vhdl.at .mergeLoop x d d1 c)
        (Vhdl.at .extra3 x (x.array0 x.ptr1) d1 c) :=
      Vhdl.leads (fun i => if_pos h) rfl rfl fun i => rfl
    have hwrite : Leads Vhdl.clock inputs (Vhdl.at .extra3 x (x.array0 x.ptr1) d1 c)
        (Vhdl.at .mergeLoop (takeFirst x) (x.array0 x.ptr1) (x.array1 x.i) c) :=
      Vhdl.leads (fun i => rfl) rfl (Bram.clock_write _ _ _) fun i => rfl
    obtain ⟨d', d1', hrest⟩ := ih (x.array0 x.ptr1) (x.array1 x.i)
    exact ⟨d', d1', hread.trans (hwrite.trans hrest)⟩
  | @second x y h h' _ ih =>
    have hread : Leads Vhdl.clock inputs (Vhdl.at .mergeLoop x d d1 c)
        (Vhdl.at .extra4 x (x.array0 x.ptr2) d1 c) :=
      Vhdl.leads (fun i => (if_neg h).trans (if_pos h')) rfl rfl fun i => rfl
    have hwrite : Leads Vhdl.clock inputs (Vhdl.at .extra4 x (x.array0 x.ptr2) d1 c)
        (Vhdl.at .mergeLoop (takeSecond x) (x.array0 x.ptr2) (x.array1 x.i) c) :=
      Vhdl.leads (fun i => rfl) rfl (Bram.clock_write _ _ _) fun i => rfl
    obtain ⟨d', d1', hrest⟩ := ih (x.array0 x.ptr2) (x.array1 x.i)
    exact ⟨d', d1', hread.trans (hwrite.trans hrest)⟩

/-- The registers at `merge_loop` for a command word and a size. -/
def beginMerge (w size : Word) (x : Merging) : Merging :=
  { x with
    n := w, arg1 := startField w, arg2 := endField w, opcode := 1, ptr1 := startField w + 1
    ptr2 := endField w + 1, size, i := 0, data1 := x.array0 (startField w)
    data2 := x.array0 (endField w) }

variable {w size : Word} {rest sent : List Word}

-- the command word is there, and has been decoded
def decoded (w : Word) (x : Merging) : Merging :=
  { x with n := w, arg1 := startField w, arg2 := endField w, opcode := w.extractLsb' 30 2 }

-- the size is there, and the first element of the first half
def sized (w size : Word) (x : Merging) : Merging :=
  { decoded w x with
    ptr1 := startField w + 1, ptr2 := endField w + 1, size, i := 0,
    data1 := x.array0 (startField w) }

lemma Des.fetch (hs : Serves inputs) (hw : w.extractLsb' 30 2 = 1) :
    Leads Des.trans inputs (Des.at .idle x end1 end2 ⟨w :: size :: rest, sent⟩)
      (Des.merging (beginMerge w size x) ⟨rest, sent⟩) := by
  have hword : Leads Des.trans inputs (Des.at .idle x end1 end2 ⟨w :: size :: rest, sent⟩)
      (Des.at .decode { x with n := w } end1 end2 ⟨size :: rest, sent⟩) := by
    refine hs.leads_ready (fun i hi => ?_) fun i hi => ?_
    · simp [Des.trans, Des.at, Channel.exist_cons, hi]
    · simp [Des.trans, Des.at, Channel.exist_cons, Channel.clock, Channel.channelDataOut, hi]
  have hdecode : Leads Des.trans inputs
      (Des.at .decode { x with n := w } end1 end2 ⟨size :: rest, sent⟩)
      (Des.at .dispatch (decoded w x) end1 end2 ⟨size :: rest, sent⟩) := .of_step fun i => rfl
  have hsize : Leads Des.trans inputs
    (Des.at .dispatch (decoded w x) end1 end2 ⟨size :: rest, sent⟩)
      (Des.at .beginMerge (sized w size x) end1 end2 ⟨rest, sent⟩) := by
    refine hs.leads_ready (fun i hi => ?_) fun i hi => ?_
    · simp [Des.trans, Des.at, decoded, hw, Channel.exist_cons, hi]
    · simp [Des.trans, Des.at, decoded, sized, hw, Channel.exist_cons, Channel.clock,
        Channel.channelDataOut, hi]
  have hbegin : Leads Des.trans inputs (Des.at .beginMerge (sized w size x) end1 end2 ⟨rest, sent⟩)
      (Des.merging (beginMerge w size x) ⟨rest, sent⟩) := by
    refine .of_step fun i => ?_
    rw [beginMerge, ← hw]
    rfl
  exact hword.trans (hdecode.trans (hsize.trans hbegin))

lemma Des.answer (hs : Serves inputs) :
    Leads Des.trans inputs (Des.at .halt x end1 end2 ⟨rest, sent⟩)
      (Des.at .idle x end1 end2 ⟨rest, sent ++ [0]⟩) := by
  refine hs.leads_room (fun i hi => ?_) fun i hi => ?_
  · simp [Des.trans, Des.at, hi]
  · simp [Des.trans, Des.at, Channel.clock, hi]

lemma Vhdl.fetch (hs : Serves inputs) (hw : w.extractLsb' 30 2 = 1) :
    Leads Vhdl.clock inputs (Vhdl.at .idle x d d1 ⟨w :: size :: rest, sent⟩)
      (Vhdl.at .mergeLoop (beginMerge w size x) (x.array0 (endField w)) d1 ⟨rest, sent⟩) := by
  have hword : Leads Vhdl.clock inputs (Vhdl.at .idle x d d1 ⟨w :: size :: rest, sent⟩)
      (Vhdl.at .decode { x with n := w } d d1 ⟨size :: rest, sent⟩) := by
    refine hs.leads_ready (fun i hi => ?_) fun i hi => ?_
    · simp [Vhdl.clock, Vhdl.comb, Vhdl.wires, Vhdl.at, Channel.exist_cons, Channel.clock, hi]
    · simp [Vhdl.clock, Vhdl.comb, Vhdl.wires, Vhdl.at, Channel.exist_cons, Channel.clock,
        Channel.channelDataOut, hi]
  have hdecode : Leads Vhdl.clock inputs
      (Vhdl.at .decode { x with n := w } d d1 ⟨size :: rest, sent⟩)
      (Vhdl.at .dispatch (decoded w x) d d1 ⟨size :: rest, sent⟩) := .of_step fun i => rfl
  have hread : Leads Vhdl.clock inputs (Vhdl.at .dispatch (decoded w x) d d1 ⟨size :: rest, sent⟩)
      (Vhdl.at .extra1 (decoded w x) (x.array0 (startField w)) d1 ⟨size :: rest, sent⟩) := by
    refine .of_step fun i => ?_
    simp [Vhdl.clock, Vhdl.comb, Vhdl.at, decoded, hw, Channel.clock]
  have hsize : Leads Vhdl.clock inputs
      (Vhdl.at .extra1 (decoded w x) (x.array0 (startField w)) d1 ⟨size :: rest, sent⟩)
      (Vhdl.at .beginMerge (sized w size x) (x.array0 (startField w)) d1 ⟨rest, sent⟩) := by
    refine hs.leads_ready (fun i hi => ?_) fun i hi => ?_
    · simp [Vhdl.clock, Vhdl.comb, Vhdl.wires, Vhdl.at, Channel.exist_cons, Channel.clock, hi]
    · simp [Vhdl.clock, Vhdl.comb, Vhdl.wires, Vhdl.at, decoded, sized, Channel.exist_cons,
        Channel.clock, Channel.channelDataOut, hi]
  have hbegin : Leads Vhdl.clock inputs
      (Vhdl.at .beginMerge (sized w size x) (x.array0 (startField w)) d1 ⟨rest, sent⟩)
      (Vhdl.at .extra2 (sized w size x) (x.array0 (endField w)) d1 ⟨rest, sent⟩) :=
    .of_step fun i => rfl
  have hdata2 : Leads Vhdl.clock inputs
      (Vhdl.at .extra2 (sized w size x) (x.array0 (endField w)) d1 ⟨rest, sent⟩)
      (Vhdl.at .mergeLoop (beginMerge w size x) (x.array0 (endField w)) d1 ⟨rest, sent⟩) := by
    refine .of_step fun i => ?_
    rw [beginMerge, ← hw]
    rfl
  exact hword.trans (hdecode.trans (hread.trans (hsize.trans (hbegin.trans hdata2))))

lemma Vhdl.answer (hs : Serves inputs) :
    Leads Vhdl.clock inputs (Vhdl.at .halt x d d1 ⟨rest, sent⟩)
      (Vhdl.at .idle x d d1 ⟨rest, sent ++ [0]⟩) := by
  refine hs.leads_room (fun i hi => ?_) fun i hi => ?_
  · simp [Vhdl.clock, Vhdl.comb, Vhdl.wires, Vhdl.at, Channel.clock, hi]
  · simp [Vhdl.clock, Vhdl.comb, Vhdl.wires, Vhdl.at, Channel.clock, hi]

end Forms

end Hthreads.HwAcc.MergeSort
