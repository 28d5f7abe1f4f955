import Mathlib.Algebra.BigOperators.Intervals
import Mathlib.Data.BitVec
import Hthreads.HwAcc.Channel
import Hthreads.Library.Bram

/-! The vector core (`hw_acc_vector`): sums, products and the sum of the products of two ranges,
with the words read ahead of their use. -/

namespace Hthreads.HwAcc.Vector

open Library

inductive State
  | reset | fetch | decode | addvState1 | mulvState1 | mulvState2 | redvState1 | halt
  deriving DecidableEq

structure Core where
  currentState : State
  i : Word
  n : Word
  index : Word
  ret : BitVec 64
  op : BitVec 2

def opAddv : BitVec 2 := 0b00
def opMulv : BitVec 2 := 0b01
def opRedv : BitVec 2 := 0b10

/-- What the core sees in a cycle; it reads nothing from the third memory. -/
structure Wires where
  vectorA_dOUT0 : Word
  vectorB_dOUT0 : Word
  chan1_exists : Bool
  chan1_full : Bool
  chan1_channelDataOut : Word

namespace Wires

variable (w : Wires)

def sum : Word := w.vectorA_dOUT0 + w.vectorB_dOUT0

-- the product of two words has all its 64 bits
def product : BitVec 64 := w.vectorA_dOUT0.setWidth 64 * w.vectorB_dOUT0.setWidth 64

end Wires

structure Drive where
  vectorA : Port 32 32 := .off
  vectorB : Port 32 32 := .off
  vectorC : Port 32 32 := .off
  chan1 : ChanDrive := {}

def readBoth (a : Word) : Drive where
  vectorA := .read (wordAddr a)
  vectorB := .read (wordAddr a)

/-- `FSM_COMB_PROCESS`, and the clock edge after it. -/
def comb (w : Wires) (s : Core) : Core × Drive :=
  match s.currentState with
  | .reset => ({ s with currentState := .fetch }, {})
  | .fetch =>
    if w.chan1_exists then
      ({ s with
          currentState := .decode, index := startField w.chan1_channelDataOut
          n := endField w.chan1_channelDataOut, op := w.chan1_channelDataOut.extractLsb' 30 2
          ret := 0 },
        { chan1 := { channelRead := true } })
    else (s, {})
  | .decode =>
    let s := { s with i := s.index }
    if s.op = opAddv then ({ s with currentState := .addvState1 }, readBoth s.index)
    else if s.op = opMulv then ({ s with currentState := .mulvState1 }, readBoth s.index)
    else if s.op = opRedv then ({ s with currentState := .redvState1 }, readBoth s.index)
    else (s, readBoth s.index)
  | .addvState1 =>
    if s.n - 1 ≤ s.i then ({ s with currentState := .halt }, {})
    else
      ({ s with i := s.i + 1 },
        { readBoth (s.i + 1) with vectorC := .write (wordAddr s.i) w.sum })
  | .mulvState1 =>
    ({ s with currentState := .mulvState2, ret := w.product, i := s.i + 1 }, readBoth (s.i + 1))
  | .mulvState2 =>
    if s.n - 1 ≤ s.i then
      ({ s with currentState := .halt, ret := w.product },
        { vectorC := .write (wordAddr (s.i - 1)) (s.ret.setWidth 32) })
    else
      ({ s with ret := w.product, i := s.i + 1 },
        { readBoth (s.i + 1) with
          vectorC := .write (wordAddr (s.i - 1)) (s.ret.setWidth 32) })
  | .redvState1 =>
    if s.n - 1 ≤ s.i then ({ s with currentState := .halt, ret := w.product + s.ret }, {})
    else ({ s with ret := w.product + s.ret, i := s.i + 1 }, readBoth (s.i + 1))
  | .halt =>
    if w.chan1_full then (s, {})
    else
      let done : ChanDrive := { channelWrite := true, channelDataIn := s.ret.setWidth 32 }
      if s.op = opAddv then
        ({ s with currentState := .fetch },
          { vectorC := .write (wordAddr s.i) w.sum, chan1 := done })
      else if s.op = opMulv then
        ({ s with currentState := .fetch },
          { vectorC := .write (wordAddr s.i) (s.ret.setWidth 32), chan1 := done })
      else if s.op = opRedv then ({ s with currentState := .fetch }, { chan1 := done })
      else (s, {})

structure System where
  core : Core
  vectorA : Bram 32 32
  vectorB : Bram 32 32
  vectorC : Bram 32 32
  chan1 : Channel

def wires (i : ChanInput) (s : System) : Wires where
  vectorA_dOUT0 := s.vectorA.dout
  vectorB_dOUT0 := s.vectorB.dout
  chan1_exists := s.chan1.exist i
  chan1_full := i.full
  chan1_channelDataOut := s.chan1.channelDataOut

def clock (i : ChanInput) (s : System) : System :=
  let next := comb (wires i s) s.core
  ⟨next.1, s.vectorA.clock next.2.vectorA, s.vectorB.clock next.2.vectorB,
    s.vectorC.clock next.2.vectorC, s.chan1.clock i next.2.chan1⟩

structure Vectors where
  a : Word → Word
  b : Word → Word
  c : Word → Word

namespace Vectors

variable (v : Vectors)

def sum (k : Word) : Word := v.a (wordAddr k) + v.b (wordAddr k)
def product (k : Word) : Word := v.a (wordAddr k) * v.b (wordAddr k)

end Vectors

/-- What a command is to make of the memories, and the answer to it. -/
structure Computes (w : Word) (v : Vectors) (c' : Word → Word) (answer : Word) : Prop where
  addv : w.extractLsb' 30 2 = opAddv → Written v.sum (startField w) (endField w) v.c c'
  mulv : w.extractLsb' 30 2 = opMulv → Written v.product (startField w) (endField w) v.c c'
  redv : w.extractLsb' 30 2 = opRedv → c' = v.c ∧
    answer = ∑ k ∈ Finset.Ico (startField w).toNat (endField w).toNat, v.product (.ofNat 32 k)

section Runs

variable {inputs : ℕ → ChanInput} {v : Vectors} {s : Core} {c : Word → Word} {i start dc : Word}
  {ch : Channel}

-- the words at `k` are behind the read ports
def atState (st : State) (v : Vectors) (k : Word) (c : Word → Word) (dc : Word) (s : Core)
    (ch : Channel) : System :=
  ⟨{ s with currentState := st }, ⟨v.a, v.a (wordAddr k)⟩, ⟨v.b, v.b (wordAddr k)⟩, ⟨c, dc⟩, ch⟩

lemma leads {s t : System} (drive : Drive) (hcomb : ∀ i, comb (wires i s) s.core = (t.core, drive))
    (hnext : ∀ i, (⟨t.core, s.vectorA.clock drive.vectorA, s.vectorB.clock drive.vectorB,
      s.vectorC.clock drive.vectorC, s.chan1.clock i drive.chan1⟩ : System) = t) :
    Leads clock inputs s t := by
  refine .of_step fun i => ?_
  rw [← hnext i]
  simp only [clock, hcomb]

lemma addv_loop (inputs : ℕ → ChanInput) (s : Core) (ch : Channel)
    (hn : s.n.toNat < 2 ^ 15) (m : ℕ) :
    ∀ {i : Word} {c : Word → Word} (dc : Word), start ≤ i → i.toNat + m + 1 = s.n.toNat →
      Written v.sum start i v.c c → ∃ c' dc', Written v.sum start (s.n - 1) v.c c' ∧
        Leads clock inputs (atState .addvState1 v i c dc { s with i := i } ch)
          (atState .halt v (s.n - 1) c' dc' { s with i := s.n - 1 } ch) := by
  induction m with
  | zero =>
    intro i c dc hstart hi hc
    obtain rfl : i = s.n - 1 := by bv_omega
    exact ⟨c, dc, hc, leads _ (fun _ => if_pos (BitVec.le_refl _)) fun _ => rfl⟩
  | succ m ih =>
    intro i c dc hstart hi hc
    have hlt : ¬ s.n - 1 ≤ i := by bv_omega
    obtain ⟨c', dc', hc', hrest⟩ := ih (c (wordAddr i)) (by bv_omega) (by bv_omega)
      (hc.next hstart (by omega))
    let drive : Drive := { readBoth (i + 1) with vectorC := .write (wordAddr i) (v.sum i) }
    have hstep : Leads clock inputs (atState .addvState1 v i c dc { s with i := i } ch)
        (atState .addvState1 v (i + 1) (Function.update c (wordAddr i) (v.sum i)) (c (wordAddr i))
          { s with i := i + 1 } ch) := 
      leads drive (fun _ => if_neg hlt) fun _ => rfl
    exact ⟨c', dc', hc', hstep.trans hrest⟩

-- the product of the words behind the ports
def readProduct (v : Vectors) (k : Word) : BitVec 64 :=
  (v.a (wordAddr k)).setWidth 64 * (v.b (wordAddr k)).setWidth 64

lemma setWidth_readProduct (v : Vectors) (k : Word) :
    (readProduct v k).setWidth 32 = v.product k := by
  rw [readProduct, Vectors.product, BitVec.setWidth_mul _ _ (by norm_num),
    BitVec.setWidth_setWidth_of_le _ (by norm_num), BitVec.setWidth_setWidth_of_le _ (by norm_num),
    BitVec.setWidth_eq, BitVec.setWidth_eq]

/-- In `mulv_state2` the product of the word before is at hand. -/
lemma mulv_loop (inputs : ℕ → ChanInput) (s : Core) (ch : Channel)
    (hn : s.n.toNat < 2 ^ 15) (m : ℕ) :
    ∀ {j : Word} {c : Word → Word} (dc : Word), start ≤ j → j.toNat + m + 2 = s.n.toNat →
      Written v.product start j v.c c → ∃ c' dc', Written v.product start (s.n - 1) v.c c' ∧
        Leads clock inputs
          (atState .mulvState2 v (j + 1) c dc { s with i := j + 1, ret := readProduct v j } ch)
          (atState .halt v (s.n - 1) c' dc'
            { s with i := s.n - 1, ret := readProduct v (s.n - 1) } ch) := by
  induction m with
  | zero =>
    intro j c dc hstart hj hc
    have hlast : s.n - 1 = j + 1 := by bv_omega
    have hcarry : j + 1 - 1 = j := by bv_omega
    have hle : s.n - 1 ≤ j + 1 := by bv_omega
    rw [hlast]
    refine ⟨_, c (wordAddr j), hc.next hstart (by omega), ?_⟩
    have hstep : Leads clock inputs
        (atState .mulvState2 v (j + 1) c dc { s with i := j + 1, ret := readProduct v j } ch)
        (atState .halt v (j + 1) (Function.update c (wordAddr (j + 1 - 1))
            ((readProduct v j).setWidth 32)) (c (wordAddr (j + 1 - 1)))
          { s with i := j + 1, ret := readProduct v (j + 1) } ch) :=
      leads _ (fun _ => if_pos hle) fun _ => rfl
    rwa [hcarry, setWidth_readProduct] at hstep
  | succ m ih =>
    intro j c dc hstart hj hc
    have hcarry : j + 1 - 1 = j := by bv_omega
    have hlt : ¬ s.n - 1 ≤ j + 1 := by bv_omega
    obtain ⟨c', dc', hc', hrest⟩ := ih (c (wordAddr j)) (by bv_omega) (by bv_omega)
      (hc.next hstart (by omega))
    have hstep : Leads clock inputs
        (atState .mulvState2 v (j + 1) c dc { s with i := j + 1, ret := readProduct v j } ch)
        (atState .mulvState2 v (j + 1 + 1) (Function.update c (wordAddr (j + 1 - 1))
            ((readProduct v j).setWidth 32)) (c (wordAddr (j + 1 - 1)))
          { s with i := j + 1 + 1, ret := readProduct v (j + 1) } ch) :=
      leads _ (fun _ => if_neg hlt) fun _ => rfl
    rw [hcarry, setWidth_readProduct] at hstep
    exact ⟨c', dc', hc', hstep.trans hrest⟩

lemma redv_loop (inputs : ℕ → ChanInput) (s : Core) (ch : Channel)
    (hn : s.n.toNat < 2 ^ 15) (m : ℕ) :
    ∀ {i : Word} {ret : BitVec 64}, start ≤ i → i.toNat + m + 1 = s.n.toNat →
      ret.setWidth 32 = ∑ k ∈ Finset.Ico start.toNat i.toNat, v.product (.ofNat 32 k) →
      ∃ ret' : BitVec 64,
        ret'.setWidth 32 = ∑ k ∈ Finset.Ico start.toNat s.n.toNat, v.product (.ofNat 32 k) ∧
        Leads clock inputs (atState .redvState1 v i c dc { s with i := i, ret := ret } ch)
          (atState .halt v (s.n - 1) c dc { s with i := s.n - 1, ret := ret' } ch) := by
  -- a turn adds the product of the words behind the ports
  have hsum : ∀ {i : Word} {ret : BitVec 64}, start ≤ i →
      ret.setWidth 32 = ∑ k ∈ Finset.Ico start.toNat i.toNat, v.product (.ofNat 32 k) →
      (readProduct v i + ret).setWidth 32 =
        ∑ k ∈ Finset.Ico start.toNat (i.toNat + 1), v.product (.ofNat 32 k) := by
    intro i ret hstart hret
    rw [BitVec.setWidth_add _ _ (by norm_num), setWidth_readProduct, hret,
      Finset.sum_Ico_succ_top (BitVec.le_def.mp hstart), BitVec.ofNat_toNat, BitVec.setWidth_eq]
    exact add_comm _ _
  induction m with
  | zero =>
    intro i ret hstart hi hret
    obtain rfl : i = s.n - 1 := by bv_omega
    have hlast : s.n.toNat = (s.n - 1).toNat + 1 := by omega
    exact ⟨readProduct v (s.n - 1) + ret, hlast ▸ hsum hstart hret,
      leads _ (fun _ => if_pos (BitVec.le_refl _)) fun _ => rfl⟩
  | succ m ih =>
    intro i ret hstart hi hret
    have hlt : ¬ s.n - 1 ≤ i := by bv_omega
    have hnext : (i + 1).toNat = i.toNat + 1 := by bv_omega
    obtain ⟨ret', hret', hrest⟩ := ih (i := i + 1) (by bv_omega) (by bv_omega)
      (hnext ▸ hsum hstart hret)
    have hstep : Leads clock inputs (atState .redvState1 v i c dc { s with i := i, ret := ret } ch)
        (atState .redvState1 v (i + 1) c dc
          { s with i := i + 1, ret := readProduct v i + ret } ch) :=
      leads _ (fun _ => if_neg hlt) fun _ => rfl
    exact ⟨ret', hret', hstep.trans hrest⟩

variable {w k : Word} {rest sent : List Word}

lemma addv_answer (hs : Serves inputs) (hop : s.op = opAddv) : Leads clock inputs
    (atState .halt v k c dc s ⟨rest, sent⟩)
    (atState .fetch v k (Function.update c (wordAddr s.i) (v.sum k)) (c (wordAddr s.i)) s
      ⟨rest, sent ++ [s.ret.setWidth 32]⟩) := by
  refine hs.leads_room (fun i hi => ?_) fun i hi => ?_
  · simp [clock, comb, wires, atState, Channel.clock, hi]
  · simp [clock, comb, wires, atState, Channel.clock, Wires.sum, Vectors.sum, hop, hi]

lemma mulv_answer (hs : Serves inputs) (hop : s.op = opMulv) : Leads clock inputs
    (atState .halt v k c dc s ⟨rest, sent⟩)
    (atState .fetch v k (Function.update c (wordAddr s.i) (s.ret.setWidth 32)) (c (wordAddr s.i)) s
      ⟨rest, sent ++ [s.ret.setWidth 32]⟩) := by
  refine hs.leads_room (fun i hi => ?_) fun i hi => ?_
  · simp [clock, comb, wires, atState, Channel.clock, hi]
  · simp [clock, comb, wires, atState, Channel.clock, hop, hi, opMulv, opAddv]

lemma redv_answer (hs : Serves inputs) (hop : s.op = opRedv) : Leads clock inputs
    (atState .halt v k c dc s ⟨rest, sent⟩)
    (atState .fetch v k c dc s ⟨rest, sent ++ [s.ret.setWidth 32]⟩) := by
  refine hs.leads_room (fun i hi => ?_) fun i hi => ?_
  · simp [clock, comb, wires, atState, Channel.clock, hi]
  · simp [clock, comb, wires, atState, Channel.clock, hop, hi, opMulv, opAddv, opRedv]

def received (w : Word) (s : Core) : Core :=
  { s with
    index := startField w, n := endField w, op := w.extractLsb' 30 2, ret := 0 }

def System.vectors (s : System) : Vectors := ⟨s.vectorA.data, s.vectorB.data, s.vectorC.data⟩

lemma fetch (hs : Serves inputs) {s : System} (hfetch : s.core.currentState = .fetch)
    (hpending : s.chan1.pending = w :: rest) : Leads clock inputs s
      { s with
        core := { received w s.core with currentState := .decode }
        chan1 := ⟨rest, s.chan1.sent⟩ } := by
  obtain ⟨⟨st, i, n, index, ret, op⟩, a, b, c, pending, sent⟩ := s
  obtain rfl : st = .fetch := hfetch
  obtain rfl : pending = w :: rest := hpending
  refine hs.leads_ready (fun i hi => ?_) fun i hi => ?_
  · simp [clock, comb, wires, Channel.exist_cons, Channel.clock, hi]
  · simp [clock, comb, wires, received, Channel.exist_cons, Channel.clock,
      Channel.channelDataOut, hi]

variable {s t : System}

lemma fetch_addv (hs : Serves inputs) (hfetch : s.core.currentState = .fetch)
    (hpending : s.chan1.pending = w :: rest) (hop : w.extractLsb' 30 2 = opAddv) :
    Leads clock inputs s (atState .addvState1 s.vectors (startField w) s.vectors.c s.vectorC.dout
      { received w s.core with i := startField w } ⟨rest, s.chan1.sent⟩) :=
  (fetch hs hfetch hpending).trans
    (leads (readBoth (startField w)) (fun _ => if_pos hop) fun _ => rfl)

lemma fetch_mulv (hs : Serves inputs) (hfetch : s.core.currentState = .fetch)
    (hpending : s.chan1.pending = w :: rest) (hop : w.extractLsb' 30 2 = opMulv) :
    Leads clock inputs s
      (atState .mulvState2 s.vectors (startField w + 1) s.vectors.c s.vectorC.dout
      { received w s.core with i := startField w + 1, ret := readProduct s.vectors (startField w) }
      ⟨rest, s.chan1.sent⟩) := by
  have hne : ¬ w.extractLsb' 30 2 = opAddv := by
    rw [hop]
    decide
  have hdecode : Leads clock inputs
      { s with
        core := { received w s.core with currentState := .decode }, chan1 := ⟨rest, s.chan1.sent⟩ }
      (atState .mulvState1 s.vectors (startField w) s.vectors.c s.vectorC.dout
        { received w s.core with i := startField w } ⟨rest, s.chan1.sent⟩) :=
    leads (readBoth (startField w)) (fun _ => (if_neg hne).trans (if_pos hop)) fun _ => rfl
  exact (fetch hs hfetch hpending).trans (hdecode.trans
    (leads (readBoth (startField w + 1)) (fun _ => rfl) fun _ => rfl))

lemma fetch_redv (hs : Serves inputs) (hfetch : s.core.currentState = .fetch)
    (hpending : s.chan1.pending = w :: rest) (hop : w.extractLsb' 30 2 = opRedv) :
    Leads clock inputs s (atState .redvState1 s.vectors (startField w) s.vectors.c s.vectorC.dout
      { received w s.core with i := startField w } ⟨rest, s.chan1.sent⟩) := by
  have hne : ¬ w.extractLsb' 30 2 = opAddv := by
    rw [hop]
    decide
  have hne' : ¬ w.extractLsb' 30 2 = opMulv := by
    rw [hop]
    decide
  exact (fetch hs hfetch hpending).trans (leads (readBoth (startField w))
    (fun _ => (if_neg hne).trans ((if_neg hne').trans (if_pos hop))) fun _ => rfl)

/-- The core is back in `fetch` with one answer more, having written nothing but the third memory.
-/
structure Answered (inputs : ℕ → ChanInput) (rest : List Word) (s t : System) (answer : Word) :
    Prop where
  leads : Leads clock inputs s t
  currentState : t.core.currentState = .fetch
  vectorA : t.vectorA.data = s.vectorA.data
  vectorB : t.vectorB.data = s.vectorB.data
  chan1 : t.chan1 = ⟨rest, s.chan1.sent ++ [answer]⟩

lemma addv_answered (hs : Serves inputs) (hfetch : s.core.currentState = .fetch)
    (hpending : s.chan1.pending = w :: rest) (hop : w.extractLsb' 30 2 = opAddv)
    (hlt : startField w < endField w) : ∃ t answer, Answered inputs rest s t answer ∧
      Written s.vectors.sum (startField w) (endField w) s.vectors.c t.vectorC.data := by
  obtain ⟨m, hm⟩ := Nat.exists_eq_add_of_lt (BitVec.lt_def.mp hlt)
  obtain ⟨c', dc', hc', hloop⟩ := addv_loop inputs (received w s.core) ⟨rest, s.chan1.sent⟩
    (endField_lt w) m s.vectorC.dout (BitVec.le_refl _) hm.symm
      (.empty (BitVec.le_refl _) s.vectors.c)
  refine ⟨_, _,
    ⟨(fetch_addv hs hfetch hpending hop).trans (hloop.trans (addv_answer hs hop)), rfl, rfl,
    rfl, rfl⟩, ?_⟩
  exact hc'.last hlt (endField_lt w)

lemma mulv_answered (hs : Serves inputs) (hfetch : s.core.currentState = .fetch)
    (hpending : s.chan1.pending = w :: rest) (hop : w.extractLsb' 30 2 = opMulv)
    (hlt : (startField w).toNat + 1 < (endField w).toNat) :
      ∃ t answer, Answered inputs rest s t answer ∧
      Written s.vectors.product (startField w) (endField w) s.vectors.c t.vectorC.data := by
  obtain ⟨m, hm⟩ := Nat.exists_eq_add_of_lt hlt
  have hm' : (startField w).toNat + m + 2 = (received w s.core).n.toNat := by
    change (startField w).toNat + m + 2 = (endField w).toNat
    omega
  obtain ⟨c', dc', hc', hloop⟩ := mulv_loop inputs (received w s.core) ⟨rest, s.chan1.sent⟩
    (endField_lt w) m s.vectorC.dout (BitVec.le_refl _) hm'
    (.empty (BitVec.le_refl _) s.vectors.c)
  refine ⟨_, _,
    ⟨(fetch_mulv hs hfetch hpending hop).trans (hloop.trans (mulv_answer hs hop)), rfl, rfl,
    rfl, rfl⟩, ?_⟩
  have hlast := hc'.last (BitVec.lt_def.mpr (by omega)) (endField_lt w)
  rwa [← setWidth_readProduct] at hlast

lemma mulv_answered_of_one (hs : Serves inputs) (hfetch : s.core.currentState = .fetch)
    (hpending : s.chan1.pending = w :: rest) (hop : w.extractLsb' 30 2 = opMulv)
    (hone : endField w = startField w + 1) : ∃ t answer c', Answered inputs rest s t answer ∧
      Written s.vectors.product (startField w) (endField w) s.vectors.c c' ∧
      t.vectorC.data =
        Function.update c' (wordAddr (endField w)) (s.vectors.product (endField w)) := by
  have hstart := startField_lt w
  have hcarry : startField w + 1 - 1 = startField w := by bv_omega
  let c' := Function.update s.vectors.c (wordAddr (startField w)) (s.vectors.product (startField w))
  have hc' : Written s.vectors.product (startField w) (startField w + 1) s.vectors.c c' :=
    (Written.empty (BitVec.le_refl _) s.vectors.c).next (BitVec.le_refl _) (by bv_omega)
  have hlast : endField w - 1 ≤ startField w + 1 := by bv_omega
  have hstep : Leads clock inputs
      (atState .mulvState2 s.vectors (startField w + 1) s.vectors.c s.vectorC.dout
        { received w s.core with
          i := startField w + 1, ret := readProduct s.vectors (startField w) }
        ⟨rest, s.chan1.sent⟩)
      (atState .halt s.vectors (startField w + 1)
        (Function.update s.vectors.c (wordAddr (startField w + 1 - 1))
          ((readProduct s.vectors (startField w)).setWidth 32))
        (s.vectors.c (wordAddr (startField w + 1 - 1)))
        { received w s.core with
          i := startField w + 1, ret := readProduct s.vectors (startField w + 1) }
        ⟨rest, s.chan1.sent⟩) := leads _ (fun _ => if_pos hlast) fun _ => rfl
  rw [hcarry, setWidth_readProduct] at hstep
  refine ⟨_, _, c',
    ⟨(fetch_mulv hs hfetch hpending hop).trans (hstep.trans (mulv_answer hs hop)), rfl,
    rfl, rfl, rfl⟩, hone ▸ hc', ?_⟩
  rw [hone, ← setWidth_readProduct s.vectors (startField w + 1)]
  rfl

lemma redv_answered (hs : Serves inputs) (hfetch : s.core.currentState = .fetch)
    (hpending : s.chan1.pending = w :: rest) (hop : w.extractLsb' 30 2 = opRedv)
    (hlt : startField w < endField w) : ∃ t answer, Answered inputs rest s t answer ∧
      t.vectorC.data = s.vectors.c ∧ answer =
        ∑ k ∈ Finset.Ico (startField w).toNat (endField w).toNat,
          s.vectors.product (.ofNat 32 k) := by
  obtain ⟨m, hm⟩ := Nat.exists_eq_add_of_lt (BitVec.lt_def.mp hlt)
  have hzero : (0 : BitVec 64).setWidth 32 =
    ∑ k ∈ Finset.Ico (startField w).toNat (startField w).toNat,
      s.vectors.product (.ofNat 32 k) := by
    rw [Finset.Ico_self]
    rfl
  obtain ⟨ret', hret', hloop⟩ := redv_loop inputs (received w s.core) ⟨rest, s.chan1.sent⟩
    (endField_lt w) m (BitVec.le_refl _) hm.symm hzero
  exact ⟨_, _,
    ⟨(fetch_redv hs hfetch hpending hop).trans (hloop.trans (redv_answer hs hop)), rfl, rfl,
    rfl, rfl⟩, rfl, hret'⟩

end Runs

/-- The core answers every command once. What it has made of the memories is what the command asks
for exactly if it was not to multiply single words, or the word behind the range is its product
already. -/
theorem vector_core_computes_iff {inputs : ℕ → ChanInput} (hs : Serves inputs) {w : Word}
    (hop : w.extractLsb' 30 2 = opAddv ∨ w.extractLsb' 30 2 = opMulv ∨ w.extractLsb' 30 2 = opRedv)
    (hlt : startField w < endField w) (s : System) (hfetch : s.core.currentState = .fetch)
    {rest : List Word} (hpending : s.chan1.pending = w :: rest) (k : ℕ) :
    ∃ n answer, let t := clocked clock inputs k n s
      t.core.currentState = .fetch ∧ t.chan1 = ⟨rest, s.chan1.sent ++ [answer]⟩ ∧
      t.vectorA.data = s.vectorA.data ∧ t.vectorB.data = s.vectorB.data ∧
      (Computes w s.vectors t.vectorC.data answer ↔
        (w.extractLsb' 30 2 = opMulv → (startField w).toNat + 2 ≤ (endField w).toNat ∨
          s.vectors.c (wordAddr (endField w)) = s.vectors.product (endField w))) := by
  have hne : opAddv ≠ opMulv ∧ opAddv ≠ opRedv ∧ opMulv ≠ opRedv := by decide
  obtain ⟨t, answer, h, hiff⟩ : ∃ t answer, Answered inputs rest s t answer ∧
      (Computes w s.vectors t.vectorC.data answer ↔
        (w.extractLsb' 30 2 = opMulv → (startField w).toNat + 2 ≤ (endField w).toNat ∨
          s.vectors.c (wordAddr (endField w)) = s.vectors.product (endField w))) := by
    rcases hop with hop | hop | hop
    · obtain ⟨t, answer, h, hwritten⟩ := addv_answered hs hfetch hpending hop hlt
      refine ⟨t, answer, h,
        iff_of_true ⟨fun _ => hwritten, fun hm => ?_, fun hr => ?_⟩ fun hm => ?_⟩
      · exact absurd (hop.symm.trans hm) hne.1
      · exact absurd (hop.symm.trans hr) hne.2.1
      · exact absurd (hop.symm.trans hm) hne.1
    · have hcomputes : ∀ c' answer, Computes w s.vectors c' answer ↔
          Written s.vectors.product (startField w) (endField w) s.vectors.c c' := by
        refine fun c' answer =>
          ⟨fun h => h.mulv hop, fun h => ⟨fun ha => ?_, fun _ => h, fun hr => ?_⟩⟩
        · exact absurd (ha.symm.trans hop) hne.1
        · exact absurd (hop.symm.trans hr) hne.2.2
      by_cases hone : endField w = startField w + 1
      · obtain ⟨t, answer, c', h, hwritten, hdata⟩ :=
          mulv_answered_of_one hs hfetch hpending hop hone
        refine ⟨t, answer, h, ?_⟩
        rw [hcomputes, hdata, hwritten.update_iff (endField_lt w)]
        have hshort : ¬ (startField w).toNat + 2 ≤ (endField w).toNat := by
          have hstart := startField_lt w
          bv_omega
        exact ⟨fun h _ => .inr h, fun h => (h hop).resolve_left hshort⟩
      · have hlong : (startField w).toNat + 1 < (endField w).toNat := by bv_omega
        obtain ⟨t, answer, h, hwritten⟩ := mulv_answered hs hfetch hpending hop hlong
        exact ⟨t, answer, h, iff_of_true ((hcomputes _ _).mpr hwritten) fun _ => .inl hlong⟩
    · obtain ⟨t, answer, h, hdata, hanswer⟩ := redv_answered hs hfetch hpending hop hlt
      refine ⟨t, answer, h, iff_of_true ⟨fun ha => ?_, fun hm => ?_, fun _ => ⟨hdata, hanswer⟩⟩
        fun hm => ?_⟩
      · exact absurd (ha.symm.trans hop) hne.2.1
      · exact absurd (hm.symm.trans hop) hne.2.2
      · exact absurd (hm.symm.trans hop) hne.2.2
  obtain ⟨n, hn⟩ := h.leads k
  refine ⟨n, answer, ?_⟩
  rw [hn]
  exact ⟨h.currentState, h.chan1, h.vectorA, h.vectorB, hiff⟩

-- every word of the first two memories is its own address
def addresses (w : Word) : System where
  core := ⟨.fetch, 0, 0, 0, 0, 0⟩
  vectorA := ⟨id, 0⟩
  vectorB := ⟨id, 0⟩
  vectorC := ⟨fun _ => 0, 0⟩
  chan1 := ⟨[w], []⟩

theorem vector_core_computes_two_products : Serves slowly ∧
    startField 0x40010000 < endField 0x40010000 ∧
    ∃ n answer, let t := clocked clock slowly 0 n (addresses 0x40010000)
      t.core.currentState = .fetch ∧ t.chan1.sent = [answer] ∧ t.vectorC.data 4 = 16 ∧
        t.vectorC.data 8 = 0 := by
  have hlt : startField 0x40010000 < endField 0x40010000 := by decide
  obtain ⟨n, answer, hfetch, hchan1, -, -, hiff⟩ := vector_core_computes_iff serves_slowly
    (.inr (.inl (by decide))) hlt (addresses 0x40010000) rfl rfl 0
  have hwritten := (hiff.mpr fun _ => .inl (by decide)).mulv (by decide)
  refine ⟨serves_slowly, hlt, n, answer, hfetch, by rw [hchan1]; rfl,
    hwritten.inside 1 (by decide) (by decide), hwritten.outside 8 fun a _ ha heq => ?_⟩
  have hend : endField 0x40010000 = 2 := by decide
  have hnat := congrArg BitVec.toNat heq
  rw [toNat_wordAddr] at hnat
  bv_omega

/-- The product of the words at 0 also leaves a product at 1. -/
theorem vector_core_of_one_product : startField 0x40008000 < endField 0x40008000 ∧
    let t := clocked clock freely 0 5 (addresses 0x40008000)
    t.core.currentState = .fetch ∧ t.chan1.sent = [16] ∧
      ¬ Computes 0x40008000 (addresses 0x40008000).vectors t.vectorC.data 16 := by
  have hdata : (clocked clock freely 0 5 (addresses 0x40008000)).vectorC.data 4 = 16 := by
    decide
  refine ⟨by decide, by decide, by decide, fun h => ?_⟩
  have houtside := (h.mulv (by decide)).outside 4 fun a _ ha heq => ?_
  · rw [hdata] at houtside
    exact absurd houtside (by decide)
  · have hend : endField 0x40008000 = 1 := by decide
    have hnat := congrArg BitVec.toNat heq
    rw [toNat_wordAddr] at hnat
    bv_omega

end Hthreads.HwAcc.Vector
