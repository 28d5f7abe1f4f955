import Hthreads.Accelerators.Crc
import Hthreads.HwAcc.Channel
import Hthreads.Library.Bram

/-! The CRC core (`hdl_crc`), which replaces the words of a range by what `gen_crc` makes of them.
-/

namespace Hthreads.HwAcc.Crc

open Library Accelerators

inductive State
  | reset | idle | readData | extra1 | doCrc
  deriving DecidableEq

structure Core where
  currentState : State
  i : BitVec 8
  j : Word
  result : Word
  size : Word

structure Wires where
  array_dOUT0 : Word
  chan1_exists : Bool
  chan1_full : Bool
  chan1_channelDataOut : Word

structure Drive where
  array : Port 32 32 := .off
  chan1 : ChanDrive := {}

def divisor : BitVec 4 := 0b1011

-- bits `i` to `i + 3` of the result, counted from the most significant one, xor the divisor
def xorDivisor (result : Word) (i : ℕ) : Word := result ^^^ divisor.setWidth 32 <<< (28 - i)

/-- `FSM_COMB_PROCESS`, and the clock edge after it. -/
def comb (w : Wires) (s : Core) : Core × Drive :=
  match s.currentState with
  | .doCrc =>
    if s.i < 32 - 4 + 1 ∧ s.result.getMsbD s.i.toNat = false then ({ s with i := s.i + 1 }, {})
    else if s.i < 32 - 4 + 1 then
      ({ s with result := xorDivisor s.result s.i.toNat, i := s.i + 1 }, {})
    else
      ({ s with currentState := .readData, j := s.j + 1 },
        { array := .write (wordAddr s.j) s.result })
  | .extra1 => ({ s with currentState := .doCrc, i := 0, result := w.array_dOUT0 }, {})
  | .idle =>
    if w.chan1_exists then
      ({ s with
          currentState := .readData, j := startField w.chan1_channelDataOut
          size := endField w.chan1_channelDataOut },
        { chan1 := { channelRead := true } })
    else (s, {})
  | .readData =>
    if s.j < s.size then
      ({ s with currentState := .extra1 }, { array := .read (wordAddr s.j) })
    else if w.chan1_full then (s, {})
    else
      ({ s with currentState := .idle },
        { chan1 := { channelWrite := true, channelDataIn := 0 } })
  | .reset => ({ s with currentState := .idle }, {})

structure System where
  core : Core
  array : Bram 32 32
  chan1 : Channel

def wires (i : ChanInput) (s : System) : Wires where
  array_dOUT0 := s.array.dout
  chan1_exists := s.chan1.exist i
  chan1_full := i.full
  chan1_channelDataOut := s.chan1.channelDataOut

def clock (i : ChanInput) (s : System) : System :=
  let next := comb (wires i s) s.core
  ⟨next.1, s.array.clock next.2.array, s.chan1.clock i next.2.chan1⟩

section Turns

variable {r : Word} {i : ℕ}

lemma turnResult_eq (hi : i < 29) (r : Word) :
    turnResult r i = if r.getMsbD i = false then r else xorDivisor r i := by
  have hbit : r.getMsbD i = r.getLsbD (31 - i) := by
    rw [BitVec.getMsbD_eq_getLsbD, decide_eq_true (by omega), Bool.true_and]
  rw [turnResult, turnDivisor_eq i hi, hbit]
  cases r.getLsbD (31 - i) <;> rfl

end Turns

section Runs

variable {inputs : ℕ → ChanInput} {mem : Word → Word} {c : Channel} {d r j size : Word}

def atState (st : State) (i : BitVec 8) (j r size d : Word) (mem : Word → Word) (c : Channel) :
    System :=
  ⟨⟨st, i, j, r, size⟩, ⟨mem, d⟩, c⟩

lemma leads {s t : System} {drive : Drive} (hcomb : ∀ i, comb (wires i s) s.core = (t.core, drive))
    (harray : s.array.clock drive.array = t.array)
    (hchan : ∀ i, s.chan1.clock i drive.chan1 = t.chan1) : Leads clock inputs s t := by
  refine .of_step fun i => ?_
  simp only [clock, hcomb, harray, hchan]

/-- The turns of `do_crc` are those of the software. -/
lemma do_crc (n : ℕ) : ∀ {i : ℕ} {r : Word}, i + n = 29 →
    Leads clock inputs (atState .doCrc (BitVec.ofNat 8 i) j r size d mem c)
      (atState .doCrc 29 j (crcLoop r (BitVec.ofNat 32 i) (turnDivisor i) (turnMask i)) size
        d mem c) := by
  induction n with
  | zero =>
    intro i r hi
    obtain rfl : i = 29 := hi
    rw [show BitVec.ofNat 32 29 = 29 from rfl, crcLoop_stop]
    exact .refl _
  | succ n ih =>
    intro i r hi
    have hlt : BitVec.ofNat 8 i < 32 - 4 + 1 := by bv_omega
    have hnat : (BitVec.ofNat 8 i).toNat = i := by bv_omega
    have hnext : BitVec.ofNat 8 i + 1 = BitVec.ofNat 8 (i + 1) := by bv_omega
    rw [crcLoop_turn (by omega), turnResult_eq (by omega)]
    refine .trans (t := atState .doCrc (BitVec.ofNat 8 (i + 1)) j _ size d mem c) ?_ (ih (by omega))
    rw [← hnext]
    have hindex : r.getMsbD i = r.getMsbD (BitVec.ofNat 8 i).toNat := by rw [hnat]
    have hxor : xorDivisor r i = xorDivisor r (BitVec.ofNat 8 i).toNat := by rw [hnat]
    rw [hindex, hxor]
    by_cases hbit : r.getMsbD (BitVec.ofNat 8 i).toNat = false
    · rw [if_pos hbit]
      exact leads (fun _ => if_pos ⟨hlt, hbit⟩) rfl fun _ => rfl
    · rw [if_neg hbit]
      exact leads (fun _ => (if_neg fun h => hbit h.2).trans (if_pos hlt)) rfl fun _ => rfl

lemma read_word (hj : j < size) (i : BitVec 8) (r d : Word) : ∃ i' r' d',
    Leads clock inputs (atState .readData i j r size d mem c)
      (atState .readData i' (j + 1) r' size d'
        (Function.update mem (wordAddr j) (genCrc (mem (wordAddr j)))) c) := by
  have hread : Leads clock inputs (atState .readData i j r size d mem c)
      (atState .extra1 i j r size (mem (wordAddr j)) mem c) :=
    leads (fun _ => if_pos hj) rfl fun _ => rfl
  have hword : Leads clock inputs (atState .extra1 i j r size (mem (wordAddr j)) mem c)
      (atState .doCrc 0 j (mem (wordAddr j)) size (mem (wordAddr j)) mem c) :=
    leads (fun _ => rfl) rfl fun _ => rfl
  have hcrc : Leads clock inputs
    (atState .doCrc 0 j (mem (wordAddr j)) size (mem (wordAddr j)) mem c)
      (atState .doCrc 29 j (genCrc (mem (wordAddr j))) size (mem (wordAddr j)) mem c) :=
    do_crc 29 rfl
  have hwrite : Leads clock inputs
      (atState .doCrc 29 j (genCrc (mem (wordAddr j))) size (mem (wordAddr j)) mem c)
      (atState .readData 29 (j + 1) (genCrc (mem (wordAddr j))) size (mem (wordAddr j))
        (Function.update mem (wordAddr j) (genCrc (mem (wordAddr j)))) c) :=
    leads (fun _ => rfl) (Bram.clock_write _ _ _) fun _ => rfl
  exact ⟨_, _, _, hread.trans (hword.trans (hcrc.trans hwrite))⟩

lemma read_range {start : Word} {old : Word → Word} (hsize : size.toNat < 2 ^ 15) (n : ℕ) :
    ∀ {j : Word} {mem : Word → Word}, start ≤ j → j.toNat + n = size.toNat →
      Written (fun a => genCrc (old (wordAddr a))) start j old mem →
      ∀ (i : BitVec 8) (r d : Word), ∃ i' r' d' mem',
        Written (fun a => genCrc (old (wordAddr a))) start size old mem' ∧
        Leads clock inputs (atState .readData i j r size d mem c)
          (atState .readData i' size r' size d' mem' c) := by
  induction n with
  | zero =>
    intro j mem hstart hj hmem i r d
    obtain rfl : j = size := BitVec.eq_of_toNat_eq hj
    exact ⟨i, r, d, mem, hmem, .refl _⟩
  | succ n ih =>
    intro j mem hstart hj hmem i r d
    obtain ⟨i₁, r₁, d₁, hword⟩ : ∃ i' r' d',
      Leads clock inputs (atState .readData i j r size d mem c)
        (atState .readData i' (j + 1) r' size d'
          (Function.update mem (wordAddr j) (genCrc (mem (wordAddr j)))) c) :=
      read_word (by bv_omega) i r d
    have hlt : j.toNat < 2 ^ 15 := by omega
    have hnext := hmem.next hstart hlt
    rw [← hmem.later (BitVec.le_refl _) (Nat.le_of_lt hlt)] at hnext
    obtain ⟨i', r', d', mem', hmem', hrest⟩ := ih (by bv_omega) (by bv_omega) hnext i₁ r₁ d₁
    exact ⟨i', r', d', mem', hmem', hword.trans hrest⟩

variable {w : Word} {rest sent : List Word}

lemma fetch (hs : Serves inputs) (i : BitVec 8) : Leads clock inputs
    (atState .idle i j r size d mem ⟨w :: rest, sent⟩)
    (atState .readData i (startField w) r (endField w) d mem ⟨rest, sent⟩) := by
  refine hs.leads_ready (fun i hi => ?_) fun i hi => ?_
  · simp [clock, comb, wires, atState, Channel.exist_cons, Channel.clock, hi]
  · simp [clock, comb, wires, atState, Channel.exist_cons, Channel.clock,
      Channel.channelDataOut, hi]

lemma answer (hs : Serves inputs) (hj : ¬ j < size) (i : BitVec 8) : Leads clock inputs
    (atState .readData i j r size d mem ⟨rest, sent⟩)
    (atState .idle i j r size d mem ⟨rest, sent ++ [0]⟩) := by
  refine hs.leads_room (fun i hi => ?_) fun i hi => ?_
  · simp [clock, comb, wires, atState, Channel.clock, hj, hi]
  · simp [clock, comb, wires, atState, Channel.clock, hj, hi]

lemma readData_answered (hs : Serves inputs) (w : Word) (mem : Word → Word) (rest sent : List Word)
    (i : BitVec 8) (r d : Word) :
    ∃ i' j' r' d' mem',
      Written (fun a => genCrc (mem (wordAddr a))) (startField w) (endField w) mem mem' ∧
      Leads clock inputs
        (atState .readData i (startField w) r (endField w) d mem ⟨rest, sent⟩)
        (atState .idle i' j' r' (endField w) d' mem' ⟨rest, sent ++ [0]⟩) := by
  by_cases hj : startField w < endField w
  · obtain ⟨n, hn⟩ := Nat.exists_eq_add_of_le (BitVec.le_def.mp (BitVec.le_of_lt hj))
    obtain ⟨i', r', d', mem', hmem', hrange⟩ : ∃ i' r' d' mem',
        Written (fun a => genCrc (mem (wordAddr a))) (startField w) (endField w) mem mem' ∧
        Leads clock inputs (atState .readData i (startField w) r (endField w) d mem ⟨rest, sent⟩)
          (atState .readData i' (endField w) r' (endField w) d' mem' ⟨rest, sent⟩) :=
      read_range (endField_lt w) n (BitVec.le_refl _) hn.symm (.empty (BitVec.le_refl _) mem) i r d
    exact ⟨i', _, r', d', mem', hmem', hrange.trans (answer hs (BitVec.lt_irrefl _) i')⟩
  · exact ⟨i, _, r, d, mem, .empty (BitVec.not_lt.mp hj) mem, answer hs hj i⟩

end Runs

/-- The core replaces the words of its range by what the software makes of them and changes no
other word, answers once, and is idle again. -/
theorem crc_core_agrees {inputs : ℕ → ChanInput} (hs : Serves inputs) (mem : Word → Word) (w : Word)
    (i : BitVec 8) (j r size d : Word) (rest sent : List Word) (k : ℕ) :
    ∃ n i' j' r' size' d' mem',
      clocked clock inputs k n (atState .idle i j r size d mem ⟨w :: rest, sent⟩) =
        atState .idle i' j' r' size' d' mem' ⟨rest, sent ++ [0]⟩ ∧
      (∀ a, startField w ≤ a → a < endField w →
        mem' (wordAddr a) = genCrc (mem (wordAddr a))) ∧
      ∀ b, (∀ a, startField w ≤ a → a < endField w → b ≠ wordAddr a) → mem' b = mem b := by
  obtain ⟨i', j', r', d', mem', hmem', hleads⟩ :=
    readData_answered hs w mem rest sent i r d
  obtain ⟨n, hn⟩ := ((fetch hs i).trans hleads) k
  exact ⟨n, i', j', r', _, d', mem', hn, hmem'.inside, hmem'.outside⟩

theorem crc_core_agrees_on_two_words : Serves slowly ∧
    ∃ n i' j' r' size' d' mem',
      clocked clock slowly 0 n
          (atState .idle 0 0 0 0 0 (fun a => a + 9) ⟨[0x18001], []⟩) =
        atState .idle i' j' r' size' d' mem' ⟨[], [0]⟩ ∧
      mem' 0 = 9 ∧ mem' 4 = genCrc 13 ∧ mem' 8 = genCrc 17 ∧ mem' 12 = 21 := by
  refine ⟨serves_slowly, ?_⟩
  obtain ⟨n, i', j', r', size', d', mem', hn, hinside, houtside⟩ := crc_core_agrees serves_slowly
    (fun a => a + 9) 0x18001 0 0 0 0 0 [] [] 0
  have hstart : startField 0x18001 = 1 := by decide
  have hend : endField 0x18001 = 3 := by decide
  rw [hstart, hend] at hinside houtside
  refine ⟨n, i', j', r', size', d', mem', hn, houtside 0 fun a h₁ h₂ h => ?_,
    hinside 1 (by decide) (by decide), hinside 2 (by decide) (by decide),
    houtside 12 fun a h₁ h₂ h => ?_⟩
  · have hnat := congrArg BitVec.toNat h
    rw [toNat_wordAddr] at hnat
    bv_omega
  · have hnat := congrArg BitVec.toNat h
    rw [toNat_wordAddr] at hnat
    bv_omega

end Hthreads.HwAcc.Crc
