import Hthreads.Library.Cycles

/-! The channel of a user logic core (`chan1`), with what the other side has put into it and what
the core has sent, and the words of a range in a memory that is addressed by bytes. -/

namespace Hthreads.HwAcc

open Library

abbrev Word := BitVec 32

/-- What the other side does in a cycle: let the core see the next word, and have no room for one.
-/
structure ChanInput where
  ready : Bool
  full : Bool

structure ChanDrive where
  channelRead : Bool := false
  channelWrite : Bool := false
  channelDataIn : Word := 0

structure Channel where
  pending : List Word
  sent : List Word

namespace Channel

variable (c : Channel) (i : ChanInput)

def exist : Bool := i.ready && !c.pending.isEmpty

def channelDataOut : Word := c.pending.headD 0

-- a word written into a full channel is lost
def clock (d : ChanDrive) : Channel where
  pending := if d.channelRead && c.exist i then c.pending.tail else c.pending
  sent := if d.channelWrite && !i.full then c.sent ++ [d.channelDataIn] else c.sent

@[simp] lemma clock_idle : c.clock i {} = c := rfl

lemma exist_cons {w : Word} {rest sent : List Word} :
    (Channel.mk (w :: rest) sent).exist i = i.ready := by
  simp [exist]

end Channel

/-- The other side goes on showing its words and taking those of the core. -/
structure Serves (inputs : ℕ → ChanInput) : Prop where
  ready : ∀ k, ∃ m ≥ k, (inputs m).ready = true
  room : ∀ k, ∃ m ≥ k, (inputs m).full = false

namespace Serves

variable {σ : Type*} {step : ChanInput → σ → σ} {inputs : ℕ → ChanInput} {s t : σ}

lemma leads_ready (hs : Serves inputs) (hstay : ∀ i : ChanInput, ¬ i.ready = true → step i s = s)
    (hleave : ∀ i : ChanInput, i.ready = true → step i s = t) : Leads step inputs s t :=
  .of_wait (fun i => i.ready = true) hs.ready hstay hleave

lemma leads_room (hs : Serves inputs) (hstay : ∀ i : ChanInput, ¬ i.full = false → step i s = s)
    (hleave : ∀ i : ChanInput, i.full = false → step i s = t) : Leads step inputs s t :=
  .of_wait (fun i => i.full = false) hs.room hstay hleave

end Serves

/-- A slow other side, for a test, and one that never keeps the core waiting. -/
def slowly (k : ℕ) : ChanInput := ⟨k % 2 = 0, k % 3 ≠ 0⟩

lemma serves_slowly : Serves slowly where
  ready k := ⟨2 * k, by omega, by simp [slowly]⟩
  room k := ⟨3 * k, by omega, by simp [slowly]⟩

def freely (_ : ℕ) : ChanInput := ⟨true, false⟩

-- the fields of a command word, as the addresses of a range
def startField (w : Word) : Word := 0#17 ++ w.extractLsb' 0 15
def endField (w : Word) : Word := 0#17 ++ w.extractLsb' 15 15

lemma toNat_zeros_append (v : BitVec 15) : (0#17 ++ v).toNat = v.toNat := by
  rw [BitVec.toNat_append]
  simp

lemma toNat_startField (w : Word) : (startField w).toNat = w.toNat % 2 ^ 15 := by
  rw [startField, toNat_zeros_append, BitVec.extractLsb'_toNat, Nat.shiftRight_zero]

lemma toNat_endField (w : Word) : (endField w).toNat = w.toNat / 2 ^ 15 % 2 ^ 15 := by
  rw [endField, toNat_zeros_append, BitVec.extractLsb'_toNat, Nat.shiftRight_eq_div_pow]

-- `addr(2 to 31) & "00"`
def wordAddr (a : Word) : Word := a.extractLsb' 0 30 ++ 0#2

lemma toNat_wordAddr (a : Word) : (wordAddr a).toNat = 4 * (a.toNat % 2 ^ 30) := by
  rw [wordAddr, BitVec.toNat_append, BitVec.extractLsb'_toNat, Nat.shiftLeft_eq]
  simp
  omega

lemma wordAddr_inj {a b : Word} (ha : a.toNat ≤ 2 ^ 15) (hb : b.toNat ≤ 2 ^ 15)
    (h : wordAddr a = wordAddr b) : a = b := by
  have hnat := congrArg BitVec.toNat h
  rw [toNat_wordAddr, toNat_wordAddr] at hnat
  exact BitVec.eq_of_toNat_eq (by omega)

lemma startField_lt (w : Word) : (startField w).toNat < 2 ^ 15 := by
  rw [toNat_startField]
  exact Nat.mod_lt _ (by norm_num)

lemma endField_lt (w : Word) : (endField w).toNat < 2 ^ 15 := by
  rw [toNat_endField]
  exact Nat.mod_lt _ (by norm_num)

/-- The words from `start` on and before `stop` have become those of `f`, and no other word has
changed. -/
structure Written (f : Word → Word) (start stop : Word) (mem mem' : Word → Word) : Prop where
  inside : ∀ a, start ≤ a → a < stop → mem' (wordAddr a) = f a
  outside : ∀ b, (∀ a, start ≤ a → a < stop → b ≠ wordAddr a) → mem' b = mem b

namespace Written

variable {f : Word → Word} {start stop i : Word} {mem mem' : Word → Word}

lemma empty (h : stop ≤ start) (mem : Word → Word) : Written f start stop mem mem := by
  refine ⟨fun a ha hlt => ?_, fun b _ => rfl⟩
  bv_omega

lemma next (h : Written f start i mem mem') (hstart : start ≤ i) (hi : i.toNat < 2 ^ 15) :
    Written f start (i + 1) mem (Function.update mem' (wordAddr i) (f i)) := by
  refine ⟨fun a ha hlt => ?_, fun b hb => ?_⟩
  · by_cases hai : a = i
    · rw [hai, Function.update_self]
    · have hlt' : a < i := by bv_omega
      have hne : wordAddr a ≠ wordAddr i := fun heq =>
        hai (wordAddr_inj (by bv_omega) (Nat.le_of_lt hi) heq)
      rw [Function.update_of_ne hne, h.inside a ha hlt']
  · have hne : b ≠ wordAddr i := hb i hstart (by bv_omega)
    rw [Function.update_of_ne hne]
    exact h.outside b fun a ha hlt => hb a ha (by bv_omega)

lemma last (h : Written f start (stop - 1) mem mem') (hlt : start < stop)
    (hstop : stop.toNat < 2 ^ 15) :
    Written f start stop mem (Function.update mem' (wordAddr (stop - 1)) (f (stop - 1))) := by
  have hnext := h.next (by bv_omega) (by bv_omega)
  have hend : stop - 1 + 1 = stop := by bv_omega
  rwa [hend] at hnext

lemma later (h : Written f start i mem mem') {a : Word} (hi : i ≤ a) (ha : a.toNat ≤ 2 ^ 15) :
    mem' (wordAddr a) = mem (wordAddr a) := by
  refine h.outside _ fun b hb hlt heq => ?_
  have hab : a = b := wordAddr_inj ha (by bv_omega) heq
  bv_omega

lemma update_iff (h : Written f start stop mem mem') (hstop : stop.toNat < 2 ^ 15) (x : Word) :
    Written f start stop mem (Function.update mem' (wordAddr stop) x) ↔
      mem (wordAddr stop) = x := by
  have houtside : ∀ a, start ≤ a → a < stop → wordAddr stop ≠ wordAddr a := by
    intro a _ hlt heq
    have hsame : stop = a := wordAddr_inj (Nat.le_of_lt hstop) (by bv_omega) heq
    bv_omega
  constructor
  · intro hupdate
    rw [← hupdate.outside _ houtside, Function.update_self]
  · intro hx
    rw [← hx, ← h.outside _ houtside, Function.update_eq_self]
    exact h

end Written

end Hthreads.HwAcc
