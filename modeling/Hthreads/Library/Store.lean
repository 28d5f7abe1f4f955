import Hthreads.Library.BitFields
import Mathlib.Logic.Function.Iterate

/-! A memory behind a registered port, with a controller that clears it while the reset is held.
An access reaches the storage one cycle after it stands on the port. -/

namespace Hthreads.Library

structure Access (a : ℕ) (β : Type*) where
  en : Bool
  we : Bool
  addr : BitVec a
  din : β

namespace Access

variable {a : ℕ} {β : Type*}

def off [Zero β] : Access a β := ⟨false, false, 0, 0⟩
def read [Zero β] (addr : BitVec a) : Access a β := ⟨true, false, addr, 0⟩
def write (addr : BitVec a) (din : β) : Access a β := ⟨true, true, addr, din⟩

@[simp] lemma off_en [Zero β] : (off : Access a β).en = false := rfl
@[simp] lemma read_en [Zero β] (addr : BitVec a) : (read addr : Access a β).en = true := rfl
@[simp] lemma read_addr [Zero β] (addr : BitVec a) : (read addr : Access a β).addr = addr := rfl

def apply (p : Access a β) (data : BitVec a → β) : BitVec a → β :=
  if p.en && p.we then Function.update data p.addr p.din else data

@[simp] lemma apply_off [Zero β] (data : BitVec a → β) : (off : Access a β).apply data = data := rfl

@[simp] lemma apply_read [Zero β] (addr : BitVec a) (data : BitVec a → β) :
    (read addr : Access a β).apply data = data := rfl

@[simp] lemma apply_write (addr : BitVec a) (din : β) (data : BitVec a → β) :
    (write addr din).apply data = Function.update data addr din := rfl

-- several controllers share a port by or-ing their lines
instance [OrOp β] : OrOp (Access a β) where
  or p q := ⟨p.en || q.en, p.we || q.we, p.addr ||| q.addr, p.din ||| q.din⟩

lemma or_def [OrOp β] (p q : Access a β) :
    p ||| q = ⟨p.en || q.en, p.we || q.we, p.addr ||| q.addr, p.din ||| q.din⟩ := rfl

section Silent

variable [Zero β] [OrOp β]

lemma off_or (h : ∀ x : β, 0 ||| x = x) (p : Access a β) : off ||| p = p := by
  simp [or_def, off, h]

lemma or_off (h : ∀ x : β, x ||| 0 = x) (p : Access a β) : p ||| off = p := by
  simp [or_def, off, h]

end Silent

end Access

structure Store (a : ℕ) (β : Type*) where
  port : Access a β
  data : BitVec a → β
  dout : β
  resetting : Bool
  raddr : BitVec a

namespace Store

variable {a : ℕ} {β : Type*} [Zero β]

def rstEnd : BitVec a := BitVec.allOnes a

/-- The address the reset controller clears next. -/
def raddrn (m : Store a β) : BitVec a :=
  if m.resetting then if m.raddr = rstEnd then m.raddr else m.raddr + 1 else 0

def clock (reset : Bool) (p : Access a β) (m : Store a β) : Store a β where
  port := if reset then .write m.raddr 0 else p
  data := m.port.apply m.data
  dout := if m.port.en then m.data m.port.addr else m.dout
  resetting := reset
  raddr := if reset then m.raddrn else m.raddr

def contents (m : Store a β) : BitVec a → β := m.port.apply m.data

@[simp] lemma clock_contents (p : Access a β) (m : Store a β) :
    (m.clock false p).contents = p.apply m.contents := rfl

@[simp] lemma clock_data (reset : Bool) (p : Access a β) (m : Store a β) :
    (m.clock reset p).data = m.contents := rfl

@[simp] lemma clock_port (p : Access a β) (m : Store a β) : (m.clock false p).port = p := rfl

lemma clock_dout (reset : Bool) (p : Access a β) (m : Store a β) :
    (m.clock reset p).dout = if m.port.en then m.data m.port.addr else m.dout := rfl

lemma clock_reset_contents (p : Access a β) (m : Store a β) :
    (m.clock true p).contents = Function.update m.contents m.raddr 0 := rfl

/-- Everything below the address being cleared is zero. -/
structure Clearing (k : ℕ) (m : Store a β) : Prop where
  resetting : m.resetting = true
  raddr : m.raddr.toNat = min k (2 ^ a - 1)
  cleared : ∀ x : BitVec a, x.toNat < k → m.contents x = 0

lemma clearing_zero (p : Access a β) {m : Store a β} (h : m.resetting = false) :
    Clearing 0 (m.clock true p) where
  resetting := rfl
  raddr := by simp [clock, raddrn, h]
  cleared x hx := absurd hx (Nat.not_lt_zero _)

lemma Clearing.step (p : Access a β) {k : ℕ} {m : Store a β} (h : Clearing k m) :
    Clearing (k + 1) (m.clock true p) where
  resetting := rfl
  raddr := by
    have hpos := Nat.two_pow_pos a
    have hlt := m.raddr.isLt
    have hraddr := h.raddr
    simp only [clock, raddrn, h.resetting, if_true]
    split
    next heq =>
      have hend : m.raddr.toNat = 2 ^ a - 1 := by rw [heq, rstEnd, BitVec.toNat_allOnes]
      omega
    next hne =>
      have hend : m.raddr.toNat ≠ 2 ^ a - 1 := by
        intro heq
        apply hne
        apply BitVec.eq_of_toNat_eq
        rw [heq, rstEnd, BitVec.toNat_allOnes]
      rw [BitFields.toNat_succ_of_lt (by omega)]
      omega
  cleared x hx := by
    rw [clock_reset_contents]
    by_cases hxr : x = m.raddr
    · rw [hxr, Function.update_self]
    · have hne : x.toNat ≠ m.raddr.toNat := fun heq => hxr (BitVec.eq_of_toNat_eq heq)
      have hlt := x.isLt
      have hraddr := h.raddr
      rw [Function.update_of_ne hxr]
      exact h.cleared x (by omega)

lemma Clearing.iterate (p : Access a β) {k : ℕ} {m : Store a β} (h : Clearing k m) (n : ℕ) :
    Clearing (k + n) ((clock true p)^[n] m) := by
  induction n with
  | zero => exact h
  | succ n ih =>
    rw [Function.iterate_succ_apply']
    exact ih.step p

lemma Clearing.contents_eq {k : ℕ} {m : Store a β} (h : Clearing k m) (hk : 2 ^ a ≤ k) :
    m.contents = fun _ => 0 := by
  funext x
  exact h.cleared x (x.isLt.trans_le hk)

lemma reset_contents (p : Access a β) {m : Store a β} (h : m.resetting = false) {n : ℕ}
    (hn : 2 ^ a < n) : ((clock true p)^[n] m).contents = fun _ => 0 := by
  obtain ⟨n, rfl⟩ : ∃ k, n = k + 1 := Nat.exists_eq_succ_of_ne_zero (Nat.ne_zero_of_lt hn)
  rw [Function.iterate_succ_apply]
  exact ((clearing_zero p h).iterate p n).contents_eq (by omega)

end Store

end Hthreads.Library
