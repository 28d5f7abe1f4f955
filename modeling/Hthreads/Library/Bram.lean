import Mathlib.Data.BitVec
import Mathlib.Logic.Function.Basic

/-! A synchronous block RAM port. A read lands in the output register at the next clock edge
and stays there while the port is disabled. A write hands out the old word, or the new one
where the storage is a shared variable, which can have two ports. -/

namespace Hthreads.Library

structure Port (a d : ℕ) where
  addr : BitVec a
  din : BitVec d
  en : Bool
  we : Bool

namespace Port

variable {a d : ℕ}

def off : Port a d := ⟨0, 0, false, false⟩
def read (addr : BitVec a) : Port a d := ⟨addr, 0, true, false⟩
def write (addr : BitVec a) (din : BitVec d) : Port a d := ⟨addr, din, true, true⟩

@[simp] lemma off_en : (off : Port a d).en = false := rfl
@[simp] lemma read_en (addr : BitVec a) : (read addr : Port a d).en = true := rfl
@[simp] lemma read_addr (addr : BitVec a) : (read addr : Port a d).addr = addr := rfl
@[simp] lemma write_en (addr : BitVec a) (din : BitVec d) : (write addr din).en = true := rfl

end Port

structure Bram (a d : ℕ) where
  data : BitVec a → BitVec d
  dout : BitVec d

namespace Bram

variable {a d : ℕ}

def clock (m : Bram a d) (p : Port a d) : Bram a d where
  data := if p.en && p.we then Function.update m.data p.addr p.din else m.data
  dout := if p.en then m.data p.addr else m.dout

@[simp] lemma clock_off (m : Bram a d) : m.clock .off = m := rfl

@[simp] lemma clock_read (m : Bram a d) (addr : BitVec a) :
    m.clock (.read addr) = ⟨m.data, m.data addr⟩ := rfl

@[simp] lemma clock_write (m : Bram a d) (addr : BitVec a) (din : BitVec d) :
    m.clock (.write addr din) = ⟨Function.update m.data addr din, m.data addr⟩ := rfl

def clockThrough (m : Bram a d) (p : Port a d) : Bram a d :=
  let data := if p.en && p.we then Function.update m.data p.addr p.din else m.data
  ⟨data, if p.en then data p.addr else m.dout⟩

@[simp] lemma clockThrough_off (m : Bram a d) : m.clockThrough .off = m := rfl

@[simp] lemma clockThrough_read (m : Bram a d) (addr : BitVec a) :
    m.clockThrough (.read addr) = ⟨m.data, m.data addr⟩ := rfl

@[simp] lemma clockThrough_write (m : Bram a d) (addr : BitVec a) (din : BitVec d) :
    m.clockThrough (.write addr din) = ⟨Function.update m.data addr din, din⟩ := by
  simp [clockThrough, Port.write]

end Bram

structure DualBram (a d : ℕ) where
  data : BitVec a → BitVec d
  dout0 : BitVec d
  dout1 : BitVec d

namespace DualBram

variable {a d : ℕ}

-- when both ports write one address, the second write stays
def clock (m : DualBram a d) (p q : Port a d) : DualBram a d :=
  let first := (⟨m.data, m.dout0⟩ : Bram a d).clockThrough p
  let second := (⟨first.data, m.dout1⟩ : Bram a d).clockThrough q
  ⟨second.data, first.dout, second.dout⟩

variable (m : DualBram a d) (addr addr' : BitVec a) (din din' : BitVec d)

@[simp] lemma clock_off_off : m.clock .off .off = m := rfl

@[simp] lemma clock_read_off : m.clock (.read addr) .off = { m with dout0 := m.data addr } := rfl

@[simp] lemma clock_off_read : m.clock .off (.read addr) = { m with dout1 := m.data addr } := rfl

@[simp] lemma clock_write_off :
    m.clock (.write addr din) .off = ⟨Function.update m.data addr din, din, m.dout1⟩ := by
  simp [clock]

@[simp] lemma clock_write_write :
    m.clock (.write addr din) (.write addr' din') =
      ⟨Function.update (Function.update m.data addr din) addr' din', din, din'⟩ := by
  simp [clock]

end DualBram

end Hthreads.Library
