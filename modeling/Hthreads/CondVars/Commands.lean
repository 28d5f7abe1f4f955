import Hthreads.CondVars.UserLogic
import Mathlib.Data.List.Iterate
import Mathlib.Tactic

/-! What a command does to the contents of the table, and that the core does it. -/

namespace Hthreads.CondVars

open Library Scheduler

abbrev Table := Addr → BitVec 8

namespace Table

variable (T : Table) (cvar : Cvar) (tid : ThreadId)

def link (tid : ThreadId) : ThreadId := T (linkEntry tid)

def setLength (n : BitVec 8) : Table := Function.update T (lengthEntry cvar) n

def enqueue : Table :=
  let n := T (lengthEntry cvar) + 1
  let S := T.setLength cvar n
  if n = 1 then Function.update (Function.update S (ownerEntry cvar) tid) (lastReqEntry cvar) tid
  else
    Function.update (Function.update S (lastReqEntry cvar) tid)
      (linkEntry (S (lastReqEntry cvar))) tid

def dequeue : List ThreadId × Table :=
  let n := T (lengthEntry cvar)
  let first := T (ownerEntry cvar)
  let S := T.setLength cvar (n - 1)
  if n = 0 then ([], T)
  else if n = 1 then ([first], T.setLength cvar 0)
  else ([first], Function.update S (ownerEntry cvar) (S.link first))

def dequeueAll : List ThreadId × Table :=
  let n := T (lengthEntry cvar)
  let S := T.setLength cvar 0
  if n = 0 then ([], T) else (List.iterate S.link (T (ownerEntry cvar)) n.toNat, S)

def execute : Command → List ThreadId × Table
  | .wait cvar tid => ([], T.enqueue cvar tid)
  | .signal cvar => T.dequeue cvar
  | .broadcast cvar => T.dequeueAll cvar

end Table

/-- The states between the acceptance of a command and its end. -/
def State.busy : State → Bool
  | reset | initBram | idle | transactionComplete | returnToIdle => false
  | _ => true

/-- Where the core waits for the message channel. -/
def State.stalls : State → Bool
  | deqRemoveOnly | deqSendOwner | extra20 => true
  | _ => false

/-- The lines into the core while a command is executed and the channel takes every message. -/
def Lines.open (x : Lines) : Lines := { x with full := false }

namespace Core

variable {x : Lines} {c d : Core} {n : ℕ} {ids : List ThreadId}

def contents (c : Core) : Table := c.table.data

/-- The core completes its command in that many cycles when the channel does not stall it. -/
inductive Finishes (x : Lines) : ℕ → Core → List ThreadId → Core → Prop
  | complete {c : Core} : c.regs.state = .transactionComplete → c.regs.done = true →
      Finishes x 0 c [] c
  | cycle {n : ℕ} {c d : Core} {ids : List ThreadId} : c.regs.state.busy = true →
      c.regs.done = false → Finishes x n (c.clock x.open) ids d →
      Finishes x (n + 1) c ((c.sent x.open).toList ++ ids) d

lemma clock_stalled (hs : c.regs.state.stalls = true) (hfull : x.full = true) :
    c.clock x = c ∧ c.sent x = none := by
  obtain ⟨⟨state, addrCounter, argCvar, argTid, entry, done⟩, table⟩ := c
  cases state <;> cases hs <;> simp [clock, sent, driven, drive, sendOrStall, hfull]

lemma clock_open {y : Lines} (hb : c.regs.state.busy = true)
    (hs : c.regs.state.stalls = false ∨ x.full = false) :
    c.clock x = c.clock y.open ∧ c.sent x = c.sent y.open := by
  obtain ⟨⟨state, addrCounter, argCvar, argTid, entry, done⟩, table⟩ := c
  cases state <;> cases hb <;> simp_all
    [clock, sent, driven, drive, sendOrStall, State.stalls, Lines.open]

/-- The core completes its command, sends those ids and leaves that table. -/
def Performs (x : Lines) (c : Core) (o : List ThreadId × Table) : Prop :=
  ∃ n d, Finishes x n c o.1 d ∧ d.contents = o.2

variable {o : List ThreadId × Table}

lemma Performs.complete {T : Table} (hstate : c.regs.state = .transactionComplete)
    (hdone : c.regs.done = true) (hT : c.contents = T) : c.Performs x ([], T) :=
  ⟨0, c, .complete hstate hdone, hT⟩

lemma Performs.silent (hb : c.regs.state.busy = true) (hd : c.regs.done = false)
    (hs : c.sent x.open = none) (h : (c.clock x.open).Performs x o) : c.Performs x o := by
  obtain ⟨n, d, hfin, ho⟩ := h
  have hcycle := Finishes.cycle hb hd hfin
  rw [hs] at hcycle
  exact ⟨n + 1, d, hcycle, ho⟩

lemma Performs.sends {tid : ThreadId} {T : Table} (hb : c.regs.state.busy = true)
    (hd : c.regs.done = false) (hs : c.sent x.open = some tid)
    (h : (c.clock x.open).Performs x (ids, T)) : c.Performs x (tid :: ids, T) := by
  obtain ⟨n, d, hfin, ho⟩ := h
  have hcycle := Finishes.cycle hb hd hfin
  rw [hs] at hcycle
  exact ⟨n + 1, d, hcycle, ho⟩

section Cycles

variable {addrCounter : Addr} {argCvar : Cvar} {argTid : ThreadId} {entry dout0 dout1 : BitVec 8}
  {data : Table}

lemma performs_enqueue :
    Performs x ⟨⟨.enqBegin, addrCounter, argCvar, argTid, entry, false⟩, ⟨data, dout0, dout1⟩⟩
      ([], data.enqueue argCvar argTid) := by
  refine .silent rfl rfl rfl (.silent rfl rfl rfl (.silent rfl rfl rfl (.silent rfl rfl rfl ?_)))
  by_cases hone : data (lengthEntry argCvar) + 1 = 1
  · simp only [clock, driven, drive, DualBram.clock_off_off, DualBram.clock_read_off, hone, if_true]
    refine .silent rfl rfl rfl (.complete rfl rfl ?_)
    simp only [contents, clock, driven, drive, DualBram.clock_write_off, DualBram.clock_write_write,
      Table.enqueue, Table.setLength, hone, if_true]
  · simp only [clock, driven, drive, DualBram.clock_off_off, DualBram.clock_read_off,
      hone, if_false]
    refine .silent rfl rfl rfl (.silent rfl rfl rfl (.silent rfl rfl rfl (.silent rfl rfl rfl
      (.complete rfl rfl ?_))))
    simp only [contents, clock, driven, drive, DualBram.clock_off_off, DualBram.clock_read_off,
      DualBram.clock_write_off, DualBram.clock_write_write, Table.enqueue, Table.setLength, hone,
      if_false]

lemma performs_removeOnly :
    Performs x ⟨⟨.deqRemoveOnly, addrCounter, argCvar, argTid, entry, false⟩, ⟨data, dout0, dout1⟩⟩
      ([entry], data) :=
  .sends rfl rfl rfl (.complete rfl rfl rfl)

lemma performs_removeGeneral :
    Performs x ⟨⟨.extra9, addrCounter, argCvar, argTid, entry, false⟩, ⟨data, dout0, dout1⟩⟩
      ([dout1], Function.update (data.setLength argCvar (entry - 1)) (ownerEntry argCvar)
        ((data.setLength argCvar (entry - 1)).link dout1)) := by
  refine .silent rfl rfl rfl (.silent rfl rfl rfl (.silent rfl rfl rfl (.silent rfl rfl rfl
    (.silent rfl rfl rfl ?_))))
  refine .sends rfl rfl rfl (.complete rfl rfl ?_)
  simp only [contents, clock, driven, drive, DualBram.clock_off_off, DualBram.clock_off_read,
    DualBram.clock_write_off]
  rfl

lemma performs_dequeue :
    Performs x ⟨⟨.deqBegin, addrCounter, argCvar, argTid, entry, false⟩, ⟨data, dout0, dout1⟩⟩
      (data.dequeue argCvar) := by
  refine .silent rfl rfl rfl (.silent rfl rfl rfl (.silent rfl rfl rfl ?_))
  simp only [clock, driven, drive, DualBram.clock_off_off, DualBram.clock_read_off, Table.dequeue]
  generalize data (lengthEntry argCvar) = n
  by_cases hzero : n = 0
  · subst hzero
    exact .silent rfl rfl rfl (.complete rfl rfl rfl)
  by_cases hone : n = 1
  · subst hone
    exact .silent rfl rfl rfl (.silent rfl rfl rfl (.silent rfl rfl rfl performs_removeOnly))
  · refine .silent rfl rfl (by simp only [sent, driven, drive, hzero, if_false]) ?_
    simp only [clock, driven, drive, hzero, hone, if_false, DualBram.clock_off_read]
    exact performs_removeGeneral

lemma performs_removeLoop :
    Performs x ⟨⟨.deqallRemoveLoop, addrCounter, argCvar, argTid, entry, false⟩,
      ⟨data, dout0, dout1⟩⟩
      (List.iterate data.link entry argTid.toNat, data) := by
  generalize hn : argTid.toNat = n
  induction n generalizing argTid entry dout0 with
  | zero =>
    obtain rfl : argTid = 0 := BitVec.eq_of_toNat_eq hn
    exact .silent rfl rfl rfl (.silent rfl rfl rfl (.complete rfl rfl rfl))
  | succ n ih =>
    have hne : argTid ≠ 0 := by
      rintro rfl
      cases hn
    have hpred : (argTid - 1).toNat = n := by
      rw [BitFields.toNat_pred_of_ne_zero hne, hn, Nat.add_sub_cancel]
    refine .silent rfl rfl
      (by simp only [sent, driven, drive, hne, ne_eq, not_false_eq_true, if_true]) ?_
    simp only [clock, driven, drive, hne, ne_eq, not_false_eq_true, if_true,
      DualBram.clock_read_off]
    rw [List.iterate]
    exact .silent rfl rfl rfl (.sends rfl rfl rfl (ih hpred))

lemma performs_dequeueAll :
    Performs x ⟨⟨.deqallBegin, addrCounter, argCvar, argTid, entry, false⟩, ⟨data, dout0, dout1⟩⟩
      (data.dequeueAll argCvar) := by
  refine .silent rfl rfl rfl (.silent rfl rfl rfl (.silent rfl rfl rfl ?_))
  simp only [clock, driven, drive, DualBram.clock_off_off, DualBram.clock_read_off,
    Table.dequeueAll]
  generalize data (lengthEntry argCvar) = n
  by_cases hzero : n = 0
  · subst hzero
    exact .silent rfl rfl rfl (.complete rfl rfl rfl)
  by_cases hone : n = 1
  · subst hone
    exact .silent rfl rfl rfl (.silent rfl rfl rfl (.silent rfl rfl rfl performs_removeOnly))
  · refine .silent rfl rfl (by simp only [sent, driven, drive, hzero, if_false]) ?_
    simp only [clock, driven, drive, hzero, hone, if_false, DualBram.clock_off_read]
    exact .silent rfl rfl rfl (.silent rfl rfl rfl performs_removeLoop)

end Cycles

lemma performs_command (hstate : c.regs.state = .idle) (hdone : c.regs.done = false)
    (hcmd : x.cmd = true) {op : Op} (hop : x.opcode = op.code) :
    c.sent x = none ∧ c.accepts x = some (op.command x.cvar x.tid) ∧
      (c.clock x).Performs x (c.contents.execute (op.command x.cvar x.tid)) := by
  obtain ⟨⟨state, addrCounter, argCvar, argTid, entry, done⟩, table⟩ := c
  obtain rfl : state = .idle := hstate
  obtain rfl : done = false := hdone
  have haccepts : accepts x ⟨⟨.idle, addrCounter, argCvar, argTid, entry, false⟩, table⟩ =
      some (op.command x.cvar x.tid) := by
    simp [accepts, hcmd, hop]
  cases op with
  | enqueue =>
    refine ⟨by simp [sent, driven, drive, idleDrive, hcmd, hop], haccepts, ?_⟩
    simp only [clock, driven, drive, idleDrive, hcmd, hop, Op.ofCode_code, DualBram.clock_off_off]
    exact performs_enqueue
  | dequeue =>
    refine ⟨by simp [sent, driven, drive, idleDrive, hcmd, hop], haccepts, ?_⟩
    simp only [clock, driven, drive, idleDrive, hcmd, hop, Op.ofCode_code, DualBram.clock_off_off]
    exact performs_dequeue
  | dequeueAll =>
    refine ⟨by simp [sent, driven, drive, idleDrive, hcmd, hop], haccepts, ?_⟩
    simp only [clock, driven, drive, idleDrive, hcmd, hop, Op.ofCode_code, DualBram.clock_off_off]
    exact performs_dequeueAll

end Core

end Hthreads.CondVars
