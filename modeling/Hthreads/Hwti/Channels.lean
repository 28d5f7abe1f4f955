import Hthreads.Hwti.Command
import Hthreads.Library.Cycles

/-! The command controller between the channels of its thread and the bus: what becomes of the
requests. -/

namespace Hthreads.Hwti

open Library Library.BitFields Scheduler

structure Cycle where
  tid : ThreadId
  arg : Word
  request : Option Tfsl
  resultFull : Bool
  memrd : Bool
  memwr : Bool
  command : BitVec 4
  ack : Bool
  last : Bool
  results : BitVec 64

inductive Event
  | run
  | wake (full : Bool)
  | consumed (w : Tfsl) (results : BitVec 64)
  | result (full : Bool)
  deriving DecidableEq

structure System where
  regs : Regs
  pending : List Tfsl
  -- an access that the bus has not acknowledged
  outstanding : Bool
  arrived : List Tfsl
  events : List Event

namespace System

variable (s : System) (c : Cycle)

def inputs : Inputs where
  tid := c.tid
  arg := c.arg
  opcodeData := s.pending.headD 0
  opcodeExists := !s.pending.isEmpty
  resultFull := c.resultFull
  memrd := c.memrd
  memwr := c.memwr
  command := c.command
  ack := c.ack && s.outstanding
  last := c.last
  results := c.results

def seen (d : Drive) : List Event :=
  (if d.setsta ∧ d.osta = statusRunning then [.run] else []) ++
    (if d.opcodeRead then [.consumed (s.pending.headD 0) c.results] else []) ++
    if d.resultWrite then
      if s.regs.cmdCs = .wakeup then [.wake c.resultFull] else [.result c.resultFull]
    else []

def clock (b : Bases) (c : Cycle) (s : System) : System :=
  let next := controller b (s.inputs c) s.regs
  { regs := next.1
    pending := (if next.2.opcodeRead then s.pending.tail else s.pending) ++ c.request.toList
    outstanding := next.2.rd || next.2.wr || (s.outstanding && !c.ack)
    arrived := s.arrived ++ c.request.toList
    events := s.events ++ s.seen c next.2 }

def init (words : List Tfsl) : System where
  regs := ⟨.start, false⟩
  pending := words
  outstanding := false
  arrived := words
  events := []

end System

section Requests

def IsExit (w : Tfsl) : Prop := opdev w = 2 ∧ opcmd w = 7

/-- The requests that get their result after a run only: a mutex that is held, a wait, and a thread
that has not exited yet. -/
def Blocks (w : Tfsl) (results : BitVec 64) : Prop :=
  opdev w = 0 ∧ opcmd w ≠ 2 ∧ bit results 1 = true ∨ opdev w = 1 ∧ opcmd w = 2 ∨
    opdev w = 2 ∧ slice results 60 4 = 3

instance (w : Tfsl) : Decidable (IsExit w) := inferInstanceAs (Decidable (_ ∧ _))
instance (w : Tfsl) (results : BitVec 64) : Decidable (Blocks w results) :=
  inferInstanceAs (Decidable (_ ∨ _))

/-- What the controller may do to serve its thread. -/
inductive Moves : CommandState → List Event → CommandState → Prop
  | run : Moves .start [.run] .wakeup
  | wake : Moves .wakeup [.wake false] .idle
  | ask : Moves .idle [] .hold
  | answer {w results} : ¬ IsExit w → ¬ Blocks w results →
      Moves .hold [.consumed w results, .result false] .idle
  | block {w results} : ¬ IsExit w → Blocks w results → Moves .hold [.consumed w results] .blocked
  | resume : Moves .blocked [.run, .result false] .idle
  | exit {w results} : IsExit w → Moves .hold [.consumed w results] .start

inductive Served : CommandState → List Event → Prop
  | init : Served .start []
  | move {st st' l es} : Served st l → Moves st es st' → Served st' (l ++ es)

def consumedWords : List Event → List Tfsl
  | [] => []
  | .consumed w _ :: l => w :: consumedWords l
  | _ :: l => consumedWords l

def requests : List Event → ℕ
  | [] => 0
  | .consumed w _ :: l => (if IsExit w then 0 else 1) + requests l
  | _ :: l => requests l

def answers : List Event → ℕ
  | [] => 0
  | .result _ :: l => answers l + 1
  | _ :: l => answers l

end Requests

/-- The steps in which the controller does not get into trouble. -/
structure Meets (s : System) (c : Cycle) : Prop where
  idle : s.regs.cmdCs = .idle → s.pending ≠ [] → c.resultFull = false →
    opdev (s.pending.headD 0) < 3
  acknowledged : s.regs.cmdCs = .hold → c.ack = true →
    (opdev (s.pending.headD 0) = 1 → slice c.results 60 4 ≠ 0xe) ∧
    (IsExit (s.pending.headD 0) → slice c.results 60 4 ≠ 3) ∧
    (¬ IsExit (s.pending.headD 0) → ¬ Blocks (s.pending.headD 0) c.results → c.resultFull = false)
  blocked : s.regs.cmdCs = .blocked → c.command = commandRun → c.resultFull = false

section Steps

variable {b : Bases} {i : Inputs} {s t : System} {c : Cycle} {d : Drive} {w : Tfsl}
  {rest : List Tfsl}
  {st st' : CommandState} {l es : List Event}

lemma idle_asks (hdev : opdev i.opcodeData < 3) : (idle b i).1 = .hold ∧
    ((idle b i).2.rd || (idle b i).2.wr) = true ∧ (idle b i).2.opcodeRead = false ∧
    (idle b i).2.resultWrite = false ∧ (idle b i).2.setsta = false := by
  have hcases : opdev i.opcodeData = 0 ∨ opdev i.opcodeData = 1 ∨ opdev i.opcodeData = 2 := by
    bv_omega
  rcases hcases with h | h | h
  · simp only [idle, h, if_true]
    split_ifs <;> simp
  · simp [idle, h]
  · simp [idle, h]

/-- What an acknowledge can lead to, for a device that there is. -/
inductive Acknowledged (i : Inputs) (d : Drive) : CommandState × Drive → Prop
  | answer : ¬ IsExit i.opcodeData → ¬ Blocks i.opcodeData i.results →
      Acknowledged i d (.idle, { d with resultWrite := true })
  | block : ¬ IsExit i.opcodeData → Blocks i.opcodeData i.results →
      Acknowledged i d (.blocked, { d with setsta := true, osta := statusBlocked })
  | exit : IsExit i.opcodeData → Acknowledged i d
      (.start, { d with setsta := true, osta := statusExited, setres := true
                        ores := slice i.opcodeData 32 32 })

lemma acknowledged_cases (hdev : opdev i.opcodeData < 3)
    (hcond : opdev i.opcodeData = 1 → slice i.results 60 4 ≠ 0xe)
    (hexit : IsExit i.opcodeData → slice i.results 60 4 ≠ 3) (d : Drive) :
    Acknowledged i d (acknowledged i d) := by
  have hcases : opdev i.opcodeData = 0 ∨ opdev i.opcodeData = 1 ∨ opdev i.opcodeData = 2 := by
    bv_omega
  rcases hcases with h | h | h
  · have hne : ¬ IsExit i.opcodeData := by simp [IsExit, h]
    simp only [acknowledged, h, if_true]
    split_ifs with hblock
    · exact .block hne (.inl ⟨h, hblock.2, hblock.1⟩)
    · refine .answer hne ?_
      rintro (⟨-, h₁, h₂⟩ | ⟨h₁, -⟩ | ⟨h₁, -⟩)
      · exact hblock ⟨h₂, h₁⟩
      · exact absurd (h.symm.trans h₁) (by decide)
      · exact absurd (h.symm.trans h₁) (by decide)
  · have hne : ¬ IsExit i.opcodeData := by simp [IsExit, h]
    have hzero : ¬ (1 : BitVec 4) = 0 := by decide
    simp only [acknowledged, h, if_neg hzero, if_true, if_pos (hcond h)]
    split_ifs with hwait
    · exact .block hne (.inr (.inl ⟨h, hwait⟩))
    · refine .answer hne ?_
      rintro (⟨h₁, -⟩ | ⟨-, h₁⟩ | ⟨h₁, -⟩)
      · exact absurd (h.symm.trans h₁) (by decide)
      · exact hwait h₁
      · exact absurd (h.symm.trans h₁) (by decide)
  · have hzero : ¬ (2 : BitVec 4) = 0 := by decide
    have hone : ¬ (2 : BitVec 4) = 1 := by decide
    simp only [acknowledged, h, if_neg hzero, if_neg hone, if_true]
    split_ifs with hjoin hcmd
    · exact .block (fun h => hexit h hjoin) (.inr (.inr ⟨h, hjoin⟩))
    · exact .exit ⟨h, hcmd⟩
    · refine .answer (fun h => hcmd h.2) ?_
      rintro (⟨h₁, -⟩ | ⟨h₁, -⟩ | ⟨-, h₁⟩)
      · exact absurd (h.symm.trans h₁) (by decide)
      · exact absurd (h.symm.trans h₁) (by decide)
      · exact hjoin h₁

/-- What has to come from outside for the controller to go on. -/
def Goes (s : System) (c : Cycle) : Prop :=
  match s.regs.cmdCs with
  | .start | .blocked => c.command = commandRun
  | .wakeup => c.resultFull = false
  | .idle => s.pending ≠ [] ∧ c.resultFull = false
  | .hold => c.ack = true
  | _ => False

def Held (s : System) : Prop :=
  s.regs.cmdCs = .hold → s.outstanding = true ∧ s.pending ≠ [] ∧ opdev (s.pending.headD 0) < 3

inductive Steps (s : System) (c : Cycle) (t : System) : Prop
  | waits : ¬ Goes s c → t.regs.cmdCs = s.regs.cmdCs → t.events = s.events →
      t.pending = s.pending ++ c.request.toList → Held t → Steps s c t
  | moves (es : List Event) (rest : List Tfsl) : Goes s c →
      Moves s.regs.cmdCs es t.regs.cmdCs → t.events = s.events ++ es →
      s.pending = consumedWords es ++ rest → t.pending = rest ++ c.request.toList → Held t →
      Steps s c t

lemma clock_eq {r : Regs} (h : controller b (s.inputs c) s.regs = (r, d)) : s.clock b c =
    { regs := r
      pending := (if d.opcodeRead then s.pending.tail else s.pending) ++ c.request.toList
      outstanding := d.rd || d.wr || (s.outstanding && !c.ack)
      arrived := s.arrived ++ c.request.toList
      events := s.events ++ s.seen c d } := by
  simp only [System.clock, h]

lemma headD_append (hne : s.pending ≠ []) (l : List Tfsl) :
    (s.pending ++ l).headD 0 = s.pending.headD 0 := by
  obtain ⟨w, rest, hw⟩ := List.exists_cons_of_ne_nil hne
  rw [hw, List.cons_append, List.headD_cons, List.headD_cons]

lemma steps_waits {last : Bool} (hheld : Held s)
    (h : controller b (s.inputs c) s.regs = (⟨s.regs.cmdCs, last⟩, d))
    (hread : d.opcodeRead = false) (hwrite : d.resultWrite = false) (hsta : d.setsta = false)
    (hgoes : ¬ Goes s c) : Steps s c (s.clock b c) := by
  rw [clock_eq h]
  refine .waits hgoes rfl ?_ ?_ fun hst => ?_
  · simp [System.seen, hread, hwrite, hsta]
  · simp [hread]
  · -- the access has not been acknowledged
    obtain ⟨hout, hne, hdev⟩ := hheld hst
    have hack : ¬ c.ack = true := by
      rw [Goes, show s.regs.cmdCs = .hold from hst] at hgoes
      exact hgoes
    simp only [hread, Bool.false_eq_true, if_false, headD_append hne]
    exact ⟨by simp [hout, hack], by simp [hne], hdev⟩

lemma steps_moves {r : Regs} (h : controller b (s.inputs c) s.regs = (r, d)) (hgoes : Goes s c)
    (hmoves : Moves s.regs.cmdCs (s.seen c d) r.cmdCs)
    (hpending : s.pending =
      consumedWords (s.seen c d) ++ if d.opcodeRead then s.pending.tail else s.pending)
    (hnext : r.cmdCs ≠ .hold) : Steps s c (s.clock b c) := by
  rw [clock_eq h]
  exact .moves _ _ hgoes hmoves rfl hpending rfl fun hst => absurd hst hnext

lemma steps_start (hheld : Held s) (hst : s.regs.cmdCs = .start) : Steps s c (s.clock b c) := by
  by_cases hrun : c.command = commandRun
  · have hclock : controller b (s.inputs c) s.regs =
        (⟨.wakeup, false⟩, { setsta := true, osta := statusRunning }) := by
      rw [controller, hst]
      exact if_pos hrun
    refine steps_moves hclock ?_ (hst ▸ .run) rfl nofun
    rw [Goes, hst]
    exact hrun
  · have hclock : controller b (s.inputs c) s.regs = (⟨s.regs.cmdCs, false⟩, {}) := by
      rw [controller, hst]
      exact if_neg hrun
    refine steps_waits hheld hclock rfl rfl rfl ?_
    rw [Goes, hst]
    exact hrun

lemma steps_wakeup (hheld : Held s) (hst : s.regs.cmdCs = .wakeup) : Steps s c (s.clock b c) := by
  by_cases hfull : c.resultFull = false
  · have hclock : controller b (s.inputs c) s.regs = (⟨.idle, false⟩,
        { resultWrite := true, resultControl := true, resultData := 0#24 ++ c.tid ++ c.arg }) := by
      rw [controller, hst]
      exact if_pos hfull
    refine steps_moves hclock ?_ ?_ ?_ nofun
    · rw [Goes, hst]
      exact hfull
    · simp only [System.seen, hst, hfull]
      exact .wake
    · simp [System.seen, hst, consumedWords]
  · have hclock : controller b (s.inputs c) s.regs = (⟨s.regs.cmdCs, false⟩, {}) := by
      rw [controller, hst]
      exact if_neg hfull
    refine steps_waits hheld hclock rfl rfl rfl ?_
    rw [Goes, hst]
    exact hfull

lemma steps_idle (hheld : Held s) (hm : Meets s c) (hst : s.regs.cmdCs = .idle) :
    Steps s c (s.clock b c) := by
  by_cases hgoes : s.pending ≠ [] ∧ c.resultFull = false
  · obtain ⟨hstate, hasks, hread, hwrite, hsta⟩ := idle_asks (b := b) (i := s.inputs c)
      (hm.idle hst hgoes.1 hgoes.2)
    have hclock : controller b (s.inputs c) s.regs =
        (⟨(idle b (s.inputs c)).1, false⟩, (idle b (s.inputs c)).2) := by
      rw [controller, hst]
      refine if_pos ⟨?_, hgoes.2⟩
      simp [System.inputs, hgoes.1]
    have hseen : s.seen c (idle b (s.inputs c)).2 = [] := by
      simp [System.seen, hread, hwrite, hsta]
    rw [clock_eq hclock]
    refine .moves [] s.pending ?_ ?_ ?_ rfl ?_ fun _ => ?_
    · rw [Goes, hst]
      exact hgoes
    · rw [hst]
      exact hstate ▸ .ask
    · rw [hseen]
    · simp [hread]
    · simp only [hread, Bool.false_eq_true, if_false, headD_append hgoes.1]
      exact ⟨by simp [hasks], by simp [hgoes.1], hm.idle hst hgoes.1 hgoes.2⟩
  · have hclock : controller b (s.inputs c) s.regs = (⟨s.regs.cmdCs, false⟩, {}) := by
      rw [controller, hst]
      refine if_neg fun h => hgoes ⟨?_, h.2⟩
      simpa [System.inputs] using h.1
    refine steps_waits hheld hclock rfl rfl rfl ?_
    rw [Goes, hst]
    exact hgoes

lemma steps_blocked (hheld : Held s) (hm : Meets s c) (hst : s.regs.cmdCs = .blocked) :
    Steps s c (s.clock b c) := by
  by_cases hrun : c.command = commandRun
  · have hfull : c.resultFull = false := hm.blocked hst hrun
    have hclock : controller b (s.inputs c) s.regs =
        (⟨.idle, false⟩, { resultWrite := true, setsta := true, osta := statusRunning }) := by
      rw [controller, hst]
      exact if_pos hrun
    refine steps_moves hclock ?_ ?_ ?_ nofun
    · rw [Goes, hst]
      exact hrun
    · simp only [System.seen, hst, hfull]
      exact .resume
    · simp [System.seen, hst, consumedWords]
  · have hclock : controller b (s.inputs c) s.regs = (⟨s.regs.cmdCs, false⟩, {}) := by
      rw [controller, hst]
      exact if_neg hrun
    refine steps_waits hheld hclock rfl rfl rfl ?_
    rw [Goes, hst]
    exact hrun

lemma steps_hold (hheld : Held s) (hm : Meets s c) (hst : s.regs.cmdCs = .hold) :
    Steps s c (s.clock b c) := by
  obtain ⟨hout, hne, hdev⟩ := hheld hst
  obtain ⟨w, rest, hpending⟩ := List.exists_cons_of_ne_nil hne
  have hhead : s.pending.headD 0 = w := by rw [hpending, List.headD_cons]
  let waits : Drive :=
    { memwrack := c.memrd, memrdack := c.memwr, data := (opknd (s.pending.headD 0)).setWidth 64 }
  by_cases hack : c.ack = true
  · have hgoes : Goes s c := by
      rw [Goes, hst]
      exact hack
    obtain ⟨hcond, hexit, hroom⟩ := hm.acknowledged hst hack
    have hclock : controller b (s.inputs c) s.regs =
        (⟨(acknowledged (s.inputs c) { waits with opcodeRead := true }).1, false⟩,
          (acknowledged (s.inputs c) { waits with opcodeRead := true }).2) := by
      rw [controller, hst]
      refine if_pos ?_
      rw [System.inputs, hack, hout]
      rfl
    have hcases := acknowledged_cases (i := s.inputs c) hdev hcond hexit
      { waits with opcodeRead := true }
    generalize acknowledged (s.inputs c) { waits with opcodeRead := true } = next at hclock hcases
    cases hcases with
    | answer he hb =>
      have hseen : s.seen c { waits with opcodeRead := true, resultWrite := true } =
          [.consumed (s.pending.headD 0) c.results, .result false] := by
        simp [System.seen, hst, hroom he hb, waits]
      refine steps_moves hclock hgoes ?_ ?_ nofun
      · rw [hseen, hst]
        exact .answer he hb
      · rw [hseen, hhead, hpending]
        rfl
    | block he hb =>
      have hseen : s.seen c
          { waits with opcodeRead := true, setsta := true, osta := statusBlocked } =
          [.consumed (s.pending.headD 0) c.results] := by
        simp [System.seen, waits, statusBlocked, statusRunning]
      refine steps_moves hclock hgoes ?_ ?_ nofun
      · rw [hseen, hst]
        exact .block he hb
      · rw [hseen, hhead, hpending]
        rfl
    | exit he =>
      have hseen : s.seen c
          { waits with
            opcodeRead := true, setsta := true, osta := statusExited, setres := true
            ores := slice (s.inputs c).opcodeData 32 32 } =
          [.consumed (s.pending.headD 0) c.results] := by
        simp [System.seen, waits, statusExited, statusRunning]
      refine steps_moves hclock hgoes ?_ ?_ nofun
      · rw [hseen, hst]
        exact .exit he
      · rw [hseen, hhead, hpending]
        rfl
  · have hclock : controller b (s.inputs c) s.regs = (⟨s.regs.cmdCs, false⟩, waits) := by
      rw [controller, hst]
      refine if_neg ?_
      simp [System.inputs, hack]
    refine steps_waits hheld hclock rfl rfl rfl ?_
    rw [Goes, hst]
    exact hack

lemma Served.states (h : Served st l) : st = .start ∨ st = .wakeup ∨ st = .idle ∨ st = .hold ∨
    st = .blocked := by
  cases h with
  | init => exact .inl rfl
  | move _ hmoves => cases hmoves <;> simp

lemma steps_clock (hserved : Served s.regs.cmdCs s.events) (hheld : Held s) (hm : Meets s c) :
    Steps s c (s.clock b c) := by
  rcases hserved.states with hst | hst | hst | hst | hst
  · exact steps_start hheld hst
  · exact steps_wakeup hheld hst
  · exact steps_idle hheld hm hst
  · exact steps_hold hheld hm hst
  · exact steps_blocked hheld hm hst

lemma Steps.served (h : Steps s c t) (hserved : Served s.regs.cmdCs s.events) :
    Served t.regs.cmdCs t.events := by
  cases h with
  | waits _ hst hevents _ _ =>
    rw [hst, hevents]
    exact hserved
  | moves es rest _ hmoves hevents _ _ _ =>
    rw [hevents]
    exact hserved.move hmoves

end Steps

end Hthreads.Hwti
