import Hthreads.CondVars.Refinement

/-! The stages of a bus transaction. -/

namespace Hthreads.CondVars

open Library Scheduler

structure Core.Quiet (c : Core) : Prop where
  state : c.regs.state = .idle
  done : c.regs.done = false

/-- The commands, each carried out once, account for the table and the messages. -/
structure Settled (cs : List Command) (b : Bench) : Prop where
  lists : Represents b.logic.core.contents.lists (WaitQueues.initial.run cs).2
  sent : b.sent = (WaitQueues.initial.run cs).1
  executed : b.executed = cs

lemma Core.Quiet.clock {c : Core} (h : c.Quiet) {x : Lines} (hcmd : x.cmd = false) :
    c.clock x = c ∧ c.sent x = none ∧ c.accepts x = none := by
  obtain ⟨⟨state, addrCounter, argCvar, argTid, entry, done⟩, table⟩ := c
  obtain rfl : state = .idle := h.state
  obtain rfl : done = false := h.done
  simp [Core.clock, Core.sent, Core.accepts, Core.driven, drive, idleDrive, hcmd]

/-- The bus holds the lines of a command. -/
structure Serving (addr : Word) (op : Op) (cs ds : List Command) (b : Bench) : Prop where
  phase : b.phase = .asserting addr
  opcode : Op.ofCode (getOpcode addr) = some op
  pending : b.pending.map command = ds.map some
  answered : b.answered = cs.length

/-- The command has not reached the core. -/
structure Waiting (s : MasterState) (addr : Word) (op : Op) (cs ds : List Command) (b : Bench) :
    Prop
    extends Serving addr op cs ds b where
  state : b.logic.state = s
  ack : b.logic.ack = false
  quiet : b.logic.core.Quiet
  settled : Settled cs b

structure Working (n : ℕ) (addr : Word) (op : Op) (cs ds : List Command) (b : Bench) : Prop
    extends Serving addr op cs ds b where
  state : b.logic.state = .commandBegin op
  ack : b.logic.ack = false
  finishes : ∃ x ids d, Core.Finishes x n b.logic.core ids d ∧
    Settled (cs ++ [op.command (getCVAR addr) (getTID addr)])
      { b with logic := { b.logic with core := d }, sent := b.sent ++ ids }

/-- The core has carried out the command and lets go of its acknowledge. -/
structure Finishing (addr : Word) (op : Op) (cs ds : List Command) (b : Bench) : Prop
    extends Serving addr op cs ds b where
  state : b.logic.state = .commandFinish op
  ack : b.logic.ack = false
  core : b.logic.core.regs.state = .returnToIdle ∧ b.logic.core.regs.done = false
  settled : Settled (cs ++ [op.command (getCVAR addr) (getTID addr)]) b

structure Answered (addr : Word) (op : Op) (cs ds : List Command) (b : Bench) : Prop
    extends Serving addr op cs ds b where
  state : b.logic.state = .waitTransDone
  ack : b.logic.ack = true
  quiet : b.logic.core.Quiet
  settled : Settled (cs ++ [op.command (getCVAR addr) (getTID addr)]) b

structure Resting (cs ds : List Command) (b : Bench) : Prop where
  phase : b.phase = .idle
  pending : b.pending.map command = ds.map some
  answered : b.answered = cs.length
  ack : b.logic.ack = false
  quiet : b.logic.core.Quiet
  settled : Settled cs b
  ready : b.logic.state = .idle ∧ b.logic.requests = .none ∨ b.logic.state = .waitTransDone

/-- The bus still holds the lines of a command that has been answered. -/
structure Held (addr : Word) (cs ds : List Command) (b : Bench) : Prop where
  phase : b.phase = .held addr
  pending : b.pending.map command = ds.map some
  answered : b.answered = cs.length
  ack : b.logic.ack = false
  quiet : b.logic.core.Quiet
  settled : Settled cs b
  state : b.logic.state = .waitTransDone

section Cycles

variable {addr : Word} {op : Op} {cs ds : List Command} {b : Bench} {t : Tick} {n : ℕ}

lemma advance_state : (b.advance t).logic.state = (b.logic.masterDrive (b.bus t)).next := by
  have hsoft : (b.bus t).softReset = false := by
    cases hphase : b.phase <;> simp [Bench.bus, hphase]
  simp [Bench.advance, UserLogic.clock, hsoft]

lemma advance_ack : (b.advance t).logic.ack =
    ((b.logic.masterDrive (b.bus t)).dataReady && (b.logic.masterDrive (b.bus t)).ackReady) := rfl

lemma Settled.advance (h : Settled cs b) (hq : b.logic.core.Quiet)
    (hcmd : (b.logic.masterDrive (b.bus t)).cmd = false)
    (hreset : (b.logic.masterDrive (b.bus t)).resetSig = false) :
    (b.advance t).logic.core = b.logic.core ∧ Settled cs (b.advance t) := by
  obtain ⟨hclock, hsent, haccepts⟩ := hq.clock (x := b.logic.lines (b.bus t)) hcmd
  have hcore : (b.advance t).logic.core = b.logic.core := by
    simp [Bench.advance, UserLogic.clock, hreset, hclock]
  refine ⟨hcore, ?_, ?_, ?_⟩
  · rw [hcore]
    exact h.lists
  · simp [Bench.advance, UserLogic.sent, hsent, h.sent]
  · simp [Bench.advance, haccepts, h.executed]

lemma Serving.clock (h : Serving addr op cs ds b) (hack : b.logic.ack = false) :
    b.clock t = b.advance t ∧ Serving addr op cs ds (b.clock t) := by
  have hclock : b.clock t = b.advance t := by
    simp [Bench.clock, h.phase, hack]
  refine ⟨hclock, ?_⟩
  rw [hclock]
  exact ⟨h.phase, h.opcode, h.pending, h.answered⟩

lemma Serving.bus (h : Serving addr op cs ds b) : b.bus t = ⟨true, false, addr, false, t.full⟩ := by
  simp [Bench.bus, h.phase]

lemma Waiting.clock_asked (h : Waiting .idle addr op cs ds b) (hreq : b.logic.requests = .none) :
    Waiting .idle addr op cs ds (b.clock t) ∧ (b.clock t).logic.requests = .of op := by
  have hdrive : b.logic.masterDrive (b.bus t) =
      { next := .idle, insideReset := b.logic.insideReset } := by
    simp [UserLogic.masterDrive, h.state, hreq, Requests.none]
  obtain ⟨hclock, hserving⟩ := h.toServing.clock (t := t) h.ack
  obtain ⟨hcore, hsettled⟩ := h.settled.advance h.quiet (congrArg MasterDrive.cmd hdrive)
    (congrArg MasterDrive.resetSig hdrive)
  have hquiet := h.quiet
  rw [← hcore] at hquiet
  rw [hclock] at hserving ⊢
  refine ⟨⟨hserving, ?_, ?_, hquiet, hsettled⟩, ?_⟩
  · rw [advance_state, hdrive]
  · rw [advance_ack, hdrive, Bool.false_and]
  · simp [Bench.advance, UserLogic.clock, busCmdProc, h.bus, h.opcode]

lemma Waiting.clock_decoded (h : Waiting .idle addr op cs ds b) (hreq : b.logic.requests = .of op) :
    Waiting (.commandBegin op) addr op cs ds (b.clock t) := by
  have hdrive : b.logic.masterDrive (b.bus t) =
      { next := .commandBegin op, insideReset := b.logic.insideReset } := by
    cases op <;> simp [UserLogic.masterDrive, h.state, hreq, Requests.of]
  obtain ⟨hclock, hserving⟩ := h.toServing.clock (t := t) h.ack
  obtain ⟨hcore, hsettled⟩ := h.settled.advance h.quiet (congrArg MasterDrive.cmd hdrive)
    (congrArg MasterDrive.resetSig hdrive)
  have hquiet := h.quiet
  rw [← hcore] at hquiet
  rw [hclock] at hserving ⊢
  refine ⟨hserving, ?_, ?_, hquiet, hsettled⟩
  · rw [advance_state, hdrive]
  · rw [advance_ack, hdrive, Bool.false_and]

lemma Waiting.clock_begun (h : Waiting (.commandBegin op) addr op cs ds b)
    (ha : (WaitQueues.initial.run cs).2.Allowed (op.command (getCVAR addr) (getTID addr))) :
    ∃ n, Working n addr op cs ds (b.clock t) := by
  have hdrive : b.logic.masterDrive (b.bus t) =
      { next := .commandBegin op, insideReset := b.logic.insideReset, cmd := true, opcode := op.code
        cvar := getCVAR addr, tid := getTID addr } := by
    simp [UserLogic.masterDrive, h.state, h.quiet.done, h.bus]
  obtain ⟨hclock, hserving⟩ := h.toServing.clock (t := t) h.ack
  obtain ⟨hsent, haccepts, n, d, hfin, hd⟩ := Core.performs_command (x := b.logic.lines (b.bus t))
    h.quiet.state h.quiet.done (congrArg MasterDrive.cmd hdrive)
      (congrArg MasterDrive.opcode hdrive)
  have hcvar : (b.logic.lines (b.bus t)).cvar = getCVAR addr := congrArg MasterDrive.cvar hdrive
  have htid : (b.logic.lines (b.bus t)).tid = getTID addr := congrArg MasterDrive.tid hdrive
  have hcore : (b.advance t).logic.core = b.logic.core.clock (b.logic.lines (b.bus t)) := by
    simp [Bench.advance, UserLogic.clock, hdrive]
  rw [hcvar, htid] at haccepts hfin hd
  obtain ⟨hids, hlists⟩ := h.settled.lists.execute ha
  rw [hclock] at hserving ⊢
  refine ⟨n, hserving, ?_, ?_, _, _, d, hcore ▸ hfin, ?_, ?_, ?_⟩
  · rw [advance_state, hdrive]
  · rw [advance_ack, hdrive, Bool.false_and]
  · rw [WaitQueues.run_append, hd]
    exact hlists
  · have hsent' : (b.advance t).sent = b.sent := by
      simp [Bench.advance, UserLogic.sent, hsent]
    simp only [hsent', h.settled.sent, WaitQueues.run_append, WaitQueues.run, List.append_nil, hids]
  · simp [Bench.advance, haccepts, h.settled.executed]

lemma Working.clock_zero (h : Working 0 addr op cs ds b) : Finishing addr op cs ds (b.clock t) := by
  obtain ⟨hclock, hserving⟩ := h.toServing.clock (t := t) h.ack
  obtain ⟨x, ids, d, hfin, hsettled⟩ := h.finishes
  rw [hclock] at hserving ⊢
  cases hfin with
  | complete hstate hdone =>
    have hdrive : b.logic.masterDrive (b.bus t) =
        { next := .commandFinish op, insideReset := b.logic.insideReset } := by
      simp [UserLogic.masterDrive, h.state, hdone]
    have hcore : (b.advance t).logic.core =
        ⟨{ b.logic.core.regs with state := .returnToIdle, done := false }, b.logic.core.table⟩ := by
      simp [Bench.advance, UserLogic.clock, hdrive, Core.clock, Core.driven, drive, hstate]
    have hsent : b.logic.core.sent (b.logic.lines (b.bus t)) = none := by
      simp [Core.sent, Core.driven, drive, hstate]
    refine ⟨hserving, ?_, ?_, ?_, ?_, ?_, ?_⟩
    · rw [advance_state, hdrive]
    · rw [advance_ack, hdrive, Bool.false_and]
    · rw [hcore]
      exact ⟨rfl, rfl⟩
    · rw [hcore]
      exact hsettled.lists
    · simpa [Bench.advance, UserLogic.sent, hsent] using hsettled.sent
    · simpa [Bench.advance, Core.accepts, hstate] using hsettled.executed

lemma Working.clock_succ (h : Working (n + 1) addr op cs ds b) :
    Working n addr op cs ds (b.clock t) ∨
      t.full = true ∧ Working (n + 1) addr op cs ds (b.clock t) := by
  obtain ⟨hclock, hserving⟩ := h.toServing.clock (t := t) h.ack
  obtain ⟨x, ids, d, hfin, hsettled⟩ := h.finishes
  rw [hclock] at hserving ⊢
  cases hfin with
  | @cycle _ _ _ ids hbusy hdone hfin =>
    have hdrive : b.logic.masterDrive (b.bus t) =
        { next := .commandBegin op, insideReset := b.logic.insideReset, cmd := true
          opcode := op.code, cvar := getCVAR addr, tid := getTID addr } := by
      simp [UserLogic.masterDrive, h.state, hdone, h.bus]
    have hcore : (b.advance t).logic.core = b.logic.core.clock (b.logic.lines (b.bus t)) := by
      simp [Bench.advance, UserLogic.clock, hdrive]
    have hfull : (b.logic.lines (b.bus t)).full = t.full := by
      simp [UserLogic.lines, h.bus]
    have hnone : b.logic.core.accepts (b.logic.lines (b.bus t)) = none := by
      have hidle : b.logic.core.regs.state ≠ .idle := by
        intro heq
        rw [heq] at hbusy
        cases hbusy
      simp [Core.accepts, hidle]
    have hexecuted : (b.advance t).executed = b.executed := by
      simp [Bench.advance, hnone]
    have hstate : (b.advance t).logic.state = .commandBegin op := by
      rw [advance_state, hdrive]
    have hack : (b.advance t).logic.ack = false := by
      rw [advance_ack, hdrive, Bool.false_and]
    by_cases hstall : b.logic.core.regs.state.stalls = true ∧ t.full = true
    · obtain ⟨hsame, hsent⟩ := Core.clock_stalled hstall.1 (hfull.trans hstall.2)
      have hsent' : (b.advance t).sent = b.sent := by
        simp [Bench.advance, UserLogic.sent, hsent]
      refine .inr
        ⟨hstall.2, hserving, hstate, hack, x, (b.logic.core.sent x.open).toList ++ ids, d, ?_,
        hsettled.lists, ?_, ?_⟩
      · rw [hcore, hsame]
        exact .cycle hbusy hdone hfin
      · rw [← hsettled.sent, hsent']
      · rw [← hsettled.executed, ← hexecuted]
    · have hgoes : b.logic.core.regs.state.stalls = false ∨
          (b.logic.lines (b.bus t)).full = false := by
        rw [hfull]
        cases hs : b.logic.core.regs.state.stalls <;> simp_all
      obtain ⟨hsame, hsent⟩ := Core.clock_open (y := x) hbusy hgoes
      have hsent' : (b.advance t).sent = b.sent ++ (b.logic.core.sent x.open).toList := by
        simp [Bench.advance, UserLogic.sent, hsent]
      refine .inl ⟨hserving, hstate, hack, x, ids, d, ?_, hsettled.lists, ?_, ?_⟩
      · rw [hcore, hsame]
        exact hfin
      · rw [← hsettled.sent, hsent', List.append_assoc]
      · rw [← hsettled.executed, ← hexecuted]

lemma Finishing.clock (h : Finishing addr op cs ds b) : Answered addr op cs ds (b.clock t) := by
  obtain ⟨hclock, hserving⟩ := h.toServing.clock (t := t) h.ack
  obtain ⟨hstate, hdone⟩ := h.core
  have hdrive : b.logic.masterDrive (b.bus t) =
      { next := .waitTransDone, insideReset := b.logic.insideReset, dataReady := true
        ackReady := true } := by
    simp [UserLogic.masterDrive, h.state]
  have hcmd : (b.logic.lines (b.bus t)).cmd = false := congrArg MasterDrive.cmd hdrive
  have hcore : (b.advance t).logic.core =
      ⟨{ b.logic.core.regs with state := .idle }, b.logic.core.table⟩ := by
    simp [Bench.advance, UserLogic.clock, hdrive, Core.clock, Core.driven, drive, hstate, hcmd]
  have hsent : b.logic.core.sent (b.logic.lines (b.bus t)) = none := by
    simp [Core.sent, Core.driven, drive, hstate]
  rw [hclock] at hserving ⊢
  refine ⟨hserving, ?_, ?_, ?_, ?_, ?_, ?_⟩
  · rw [advance_state, hdrive]
  · rw [advance_ack, hdrive, Bool.true_and]
  · rw [hcore]
    exact ⟨rfl, hdone⟩
  · rw [hcore]
    exact h.settled.lists
  · simpa [Bench.advance, UserLogic.sent, hsent] using h.settled.sent
  · simpa [Bench.advance, Core.accepts, hstate] using h.settled.executed

lemma masterDrive_waitTransDone (hstate : b.logic.state = .waitTransDone) :
    b.logic.masterDrive (b.bus t) =
      { next := if !(b.bus t).rdCE && !(b.bus t).wrCE then .idle else .waitTransDone
        insideReset := b.logic.insideReset } := by
  simp [UserLogic.masterDrive, hstate]

lemma Answered.clock (h : Answered addr op cs ds b) :
    t.hold = true ∧
      Held addr (cs ++ [op.command (getCVAR addr) (getTID addr)]) ds (b.clock t) ∨
    Resting (cs ++ [op.command (getCVAR addr) (getTID addr)]) ds (b.clock t) := by
  have hdrive := masterDrive_waitTransDone (t := t) h.state
  obtain ⟨hcore, hsettled⟩ := h.settled.advance h.quiet (congrArg MasterDrive.cmd hdrive)
    (congrArg MasterDrive.resetSig hdrive)
  have hquiet := h.quiet
  rw [← hcore] at hquiet
  have hclock : b.clock t =
      { b.advance t with phase := Bench.release t.hold addr, answered := b.answered + 1 } := by
    simp [Bench.clock, h.phase, h.ack]
  have hstate : (b.advance t).logic.state = .waitTransDone := by
    rw [advance_state, hdrive, h.bus]
    rfl
  have hack : (b.advance t).logic.ack = false := by
    rw [advance_ack, hdrive, Bool.false_and]
  have hanswered : b.answered + 1 = (cs ++ [op.command (getCVAR addr) (getTID addr)]).length := by
    rw [h.answered, List.length_append, List.length_singleton]
  have hsettled' : Settled (cs ++ [op.command (getCVAR addr) (getTID addr)])
      { b.advance t with phase := Bench.release t.hold addr, answered := b.answered + 1 } :=
    ⟨hsettled.lists, hsettled.sent, hsettled.executed⟩
  rw [hclock]
  cases hhold : t.hold with
  | true =>
    rw [hhold] at hsettled'
    exact .inl ⟨rfl, rfl, h.pending, hanswered, hack, hquiet, hsettled', hstate⟩
  | false =>
    rw [hhold] at hsettled'
    exact .inr ⟨rfl, h.pending, hanswered, hack, hquiet, hsettled', .inr hstate⟩

lemma Held.clock (h : Held addr cs ds b) :
    t.hold = true ∧ Held addr cs ds (b.clock t) ∨ Resting cs ds (b.clock t) := by
  have hdrive := masterDrive_waitTransDone (t := t) h.state
  obtain ⟨hcore, hsettled⟩ := h.settled.advance h.quiet (congrArg MasterDrive.cmd hdrive)
    (congrArg MasterDrive.resetSig hdrive)
  have hquiet := h.quiet
  rw [← hcore] at hquiet
  have hclock : b.clock t = { b.advance t with phase := Bench.release t.hold addr } := by
    simp [Bench.clock, h.phase]
  have hstate : (b.advance t).logic.state = .waitTransDone := by
    rw [advance_state, hdrive]
    simp [Bench.bus, h.phase]
  have hack : (b.advance t).logic.ack = false := by
    rw [advance_ack, hdrive, Bool.false_and]
  have hsettled' : Settled cs { b.advance t with phase := Bench.release t.hold addr } :=
    ⟨hsettled.lists, hsettled.sent, hsettled.executed⟩
  rw [hclock]
  cases hhold : t.hold with
  | true =>
    rw [hhold] at hsettled'
    exact .inl ⟨rfl, rfl, h.pending, h.answered, hack, hquiet, hsettled', hstate⟩
  | false =>
    rw [hhold] at hsettled'
    exact .inr ⟨rfl, h.pending, h.answered, hack, hquiet, hsettled', .inr hstate⟩

lemma Resting.advance (h : Resting cs ds b) :
    (b.advance t).logic.state = .idle ∧ (b.advance t).logic.requests = .none ∧
      (b.advance t).logic.ack = false ∧ (b.advance t).logic.core.Quiet ∧
        Settled cs (b.advance t) := by
  have hdrive : b.logic.masterDrive (b.bus t) =
      { next := .idle, insideReset := b.logic.insideReset } := by
    rcases h.ready with ⟨hstate, hreq⟩ | hstate
    · simp [UserLogic.masterDrive, hstate, hreq, Requests.none]
    · simp [UserLogic.masterDrive, hstate, Bench.bus, h.phase]
  obtain ⟨hcore, hsettled⟩ := h.settled.advance h.quiet (congrArg MasterDrive.cmd hdrive)
    (congrArg MasterDrive.resetSig hdrive)
  refine ⟨?_, ?_, ?_, ?_, hsettled⟩
  · rw [advance_state, hdrive]
  · simp [Bench.advance, UserLogic.clock, busCmdProc, Bench.bus, h.phase]
  · rw [advance_ack, hdrive, Bool.false_and]
  · rw [hcore]
    exact h.quiet

lemma Resting.clock (h : Resting cs ds b) :
    (t.start = false ∨ ds = []) ∧ Resting cs ds (b.clock t) ∨
    ∃ addr op es, ds = op.command (getCVAR addr) (getTID addr) :: es ∧
      Waiting .idle addr op cs es (b.clock t) ∧ (b.clock t).logic.requests = .none := by
  obtain ⟨hstate, hreq, hack, hquiet, hsettled⟩ := h.advance (t := t)
  have hrests : Resting cs ds (b.advance t) :=
    ⟨h.phase, h.pending, h.answered, hack, hquiet, hsettled, .inl ⟨hstate, hreq⟩⟩
  cases hpending : b.pending with
  | nil =>
    have hclock : b.clock t = b.advance t := by
      simp [Bench.clock, h.phase, hpending]
    have hnil : ds = [] := by
      have hmap := h.pending
      rw [hpending] at hmap
      exact List.map_eq_nil_iff.mp hmap.symm
    rw [hclock]
    exact .inl ⟨.inr hnil, hrests⟩
  | cons addr rest =>
    cases hstart : t.start with
    | false =>
      have hclock : b.clock t = b.advance t := by
        simp [Bench.clock, h.phase, hpending, hstart]
      rw [hclock]
      exact .inl ⟨.inl rfl, hrests⟩
    | true =>
      have hclock : b.clock t =
          { b.advance t with phase := .asserting addr, pending := rest } := by
        simp [Bench.clock, h.phase, hpending, hstart]
      have hmap := h.pending
      rw [hpending] at hmap
      obtain ⟨c, es, rfl, hc, hrest⟩ := List.map_eq_cons_iff.mp hmap.symm
      obtain ⟨op, hop, rfl⟩ := Option.map_eq_some_iff.mp hc.symm
      rw [hclock]
      refine .inr
        ⟨addr, op, es, rfl, ⟨⟨rfl, hop, hrest.symm, h.answered⟩, hstate, hack, hquiet, ?_⟩, hreq⟩
      exact ⟨hsettled.lists, hsettled.sent, hsettled.executed⟩

end Cycles

end Hthreads.CondVars
