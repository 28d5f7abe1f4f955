import Hthreads.CondVars.Reset
import Hthreads.Library.Cycles

/-! Sequences of bus transactions, and the wait queues they implement. -/

namespace Hthreads.CondVars

open Library Scheduler

/-- Where the bench stands after `cs` has been answered while `ds` is still to come. -/
inductive Stage (b : Bench) : List Command → List Command → Prop
  | resting {cs ds : List Command} : Resting cs ds b → Stage b cs ds
  | held {addr : Word} {cs ds : List Command} : Held addr cs ds b → Stage b cs ds
  | asked {addr : Word} {op : Op} {cs ds : List Command} : Waiting .idle addr op cs ds b →
      b.logic.requests = .none → Stage b cs (op.command (getCVAR addr) (getTID addr) :: ds)
  | decoded {addr : Word} {op : Op} {cs ds : List Command} : Waiting .idle addr op cs ds b →
      b.logic.requests = .of op → Stage b cs (op.command (getCVAR addr) (getTID addr) :: ds)
  | begun {addr : Word} {op : Op} {cs ds : List Command} :
      Waiting (.commandBegin op) addr op cs ds b →
      Stage b cs (op.command (getCVAR addr) (getTID addr) :: ds)
  | working {n : ℕ} {addr : Word} {op : Op} {cs ds : List Command} : Working n addr op cs ds b →
      Stage b cs (op.command (getCVAR addr) (getTID addr) :: ds)
  | finishing {addr : Word} {op : Op} {cs ds : List Command} : Finishing addr op cs ds b →
      Stage b cs (op.command (getCVAR addr) (getTID addr) :: ds)
  | answered {addr : Word} {op : Op} {cs ds : List Command} : Answered addr op cs ds b →
      Stage b cs (op.command (getCVAR addr) (getTID addr) :: ds)

lemma allowed_of_disciplined {cs ds : List Command} {c : Command}
    (h : WaitQueues.initial.Disciplined (cs ++ c :: ds)) :
    (WaitQueues.initial.run cs).2.Allowed c :=
  (WaitQueues.Disciplined.append h).1

lemma Stage.clock {b : Bench} {cs ds : List Command} (h : Stage b cs ds)
    (hdis : WaitQueues.initial.Disciplined (cs ++ ds)) (t : Tick) :
    ∃ cs' ds', cs' ++ ds' = cs ++ ds ∧ Stage (b.clock t) cs' ds' := by
  cases h with
  | resting h =>
    rcases h.clock (t := t) with ⟨-, h⟩ | ⟨addr, op, es, rfl, h, hreq⟩
    · exact ⟨cs, ds, rfl, .resting h⟩
    · exact ⟨cs, _, rfl, .asked h hreq⟩
  | held h =>
    rcases h.clock (t := t) with ⟨-, h⟩ | h
    · exact ⟨cs, ds, rfl, .held h⟩
    · exact ⟨cs, ds, rfl, .resting h⟩
  | asked h hreq =>
    obtain ⟨h, hreq⟩ := h.clock_asked (t := t) hreq
    exact ⟨cs, _, rfl, .decoded h hreq⟩
  | decoded h hreq => exact ⟨cs, _, rfl, .begun (h.clock_decoded hreq)⟩
  | begun h =>
    obtain ⟨n, h⟩ := h.clock_begun (t := t) (allowed_of_disciplined hdis)
    exact ⟨cs, _, rfl, .working h⟩
  | @working n _ _ _ _ h =>
    cases n with
    | zero => exact ⟨cs, _, rfl, .finishing h.clock_zero⟩
    | succ n =>
      rcases h.clock_succ (t := t) with h | ⟨-, h⟩
      · exact ⟨cs, _, rfl, .working h⟩
      · exact ⟨cs, _, rfl, .working h⟩
  | finishing h => exact ⟨cs, _, rfl, .answered h.clock⟩
  | @answered _ _ _ ds h =>
    rcases h.clock (t := t) with ⟨-, h⟩ | h
    · exact ⟨_, ds, by simp, .held h⟩
    · exact ⟨_, ds, by simp, .resting h⟩

/-- What the bus and the channel have seen of a sequence of commands. -/
structure Accounts (cs : List Command) (b : Bench) : Prop where
  sent : b.sent <+: (WaitQueues.initial.run cs).1
  executed : b.executed = cs.take b.answered ∨ b.executed = cs.take (b.answered + 1)
  answered : b.answered ≤ cs.length
  closed : b.phase = .idle → Settled (cs.take b.answered) b

lemma run_isPrefix (cs ds : List Command) :
    (WaitQueues.initial.run cs).1 <+: (WaitQueues.initial.run (cs ++ ds)).1 := by
  rw [WaitQueues.run_append]
  exact List.prefix_append _ _

lemma Settled.accounts {b : Bench} {cs ds : List Command} (h : Settled cs b)
    (hanswered : b.answered = cs.length) : Accounts (cs ++ ds) b := by
  have htake : (cs ++ ds).take b.answered = cs := by
    rw [hanswered, List.take_left]
  refine ⟨?_, .inl ?_, ?_, fun _ => ?_⟩
  · rw [h.sent]
    exact run_isPrefix cs ds
  · rw [htake, h.executed]
  · rw [hanswered, List.length_append]
    exact Nat.le_add_right _ _
  · rw [htake]
    exact h

lemma Serving.accounts {b : Bench} {addr : Word} {op : Op} {cs ds : List Command} {c : Command}
    (h : Serving addr op cs ds b) (hsent : b.sent <+: (WaitQueues.initial.run (cs ++ [c])).1)
    (hexecuted : b.executed = cs ++ [c]) : Accounts (cs ++ c :: ds) b := by
  have happend : cs ++ c :: ds = (cs ++ [c]) ++ ds := by
    rw [List.append_assoc, List.singleton_append]
  refine ⟨?_, .inr ?_, ?_, fun hidle => ?_⟩
  · rw [happend]
    exact hsent.trans (run_isPrefix _ ds)
  · have hlength : b.answered + 1 = (cs ++ [c]).length := by
      rw [h.answered, List.length_append, List.length_singleton]
    rw [happend, hlength, List.take_left, hexecuted]
  · rw [h.answered, List.length_append]
    exact Nat.le_add_right _ _
  · rw [h.phase] at hidle
    cases hidle

lemma Stage.accounts {b : Bench} {cs ds : List Command} (h : Stage b cs ds) :
    Accounts (cs ++ ds) b := by
  cases h with
  | resting h => exact h.settled.accounts h.answered
  | held h => exact h.settled.accounts h.answered
  | asked h _ => exact h.settled.accounts h.answered
  | decoded h _ => exact h.settled.accounts h.answered
  | begun h => exact h.settled.accounts h.answered
  | working h =>
    obtain ⟨x, ids, d, -, hsettled⟩ := h.finishes
    refine h.toServing.accounts ?_ hsettled.executed
    rw [← hsettled.sent]
    exact List.prefix_append _ _
  | finishing h => exact h.toServing.accounts (by rw [h.settled.sent]) h.settled.executed
  | answered h => exact h.toServing.accounts (by rw [h.settled.sent]) h.settled.executed

section Progress

/-- The channel does not stay full, and the bus goes on. -/
structure Fair (ticks : ℕ → Tick) : Prop where
  drains : ∀ n, ∃ m ≥ n, (ticks m).full = false
  starts : ∀ n, ∃ m ≥ n, (ticks m).start = true
  releases : ∀ n, ∃ m ≥ n, (ticks m).hold = false

variable {b : Bench} {ticks : ℕ → Tick} {addr : Word} {op : Op} {cs ds : List Command} {k : ℕ}

lemma finishing_of_working (hfair : Fair ticks) {n : ℕ}
    (h : Working n addr op cs ds (b.run ticks k)) :
    ∃ m ≥ k, Finishing addr op cs ds (b.run ticks m) := by
  induction n generalizing k with
  | zero => exact ⟨k + 1, Nat.le_succ k, h.clock_zero⟩
  | succ n ih =>
    refine leadsTo_trans (leadsTo_of_helpful (hfair.drains k) (P := Working (n + 1) addr op cs ds)
      (R := Working n addr op cs ds) ?_ ?_ h) fun j hj => ih hj
    · intro j hj
      rcases hj.clock_succ (t := ticks j) with hn | ⟨-, hn⟩
      · exact .inr hn
      · exact .inl hn
    · intro j hfull hj
      rcases hj.clock_succ (t := ticks j) with hn | ⟨htrue, -⟩
      · exact hn
      · rw [hfull] at htrue
        cases htrue

lemma resting_of_held (hfair : Fair ticks) (h : Held addr cs ds (b.run ticks k)) :
    ∃ m ≥ k, Resting cs ds (b.run ticks m) := by
  refine leadsTo_of_helpful (hfair.releases k) (P := Held addr cs ds) ?_ ?_ h
  · intro j hj
    rcases hj.clock (t := ticks j) with ⟨-, hn⟩ | hn
    · exact .inl hn
    · exact .inr hn
  · intro j hhold hj
    rcases hj.clock (t := ticks j) with ⟨htrue, -⟩ | hn
    · rw [hhold] at htrue
      cases htrue
    · exact hn

lemma asked_of_resting {c : Command} (hfair : Fair ticks)
    (h : Resting cs (c :: ds) (b.run ticks k)) :
    ∃ m ≥ k, ∃ addr op, c = op.command (getCVAR addr) (getTID addr) ∧
      Waiting .idle addr op cs ds (b.run ticks m) ∧
      (b.run ticks m).logic.requests = .none := by
  refine leadsTo_of_helpful (s := fun j => b.run ticks j) (hfair.starts k)
    (P := Resting cs (c :: ds))
    (R := fun d => ∃ addr op, c = op.command (getCVAR addr) (getTID addr) ∧
      Waiting .idle addr op cs ds d ∧ d.logic.requests = .none) ?_ ?_ h
  · intro j hj
    rcases hj.clock (t := ticks j) with ⟨-, hn⟩ | ⟨addr, op, es, heq, hn, hreq⟩
    · exact .inl hn
    · obtain ⟨rfl, rfl⟩ := List.cons.inj heq
      exact .inr ⟨addr, op, rfl, hn, hreq⟩
  · intro j hstart hj
    rcases hj.clock (t := ticks j) with ⟨hnot | hnot, -⟩ | ⟨addr, op, es, heq, hn, hreq⟩
    · rw [hstart] at hnot
      cases hnot
    · cases hnot
    · obtain ⟨rfl, rfl⟩ := List.cons.inj heq
      exact ⟨addr, op, rfl, hn, hreq⟩

lemma resting_of_resting {c : Command} (hfair : Fair ticks)
    (hallowed : (WaitQueues.initial.run cs).2.Allowed c)
    (h : Resting cs (c :: ds) (b.run ticks k)) :
    ∃ m ≥ k, Resting (cs ++ [c]) ds (b.run ticks m) := by
  obtain ⟨j, hj, addr, op, rfl, hasked, hreq⟩ := asked_of_resting hfair h
  obtain ⟨hdecoded, hreq⟩ := hasked.clock_asked (t := ticks j) hreq
  have hbegun := hdecoded.clock_decoded (t := ticks (j + 1)) hreq
  obtain ⟨n, hworking⟩ := hbegun.clock_begun (t := ticks (j + 2)) hallowed
  obtain ⟨i, hi, hfinishing⟩ := finishing_of_working (k := j + 3) hfair hworking
  have hanswered := hfinishing.clock (t := ticks i)
  rcases hanswered.clock (t := ticks (i + 1)) with ⟨-, hheld⟩ | hrest
  · obtain ⟨m, hm, hrest⟩ := resting_of_held (k := i + 2) hfair hheld
    exact ⟨m, by omega, hrest⟩
  · exact ⟨i + 2, by omega, hrest⟩

lemma resting_at_end (hfair : Fair ticks) (hdis : WaitQueues.initial.Disciplined (cs ++ ds))
    (h : Resting cs ds (b.run ticks k)) :
    ∃ m, Resting (cs ++ ds) [] (b.run ticks m) := by
  induction ds generalizing cs k with
  | nil =>
    rw [List.append_nil]
    exact ⟨k, h⟩
  | cons c ds ih =>
    obtain ⟨m, -, hrest⟩ := resting_of_resting hfair (allowed_of_disciplined hdis) h
    have happend : cs ++ c :: ds = (cs ++ [c]) ++ ds := by
      rw [List.append_assoc, List.singleton_append]
    rw [happend] at hdis ⊢
    exact ih hdis hrest

end Progress

/-- The interface after the initialisation of the table, before its first transaction. -/
structure Bench.Blank (b : Bench) : Prop where
  logic : b.logic.Ready
  phase : b.phase = .idle
  answered : b.answered = 0
  sent : b.sent = []
  executed : b.executed = []

lemma Bench.Blank.resting {b : Bench} (h : b.Blank) {cs : List Command}
    (hpending : b.pending.map command = cs.map some) : Resting [] cs b :=
  ⟨h.phase, hpending, h.answered, h.logic.ack, h.logic.quiet,
    ⟨represents_initial h.logic.table, h.sent, h.executed⟩, .inl ⟨h.logic.state, h.logic.requests⟩⟩

lemma stage_run {b : Bench} (h : b.Blank) {cs : List Command}
    (hpending : b.pending.map command = cs.map some) (hcs : WaitQueues.initial.Disciplined cs)
    (ticks : ℕ → Tick) (n : ℕ) : ∃ ds es, ds ++ es = cs ∧ Stage (b.run ticks n) ds es := by
  induction n with
  | zero => exact ⟨[], cs, rfl, .resting (h.resting hpending)⟩
  | succ n ih =>
    obtain ⟨ds, es, rfl, hstage⟩ := ih
    exact hstage.clock hcs (ticks n)

def Command.cvar : Command → Cvar
  | wait cvar _ => cvar
  | signal cvar => cvar
  | broadcast cvar => cvar

lemma WaitQueues.step_of_ne (Q : WaitQueues) (c : Command) {w : Cvar} (hw : w ≠ c.cvar) :
    (Q.step c).2 w = Q w := by
  cases c <;> exact Function.update_of_ne hw _ _

def Bench.waiters (b : Bench) : WaitQueues := b.logic.core.contents.lists.waiters

/-- The condition variable core implements first-in first-out wait queues. At every cycle the ids
written to the channel begin the sequence that the queues emit, and no command has been executed
twice or out of turn; between transactions the queues are those of the commands answered. If the
channel drains and the bus goes on, all commands are answered. -/
theorem cond_vars_refine_wait_queues (b : Bench) (hb : b.Blank) (cs : List Command)
    (hpending : b.pending.map command = cs.map some) (hcs : WaitQueues.initial.Disciplined cs)
    (ticks : ℕ → Tick) :
    (∀ n, (b.run ticks n).sent <+: (WaitQueues.initial.run cs).1 ∧
      ((b.run ticks n).executed = cs.take (b.run ticks n).answered ∨
        (b.run ticks n).executed = cs.take ((b.run ticks n).answered + 1)) ∧
      ((b.run ticks n).phase = .idle →
        (b.run ticks n).executed = cs.take (b.run ticks n).answered ∧
        (b.run ticks n).sent = (WaitQueues.initial.run (cs.take (b.run ticks n).answered)).1 ∧
        (b.run ticks n).waiters = (WaitQueues.initial.run (cs.take (b.run ticks n).answered)).2)) ∧
    (∀ n m, (b.run ticks n).phase = .idle → (b.run ticks m).phase = .idle →
      (b.run ticks m).answered = (b.run ticks n).answered + 1 →
      ∀ c, cs[(b.run ticks n).answered]? = some c → ∀ w ≠ c.cvar,
        (b.run ticks m).waiters w = (b.run ticks n).waiters w) ∧
    (Fair ticks → ∃ n, (b.run ticks n).answered = cs.length ∧ (b.run ticks n).executed = cs ∧
      (b.run ticks n).sent = (WaitQueues.initial.run cs).1 ∧
      (b.run ticks n).waiters = (WaitQueues.initial.run cs).2) := by
  have haccounts : ∀ n, Accounts cs (b.run ticks n) := by
    intro n
    obtain ⟨ds, es, rfl, hstage⟩ := stage_run hb hpending hcs ticks n
    exact hstage.accounts
  refine ⟨fun n => ?_, fun n m hn hm hnext c hc w hw => ?_, fun hfair => ?_⟩
  · refine ⟨(haccounts n).sent, (haccounts n).executed, fun hidle => ?_⟩
    have hsettled := (haccounts n).closed hidle
    exact ⟨hsettled.executed, hsettled.sent, hsettled.lists.waiters⟩
  · have hbefore := ((haccounts n).closed hn).lists.waiters
    have hafter := ((haccounts m).closed hm).lists.waiters
    rw [hnext, List.take_add_one, hc, Option.toList_some, WaitQueues.run_append] at hafter
    rw [Bench.waiters, Bench.waiters, hbefore, hafter]
    exact WaitQueues.step_of_ne _ c hw
  · have hdis : WaitQueues.initial.Disciplined ([] ++ cs) := hcs
    obtain ⟨n, hrest⟩ := resting_at_end (k := 0) hfair hdis (hb.resting hpending)
    rw [List.nil_append] at hrest
    exact ⟨n, hrest.answered, hrest.settled.executed, hrest.settled.sent,
      hrest.settled.lists.waiters⟩

def UserLogic.powerUp : UserLogic :=
  ⟨.idle, false, .none, false, 0, ⟨⟨.reset, 0, 0, 0, 0, false⟩, ⟨fun _ => 0xA5, 0, 0⟩⟩⟩

-- threads 5 and 7 wait on one variable and thread 9 on another while the channel stalls
theorem cond_vars_wake_three :
    ∃ n, ((⟨(UserLogic.powerUp.runReset (fun _ => false) 2052).clock
        (UserLogic.resetBus false false), .idle,
      [0x40504, 0x40704, 0x40908, 0x20004, 0x40504, 0x60004, 0x20008], 0, [], []⟩ : Bench).run
        (fun n => ⟨n % 3 != 0, n % 2 == 0, n % 5 != 0⟩) n).sent = [5, 7, 5, 9] := by
  have hready := UserLogic.ready_after_reset (u := .powerUp) (f := fun _ => false) rfl le_rfl false
  have hfair : Fair fun n => ⟨n % 3 != 0, n % 2 == 0, n % 5 != 0⟩ := by
    refine ⟨fun n => ⟨3 * n, by omega, by simp⟩, fun n => ⟨2 * n, by omega, by simp⟩,
      fun n => ⟨5 * n, by omega, by simp⟩⟩
  obtain ⟨-, -, hlive⟩ := cond_vars_refine_wait_queues
    ⟨(UserLogic.powerUp.runReset (fun _ => false) 2052).clock (UserLogic.resetBus false false),
      .idle, [0x40504, 0x40704, 0x40908, 0x20004, 0x40504, 0x60004, 0x20008], 0, [], []⟩
    ⟨hready, rfl, rfl, rfl, rfl⟩
    [.wait 1 5, .wait 1 7, .wait 2 9, .signal 1, .wait 1 5, .broadcast 1, .signal 2]
    (by decide) (by decide) (fun n => ⟨n % 3 != 0, n % 2 == 0, n % 5 != 0⟩)
  obtain ⟨n, -, -, hsent, -⟩ := hlive hfair
  exact ⟨n, hsent⟩

end Hthreads.CondVars
