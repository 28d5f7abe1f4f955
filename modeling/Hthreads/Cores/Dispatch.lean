import Hthreads.Cores.Runs
import Hthreads.Scheduler.Front
import Hthreads.ThreadManager.Installing

/-! Dispatches interleaved with commands on the scheduler's own bus. Between two cycles of the
thread manager the scheduler may execute any of them. -/

namespace Hthreads.Cores

open Library Library.BitFields Scheduler ThreadManager

inductive BusCommand
  | setSchedParam (tid : ThreadId) (param : Word)
  | setIdleThread (tid : ThreadId)
  | getSchedParam (tid : ThreadId)
  | checkSchedParam (tid : ThreadId)
  | getEntry (tid : ThreadId)

def BusCommand.toCommand : BusCommand → Scheduler.Command
  | setSchedParam tid param => .setSchedParam tid param
  | setIdleThread tid => .setIdleThread tid
  | getSchedParam tid => .getSchedParam tid
  | checkSchedParam tid => .checkSchedParam tid
  | getEntry tid => .getEntry tid

/-- A cycle of the thread manager, or a bus command of the scheduler with what the thread manager
showed while it ran. -/
inductive Turn
  | cycle (l : BusLines)
  | bus (e : Environment) (cmd : BusCommand)

-- no reset of the board and no write, so no soft reset either
def Turn.Orderly : Turn → Prop
  | cycle l => l.bus2ipReset = false ∧ l.bus2ipWrCE = false
  | bus _ _ => True

namespace Managed

def turn : Turn → Managed → Managed
  | .cycle l, a => a.clock l
  | .bus e cmd, a => { a with ready := cmd.toCommand.effect e a.ready }

def environment (a : Managed) : Environment where
  currentCpuTid := a.tm.regs.cpuThreadId
  swtm tid := a.tm.threadTable.data (threadAddr tid)

inductive Interleaved (guard : Turn → Managed → Prop) : Managed → Prop
  | reset {a a' : Managed} : a.AtRest → a.softReset = some a' → Interleaved guard a'
  | turn {a : Managed} (t : Turn) :
    Interleaved guard a → t.Orderly → guard t a → Interleaved guard (a.turn t)

end Managed

-- every bus command at any time, with the thread manager as it is then
def trueTurn : Turn → Managed → Prop
  | .bus e _, a => e = a.environment
  | .cycle _, _ => True

/-- ENQUEUE meets a thread that is not queued. SET_SCHEDPARAM moves a queued thread only from
where its links can be followed, and the thread that is being dispatched only into a list of its
own. -/
def dispatchGuard : Turn → Managed → Prop
  | .cycle _, a => a.tm.regs.currentState = .waitAck .enqueue →
    a.ready.queued a.tm.regs.tm2schData = false
  | .bus e (.setSchedParam tid param), a => isSoftwareParam param = true →
    schedParamAllowed (e.swtm tid) tid e.currentCpuTid = true → a.ready.queued tid = true →
    a.ready.Movable a.ready.readyList tid (paramPriority param) ∧
      (a.tm.regs.currentState.installed = true → tid = a.tm.regs.cpuThreadId →
        ∀ u ∈ a.ready.readyList (paramPriority param), u = tid)
  | .bus _ _, _ => True

-- the thread manager asks and will look at the answer, or it does not ask
inductive Polite (r : ThreadManager.Registers) : Prop
  | asks (op : TmRequest) : r.currentState = .waitAck op → r.returnState.tests = some op → Polite r
  | works : r.currentState.waiting = false → r.tm2schRequest = false → Polite r

structure Dispatching (a : Managed) : Prop where
  intact : Intact a.ready
  polite : Polite a.tm.regs
  front : a.tm.regs.currentState.installed = true → Front a.ready a.tm.regs.cpuThreadId

section Turns

variable {a : Managed}

lemma installed_of_tests {s : SwtmState} {op : TmRequest} (h : s.tests = some op) :
    s.installed = false ∧ s.waiting = false := by
  cases s with
  | yieldThread s =>
    cases s with
    | checkQueueEmpty | checkEnqueue | checkDequeue => exact ⟨rfl, rfl⟩
    | init | currentThreadRdWait | currentThreadAvailable | enqueue | dequeue => cases h
  | waitAck op | waitComplete op => cases h
  | isQueued s | addThread s | exitThread s | nextThread s => exact ⟨rfl, rfl⟩
  | idleState | softReset s | readThread s | createThread s | clearThread s | joinThread s
  | isDetached s | raiseException | endTransaction | endTransactionWait => cases h

lemma Dispatching.serve (h : Dispatching a) {op : TmRequest}
    (hs : a.tm.regs.currentState = .waitAck op)
    (hq : op = .enqueue → a.ready.queued a.tm.regs.tm2schData = false) :
    Dispatching (a.serve op) := by
  have htests : a.tm.regs.returnState.tests = some op := by
    rcases h.polite with ⟨op', hs', ht⟩ | ⟨hw, -⟩
    · rw [hs] at hs'
      cases hs'
      exact ht
    · rw [hs] at hw
      cases hw
  obtain ⟨hnot, hwait⟩ := installed_of_tests htests
  refine ⟨?_, .works hwait rfl, fun hin => ?_⟩
  · cases op with
    | enqueue => exact h.intact.enqueue (hq rfl)
    | dequeue => exact h.intact.dequeue_front (h.front (by rw [hs]; rfl))
    | isQueued => exact h.intact
    | isEmpty => exact h.intact
  · rw [show (a.serve op).tm.regs.currentState = a.tm.regs.returnState from rfl, hnot] at hin
    cases hin

lemma Dispatching.works (h : Dispatching a) {l : BusLines} (hl : l.bus2ipReset = false)
    (hw : a.tm.regs.currentState.waiting = false) (hr : a.tm.regs.tm2schRequest = false) :
    Dispatching (a.clock l) := by
  have hclock : a.clock l = { a with tm := a.tm.clock l a.sch2tm false } := by
    rw [Managed.clock]
    split
    · next hs =>
      rw [hs] at hw
      cases hw
    · rfl
  have hregs : (a.clock l).tm.regs = (swtmLogic (a.tm.signals l a.sch2tm) a.tm.regs).next := by
    simp only [hclock, Swtm.clock, Swtm.drive, hl, Bool.false_eq_true, if_false]
  have hready : (a.clock l).ready = a.ready := by rw [hclock]
  refine ⟨hready ▸ h.intact, ?_, ?_⟩
  · rw [hregs]
    rcases swtmLogic_outcome (x := a.tm.signals l a.sch2tm) hr
      hw with ⟨hw', -, hr'⟩ | ⟨op, hs, ht, -, -⟩
    · exact .works hw' hr'
    · exact .asks op hs ht
  · rw [hregs, hready]
    intro hin
    rcases swtmLogic_installs (x := a.tm.signals l a.sch2tm) hw with hother | hnext | ⟨hold, hcpu⟩
    · rw [hother] at hin
      cases hin
    · rw [hnext]
      exact h.intact.front_announced
    · rw [hcpu]
      exact h.front hold

lemma Dispatching.cycle (h : Dispatching a) {l : BusLines} (hl : l.bus2ipReset = false)
    (hg : dispatchGuard (.cycle l) a) : Dispatching (a.clock l) := by
  rcases h.polite with ⟨op, hs, -⟩ | ⟨hw, hr⟩
  · rw [Managed.clock, hs]
    refine h.serve hs ?_
    rintro rfl
    exact hg hs
  · exact h.works hl hw hr

lemma Dispatching.bus (h : Dispatching a) {e : Environment} {cmd : BusCommand}
    (hg : dispatchGuard (.bus e cmd) a) : Dispatching (a.turn (.bus e cmd)) := by
  cases cmd with
  | setSchedParam tid param =>
    refine ⟨h.intact.setSchedParam fun hs ha hq => (hg hs ha hq).1, h.polite, fun hin => ?_⟩
    exact (h.front hin).setSchedParam h.intact fun hs ha hq =>
      ⟨(hg hs ha hq).1, (hg hs ha hq).2 hin⟩
  | setIdleThread tid =>
    refine ⟨h.intact.setIdleThread (e.swtm tid), h.polite, fun hin => ?_⟩
    exact (h.front hin).congr (setIdleThread_readyList _ _ _)
  | getSchedParam tid => exact ⟨h.intact, h.polite, h.front⟩
  | checkSchedParam tid => exact ⟨h.intact, h.polite, h.front⟩
  | getEntry tid => exact ⟨h.intact, h.polite, h.front⟩

lemma dispatching_of_interleaved (h : a.Interleaved dispatchGuard) : Dispatching a := by
  induction h with
  | @reset a a' hrest hreset =>
    obtain ⟨c, hc, hcrest, hbooks⟩ := softReset_books hrest
    rw [hreset] at hc
    cases hc
    have hready : a'.ready = .initial := congrArg Books.ready hbooks
    refine ⟨hready ▸ intact_initial, .works ?_ hcrest.request, fun hin => ?_⟩
    · rw [hcrest.state]
      rfl
    · rw [hcrest.state] at hin
      cases hin
  | @turn a t _ horderly hg ih =>
    cases t with
    | cycle l => exact ih.cycle horderly.1 hg
    | bus e cmd => exact ih.bus hg

end Turns

/-- In an interleaved run that the guard lets through, the DEQUEUE of a dispatch takes exactly the
current thread out of the lists. -/
theorem dispatch_removes_installed (a : Managed) (ha : a.Interleaved dispatchGuard)
    (hs : a.tm.regs.currentState = .waitAck .dequeue) (l : BusLines) :
    RemovesExactly a.ready (a.clock l).ready a.tm.regs.cpuThreadId := by
  have h := dispatching_of_interleaved ha
  have hready : (a.clock l).ready = a.ready.dequeue a.tm.regs.cpuThreadId := by
    rw [Managed.clock, hs]
    rfl
  rw [hready]
  exact h.intact.dequeue_exact (h.front (by rw [hs]; rfl))

namespace Managed

def play : List Turn → Managed → Managed
  | [], a => a
  | t :: ts, a => play ts (a.turn t)

-- cycles alone, no ENQUEUE of a queued thread among them
def cyclesAllowed : List BusLines → Managed → Bool
  | [], _ => true
  | l :: ls, a => !l.bus2ipReset && !l.bus2ipWrCE &&
    !(a.inState (.waitAck .enqueue) && a.ready.queued a.tm.regs.tm2schData) &&
      cyclesAllowed ls (a.clock l)

def cycles (ls : List BusLines) (a : Managed) : Managed := a.play (ls.map .cycle)

lemma Interleaved.cycles {a : Managed} {ls : List BusLines} (h : a.Interleaved dispatchGuard)
    (hls : a.cyclesAllowed ls = true) : (a.cycles ls).Interleaved dispatchGuard := by
  induction ls generalizing a with
  | nil => exact h
  | cons l ls ih =>
    simp only [cyclesAllowed, Bool.and_eq_true, Bool.not_eq_true', Bool.and_eq_false_iff] at hls
    obtain ⟨⟨⟨hreset, hwrite⟩, hfree⟩, hls⟩ := hls
    refine ih (.turn (.cycle l) h ⟨hreset, hwrite⟩ fun hs => ?_) hls
    rcases hfree with hs' | hq
    · rw [inState, hs, beq_self_eq_true] at hs'
      cases hs'
    · exact hq

end Managed

-- the bus waits for the answer and lets go
def held (n : ℕ) (cmd : Command) : List BusLines := List.replicate n cmd.lines

def whole (n : ℕ) (cmd : Command) : List BusLines := held n cmd ++ [.quiet, .quiet]

-- threads 0 and 1 are queued, and NEXT has just installed thread 0
def untilInstalled : List BusLines :=
  whole 8 .createJ ++ whole 8 .createJ ++ whole 9 (.add 0) ++ whole 9 (.add 1) ++ held 4 .next

def zeroInstalled (b : Managed) : Bool :=
  b.inState (.waitAck .dequeue) && b.tm.regs.cpuThreadId == 0

lemma reset_installs : ∃ a, Managed.powerUp.softReset = some a ∧
    (a.cyclesAllowed untilInstalled = true ∧ zeroInstalled (a.cycles untilInstalled) = true ∧
      (a.cycles untilInstalled).ready.level 1 = 0x40 ∧
      (a.cycles untilInstalled).ready.prev 1 = 0 ∧
      (a.cycles untilInstalled).ready.readyList 0x40 = [0, 1]) := by
  obtain ⟨a, ha, -, -⟩ := softReset_books (a := .powerUp) ⟨rfl, rfl⟩
  refine ⟨a, ha, ?_⟩
  have hall : ∀ a ∈ Managed.powerUp.softReset, a.cyclesAllowed untilInstalled = true ∧
      zeroInstalled (a.cycles untilInstalled) = true ∧
      (a.cycles untilInstalled).ready.level 1 = 0x40 ∧
      (a.cycles untilInstalled).ready.prev 1 = 0 ∧
      (a.cycles untilInstalled).ready.readyList 0x40 = [0, 1] := by
    decide +kernel
  exact hall a ha

lemma interleaved_installs : ∃ b : Managed, b.Interleaved dispatchGuard ∧
    zeroInstalled b = true ∧ b.ready.level 1 = 0x40 ∧ b.ready.prev 1 = 0 ∧
      b.ready.readyList 0x40 = [0, 1] := by
  obtain ⟨a, ha, hls, hfacts⟩ := reset_installs
  exact ⟨_, .cycles (.reset ⟨rfl, rfl⟩ ha) hls, hfacts⟩

-- thread 1 leaves the list while thread 0 is being dispatched
theorem dispatch_removes_installed_sample : ∃ b : Managed, b.tm.regs.cpuThreadId = 0 ∧
    b.ready.readyList 0x40 = [0, 1] ∧
    RemovesExactly (b.turn (.bus b.environment (.setSchedParam 1 0x05))).ready
      ((b.turn (.bus b.environment (.setSchedParam 1 0x05))).clock .quiet).ready 0 := by
  obtain ⟨b, hb, hzero, hlevel, hprev, hlist⟩ := interleaved_installs
  rw [zeroInstalled, Bool.and_eq_true, Managed.inState, beq_iff_eq, beq_iff_eq] at hzero
  obtain ⟨hs, hcpu⟩ := hzero
  have hturn := hb.turn (.bus b.environment (.setSchedParam 1 0x05)) trivial fun _ _ _ =>
    ⟨.after (l := []) (r := []) (by rw [hlevel, hlist, hprev]; rfl), fun _ heq => ?_⟩
  · refine ⟨b, hcpu, hlist, ?_⟩
    rw [← hcpu]
    exact dispatch_removes_installed _ hturn hs .quiet
  · rw [hcpu] at heq
    exact absurd heq (by decide)

namespace Managed

-- bus commands between the cycles, with the thread manager as it is
def playTruly : List (BusLines ⊕ BusCommand) → Managed → Managed
  | [], a => a
  | .inl l :: xs, a => playTruly xs (a.turn (.cycle l))
  | .inr cmd :: xs, a => playTruly xs (a.turn (.bus a.environment cmd))

lemma Interleaved.playTruly {a : Managed} {xs : List (BusLines ⊕ BusCommand)}
    (h : a.Interleaved trueTurn) (hxs : ∀ l, .inl l ∈ xs → Turn.Orderly (.cycle l)) :
    (a.playTruly xs).Interleaved trueTurn := by
  induction xs generalizing a with
  | nil => exact h
  | cons x xs ih =>
    have hrest : ∀ l, .inl l ∈ xs → Turn.Orderly (.cycle l) :=
      fun l hl => hxs l (List.mem_cons_of_mem x hl)
    cases x with
    | inl l => exact ih (.turn (.cycle l) h (hxs l List.mem_cons_self) trivial) hrest
    | inr cmd => exact ih (.turn (.bus a.environment cmd) h trivial rfl) hrest

end Managed

-- NEXT has just installed thread 0 when it moves behind thread 1
def lateMove : List (BusLines ⊕ BusCommand) :=
  (whole 8 .createJ ++ whole 8 .createJ ++ whole 9 (.add 0)).map .inl ++
    [.inr (.setSchedParam 1 0x46)] ++ (whole 9 (.add 1) ++ held 4 .next).map .inl ++
    [.inr (.setSchedParam 0 0x46)]

lemma reset_moves_late : ∃ a, Managed.powerUp.softReset = some a ∧
    (zeroInstalled (a.playTruly lateMove) = true ∧
      (a.playTruly lateMove).ready.readyList 0x46 = [1, 0] ∧
      ((a.playTruly lateMove).clock .quiet).ready.readyList 0x46 = [0]) := by
  obtain ⟨a, ha, -, -⟩ := softReset_books (a := .powerUp) ⟨rfl, rfl⟩
  refine ⟨a, ha, ?_⟩
  have hall : ∀ a ∈ Managed.powerUp.softReset, zeroInstalled (a.playTruly lateMove) = true ∧
      (a.playTruly lateMove).ready.readyList 0x46 = [1, 0] ∧
      ((a.playTruly lateMove).clock .quiet).ready.readyList 0x46 = [0] := by
    decide +kernel
  exact hall a ha

lemma orderly_lateMove (l : BusLines) (hl : .inl l ∈ lateMove) : Turn.Orderly (.cycle l) := by
  simp only [lateMove, whole, held, List.map_append, List.mem_append, List.mem_map,
    List.mem_replicate, List.mem_cons, List.not_mem_nil, or_false, Sum.inl.injEq,
    exists_eq_right, reduceCtorEq] at hl
  rcases hl with ((((⟨-, rfl⟩ | rfl | rfl) | (⟨-, rfl⟩ | rfl | rfl)) |
    (⟨-, rfl⟩ | rfl | rfl)) | ((⟨-, rfl⟩ | rfl | rfl) | ⟨-, rfl⟩))
  all_goals exact ⟨rfl, rfl⟩

theorem late_move_removes_another : ¬ ∀ a : Managed, a.Interleaved trueTurn →
    a.tm.regs.currentState = .waitAck .dequeue → ∀ l : BusLines,
      RemovesExactly a.ready (a.clock l).ready a.tm.regs.cpuThreadId := by
  intro hclaim
  obtain ⟨a, ha, hzero, hbefore, hafter⟩ := reset_moves_late
  have hb := Managed.Interleaved.playTruly (.reset ⟨rfl, rfl⟩ ha) orderly_lateMove
  generalize a.playTruly lateMove = b at *
  rw [zeroInstalled, Bool.and_eq_true, Managed.inState, beq_iff_eq, beq_iff_eq] at hzero
  obtain ⟨hs, hcpu⟩ := hzero
  have hremoves := (hclaim b hb hs .quiet).lists 0x46
  rw [hbefore, hafter, hcpu] at hremoves
  exact absurd hremoves (by decide)

end Hthreads.Cores
