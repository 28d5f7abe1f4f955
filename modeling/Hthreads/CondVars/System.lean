import Hthreads.CondVars.Delivery
import Hthreads.CondVars.Runs
import Hthreads.CondVars.SyncFifo

/-! The bus interface, the message channel and the master state machine on one clock. -/

namespace Hthreads.CondVars

open Library Scheduler

/-- The condition variable core as a whole. The last two fields record whether the bus still works
on a read of the master, and the addresses of the reads that it has taken. -/
structure System where
  bench : Bench
  channel : SyncFifo 256 8
  messenger : Messenger
  outstanding : Bool
  reads : List Word

structure Cycle where
  start : Bool
  hold : Bool
  mst : MstBus

namespace System

def tick (y : Cycle) (s : System) : Tick := ⟨s.channel.full, y.start, y.hold⟩

def written (y : Cycle) (s : System) : Option ThreadId :=
  s.bench.logic.sent (s.bench.bus (s.tick y))

def channelLines (y : Cycle) (s : System) : FifoLines 8 :=
  ⟨false, (s.written y).isSome, (s.written y).getD 0, s.messenger.fslRead⟩

def clock (base : Word) (y : Cycle) (s : System) : System where
  bench := s.bench.clock (s.tick y)
  channel := s.channel.clock (s.channelLines y)
  messenger := s.messenger.clock base y.mst s.channel.hasData s.channel.dataOut
  outstanding := !y.mst.cmplt && (y.mst.cmdAck || s.outstanding)
  reads := s.reads ++
    if s.messenger.rdReq && (y.mst.cmdAck || y.mst.cmplt) then [s.messenger.addr] else []

def run (base : Word) (s : System) (cycles : ℕ → Cycle) : ℕ → System
  | 0 => s
  | n + 1 => (run base s cycles n).clock base (cycles n)

/-- After the reset: no command has been taken, the channel is empty and the master is idle. -/
structure Blank (s : System) : Prop where
  bench : s.bench.Blank
  channel : s.channel.Holds []
  state : s.messenger.state = .idle
  rdReq : s.messenger.rdReq = false
  fslRead : s.messenger.fslRead = false
  outstanding : s.outstanding = false
  reads : s.reads = []

/-- The bus acknowledges only a request, and completes only what it was asked for. -/
structure Keeps (base : Word) (s : System) (cycles : ℕ → Cycle) : Prop where
  ack : ∀ n, (cycles n).mst.cmdAck = true → (s.run base cycles n).messenger.rdReq = true
  cmplt : ∀ n, (cycles n).mst.cmplt = true →
    (s.run base cycles n).messenger.rdReq = true ∨ (s.run base cycles n).outstanding = true

/-- The bus answers every read of the master, and goes on with its own transactions. -/
structure Live (base : Word) (s : System) (cycles : ℕ → Cycle) : Prop where
  taken : ∀ k, (s.run base cycles k).messenger.rdReq = true →
    ∃ j ≥ k, ((cycles j).mst.cmdAck || (cycles j).mst.cmplt) = true
  completed : ∀ k, (s.run base cycles k).outstanding = true → ∃ j ≥ k, (cycles j).mst.cmplt = true
  starts : ∀ n, ∃ m ≥ n, (cycles m).start = true
  releases : ∀ n, ∃ m ≥ n, (cycles m).hold = false

end System

lemma Core.sent_of_full {x : Lines} {c : Core} (h : x.full = true) : c.sent x = none := by
  obtain ⟨⟨state, addrCounter, argCvar, argTid, entry, done⟩, table⟩ := c
  cases state <;> simp only [sent, driven, drive, sendOrStall, h, if_true]
  case initBram => split <;> rfl
  case idle => rw [idleDrive]; split <;> rfl
  case deqExamineLength => split <;> rfl
  case deqallExamineLength => split <;> rfl
  case deqallRemoveLoop => split <;> rfl

lemma Bench.sent_clock (t : Tick) (b : Bench) :
    (b.clock t).sent = b.sent ++ (b.logic.sent (b.bus t)).toList := by
  rw [Bench.clock]
  split
  · split <;> rfl
  · rfl
  · split <;> rfl
  · rfl

namespace System

section Cycles

variable {base : Word} {s : System} {y z : Cycle} {q pops : List ThreadId}

lemma written_of_full (h : s.channel.full = true) : s.written y = none := by
  refine Core.sent_of_full ?_
  simp only [UserLogic.lines, Bench.bus, tick, h]
  split <;> rfl

/-- The channel as the state machine sees it. A word that is written in this cycle is on its way. -/
def view (y : Cycle) (q pops : List ThreadId) (s : System) : Delivery where
  messenger := s.messenger
  ready := if s.channel.hasData then q else []
  entering := (if s.channel.hasData then [] else q) ++ (s.written y).toList
  outstanding := s.outstanding
  pops := pops
  reads := s.reads

-- `z` is the cycle after `y`
def turn (base : Word) (y z : Cycle) (s : System) : Turn :=
  ⟨y.mst, (s.clock base y).written z, if s.channel.hasData || s.channel.firstWrite then 2 else 0⟩

lemma ready_ne_nil (h : (s.view y q pops).Stage base)
    (hs : s.messenger.state = .run ∨ s.messenger.fslRead = true) : s.channel.hasData = true := by
  by_contra hdata
  have hnil : (s.view y q pops).ready = [] := if_neg hdata
  have hread : s.messenger.fslRead = true → False := by
    intro hread
    obtain ⟨p, hb⟩ := h.books
    have hsome := hb.fslRead.symm.trans hread
    obtain ⟨id, rfl⟩ := Option.isSome_iff_exists.mp hsome
    have hhead := hb.head id rfl
    rw [hnil] at hhead
    cases hhead
  rcases hs with hs | hs
  · cases h with
    | starting _ _ _ hne _ => exact hne hnil
    | requesting _ _ _ hid _ _ =>
      rw [hnil] at hid
      cases hid
    | idle hidle _ _ _ => cases hs.symm.trans hidle
    | waiting hwait _ _ _ => cases hs.symm.trans hwait
    | finishing hdone _ _ _ => cases hs.symm.trans hdone
  · exact hread hs

lemma permits (h : (s.view y q pops).Stage base) : s.channel.Permits (s.channelLines y) := by
  refine ⟨fun hwe => ?_, fun hrd => ready_ne_nil h (.inr hrd)⟩
  by_contra hfull
  have hnone : s.written y = none := written_of_full (by simpa using hfull)
  simp [channelLines, hnone] at hwe

lemma queueNext_channelLines (q : List ThreadId) :
    queueNext (s.channelLines y) q =
      (if s.messenger.fslRead then q.tail else q) ++ (s.written y).toList := by
  cases hw : s.written y <;> simp [queueNext, channelLines, hw]

lemma length_toList_le (o : Option ThreadId) : o.toList.length ≤ 2 := by
  cases o
  · exact Nat.zero_le 2
  · exact Nat.le_succ 1

lemma messenger_view (hq : s.channel.Holds q) (h : (s.view y q pops).Stage base) :
    s.messenger.clock base y.mst (!(s.view y q pops).ready.isEmpty)
      ((s.view y q pops).ready.headD 0) =
      s.messenger.clock base y.mst s.channel.hasData s.channel.dataOut := by
  cases hdata : s.channel.hasData with
  | true =>
    have hhead := hq.head hdata
    obtain ⟨l, rfl⟩ : ∃ l, q = s.channel.dataOut :: l := by
      cases q with
      | nil => cases hhead
      | cons u l => exact ⟨l, by rw [List.head?_cons, Option.some.injEq] at hhead; rw [hhead]⟩
    simp [view, hdata]
  | false =>
    have hrun : s.messenger.state ≠ .run := by
      intro hrun
      rw [ready_ne_nil h (.inl hrun)] at hdata
      cases hdata
    have hnil : (s.view y q pops).ready = [] := by
      simp [view, hdata]
    rw [hnil]
    cases hs : s.messenger.state with
    | run => exact absurd hs hrun
    | idle | waitForData | done => simp [Messenger.clock, hs]

lemma arrives (hq : s.channel.Holds q) (h : (s.view y q pops).Stage base) :
    ((s.view y q pops).clock base (turn base y z s)).ready =
        ((s.clock base y).view z (queueNext (s.channelLines y) q) []).ready ∧
      ((s.view y q pops).clock base (turn base y z s)).entering =
        ((s.clock base y).view z (queueNext (s.channelLines y) q) []).entering := by
  rw [queueNext_channelLines]
  cases hq with
  | empty hfirst hdata _ hstored =>
    have hnot : s.messenger.fslRead = false := (permits h).rd_eq_false hdata
    have hnext : (s.clock base y).channel.hasData = false := by
      simp [System.clock, SyncFifo.clock, channelLines, hfirst, hdata]
    simp [Delivery.clock, view, turn, hfirst, hdata, hnext, hnot]
  | entering hfirst hdata _ hstored =>
    have hnot : s.messenger.fslRead = false := (permits h).rd_eq_false hdata
    have hnext : (s.clock base y).channel.hasData = true := by
      simp [System.clock, SyncFifo.clock, channelLines, hfirst]
    cases hw : s.written y <;> simp [Delivery.clock, view, turn, hfirst, hdata, hnext, hnot, hw]
  | @showing u l hfirst hdata _ _ hstored =>
    have hlength : s.channel.fifoLength = l.length + 1 := hstored.length
    by_cases hlast : s.messenger.fslRead = true ∧ s.written y = none ∧ l = []
    · obtain ⟨hr, hw, rfl⟩ := hlast
      have hnext : (s.clock base y).channel.hasData = false := by
        simp [System.clock, SyncFifo.clock, SyncFifo.lastWord, channelLines, hfirst,
          hr, hw, hlength]
      simp [Delivery.clock, view, turn, hdata, hnext, hr, hw]
    · have hnext : (s.clock base y).channel.hasData = true := by
        cases hw : s.written y with
        | some v => simp [System.clock, SyncFifo.clock, channelLines, hfirst, hdata, hw]
        | none =>
          have hmore : s.messenger.fslRead = false ∨ l ≠ [] := by
            by_contra hnot
            push Not at hnot
            exact hlast ⟨by simpa using hnot.1, hw, hnot.2⟩
          simpa [System.clock, SyncFifo.clock, SyncFifo.lastWord, channelLines, hfirst, hdata, hw,
            hlength] using hmore
      simp [Delivery.clock, view, turn, hdata, hnext, length_toList_le]

lemma view_clock (hq : s.channel.Holds q) (h : (s.view y q pops).Stage base) :
    (s.view y q pops).clock base (turn base y z s) =
      (s.clock base y).view z (queueNext (s.channelLines y) q)
        (pops ++ if s.messenger.fslRead then q.take 1 else []) := by
  obtain ⟨hready, hentering⟩ := arrives (z := z) hq h
  have hpops : (if s.messenger.fslRead then (s.view y q pops).ready.take 1 else []) =
      if s.messenger.fslRead then q.take 1 else [] := by
    by_cases hr : s.messenger.fslRead = true
    · rw [if_pos hr, if_pos hr, view, if_pos (ready_ne_nil h (.inr hr))]
    · rw [if_neg hr, if_neg hr]
  have hmessenger := messenger_view hq h
  rw [Delivery.clock] at hready hentering ⊢
  rw [Delivery.mk.injEq]
  exact ⟨hmessenger, hready, hentering, rfl, congrArg (pops ++ ·) hpops, rfl⟩

end Cycles

section Runs

variable {base : Word} {s : System} {cycles : ℕ → Cycle} {cs : List Command} {n k : ℕ}

def delivery (s : System) (cycles : ℕ → Cycle) : Delivery := s.view (cycles 0) [] []

def turns (base : Word) (s : System) (cycles : ℕ → Cycle) (n : ℕ) : Turn :=
  turn base (cycles n) (cycles (n + 1)) (s.run base cycles n)

def pops (base : Word) (s : System) (cycles : ℕ → Cycle) (n : ℕ) : List ThreadId :=
  (Delivery.run base (s.delivery cycles) (turns base s cycles) n).pops

/-- Where the whole stands after `n` cycles: the channel holds `q`, the delivery is in step, and
everything written has been popped or is in the channel. -/
structure InStep (base : Word) (s : System) (cycles : ℕ → Cycle) (n : ℕ) (q : List ThreadId) :
    Prop where
  channel : (s.run base cycles n).channel.Holds q
  view : Delivery.run base (s.delivery cycles) (turns base s cycles) n =
    (s.run base cycles n).view (cycles n) q (pops base s cycles n)
  stage : ((s.run base cycles n).view (cycles n) q (pops base s cycles n)).Stage base
  sent : (s.run base cycles n).bench.sent = pops base s cycles n ++ q

lemma Blank.fresh (h : s.Blank) : (s.delivery cycles).Fresh :=
  ⟨h.state, h.rdReq, h.fslRead, h.outstanding, rfl, h.reads⟩

lemma pops_queueNext {y : Cycle} {q ps : List ThreadId} :
    (ps ++ if s.messenger.fslRead then q.take 1 else []) ++ queueNext (s.channelLines y) q =
      ps ++ q ++ (s.written y).toList := by
  rw [queueNext_channelLines]
  cases s.messenger.fslRead with
  | false => simp
  | true =>
    have hq : q.take 1 ++ q.tail = q := by
      rw [← List.drop_one]
      exact List.take_append_drop 1 q
    simp only [if_true]
    rw [List.append_assoc, ← List.append_assoc (q.take 1), hq, List.append_assoc]

lemma in_step (hs : s.Blank) (hbus : s.Keeps base cycles) (n : ℕ) :
    ∃ q, InStep base s cycles n q := by
  induction n with
  | zero =>
    refine ⟨[], hs.channel, rfl, hs.fresh.stage, ?_⟩
    exact hs.bench.sent
  | succ n ih =>
    obtain ⟨q, hchannel, hview, hstage, hsent⟩ := ih
    have hnext := view_clock (z := cycles (n + 1)) hchannel hstage
    have hrun : Delivery.run base (s.delivery cycles) (turns base s cycles) (n + 1) =
        (s.run base cycles (n + 1)).view (cycles (n + 1))
          (queueNext ((s.run base cycles n).channelLines (cycles n)) q)
          (pops base s cycles n ++
            if (s.run base cycles n).messenger.fslRead then q.take 1 else []) := by
      rw [Delivery.run, hview]
      exact hnext
    have hpops : pops base s cycles (n + 1) = pops base s cycles n ++
        if (s.run base cycles n).messenger.fslRead then q.take 1 else [] :=
      congrArg Delivery.pops hrun
    refine ⟨_, hchannel.clock (permits hstage), ?_, ?_, ?_⟩
    · rw [hrun, hpops]
    · rw [hpops]
      rw [run, ← hnext]
      exact hstage.clock ⟨hbus.ack n, hbus.cmplt n⟩
    · rw [hpops, pops_queueNext, ← hsent]
      exact Bench.sent_clock _ _

lemma fits (hs : s.Blank) (hbus : s.Keeps base cycles) :
    (s.delivery cycles).FitsAll base (turns base s cycles) := by
  intro n
  obtain ⟨q, h⟩ := in_step hs hbus n
  rw [h.view]
  exact ⟨hbus.ack n, hbus.cmplt n⟩

lemma InStep.reads {q : List ThreadId} (h : InStep base s cycles n q) :
    ∃ p, (s.run base cycles n).reads = (pops base s cycles n ++ p).map (formTmAddr base) ∧
      pops base s cycles n ++ p <+: (s.run base cycles n).bench.sent := by
  obtain ⟨p, hb⟩ := h.stage.books
  refine ⟨p.toList, hb.reads, ?_⟩
  rw [h.sent]
  refine (List.prefix_append_right_inj _).mpr ?_
  cases p with
  | none => exact List.nil_prefix
  | some id =>
    have hhead := hb.head id rfl
    change (if (s.run base cycles n).channel.hasData then q else []).head? = some id at hhead
    split at hhead
    · cases q with
      | nil => cases hhead
      | cons u l =>
        rw [List.head?_cons, Option.some.injEq] at hhead
        exact ⟨l, by rw [Option.toList_some, hhead, List.singleton_append]⟩
    · cases hhead

def ticks (base : Word) (s : System) (cycles : ℕ → Cycle) (n : ℕ) : Tick :=
  (s.run base cycles n).tick (cycles n)

lemma bench_run (n : ℕ) : (s.run base cycles n).bench = s.bench.run (ticks base s cycles) n := by
  induction n with
  | zero => rfl
  | succ n ih =>
    rw [Bench.run, ← ih]
    rfl

lemma sent_isPrefix (hs : s.Blank) (hpending : s.bench.pending.map command = cs.map some)
    (hcs : WaitQueues.initial.Disciplined cs) (n : ℕ) :
    (s.run base cycles n).bench.sent <+: (WaitQueues.initial.run cs).1 := by
  obtain ⟨ds, es, rfl, hstage⟩ := stage_run hs.bench hpending hcs (ticks base s cycles) n
  rw [bench_run]
  exact hstage.accounts.sent

lemma answers (hs : s.Blank) (hbus : s.Keeps base cycles) (hlive : s.Live base cycles) :
    (s.delivery cycles).Answers base (turns base s cycles) := by
  refine ⟨fun k hreq => ?_, fun k hout => ?_, fun k hne => ?_⟩
  · obtain ⟨q, h⟩ := in_step hs hbus k
    rw [h.view] at hreq
    exact hlive.taken k hreq
  · obtain ⟨q, h⟩ := in_step hs hbus k
    rw [h.view] at hout
    exact hlive.completed k hout
  · obtain ⟨q, h⟩ := in_step hs hbus k
    rw [h.view] at hne
    cases h.channel with
    | showing _ hdata _ _ _ => exact ⟨k, le_rfl, by simp [turns, turn, hdata]⟩
    | entering hfirst _ _ _ => exact ⟨k, le_rfl, by simp [turns, turn, hfirst]⟩
    | empty hfirst hdata _ hstored =>
      have hlength : (s.run base cycles k).channel.fifoLength = 0 := hstored.length
      have hwritten : (s.run base cycles k).written (cycles k) ≠ none := by
        intro hnone
        simp [view, hdata, hnone] at hne
      have hfirst : (s.run base cycles (k + 1)).channel.firstWrite = true := by
        simpa [run, clock, SyncFifo.clock, SyncFifo.nonempty, channelLines, hlength,
          Option.isSome_iff_ne_none] using hwritten
      exact ⟨k + 1, Nat.le_succ k, by simp [turns, turn, hfirst]⟩

lemma drains (hs : s.Blank) (hbus : s.Keeps base cycles) (hlive : s.Live base cycles) (n : ℕ) :
    ∃ m ≥ n, (ticks base s cycles m).full = false := by
  by_contra hnever
  push Not at hnever
  have hfull : ∀ m ≥ n, (s.run base cycles m).channel.full = true :=
    fun m hm => by simpa [ticks, tick] using hnever m hm
  obtain ⟨q, h⟩ := in_step hs hbus n
  have hq : q ≠ [] := by
    rintro rfl
    cases h.channel.full_iff.mp (hfull n le_rfl)
  have hsome : (Delivery.run base (s.delivery cycles) (turns base s cycles) n).ready ++
      (Delivery.run base (s.delivery cycles) (turns base s cycles) n).entering ≠ [] := by
    rw [h.view, view]
    split <;> simp [hq]
  obtain ⟨m, hm, hread⟩ :=
    Delivery.read_eventually hs.fresh (fits hs hbus) (answers hs hbus hlive) hsome
  obtain ⟨p, h⟩ := in_step hs hbus m
  rw [h.view] at hread
  have hrd : (s.run base cycles m).messenger.fslRead = true := hread
  have hnone := written_of_full (y := cycles m) (hfull m hm)
  have hlength : (s.run base cycles m).channel.fifoLength = 256 := by
    simpa [SyncFifo.full] using hfull m hm
  have hless : (s.run base cycles (m + 1)).channel.fifoLength = 255 := by
    simp [run, clock, SyncFifo.clock, SyncFifo.nonempty, channelLines, hrd, hnone, hlength]
  have hstill := hfull (m + 1) (by omega)
  rw [SyncFifo.full, hless] at hstill
  cases hstill

lemma fair (hs : s.Blank) (hbus : s.Keeps base cycles) (hlive : s.Live base cycles) :
    Fair (ticks base s cycles) :=
  ⟨drains hs hbus hlive, hlive.starts, hlive.releases⟩

lemma reads_mono {m : ℕ} (h : k ≤ m) :
    (s.run base cycles k).reads <+: (s.run base cycles m).reads := by
  induction m, h using Nat.le_induction with
  | base => exact List.prefix_rfl
  | succ m _ ih => exact ih.trans (List.prefix_append _ _)

/-- The threads that the condition variables wake are added to the ready queue. In every run in
which the bus keeps its protocol, the reads of ADD_THREAD that it has taken are at every cycle
those for the first threads that the wait queues wake, each once and in their order; what has been
written and not popped is in the channel, which is never overrun. If the bus answers and goes on,
from some cycle on the reads are those for all the threads woken. -/
theorem woken_threads_added (base : Word) (s : System) (hs : s.Blank) (cs : List Command)
    (hpending : s.bench.pending.map command = cs.map some) (hcs : WaitQueues.initial.Disciplined cs)
    (cycles : ℕ → Cycle) (hbus : s.Keeps base cycles) :
    (∀ n, (s.run base cycles n).reads <+: (WaitQueues.initial.run cs).1.map (formTmAddr base) ∧
      (s.run base cycles n).bench.sent <+: (WaitQueues.initial.run cs).1 ∧
      (s.run base cycles n).bench.sent.length ≤
        (s.run base cycles n).reads.length + (s.run base cycles n).channel.fifoLength ∧
      (s.run base cycles n).channel.fifoLength ≤ 256) ∧
    (s.Live base cycles → ∃ n, ∀ m ≥ n,
      (s.run base cycles m).reads = (WaitQueues.initial.run cs).1.map (formTmAddr base)) := by
  have hreads : ∀ n, (s.run base cycles n).reads <+:
      (WaitQueues.initial.run cs).1.map (formTmAddr base) := by
    intro n
    obtain ⟨q, h⟩ := in_step hs hbus n
    obtain ⟨p, hreads, hpopped⟩ := h.reads
    rw [hreads]
    exact (hpopped.trans (sent_isPrefix hs hpending hcs n)).map (formTmAddr base)
  refine ⟨fun n => ?_, fun hlive => ?_⟩
  · obtain ⟨q, h⟩ := in_step hs hbus n
    obtain ⟨p, heq, -⟩ := h.reads
    refine ⟨hreads n, sent_isPrefix hs hpending hcs n, ?_, ?_⟩
    · rw [h.sent, heq, h.channel.length]
      simp only [List.length_append, List.length_map]
      omega
    · rw [h.channel.length]
      exact h.channel.room
  · have hdis : WaitQueues.initial.Disciplined ([] ++ cs) := hcs
    obtain ⟨k, hrest⟩ :=
      resting_at_end (k := 0) (fair hs hbus hlive) hdis (hs.bench.resting hpending)
    have hall : (s.run base cycles k).bench.sent = (WaitQueues.initial.run cs).1 := by
      rw [bench_run, hrest.settled.sent, List.nil_append]
    obtain ⟨q, h⟩ := in_step hs hbus k
    have hcontents :
      (Delivery.run base (s.delivery cycles) (turns base s cycles) k).contents.length ≥
        (WaitQueues.initial.run cs).1.length := by
      rw [h.view, ← hall, h.sent, Delivery.contents, view]
      split <;> simp
    obtain ⟨n, -, hpops⟩ := Delivery.pops_reach hs.fresh (fits hs hbus) (answers hs hbus hlive)
      (k := k) _ hcontents
    refine ⟨n, fun m hm => ((hreads m).eq_of_length_le ?_)⟩
    obtain ⟨p, hn⟩ := in_step hs hbus n
    obtain ⟨r, heq, -⟩ := hn.reads
    have hmono : (s.run base cycles n).reads.length ≤ (s.run base cycles m).reads.length :=
      (reads_mono hm).length_le
    have hlength : (s.run base cycles n).reads.length =
      (pops base s cycles n).length + r.length := by
      rw [heq, List.length_map, List.length_append]
    have hpops' : (WaitQueues.initial.run cs).1.length ≤ (pops base s cycles n).length := hpops
    rw [List.length_map]
    omega

-- a bus that answers each read in the cycle in which it sees it
def promptCycle (s : System) : Cycle :=
  ⟨true, false, ⟨s.messenger.rdReq, s.messenger.rdReq, false, false⟩⟩

def prompt (base : Word) (s : System) : ℕ → System
  | 0 => s
  | n + 1 => (prompt base s n).clock base (promptCycle (prompt base s n))

lemma run_prompt (n : ℕ) :
    s.run base (fun k => promptCycle (s.prompt base k)) n = s.prompt base n := by
  induction n with
  | zero => rfl
  | succ n ih => rw [run, ih, prompt]

lemma keeps_prompt : s.Keeps base fun k => promptCycle (s.prompt base k) := by
  refine ⟨fun n hack => ?_, fun n hcmplt => .inl ?_⟩
  · rw [run_prompt]
    exact hack
  · rw [run_prompt]
    exact hcmplt

lemma live_prompt (hout : s.outstanding = false) :
    s.Live base fun k => promptCycle (s.prompt base k) := by
  have hnone : ∀ k, (s.prompt base k).outstanding = false := by
    intro k
    induction k with
    | zero => exact hout
    | succ k ih => simp [prompt, clock, promptCycle, ih]
  refine ⟨fun k hreq => ⟨k, le_rfl, ?_⟩, fun k hout => ?_, fun n => ⟨n, le_rfl, rfl⟩,
    fun n => ⟨n, le_rfl, rfl⟩⟩
  · rw [run_prompt] at hreq
    simp [promptCycle, hreq]
  · rw [run_prompt, hnone k] at hout
    cases hout

-- threads 5 and 7 wait on one variable and thread 9 on another
def threeWaiting : System where
  bench := ⟨(UserLogic.powerUp.runReset (fun _ => false) 2052).clock
    (UserLogic.resetBus false false),
    .idle, [0x40504, 0x40704, 0x40908, 0x20004, 0x40504, 0x60004, 0x20008], 0, [], []⟩
  channel := SyncFifo.clock ⟨true, false, 0, false⟩
    ⟨0, false, false, false, 0, 0, 0, ⟨fun _ => 0, 0⟩⟩
  messenger := .default .idle
  outstanding := false
  reads := []

theorem woken_threads_added_three :
    ∃ n, (threeWaiting.run 0x11000000
      (fun k => promptCycle (threeWaiting.prompt 0x11000000 k)) n).reads =
      ([5, 7, 5, 9] : List ThreadId).map (formTmAddr 0x11000000) := by
  have hready := UserLogic.ready_after_reset (u := .powerUp) (f := fun _ => false) rfl le_rfl false
  have hblank : threeWaiting.Blank :=
    ⟨⟨hready, rfl, rfl, rfl, rfl⟩, SyncFifo.holds_reset rfl, rfl, rfl, rfl, rfl, rfl⟩
  obtain ⟨n, hall⟩ := (woken_threads_added 0x11000000 threeWaiting hblank
    [.wait 1 5, .wait 1 7, .wait 2 9, .signal 1, .wait 1 5, .broadcast 1, .signal 2]
    (by decide) (by decide) (fun k => promptCycle (threeWaiting.prompt 0x11000000 k))
      keeps_prompt).2
    (live_prompt rfl)
  exact ⟨n, hall n le_rfl⟩

end Runs

end System

end Hthreads.CondVars
