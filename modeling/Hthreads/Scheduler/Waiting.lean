import Hthreads.Library.Ahead
import Hthreads.Scheduler.Refinement

/-! How long a queued thread waits for its dispatch. -/

namespace Hthreads.Scheduler

open Library Library.Fifo

def better (p : Priority) : Finset Priority := (Finset.range p.toNat).image (BitVec.ofNat 7)

lemma mem_better {p r : Priority} : r ∈ better p ↔ r < p := by
  rw [better, Finset.mem_image, BitVec.lt_def]
  constructor
  · rintro ⟨n, hn, rfl⟩
    rw [Finset.mem_range] at hn
    rw [BitVec.toNat_ofNat]
    exact (Nat.mod_le n _).trans_lt hn
  · intro hlt
    exact ⟨r.toNat, Finset.mem_range.mpr hlt, by rw [BitVec.ofNat_toNat, BitVec.setWidth_eq]⟩

lemma notMem_better (p : Priority) : p ∉ better p :=
  fun h => absurd (mem_better.mp h) (BitVec.lt_irrefl p)

def Command.dispatches : Command → ℕ
  | dequeue => 1
  | _ => 0

namespace ReadyQueues

/-- The threads that are dispatched before a thread queued at `p`. -/
def inFront (Q : ReadyQueues) (p : Priority) (t : ThreadId) : ℕ := ahead (better p) Q.queue p t

def overtakes (Q : ReadyQueues) (p : Priority) : Command → ℕ
  | .enqueue tid => if Q.level tid < p then 1 else 0
  | _ => 0

def after (Q : ReadyQueues) (cmds : List (Environment × Command)) : ReadyQueues :=
  cmds.foldl (fun Q x => step x.2 Q) Q

def overtakers (p : Priority) : List (Environment × Command) → ReadyQueues → ℕ
  | [], _ => 0
  | x :: cmds, Q => Q.overtakes p x.2 + overtakers p cmds (Q.step x.2)

end ReadyQueues

def dispatches (cmds : List (Environment × Command)) : ℕ := (cmds.map fun x => x.2.dispatches).sum

section Steps

variable {T : Tables} {Q : ReadyQueues} {p : Priority} {t : ThreadId} {e : Environment}

/-- The thread is dispatched, or it stays in its queue and nothing else changes what is in front of
it than dispatches and threads of a better priority. -/
def Waits (T : Tables) (Q : ReadyQueues) (p : Priority) (t : ThreadId) (cmd : Command) : Prop :=
  cmd = .dequeue ∧ T.nextThreadId = t ∨
    t ∈ (Q.step cmd).queue p ∧
      cmd.dispatches + (Q.step cmd).inFront p t = Q.inFront p t + Q.overtakes p cmd

lemma waits_enqueue (ht : t ∈ Q.queue p) (tid : ThreadId) : Waits T Q p t (.enqueue tid) := by
  refine .inr ⟨(mem_push _ _ _ _ _).mpr (.inl ht), ?_⟩
  by_cases hlt : Q.level tid < p
  · have hpush := ahead_push_better (q := Q.queue) (t := t) (u := tid) (mem_better.mpr hlt)
      (notMem_better p)
    simp only [Command.dispatches, ReadyQueues.inFront, ReadyQueues.overtakes,
      ReadyQueues.step, hlt, if_true]
    omega
  · have hpush := ahead_push_other (u := tid) (fun h => hlt (mem_better.mp h)) ht
    simp only [Command.dispatches, ReadyQueues.inFront, ReadyQueues.overtakes,
      ReadyQueues.step, hlt, if_false]
    omega

lemma waits_dequeue (h : Holds T Q) (ht : t ∈ Q.queue p) : Waits T Q p t .dequeue := by
  have hp : Q.queue p ≠ [] := List.ne_nil_of_mem ht
  obtain ⟨hbest, l, hl⟩ := h.lists.front_of_announced h.fresh h.announced ⟨p, hp⟩
  have hstep : (Q.step .dequeue).queue = pop Q.queue T.encoderOutput :=
    Tables.popBest_of_isBest hbest
  by_cases hsame : p = T.encoderOutput
  · by_cases hnext : T.nextThreadId = t
    · exact .inl ⟨rfl, hnext⟩
    · rw [← hsame] at hl hstep
      have hpop := ahead_pop_self (notMem_better p) hl hnext
      refine .inr ⟨?_, ?_⟩
      · rw [hstep, pop_self, hl, List.tail_cons]
        rw [hl] at ht
        exact List.mem_of_ne_of_mem (Ne.symm hnext) ht
      · change 1 + ahead (better p) (Q.step .dequeue).queue p t = ahead (better p) Q.queue p t
        rw [hstep]
        omega
  · have hlt : T.encoderOutput < p := by
      have hnot : ¬ p < T.encoderOutput := fun hlt => hp (hbest.2 p hlt)
      rw [BitVec.lt_def] at hnot ⊢
      have hne : p.toNat ≠ T.encoderOutput.toNat := fun heq => hsame (BitVec.eq_of_toNat_eq heq)
      omega
    have hpop := ahead_pop_better (t := t) (mem_better.mpr hlt) (notMem_better p) hl
    refine .inr ⟨?_, ?_⟩
    · rw [hstep, pop_of_ne _ _ hsame]
      exact ht
    · change 1 + ahead (better p) (Q.step .dequeue).queue p t = ahead (better p) Q.queue p t
      rw [hstep]
      omega

lemma waits_of_queue_eq {cmd : Command} (ht : t ∈ Q.queue p) (hqueue : (Q.step cmd).queue = Q.queue)
    (hd : cmd.dispatches = 0) (ho : Q.overtakes p cmd = 0) : Waits T Q p t cmd := by
  refine .inr ⟨hqueue ▸ ht, ?_⟩
  rw [hd, ho, ReadyQueues.inFront, hqueue, ReadyQueues.inFront, Nat.zero_add, Nat.add_zero]

lemma waits (h : Holds T Q) (ht : t ∈ Q.queue p) (cmd : Command) : Waits T Q p t cmd := by
  cases cmd with
  | enqueue tid => exact waits_enqueue ht tid
  | dequeue => exact waits_dequeue h ht
  | setSchedParam _ _ | setIdleThread _ | isQueued _ | isEmpty | getSchedParam _ | checkSchedParam _
  | getEntry _ => exact waits_of_queue_eq ht rfl rfl rfl

/-- Some command of the sequence dispatches the thread. -/
def Dispatched (T : Tables) (t : ThreadId) (cmds : List (Environment × Command)) : Prop :=
  ∃ done x rest, cmds = done ++ x :: rest ∧ x.2 = .dequeue ∧ (T.run done).nextThreadId = t

lemma waits_run (h : Holds T Q) (ht : t ∈ Q.queue p) {cmds : List (Environment × Command)}
    (hcmds : T.Allowed queueGuard cmds) :
    Dispatched T t cmds ∨ t ∈ (Q.after cmds).queue p ∧
      dispatches cmds + (Q.after cmds).inFront p t = Q.inFront p t + Q.overtakers p cmds := by
  induction cmds generalizing T Q with
  | nil => exact .inr ⟨ht, by simp [dispatches, ReadyQueues.after, ReadyQueues.overtakers]⟩
  | cons x cmds ih =>
    obtain ⟨hguard, hrest⟩ := hcmds
    rcases waits h ht x.2 with ⟨hdequeue, hnext⟩ | ⟨hstays, hcount⟩
    · exact .inl ⟨[], x, cmds, rfl, hdequeue, hnext⟩
    · rcases ih (holds_step x.1 x.2 T Q h hguard) hstays hrest with
        ⟨done, y, rest, heq, hdequeue, hnext⟩ | ⟨hlast, hsum⟩
      · exact .inl ⟨x :: done, y, rest, by rw [heq, List.cons_append], hdequeue, hnext⟩
      · refine .inr ⟨hlast, ?_⟩
        simp only [dispatches, List.map_cons, List.sum_cons, ReadyQueues.overtakers] at hsum ⊢
        change x.2.dispatches + _ + ((Q.step x.2).after cmds).inFront p t = _
        omega

end Steps

/-- A queued thread waits for those in front of it, and for no others. In every run from a soft
reset whose commands keep the discipline of `queueGuard` (no thread is queued twice, only the next
thread leaves its queue, and a priority changes only while its thread is in no queue), as long as a
queued thread is not dispatched it stays in its queue, and what is in front of it goes down by one
with each dispatch and up by one with each thread that is queued at a better priority. So it is
dispatched when there are more dispatches than that. -/
theorem dispatched_in_turn (e : Environment) (c : Core) (hc : c.regs.insideReset = false)
    (cmds later : List (Environment × Command)) (hcmds : (c.softReset e).Allowed queueGuard cmds)
    (hlater : ((c.softReset e).run cmds).Allowed queueGuard later) (p : Priority) (t : ThreadId)
    (ht : t ∈ (ReadyQueues.run cmds).queue p) :
    ((∃ done x rest, later = done ++ x :: rest ∧ x.2 = .dequeue ∧
        (((c.softReset e).run cmds).run done).tables.nextThreadId = t) ∨
      t ∈ ((ReadyQueues.run cmds).after later).queue p ∧
        dispatches later + ((ReadyQueues.run cmds).after later).inFront p t =
          (ReadyQueues.run cmds).inFront p t + (ReadyQueues.run cmds).overtakers p later) ∧
    ((ReadyQueues.run cmds).inFront p t + (ReadyQueues.run cmds).overtakers p later <
        dispatches later →
      ∃ done x rest, later = done ++ x :: rest ∧ x.2 = .dequeue ∧
        (((c.softReset e).run cmds).run done).tables.nextThreadId = t) := by
  have hreset := softReset_spec e hc
  obtain ⟨hquiescent, htables⟩ := run_tables hreset.toQuiescent cmds
  have hrun := run_simulates holds_step hreset.toQuiescent (hreset.tables ▸ holds_initial) hcmds
  rw [follow_eq_foldl ReadyQueues.step] at hrun
  have hholds : Holds ((c.softReset e).run cmds).tables (ReadyQueues.run cmds) := hrun.2
  have hwaits := waits_run hholds ht ((allowed_iff_tables hquiescent later).mp hlater)
  have hdispatched : Dispatched ((c.softReset e).run cmds).tables t later →
      ∃ done x rest, later = done ++ x :: rest ∧ x.2 = .dequeue ∧
        (((c.softReset e).run cmds).run done).tables.nextThreadId = t := by
    rintro ⟨done, x, rest, heq, hdequeue, hnext⟩
    exact ⟨done, x, rest, heq, hdequeue, by rw [(run_tables hquiescent done).2, hnext]⟩
  refine ⟨hwaits.imp hdispatched id, fun hmore => ?_⟩
  rcases hwaits with hgone | ⟨-, hcount⟩
  · exact hdispatched hgone
  · omega

-- thread 2 waits behind thread 1, and thread 3 of a better priority comes in between
def behindOne : List (Environment × Command) :=
  let e (cpu : ThreadId) : Environment := ⟨cpu, fun _ => 0x20⟩
  [(e 3, .setSchedParam 3 0x05), (e 9, .enqueue 1), (e 9, .enqueue 2)]

def overtaken : List (Environment × Command) :=
  let e (cpu : ThreadId) : Environment := ⟨cpu, fun _ => 0x20⟩
  [(e 9, .enqueue 3), (e 3, .dequeue), (e 1, .dequeue), (e 2, .dequeue)]

theorem dispatched_in_turn_third :
    ∃ done x rest, overtaken = done ++ x :: rest ∧ x.2 = .dequeue ∧
      (((Core.powerUp.softReset ⟨0, fun _ => 0⟩).run behindOne).run done).tables.nextThreadId =
        2 := by
  have hreset := softReset_spec ⟨0, fun _ => 0⟩ (c := Core.powerUp) rfl
  have hcmds : (Core.powerUp.softReset ⟨0, fun _ => 0⟩).Allowed queueGuard behindOne := by
    rw [allowed_iff_tables hreset.toQuiescent, hreset.tables]
    decide
  have hlater : ((Core.powerUp.softReset ⟨0, fun _ => 0⟩).run behindOne).Allowed queueGuard
      overtaken := by
    obtain ⟨hquiescent, htables⟩ := run_tables hreset.toQuiescent behindOne
    rw [allowed_iff_tables hquiescent, htables, hreset.tables]
    decide
  refine (dispatched_in_turn _ _ rfl behindOne overtaken hcmds hlater 0b1000000 2 ?_).2 ?_
  · decide
  · decide

end Hthreads.Scheduler
