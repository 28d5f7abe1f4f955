import Hthreads.Scheduler.Refinement

/-! The announced next thread over runs that also set the idle thread. -/

namespace Hthreads.Scheduler

open Library Library.Fifo

def latestIdle (e : Environment) (cmd : Command) (T : Tables) (idle : Option ThreadId) :
    Option ThreadId :=
  match cmd with
  | .setIdleThread tid => if T.idleAllowed (e.swtm tid) tid then some tid else idle
  | _ => idle

structure AnnouncesRight (T : Tables) (idle : Option ThreadId) : Prop where
  valid : T.nextThreadValid = true ↔ (∃ tid, T.queued tid = true) ∨ idle.isSome = true
  queued : T.nextThreadValid = true → (∃ tid, T.queued tid = true) →
    ∃ p, IsBest T.readyList p ∧ (T.readyList p).head? = some T.nextThreadId
  idle : T.nextThreadValid = true → (¬ ∃ tid, T.queued tid = true) → idle = some T.nextThreadId

-- no thread is queued and another idle thread is announced: SET_IDLE_THREAD keeps announcing it
def keepsAnnouncement : Guard := fun e cmd T =>
  match cmd with
  | .setIdleThread tid => T.idleAllowed (e.swtm tid) tid = true →
    (∃ u, T.queued u = true) ∨ T.nextThreadValid = false ∨ T.nextThreadId = tid
  | .setSchedParam tid param => isSoftwareParam param = true →
    schedParamAllowed (e.swtm tid) tid e.currentCpuTid = true → T.queued tid = true →
    T.Movable T.readyList tid (paramPriority param)
  | _ => True

structure Announcing (T : Tables) (idle : Option ThreadId) : Prop extends Intact T where
  register : idle = if T.idleThreadValid then some T.idleThreadId else none
  valid : T.nextThreadValid = true ↔
    (∃ p, T.encoderInput p = true) ∨ T.idleThreadValid = true
  idle : T.nextThreadValid = true → (¬ ∃ p, T.encoderInput p = true) →
    T.nextThreadId = T.idleThreadId

variable {T : Tables} {idle : Option ThreadId} {tid : ThreadId}

lemma Intact.queued_iff (h : Intact T) :
    (∃ tid, T.queued tid = true) ↔ ∃ p, T.encoderInput p = true := by
  constructor
  · rintro ⟨t, ht⟩
    exact ⟨_, (h.lists.bit _).mpr (List.ne_nil_of_mem (h.lists.exists_mem ht))⟩
  · rintro ⟨p, hp⟩
    obtain ⟨t, ht⟩ := List.exists_mem_of_ne_nil _ ((h.lists.bit p).mp hp)
    exact ⟨t, h.lists.queued_eq ht⟩

lemma Announcing.right (h : Announcing T idle) : AnnouncesRight T idle := by
  have hreg := h.register
  refine ⟨?_, fun _ hq => ?_, fun hv hq => ?_⟩
  · rw [h.valid, h.queued_iff, hreg]
    cases T.idleThreadValid <;> simp
  · obtain ⟨p, hp⟩ := h.queued_iff.mp hq
    obtain ⟨hbest, l, hl⟩ := h.lists.front_of_announced h.fresh h.announced
      ⟨p, (h.lists.bit p).mp hp⟩
    exact ⟨_, hbest, by rw [hl, List.head?_cons]⟩
  · rw [h.queued_iff] at hq
    rw [hreg, if_pos ((h.valid.mp hv).resolve_left hq), h.idle hv hq]

lemma Announcing.enqueue (h : Announcing T idle) (ht : T.queued tid = false) :
    Announcing (T.enqueue tid) idle := by
  have hintact := h.toIntact.enqueue ht
  by_cases hp : isSoftwareParam (T.param tid) = true
  · have hbit : ∃ p, (T.enqueue tid).encoderInput p = true := by
      have hl := h.lists.enqueue hp ht
      refine ⟨T.level tid, (hl.bit _).mpr ?_⟩
      rw [push_self]
      simp
    have hkeep : (T.enqueue tid).idleThreadValid = T.idleThreadValid ∧
        (T.enqueue tid).idleThreadId = T.idleThreadId := by
      simp only [Tables.enqueue, hp, if_true, Tables.link]
      split_ifs <;> exact ⟨rfl, rfl⟩
    have hvalid : (T.enqueue tid).nextThreadValid = true := (hintact.announced hbit).1
    refine ⟨hintact, ?_, ?_, fun _ hno => absurd hbit hno⟩
    · rw [hkeep.1, hkeep.2]
      exact h.register
    · exact ⟨fun _ => Or.inl hbit, fun _ => hvalid⟩
  · rw [Tables.enqueue, if_neg hp]
    exact h

lemma Announcing.dequeue (h : Announcing T idle) : Announcing (T.dequeue T.nextThreadId) idle := by
  have hintact := h.toIntact.dequeue
  have hkeep : (T.unlinkFront T.nextThreadId).idleThreadValid = T.idleThreadValid ∧
      (T.unlinkFront T.nextThreadId).idleThreadId = T.idleThreadId := by
    simp only [Tables.unlinkFront, Tables.runEncoder]
    split_ifs <;> exact ⟨rfl, rfl⟩
  have hreg := h.register
  rw [← hkeep.1, ← hkeep.2] at hreg
  rw [Tables.dequeue] at hintact ⊢
  generalize T.unlinkFront T.nextThreadId = U at hintact hreg
  by_cases hz : isEncoderZero U.encoderInput = true
  · have hno := Tables.isEncoderZero_eq_true_iff.mp hz
    rw [Tables.announce, if_pos hz] at hintact ⊢
    refine ⟨hintact, hreg, ?_, fun hv _ => ?_⟩
    · exact ⟨Or.inr, fun hv => hv.resolve_left hno⟩
    · exact if_pos hv
  · have hbit : ∃ p, U.encoderInput p = true := by
      rw [Tables.isEncoderZero_eq_true_iff, not_not] at hz
      exact hz
    rw [Tables.announce, if_neg hz] at hintact ⊢
    exact ⟨hintact, hreg, ⟨fun _ => Or.inl hbit, fun _ => rfl⟩, fun _ hno => absurd hbit hno⟩

lemma Announcing.setIdleThread (h : Announcing T idle) {entry : Word}
    (hk : T.idleAllowed entry tid = true →
      (∃ u, T.queued u = true) ∨ T.nextThreadValid = false ∨ T.nextThreadId = tid) :
    Announcing (T.setIdleThread entry tid)
      (if T.idleAllowed entry tid then some tid else idle) := by
  have hintact : Intact (T.setIdleThread entry tid) := h.toIntact.setIdleThread entry
  by_cases ha : T.idleAllowed entry tid = true
  · rw [Tables.setIdleThread, if_pos ha] at hintact ⊢
    rw [if_pos ha]
    refine ⟨hintact, rfl, ⟨fun _ => Or.inr rfl, fun _ => rfl⟩, fun _ hno => ?_⟩
    rcases hk ha with hq | hv | hn
    · exact absurd (h.queued_iff.mp hq) hno
    · simp only [hv, Bool.false_eq_true, if_false]
    · simp only [hn, ite_self]
  · rw [Tables.setIdleThread, if_neg ha, if_neg ha]
    exact h

-- what a change of priority leaves of the announcement, and what the refresh makes of it
structure Unannounced (T R : Tables) : Prop where
  valid : R.nextThreadValid = T.nextThreadValid
  idleValid : R.idleThreadValid = T.idleThreadValid
  idleId : R.idleThreadId = T.idleThreadId
  bits : (∃ p, R.encoderInput p = true) ↔ ∃ p, T.encoderInput p = true

lemma Announcing.refresh {R : Tables} (h : Announcing T idle) (hR : Unannounced T R)
    (hi : Intact R.refresh) : Announcing R.refresh idle := by
  have hvalid : R.nextThreadValid = true ↔
      (∃ p, R.encoderInput p = true) ∨ R.idleThreadValid = true := by
    rw [hR.valid, hR.bits, hR.idleValid]
    exact h.valid
  refine ⟨hi, ?_, hvalid, fun hv hno => ?_⟩
  · simp only [Tables.refresh, hR.idleValid, hR.idleId]
    exact h.register
  · have hz := Tables.isEncoderZero_eq_true_iff.mpr hno
    have hiv := (hvalid.mp hv).resolve_left hno
    simp only [Tables.refresh] at hz ⊢
    simp only [hz, hiv, Bool.and_self, if_true]

lemma reprioritize_unannounced (h : Intact T) {p : Priority}
    (hm : T.queued tid = true → T.Movable T.readyList tid p) :
    Unannounced T (T.reprioritize tid p) := by
  rw [Tables.reprioritize]
  split
  case isTrue hq =>
    refine ⟨move_nextThreadValid p, ?_, ?_, fun _ => ?_, fun _ => ?_⟩
    · simp only [Tables.move, Tables.runEncoder, Tables.link, Tables.unlink]
      split_ifs <;> rfl
    · simp only [Tables.move, Tables.runEncoder, Tables.link, Tables.unlink]
      split_ifs <;> rfl
    · exact h.queued_iff.mp ⟨tid, hq⟩
    · refine ⟨p, ((h.lists.move hq (hm hq)).bit p).mpr ?_⟩
      rw [Fifo.move, push_self]
      simp
  case isFalse => exact ⟨rfl, rfl, rfl, Iff.rfl⟩

lemma Announcing.setSchedParam (h : Announcing T idle) {cpu : ThreadId} {param entry : Word}
    (hm : isSoftwareParam param = true → schedParamAllowed entry tid cpu = true →
      T.queued tid = true → T.Movable T.readyList tid (paramPriority param)) :
    Announcing (T.setSchedParam entry cpu tid param) idle := by
  have hintact := h.toIntact.setSchedParam hm
  have hstored : Announcing { T with param := Function.update T.param tid param } idle :=
    ⟨h.toIntact.storeParam param, h.register, h.valid, h.idle⟩
  rw [Tables.setSchedParam] at hintact ⊢
  split at hintact
  case isTrue hp =>
    obtain ⟨hsw, hallowed⟩ := Bool.and_eq_true_iff.mp hp
    rw [if_pos hp]
    refine hstored.refresh (reprioritize_unannounced hstored.toIntact fun hq => ?_) hintact
    exact (hm hsw hallowed hq).of_eq rfl rfl
  case isFalse hp =>
    rw [if_neg hp]
    exact hstored

lemma announcing_step (e : Environment) (cmd : Command) (T : Tables) (idle : Option ThreadId)
    (h : Announcing T idle) (hg : announceGuard e cmd T ∧ keepsAnnouncement e cmd T) :
    Announcing (cmd.effect e T) (latestIdle e cmd T idle) := by
  obtain ⟨hg, hk⟩ := hg
  cases cmd with
  | enqueue tid => exact h.enqueue hg
  | dequeue =>
    rw [Command.effect, show e.currentCpuTid = T.nextThreadId from hg]
    exact h.dequeue
  | setSchedParam tid param => exact h.setSchedParam hk
  | setIdleThread tid => exact h.setIdleThread hk
  | isQueued tid => exact h
  | isEmpty => exact h
  | getSchedParam tid => exact h
  | checkSchedParam tid => exact h
  | getEntry tid => exact h

lemma announcing_initial : Announcing .initial none := by
  refine ⟨intact_initial, rfl, ?_, fun hv => Bool.noConfusion hv⟩
  constructor
  · intro hv
    exact Bool.noConfusion hv
  · rintro (⟨p, hp⟩ | hv)
    · exact Bool.noConfusion hp
    · exact Bool.noConfusion hv

theorem announcement_right_on_kept_runs (e : Environment) (c : Core)
    (hc : c.regs.insideReset = false) (cmds : List (Environment × Command))
    (hcmds : (c.softReset e).Allowed
      (fun e cmd T => announceGuard e cmd T ∧ keepsAnnouncement e cmd T) cmds) :
    AnnouncesRight ((c.softReset e).run cmds).tables
      ((c.softReset e).follow latestIdle cmds none) := by
  have hreset := softReset_spec e hc
  have hrun := run_simulates announcing_step hreset.toQuiescent
    (hreset.tables ▸ announcing_initial) hcmds
  exact hrun.2.right

def plainRun : List (Environment × Command) :=
  let e (cpu : ThreadId) : Environment := ⟨cpu, fun _ => 0x20⟩
  [(e 9, .setIdleThread 4), (e 4, .enqueue 1), (e 4, .enqueue 2), (e 2, .setSchedParam 2 0x05),
    (e 4, .setIdleThread 5), (e 2, .dequeue), (e 1, .dequeue), (e 5, .dequeue)]

theorem announcement_right_on_plainRun :
    AnnouncesRight ((Core.powerUp.softReset ⟨0, fun _ => 0⟩).run plainRun).tables
      ((Core.powerUp.softReset ⟨0, fun _ => 0⟩).follow latestIdle plainRun none) := by
  have hreset := softReset_spec ⟨0, fun _ => 0⟩ (c := Core.powerUp) rfl
  refine announcement_right_on_kept_runs _ _ rfl _ ?_
  rw [allowed_iff_tables hreset.toQuiescent, hreset.tables]
  refine ⟨⟨trivial, fun _ => Or.inr (Or.inl ?_)⟩, ⟨?_, trivial⟩, ⟨?_, trivial⟩,
    ⟨trivial, fun _ _ _ => .after (l := []) (r := []) ?_⟩, ⟨trivial, fun _ => Or.inl ⟨1, ?_⟩⟩,
    ⟨?_, trivial⟩, ⟨?_, trivial⟩, ⟨?_, trivial⟩, trivial⟩
  all_goals decide

def twoIdleThreads : List (Environment × Command) :=
  [(⟨0, fun _ => 0x20⟩, .setIdleThread 1), (⟨0, fun _ => 0x20⟩, .setIdleThread 2)]

theorem announcement_wrong_after_second_idle :
    ¬ ∀ (e : Environment) (c : Core), c.regs.insideReset = false →
      ∀ cmds, (c.softReset e).Allowed announceGuard cmds →
        AnnouncesRight ((c.softReset e).run cmds).tables
          ((c.softReset e).follow latestIdle cmds none) := by
  intro hclaim
  have hreset := softReset_spec ⟨0, fun _ => 0⟩ (c := Core.powerUp) rfl
  have hright := hclaim ⟨0, fun _ => 0⟩ Core.powerUp rfl twoIdleThreads ⟨trivial, trivial, trivial⟩
  rw [follow_tables _ hreset.toQuiescent, (run_tables hreset.toQuiescent _).2, hreset.tables]
    at hright
  have hidle := hright.idle (by decide) (by decide)
  exact absurd hidle (by decide)

end Hthreads.Scheduler
