import Hthreads.Scheduler.Operations
import Hthreads.Scheduler.Runs

/-! The scheduler's tables as 128 first-in first-out queues, and the invariant that survives every
command as long as queued threads are moved from places where their previous pointers can be
followed. -/

namespace Hthreads.Scheduler

open Library Library.BitFields Library.Fifo

namespace Tables

variable {T T' : Tables} {q : Priority → List ThreadId} {t : ThreadId} {p p' : Priority}

def BackLinked (T : Tables) (q : Priority → List ThreadId) : Prop :=
  ∀ p, (q p).IsChain fun a b => T.prev b = a

lemma BackLinked.congr (hb : T.BackLinked q) (hprev : ∀ p, ∀ u ∈ q p, T'.prev u = T.prev u) :
    T'.BackLinked q := by
  intro p
  refine (hb p).imp_of_mem_imp fun a b _ hbm hab => ?_
  rw [hprev p b hbm]
  exact hab

lemma BackLinked.of_isInfix {q' : Priority → List ThreadId} (hb : T.BackLinked q)
    (h : ∀ p, q' p <:+: q p) : T.BackLinked q' :=
  fun p => List.IsChain.infix (hb p) (h p)

lemma link_prev_of_ne {entry pri : Word} {u : ThreadId} (hu : u ≠ t) :
    (T.link t entry pri p).prev u = T.prev u := by
  simp only [link]
  split_ifs
  · by_cases hold : u = getTailPointer pri
    · subst hold
      simp [prev, hu]
    · simp [prev, hu, hold]
  · simp [prev, hu]

lemma BackLinked.link (hb : T.BackLinked q) (h : T.ListsBut q t) {entry pri : Word}
    (hpri : pri = T.priority p) : (T.link t entry pri p).BackLinked (push q p t) := by
  have hkeep : (T.link t entry pri p).BackLinked q :=
    hb.congr fun r u hu => link_prev_of_ne fun heq => h.absent r (heq ▸ hu)
  intro r
  by_cases hrp : r = p
  · subst hrp
    rw [push_self]
    refine (hkeep r).append (List.isChain_singleton t) ?_
    intro a ha b hb'
    have hne : q r ≠ [] := by
      rintro hnil
      rw [hnil] at ha
      simp at ha
    obtain ⟨m, hm⟩ := (h.path r hne).exists_concat
    have hat : T.tail r = a := by
      rw [hm] at ha
      simpa using ha
    have hbt : t = b := by simpa using hb'
    subst hbt
    rw [link_set ((h.bit r).mpr hne), hpri, ← hat]
    simp [prev, tail]
  · rw [push_of_ne q p t hrp]
    exact hkeep r

lemma BackLinked.enqueue (hb : T.BackLinked q) (h : T.Lists q)
    (hp : isSoftwareParam (T.param t) = true) (ht : T.queued t = false) :
    (T.enqueue t).BackLinked (push q (T.level t) t) := by
  have hlink : (T.link t (setQueueBit true (T.thread t)) (T.priority (T.level t))
      (T.level t)).BackLinked (push q (T.level t) t) := hb.link (h.but ht) rfl
  refine hlink.congr fun p u _ => ?_
  rw [prev, (enqueue_linked hp).1]
  rfl

lemma unlinkFront_prev (u : ThreadId) : (T.unlinkFront t).prev u = T.prev u := by
  simp only [unlinkFront]
  by_cases hut : u = t
  · subst hut
    split_ifs <;> simp [runEncoder, prev]
  · split_ifs <;> simp [runEncoder, prev, hut]

lemma announce_prev (u : ThreadId) : T.announce.prev u = T.prev u := by
  rw [announce]
  split <;> rfl

lemma popBest_isInfix (q : Priority → List ThreadId) (p : Priority) : popBest q p <:+: q p := by
  cases hfirst : firstSet fun p => !(q p).isEmpty with
  | some r =>
    simp only [popBest, hfirst]
    by_cases hp : p = r
    · rw [hp, pop_self]
      exact (List.tail_suffix _).isInfix
    · rw [pop_of_ne q r hp]
  | none =>
    simp only [popBest, hfirst]
    exact List.infix_rfl

lemma BackLinked.dequeue (hb : T.BackLinked q) : (T.dequeue t).BackLinked (popBest q) := by
  refine (hb.of_isInfix (popBest_isInfix q)).congr fun p u _ => ?_
  rw [Tables.dequeue, announce_prev, unlinkFront_prev]

end Tables

/-- What the ready queues are for: a queue for every priority and a priority for every thread. -/
structure ReadyQueues where
  queue : Priority → List ThreadId
  level : ThreadId → Priority

namespace ReadyQueues

def initial : ReadyQueues := ⟨fun _ => [], fun _ => 0b1000000⟩

def step : Command → ReadyQueues → ReadyQueues
  | .enqueue tid, Q => { Q with queue := push Q.queue (Q.level tid) tid }
  | .dequeue, Q => { Q with queue := Tables.popBest Q.queue }
  | .setSchedParam tid param, Q =>
    { Q with level := Function.update Q.level tid (paramPriority param) }
  | _, Q => Q

def run (cmds : List (Environment × Command)) : ReadyQueues :=
  cmds.foldl (fun Q x => step x.2 Q) initial

end ReadyQueues

/-- The tables hold the queues: links in both directions, ends, encoder bits, queued bits. -/
structure Represents (T : Tables) (Q : ReadyQueues) : Prop where
  queues : T.readyList = Q.queue
  chain : ∀ p, Q.queue p ≠ [] → Path T.next (T.tail p) (T.head p) (Q.queue p)
  back : T.BackLinked Q.queue
  nodup : ∀ p, (Q.queue p).Nodup
  bit : ∀ p, T.encoderInput p = true ↔ Q.queue p ≠ []
  queued : ∀ tid, T.queued tid = true ↔ ∃! p, tid ∈ Q.queue p
  unqueued : ∀ tid, T.queued tid = false ↔ ∀ p, tid ∉ Q.queue p
  level : T.level = Q.level

-- the invariant that the commands keep
structure Holds (T : Tables) (Q : ReadyQueues) : Prop where
  lists : T.Lists Q.queue
  back : T.BackLinked Q.queue
  level : T.level = Q.level
  fresh : T.Fresh
  announced : T.HeadAnnounced

lemma Holds.represents {T : Tables} {Q : ReadyQueues} (h : Holds T Q) : Represents T Q := by
  have hmem : ∀ tid, T.queued tid = true ↔ ∃ p, tid ∈ Q.queue p := by
    intro tid
    constructor
    · intro ht
      exact ⟨_, h.lists.exists_mem ht⟩
    · rintro ⟨p, hp⟩
      exact h.lists.queued_eq hp
  refine ⟨h.lists.eq_readyList.symm, h.lists.path, h.back, h.lists.nodup, h.lists.bit,
    fun tid => ?_, fun tid => ?_, h.level⟩
  · rw [hmem tid]
    constructor
    · rintro ⟨p, hp⟩
      exact ⟨p, hp, fun r hr => h.lists.unique hr hp⟩
    · exact ExistsUnique.exists
  · rw [← Bool.not_eq_true, hmem tid, not_exists]

def queueGuard : Guard := fun e cmd T =>
  match cmd with
  | .enqueue tid => T.queued tid = false ∧ isSoftwareParam (T.param tid) = true
  | .dequeue => e.currentCpuTid = T.nextThreadId
  | .setSchedParam tid param =>
    isSoftwareParam param = true ∧ schedParamAllowed (e.swtm tid) tid e.currentCpuTid = true ∧
      T.queued tid = false
  | _ => True

instance queueGuard.decidable (e : Environment) (cmd : Command) (T : Tables) :
    Decidable (queueGuard e cmd T) :=
  match cmd with
  | .enqueue _ | .setSchedParam _ _ => inferInstanceAs (Decidable (_ ∧ _))
  | .dequeue => inferInstanceAs (Decidable (e.currentCpuTid = T.nextThreadId))
  | .isQueued _ | .isEmpty | .setIdleThread _ | .getSchedParam _ | .checkSchedParam _
  | .getEntry _ => inferInstanceAs (Decidable True)

section Steps

variable {T : Tables} {Q : ReadyQueues}

lemma Holds.enqueue (h : Holds T Q) {tid : ThreadId} (ht : T.queued tid = false)
    (hp : isSoftwareParam (T.param tid) = true) :
    Holds (T.enqueue tid) (Q.step (.enqueue tid)) := by
  have hlevel : Q.level = T.level := h.level.symm
  refine ⟨?_, ?_, ?_, h.fresh.enqueue hp, Tables.headAnnounced_enqueue hp⟩
  · rw [ReadyQueues.step, hlevel]
    exact h.lists.enqueue hp ht
  · rw [ReadyQueues.step, hlevel]
    exact h.back.enqueue h.lists hp ht
  · exact (Tables.enqueue_level hp).trans h.level

lemma Holds.dequeue (h : Holds T Q) : Holds (T.dequeue T.nextThreadId) (Q.step .dequeue) :=
  ⟨h.lists.dequeue_announced h.fresh h.announced, h.back.dequeue,
    (Tables.dequeue_level T T.nextThreadId).trans h.level, h.fresh.unlinkFront.announce,
    Tables.headAnnounced_announce _⟩

lemma Holds.setSchedParam (h : Holds T Q) {tid cpu : ThreadId} {param entry : Word}
    (hp : isSoftwareParam param = true) (ha : schedParamAllowed entry tid cpu = true)
    (ht : T.queued tid = false) :
    Holds (T.setSchedParam entry cpu tid param) (Q.step (.setSchedParam tid param)) := by
  rw [Tables.setSchedParam_of_unqueued hp ha ht]
  refine ⟨?_, ?_, ?_, h.fresh, Tables.headAnnounced_refresh fun hq => (h.announced hq).1⟩
  · exact (h.lists.setLevel ht).of_eq rfl rfl rfl
  · exact h.back.congr fun _ u _ => congrFun Tables.setLevel_prev u
  · rw [ReadyQueues.step, ← h.level]
    exact Tables.setLevel_level

lemma Holds.setIdleThread (h : Holds T Q) (entry : Word) (tid : ThreadId) :
    Holds (T.setIdleThread entry tid) (Q.step (.setIdleThread tid)) := by
  rw [Tables.setIdleThread]
  split
  · refine ⟨h.lists.of_eq rfl rfl rfl, h.back, h.level, h.fresh, fun hq => ?_⟩
    obtain ⟨hvalid, hnext⟩ := h.announced hq
    refine ⟨rfl, ?_⟩
    simp only [hvalid, if_true]
    exact hnext
  · exact h

end Steps

lemma initial_queued (tid : ThreadId) : Tables.initial.queued tid = false := by
  simp only [Tables.queued, Tables.initial, resetEntry, getQueueBit_setPriority]
  simp only [getQueueBit, bit, BitVec.getLsbD_append]
  rfl

lemma holds_initial : Holds .initial .initial := by
  have hnone : ¬ ∃ p, Tables.initial.encoderInput p = true := by
    rintro ⟨p, hp⟩
    exact Bool.noConfusion hp
  have hends : getHeadPointer 0 = getTailPointer 0 := by decide
  refine ⟨⟨?_, ?_, fun _ _ => hends, ?_⟩, fun _ => .nil, ?_, fun h => absurd h hnone,
    fun h => absurd h hnone⟩
  · intro p hp
    exact absurd rfl hp
  · intro p
    exact ⟨fun hp => Bool.noConfusion hp, fun hp => absurd rfl hp⟩
  · intro tid p
    rw [initial_queued tid]
    simp [ReadyQueues.initial]
  · funext tid
    exact getPriority_setPriority _ _

lemma holds_step (e : Environment) (cmd : Command) (T : Tables) (Q : ReadyQueues) (h : Holds T Q)
    (hg : queueGuard e cmd T) : Holds (cmd.effect e T) (Q.step cmd) := by
  cases cmd with
  | enqueue tid => exact h.enqueue hg.1 hg.2
  | dequeue =>
    rw [Command.effect, show e.currentCpuTid = T.nextThreadId from hg]
    exact h.dequeue
  | setSchedParam tid param => exact h.setSchedParam hg.1 hg.2.1 hg.2.2
  | setIdleThread tid => exact h.setIdleThread (e.swtm tid) tid
  | isQueued tid => exact h
  | isEmpty => exact h
  | getSchedParam tid => exact h
  | checkSchedParam tid => exact h
  | getEntry tid => exact h

theorem ready_queues_refined (e : Environment) (c : Core) (hc : c.regs.insideReset = false)
    (cmds : List (Environment × Command)) (hcmds : (c.softReset e).Allowed queueGuard cmds) :
    Represents ((c.softReset e).run cmds).tables (ReadyQueues.run cmds) := by
  have hreset := softReset_spec e hc
  have hrun := run_simulates holds_step hreset.toQuiescent (hreset.tables ▸ holds_initial) hcmds
  rw [follow_eq_foldl ReadyQueues.step] at hrun
  exact hrun.2.represents

-- thread 1 is dequeued in front of thread 2, then the idle thread 4 alone is left
def sampleRun : List (Environment × Command) :=
  let e (cpu : ThreadId) : Environment := ⟨cpu, fun _ => 0x20⟩
  [(e 9, .setSchedParam 9 0x05), (e 9, .enqueue 1), (e 9, .enqueue 2), (e 9, .setIdleThread 4),
    (e 1, .dequeue), (e 2, .dequeue), (e 4, .dequeue), (e 4, .enqueue 9)]

theorem ready_queues_refined_sample :
    Represents ((Core.powerUp.softReset ⟨0, fun _ => 0⟩).run sampleRun).tables
      (ReadyQueues.run sampleRun) := by
  have hreset := softReset_spec ⟨0, fun _ => 0⟩ (c := Core.powerUp) rfl
  refine ready_queues_refined _ _ rfl _ ?_
  rw [allowed_iff_tables hreset.toQuiescent, hreset.tables]
  decide

structure Intact (T : Tables) : Prop where
  lists : T.Lists T.readyList
  fresh : T.Fresh
  announced : T.HeadAnnounced

variable {T : Tables} {tid : ThreadId}

lemma Intact.of_lists {q : Priority → List ThreadId} (h : T.Lists q) (hf : T.Fresh)
    (ha : T.HeadAnnounced) : Intact T :=
  ⟨h.eq_readyList ▸ h, hf, ha⟩

lemma Intact.enqueue (h : Intact T) (ht : T.queued tid = false) : Intact (T.enqueue tid) := by
  by_cases hp : isSoftwareParam (T.param tid) = true
  · exact .of_lists (h.lists.enqueue hp ht) (h.fresh.enqueue hp) (Tables.headAnnounced_enqueue hp)
  · rw [Tables.enqueue, if_neg hp]
    exact h

lemma Intact.dequeue (h : Intact T) : Intact (T.dequeue T.nextThreadId) :=
  .of_lists (h.lists.dequeue_announced h.fresh h.announced) h.fresh.unlinkFront.announce
    (Tables.headAnnounced_announce _)

lemma Intact.setIdleThread (h : Intact T) (entry : Word) : Intact (T.setIdleThread entry tid) := by
  rw [Tables.setIdleThread]
  split
  · refine .of_lists (h.lists.of_eq rfl rfl rfl) h.fresh fun hq => ?_
    obtain ⟨hvalid, hnext⟩ := h.announced hq
    refine ⟨rfl, ?_⟩
    simp only [hvalid, if_true]
    exact hnext
  · exact h

lemma Intact.storeParam (h : Intact T) (param : Word) :
    Intact { T with param := Function.update T.param tid param } :=
  .of_lists (h.lists.of_eq rfl rfl rfl) h.fresh h.announced

lemma move_nextThreadValid (p : Priority) :
    (T.move tid p).nextThreadValid = T.nextThreadValid := by
  simp only [Tables.move, Tables.runEncoder, Tables.link, Tables.unlink]
  split_ifs <;> rfl

lemma Intact.reprioritize (h : Intact T) {p : Priority}
    (hm : T.queued tid = true → T.Movable T.readyList tid p) :
    Intact (T.reprioritize tid p).refresh := by
  rw [Tables.reprioritize]
  split
  case isTrue hq =>
    have hvalid : T.nextThreadValid = true :=
      (h.announced ⟨_, (h.lists.bit _).mpr (List.ne_nil_of_mem (h.lists.exists_mem hq))⟩).1
    have hfresh : (T.move tid p).Fresh := Tables.fresh_runEncoder _
    refine .of_lists ((h.lists.move hq (hm hq)).of_eq rfl rfl rfl) hfresh ?_
    · apply Tables.headAnnounced_refresh
      intro _
      rw [move_nextThreadValid]
      exact hvalid
  case isFalse hq =>
    rw [Bool.not_eq_true] at hq
    refine .of_lists ((h.lists.setLevel hq).of_eq rfl rfl rfl) h.fresh ?_
    exact Tables.headAnnounced_refresh fun hb => (h.announced hb).1

lemma Intact.setSchedParam (h : Intact T) {cpu : ThreadId} {param entry : Word}
    (hm : isSoftwareParam param = true → schedParamAllowed entry tid cpu = true →
      T.queued tid = true → T.Movable T.readyList tid (paramPriority param)) :
    Intact (T.setSchedParam entry cpu tid param) := by
  rw [Tables.setSchedParam]
  split
  case isTrue hp =>
    obtain ⟨hsw, hallowed⟩ := Bool.and_eq_true_iff.mp hp
    exact (h.storeParam param).reprioritize fun hq => (hm hsw hallowed hq).of_eq rfl rfl
  case isFalse => exact h.storeParam param

lemma intact_initial : Intact .initial :=
  .of_lists holds_initial.lists holds_initial.fresh holds_initial.announced

end Hthreads.Scheduler
