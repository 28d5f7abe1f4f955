import Hthreads.Scheduler.Removal

/-! The queue operations on well-formed tables. -/

namespace Hthreads.Scheduler.Tables

open Library Library.Fifo

variable {T T' : Tables} {q : Priority → List ThreadId} {t : ThreadId} {p p' : Priority}

-- the encoder has searched the present input
def Fresh (T : Tables) : Prop :=
  (∃ p, T.encoderInput p = true) → firstSet T.encoderInput = some T.encoderOutput

-- the announced thread is the front of the best list
def HeadAnnounced (T : Tables) : Prop :=
  (∃ p, T.encoderInput p = true) →
    T.nextThreadValid = true ∧ T.nextThreadId = T.head T.encoderOutput

lemma fresh_runEncoder (T : Tables) : T.runEncoder.Fresh :=
  fun h => Encoder.search_of_exists h T.encoderOutput

lemma Fresh.isBest (hf : T.Fresh) (h : T.Lists q) (hq : ∃ p, q p ≠ []) :
    IsBest q T.encoderOutput := by
  obtain ⟨p, hp⟩ := hq
  obtain ⟨hset, hlow⟩ := (firstSet_eq_some_iff _ _).mp (hf ⟨p, (h.bit p).mpr hp⟩)
  exact ⟨(h.bit _).mp hset, fun r hr => h.bit_false.mp (hlow r hr)⟩

lemma isEncoderZero_eq_true_iff {input : Priority → Bool} :
    isEncoderZero input = true ↔ ¬ ∃ p, input p = true := by
  simp [isEncoderZero]

lemma Lists.unqueued_of_empty (h : T.Lists q) (hq : ∀ p, q p = []) (t : ThreadId) :
    T.queued t = false := by
  rw [← Bool.not_eq_true]
  intro ht
  have hm := h.exists_mem ht
  rw [hq] at hm
  exact List.not_mem_nil hm

lemma ListsBut.lists_link (h : T.ListsBut q t) {entry : Word} (hq : getQueueBit entry = true)
    (hl : getPriority entry = p) {pri : Word} (hpri : pri = T.priority p) :
    (T.link t entry pri p).Lists (push q p t) := by
  by_cases hp : q p = []
  · exact h.link_first hq hl hp
  · exact h.link_last hq hl hp (congrArg getHeadPointer hpri) (congrArg getTailPointer hpri)

lemma enqueue_linked (hp : isSoftwareParam (T.param t) = true) :
    let linked := T.link t (setQueueBit true (T.thread t)) (T.priority (T.level t)) (T.level t)
    (T.enqueue t).thread = linked.thread ∧ (T.enqueue t).priority = linked.priority ∧
      (T.enqueue t).encoderInput = linked.encoderInput := by
  simp only [Tables.enqueue, hp, if_true]
  cases T.encoderInput (T.level t) <;> exact ⟨rfl, rfl, rfl⟩

lemma Lists.enqueue (h : T.Lists q) (hp : isSoftwareParam (T.param t) = true)
    (ht : T.queued t = false) : (T.enqueue t).Lists (push q (T.level t) t) := by
  have hlink : (T.link t (setQueueBit true (T.thread t)) (T.priority (T.level t))
      (T.level t)).Lists (push q (T.level t) t) :=
    (h.but ht).lists_link (by simp) (by simp [level]) rfl
  obtain ⟨hthread, hpriority, hinput⟩ := enqueue_linked hp
  exact hlink.of_eq hthread hpriority hinput

lemma Fresh.enqueue (hf : T.Fresh) (hp : isSoftwareParam (T.param t) = true) :
    (T.enqueue t).Fresh := by
  cases hb : T.encoderInput (T.level t) with
  | true =>
    simp only [Tables.enqueue, hp, if_true, hb, link_set hb]
    exact hf
  | false =>
    simp only [Tables.enqueue, hp, if_true, hb, Bool.false_eq_true, if_false]
    exact fresh_runEncoder (T.link t (setQueueBit true (T.thread t)) (T.priority (T.level t))
      (T.level t))

lemma headAnnounced_enqueue (hp : isSoftwareParam (T.param t) = true) :
    (T.enqueue t).HeadAnnounced := by
  intro _
  rw [Tables.enqueue, if_pos hp]
  exact ⟨rfl, rfl⟩

lemma Fresh.unlinkFront (hf : T.Fresh) : (T.unlinkFront t).Fresh := by
  by_cases hends : T.head (T.level t) = T.tail (T.level t)
  · simp only [Tables.unlinkFront, if_pos hends]
    exact fresh_runEncoder _
  · simp only [Tables.unlinkFront, if_neg hends]
    exact hf

lemma Lists.announce (h : T.Lists q) : T.announce.Lists q := by
  rw [Tables.announce]
  split <;> exact h.of_eq rfl rfl rfl

lemma Fresh.announce (hf : T.Fresh) : T.announce.Fresh := by
  rw [Tables.announce]
  split <;> exact hf

lemma headAnnounced_announce (T : Tables) : T.announce.HeadAnnounced := by
  intro hq
  by_cases hz : isEncoderZero T.encoderInput = true
  · rw [Tables.announce, if_pos hz] at hq
    exact absurd hq (isEncoderZero_eq_true_iff.mp hz)
  · rw [Tables.announce, if_neg hz]
    exact ⟨rfl, rfl⟩

def popBest (q : Priority → List ThreadId) : Priority → List ThreadId :=
  match firstSet fun p => !(q p).isEmpty with
  | some p => pop q p
  | none => q

lemma popBest_of_isBest (h : IsBest q p) : popBest q = pop q p := by
  have hfirst : firstSet (fun p => !(q p).isEmpty) = some p := by
    apply (firstSet_eq_some_iff _ _).mpr
    refine ⟨by simp [h.1], fun r hr => by simp [h.2 r hr]⟩
  rw [popBest, hfirst]

lemma popBest_of_empty (h : ∀ p, q p = []) : popBest q = q := by
  have hfirst : firstSet (fun p => !(q p).isEmpty) = none :=
    (firstSet_eq_none_iff _).mpr fun p => by simp [h p]
  rw [popBest, hfirst]

lemma Lists.front_of_announced (h : T.Lists q) (hf : T.Fresh) (ha : T.HeadAnnounced)
    (hq : ∃ p, q p ≠ []) :
    IsBest q T.encoderOutput ∧ ∃ l, q T.encoderOutput = T.nextThreadId :: l := by
  have hbest := hf.isBest h hq
  obtain ⟨l, hl⟩ := (h.path _ hbest.1).exists_cons
  obtain ⟨-, hnext⟩ := ha ⟨_, (h.bit _).mpr hbest.1⟩
  exact ⟨hbest, l, hnext ▸ hl⟩

lemma Lists.dequeue_announced (h : T.Lists q) (hf : T.Fresh) (ha : T.HeadAnnounced) :
    (T.dequeue T.nextThreadId).Lists (popBest q) := by
  rw [Tables.dequeue]
  apply Lists.announce
  by_cases hq : ∃ p, q p ≠ []
  · obtain ⟨hbest, l, hl⟩ := h.front_of_announced hf ha hq
    rw [popBest_of_isBest hbest]
    exact unlinkFront_head h hl
  · push Not at hq
    rw [popBest_of_empty hq]
    exact unlinkFront_unqueued h (h.unqueued_of_empty hq _) (hq _)

lemma link_level {entry pri : Word} {u : ThreadId} :
    (T.link t entry pri p).level u = if u = t then getPriority entry else T.level u := by
  by_cases hu : u = t
  · subst hu
    simp only [Tables.link]
    split <;> simp [level]
  · simp only [Tables.link, if_neg hu]
    split
    · by_cases hold : u = getTailPointer pri
      · subst hold
        simp [level, hu]
      · simp [level, hu, hold]
    · simp [level, hu]

lemma enqueue_level (hp : isSoftwareParam (T.param t) = true) : (T.enqueue t).level = T.level := by
  funext u
  rw [level, (enqueue_linked hp).1]
  exact (link_level (u := u)).trans (by split <;> simp [level, *])

lemma unlinkFront_level (T : Tables) (t : ThreadId) : (T.unlinkFront t).level = T.level := by
  funext u
  simp only [Tables.unlinkFront]
  by_cases hut : u = t
  · subst hut
    split_ifs <;> simp [runEncoder, level]
  · split_ifs <;> simp [runEncoder, level, hut]

lemma dequeue_level (T : Tables) (t : ThreadId) : (T.dequeue t).level = T.level := by
  rw [Tables.dequeue, ← unlinkFront_level T t, Tables.announce]
  split <;> rfl

section SetSchedParam

variable {cpu : ThreadId} {param entry : Word}

lemma setSchedParam_of_queued (hp : isSoftwareParam param = true)
    (ha : schedParamAllowed entry t cpu = true) (hq : T.queued t = true) :
    T.setSchedParam entry cpu t param =
      (Tables.move { T with param := Function.update T.param t param } t
        (paramPriority param)).refresh := by
  have hq' : Tables.queued { T with param := Function.update T.param t param } t = true := hq
  simp only [Tables.setSchedParam, hp, ha, Bool.and_self, if_true, Tables.reprioritize, hq']

lemma setSchedParam_of_unqueued (hp : isSoftwareParam param = true)
    (ha : schedParamAllowed entry t cpu = true) (hq : T.queued t = false) :
    T.setSchedParam entry cpu t param =
      Tables.refresh { T with
        param := Function.update T.param t param
        thread := Function.update T.thread t
          (setPriority (paramPriority param) (T.thread t)) } := by
  have hq' : Tables.queued { T with param := Function.update T.param t param } t = false := hq
  simp only [Tables.setSchedParam, hp, ha, Bool.and_self, if_true, Tables.reprioritize, hq',
    Bool.false_eq_true, if_false]

lemma setSchedParam_of_refused
    (hp : (isSoftwareParam param && schedParamAllowed entry t cpu) = false) :
    T.setSchedParam entry cpu t param =
      { T with param := Function.update T.param t param } := by
  simp only [Tables.setSchedParam, hp, Bool.false_eq_true, if_false]

end SetSchedParam

section SetLevel

lemma Lists.setLevel (h : T.Lists q) (ht : T.queued t = false) :
    { T with thread := Function.update T.thread t (setPriority p (T.thread t)) }.Lists q := by
  have hnext : Tables.next { T with
      thread := Function.update T.thread t (setPriority p (T.thread t)) } = T.next := by
    funext u
    by_cases hut : u = t <;> simp [next, hut]
  refine ⟨?_, h.bit, h.stale, fun u r => ?_⟩
  · rw [hnext]
    exact h.path
  · rw [h.mem u r]
    by_cases hut : u = t
    · subst hut
      have hq : getQueueBit (T.thread u) = false := ht
      simp [queued, hq]
    · simp [queued, level, hut]

lemma setLevel_level : Tables.level { T with
      thread := Function.update T.thread t (setPriority p (T.thread t)) } =
    Function.update T.level t p := by
  funext u
  by_cases hut : u = t
  · subst hut
    simp [level]
  · simp [level, hut]

lemma setLevel_prev : Tables.prev { T with
      thread := Function.update T.thread t (setPriority p (T.thread t)) } = T.prev := by
  funext u
  by_cases hut : u = t <;> simp [prev, hut]

lemma headAnnounced_refresh (hv : (∃ p, T.encoderInput p = true) → T.nextThreadValid = true) :
    T.refresh.HeadAnnounced := by
  intro hq
  have hz : isEncoderZero T.encoderInput = false := by
    rw [← Bool.not_eq_true, isEncoderZero_eq_true_iff, not_not]
    exact hq
  refine ⟨hv hq, ?_⟩
  simp only [Tables.refresh, hz, Bool.false_and, Bool.false_eq_true, if_false]
  rfl

end SetLevel

section Move

lemma move_of_but (h : (T.unlink t).ListsBut (remove q p t) t) (hq : T.queued t = true)
    (hpri : T.priority p' = (T.unlink t).priority p') :
    (T.move t p').Lists (Fifo.move q p p' t) := by
  have hlink : ((T.unlink t).link t (setPriority p' (T.thread t)) (T.priority p') p').Lists
      (push (remove q p t) p' t) :=
    h.lists_link (by simpa [queued] using hq) (by simp) hpri
  exact hlink.of_eq rfl rfl rfl

-- where a thread may stand in its list for its move to keep every list intact
inductive Movable (T : Tables) (q : Priority → List ThreadId) (t : ThreadId) (p' : Priority) : Prop
  | alone : q (T.level t) = [t] → Movable T q t p'
  | front {z : ThreadId} {l : List ThreadId} :
    q (T.level t) = t :: z :: l → p' ≠ T.level t → Movable T q t p'
  | after {l r : List ThreadId} : q (T.level t) = l ++ T.prev t :: t :: r → Movable T q t p'
  | back {l : List ThreadId} : q (T.level t) = l ++ [t] → p' = T.level t → Movable T q t p'

lemma Movable.of_eq (h : T.Movable q t p') (hlevel : T'.level t = T.level t)
    (hprev : T'.prev t = T.prev t) : T'.Movable q t p' := by
  cases h with
  | alone hq => exact .alone (hlevel ▸ hq)
  | front hq hp => exact .front (hlevel ▸ hq) (hlevel ▸ hp)
  | after hq => exact .after (hprev ▸ hlevel ▸ hq)
  | back hq hp => exact .back (hlevel ▸ hq) (hlevel ▸ hp)

lemma move_back_eq (h : T.Lists q) {y : ThreadId} {l : List ThreadId}
    (hq : q (T.level t) = l ++ [y, t]) :
    T.move t (T.level t) = { T with
      thread := Function.update T.thread t (setPrevPointer t (setPriority (T.level t) (T.thread t)))
      priority := Function.update T.priority (T.level t)
        (setTailPointer t (T.priority (T.level t))) }.runEncoder := by
  have htail : T.tail (T.level t) = t := h.tail_eq (l := l ++ [y]) (by simpa using hq)
  have hbit : T.encoderInput (T.level t) = true := (h.bit _).mpr (by simp [hq])
  have hpri : getTailPointer (T.priority (T.level t)) = t := htail
  simp only [move, unlink_back_eq h hq, link, hbit, if_true, hpri, Function.update_idem]

lemma Lists.move_back (h : T.Lists q) {y : ThreadId} {l : List ThreadId}
    (hq : q (T.level t) = l ++ [y, t]) :
    (T.move t (T.level t)).Lists (Fifo.move q (T.level t) (T.level t) t) := by
  have htail : T.tail (T.level t) = t := h.tail_eq (l := l ++ [y]) (by simpa using hq)
  have hsame : Fifo.move q (T.level t) (T.level t) t = q := by
    have hrem := remove_split h (l := l ++ [y]) (r := []) (by simpa using hq)
    funext r
    by_cases hr : r = T.level t
    · rw [hr, Fifo.move, push_self, hrem, hq]
      simp
    · rw [Fifo.move, push_of_ne _ _ _ hr, remove_of_ne _ _ _ hr]
  rw [move_back_eq h hq, hsame]
  refine h.congr ?_ ?_ ?_ rfl ?_ ?_
  · funext u
    by_cases hut : u = t <;> simp [runEncoder, next, hut]
  · funext r
    by_cases hr : r = T.level t <;> simp [runEncoder, head, hr]
  · funext r
    by_cases hr : r = T.level t
    · rw [hr, htail]
      simp [runEncoder, tail]
    · simp [runEncoder, tail, hr]
  · funext u
    by_cases hut : u = t <;> simp [runEncoder, queued, hut]
  · funext u
    by_cases hut : u = t <;> simp [runEncoder, level, hut]

lemma Lists.move (h : T.Lists q) (ht : T.queued t = true) (hm : T.Movable q t p') :
    (T.move t p').Lists (Fifo.move q (T.level t) p' t) := by
  have halone (hq : q (T.level t) = [t]) : (T.move t p').Lists (Fifo.move q (T.level t) p' t) := by
    refine move_of_but (unlink_alone h hq) ht ?_
    rw [unlink_alone_eq h hq]
  cases hm with
  | alone hq => exact halone hq
  | front hq hp => exact move_of_but (unlink_front h hq) ht (unlink_priority_of_ne hp).symm
  | @back l hq hp =>
    rcases List.eq_nil_or_concat l with rfl | ⟨l, y, rfl⟩
    · exact halone hq
    · rw [hp]
      exact h.move_back (l := l) (y := y) (by simpa using hq)
  | @after l r hq =>
    cases r with
    | nil =>
      by_cases hp : p' = T.level t
      · rw [hp]
        exact h.move_back hq
      · exact move_of_but (unlink_back h hq rfl) ht (unlink_priority_of_ne hp).symm
    | cons z r =>
      refine move_of_but (unlink_middle h hq rfl) ht ?_
      rw [unlink_middle_eq h hq]

end Move

end Hthreads.Scheduler.Tables
