import Hthreads.Scheduler.Refinement

/-! DEQUEUE of a thread at the front of its list, whether it is still announced or not. -/

namespace Hthreads.Scheduler

open Library Library.Fifo

-- the thread leads a list, or all lists are empty
def Front (T : Tables) (tid : ThreadId) : Prop :=
  (∃ p l, T.readyList p = tid :: l) ∨ ∀ p, T.readyList p = []

/-- The lists lose this thread and no other; nothing is lost if the thread was not queued. -/
structure RemovesExactly (T T' : Tables) (tid : ThreadId) : Prop where
  lists : ∀ p, T'.readyList p = (T.readyList p).erase tid
  unqueued : T'.queued tid = false
  others : ∀ u ≠ tid, T'.queued u = T.queued u

variable {T : Tables} {tid u : ThreadId}

lemma Intact.front_announced (h : Intact T) : Front T T.nextThreadId := by
  by_cases hq : ∃ p, T.readyList p ≠ []
  · obtain ⟨-, l, hl⟩ := h.lists.front_of_announced h.fresh h.announced hq
    exact .inl ⟨_, l, hl⟩
  · push Not at hq
    exact .inr hq

lemma unlinkFront_queued (T : Tables) (tid u : ThreadId) :
    (T.unlinkFront tid).queued u = if u = tid then false else T.queued u := by
  simp only [Tables.unlinkFront]
  by_cases hut : u = tid
  · subst hut
    rw [if_pos rfl]
    split_ifs <;> simp [Tables.runEncoder, Tables.queued]
  · rw [if_neg hut]
    split_ifs <;> simp [Tables.runEncoder, Tables.queued, hut]

lemma announce_queued (T : Tables) : T.announce.queued = T.queued := by
  simp only [Tables.announce, Tables.announceHead]
  split <;> rfl

lemma Intact.dequeue_lists (h : Intact T) (hf : Front T tid) :
    (T.dequeue tid).Lists fun p => (T.readyList p).erase tid := by
  apply Tables.Lists.announce
  rcases hf with ⟨p, l, hl⟩ | hnil
  · have hpop : pop T.readyList p = fun r => (T.readyList r).erase tid := by
      funext r
      by_cases hr : r = p
      · rw [hr, pop_self, hl, List.erase_cons_head, List.tail_cons]
      · rw [pop_of_ne _ _ hr, List.erase_of_not_mem]
        intro hmem
        exact hr (h.lists.unique hmem (hl ▸ List.mem_cons_self))
    rw [← hpop]
    exact Tables.unlinkFront_head h.lists hl
  · have hsame : (fun p => (T.readyList p).erase tid) = T.readyList := by
      funext p
      rw [hnil p, List.erase_nil]
    rw [hsame]
    exact Tables.unlinkFront_unqueued h.lists (h.lists.unqueued_of_empty hnil tid) (hnil _)

lemma Intact.dequeue_front (h : Intact T) (hf : Front T tid) : Intact (T.dequeue tid) :=
  .of_lists (h.dequeue_lists hf) h.fresh.unlinkFront.announce (Tables.headAnnounced_announce _)

lemma Intact.dequeue_unqueued (h : Intact T) (hq : T.queued tid = false)
    (hnil : T.readyList (T.level tid) = []) : Intact (T.dequeue tid) :=
  .of_lists (Tables.Lists.announce (Tables.unlinkFront_unqueued h.lists hq hnil))
    h.fresh.unlinkFront.announce (Tables.headAnnounced_announce _)

lemma Intact.dequeue_exact (h : Intact T) (hf : Front T tid) :
    RemovesExactly T (T.dequeue tid) tid := by
  refine ⟨fun p => ?_, ?_, fun u hu => ?_⟩
  · exact (congrFun (h.dequeue_lists hf).eq_readyList p).symm
  · rw [Tables.dequeue, announce_queued, unlinkFront_queued, if_pos rfl]
  · rw [Tables.dequeue, announce_queued, unlinkFront_queued, if_neg hu]

section SetSchedParam

variable {cpu : ThreadId} {param entry : Word}

lemma readyList_congr {T' : Tables} (hthread : T'.thread = T.thread)
    (hpriority : T'.priority = T.priority) (hinput : T'.encoderInput = T.encoderInput) :
    T'.readyList = T.readyList := by
  funext p
  have hnext : T'.next = T.next := by
    funext v
    rw [Tables.next, hthread, Tables.next]
  rw [Tables.readyList, Tables.readyList, hinput, hnext, Tables.head, Tables.tail, hpriority,
    Tables.head, Tables.tail]

lemma Intact.setSchedParam_lists (h : Intact T)
    (hm : isSoftwareParam param = true → schedParamAllowed entry tid cpu = true →
      T.queued tid = true → T.Movable T.readyList tid (paramPriority param)) :
    (T.setSchedParam entry cpu tid param).readyList = T.readyList ∨
    isSoftwareParam param = true ∧ schedParamAllowed entry tid cpu = true ∧ T.queued tid = true ∧
      (T.setSchedParam entry cpu tid param).readyList =
        Fifo.move T.readyList (T.level tid) (paramPriority param) tid := by
  by_cases hp : isSoftwareParam param = true ∧ schedParamAllowed entry tid cpu = true
  · obtain ⟨hsw, hallowed⟩ := hp
    cases hq : T.queued tid with
    | true =>
      refine .inr ⟨hsw, hallowed, rfl, ?_⟩
      rw [Tables.setSchedParam_of_queued hsw hallowed hq]
      have hstored : Intact { T with param := Function.update T.param tid param } :=
        h.storeParam param
      have hmove := hstored.lists.move (t := tid) hq ((hm hsw hallowed hq).of_eq rfl rfl)
      exact (hmove.of_eq rfl rfl rfl).eq_readyList.symm
    | false =>
      refine .inl ?_
      rw [Tables.setSchedParam_of_unqueued hsw hallowed hq]
      exact ((h.lists.setLevel hq).of_eq rfl rfl rfl).eq_readyList.symm
  · refine .inl ?_
    rw [← Bool.and_eq_true, Bool.not_eq_true] at hp
    rw [Tables.setSchedParam_of_refused hp]
    exact readyList_congr rfl rfl rfl

lemma Front.congr {T' : Tables} (h : Front T tid) (heq : T'.readyList = T.readyList) :
    Front T' tid := by
  rw [Front, heq]
  exact h

/-- A thread at the front stays there while other threads move; moved itself, it has to come
into a list of its own. -/
lemma Front.setSchedParam (h : Intact T) (hf : Front T u)
    (hm : isSoftwareParam param = true → schedParamAllowed entry tid cpu = true →
      T.queued tid = true → T.Movable T.readyList tid (paramPriority param) ∧
        (tid = u → ∀ v ∈ T.readyList (paramPriority param), v = tid)) :
    Front (T.setSchedParam entry cpu tid param) u := by
  rcases h.setSchedParam_lists fun hs ha hq => (hm hs ha hq).1 with heq | ⟨hs, ha, hq, heq⟩
  · exact hf.congr heq
  obtain ⟨-, halone⟩ := hm hs ha hq
  have hmem : tid ∈ T.readyList (T.level tid) := h.lists.exists_mem hq
  rcases hf with ⟨p, l, hl⟩ | hnil
  · refine .inl ?_
    rw [heq]
    by_cases hut : tid = u
    · subst hut
      refine ⟨paramPriority param, [], move_alone (h.lists.nodup _) (halone rfl) fun hin => ?_⟩
      exact h.lists.unique hin hmem
    · exact ⟨p, move_leading hl (Ne.symm hut)⟩
  · rw [hnil] at hmem
    exact absurd hmem List.not_mem_nil

end SetSchedParam

lemma setIdleThread_readyList (T : Tables) (entry : Word) (tid : ThreadId) :
    (T.setIdleThread entry tid).readyList = T.readyList := by
  rw [Tables.setIdleThread]
  split
  · exact readyList_congr rfl rfl rfl
  · rfl

end Hthreads.Scheduler
