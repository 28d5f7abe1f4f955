import Hthreads.Scheduler.Refinement

/-! Priority changes of queued threads as moves between doubly linked lists. -/

namespace Hthreads.Scheduler

open Library Library.Fifo Tables

-- the links of every list agree in both directions and with its ends
structure Consistent (T : Tables) : Prop where
  forward : ∀ p, T.readyList p ≠ [] → Path T.next (T.tail p) (T.head p) (T.readyList p)
  backward : T.BackLinked T.readyList

structure CleanMove (T T' : Tables) (tid : ThreadId) (p : Priority) : Prop extends
    Consistent T' where
  lists : T'.readyList = Fifo.move T.readyList (T.level tid) p tid

def moveGuard : Guard := fun e cmd T =>
  match cmd with
  | .enqueue tid => T.queued tid = false
  | .dequeue => e.currentCpuTid = T.nextThreadId
  | .setSchedParam tid param =>
    isSoftwareParam param = true ∧ schedParamAllowed (e.swtm tid) tid e.currentCpuTid = true
  | _ => True

instance moveGuard.decidable (e : Environment) (cmd : Command) (T : Tables) :
    Decidable (moveGuard e cmd T) :=
  match cmd with
  | .enqueue tid => inferInstanceAs (Decidable (T.queued tid = false))
  | .dequeue => inferInstanceAs (Decidable (e.currentCpuTid = T.nextThreadId))
  | .setSchedParam _ _ => inferInstanceAs (Decidable (_ ∧ _))
  | .isQueued _ | .isEmpty | .setIdleThread _ | .getSchedParam _ | .checkSchedParam _
  | .getEntry _ => inferInstanceAs (Decidable True)

-- the thread is alone in its list, or leaves it from one of its two ends
def leavesFromEnd : Guard := fun _ cmd T =>
  match cmd with
  | .setSchedParam tid param => T.queued tid = true →
    T.head (T.level tid) = T.tail (T.level tid) ∨ paramPriority param ≠ T.level tid ∧
      (tid = T.head (T.level tid) ∨ tid = T.tail (T.level tid))
  | _ => True

instance leavesFromEnd.decidable (e : Environment) (cmd : Command) (T : Tables) :
    Decidable (leavesFromEnd e cmd T) :=
  match cmd with
  | .setSchedParam _ _ => inferInstanceAs (Decidable (_ → _))
  | .enqueue _ | .dequeue | .isQueued _ | .isEmpty | .setIdleThread _ | .getSchedParam _
  | .checkSchedParam _ | .getEntry _ => inferInstanceAs (Decidable True)

variable {T : Tables} {q : Priority → List ThreadId} {tid : ThreadId} {p : Priority}

-- the places a thread may leave from with every link right
inductive FromEnd (T : Tables) (q : Priority → List ThreadId) (tid : ThreadId) (p : Priority) : Prop
  | alone : q (T.level tid) = [tid] → FromEnd T q tid p
  | front {z : ThreadId} {l : List ThreadId} :
    q (T.level tid) = tid :: z :: l → p ≠ T.level tid → FromEnd T q tid p
  | back {y : ThreadId} {l : List ThreadId} :
    q (T.level tid) = l ++ [y, tid] → p ≠ T.level tid → FromEnd T q tid p

lemma fromEnd_of_guard (h : T.Lists q) (hq : T.queued tid = true)
    (hg : T.head (T.level tid) = T.tail (T.level tid) ∨ p ≠ T.level tid ∧
      (tid = T.head (T.level tid) ∨ tid = T.tail (T.level tid))) : FromEnd T q tid p := by
  have hmem := h.exists_mem hq
  have hpath := h.path _ (List.ne_nil_of_mem hmem)
  obtain ⟨m, hm⟩ := hpath.exists_cons
  obtain ⟨n, hn⟩ := hpath.exists_concat
  by_cases hends : T.head (T.level tid) = T.tail (T.level tid)
  · have hone := (h.head_eq_tail_iff hm).mp hends
    rw [hm, hone, List.mem_singleton] at hmem
    exact .alone (by rw [hm, hone, ← hmem])
  · obtain ⟨hp, hhead | htail⟩ := hg.resolve_left hends
    · cases m with
      | nil => exact absurd ((h.head_eq_tail_iff hm).mpr rfl) hends
      | cons z m =>
        rw [← hhead] at hm
        exact .front hm hp
    · rcases List.eq_nil_or_concat n with rfl | ⟨l, y, rfl⟩
      · exact absurd ((h.head_eq_tail_iff hn).mpr rfl ▸ rfl) hends
      · exact .back (y := y) (l := l) (by simpa [htail.symm] using hn) hp

lemma FromEnd.movable (hf : FromEnd T q tid p) (hb : T.BackLinked q) : T.Movable q tid p := by
  cases hf with
  | alone hq => exact .alone hq
  | front hq hp => exact .front hq hp
  | @back y l hq hp =>
    have hchain := hb (T.level tid)
    rw [hq, List.isChain_append_cons_cons] at hchain
    exact .after (l := l) (r := []) (hchain.2.1 ▸ hq)

lemma FromEnd.unlinked (hf : FromEnd T q tid p) (h : T.Lists q) (hb : T.BackLinked q) :
    (T.unlink tid).ListsBut (remove q (T.level tid) tid) tid ∧
      (T.unlink tid).thread = T.thread ∧ T.priority p = (T.unlink tid).priority p := by
  cases hf with
  | alone hq =>
    refine ⟨unlink_alone h hq, ?_, ?_⟩ <;> rw [unlink_alone_eq h hq]
  | front hq hp =>
    refine ⟨unlink_front h hq, ?_, (unlink_priority_of_ne hp).symm⟩
    rw [unlink_front_eq h hq]
  | @back y l hq hp =>
    have hchain := hb (T.level tid)
    rw [hq, List.isChain_append_cons_cons] at hchain
    refine ⟨unlink_back h hq hchain.2.1, ?_, (unlink_priority_of_ne hp).symm⟩
    rw [unlink_back_eq h hq]

lemma remove_isInfix (hf : FromEnd T q tid p) (h : T.Lists q) (r : Priority) :
    remove q (T.level tid) tid r <:+: q r := by
  by_cases hr : r = T.level tid
  · subst hr
    cases hf with
    | alone hq =>
      rw [remove_split h (l := []) hq]
      exact List.nil_infix
    | front hq hp =>
      rw [remove_split h (l := []) hq, hq]
      exact (List.suffix_cons tid _).isInfix
    | @back y l hq hp =>
      rw [remove_split h (l := l ++ [y]) (r := []) (by simpa using hq), hq]
      exact ⟨[], [tid], by simp⟩
  · rw [remove_of_ne _ _ _ hr]

lemma Tables.BackLinked.move (hb : T.BackLinked q) (h : T.Lists q) (hf : FromEnd T q tid p) :
    (T.move tid p).BackLinked (Fifo.move q (T.level tid) p tid) := by
  obtain ⟨hbut, hthread, hpri⟩ := hf.unlinked h hb
  have hkept : (T.unlink tid).BackLinked (remove q (T.level tid) tid) := by
    refine (hb.of_isInfix (remove_isInfix hf h)).congr fun r u _ => ?_
    rw [Tables.prev, hthread]
    rfl
  exact hkept.link hbut hpri

structure Clean (T : Tables) : Prop extends Intact T where
  back : T.BackLinked T.readyList

lemma Clean.of_back (h : Intact T) (hl : T.Lists q) (hb : T.BackLinked q) : Clean T :=
  ⟨h, hl.eq_readyList ▸ hb⟩

lemma Clean.consistent (h : Clean T) : Consistent T := ⟨h.lists.path, h.back⟩

lemma Clean.move (h : Clean T) (hq : T.queued tid = true) (hf : FromEnd T T.readyList tid p) :
    CleanMove T (T.move tid p) tid p := by
  have hl := h.lists.move hq (hf.movable h.back)
  have hb := h.back.move h.lists hf
  have heq := hl.eq_readyList
  rw [heq] at hl hb
  exact ⟨⟨hl.path, hb⟩, heq.symm⟩

lemma Clean.enqueue (h : Clean T) (ht : T.queued tid = false) : Clean (T.enqueue tid) := by
  by_cases hp : isSoftwareParam (T.param tid) = true
  · exact .of_back (h.toIntact.enqueue ht) (h.lists.enqueue hp ht) (h.back.enqueue h.lists hp ht)
  · rw [Tables.enqueue, if_neg hp]
    exact h

lemma Clean.dequeue (h : Clean T) : Clean (T.dequeue T.nextThreadId) :=
  .of_back h.toIntact.dequeue (h.lists.dequeue_announced h.fresh h.announced) h.back.dequeue

lemma Clean.setIdleThread (h : Clean T) (entry : Word) : Clean (T.setIdleThread entry tid) := by
  have hintact : Intact (T.setIdleThread entry tid) := h.toIntact.setIdleThread entry
  rw [Tables.setIdleThread] at hintact ⊢
  split at hintact
  case isTrue ha =>
    rw [if_pos ha]
    exact ⟨hintact, h.back⟩
  case isFalse ha =>
    rw [if_neg ha]
    exact h

section SetSchedParam

variable {cpu : ThreadId} {param entry : Word}

lemma Clean.setSchedParam_move (h : Clean T) (hp : isSoftwareParam param = true)
    (ha : schedParamAllowed entry tid cpu = true) (hq : T.queued tid = true)
    (hf : FromEnd T T.readyList tid (paramPriority param)) :
    CleanMove T (T.setSchedParam entry cpu tid param) tid (paramPriority param) := by
  have hstored : Clean { T with param := Function.update T.param tid param } :=
    ⟨h.toIntact.storeParam param, h.back⟩
  have hf' : FromEnd { T with param := Function.update T.param tid param } T.readyList tid
      (paramPriority param) := by
    cases hf with
    | alone hl => exact .alone hl
    | front hl hp => exact .front hl hp
    | back hl hp => exact .back hl hp
  have hmove := hstored.move hq hf'
  rw [setSchedParam_of_queued hp ha hq]
  exact ⟨⟨hmove.forward, hmove.backward⟩, hmove.lists⟩

lemma Clean.setSchedParam (h : Clean T) (hp : isSoftwareParam param = true)
    (ha : schedParamAllowed entry tid cpu = true)
    (hf : T.queued tid = true → FromEnd T T.readyList tid (paramPriority param)) :
    Clean (T.setSchedParam entry cpu tid param) := by
  have hintact : Intact (T.setSchedParam entry cpu tid param) :=
    h.toIntact.setSchedParam fun _ _ hq => (hf hq).movable h.back
  refine ⟨hintact, ?_⟩
  by_cases hq : T.queued tid = true
  · exact (h.setSchedParam_move hp ha hq (hf hq)).backward
  · rw [Bool.not_eq_true] at hq
    have hl := (h.lists.setLevel (p := paramPriority param) hq).eq_readyList
    rw [setSchedParam_of_unqueued hp ha hq]
    have hback := h.back.congr fun _ u _ => congrFun (setLevel_prev (T := T) (t := tid)
      (p := paramPriority param)) u
    rw [hl] at hback
    exact hback

end SetSchedParam

lemma clean_initial : Clean .initial :=
  .of_back intact_initial holds_initial.lists holds_initial.back

lemma clean_step (e : Environment) (cmd : Command) (T : Tables) (h : Clean T)
    (hg : moveGuard e cmd T ∧ leavesFromEnd e cmd T) : Clean (cmd.effect e T) := by
  obtain ⟨hg, hk⟩ := hg
  cases cmd with
  | enqueue tid => exact h.enqueue hg
  | dequeue =>
    rw [Command.effect, show e.currentCpuTid = T.nextThreadId from hg]
    exact h.dequeue
  | setSchedParam tid param =>
    exact h.setSchedParam hg.1 hg.2 fun hq => fromEnd_of_guard h.lists hq (hk hq)
  | setIdleThread tid => exact h.setIdleThread (e.swtm tid)
  | isQueued tid => exact h
  | isEmpty => exact h
  | getSchedParam tid => exact h
  | checkSchedParam tid => exact h
  | getEntry tid => exact h

theorem moves_clean_from_ends (c : Core)
    (hc : c.Reachable fun e cmd T => moveGuard e cmd T ∧ leavesFromEnd e cmd T) :
    Consistent c.tables ∧ ∀ (e : Environment) (tid : ThreadId) (param : Word),
      moveGuard e (.setSchedParam tid param) c.tables →
      leavesFromEnd e (.setSchedParam tid param) c.tables →
      c.tables.queued tid = true → paramPriority param ≠ c.tables.level tid →
      CleanMove c.tables (c.execute e (.setSchedParam tid param)).tables tid
        (paramPriority param) := by
  obtain ⟨hquiet, hclean⟩ := reachable_invariant clean_initial clean_step hc
  refine ⟨hclean.consistent, fun e tid param hg hk hq _ => ?_⟩
  rw [(execute_spec hquiet e _).tables]
  exact hclean.setSchedParam_move hg.1 hg.2 hq (fromEnd_of_guard hclean.lists hq (hk hq))

theorem first_of_three_moves_clean :
    CleanMove ((Core.powerUp.softReset ⟨0, fun _ => 0⟩).run threeQueued).tables
      (((Core.powerUp.softReset ⟨0, fun _ => 0⟩).run threeQueued).execute ⟨1, fun _ => 0x20⟩
        (.setSchedParam 1 5)).tables 1 5 := by
  have hreset := softReset_spec ⟨0, fun _ => 0⟩ (c := Core.powerUp) rfl
  have hreach : ((Core.powerUp.softReset ⟨0, fun _ => 0⟩).run threeQueued).Reachable
      fun e cmd T => moveGuard e cmd T ∧ leavesFromEnd e cmd T := by
    refine (Core.Reachable.reset _ (by rfl)).run ?_
    rw [allowed_iff_tables hreset.toQuiescent, hreset.tables]
    decide
  have htables := (threeQueued_state ⟨0, fun _ => 0⟩).2
  refine (moves_clean_from_ends _ hreach).2 ⟨1, fun _ => 0x20⟩ 1 5 ?_ ?_ ?_ ?_
  all_goals
    rw [htables]
    decide

theorem middle_move_not_clean :
    ¬ ∀ c : Core, c.Reachable moveGuard → ∀ (e : Environment) (tid : ThreadId) (param : Word),
      moveGuard e (.setSchedParam tid param) c.tables → c.tables.queued tid = true →
      paramPriority param ≠ c.tables.level tid →
      CleanMove c.tables (c.execute e (.setSchedParam tid param)).tables tid
        (paramPriority param) := by
  intro hclaim
  have hreset := softReset_spec ⟨0, fun _ => 0⟩ (c := Core.powerUp) rfl
  obtain ⟨hquiet, htables⟩ := threeQueued_state ⟨0, fun _ => 0⟩
  have hreach : ((Core.powerUp.softReset ⟨0, fun _ => 0⟩).run threeQueued).Reachable moveGuard := by
    refine (Core.Reachable.reset _ (by rfl)).run ?_
    rw [allowed_iff_tables hreset.toQuiescent, hreset.tables]
    decide
  have hmove := hclaim _ hreach ⟨2, fun _ => 0x20⟩ 2 5
  rw [(execute_spec hquiet ⟨2, fun _ => 0x20⟩ (.setSchedParam 2 5)).tables, htables] at hmove
  have hback := (hmove ⟨by decide, by decide⟩ (by decide)
    (by decide)).backward 0x40
  revert hback
  decide

end Hthreads.Scheduler
