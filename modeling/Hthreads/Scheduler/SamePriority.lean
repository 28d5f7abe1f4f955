import Hthreads.Scheduler.Refinement

/-! SET_SCHEDPARAM with the priority the queued thread already has. -/

namespace Hthreads.Scheduler

open Library Tables

-- the previous pointer of the head and the next pointer of the tail are never followed
structure WellFormed (T : Tables) : Prop where
  lists : T.Lists T.readyList
  noSelf : ∀ p, ∀ u ∈ (T.readyList p).tail, T.prev u ≠ u

structure Kept (T T' : Tables) (tid : ThreadId) (p : Priority) : Prop where
  members : ∀ u, u ∈ T'.readyList p ↔ u ∈ T.readyList p
  order : (T'.readyList p).erase tid = (T.readyList p).erase tid
  chain : Path T'.next (T'.tail p) (T'.head p) (T'.readyList p)
  noSelfNext : ∀ u ∈ (T'.readyList p).dropLast, T'.next u ≠ u
  noSelfPrev : ∀ u ∈ (T'.readyList p).tail, T'.prev u ≠ u

-- alone, or between two threads with a previous pointer that names its predecessor
def AloneOrInside (T : Tables) (tid : ThreadId) : Prop :=
  T.head (T.level tid) = T.tail (T.level tid) ∨
    tid ≠ T.head (T.level tid) ∧ tid ≠ T.tail (T.level tid) ∧
      [T.prev tid, tid] <:+: T.readyList (T.level tid)

variable {T : Tables} {tid x y z : ThreadId} {l r : List ThreadId}

lemma readyList_of_path {p : Priority} (hb : T.encoderInput p = true)
    (h : Path T.next (T.tail p) (T.head p) l) : T.readyList p = l := by
  rw [readyList, if_pos hb]
  exact h.walk_of_injective (f := BitVec.toFin) fun _ _ => BitVec.eq_of_toFin_eq

lemma path_noSelfNext {p : Priority} (h : Path T.next (T.tail p) (T.head p) l) :
    ∀ u ∈ l.dropLast, T.next u ≠ u := by
  intro u hu
  obtain ⟨m, rfl⟩ := h.exists_concat
  rw [List.dropLast_concat] at hu
  refine h.next_ne_self (List.mem_append_left _ hu) ?_
  rintro rfl
  exact (List.nodup_append.mp h.nodup).2.2 _ hu _ (List.mem_singleton_self _) rfl

lemma move_ends (hb : (T.unlink tid).encoderInput (T.level tid) = true) :
    (T.move tid (T.level tid)).encoderInput (T.level tid) = true ∧
      (T.move tid (T.level tid)).head (T.level tid) = T.head (T.level tid) ∧
      (T.move tid (T.level tid)).tail (T.level tid) = tid := by
  rw [Tables.move, link_set hb]
  refine ⟨hb, ?_, ?_⟩
  · simp [runEncoder, head]
  · simp [runEncoder, tail]

lemma move_next (hb : (T.unlink tid).encoderInput (T.level tid) = true) {u : ThreadId}
    (hut : u ≠ tid) : (T.move tid (T.level tid)).next u =
      if u = T.tail (T.level tid) then tid else (T.unlink tid).next u := by
  rw [Tables.move, link_set hb]
  split
  case isTrue htail =>
    have htail' : u = getTailPointer (T.priority (T.level tid)) := htail
    subst htail'
    simp [runEncoder, next, hut]
  case isFalse htail =>
    have htail' : u ≠ getTailPointer (T.priority (T.level tid)) := htail
    simp [runEncoder, next, hut, htail']

lemma unlink_prev (T : Tables) (tid u : ThreadId) : (T.unlink tid).prev u = T.prev u := by
  simp only [unlink]
  split_ifs
  · rfl
  · rfl
  · rfl
  · by_cases hu : u = T.prev tid
    · subst hu
      simp [prev]
    · have hu' : u ≠ getPrevPointer (T.thread tid) := hu
      simp [prev, hu']

lemma move_prev (hb : (T.unlink tid).encoderInput (T.level tid) = true) (u : ThreadId) :
    (T.move tid (T.level tid)).prev u =
      if u = tid then T.tail (T.level tid) else T.prev u := by
  split
  case isTrue hut =>
    subst hut
    rw [Tables.move, link_set hb]
    simp [runEncoder, prev, tail]
  case isFalse hut => exact (link_prev_of_ne hut).trans (unlink_prev T tid u)

lemma not_kept_front (h : WellFormed T) (hl : T.readyList (T.level tid) = tid :: z :: l) :
    ¬ Kept T (T.move tid (T.level tid)) tid (T.level tid) := by
  intro hk
  have hb : (T.unlink tid).encoderInput (T.level tid) = true := by
    rw [unlink_front_eq h.lists hl]
    exact (h.lists.bit _).mpr (by simp [hl])
  obtain ⟨hbit, hhead, htail⟩ := move_ends hb
  rw [h.lists.head_eq hl] at hhead
  have hone : (T.move tid (T.level tid)).readyList (T.level tid) = [tid] := by
    apply readyList_of_path hbit
    rw [hhead, htail]
    exact .last
  have hnodup := h.lists.nodup (T.level tid)
  have hz := (hk.members z).mpr (by simp [hl])
  rw [hone, List.mem_singleton] at hz
  rw [hl, hz] at hnodup
  simp at hnodup

lemma not_kept_back (h : WellFormed T) (hl : T.readyList (T.level tid) = l ++ [y, tid]) :
    ¬ Kept T (T.move tid (T.level tid)) tid (T.level tid) := by
  intro hk
  have hlist := (h.lists.move_back hl).eq_readyList
  have hmem : tid ∈ ((T.move tid (T.level tid)).readyList (T.level tid)).tail := by
    rw [← hlist, Fifo.move, Fifo.push_self, remove_split h.lists (l := l ++ [y]) (r := [])
      (by simpa using hl)]
    cases l <;> simp
  apply hk.noSelfPrev tid hmem
  rw [move_back_eq h.lists hl]
  simp [runEncoder, prev]

section Inside

variable (h : WellFormed T) (hl : T.readyList (T.level tid) = l ++ y :: tid :: z :: r)

include h hl

lemma inside_bit : (T.unlink tid).encoderInput (T.level tid) = true := by
  rw [unlink_middle_eq h.lists hl]
  exact (h.lists.bit _).mpr (by simp [hl])

lemma inside_unlink_next {u : ThreadId} :
    (T.unlink tid).next u = if u = T.prev tid then z else T.next u := by
  rw [unlink_middle_eq h.lists hl]
  by_cases hu : u = T.prev tid <;> simp [next, hu]

lemma inside_tail_mem : T.tail (T.level tid) ∈ z :: r := by
  have hpath := h.lists.path (T.level tid) (by simp [hl])
  rw [hl] at hpath
  exact (Path.of_append (l := l ++ [y, tid]) (by simpa using hpath)).last_mem

lemma inside_nodup : (l ++ y :: tid :: z :: r).Nodup := hl ▸ h.lists.nodup (T.level tid)

lemma kept_inside (hprev : T.prev tid = y) :
    Kept T (T.move tid (T.level tid)) tid (T.level tid) := by
  have hq : T.queued tid = true := h.lists.queued_eq (p := T.level tid) (by simp [hl])
  have hm : T.Movable T.readyList tid (T.level tid) := .after (hprev ▸ hl)
  have hmoved := h.lists.move hq hm
  have hnodup := inside_nodup h hl
  have hold : (l ++ y :: tid :: z :: r).erase tid = l ++ y :: z :: r := by
    have herase := erase_of_split (l := l ++ [y]) (t := tid) (r := z :: r) (by simpa using hnodup)
    simpa using herase
  have hlist : (T.move tid (T.level tid)).readyList (T.level tid) = l ++ y :: z :: r ++ [tid] := by
    rw [← hmoved.eq_readyList, Fifo.move, Fifo.push_self, Fifo.remove_self, hl, hold]
  have hpath := hmoved.path (T.level tid) (by rw [hmoved.eq_readyList, hlist]; simp)
  rw [hmoved.eq_readyList] at hpath
  refine ⟨fun u => ?_, ?_, hpath, path_noSelfNext hpath, fun u hu => ?_⟩
  · rw [hlist, hl]
    simp only [List.mem_append, List.mem_cons]
    tauto
  · have hnew := hpath.nodup
    rw [hlist] at hnew ⊢
    rw [erase_of_split hnew, hl, hold, List.append_nil]
  · have hself := h.noSelf (T.level tid) u
    have htail := inside_tail_mem h hl
    rw [hlist] at hu
    rw [hl] at hself
    rw [move_prev (inside_bit h hl)]
    cases l <;> grind

lemma not_kept_inside (hprev : T.prev tid ≠ y) :
    ¬ Kept T (T.move tid (T.level tid)) tid (T.level tid) := by
  intro hk
  have hb := inside_bit h hl
  obtain ⟨hbit, hhead, htail⟩ := move_ends hb
  have hnodup := inside_nodup h hl
  have hw := inside_tail_mem h hl
  have hpath := h.lists.path (T.level tid) (by simp [hl])
  rw [hl] at hpath
  by_cases hx : T.prev tid ∈ l
  · obtain ⟨l₁, l₂, rfl⟩ := List.append_of_mem hx
    have hcut : Path (T.unlink tid).next (T.tail (T.level tid)) (T.head (T.level tid))
        (l₁ ++ T.prev tid :: z :: r) := by
      refine Path.cut (m := l₂ ++ [y, tid]) (by simpa using hpath) ?_ fun u hu => ?_
      · rw [inside_unlink_next h hl, if_pos rfl]
      · rw [inside_unlink_next h hl, if_neg hu]
    have hlist : (T.move tid (T.level tid)).readyList (T.level tid) =
        l₁ ++ T.prev tid :: z :: r ++ [tid] := by
      apply readyList_of_path hbit
      rw [hhead, htail]
      have htt : T.tail (T.level tid) ≠ tid := by grind [List.nodup_append]
      refine hcut.concat ?_ ?_ fun u hu hutail => ?_
      · grind [List.nodup_append]
      · rw [move_next hb htt, if_pos rfl]
      · have hut : u ≠ tid := by grind [List.nodup_append]
        rw [move_next hb hut, if_neg hutail]
    have hy := (hk.members y).mpr (by simp [hl])
    rw [hlist] at hy
    grind [List.nodup_append]
  · have hshort : Path (T.move tid (T.level tid)).next tid (T.head (T.level tid))
      (l ++ [y, tid]) := by
      have hup : Path T.next tid (T.head (T.level tid)) (l ++ [y] ++ [tid]) :=
        Path.upTo (show Path T.next _ _ (l ++ [y] ++ tid :: (z :: r)) by simpa using hpath)
      rw [List.append_assoc] at hup
      refine hup.congr fun u hu hut => ?_
      rw [move_next hb hut, inside_unlink_next h hl]
      have hmem : u ∈ l ∨ u = y := by
        simpa [hut] using hu
      have hutail : u ≠ T.tail (T.level tid) := by
        grind [List.nodup_append]
      have hux : u ≠ T.prev tid := by
        rintro rfl
        exact hmem.elim hx hprev
      rw [if_neg hutail, if_neg hux]
    have hlist : (T.move tid (T.level tid)).readyList (T.level tid) = l ++ [y, tid] := by
      apply readyList_of_path hbit
      rw [hhead, htail]
      exact hshort
    have hz := (hk.members z).mpr (by simp [hl])
    rw [hlist] at hz
    grind [List.nodup_append]

end Inside

lemma kept_alone (h : WellFormed T) (hl : T.readyList (T.level tid) = [tid]) :
    Kept T (T.move tid (T.level tid)) tid (T.level tid) := by
  have hq : T.queued tid = true := h.lists.queued_eq (p := T.level tid) (by simp [hl])
  have hm : T.Movable T.readyList tid (T.level tid) := .alone hl
  have hmoved := h.lists.move hq hm
  have hlist : (T.move tid (T.level tid)).readyList (T.level tid) = [tid] := by
    rw [← hmoved.eq_readyList, Fifo.move, Fifo.push_self, Fifo.remove_self, hl]
    simp
  have hpath := hmoved.path (T.level tid) (by rw [hmoved.eq_readyList, hlist]; simp)
  rw [hmoved.eq_readyList] at hpath
  refine ⟨fun u => by rw [hlist, hl], by rw [hlist, hl], hpath, path_noSelfNext hpath, ?_⟩
  rw [hlist]
  intro u hu
  exact absurd hu List.not_mem_nil

lemma pair_isInfix_iff (hnodup : (l ++ y :: tid :: r).Nodup) :
    [x, tid] <:+: l ++ y :: tid :: r ↔ x = y := by
  constructor
  · rintro ⟨s, t, hst⟩
    have hsplit : (s ++ [x]) ++ tid :: t = (l ++ [y]) ++ tid :: r := by simpa using hst
    have hnew : ((s ++ [x]) ++ tid :: t).Nodup := by
      rw [hsplit]
      simpa using hnodup
    obtain ⟨-, htail, hdisj⟩ := List.nodup_append.mp hnew
    have hs : tid ∉ s ++ [x] := fun hm => hdisj _ hm _ List.mem_cons_self rfl
    have ht : tid ∉ t := (List.nodup_cons.mp htail).1
    have heq := ((List.append_cons_inj_of_notMem hs ht).mp hsplit).1
    exact (List.cons.inj (List.append_inj_right' heq rfl)).1
  · rintro rfl
    exact ⟨l, r, by simp⟩

lemma kept_move_iff (h : WellFormed T) (hq : T.queued tid = true) :
    Kept T (T.move tid (T.level tid)) tid (T.level tid) ↔ AloneOrInside T tid := by
  obtain ⟨l, r, hl⟩ := List.append_of_mem (h.lists.exists_mem hq)
  rcases List.eq_nil_or_concat l with rfl | ⟨l, y, rfl⟩
  · have hends := h.lists.head_eq_tail_iff hl
    have hhead := h.lists.head_eq hl
    cases r with
    | nil => exact iff_of_true (kept_alone h hl) (Or.inl (hends.mpr rfl))
    | cons z r =>
      refine iff_of_false (not_kept_front h hl) ?_
      rintro (heq | ⟨hne, -⟩)
      · exact List.cons_ne_nil z r (hends.mp heq)
      · exact hne hhead.symm
  · have hl' : T.readyList (T.level tid) = l ++ y :: tid :: r := by simpa using hl
    have hhead := h.lists.ne_head hl'
    have hends : T.head (T.level tid) ≠ T.tail (T.level tid) := by
      intro heq
      obtain ⟨m, hm⟩ := (h.lists.path (T.level tid) (by simp [hl'])).exists_cons
      rw [(h.lists.head_eq_tail_iff hm).mp heq, hl'] at hm
      have hlen := congrArg List.length hm
      simp at hlen
      omega
    cases r with
    | nil =>
      refine iff_of_false (not_kept_back h hl') ?_
      rintro (heq | ⟨-, hne, -⟩)
      · exact hends heq
      · exact hne (h.lists.tail_eq hl).symm
    | cons z r =>
      have htail : tid ≠ T.tail (T.level tid) := by
        have hw := inside_tail_mem h hl'
        have hnodup := inside_nodup h hl'
        grind [List.nodup_append]
      have hpair := pair_isInfix_iff (x := T.prev tid) (inside_nodup h hl')
      rw [← hl'] at hpair
      constructor
      · intro hk
        refine Or.inr ⟨hhead, htail, hpair.mpr ?_⟩
        by_contra hprev
        exact not_kept_inside h hl' hprev hk
      · rintro (heq | ⟨-, -, hinfix⟩)
        · exact absurd heq hends
        · exact kept_inside h hl' (hpair.mp hinfix)

theorem same_priority_kept_iff (c : Core) (hc : c.Quiescent) (h : WellFormed c.tables)
    (e : Environment) (tid : ThreadId) (param : Word) (hp : isSoftwareParam param = true)
    (ha : schedParamAllowed (e.swtm tid) tid e.currentCpuTid = true)
    (hq : c.tables.queued tid = true) (hsame : paramPriority param = c.tables.level tid) :
    Kept c.tables (c.execute e (.setSchedParam tid param)).tables tid (c.tables.level tid) ↔
      AloneOrInside c.tables tid := by
  have hstored : WellFormed { c.tables with param := Function.update c.tables.param tid param } :=
    ⟨h.lists.of_eq rfl rfl rfl, h.noSelf⟩
  have hqueued : Tables.queued { c.tables with
      param := Function.update c.tables.param tid param } tid = true := hq
  have hiff := kept_move_iff hstored hqueued
  rw [(execute_spec hc e _).tables, Command.effect, setSchedParam_of_queued hp ha hq, hsame]
  refine Iff.trans ⟨fun hk => ?_, fun hk => ?_⟩ hiff
  · exact ⟨hk.members, hk.order, hk.chain, hk.noSelfNext, hk.noSelfPrev⟩
  · exact ⟨hk.members, hk.order, hk.chain, hk.noSelfNext, hk.noSelfPrev⟩

lemma wellFormed_of_backLinked {q : Priority → List ThreadId} (h : T.Lists q)
    (hb : T.BackLinked q) : WellFormed T := by
  have heq := h.eq_readyList
  subst heq
  refine ⟨h, fun p u hu hself => ?_⟩
  have hnodup := h.nodup p
  have hchain := hb p
  cases hl : T.readyList p with
  | nil =>
    rw [hl] at hu
    exact List.not_mem_nil hu
  | cons a m =>
    rw [hl] at hu hnodup hchain
    obtain ⟨s, r, rfl⟩ := List.append_of_mem hu
    rcases List.eq_nil_or_concat s with rfl | ⟨s, b, rfl⟩
    · have hprev := (List.isChain_cons_cons.mp hchain).1
      rw [← hprev, hself] at hnodup
      exact (List.nodup_cons.mp hnodup).1 List.mem_cons_self
    · have hsplit : a :: (s.concat b ++ u :: r) = (a :: s) ++ b :: u :: r := by simp
      rw [hsplit] at hchain hnodup
      have hprev := (List.isChain_append_cons_cons.mp hchain).2.1
      rw [← hprev, hself] at hnodup
      grind [List.nodup_append]

lemma threeQueued_wellFormed : WellFormed (Tables.initial.run threeQueued) := by
  have hone := holds_initial.enqueue (show Tables.initial.queued 1 = false by decide)
    (by decide)
  have htwo := hone.enqueue (show (Tables.initial.enqueue 1).queued 2 = false by decide)
    (by decide)
  have hthree := htwo.enqueue
    (show ((Tables.initial.enqueue 1).enqueue 2).queued 3 = false by decide)
    (by decide)
  exact wellFormed_of_backLinked hthree.lists hthree.back

theorem second_of_three_kept :
    Kept ((Core.powerUp.softReset ⟨0, fun _ => 0⟩).run threeQueued).tables
      (((Core.powerUp.softReset ⟨0, fun _ => 0⟩).run threeQueued).execute ⟨2, fun _ => 0x20⟩
        (.setSchedParam 2 0x40)).tables 2 0x40 := by
  obtain ⟨hquiet, htables⟩ := threeQueued_state ⟨0, fun _ => 0⟩
  have hlevel :
      ((Core.powerUp.softReset ⟨0, fun _ => 0⟩).run threeQueued).tables.level 2 = 0x40 := by
    rw [htables]
    decide
  have hiff := same_priority_kept_iff _ hquiet (htables ▸ threeQueued_wellFormed)
    ⟨2, fun _ => 0x20⟩ 2 0x40 (by decide) (by decide) (by rw [htables]; decide)
    (by rw [hlevel]; decide)
  rw [hlevel] at hiff
  apply hiff.mpr
  rw [htables, AloneOrInside]
  decide

theorem first_of_three_not_kept :
    ¬ ∀ c : Core, c.Reachable announceGuard → WellFormed c.tables →
      ∀ (e : Environment) (tid : ThreadId) (param : Word), isSoftwareParam param = true →
      schedParamAllowed (e.swtm tid) tid e.currentCpuTid = true → c.tables.queued tid = true →
      paramPriority param = c.tables.level tid →
      Kept c.tables (c.execute e (.setSchedParam tid param)).tables tid (c.tables.level tid) := by
  intro hclaim
  have hreset := softReset_spec ⟨0, fun _ => 0⟩ (c := Core.powerUp) rfl
  obtain ⟨hquiet, htables⟩ := threeQueued_state ⟨0, fun _ => 0⟩
  have hreach : ((Core.powerUp.softReset ⟨0, fun _ => 0⟩).run threeQueued).Reachable
      announceGuard := by
    refine (Core.Reachable.reset _ (by rfl)).run ?_
    rw [allowed_iff_tables hreset.toQuiescent, hreset.tables]
    decide
  have hkept := hclaim _ hreach (htables ▸ threeQueued_wellFormed) ⟨1, fun _ => 0x20⟩ 1 0x40
    (by decide) (by decide)
  rw [(execute_spec hquiet ⟨1, fun _ => 0x20⟩ (.setSchedParam 1 0x40)).tables, htables] at hkept
  have hmember := ((hkept (by decide) (by decide)).members 2).mpr
  revert hmember
  decide

end Hthreads.Scheduler
