import Hthreads.Scheduler.ReadyLists

/-! Taking a thread out of its ready list: alone, at the front, at the back or in the middle. -/

namespace Hthreads.Scheduler.Tables

open Library Library.Fifo

variable {T : Tables} {q : Priority → List ThreadId} {t y z : ThreadId} {p : Priority}
  {l : List ThreadId}

lemma ListsBut.lists (h : T.ListsBut q t) (ht : T.queued t = false) : T.Lists q := by
  refine ⟨h.path, h.bit, h.stale, fun u r => ?_⟩
  by_cases hut : u = t
  · rw [hut, ht]
    simp [h.absent r]
  · exact h.mem u hut r

lemma Lists.level_eq (h : T.Lists q) (ht : t ∈ q p) : T.level t = p := ((h.mem t p).mp ht).2

lemma Lists.queued_eq (h : T.Lists q) (ht : t ∈ q p) : T.queued t = true := ((h.mem t p).mp ht).1

lemma Lists.exists_mem (h : T.Lists q) (ht : T.queued t = true) : t ∈ q (T.level t) :=
  (h.mem t _).mpr ⟨ht, rfl⟩

lemma remove_split (h : T.Lists q) {r : List ThreadId} (hq : q p = l ++ t :: r) :
    remove q p t p = l ++ r := by
  have hnodup := h.nodup p
  rw [hq] at hnodup
  rw [remove_self, hq, erase_of_split hnodup]

lemma unlink_alone_eq (h : T.Lists q) (hq : q p = [t]) :
    T.unlink t = { T with encoderInput := setEncoderBit false p T.encoderInput } := by
  have ht : t ∈ q p := hq ▸ List.mem_singleton_self t
  have hends := (h.head_eq_tail_iff hq).mpr rfl
  simp only [unlink, h.level_eq ht, if_pos hends.symm]

lemma unlink_alone (h : T.Lists q) (hq : q p = [t]) :
    (T.unlink t).ListsBut (remove q p t) t := by
  have ht : t ∈ q p := hq ▸ List.mem_singleton_self t
  have hends := (h.head_eq_tail_iff hq).mpr rfl
  have hrem : remove q p t p = [] := remove_split h (l := []) hq
  rw [unlink_alone_eq h hq]
  apply h.takenOut ht
  refine ⟨fun hne => absurd hrem hne, ?_, fun _ => hends, fun _ _ _ _ => rfl, fun _ _ => rfl,
    fun _ _ => rfl, fun r hrp => ?_, fun _ _ => rfl, fun _ _ => rfl⟩
  · simp [setEncoderBit, hrem]
  · simp [setEncoderBit, hrp]

lemma unlink_front_eq (h : T.Lists q) (hq : q p = t :: z :: l) :
    T.unlink t = { T with
      priority := Function.update T.priority p (setHeadPointer z (T.priority p)) } := by
  have ht : t ∈ q p := hq ▸ List.mem_cons_self
  have hhead := h.head_eq hq
  have hends : T.tail p ≠ t :=
    fun heq => List.cons_ne_nil z l ((h.head_eq_tail_iff hq).mp (hhead.trans heq.symm))
  have hpath := h.path p (by simp [hq])
  rw [hq] at hpath
  obtain ⟨-, -, hnext, -⟩ := hpath.of_cons_cons
  simp only [unlink, h.level_eq ht, hhead, if_neg hends, if_true, hnext]

lemma unlink_front (h : T.Lists q) (hq : q p = t :: z :: l) :
    (T.unlink t).ListsBut (remove q p t) t := by
  have ht : t ∈ q p := hq ▸ List.mem_cons_self
  have hrem : remove q p t p = z :: l := remove_split h (l := []) hq
  have hpath := h.path p (by simp [hq])
  rw [hq] at hpath
  obtain ⟨-, -, -, hrest⟩ := hpath.of_cons_cons
  rw [unlink_front_eq h hq]
  apply h.takenOut ht
  refine ⟨fun _ => ?_, ?_, fun hnil => ?_, fun _ _ _ _ => rfl, fun r hrp => ?_, fun r hrp => ?_,
    fun _ _ => rfl, fun _ _ => rfl, fun _ _ => rfl⟩
  · rw [hrem]
    simp only [head, tail, Function.update_self, getHeadPointer_setHeadPointer,
      getTailPointer_setHeadPointer]
    exact hrest
  · rw [hrem]
    simp [h.bit p, hq]
  · exact absurd (hrem ▸ hnil) (List.cons_ne_nil z l)
  · simp [head, hrp]
  · simp [tail, hrp]

lemma Lists.ne_head (h : T.Lists q) {r : List ThreadId} (hq : q p = l ++ y :: t :: r) :
    t ≠ T.head p := by
  rintro rfl
  have hnodup := h.nodup p
  obtain ⟨m, hm⟩ := (h.path p (by simp [hq])).exists_cons
  rw [hq] at hm hnodup
  cases l with
  | nil =>
    obtain ⟨rfl, -⟩ := List.cons.inj hm
    exact (List.nodup_cons.mp hnodup).1 List.mem_cons_self
  | cons b l =>
    obtain ⟨rfl, -⟩ := List.cons.inj hm
    exact (List.nodup_cons.mp hnodup).1 (by simp)

lemma unlink_back_eq (h : T.Lists q) (hq : q p = l ++ [y, t]) :
    T.unlink t = { T with
      priority := Function.update T.priority p (setTailPointer (T.prev t) (T.priority p)) } := by
  have ht : t ∈ q p := by simp [hq]
  have htail : T.tail p = t := h.tail_eq (l := l ++ [y]) (by simpa using hq)
  have hhead : t ≠ T.head p := h.ne_head hq
  simp only [unlink, h.level_eq ht, htail, if_neg hhead, if_true]

lemma unlink_back (h : T.Lists q) (hq : q p = l ++ [y, t]) (hprev : T.prev t = y) :
    (T.unlink t).ListsBut (remove q p t) t := by
  have ht : t ∈ q p := by simp [hq]
  have hrem : remove q p t p = l ++ [y] := by
    have := remove_split h (l := l ++ [y]) (r := []) (by simpa using hq)
    simpa using this
  have hpath := h.path p (by simp [hq])
  rw [hq, h.tail_eq (l := l ++ [y]) (by simpa using hq)] at hpath
  rw [unlink_back_eq h hq, hprev]
  apply h.takenOut ht
  refine ⟨fun _ => ?_, ?_, fun hnil => ?_, fun _ _ _ _ => rfl, fun r hrp => ?_, fun r hrp => ?_,
    fun _ _ => rfl, fun _ _ => rfl, fun _ _ => rfl⟩
  · rw [hrem]
    simp only [head, tail, Function.update_self, getHeadPointer_setTailPointer,
      getTailPointer_setTailPointer]
    exact hpath.upTo
  · rw [hrem]
    simp [h.bit p, hq]
  · rw [hrem] at hnil
    exact absurd hnil (by simp)
  · simp [head, hrp]
  · simp [tail, hrp]

lemma unlink_middle_eq (h : T.Lists q) {r : List ThreadId} (hq : q p = l ++ y :: t :: z :: r) :
    T.unlink t = { T with
      thread := Function.update T.thread (T.prev t)
        (setNextPointer z (T.thread (T.prev t))) } := by
  have ht : t ∈ q p := by simp [hq]
  have hpath := h.path p (by simp [hq])
  have hhead : t ≠ T.head p := h.ne_head hq
  obtain ⟨m, hm⟩ := hpath.exists_cons
  have hends : T.tail p ≠ T.head p := by
    intro heq
    have hlen := congrArg List.length hq
    rw [hm, (h.head_eq_tail_iff hm).mp heq.symm] at hlen
    simp at hlen
    omega
  rw [hq] at hpath
  obtain ⟨-, htail, hnext, -⟩ :=
    (Path.of_append (l := l ++ [y]) (by simpa using hpath)).of_cons_cons
  simp only [unlink, h.level_eq ht, if_neg hends, if_neg hhead, if_neg htail, hnext]

lemma unlink_middle (h : T.Lists q) {r : List ThreadId} (hq : q p = l ++ y :: t :: z :: r)
    (hprev : T.prev t = y) : (T.unlink t).ListsBut (remove q p t) t := by
  have ht : t ∈ q p := by simp [hq]
  have hrem : remove q p t p = l ++ y :: z :: r := by
    have := remove_split h (l := l ++ [y]) (r := z :: r) (by simpa using hq)
    simpa using this
  have hpath := h.path p (by simp [hq])
  rw [hq] at hpath
  rw [unlink_middle_eq h hq, hprev]
  apply h.takenOut ht
  refine ⟨fun _ => ?_, ?_, fun hnil => ?_, fun r hrp u hu => ?_, fun _ _ => rfl, fun _ _ => rfl,
    fun _ _ => rfl, fun u _ => ?_, fun u _ => ?_⟩
  · rw [hrem]
    refine hpath.cut (m := [t]) ?_ ?_
    · simp [next]
    · intro u hu
      simp [next, hu]
  · rw [hrem]
    simp [h.bit p, hq]
  · rw [hrem] at hnil
    exact absurd hnil (by simp)
  · have huy : u ≠ y := by
      rintro rfl
      exact hrp (h.unique hu (by simp [hq]))
    simp [next, huy]
  · by_cases huy : u = y <;> simp [queued, huy]
  · by_cases huy : u = y <;> simp [level, huy]

lemma unlink_priority_of_ne {r : Priority} (hr : r ≠ T.level t) :
    (T.unlink t).priority r = T.priority r := by
  simp only [unlink]
  split_ifs <;> simp [hr]

lemma remove_front {l : List ThreadId} (hq : q p = t :: l) : remove q p t = pop q p := by
  simp [remove, pop, hq]

lemma unlinkFront_head (h : T.Lists q) (hq : q p = t :: l) : (T.unlinkFront t).Lists (pop q p) := by
  have ht : t ∈ q p := hq ▸ List.mem_cons_self
  have hrem : remove q p t p = l := remove_split h (l := []) hq
  have hpath := h.path p (by simp [hq])
  rw [← remove_front hq]
  cases l with
  | nil =>
    have hends := (h.head_eq_tail_iff hq).mpr rfl
    have hT : T.unlinkFront t = { T with
        thread := Function.update T.thread t (setQueueBit false (T.thread t))
        encoderInput := setEncoderBit false p T.encoderInput }.runEncoder := by
      simp only [unlinkFront, h.level_eq ht, if_pos hends]
    rw [hT]
    apply ListsBut.lists (t := t)
    · apply h.takenOut ht
      refine ⟨fun hne => absurd hrem hne, ?_, fun _ => hends, fun r hrp u hu => ?_, fun _ _ => rfl,
        fun _ _ => rfl, fun r hrp => ?_, fun u hut => ?_, fun u hut => ?_⟩
      · simp [runEncoder, setEncoderBit, hrem]
      · have hut : u ≠ t := fun heq => hrp (h.unique hu (heq ▸ ht))
        simp [runEncoder, next, hut]
      · simp [runEncoder, setEncoderBit, hrp]
      · simp [runEncoder, queued, hut]
      · simp [runEncoder, level, hut]
    · simp [runEncoder, queued]
  | cons z l =>
    have hhead := h.head_eq hq
    have hends : T.head p ≠ T.tail p :=
      fun heq => List.cons_ne_nil z l ((h.head_eq_tail_iff hq).mp heq)
    rw [hq] at hpath
    obtain ⟨-, -, hnext, hrest⟩ := hpath.of_cons_cons
    have hT : T.unlinkFront t = { T with
        thread := Function.update T.thread t (setQueueBit false (T.thread t))
        priority := Function.update T.priority p (setHeadPointer z (T.priority p)) } := by
      simp only [unlinkFront, h.level_eq ht, if_neg hends]
      rw [hhead, hnext]
    have hkeep : ∀ u, (T.unlinkFront t).next u = T.next u := by
      intro u
      rw [hT]
      by_cases hut : u = t <;> simp [next, hut]
    apply ListsBut.lists (t := t)
    · apply h.takenOut ht
      refine ⟨fun _ => ?_, ?_, fun hnil => ?_, fun r hrp u hu => hkeep u, fun r hrp => ?_,
        fun r hrp => ?_, fun _ _ => ?_, fun u hut => ?_, fun u hut => ?_⟩
      · rw [hrem]
        have hends' : (T.unlinkFront t).head p = z ∧ (T.unlinkFront t).tail p = T.tail p := by
          simp [hT, head, tail]
        rw [hends'.1, hends'.2]
        exact hrest.congr fun u _ _ => hkeep u
      · rw [hrem, hT]
        simp [h.bit p, hq]
      · exact absurd (hrem ▸ hnil) (List.cons_ne_nil z l)
      · simp [hT, head, hrp]
      · simp [hT, tail, hrp]
      · rw [hT]
      · simp [hT, queued, hut]
      · simp [hT, level, hut]
    · simp [hT, queued]

lemma unlinkFront_unqueued (h : T.Lists q) (ht : T.queued t = false) (hq : q (T.level t) = []) :
    (T.unlinkFront t).Lists q := by
  have hinput : setEncoderBit false (T.level t) T.encoderInput = T.encoderInput := by
    rw [setEncoderBit, ← h.bit_false.mpr hq]
    exact Function.update_eq_self _ _
  have hT : T.unlinkFront t = { T with
      thread := Function.update T.thread t (setQueueBit false (T.thread t)) }.runEncoder := by
    simp only [unlinkFront, if_pos (h.stale _ hq), hinput]
  rw [hT]
  refine h.congr ?_ rfl rfl rfl ?_ ?_
  · funext u
    by_cases hut : u = t <;> simp [runEncoder, next, hut]
  · funext u
    by_cases hut : u = t
    · subst hut
      simpa [runEncoder, queued] using ht.symm
    · simp [runEncoder, queued, hut]
  · funext u
    by_cases hut : u = t <;> simp [runEncoder, level, hut]

end Hthreads.Scheduler.Tables
