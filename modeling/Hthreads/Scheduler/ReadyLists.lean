import Hthreads.Library.Fifo
import Hthreads.Library.Path
import Hthreads.Scheduler.Tables

/-! The ready lists that are threaded through the scheduler's tables. -/

namespace Hthreads.Scheduler

open Library Library.Fifo

namespace Tables

def readyList (T : Tables) (p : Priority) : List ThreadId :=
  if T.encoderInput p then walk T.next (T.tail p) 255 (T.head p) else []

-- `q` is what the tables hold, the thread `t` apart
structure ListsBut (T : Tables) (q : Priority → List ThreadId) (t : ThreadId) : Prop where
  path : ∀ p, q p ≠ [] → Path T.next (T.tail p) (T.head p) (q p)
  bit : ∀ p, T.encoderInput p = true ↔ q p ≠ []
  stale : ∀ p, q p = [] → T.head p = T.tail p
  mem : ∀ u ≠ t, ∀ p, u ∈ q p ↔ T.queued u = true ∧ T.level u = p
  absent : ∀ p, t ∉ q p

structure Lists (T : Tables) (q : Priority → List ThreadId) : Prop where
  path : ∀ p, q p ≠ [] → Path T.next (T.tail p) (T.head p) (q p)
  bit : ∀ p, T.encoderInput p = true ↔ q p ≠ []
  stale : ∀ p, q p = [] → T.head p = T.tail p
  mem : ∀ u p, u ∈ q p ↔ T.queued u = true ∧ T.level u = p

variable {T : Tables} {q : Priority → List ThreadId} {t u : ThreadId} {p : Priority}

lemma Lists.congr {T' : Tables} (h : T.Lists q) (hnext : T'.next = T.next)
    (hhead : T'.head = T.head) (htail : T'.tail = T.tail) (hbit : T'.encoderInput = T.encoderInput)
    (hqueued : T'.queued = T.queued) (hlevel : T'.level = T.level) : T'.Lists q := by
  constructor
  · rw [hnext, hhead, htail]
    exact h.path
  · rw [hbit]
    exact h.bit
  · rw [hhead, htail]
    exact h.stale
  · rw [hqueued, hlevel]
    exact h.mem

lemma Lists.of_eq {T' : Tables} (h : T.Lists q) (hthread : T'.thread = T.thread)
    (hpriority : T'.priority = T.priority) (hinput : T'.encoderInput = T.encoderInput) :
    T'.Lists q := by
  refine h.congr ?_ ?_ ?_ hinput ?_ ?_
  all_goals
    funext x
    simp only [next, head, tail, queued, level, hthread, hpriority]

lemma Lists.eq_readyList (h : T.Lists q) : q = T.readyList := by
  funext p
  rw [readyList]
  by_cases hq : q p = []
  · have hbit : ¬ T.encoderInput p = true := fun hb => (h.bit p).mp hb hq
    rw [if_neg hbit, hq]
  · rw [if_pos ((h.bit p).mpr hq)]
    exact ((h.path p hq).walk_of_injective (f := BitVec.toFin) fun _ _ =>
      BitVec.eq_of_toFin_eq).symm

lemma Lists.nodup (h : T.Lists q) (p : Priority) : (q p).Nodup := by
  by_cases hq : q p = []
  · rw [hq]
    exact List.nodup_nil
  · exact (h.path p hq).nodup

lemma Lists.bit_false (h : T.Lists q) : T.encoderInput p = false ↔ q p = [] := by
  rw [← not_iff_not, Bool.not_eq_false]
  exact h.bit p

lemma Lists.but (h : T.Lists q) (ht : T.queued t = false) : T.ListsBut q t := by
  refine ⟨h.path, h.bit, h.stale, fun u _ p => h.mem u p, fun p hp => ?_⟩
  have := ((h.mem t p).mp hp).1
  rw [ht] at this
  exact Bool.noConfusion this

lemma ListsBut.tail_ne (h : T.ListsBut q t) {r : Priority} (hr : r ≠ p) (hp : q p ≠ [])
    (hu : u ∈ q r) : u ≠ T.tail p := by
  rintro rfl
  have hut : T.tail p ≠ t := fun heq => h.absent r (heq ▸ hu)
  have h1 := ((h.mem _ hut r).mp hu).2
  have h2 := ((h.mem _ hut p).mp (h.path p hp).last_mem).2
  exact hr (h1.symm.trans h2)

section Link

variable {entry pri : Word}

lemma link_clear (hb : T.encoderInput p = false) :
    T.link t entry pri p = { T with
      thread := Function.update T.thread t entry
      priority := Function.update T.priority p (setTailPointer t (setHeadPointer t pri))
      encoderInput := setEncoderBit true p T.encoderInput } := by
  simp [link, hb]

lemma link_set (hb : T.encoderInput p = true) :
    T.link t entry pri p = { T with
      thread := Function.update
        (Function.update T.thread (getTailPointer pri)
          (setNextPointer t (T.thread (getTailPointer pri)))) t
        (setPrevPointer (getTailPointer pri) entry)
      priority := Function.update T.priority p (setTailPointer t pri) } := by
  simp [link, hb]

lemma ListsBut.link_first (h : T.ListsBut q t) (hq : getQueueBit entry = true)
    (hl : getPriority entry = p) (hp : q p = []) :
    (T.link t entry pri p).Lists (push q p t) := by
  have hb : T.encoderInput p = false := by
    rw [← Bool.not_eq_true, h.bit p, hp]
    exact fun hne => hne rfl
  rw [link_clear hb]
  constructor
  · intro r hr
    by_cases hrp : r = p
    · subst hrp
      rw [push_self, hp]
      simp only [head, tail, Function.update_self, getHeadPointer_setTailPointer,
        getHeadPointer_setHeadPointer, getTailPointer_setTailPointer]
      exact .last
    · rw [push_of_ne q p t hrp] at hr ⊢
      simp only [head, tail, Function.update_of_ne hrp]
      refine (h.path r hr).congr fun u hu _ => ?_
      have hut : u ≠ t := fun heq => h.absent r (heq ▸ hu)
      simp only [next, Function.update_of_ne hut]
  · intro r
    rw [push_ne_nil]
    by_cases hrp : r = p
    · simp [setEncoderBit, hrp]
    · simp [setEncoderBit, hrp, h.bit r]
  · intro r hr
    by_cases hrp : r = p
    · rw [hrp, push_self] at hr
      exact absurd hr (by simp)
    · rw [push_of_ne q p t hrp] at hr
      simpa only [head, tail, Function.update_of_ne hrp] using h.stale r hr
  · intro u r
    rw [mem_push]
    by_cases hut : u = t
    · subst hut
      simp [queued, level, hq, hl, h.absent r, eq_comm]
    · simp [queued, level, hut, h.mem u hut r]

lemma ListsBut.link_last (h : T.ListsBut q t) (hq : getQueueBit entry = true)
    (hl : getPriority entry = p) (hp : q p ≠ []) (hhead : getHeadPointer pri = T.head p)
    (htail : getTailPointer pri = T.tail p) :
    (T.link t entry pri p).Lists (push q p t) := by
  have hpath := h.path p hp
  have hother : ∀ r ≠ p, ∀ u ∈ q r, u ≠ T.tail p := fun r hrp u hu => h.tail_ne hrp hp hu
  rw [link_set ((h.bit p).mpr hp), htail]
  generalize T.tail p = old at hpath hother
  have hot : old ≠ t := fun heq => h.absent p (heq ▸ hpath.last_mem)
  have hnext : ∀ u, u ≠ t → u ≠ old → Function.update (Function.update T.thread old
      (setNextPointer t (T.thread old))) t (setPrevPointer old entry) u = T.thread u := by
    intro u hut hold
    rw [Function.update_of_ne hut, Function.update_of_ne hold]
  constructor
  · intro r hr
    by_cases hrp : r = p
    · subst hrp
      rw [push_self]
      simp only [head, tail, Function.update_self, getHeadPointer_setTailPointer,
        getTailPointer_setTailPointer, hhead]
      refine hpath.concat (h.absent r) ?_ fun u hu hold => ?_
      · simp only [next, Function.update_of_ne hot, Function.update_self,
          getNextPointer_setNextPointer]
      · exact congrArg getNextPointer (hnext u (fun heq => h.absent r (heq ▸ hu)) hold)
    · rw [push_of_ne q p t hrp] at hr ⊢
      simp only [head, tail, Function.update_of_ne hrp]
      refine (h.path r hr).congr fun u hu _ => ?_
      exact congrArg getNextPointer (hnext u (fun heq => h.absent r (heq ▸ hu)) (hother r hrp u hu))
  · intro r
    rw [push_ne_nil, ← h.bit r]
    constructor
    · exact Or.inl
    · rintro (hr | rfl)
      · exact hr
      · exact (h.bit r).mpr hp
  · intro r hr
    by_cases hrp : r = p
    · rw [hrp, push_self] at hr
      exact absurd hr (by simp)
    · rw [push_of_ne q p t hrp] at hr
      simpa only [head, tail, Function.update_of_ne hrp] using h.stale r hr
  · intro u r
    rw [mem_push]
    by_cases hut : u = t
    · subst hut
      simp [queued, level, hq, hl, h.absent r, eq_comm]
    · by_cases hold : u = old
      · subst hold
        simp [queued, level, hut, h.mem u hut r]
      · simp [queued, level, hut, hold, h.mem u hut r]

end Link

section Unlink

lemma Lists.unique (h : T.Lists q) {r : Priority} (hp : u ∈ q p) (hr : u ∈ q r) : p = r :=
  ((h.mem u p).mp hp).2.symm.trans ((h.mem u r).mp hr).2

lemma Lists.head_eq (h : T.Lists q) {l : List ThreadId} (hq : q p = t :: l) : T.head p = t := by
  have hpath := h.path p (hq ▸ List.cons_ne_nil t l)
  obtain ⟨m, hm⟩ := hpath.exists_cons
  rw [hq] at hm
  exact (List.cons.inj hm).1.symm

lemma Lists.tail_eq (h : T.Lists q) {l : List ThreadId} (hq : q p = l ++ [t]) : T.tail p = t := by
  have hpath := h.path p (by simp [hq])
  obtain ⟨m, hm⟩ := hpath.exists_concat
  rw [hq] at hm
  exact (List.append_inj_right' hm rfl |> List.cons.inj |>.1).symm

lemma Lists.head_eq_tail_iff (h : T.Lists q) {l : List ThreadId} (hq : q p = t :: l) :
    T.head p = T.tail p ↔ l = [] := by
  have hpath := h.path p (hq ▸ List.cons_ne_nil t l)
  rw [hq] at hpath
  constructor
  · intro heq
    by_contra hl
    obtain ⟨hat, hne, -⟩ := hpath.of_cons hl
    exact hne (hat.symm.trans heq)
  · rintro rfl
    exact (h.head_eq hq).trans (h.tail_eq (l := []) hq).symm

lemma erase_of_split {l r : List ThreadId} (h : (l ++ t :: r).Nodup) :
    (l ++ t :: r).erase t = l ++ r := by
  have ht : t ∉ l := by
    intro hm
    exact (List.nodup_append.mp h).2.2 t hm t List.mem_cons_self rfl
  rw [List.erase_append_right _ ht, List.erase_cons_head]

-- what taking a thread out of its list has to do to the tables
structure TakenOut (T T' : Tables) (q : Priority → List ThreadId) (t : ThreadId) (p : Priority) :
    Prop where
  path : remove q p t p ≠ [] → Path T'.next (T'.tail p) (T'.head p) (remove q p t p)
  bit : T'.encoderInput p = true ↔ remove q p t p ≠ []
  stale : remove q p t p = [] → T'.head p = T'.tail p
  next : ∀ r ≠ p, ∀ u ∈ q r, T'.next u = T.next u
  head : ∀ r ≠ p, T'.head r = T.head r
  tail : ∀ r ≠ p, T'.tail r = T.tail r
  input : ∀ r ≠ p, T'.encoderInput r = T.encoderInput r
  queued : ∀ u ≠ t, T'.queued u = T.queued u
  level : ∀ u ≠ t, T'.level u = T.level u

lemma Lists.takenOut {T' : Tables} (h : T.Lists q) (ht : t ∈ q p) (hT : TakenOut T T' q t p) :
    T'.ListsBut (remove q p t) t := by
  constructor
  · intro r hr
    by_cases hrp : r = p
    · rw [hrp] at hr ⊢
      exact hT.path hr
    · rw [remove_of_ne q p t hrp] at hr ⊢
      rw [hT.head r hrp, hT.tail r hrp]
      exact (h.path r hr).congr fun u hu _ => hT.next r hrp u hu
  · intro r
    by_cases hrp : r = p
    · rw [hrp]
      exact hT.bit
    · rw [remove_of_ne q p t hrp, hT.input r hrp]
      exact h.bit r
  · intro r hr
    by_cases hrp : r = p
    · rw [hrp] at hr ⊢
      exact hT.stale hr
    · rw [remove_of_ne q p t hrp] at hr
      rw [hT.head r hrp, hT.tail r hrp]
      exact h.stale r hr
  · intro u hut r
    rw [hT.queued u hut, hT.level u hut, ← h.mem u r]
    by_cases hrp : r = p
    · rw [hrp, remove_self, List.mem_erase_of_ne hut]
    · rw [remove_of_ne q p t hrp]
  · intro r hr
    by_cases hrp : r = p
    · rw [hrp, remove_self] at hr
      exact (h.nodup p).not_mem_erase hr
    · rw [remove_of_ne q p t hrp] at hr
      exact hrp (h.unique hr ht)

end Unlink

end Tables

end Hthreads.Scheduler
