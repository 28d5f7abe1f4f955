import Hthreads.CondVars.Commands
import Hthreads.Library.Fifo
import Hthreads.Library.Path

/-! First-in first-out wait queues, one for each condition variable: how one table represents all of
them, and that the commands on the table refine those on the queues. -/

namespace Hthreads.CondVars

open Library Library.BitFields Scheduler

abbrev WaitQueues := Cvar → List ThreadId

namespace WaitQueues

def initial : WaitQueues := fun _ => []

/-- The threads woken by a command, and the queues after it. -/
def step (Q : WaitQueues) : Command → List ThreadId × WaitQueues
  | .wait cvar tid => ([], Fifo.push Q cvar tid)
  | .signal cvar => ((Q cvar).take 1, Fifo.pop Q cvar)
  | .broadcast cvar => (Q cvar, Function.update Q cvar [])

def run (Q : WaitQueues) : List Command → List ThreadId × WaitQueues
  | [] => ([], Q)
  | c :: cs => ((Q.step c).1 ++ ((Q.step c).2.run cs).1, ((Q.step c).2.run cs).2)

/-- A thread waits on one condition variable at a time, and no queue outgrows its length. -/
def Allowed (Q : WaitQueues) : Command → Prop
  | .wait cvar tid => (∀ w, tid ∉ Q w) ∧ (Q cvar).length < 255
  | .signal _ | .broadcast _ => True

def Disciplined (Q : WaitQueues) : List Command → Prop
  | [] => True
  | c :: cs => Q.Allowed c ∧ (Q.step c).2.Disciplined cs

instance Allowed.decidable (Q : WaitQueues) (c : Command) : Decidable (Q.Allowed c) :=
  match c with
  | .wait _ _ => inferInstanceAs (Decidable (_ ∧ _))
  | .signal _ | .broadcast _ => inferInstanceAs (Decidable True)

instance Disciplined.decidable (Q : WaitQueues) : ∀ cs, Decidable (Q.Disciplined cs)
  | [] => inferInstanceAs (Decidable True)
  | c :: cs =>
    have := Disciplined.decidable (Q.step c).2 cs
    inferInstanceAs (Decidable (Q.Allowed c ∧ (Q.step c).2.Disciplined cs))

lemma run_append (Q : WaitQueues) (cs ds : List Command) :
    Q.run (cs ++ ds) = ((Q.run cs).1 ++ ((Q.run cs).2.run ds).1, ((Q.run cs).2.run ds).2) := by
  induction cs generalizing Q with
  | nil => rfl
  | cons c cs ih => simp only [List.cons_append, run, ih, List.append_assoc]

lemma Disciplined.append {Q : WaitQueues} {cs ds : List Command} (h : Q.Disciplined (cs ++ ds)) :
    (Q.run cs).2.Disciplined ds := by
  induction cs generalizing Q with
  | nil => exact h
  | cons c cs ih => exact ih h.2

end WaitQueues

@[ext] structure Lists where
  length : Cvar → ℕ
  owner : Cvar → ThreadId
  last : Cvar → ThreadId
  link : ThreadId → ThreadId

def Lists.waiters (L : Lists) (cvar : Cvar) : List ThreadId :=
  List.iterate L.link (L.owner cvar) (L.length cvar)

namespace Table

variable (T : Table) (cvar : Cvar) (tid u : ThreadId) (n : BitVec 8)

def lists : Lists where
  length cvar := (T (lengthEntry cvar)).toNat
  owner cvar := T (ownerEntry cvar)
  last cvar := T (lastReqEntry cvar)
  link := T.link

lemma region_inj {k l : BitVec 3} {x y : BitVec 8} : k ++ x = l ++ y ↔ k = l ∧ x = y := by
  constructor
  · intro heq
    have hhigh := congrArg (BitVec.extractLsb' 8 3) heq
    have hlow := congrArg (BitVec.extractLsb' 0 8) heq
    rw [BitVec.extractLsb'_append_eq_left, BitVec.extractLsb'_append_eq_left] at hhigh
    rw [BitVec.extractLsb'_append_eq_right, BitVec.extractLsb'_append_eq_right] at hlow
    exact ⟨hhigh, hlow⟩
  · rintro ⟨rfl, rfl⟩
    rfl

section Updates

attribute [local simp] lists link region_inj lengthEntry lastReqEntry ownerEntry linkEntry setLength
  Function.update_apply

lemma lists_setLength : (T.setLength cvar n).lists =
    { T.lists with length := Function.update T.lists.length cvar n.toNat } := by
  ext w <;> simp
  split <;> rfl

lemma lists_setOwner : lists (Function.update T (ownerEntry cvar) tid) =
    { T.lists with owner := Function.update T.lists.owner cvar tid } := by
  ext w <;> simp

lemma lists_setLast : lists (Function.update T (lastReqEntry cvar) tid) =
    { T.lists with last := Function.update T.lists.last cvar tid } := by
  ext w <;> simp

lemma lists_setLink : lists (Function.update T (linkEntry u) tid) =
    { T.lists with link := Function.update T.lists.link u tid } := by
  ext w <;> simp

end Updates

end Table

structure Represents (L : Lists) (Q : WaitQueues) : Prop where
  length : ∀ cvar, L.length cvar = (Q cvar).length
  path : ∀ cvar, Q cvar ≠ [] → Path L.link (L.last cvar) (L.owner cvar) (Q cvar)
  disjoint : ∀ {v w : Cvar}, v ≠ w → (Q v).Disjoint (Q w)

def Lists.Same (L M : Lists) (w : Cvar) : Prop :=
  L.length w = M.length w ∧ L.owner w = M.owner w ∧ L.last w = M.last w

lemma iterate_of_path {next : ThreadId → ThreadId} {last a : ThreadId} {l : List ThreadId}
    (h : Path next last a l) : List.iterate next a l.length = l := by
  induction h with
  | last => rfl
  | cons _ _ ih => rw [List.length_cons, List.iterate, ih]

section Steps

variable {L M : Lists} {Q : WaitQueues} {cvar : Cvar} {tid u : ThreadId} {l : List ThreadId}

lemma Represents.waiters (h : Represents L Q) : L.waiters = Q := by
  funext cvar
  rw [Lists.waiters, h.length]
  cases hl : Q cvar with
  | nil => rfl
  | cons u l =>
    have hpath := h.path cvar (hl ▸ List.cons_ne_nil u l)
    rw [hl] at hpath
    exact iterate_of_path hpath

lemma Represents.put (h : Represents L Q) (hsame : ∀ w ≠ cvar, M.Same L w)
    (hlink : ∀ w ≠ cvar, ∀ u ∈ Q w, M.link u = L.link u) (hlength : M.length cvar = l.length)
    (hpath : l ≠ [] → Path M.link (M.last cvar) (M.owner cvar) l)
    (hnew : ∀ w ≠ cvar, l.Disjoint (Q w)) : Represents M (Function.update Q cvar l) where
  length w := by
    by_cases hw : w = cvar
    · subst hw
      rw [Function.update_self, hlength]
    · rw [Function.update_of_ne hw, (hsame w hw).1, h.length]
  path w hne := by
    by_cases hw : w = cvar
    · subst hw
      rw [Function.update_self] at hne ⊢
      exact hpath hne
    · rw [Function.update_of_ne hw] at hne ⊢
      rw [(hsame w hw).2.1, (hsame w hw).2.2]
      exact (h.path w hne).congr fun u hu _ => hlink w hw u hu
  disjoint {v w} hne := by
    by_cases hv : v = cvar
    · subst hv
      rw [Function.update_self, Function.update_of_ne hne.symm]
      exact hnew w hne.symm
    · rw [Function.update_of_ne hv]
      by_cases hw : w = cvar
      · subst hw
        rw [Function.update_self]
        exact (hnew v hv).symm
      · rw [Function.update_of_ne hw]
        exact h.disjoint hne

lemma Represents.put_within (h : Represents L Q) (hsame : ∀ w ≠ cvar, M.Same L w)
    (hlink : M.link = L.link) (hlength : M.length cvar = l.length)
    (hpath : l ≠ [] → Path M.link (M.last cvar) (M.owner cvar) l) (hsub : l ⊆ Q cvar) :
    Represents M (Function.update Q cvar l) :=
  h.put hsame (fun _ _ u _ => congrFun hlink u) hlength hpath
    fun _ hw => List.disjoint_of_subset_left hsub (h.disjoint hw.symm)

lemma Represents.push_first (h : Represents L Q) (hnil : Q cvar = []) (htid : ∀ w, tid ∉ Q w) :
    Represents
      { L with
        length := Function.update L.length cvar 1
        owner := Function.update L.owner cvar tid
        last := Function.update L.last cvar tid }
      (Fifo.push Q cvar tid) := by
  rw [Fifo.push, hnil, List.nil_append]
  refine h.put (fun w hw => ?_) (fun _ _ _ _ => rfl) ?_ (fun _ => ?_) fun w hw => ?_
  · simp [Lists.Same, hw]
  · simp
  · simp only [Function.update_self]
    exact .last
  · exact List.singleton_disjoint.mpr (htid w)

lemma Represents.push_next (h : Represents L Q) (hne : Q cvar ≠ []) (htid : ∀ w, tid ∉ Q w) :
    Represents
      { L with
        length := Function.update L.length cvar (L.length cvar + 1)
        last := Function.update L.last cvar tid
        link := Function.update L.link (L.last cvar) tid }
      (Fifo.push Q cvar tid) := by
  have hpath := h.path cvar hne
  rw [Fifo.push]
  refine h.put (fun w hw => ?_) (fun w hw u hu => ?_) ?_ (fun _ => ?_) fun w hw => ?_
  · simp [Lists.Same, hw]
  · have hlast : u ≠ L.last cvar := by
      rintro rfl
      exact h.disjoint hw hu hpath.last_mem
    exact Function.update_of_ne hlast tid L.link
  · simp [h.length]
  · simp only [Function.update_self]
    exact hpath.concat (htid cvar) (Function.update_self _ _ _)
      fun u _ hu => Function.update_of_ne hu tid L.link
  · exact List.disjoint_append_left.mpr
      ⟨h.disjoint hw.symm, List.singleton_disjoint.mpr (htid w)⟩

lemma Represents.pop_only (h : Represents L Q) (hone : Q cvar = [u]) :
    L.owner cvar = u ∧
    Represents { L with length := Function.update L.length cvar 0 } (Fifo.pop Q cvar) := by
  have hpath := h.path cvar (hone ▸ List.cons_ne_nil u [])
  obtain ⟨m, hm⟩ := hpath.exists_cons
  rw [hone] at hm
  refine ⟨(List.cons.inj hm).1.symm, ?_⟩
  rw [Fifo.pop, hone, List.tail_cons]
  refine h.put_within (fun w hw => ?_) rfl ?_ (fun hne => absurd rfl hne) (List.nil_subset _)
  · simp [Lists.Same, hw]
  · simp

lemma Represents.pop_general (h : Represents L Q) (hl : Q cvar = u :: tid :: l) :
    L.owner cvar = u ∧
    Represents
      { L with
        length := Function.update L.length cvar (L.length cvar - 1)
        owner := Function.update L.owner cvar (L.link u) }
      (Fifo.pop Q cvar) := by
  have hpath := h.path cvar (hl ▸ List.cons_ne_nil u (tid :: l))
  rw [hl] at hpath
  obtain ⟨howner, -, hnext, hrest⟩ := hpath.of_cons_cons
  refine ⟨howner, ?_⟩
  rw [Fifo.pop, hl, List.tail_cons]
  refine h.put_within (fun w hw => ?_) rfl ?_ (fun _ => ?_) ?_
  · simp [Lists.Same, hw]
  · simp [h.length, hl]
  · simp only [Function.update_self, hnext]
    exact hrest
  · rw [hl]
    exact List.subset_cons_self u (tid :: l)

lemma Represents.clear (h : Represents L Q) :
    Represents { L with length := Function.update L.length cvar 0 }
      (Function.update Q cvar []) := by
  refine h.put_within (fun w hw => ?_) rfl ?_ (fun hne => absurd rfl hne) (List.nil_subset _)
  · simp [Lists.Same, hw]
  · simp

end Steps

section Execution

variable {T : Table} {Q : WaitQueues} {cvar : Cvar} {tid : ThreadId}

lemma Represents.length_eq_zero (h : Represents T.lists Q) :
    T (lengthEntry cvar) = 0 ↔ Q cvar = [] := by
  rw [← List.length_eq_zero_iff, ← h.length cvar]
  exact BitVec.toNat_inj.symm

lemma Represents.enqueue (h : Represents T.lists Q) (ha : Q.Allowed (.wait cvar tid)) :
    Represents (T.enqueue cvar tid).lists (Fifo.push Q cvar tid) := by
  obtain ⟨htid, hroom⟩ := ha
  have hlen : (T (lengthEntry cvar)).toNat = (Q cvar).length := h.length cvar
  have hnext : (T (lengthEntry cvar) + 1).toNat = (T (lengthEntry cvar)).toNat + 1 :=
    toNat_succ_of_lt (by omega)
  rw [Table.enqueue]
  by_cases hnil : Q cvar = []
  · have hzero := h.length_eq_zero.mpr hnil
    rw [if_pos (by rw [hzero]; rfl), hzero]
    simp only [Table.lists_setLast, Table.lists_setOwner, Table.lists_setLength]
    exact h.push_first hnil htid
  · have hone : T (lengthEntry cvar) + 1 ≠ 1 := by
      intro heq
      rw [heq] at hnext
      exact hnil (h.length_eq_zero.mp (BitVec.eq_of_toNat_eq (Nat.succ.inj hnext).symm))
    have hlast : T.setLength cvar (T (lengthEntry cvar) + 1) (lastReqEntry cvar) =
      T.lists.last cvar :=
      congrFun (congrArg Lists.last (T.lists_setLength cvar (T (lengthEntry cvar) + 1))) cvar
    rw [if_neg hone, hlast]
    simp only [Table.lists_setLink, Table.lists_setLast, Table.lists_setLength, hnext]
    exact h.push_next hnil htid

lemma Represents.dequeue (h : Represents T.lists Q) :
    (T.dequeue cvar).1 = (Q cvar).take 1 ∧
      Represents (T.dequeue cvar).2.lists (Fifo.pop Q cvar) := by
  have hlen : (T (lengthEntry cvar)).toNat = (Q cvar).length := h.length cvar
  rw [Table.dequeue]
  rcases hl : Q cvar with _ | ⟨u, _ | ⟨v, l⟩⟩
  · rw [if_pos (h.length_eq_zero.mpr hl)]
    refine ⟨rfl, ?_⟩
    rw [Fifo.pop, hl, List.tail_nil, ← hl, Function.update_eq_self]
    exact h
  · obtain ⟨howner, hpop⟩ := h.pop_only hl
    have hone : T (lengthEntry cvar) = 1 := by
      rw [hl] at hlen
      exact BitVec.eq_of_toNat_eq hlen
    rw [hone, if_neg (by decide), if_pos rfl]
    refine ⟨congrArg (fun w => [w]) howner, ?_⟩
    simp only [Table.lists_setLength]
    exact hpop
  · obtain ⟨howner, hpop⟩ := h.pop_general hl
    have hzero : T (lengthEntry cvar) ≠ 0 := mt h.length_eq_zero.mp (by simp [hl])
    have hone : T (lengthEntry cvar) ≠ 1 := by
      intro heq
      rw [heq, hl] at hlen
      simp at hlen
    have hlink : (T.setLength cvar (T (lengthEntry cvar) - 1)).link (T (ownerEntry cvar)) =
        T.lists.link (T.lists.owner cvar) :=
      congrFun (congrArg Lists.link (T.lists_setLength cvar (T (lengthEntry cvar) - 1))) _
    rw [if_neg hzero, if_neg hone]
    refine ⟨congrArg (fun w => [w]) howner, ?_⟩
    simp only [Table.lists_setOwner, Table.lists_setLength, hlink, howner,
      toNat_pred_of_ne_zero hzero]
    exact hpop

lemma Represents.dequeueAll (h : Represents T.lists Q) :
    (T.dequeueAll cvar).1 = Q cvar ∧
      Represents (T.dequeueAll cvar).2.lists (Function.update Q cvar []) := by
  rw [Table.dequeueAll]
  by_cases hnil : Q cvar = []
  · rw [if_pos (h.length_eq_zero.mpr hnil)]
    refine ⟨hnil.symm, ?_⟩
    rw [← hnil, Function.update_eq_self]
    exact h
  · rw [if_neg (mt h.length_eq_zero.mp hnil)]
    have hlink : (T.setLength cvar 0).link = T.lists.link :=
      congrArg Lists.link (T.lists_setLength cvar 0)
    have hwaiters : List.iterate T.lists.link (T.lists.owner cvar) (T.lists.length cvar) = Q cvar :=
      congrFun h.waiters cvar
    refine ⟨?_, ?_⟩
    · rw [hlink]
      exact hwaiters
    · simp only [Table.lists_setLength]
      exact h.clear

/-- A command wakes the threads that the queues wake, and the table still represents them. -/
theorem Represents.execute (h : Represents T.lists Q) {c : Command} (ha : Q.Allowed c) :
    (T.execute c).1 = (Q.step c).1 ∧ Represents (T.execute c).2.lists (Q.step c).2 := by
  cases c with
  | wait cvar tid => exact ⟨rfl, h.enqueue ha⟩
  | signal cvar => exact h.dequeue
  | broadcast cvar => exact h.dequeueAll

lemma represents_initial (hT : ∀ a, T a = 0) : Represents T.lists .initial where
  length _ := congrArg BitVec.toNat (hT _)
  path _ hne := absurd rfl hne
  disjoint _ := List.disjoint_nil_left _

end Execution

end Hthreads.CondVars
