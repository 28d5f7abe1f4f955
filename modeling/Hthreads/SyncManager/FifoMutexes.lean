import Hthreads.Library.Path
import Hthreads.SyncManager.Commands

/-! First-in first-out mutexes, and how the two stores represent them. All the lists of waiting
threads are threaded through the one table of links. -/

namespace Hthreads.SyncManager

open Library Scheduler

variable {m : ℕ}

structure Holder where
  owner : ThreadId
  depth : ℕ
  waiters : List ThreadId

structure FifoMutex where
  kind : BitVec 2
  holder : Option Holder

inductive Verdict
  | success
  | blocked
  | refused
  | value (data : Word)

def Verdict.data : Verdict → Word
  | success => 0
  | blocked => blockData
  | refused => errorData
  | value data => data

namespace FifoMutex

def lock (M : FifoMutex) (t : ThreadId) : Verdict × FifoMutex :=
  match M.holder with
  | none => (.success, { M with holder := some ⟨t, 1, []⟩ })
  | some h =>
    if h.owner = t ∧ M.kind = synchRecurs then
      (.success, { M with holder := some { h with depth := h.depth + 1 } })
    else if h.owner = t ∧ M.kind = synchError then (.refused, M)
    else (.blocked, { M with holder := some { h with waiters := h.waiters ++ [t] } })

def tryLock (M : FifoMutex) (t : ThreadId) : Verdict × FifoMutex :=
  match M.holder with
  | none => (.success, { M with holder := some ⟨t, 1, []⟩ })
  | some h =>
    if h.owner = t ∧ M.kind = synchRecurs then
      (.success, { M with holder := some { h with depth := h.depth + 1 } })
    else (.blocked, M)

/-- The last unlock wakes the oldest waiter, who then owns the mutex. -/
def unlock (M : FifoMutex) : Verdict × List ThreadId × FifoMutex :=
  match M.holder with
  | none => (.refused, [], M)
  | some h =>
    if 1 < h.depth then (.success, [], { M with holder := some { h with depth := h.depth - 1 } })
    else
      match h.waiters with
      | [] => (.success, [], { M with holder := none })
      | w :: ws => (.success, [w], { M with holder := some ⟨w, 1, ws⟩ })

def waiters (M : FifoMutex) : List ThreadId := M.holder.elim [] Holder.waiters

end FifoMutex

abbrev FifoMutexes (m : ℕ) := BitVec m → FifoMutex

namespace FifoMutexes

def initial : FifoMutexes m := fun _ => ⟨synchFast, none⟩

def step (A : FifoMutexes m) : Request m → Verdict × List ThreadId × FifoMutexes m
  | .lock μ t => (((A μ).lock t).1, [], Function.update A μ ((A μ).lock t).2)
  | .tryLock μ t => (((A μ).tryLock t).1, [], Function.update A μ ((A μ).tryLock t).2)
  | .unlock μ _ => ((A μ).unlock.1, (A μ).unlock.2.1, Function.update A μ (A μ).unlock.2.2)
  | .setKind μ k => (.success, [], Function.update A μ { A μ with kind := k })
  | .kind μ => (.value ((A μ).kind.setWidth 32), [], A)
  | .owner μ => (.value (((A μ).holder.elim 0 Holder.owner).setWidth 32), [], A)
  | .count μ => (.value (BitVec.ofNat 32 ((A μ).holder.elim 0 Holder.depth)), [], A)

/-- A thread that has been told to block does not run. -/
def Running (A : FifoMutexes m) (t : ThreadId) : Prop :=
  ∀ μ, ∀ h ∈ (A μ).holder, t ∉ h.waiters

/-- How the callers use the mutexes: only the owner unlocks, a mutex that is not recursive is not
locked again by its owner, the nesting stays below 256, and the kind of a mutex is set while it
is free. -/
def Allowed (A : FifoMutexes m) : Request m → Prop
  | .lock μ t => A.Running t ∧ ∀ h ∈ (A μ).holder, h.owner = t →
      (A μ).kind = synchRecurs ∧ h.depth < 255 ∨ (A μ).kind = synchError
  | .tryLock μ t => A.Running t ∧ ∀ h ∈ (A μ).holder, h.owner = t →
      (A μ).kind = synchRecurs → h.depth < 255
  | .unlock μ t => A.Running t ∧ ∃ h ∈ (A μ).holder, h.owner = t
  | .setKind μ _ => (A μ).holder.isNone
  | .kind _ | .owner _ | .count _ => True

instance Running.decidable (A : FifoMutexes m) (t : ThreadId) : Decidable (A.Running t) :=
  inferInstanceAs (Decidable (∀ μ, ∀ h ∈ (A μ).holder, t ∉ h.waiters))

instance Allowed.decidable (A : FifoMutexes m) (r : Request m) : Decidable (A.Allowed r) :=
  match r with
  | .lock _ _ | .tryLock _ _ | .unlock _ _ => inferInstanceAs (Decidable (_ ∧ _))
  | .setKind μ _ => inferInstanceAs (Decidable ((A μ).holder.isNone = true))
  | .kind _ | .owner _ | .count _ => inferInstanceAs (Decidable True)

end FifoMutexes

/-- The list of waiters in the links; it is empty when both ends name the owner. -/
def Queue (links : ThreadId → ThreadId) (e : MutexEntry) : List ThreadId → Prop
  | [] => e.next = e.owner ∧ e.last = e.owner
  | w :: ws => Path links e.last e.next (w :: ws) ∧ links e.last = e.last

def Stores.waiters (S : Stores m) (μ : BitVec m) : List ThreadId :=
  let e := S.mutexes μ
  if e.count = 0 ∨ e.next = e.owner then [] else walk S.links e.last 255 e.next

structure HeldBy (links : ThreadId → ThreadId) (e : MutexEntry) (h : Holder) : Prop where
  owner : e.owner = h.owner
  count : e.count.toNat = h.depth
  locked : 0 < h.depth
  nested : 1 < h.depth → e.kind = synchRecurs
  apart : h.owner ∉ h.waiters
  queue : Queue links e h.waiters

/-- A free mutex has no owner either: the entry is zero except for its kind. -/
def Depicts (links : ThreadId → ThreadId) (e : MutexEntry) (M : FifoMutex) : Prop :=
  e.kind = M.kind ∧
    match M.holder with
    | none => e.count = 0 ∧ e.owner = 0
    | some h => HeldBy links e h

structure Represents (S : Stores m) (A : FifoMutexes m) : Prop where
  each : ∀ μ, Depicts S.links (S.mutexes μ) (A μ)
  disjoint : ∀ {μ ν : BitVec m} {h k : Holder}, μ ≠ ν → h ∈ (A μ).holder → k ∈ (A ν).holder →
    h.waiters.Disjoint k.waiters

lemma represents_initial : Represents (Stores.initial : Stores m) .initial :=
  ⟨fun _ => ⟨rfl, rfl, rfl⟩, fun _ hh => by cases hh⟩

section Queues

variable {links links' : ThreadId → ThreadId} {e : MutexEntry} {h : Holder} {M : FifoMutex}
  {l : List ThreadId}

lemma Queue.nodup (hq : Queue links e l) : l.Nodup := by
  cases l with
  | nil => exact List.nodup_nil
  | cons w ws => exact hq.1.nodup

lemma Queue.congr (hq : Queue links e l) (hl : ∀ u ∈ l, links' u = links u) :
    Queue links' e l := by
  cases l with
  | nil => exact hq
  | cons w ws =>
    refine ⟨hq.1.congr fun u hu _ => hl u hu, ?_⟩
    rw [hl e.last hq.1.last_mem]
    exact hq.2

lemma HeldBy.congr (hh : HeldBy links e h) (hl : ∀ u ∈ h.waiters, links' u = links u) :
    HeldBy links' e h :=
  { hh with queue := hh.queue.congr hl }

lemma Depicts.congr (hd : Depicts links e M)
    (hl : ∀ h ∈ M.holder, ∀ u ∈ h.waiters, links' u = links u) : Depicts links' e M := by
  obtain ⟨hkind, hd⟩ := hd
  refine ⟨hkind, ?_⟩
  cases hM : M.holder with
  | none => simpa [hM] using hd
  | some h =>
    rw [hM] at hd
    exact hd.congr (hl h hM)

lemma HeldBy.count_ne_zero (hh : HeldBy links e h) : e.count ≠ 0 := by
  intro hzero
  have hcount := hh.count
  rw [hzero] at hcount
  exact hh.locked.ne hcount

lemma HeldBy.count_eq_one (hh : HeldBy links e h) : e.count = 1 ↔ h.depth = 1 := by
  rw [← hh.count]
  constructor
  · intro heq
    rw [heq]
    rfl
  · intro heq
    exact BitVec.eq_of_toNat_eq heq

lemma HeldBy.next_eq_owner (hh : HeldBy links e h) : e.next = e.owner ↔ h.waiters = [] := by
  obtain ⟨owner, depth, waiters⟩ := h
  cases waiters with
  | nil => exact iff_of_true hh.queue.1 rfl
  | cons w ws =>
    refine iff_of_false (fun heq => hh.apart ?_) (List.cons_ne_nil w ws)
    rw [← hh.owner, ← heq]
    exact hh.queue.1.head_mem

lemma HeldBy.last_eq_owner (hh : HeldBy links e h) : e.last = e.owner ↔ h.waiters = [] := by
  obtain ⟨owner, depth, waiters⟩ := h
  cases waiters with
  | nil => exact iff_of_true hh.queue.2 rfl
  | cons w ws =>
    refine iff_of_false (fun heq => hh.apart ?_) (List.cons_ne_nil w ws)
    rw [← hh.owner, ← heq]
    exact hh.queue.1.last_mem

lemma Queue.append_first {t : ThreadId} (hl : links t = t) :
    Queue links { e with next := t, last := t } [t] :=
  ⟨.last, hl⟩

lemma Queue.append {t : ThreadId} (hq : Queue links e l) (hne : l ≠ []) (ht : t ∉ l) :
    Queue (Function.update (Function.update links e.last t) t t) { e with last := t }
      (l ++ [t]) := by
  cases l with
  | nil => exact absurd rfl hne
  | cons w ws =>
    have hlast : e.last ≠ t := fun heq => ht (heq ▸ hq.1.last_mem)
    refine ⟨hq.1.concat ht ?_ fun u hu hul => ?_, ?_⟩
    · rw [Function.update_of_ne hlast, Function.update_self]
    · have hut : u ≠ t := fun heq => ht (heq ▸ hu)
      rw [Function.update_of_ne hut, Function.update_of_ne hul]
    · simp

lemma Queue.advance {w : ThreadId} (hq : Queue links e (w :: l)) :
    e.next = w ∧ w ∉ l ∧ Queue links { e with owner := w, next := links w, count := 1 } l := by
  have hw : w ∉ l := (List.nodup_cons.mp hq.1.nodup).1
  obtain ⟨r, hr⟩ := hq.1.exists_cons
  have hnext : e.next = w := (List.cons.inj hr).1.symm
  cases l with
  | nil =>
    have hlast : e.last = w := List.mem_singleton.mp hq.1.last_mem
    refine ⟨hnext, hw, ?_, hlast⟩
    rw [← hlast]
    exact hq.2
  | cons v l =>
    obtain ⟨-, -, hv, hp⟩ := hq.1.of_cons_cons
    refine ⟨hnext, hw, ?_, hq.2⟩
    rw [hv]
    exact hp

lemma Represents.waiters {S : Stores m} {A : FifoMutexes m} (hS : Represents S A) :
    S.waiters = fun μ => (A μ).waiters := by
  funext μ
  have hd := (hS.each μ).2
  rw [Stores.waiters, FifoMutex.waiters]
  cases hh : (A μ).holder with
  | none =>
    rw [hh] at hd
    exact if_pos (.inl hd.1)
  | some h =>
    rw [hh] at hd
    have hd : HeldBy S.links (S.mutexes μ) h := hd
    have hempty := hd.next_eq_owner
    have hqueue := hd.queue
    simp only [hd.count_ne_zero, false_or, hempty, Option.elim_some]
    cases hw : h.waiters with
    | nil => exact if_pos rfl
    | cons w ws =>
      rw [hw] at hqueue
      rw [if_neg (List.cons_ne_nil w ws)]
      exact hqueue.1.walk_of_injective (f := BitVec.toFin) fun _ _ => BitVec.eq_of_toFin_eq

end Queues

end Hthreads.SyncManager
