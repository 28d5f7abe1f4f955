import Hthreads.Cores.WakeProtocol
import Hthreads.Kernel.Node
import Hthreads.Scheduler.Announcement

/-! Where the threads are: a map from threads to places, and how the tables of the cores hold it. -/

namespace Hthreads.Kernel

open Library Library.BitFields Library.Fifo Scheduler ThreadManager Cores Software

variable {m : ℕ}

inductive Place (m : ℕ)
  | executing
  | ready (p : Priority)
  | mutex (μ : BitVec m)
  | cond (κ : CondVars.Cvar)
  | child (c : ThreadId)
  | mail
  deriving DecidableEq

def Place.software : Place m → Bool
  | executing | ready _ | child _ => true
  | mutex _ | cond _ | mail => false

/-- The parent that has joined a running child. -/
def awaiting (b : Books) (c : ThreadId) : Option ThreadId :=
  if b.running c && !entryDetached (b.entry c) && entryJoined (b.entry c) then
    some (entryParent (b.entry c))
  else none

-- no wait of the current thread is registered, and it has not exited
def Stage.executes : Stage m → Bool
  | asleep _ | waited _ _ | dying | leaving => false
  | user | created _ | prepared _ | reap _ | relock _ _ => true

def Node.occurs (x : Node m) (t : ThreadId) : Place m → ℕ
  | .executing => if t = x.cpu ∧ x.stage.executes = true then 1 else 0
  | .ready p => (x.books.ready.readyList p).count t
  | .mutex μ => (x.mutexes.waiters μ).count t
  | .cond κ => (x.conds.lists.waiters κ).count t
  | .child c => if awaiting x.books c = some t then 1 else 0
  | .mail => x.mail.count t

/-- A thread of the processor that has been started and has not exited. -/
def Node.Live (x : Node m) (t : ThreadId) : Prop :=
  x.books.running t = true ∧ x.started t = true ∧ x.software t = true

/-- What it takes for a thread to be in a place, or in none. -/
structure Suits (x : Node m) (t : ThreadId) (o : Option (Place m)) : Prop where
  alive : ∀ p, o = some p → x.books.running t = true ∧ x.started t = true
  software : ∀ p, o = some p → p.software = true → x.software t = true
  placed : x.Live t → t ≠ x.idle → o ≠ none
  awake : x.software t = false → x.saved t = .user → o = none
  idle : t = x.idle → x.Live t ∧ ∀ p, o = some p → p = .executing ∨ ∃ r, p = .ready r

/-- The tables hold the map, except for the thread that is executing. -/
structure Placed (x : Node m) (A : SyncManager.FifoMutexes m) (Q : CondVars.WaitQueues)
    (loc : ThreadId → Option (Place m)) : Prop where
  announcing : Announcing x.books.ready (some x.idle)
  allocates : Allocates x.books
  consistent : Consistent x.books
  mutexes : SyncManager.Represents x.mutexes A
  conds : CondVars.Represents x.conds.lists Q
  once : x.mail.Nodup
  ready : ∀ t p, t ∈ x.books.ready.readyList p ↔ loc t = some (.ready p)
  mutex : ∀ t μ, t ∈ (A μ).waiters ↔ loc t = some (.mutex μ)
  cond : ∀ t κ, t ∈ Q κ ↔ loc t = some (.cond κ)
  child : ∀ t c, awaiting x.books c = some t ↔ loc t = some (.child c)
  mail : ∀ t, t ∈ x.mail ↔ loc t = some .mail
  suits : ∀ t, Suits x t (loc t)

section Moves

variable {loc : ThreadId → Option (Place m)} {x y : Node m} {t u : ThreadId} {p q : Place m}
  {o : Option (Place m)}

lemma moved_iff (hold : loc t ≠ some q) (hnew : o ≠ some q) (u : ThreadId) :
    Function.update loc t o u = some q ↔ loc u = some q := by
  by_cases hu : u = t
  · subst hu
    rw [Function.update_self]
    exact iff_of_false hnew hold
  · rw [Function.update_of_ne hu]

lemma moved_to_iff (hold : loc t ≠ some q) (u : ThreadId) :
    Function.update loc t (some q) u = some q ↔ loc u = some q ∨ u = t := by
  by_cases hu : u = t
  · subst hu
    rw [Function.update_self]
    exact iff_of_true rfl (.inr rfl)
  · rw [Function.update_of_ne hu, or_iff_left hu]

lemma moved_from_iff (hnew : o ≠ some q) (u : ThreadId) :
    Function.update loc t o u = some q ↔ loc u = some q ∧ u ≠ t := by
  by_cases hu : u = t
  · subst hu
    rw [Function.update_self]
    exact iff_of_false hnew fun h => h.2 rfl
  · rw [Function.update_of_ne hu, and_iff_left hu]

/-- Nothing is changed that decides where the thread can be. -/
structure Unchanged (x y : Node m) (u : ThreadId) : Prop where
  running : y.books.running u = x.books.running u
  started : y.started u = x.started u
  software : y.software u = x.software u
  saved : x.software u = false → y.saved u = x.saved u
  idle : y.idle = x.idle

lemma Unchanged.live (h : Unchanged x y u) : y.Live u ↔ x.Live u := by
  rw [Node.Live, Node.Live, h.running, h.started, h.software]

lemma Suits.congr (h : Suits x u o) (hy : Unchanged x y u) : Suits y u o where
  alive q hu := by
    rw [hy.running, hy.started]
    exact h.alive q hu
  software q hu hq := by
    rw [hy.software]
    exact h.software q hu hq
  placed hu hne := h.placed (hy.live.mp hu) (hy.idle ▸ hne)
  awake hu hs := by
    rw [hy.software] at hu
    exact h.awake hu (hy.saved hu ▸ hs)
  idle hu := by
    rw [hy.live]
    exact h.idle (hu.trans hy.idle)

lemma Suits.move (h : Suits x t (some p)) (hs : q.software = true → x.software t = true)
    (hi : t = x.idle → q = .executing ∨ ∃ r, q = .ready r) : Suits x t (some q) where
  alive _ _ := h.alive p rfl
  software _ hr hsoft := hs (Option.some.inj hr ▸ hsoft)
  placed _ _ := Option.some_ne_none q
  awake hsoft hsaved := absurd (h.awake hsoft hsaved) (Option.some_ne_none p)
  idle ht := ⟨(h.idle ht).1, fun _ hr => Option.some.inj hr ▸ hi ht⟩

lemma suits_update (h : ∀ u ≠ t, Suits y u (loc u)) (ht : Suits y t o) (u : ThreadId) :
    Suits y u (Function.update loc t o u) := by
  by_cases hu : u = t
  · rw [hu, Function.update_self]
    exact ht
  · rw [Function.update_of_ne hu]
    exact h u hu

lemma Suits.ne_idle (h : Suits x t (some p)) (hp : p ≠ .executing) (hp' : ∀ r, p ≠ .ready r) :
    t ≠ x.idle := by
  intro ht
  obtain hexec | ⟨r, hr⟩ := (h.idle ht).2 p rfl
  · exact hp hexec
  · exact hp' r hr

end Moves

section Queues

variable {T : Tables} {t u : ThreadId} {p : Priority}

lemma idle_announced (h : Announcing T (some t)) :
    T.idleThreadId = t ∧ T.idleThreadValid = true := by
  have hreg := h.register
  split at hreg
  next hv => exact ⟨(Option.some.inj hreg).symm, hv⟩
  next => cases hreg

lemma mem_enqueue_iff (h : Intact T) (ht : T.queued t = false)
    (hs : isSoftwareParam (T.param t) = true) :
    u ∈ (T.enqueue t).readyList p ↔ u ∈ T.readyList p ∨ p = T.level t ∧ u = t := by
  rw [← (h.lists.enqueue hs ht).eq_readyList]
  exact mem_push _ _ _ _ _

lemma mem_dequeue_iff (h : Intact T) :
    u ∈ (T.dequeue T.nextThreadId).readyList p ↔ u ∈ T.readyList p ∧ u ≠ T.nextThreadId := by
  rw [(h.dequeue_exact h.front_announced).lists p, (h.lists.nodup p).mem_erase_iff, and_comm]

end Queues

end Hthreads.Kernel
