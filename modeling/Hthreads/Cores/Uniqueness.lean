import Hthreads.Cores.Effects
import Hthreads.Scheduler.Refinement

/-! A thread stands at most once in the ready lists, as long as no queued thread yields and no
queued parent is woken. -/

namespace Hthreads.Cores

open Library Scheduler ThreadManager

/-- No thread stands twice in the ready lists, and the queued bits say which threads stand there. -/
structure QueuedOnce (T : Tables) : Prop where
  nodup : ∀ p, (T.readyList p).Nodup
  unique : ∀ tid p r, tid ∈ T.readyList p → tid ∈ T.readyList r → p = r
  queued : ∀ tid, T.queued tid = true ↔ ∃ p, tid ∈ T.readyList p

-- neither YIELD nor the wake-up of EXIT asks whether the thread is queued
def unqueuedGuard : Guard := fun cmd b =>
  match cmd with
  | .yield => b.yields = true → b.ready.queued b.cpu = false
  | .exit tid => b.wakes tid = true → b.ready.queued (entryParent (b.entry tid)) = false
  | _ => True

instance unqueuedGuard.decidable (cmd : Command) (b : Books) : Decidable (unqueuedGuard cmd b) :=
  match cmd with
  | .yield => inferInstanceAs (Decidable (_ → _))
  | .exit _ => inferInstanceAs (Decidable (_ → _))
  | .createJ | .createD | .clear _ | .join _ | .add _ | .next | .isQueued _ | .isDetached _
  | .read _ | .current => inferInstanceAs (Decidable True)

lemma enqueues_unqueued {b : Books} {cmd : Command} (h : unqueuedGuard cmd b) {tid : ThreadId}
    (ht : b.enqueues cmd = some tid) : b.ready.queued tid = false := by
  cases cmd with
  | add u =>
    rw [Books.enqueues] at ht
    split at ht
    · next hu =>
      cases ht
      rw [Bool.and_eq_true, Bool.not_eq_true'] at hu
      exact hu.2
    · cases ht
  | yield =>
    rw [Books.enqueues] at ht
    split at ht
    · next hy =>
      cases ht
      exact h hy
    · cases ht
  | exit u =>
    rw [Books.enqueues] at ht
    split at ht
    · next hw =>
      cases ht
      exact h hw
    · cases ht
  | createJ | createD | clear _ | join _ | next | isQueued _ | isDetached _ | read _ | current =>
    cases ht

section Lists

variable {T : Tables} {Q : ReadyQueues}

lemma enqueue_param (T : Tables) (tid : ThreadId) : (T.enqueue tid).param = T.param := by
  simp only [Tables.enqueue, Tables.link]
  split
  · split <;> rfl
  · rfl

lemma dequeue_param (T : Tables) (tid : ThreadId) : (T.dequeue tid).param = T.param := by
  simp only [Tables.dequeue, Tables.unlinkFront, Tables.announce]
  split_ifs <;> rfl

lemma queuedOnce_of_lists (h : T.Lists T.readyList) : QueuedOnce T := by
  refine ⟨h.nodup, fun tid p r hp hr => h.unique hp hr, fun tid => ?_⟩
  constructor
  · intro ht
    exact ⟨_, h.exists_mem ht⟩
  · rintro ⟨p, hp⟩
    exact h.queued_eq hp

lemma queuedOnce_of_holds (h : Holds T Q) : QueuedOnce T := by
  have hlists := h.lists
  rw [hlists.eq_readyList] at hlists
  exact queuedOnce_of_lists hlists

-- the lists hold some queues, and every parameter is that of a software thread
structure Sound (T : Tables) : Prop where
  holds : ∃ Q, Holds T Q
  software : ∀ tid, isSoftwareParam (T.param tid) = true

lemma software_zero : isSoftwareParam 0 = true := by decide

lemma sound_initial : Sound .initial := ⟨⟨.initial, holds_initial⟩, fun _ => software_zero⟩

lemma Sound.enqueue (h : Sound T) {tid : ThreadId} (ht : T.queued tid = false) :
    Sound (T.enqueue tid) := by
  obtain ⟨⟨Q, hQ⟩, hsoft⟩ := h
  refine ⟨⟨_, hQ.enqueue ht (hsoft tid)⟩, ?_⟩
  rw [enqueue_param]
  exact hsoft

lemma Sound.dequeue (h : Sound T) : Sound (T.dequeue T.nextThreadId) := by
  obtain ⟨⟨Q, hQ⟩, hsoft⟩ := h
  refine ⟨⟨_, hQ.dequeue⟩, ?_⟩
  rw [dequeue_param]
  exact hsoft

end Lists

lemma Sound.effect {b b' : Books} {cmd : Command} {w : Word} (hb : Sound b.ready)
    (hg : unqueuedGuard cmd b) (h : cmd.effect b = some (b', w)) : Sound b'.ready := by
  have henq : Sound (b.enqueued cmd) := by
    rw [Books.enqueued]
    cases ht : b.enqueues cmd with
    | none => exact hb
    | some tid => exact hb.enqueue (enqueues_unqueued hg ht)
  rw [effect_ready h]
  split
  · exact henq.dequeue
  · exact henq

theorem queued_once_on_unqueued_runs (a : Managed) (ha : a.Reachable unqueuedGuard) :
    QueuedOnce a.ready ∧ ∀ cmd, unqueuedGuard cmd a.books →
      ∀ tid, a.books.enqueues cmd = some tid → a.ready.queued tid = false := by
  obtain ⟨-, hsound⟩ := reachable_invariant (P := fun b => Sound b.ready) sound_initial
    (fun cmd b b' w hb hg h => hb.effect hg h) ha
  obtain ⟨Q, hQ⟩ := hsound.holds
  exact ⟨queuedOnce_of_holds hQ, fun cmd hg tid => enqueues_unqueued hg⟩

-- thread 0 creates and joins thread 1, which is dispatched, exits and wakes it
def joinRun : List Command :=
  [.createJ, .add 0, .next, .createJ, .add 1, .join 1, .next, .exit 1, .next]

theorem queued_once_on_joinRun : ∃ a : Managed,
    Books.initial.follow joinRun = some a.books ∧ QueuedOnce a.ready := by
  have hcmds : Books.initial.Allowed unqueuedGuard joinRun := by decide
  have hsome : (Books.initial.follow joinRun).isSome = true := by decide
  obtain ⟨b, hb⟩ := Option.isSome_iff_exists.mp hsome
  obtain ⟨a, ha, rfl⟩ := reachable_of_follow hcmds hb
  exact ⟨a, hb, (queued_once_on_unqueued_runs a ha).1⟩

-- thread 0 is current and queued when it yields
def yieldQueued : List Command := [.createJ, .createJ, .add 0, .add 1, .yield]

theorem yield_of_queued_not_once :
    ¬ ∀ a : Managed, a.Reachable (fun _ _ => True) → QueuedOnce a.ready := by
  intro hclaim
  have hcmds : Books.initial.Allowed (fun _ _ => True) yieldQueued := by
    decide
  have hlost : (Books.initial.follow yieldQueued).map (fun b =>
      b.ready.queued 1 && isEncoderZero b.ready.encoderInput) = some true := by
    decide
  obtain ⟨b, hb, hlost⟩ := Option.map_eq_some_iff.mp hlost
  obtain ⟨a, ha, rfl⟩ := reachable_of_follow hcmds hb
  rw [Bool.and_eq_true] at hlost
  obtain ⟨p, hp⟩ := ((hclaim a ha).queued 1).mp hlost.1
  have hbit : a.ready.encoderInput p = false := by
    rw [← Bool.not_eq_true]
    intro hset
    exact Tables.isEncoderZero_eq_true_iff.mp hlost.2 ⟨p, hset⟩
  rw [Tables.readyList, hbit] at hp
  exact List.not_mem_nil hp

end Hthreads.Cores
