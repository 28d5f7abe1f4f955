import Hthreads.Cores.Dispatch
import Hthreads.Cores.Lifetimes
import Hthreads.Cores.Uniqueness

/-! What NEXT and YIELD return, in runs of commands to both cores in which no thread is queued twice
and no queued thread exits. -/

namespace Hthreads.Cores

open Library Library.BitFields Library.Fifo Scheduler ThreadManager

inductive Step
  | manager (cmd : Command)
  | scheduler (cmd : BusCommand)

namespace Books

-- what the thread manager shows to the scheduler
def environment (b : Books) : Environment := ⟨b.cpu, b.entry⟩

end Books

namespace Step

def effect (b : Books) : Step → Option (Books × Word)
  | manager cmd => cmd.effect b
  | scheduler cmd => some ({ b with ready := cmd.toCommand.effect b.environment b.ready }, 0)

end Step

namespace Managed

def take (a : Managed) : Step → Option (Managed × Word)
  | .manager cmd => a.execute cmd
  | .scheduler cmd => some (a.turn (.bus a.environment cmd), 0)

inductive Mixed (guard : Step → Books → Prop) : Managed → Prop
  | reset {a a' : Managed} : a.AtRest → a.softReset = some a' → Mixed guard a'
  | step {a a' : Managed} {s : Step} {w : Word} :
    Mixed guard a → guard s a.books → a.take s = some (a', w) → Mixed guard a'

end Managed

section Mixed

variable {guard : Step → Books → Prop} {a a' : Managed} {w : Word}

lemma take_iff (ha : a.AtRest) {s : Step} (h : a.take s = some (a', w)) :
    s.effect a.books = some (a'.books, w) ∧ a'.AtRest := by
  cases s with
  | manager cmd => exact execute_iff ha h
  | scheduler cmd =>
    cases h
    exact ⟨rfl, ha.state, ha.request⟩

lemma mixed_invariant {P : Books → Prop} (hinit : P .initial)
    (hstep : ∀ s b b' w, P b → guard s b → s.effect b = some (b', w) → P b')
    (ha : a.Mixed guard) : a.AtRest ∧ P a.books := by
  induction ha with
  | reset h hreset =>
    obtain ⟨c, hc, hrest, hbooks⟩ := softReset_books h
    rw [hreset] at hc
    cases hc
    exact ⟨hrest, hbooks ▸ hinit⟩
  | step _ hguard htake ih =>
    obtain ⟨heff, hrest⟩ := take_iff ih.1 htake
    exact ⟨hrest, hstep _ _ _ _ ih.2 hguard heff⟩

end Mixed

-- ENQUEUE meets unqueued threads, and queued threads move from where their links can be followed
def keepsLists : Step → Books → Prop
  | .manager cmd, b => unqueuedGuard cmd b
  | .scheduler (.setSchedParam tid param), b => isSoftwareParam param = true →
    schedParamAllowed (b.entry tid) tid b.cpu = true → b.ready.queued tid = true →
    b.ready.Movable b.ready.readyList tid (paramPriority param)
  | .scheduler _, _ => True

/-- No queued thread exits, no idle thread is dispatched that does not run any more, and the thread
that yields has a software priority. -/
def keepsRunning : Step → Books → Prop
  | .manager (.exit tid), b => b.ready.queued tid = false
  | .manager .next, b => (∀ tid, b.ready.queued tid = false) → b.running b.ready.nextThreadId = true
  | .manager .yield, b => b.yields = true → isSoftwareParam (b.ready.param b.cpu) = true
  | _, _ => True

def resultGuard (s : Step) (b : Books) : Prop := keepsLists s b ∧ keepsRunning s b

section Lists

variable {T : Tables} {q : Priority → List ThreadId} {tid u : ThreadId} {p : Priority}

lemma mem_readyList_enqueue (h : Intact T) (ht : T.queued tid = false)
    (hu : u ∈ (T.enqueue tid).readyList p) : u ∈ T.readyList p ∨ u = tid := by
  by_cases hp : isSoftwareParam (T.param tid) = true
  · rw [← (h.lists.enqueue hp ht).eq_readyList, mem_push] at hu
    exact hu.imp_right And.right
  · rw [Tables.enqueue, if_neg hp] at hu
    exact .inl hu

lemma mem_readyList_dequeue (h : Intact T) (hu : u ∈ (T.dequeue T.nextThreadId).readyList p) :
    u ∈ T.readyList p := by
  rw [(h.dequeue_exact h.front_announced).lists p] at hu
  exact List.mem_of_mem_erase hu

lemma mem_move {i j : Priority} (ht : tid ∈ q i) (hu : u ∈ move q i j tid p) : ∃ r, u ∈ q r := by
  rw [move, mem_push] at hu
  obtain hu | ⟨-, rfl⟩ := hu
  · by_cases hp : p = i
    · rw [hp, remove_self] at hu
      exact ⟨i, List.mem_of_mem_erase hu⟩
    · rw [remove_of_ne _ _ _ hp] at hu
      exact ⟨p, hu⟩
  · exact ⟨i, ht⟩

end Lists

/-- The lists hold together, and the threads in them run. -/
structure Serviceable (b : Books) : Prop where
  intact : Intact b.ready
  live : ∀ p, ∀ tid ∈ b.ready.readyList p, b.running tid = true

section Steps

variable {b b' : Books} {s : Step} {cmd : Command} {w : Word} {tid u : ThreadId} {p : Priority}

lemma intact_enqueued (h : Intact b.ready) (hg : unqueuedGuard cmd b) :
    Intact (b.enqueued cmd) := by
  rw [Books.enqueued]
  cases ht : b.enqueues cmd with
  | none => exact h
  | some tid => exact h.enqueue (enqueues_unqueued hg ht)

lemma intact_effect (h : Intact b.ready) (hg : unqueuedGuard cmd b)
    (heff : cmd.effect b = some (b', w)) : Intact b'.ready := by
  rw [effect_ready heff]
  split
  · exact (intact_enqueued h hg).dequeue
  · exact intact_enqueued h hg

lemma intact_step (h : Intact b.ready) (hg : keepsLists s b) (heff : s.effect b = some (b', w)) :
    Intact b'.ready := by
  cases s with
  | manager cmd => exact intact_effect h hg heff
  | scheduler cmd =>
    cases heff
    cases cmd with
    | setSchedParam tid param => exact h.setSchedParam hg
    | setIdleThread tid => exact h.setIdleThread _
    | getSchedParam tid | checkSchedParam tid | getEntry tid => exact h

lemma mem_readyList_effect (h : Intact b.ready) (hg : unqueuedGuard cmd b)
    (heff : cmd.effect b = some (b', w)) (hu : u ∈ b'.ready.readyList p) :
    u ∈ b.ready.readyList p ∨ b.enqueues cmd = some u := by
  have henqueued : u ∈ (b.enqueued cmd).readyList p := by
    rw [effect_ready heff] at hu
    split at hu
    · exact mem_readyList_dequeue (intact_enqueued h hg) hu
    · exact hu
  rw [Books.enqueued] at henqueued
  cases ht : b.enqueues cmd with
  | none =>
    rw [ht] at henqueued
    exact .inl henqueued
  | some tid =>
    rw [ht] at henqueued
    obtain hold | rfl := mem_readyList_enqueue h (enqueues_unqueued hg ht) henqueued
    · exact .inl hold
    · exact .inr rfl

lemma running_of_entry (h : b'.entry u = b.entry u) : b'.running u = b.running u := by
  rw [Books.running, h, Books.running]

lemma running_effect (hu : b.running u = true) (hexit : cmd ≠ .exit u)
    (heff : cmd.effect b = some (b', w)) : b'.running u = true := by
  have hcreate (command : BitVec 6) : (b.create command).1.running u = true := by
    by_cases hword : (b.create command).2 = 0#23 ++ u ++ 0#1
    · rw [Books.create] at hword ⊢
      split at hword
      · next hfull =>
        rw [if_pos hfull]
        exact hu
      · next hfull =>
        rw [if_neg hfull]
        have hrun : (b.setEntry (entryId (b.table b.nextId)) (createdEntry command
            (b.entry (entryId (b.table b.nextId))) b.cpu)).running u = true := by
          rw [Books.running, entry_setEntry]
          split
          · rw [entryStatus_createdEntry]
            rfl
          · exact hu
        exact hrun
    · rw [running_of_entry (create_entry command hword)]
      exact hu
  cases cmd with
  | createJ =>
    rw [fst_of_some heff]
    exact hcreate _
  | createD =>
    rw [fst_of_some heff]
    exact hcreate _
  | clear tid =>
    have hrec := clear_record b tid u
    rw [fst_of_some heff]
    split at hrec
    · next hcleared =>
      obtain ⟨hstatus, rfl⟩ := hcleared
      rw [Books.running, hstatus] at hu
      exact absurd hu (by decide)
    · rw [running_of_record hrec]
      exact hu
  | join tid =>
    rw [fst_of_some heff, Books.running, join_status]
    exact hu
  | exit tid =>
    have hne : u ≠ tid := fun heq => hexit (by rw [heq])
    have hexited : (b.exit tid).1.running u = (b.exited tid).running u :=
      running_of_entry exit_entry
    rw [fst_of_some heff, hexited, running_exited, hu, bne_iff_ne.mpr hne]
    rfl
  | add tid =>
    rw [fst_of_some heff, add_eq]
    split <;> exact hu
  | next =>
    rw [Command.effect] at heff
    split at heff
    · rw [fst_of_some heff, next_eq]
      split <;> exact hu
    · cases heff
  | yield =>
    rw [fst_of_some heff, yield_eq]
    split <;> exact hu
  | isQueued tid | isDetached tid | read tid | current =>
    rw [fst_of_some heff]
    exact hu

lemma enqueues_running (ht : b.enqueues cmd = some u) (heff : cmd.effect b = some (b', w)) :
    b'.running u = true := by
  cases cmd with
  | add tid =>
    rw [Books.enqueues] at ht
    split at ht
    · next hadd =>
      cases ht
      exact running_effect (Bool.and_eq_true_iff.mp hadd).1 (by simp) heff
    · cases ht
  | yield =>
    rw [Books.enqueues] at ht
    split at ht
    · next hyields =>
      cases ht
      exact running_effect (Bool.and_eq_true_iff.mp hyields).1 (by simp) heff
    · cases ht
  | exit tid =>
    rw [Books.enqueues] at ht
    split at ht
    · next hwakes =>
      cases ht
      have hexited : b'.running (entryParent (b.entry tid)) =
          (b.exited tid).running (entryParent (b.entry tid)) := by
        rw [fst_of_some heff]
        exact running_of_entry exit_entry
      rw [hexited]
      exact (Bool.and_eq_true_iff.mp hwakes).2
    · cases ht
  | createJ | createD | clear _ | join _ | next | isQueued _ | isDetached _ | read _ | current =>
    cases ht

lemma serviceable_initial : Serviceable .initial :=
  ⟨intact_initial, fun p tid htid => by
    have hlists := congrFun holds_initial.lists.eq_readyList p
    rw [show Books.initial.ready.readyList p = [] from hlists.symm] at htid
    exact absurd htid List.not_mem_nil⟩

lemma Serviceable.manager (h : Serviceable b) (hg : resultGuard (.manager cmd) b)
    (heff : cmd.effect b = some (b', w)) : Serviceable b' := by
  refine ⟨intact_effect h.intact hg.1 heff, fun p u hu => ?_⟩
  obtain hold | hnew := mem_readyList_effect h.intact hg.1 heff hu
  · refine running_effect (h.live p u hold) (fun hexit => ?_) heff
    have hq := h.intact.lists.queued_eq hold
    have hno : b.ready.queued u = false := by
      have hrun := hg.2
      rw [hexit] at hrun
      exact hrun
    rw [hno] at hq
    cases hq
  · exact enqueues_running hnew heff

lemma Serviceable.scheduler (h : Serviceable b) {cmd : BusCommand}
    (hg : resultGuard (.scheduler cmd) b) :
    Serviceable { b with ready := cmd.toCommand.effect b.environment b.ready } := by
  refine ⟨intact_step h.intact hg.1 rfl, ?_⟩
  cases cmd with
  | setSchedParam tid param =>
    intro p u hu
    obtain heq | ⟨-, -, hq, heq⟩ := h.intact.setSchedParam_lists hg.1
    · exact h.live p u (heq ▸ hu)
    · have hmove : u ∈ move b.ready.readyList (b.ready.level tid) (paramPriority param) tid p :=
        heq ▸ hu
      obtain ⟨r, hr⟩ := mem_move (h.intact.lists.exists_mem hq) hmove
      exact h.live r u hr
  | setIdleThread tid =>
    intro p u hu
    exact h.live p u (setIdleThread_readyList _ _ _ ▸ hu)
  | getSchedParam tid | checkSchedParam tid | getEntry tid => exact h.live

lemma Serviceable.step (h : Serviceable b) (hg : resultGuard s b)
    (heff : s.effect b = some (b', w)) : Serviceable b' := by
  cases s with
  | manager cmd => exact h.manager hg heff
  | scheduler cmd =>
    cases heff
    exact h.scheduler hg

end Steps

section Threads

variable {T T' : Tables} {tid u : ThreadId}

def readyThreads (T : Tables) : List ThreadId :=
  (List.range 128).flatMap fun p => T.readyList (BitVec.ofNat 7 p)

lemma mem_readyThreads : u ∈ readyThreads T ↔ ∃ p, u ∈ T.readyList p := by
  rw [readyThreads, List.mem_flatMap]
  constructor
  · rintro ⟨p, -, hu⟩
    exact ⟨_, hu⟩
  · rintro ⟨p, hu⟩
    refine ⟨p.toNat, List.mem_range.mpr p.isLt, ?_⟩
    rwa [BitVec.ofNat_toNat, BitVec.setWidth_eq]

lemma nodup_readyThreads (h : Intact T) : (readyThreads T).Nodup := by
  refine List.nodup_flatMap.mpr ⟨fun p _ => h.lists.nodup _, ?_⟩
  refine List.nodup_range.imp_of_mem fun {p r} hp hr hne => ?_
  intro u hu hu'
  refine hne ?_
  have heq := congrArg BitVec.toNat (h.lists.unique hu hu')
  have hp' := List.mem_range.mp hp
  have hr' := List.mem_range.mp hr
  rw [BitVec.toNat_ofNat, BitVec.toNat_ofNat] at heq
  omega

lemma perm_of_exchange (h : Intact T) (h' : Intact T') {t t' : ThreadId}
    (ht : ∀ p, t ∉ T.readyList p) (ht' : ∀ p, t' ∉ T'.readyList p)
    (hsame : ∀ u, (u = t' ∨ ∃ p, u ∈ T'.readyList p) ↔ u = t ∨ ∃ p, u ∈ T.readyList p) :
    (t' :: readyThreads T').Perm (t :: readyThreads T) := by
  have hnotin {S : Tables} {v : ThreadId} (hv : ∀ p, v ∉ S.readyList p) : v ∉ readyThreads S := by
    rw [mem_readyThreads, not_exists]
    exact hv
  have hnodup' : (t' :: readyThreads T').Nodup :=
    List.nodup_cons.mpr ⟨hnotin ht', nodup_readyThreads h'⟩
  have hnodup : (t :: readyThreads T).Nodup :=
    List.nodup_cons.mpr ⟨hnotin ht, nodup_readyThreads h⟩
  refine (List.perm_ext_iff_of_nodup hnodup' hnodup).mpr fun u => ?_
  rw [List.mem_cons, List.mem_cons, mem_readyThreads, mem_readyThreads]
  exact hsame u

end Threads

/-- A word without error names the current thread, which runs and is not queued. -/
structure Dispatched (b' : Books) (w : Word) : Prop where
  id : slice w 23 8 = b'.cpu
  running : b'.running b'.cpu = true
  unlisted : ∀ p, b'.cpu ∉ b'.ready.readyList p

/-- The yielding thread goes to the end of its list, and the first thread of the best list is
dispatched. -/
structure Yielded (b b' : Books) (w : Word) : Prop where
  best : (∃ p, b.ready.readyList p ≠ []) → ∃ p l,
    IsBest (push b.ready.readyList (b.ready.level b.cpu) b.cpu) p ∧
      push b.ready.readyList (b.ready.level b.cpu) b.cpu p = b'.cpu :: l ∧
      b'.ready.readyList = pop (push b.ready.readyList (b.ready.level b.cpu) b.cpu) p
  empty : (∀ p, b.ready.readyList p = []) → b' = b ∧ slice w 23 8 = b.cpu
  threads : (b'.cpu :: readyThreads b'.ready).Perm (b.cpu :: readyThreads b.ready)

section Results

variable {b b' : Books} {w : Word} {T : Tables} {p : Priority}

lemma bit_withCode (e : Word) : bit (withCode e errorInStatus) 31 = true := by
  have hcode := congrArg (fun v : BitVec 4 => v.getLsbD 0)
    (slice_insert_self 28 errorInStatus e (by omega))
  simp only [getLsbD_slice] at hcode
  exact hcode

lemma slice_word (x : BitVec 9) : slice (0#23 ++ x : Word) 23 8 = slice x 0 8 := by
  apply BitVec.eq_of_getLsbD_eq
  intro i hi
  simp only [getLsbD_slice, BitVec.getLsbD_append, hi]
  grind

lemma isEncoderZero_iff (h : Intact T) :
    isEncoderZero T.encoderInput = true ↔ ∀ p, T.readyList p = [] := by
  rw [Tables.isEncoderZero_eq_true_iff, not_exists]
  exact forall_congr' fun p => by rw [h.lists.bit p, not_not]

lemma unlisted_iff (h : Intact T) {tid : ThreadId} :
    (∀ p, tid ∉ T.readyList p) ↔ T.queued tid = false := by
  constructor
  · intro hno
    by_contra hq
    rw [Bool.not_eq_false] at hq
    exact hno _ (h.lists.exists_mem hq)
  · intro hq p hp
    rw [h.lists.queued_eq hp] at hq
    cases hq

lemma unlisted_dequeue (h : Intact T) (p : Priority) :
    T.nextThreadId ∉ (T.dequeue T.nextThreadId).readyList p := by
  rw [(h.dequeue_exact h.front_announced).lists p]
  exact (h.lists.nodup p).not_mem_erase

lemma announced_mem (h : Intact T) (hq : ∃ p, T.readyList p ≠ []) :
    T.nextThreadId ∈ T.readyList T.encoderOutput := by
  obtain ⟨-, l, hl⟩ := h.lists.front_of_announced h.fresh h.announced hq
  rw [hl]
  exact List.mem_cons_self

lemma dispatch_dispatched (h : Intact b.ready) (hrun : b.running b.ready.nextThreadId = true) :
    Dispatched b.dispatch (0#23 ++ b.ready.nextThreadId ++ 0#1) := by
  refine ⟨?_, ?_, fun p => ?_⟩
  · rw [slice_created, dispatch_cpu]
  · rw [dispatch_cpu]
    exact hrun
  · rw [dispatch_cpu]
    exact unlisted_dequeue h p

lemma next_result (h : Serviceable b) (hg : resultGuard (.manager .next) b)
    (heff : Command.next.effect b = some (b', w)) : Dispatched b' w := by
  have hrun : b.running b.ready.nextThreadId = true := by
    by_cases hq : ∃ p, b.ready.readyList p ≠ []
    · exact h.live _ _ (announced_mem h.intact hq)
    · push Not at hq
      exact hg.2 (h.intact.lists.unqueued_of_empty hq)
  rw [Command.effect] at heff
  split at heff
  · rw [fst_of_some heff, snd_of_some heff, Books.next, if_pos hrun]
    exact dispatch_dispatched h.intact hrun
  · cases heff

section Yield

variable (h : Serviceable b) (hfree : b.ready.queued b.cpu = false)
  (hsoft : isSoftwareParam (b.ready.param b.cpu) = true)

include h hfree hsoft

lemma enqueued_readyList : (b.ready.enqueue b.cpu).readyList =
    push b.ready.readyList (b.ready.level b.cpu) b.cpu :=
  (h.intact.lists.enqueue hsoft hfree).eq_readyList.symm

lemma enqueued_occupied : ∃ p, (b.ready.enqueue b.cpu).readyList p ≠ [] := by
  refine ⟨b.ready.level b.cpu, ?_⟩
  rw [enqueued_readyList h hfree hsoft, push_self]
  simp

lemma yield_dispatched (hrun : b.running b.cpu = true) :
    Dispatched (b.enqueue b.cpu).dispatch
      (0#23 ++ (b.ready.enqueue b.cpu).nextThreadId ++ 0#1) := by
  have hintact : Intact (b.ready.enqueue b.cpu) := h.intact.enqueue hfree
  refine dispatch_dispatched (b := b.enqueue b.cpu) hintact ?_
  obtain hold | hnew := mem_readyList_enqueue h.intact hfree
    (announced_mem hintact (enqueued_occupied h hfree hsoft))
  · exact h.live _ _ hold
  · exact (congrArg b.running hnew).trans hrun

lemma yield_best : ∃ p l, IsBest (push b.ready.readyList (b.ready.level b.cpu) b.cpu) p ∧
    push b.ready.readyList (b.ready.level b.cpu) b.cpu p = (b.enqueue b.cpu).dispatch.cpu :: l ∧
    (b.enqueue b.cpu).dispatch.ready.readyList =
      pop (push b.ready.readyList (b.ready.level b.cpu) b.cpu) p := by
  have hintact : Intact (b.ready.enqueue b.cpu) := h.intact.enqueue hfree
  have hlists := enqueued_readyList h hfree hsoft
  obtain ⟨hbest, l, hl⟩ := hintact.lists.front_of_announced hintact.fresh hintact.announced
    (enqueued_occupied h hfree hsoft)
  have hpop := (hintact.lists.dequeue_announced hintact.fresh hintact.announced).eq_readyList
  rw [Tables.popBest_of_isBest hbest] at hpop
  rw [hlists] at hbest hl hpop
  refine ⟨_, l, hbest, ?_, hpop.symm⟩
  rw [dispatch_cpu]
  exact hl

lemma yield_threads :
    ((b.enqueue b.cpu).dispatch.cpu :: readyThreads (b.enqueue b.cpu).dispatch.ready).Perm
      (b.cpu :: readyThreads b.ready) := by
  have hintact : Intact (b.ready.enqueue b.cpu) := h.intact.enqueue hfree
  have hafter : Intact (b.enqueue b.cpu).dispatch.ready := hintact.dequeue
  rw [dispatch_cpu]
  refine perm_of_exchange h.intact hafter ((unlisted_iff h.intact).mpr hfree)
    (unlisted_dequeue hintact) fun u => ?_
  have hmem (p : Priority) : u ∈ (b.enqueue b.cpu).dispatch.ready.readyList p ↔
      u ≠ (b.ready.enqueue b.cpu).nextThreadId ∧ u ∈ (b.ready.enqueue b.cpu).readyList p := by
    have herase := (hintact.dequeue_exact hintact.front_announced).lists p
    exact herase ▸ (hintact.lists.nodup p).mem_erase_iff
  have hlisted : (∃ p, u ∈ (b.ready.enqueue b.cpu).readyList p) ↔
      u = b.cpu ∨ ∃ p, u ∈ b.ready.readyList p := by
    rw [enqueued_readyList h hfree hsoft]
    simp only [mem_push]
    constructor
    · rintro ⟨p, hold | ⟨-, hnew⟩⟩
      · exact .inr ⟨p, hold⟩
      · exact .inl hnew
    · rintro (hnew | ⟨p, hold⟩)
      · exact ⟨_, .inr ⟨rfl, hnew⟩⟩
      · exact ⟨p, .inl hold⟩
  rw [← hlisted]
  simp only [hmem]
  constructor
  · rintro (rfl | ⟨p, -, hp⟩)
    · exact ⟨_, announced_mem hintact (enqueued_occupied h hfree hsoft)⟩
    · exact ⟨p, hp⟩
  · rintro ⟨p, hp⟩
    by_cases heq : u = (b.ready.enqueue b.cpu).nextThreadId
    · exact .inl heq
    · exact .inr ⟨p, heq, hp⟩

end Yield

lemma yield_result (h : Serviceable b) (hg : resultGuard (.manager .yield) b)
    (heff : Command.yield.effect b = some (b', w)) (hok : bit w 31 = false) :
    Dispatched b' w ∧ Yielded b b' w := by
  have hb := fst_of_some heff
  have hw := snd_of_some heff
  rw [Books.yield] at hb hw
  split at hb
  case isFalse hrun =>
    rw [if_neg hrun] at hw
    rw [hw, bit_withCode] at hok
    cases hok
  case isTrue hrun =>
    rw [if_pos hrun] at hw
    by_cases hz : isEncoderZero b.ready.encoderInput = true
    · rw [if_pos hz] at hb hw
      subst hb hw
      have hnil := (isEncoderZero_iff h.intact).mp hz
      have hid : slice (0#23 ++ b'.currentCpuThread : Word) 23 8 = b'.cpu := slice_word _
      refine ⟨⟨hid, hrun, fun p => ?_⟩, fun h => absurd (hnil h.choose) h.choose_spec,
        fun _ => ⟨rfl, hid⟩, List.Perm.refl _⟩
      rw [hnil p]
      exact List.not_mem_nil
    · rw [if_neg hz] at hb hw
      have hyields : b.yields = true := by
        rw [Books.yields, hrun, Bool.not_eq_true _ |>.mp hz]
        rfl
      have hq : ∃ p, b.ready.readyList p ≠ [] := by
        rw [isEncoderZero_iff h.intact] at hz
        push Not at hz
        exact hz
      have hfree : b.ready.queued b.cpu = false := hg.1 hyields
      have hsoft := hg.2 hyields
      subst hb hw
      refine ⟨yield_dispatched h hfree hsoft hrun, fun _ => yield_best h hfree hsoft,
        fun hnil => ?_, yield_threads h hfree hsoft⟩
      obtain ⟨p, hp⟩ := hq
      exact absurd (hnil p) hp

end Results

/-- In runs of commands to both cores that keep the lists whole and the queued threads running, NEXT
and YIELD dispatch the thread that they name. -/
theorem dispatch_results (a : Managed) (ha : a.Mixed resultGuard) (a' : Managed) (w : Word)
    (hok : bit w 31 = false) :
    (resultGuard (.manager .next) a.books → a.execute .next = some (a', w) →
      Dispatched a'.books w) ∧
    (resultGuard (.manager .yield) a.books → a.execute .yield = some (a', w) →
      Dispatched a'.books w ∧ Yielded a.books a'.books w) := by
  obtain ⟨hrest, hserv⟩ := mixed_invariant serviceable_initial
    (fun s b b' w h hg heff => h.step hg heff) ha
  refine ⟨fun hg hexec => ?_, fun hg hexec => ?_⟩
  · exact next_result hserv hg (execute_iff hrest hexec).1
  · exact yield_result hserv hg (execute_iff hrest hexec).1 hok

section Samples

variable {guard guard' : Step → Books → Prop} {a : Managed}

lemma Managed.Mixed.mono (h : a.Mixed guard) (hg : ∀ s b, guard s b → guard' s b) :
    a.Mixed guard' := by
  induction h with
  | reset h hreset => exact .reset h hreset
  | step _ hguard htake ih => exact .step ih (hg _ _ hguard) htake

lemma mixed_of_reachable (h : a.Reachable fun cmd b => guard (.manager cmd) b) : a.Mixed guard := by
  induction h with
  | reset h hreset => exact .reset h hreset
  | step _ hguard hexec ih => exact .step ih hguard hexec

lemma mixed_of_follow {cmds : List Command} (hcmds : Books.initial.Allowed unqueuedGuard cmds)
    {b : Books} (hb : Books.initial.follow cmds = some b) :
    ∃ a : Managed, a.AtRest ∧ a.Mixed (fun _ _ => True) ∧ QueuedOnce a.ready ∧ a.books = b := by
  obtain ⟨a, ha, hbooks⟩ := reachable_of_follow hcmds hb
  have hmixed : a.Mixed keepsLists := mixed_of_reachable ha
  obtain ⟨hrest, hintact⟩ := mixed_invariant (P := fun b => Intact b.ready) intact_initial
    (fun s b b' w h hg heff => intact_step h hg heff) hmixed
  exact ⟨a, hrest, hmixed.mono fun _ _ _ => trivial, queuedOnce_of_lists hintact.lists, hbooks⟩

instance keepsRunning.decidable (cmd : Command) (b : Books) :
    Decidable (keepsRunning (.manager cmd) b) :=
  match cmd with
  | .exit _ => inferInstanceAs (Decidable (_ = false))
  | .next | .yield => inferInstanceAs (Decidable (_ → _))
  | .createJ | .createD | .clear _ | .join _ | .add _ | .isQueued _ | .isDetached _ | .read _
  | .current => inferInstanceAs (Decidable True)

instance resultGuard.decidable (cmd : Command) (b : Books) :
    Decidable (resultGuard (.manager cmd) b) :=
  inferInstanceAs (Decidable (unqueuedGuard cmd b ∧ keepsRunning (.manager cmd) b))

-- thread 0 is current and thread 1 is queued
def turnRun : List Command := [.createJ, .createJ, .add 0, .next, .add 1]

theorem dispatch_results_on_turnRun : ∃ a a' : Managed, ∃ w,
    Books.initial.follow turnRun = some a.books ∧ a.execute .yield = some (a', w) ∧
      Dispatched a'.books w ∧ Yielded a.books a'.books w := by
  have hcmds : Books.initial.Allowed (fun cmd b => resultGuard (.manager cmd) b) turnRun := by
    decide
  have hfacts : (Books.initial.follow turnRun).map (fun b =>
      decide (resultGuard (.manager .yield) b) && !bit b.yield.2 31) = some true := by
    decide
  obtain ⟨b, hb, hfacts⟩ := Option.map_eq_some_iff.mp hfacts
  obtain ⟨a, ha, rfl⟩ := reachable_of_follow hcmds hb
  rw [Bool.and_eq_true, decide_eq_true_eq, Bool.not_eq_true'] at hfacts
  have heff : Command.yield.effect a.books = some (a.books.yield.1, a.books.yield.2) := rfl
  obtain ⟨a', hexec, -, -⟩ := execute_some ha.atRest heff
  exact ⟨a, a', _, hb, hexec,
    (dispatch_results a (mixed_of_reachable ha) a' _ hfacts.2).2 hfacts.1 hexec⟩

-- thread 1 exits while it is queued behind the current thread 0
def exitQueued : List Command := [.createJ, .createJ, .add 0, .next, .add 1, .exit 1]

-- thread 0 is announced when it exits, and thread 1 is current
def exitAnnounced : List Command := [.createJ, .createJ, .add 1, .next, .add 0, .exit 0]

/-- YIELD names and installs a thread that has exited, and a refused NEXT names a thread that is not
current, both without an error. -/
theorem dispatches_exited :
    (¬ ∀ a : Managed, a.Mixed (fun _ _ => True) → QueuedOnce a.ready → ∀ a' w,
      bit w 31 = false → a.execute .yield = some (a', w) → Dispatched a'.books w) ∧
    ¬ ∀ a : Managed, a.Mixed (fun _ _ => True) → QueuedOnce a.ready → ∀ a' w,
      bit w 31 = false → a.execute .next = some (a', w) → Dispatched a'.books w := by
  constructor
  · intro hclaim
    have hcmds : Books.initial.Allowed unqueuedGuard exitQueued := by decide
    have hfacts : (Books.initial.follow exitQueued).map (fun b =>
        !bit b.yield.2 31 && !b.yield.1.running b.yield.1.cpu) = some true := by
      decide
    obtain ⟨b, hb, hfacts⟩ := Option.map_eq_some_iff.mp hfacts
    obtain ⟨a, hrest, hmixed, honce, rfl⟩ := mixed_of_follow hcmds hb
    rw [Bool.and_eq_true, Bool.not_eq_true', Bool.not_eq_true'] at hfacts
    have heff : Command.yield.effect a.books = some (a.books.yield.1, a.books.yield.2) := rfl
    obtain ⟨a', hexec, -, hbooks⟩ := execute_some hrest heff
    have hrun := (hclaim a hmixed honce a' _ hfacts.1 hexec).running
    rw [hbooks, hfacts.2] at hrun
    cases hrun
  · intro hclaim
    have hcmds : Books.initial.Allowed unqueuedGuard exitAnnounced := by decide
    have hfacts : (Books.initial.follow exitAnnounced).map (fun b =>
        b.ready.nextThreadValid && !bit b.next.2 31 &&
          slice b.next.2 23 8 != b.next.1.cpu) = some true := by
      decide
    obtain ⟨b, hb, hfacts⟩ := Option.map_eq_some_iff.mp hfacts
    obtain ⟨a, hrest, hmixed, honce, rfl⟩ := mixed_of_follow hcmds hb
    rw [Bool.and_eq_true, Bool.and_eq_true, Bool.not_eq_true', bne_iff_ne] at hfacts
    obtain ⟨⟨hvalid, hok⟩, hid⟩ := hfacts
    have heff : Command.next.effect a.books = some (a.books.next.1, a.books.next.2) :=
      if_pos hvalid
    obtain ⟨a', hexec, -, hbooks⟩ := execute_some hrest heff
    have hname := (hclaim a hmixed honce a' _ hok hexec).id
    rw [hbooks] at hname
    exact hid hname

end Samples

end Hthreads.Cores
