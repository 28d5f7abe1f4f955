import Hthreads.Kernel.Movements
import Hthreads.Slaves.Truthful
import Hthreads.Software.Priorities

/-! What the creation, the join and the exit of a thread do to the places of the threads. -/

namespace Hthreads.Kernel

open Library Library.BitFields Library.Fifo Scheduler ThreadManager Cores Software

variable {m : ℕ} {x y : Node m} {A : SyncManager.FifoMutexes m} {Q : CondVars.WaitQueues}
  {loc : ThreadId → Option (Place m)} {t u c : ThreadId} {b b' : Books}

section Awaiting

lemma awaiting_of_record (hr : b'.record c = b.record c) : awaiting b' c = awaiting b c := by
  have hd : entryDetached (b'.entry c) = entryDetached (b.entry c) := bit_of_record hr (by omega)
  have hj : entryJoined (b'.entry c) = entryJoined (b.entry c) := bit_of_record hr (by omega)
  have hp : entryParent (b'.entry c) = entryParent (b.entry c) :=
    slice_of_record hr (by omega) (by omega)
  rw [awaiting, awaiting, running_of_record hr, hd, hj, hp]

lemma awaiting_of_not_running (hr : b.running c = false) : awaiting b c = none := by
  rw [awaiting, hr, Bool.false_and, Bool.false_and, if_neg Bool.false_ne_true]

lemma awaiting_of_entry (he : b'.entry c = b.entry c) : awaiting b' c = awaiting b c := by
  rw [awaiting, awaiting, Books.running, Books.running, he]

lemma awaiting_of_child {d j e : Bool} {p : ThreadId} (h : Child d p j e (b.entry c))
    (hrun : b.running c = true) : awaiting b c = if !d && j then some p else none := by
  rw [awaiting, hrun, h.detached, h.joined, h.parent, Bool.true_and]

end Awaiting

section Create

lemma Placed.create (h : Placed x A Q loc) {command : BitVec 6}
    (hfree : bit x.books.nextId 0 = false) :
    ∃ c, (x.books.create command).2 = 0#23 ++ c ++ 0#1 ∧ loc c = none ∧
      (x.books.create command).1.running c = true ∧ x.books.running c = false ∧
      Placed { x with
        books := (x.books.create command).1
        started := Function.update x.started c false
        saved := Function.update x.saved c .user } A Q loc := by
  obtain ⟨c, hids, -, hentry, -, hword⟩ := create_free h.allocates hfree command
  have hunused : x.books.used c = false := (h.allocates.unused c).mp (hids ▸ List.mem_cons_self)
  have hnot : x.books.running c = false := by
    rw [← Bool.not_eq_true]
    intro hrun
    rw [used_of_running hrun] at hunused
    cases hunused
  have hnone : loc c = none := by
    cases hloc : loc c with
    | none => rfl
    | some p =>
      have hrun := ((h.at hloc).alive p rfl).1
      rw [hnot] at hrun
      cases hrun
  have hrun : (x.books.create command).1.running c = true := by
    rw [Books.running, hentry, Function.update_self, entryStatus_createdEntry]
    rfl
  have hother : ∀ u ≠ c, (x.books.create command).1.entry u = x.books.entry u := by
    intro u hu
    rw [hentry, Function.update_of_ne hu]
  have hready : (x.books.create command).1.ready = x.books.ready := create_ready command
  have hawait (u : ThreadId) : awaiting (x.books.create command).1 u = awaiting x.books u := by
    by_cases hu : u = c
    · have hchild : ∃ d p, Child d p false false ((x.books.create command).1.entry u) := by
        rw [hu, hentry, Function.update_self]
        by_cases hd : command = cCreateThreadD
        · rw [hd]
          exact ⟨true, 0, child_created_detached⟩
        · exact ⟨false, _, child_created command hd⟩
      obtain ⟨d, p, hchild⟩ := hchild
      rw [awaiting_of_child hchild (hu ▸ hrun), awaiting_of_not_running (hu ▸ hnot), Bool.and_false]
      rfl
    · exact awaiting_of_entry (hother u hu)
  refine ⟨c, hword, hnone, hrun, hnot, ?_, h.allocates.create, consistent_create h.consistent _,
    h.mutexes, h.conds, h.once, fun u p => ?_, h.mutex, h.cond, fun u v => ?_, h.mail, fun u => ?_⟩
  · simp only [Node.idle, hready]
    exact h.announcing
  · rw [← h.ready]
    simp only [hready]
  · rw [← h.child]
    simp only [hawait]
  · by_cases hu : u = c
    · rw [hu, hnone]
      have hidle : c ≠ x.idle := by
        rintro rfl
        have hlive := ((h.suits x.idle).idle rfl).1.1
        rw [hnot] at hlive
        cases hlive
      refine ⟨by simp, by simp, fun hlive => ?_, fun _ _ => rfl, fun heq => absurd heq ?_⟩
      · have hstart := hlive.2.1
        simp only [Function.update_self] at hstart
        cases hstart
      · simp only [Node.idle, hready]
        exact hidle
    · refine (h.suits u).congr ⟨running_of_entry (hother u hu), Function.update_of_ne hu _ _, ?_,
        fun _ => Function.update_of_ne hu _ _, ?_⟩
      · simp only [Node.software, hready]
      · simp only [Node.idle, hready]

lemma Placed.not_moved (h : Placed x A Q loc) (hc : loc c = none) {p : Priority}
    (hqueued : x.books.ready.queued c = true) :
      x.books.ready.Movable x.books.ready.readyList c p := by
  rw [h.unqueued fun p => by simp [hc]] at hqueued
  cases hqueued

lemma Placed.announcing_param (h : Placed x A Q loc) (hc : loc c = none) (p : Word) :
    Announcing (x.param c p).books.ready (some x.idle) :=
  h.announcing.setSchedParam fun _ _ => h.not_moved hc

lemma Placed.param (h : Placed x A Q loc) (hc : loc c = none) (hstart : x.started c = false)
    (p : Word) : Placed (x.param c p) A Q loc := by
  have hann := h.announcing_param hc p
  have hidle : (x.param c p).idle = x.idle := (idle_announced hann).1
  have hlists : (x.param c p).books.ready.readyList = x.books.ready.readyList := by
    obtain heq | ⟨-, -, hqueued, -⟩ :=
      h.announcing.toIntact.setSchedParam_lists fun _ _ => h.not_moved hc
    · exact heq
    · rw [h.unqueued fun p => by simp [hc]] at hqueued
      cases hqueued
  refine ⟨?_, h.allocates.congr rfl rfl fun _ => rfl, h.consistent, h.mutexes, h.conds, h.once,
    fun u r => ?_, h.mutex, h.cond, h.child, h.mail, fun u => ?_⟩
  · rw [hidle]
    exact hann
  · rw [hlists, h.ready]
  · by_cases hu : u = c
    · rw [hu, hc]
      have hne : c ≠ x.idle := by
        rintro rfl
        have hlive := ((h.suits x.idle).idle rfl).1.2.1
        rw [hstart] at hlive
        cases hlive
      refine ⟨nofun, nofun, fun hlive => ?_, fun _ _ => rfl,
        fun heq => absurd (heq.trans hidle) hne⟩
      have hstart' : x.started c = true := hlive.2.1
      rw [hstart] at hstart'
      cases hstart'
    · refine (h.suits u).congr ⟨rfl, rfl, ?_, fun _ => rfl, hidle⟩
      have hparam : (x.param c p).books.ready.param = Function.update x.books.ready.param c p :=
        setSchedParam_stored _ _ _
      rw [Node.software, hparam, Function.update_of_ne hu, Node.software]

lemma Placed.add (h : Placed x A Q loc) (hc : loc c = none) (hrun : x.books.running c = true)
    (hstart : x.started c = false) :
    (x.books.add c).1 = x.books.enqueue c ∧ hasError (x.books.add c).2 = false ∧
      ∃ loc', Placed { x with
        books := x.books.enqueue c
        started := Function.update x.started c true } A Q loc' ∧
        (∀ u ≠ c, loc' u = loc u) ∧ loc' c ≠ some .executing := by
  have hq : x.books.ready.queued c = false := h.unqueued fun p => by simp [hc]
  have hadd : x.books.add c = (x.books.enqueue c,
      0#8 ++ (Request.mk .enqueue c).result x.books.ready ++ 0#16) := by
    simp only [Books.add, hrun, hq, if_true, Bool.false_eq_true, if_false]
  have hne : c ≠ x.idle := by
    rintro rfl
    have hlive := ((h.suits x.idle).idle rfl).1.2.1
    rw [hstart] at hlive
    cases hlive
  have hother : ∀ u ≠ c, Suits { x with started := Function.update x.started c true } u (loc u) :=
    fun u hu => (h.suits u).congr ⟨rfl, Function.update_of_ne hu _ _, rfl, fun _ => rfl, rfl⟩
  rw [hadd]
  refine ⟨rfl, hasError_added _, ?_⟩
  by_cases hsoft : x.software c = true
  · have hplaced : Placed { x with started := Function.update x.started c true } A Q
        (Function.update loc c (some .executing)) := by
      refine ⟨h.announcing, h.allocates, h.consistent, h.mutexes, h.conds, h.once,
        fun u p => ?_, fun u μ => ?_, fun u κ => ?_, fun u v => ?_, fun u => ?_,
        suits_update hother ?_⟩
      · rw [moved_iff (by simp [hc]) (by simp), ← h.ready]
      · rw [moved_iff (by simp [hc]) (by simp), h.mutex]
      · rw [moved_iff (by simp [hc]) (by simp), h.cond]
      · rw [moved_iff (by simp [hc]) (by simp), ← h.child]
      · rw [moved_iff (by simp [hc]) (by simp), ← h.mail]
      · refine ⟨fun _ _ => ⟨hrun, Function.update_self _ _ _⟩, fun _ _ _ => hsoft,
          fun _ _ => Option.some_ne_none _, fun hno => ?_, fun heq => absurd heq hne⟩
        exact absurd (hsoft.symm.trans hno) Bool.noConfusion
    refine ⟨_, hplaced.enqueue (Function.update_self _ _ _), fun u hu => ?_, ?_⟩
    · rw [Function.update_of_ne hu, Function.update_of_ne hu]
    · rw [Function.update_self]
      simp
  · have hskip : x.books.enqueue c = x.books := by
      have hsame : x.books.ready.enqueue c = x.books.ready := if_neg hsoft
      rw [Books.enqueue, hsame]
    rw [hskip]
    refine ⟨loc, ⟨h.announcing, h.allocates, h.consistent, h.mutexes, h.conds, h.once, h.ready,
      h.mutex, h.cond, h.child, h.mail, fun u => ?_⟩, fun _ _ => rfl, by simp [hc]⟩
    by_cases hu : u = c
    · rw [hu, hc]
      exact ⟨by simp, by simp, fun hlive => absurd hlive.2.2 hsoft, fun _ _ => rfl,
        fun heq => absurd heq hne⟩
    · exact hother u hu

end Create

section Join

lemma Placed.join (h : Placed x A Q loc) (ht : loc x.cpu = some .executing) (hidle : x.cpu ≠ x.idle)
    (c : ThreadId) :
    Slaves.joinPhase (x.books.join c).2 = some .blocked ∧
        Placed { x with books := (x.books.join c).1 } A Q
          (Function.update loc x.cpu (some (.child c))) ∨
      Slaves.joinPhase (x.books.join c).2 ≠ some .blocked ∧ (x.books.join c).1 = x.books := by
  cases hallowed : joinAllowed (x.books.entry c) x.books.currentCpuThread with
  | false =>
    rw [join_refused hallowed, Slaves.joinPhase_refused]
    exact .inr ⟨nofun, rfl⟩
  | true =>
    cases hbit : bit (x.books.entry c) 27 with
    | false =>
      rw [join_terminated hallowed hbit]
      refine .inr ⟨fun heq => ?_, rfl⟩
      rw [Slaves.joinPhase_terminated] at heq
      cases heq
    | true =>
      rw [join_accepted hallowed hbit]
      refine .inl ⟨Slaves.joinPhase_accepted, ?_⟩
      simp only [joinAllowed, Bool.and_eq_true, Bool.not_eq_true', beq_iff_eq] at hallowed
      obtain ⟨⟨⟨hparent, hdetached⟩, hjoined⟩, -⟩ := hallowed
      have hstatus : entryStatus (x.books.entry c) = 0b11 := by
        have hne := h.consistent c
        rw [status_eq, hbit] at hne ⊢
        revert hne
        cases bit (x.books.entry c) 26 <;> decide
      have hcpu : entryParent (x.books.entry c) = x.cpu := by
        have hslice := congrArg (fun w : BitVec 9 => slice w 0 8) hparent
        exact (slice_current _).symm.trans hslice
      have hchild : Child false x.cpu false false (x.books.entry c) :=
        ⟨hdetached, hcpu, hjoined, hstatus⟩
      obtain ⟨b, hb⟩ : ∃ b, x.books.setEntry c (insert 25 1#1 (x.books.entry c)) = b := ⟨_, rfl⟩
      have hentry (u : ThreadId) : b.entry u =
          if u = c then insert 25 1#1 (x.books.entry c) else x.books.entry u := hb ▸ entry_setEntry
      have hrun (u : ThreadId) : b.running u = x.books.running u := by
        rw [Books.running, hentry]
        split
        next hu =>
          rw [hu, Books.running, hstatus, hchild.join.status]
          rfl
        next => rfl
      have hjoin : b = (x.books.join c).1 := by
        rw [← hb, Books.join]
        simp [joinAllowed, hparent, hdetached, hjoined, hstatus, hbit]
      have hbefore : awaiting x.books c = none := by
        rw [awaiting, hjoined, Bool.and_false, if_neg Bool.false_ne_true]
      have hafter : awaiting b c = some x.cpu := by
        have hnew : Child false x.cpu true false (b.entry c) := by
          rw [hentry, if_pos rfl]
          exact hchild.join
        have hrunc : b.running c = true := by
          rw [hrun, Books.running, hstatus]
          rfl
        rw [awaiting_of_child hnew hrunc]
        rfl
      have hready : b.ready = x.books.ready := hb ▸ rfl
      have hsame (u : ThreadId) : Unchanged x { x with books := b } u :=
        ⟨hrun u, rfl, by simp only [Node.software, hready], fun _ => rfl,
          by simp only [Node.idle, hready]⟩
      have hup : Updates x.books b (some c) := hjoin ▸ updates_join
      rw [hb]
      refine ⟨?_, h.allocates.congr hup.nextId hup.slot hup.used, ?_, h.mutexes, h.conds, h.once,
        fun u p => ?_, fun u μ => ?_, fun u κ => ?_, fun u v => ?_, fun u => ?_,
        suits_update (fun u _ => (h.suits u).congr (hsame u)) ?_⟩
      · simp only [Node.idle, hready]
        exact h.announcing
      · intro u
        rw [hjoin, join_status]
        exact h.consistent u
      · rw [moved_iff (by simp [ht]) (by simp), ← h.ready]
        simp only [hready]
      · rw [moved_iff (by simp [ht]) (by simp), h.mutex]
      · rw [moved_iff (by simp [ht]) (by simp), h.cond]
      · by_cases hv : v = c
        · rw [hv, moved_to_iff (by simp [ht]), ← h.child, hbefore]
          simp only [hafter, Option.some.injEq, reduceCtorEq, false_or]
          exact eq_comm
        · have hkeep : awaiting b v = awaiting x.books v :=
            awaiting_of_entry ((hentry v).trans (if_neg hv))
          rw [moved_iff (by simp [ht]) (by simpa using Ne.symm hv), ← h.child]
          simp only [hkeep]
      · rw [moved_iff (by simp [ht]) (by simp), ← h.mail]
      · refine ((h.at ht).move (fun _ => ?_) fun heq => absurd heq hidle).congr (hsame _)
        exact (h.at ht).software _ rfl rfl

lemma Placed.clear (h : Placed x A Q loc) (c : ThreadId) :
    Placed { x with books := (x.books.clear c).1 } A Q loc := by
  have hready : (x.books.clear c).1.ready = x.books.ready := clear_ready c
  have hrecord := clear_record x.books c
  have hkeep (u : ThreadId) : (x.books.clear c).1.running u = x.books.running u ∧
      awaiting (x.books.clear c).1 u = awaiting x.books u := by
    have hrec := hrecord u
    split at hrec
    next hu =>
      have hbefore : x.books.running u = false := by
        rw [hu.2, Books.running, hu.1]
        rfl
      have hafter : (x.books.clear c).1.running u = false := by
        rw [Books.running, entryStatus_of_record (e := 0) hrec]
        rfl
      rw [hbefore, hafter, awaiting_of_not_running hbefore, awaiting_of_not_running hafter]
      exact ⟨rfl, rfl⟩
    next => exact ⟨running_of_record hrec, awaiting_of_record hrec⟩
  refine ⟨?_, h.allocates.clear, ?_, h.mutexes, h.conds, h.once, fun u p => ?_, h.mutex, h.cond,
    fun u v => ?_, h.mail, fun u => ?_⟩
  · simp only [Node.idle, hready]
    exact h.announcing
  · have heffect : (Command.clear c).effect x.books = some (x.books.clear c) := rfl
    exact h.consistent.effect heffect
  · simp only [hready]
    exact h.ready u p
  · simp only [(hkeep v).2]
    exact h.child u v
  · refine (h.suits u).congr ⟨(hkeep u).1, rfl, ?_, fun _ => rfl, ?_⟩
    · simp only [Node.software, hready]
    · simp only [Node.idle, hready]

end Join

section Exit

/-- The exited thread is nowhere, and a parent that has joined it is between its place and a queue.
-/
def orphan (loc : ThreadId → Option (Place m)) (t u : ThreadId) : Option (Place m) :=
  if u = t then none else if loc u = some (.child t) then some .executing else loc u

lemma orphan_iff {q : Place m} (ht : loc t = some .executing ∨ loc t = none) (hq : q ≠ .executing)
    (hchild : q ≠ .child t) (u : ThreadId) : orphan loc t u = some q ↔ loc u = some q := by
  rw [orphan]
  split_ifs with hu hwaits
  · refine iff_of_false nofun ?_
    rw [hu]
    rcases ht with ht | ht
    · exact ht ▸ fun heq => hq (Option.some.inj heq).symm
    · exact ht ▸ nofun
  · rw [hwaits]
    exact iff_of_false (fun heq => hq (Option.some.inj heq).symm)
      fun heq => hchild (Option.some.inj heq).symm
  · exact Iff.rfl

lemma Placed.exited (h : Placed x A Q loc) (ht : loc t = some .executing ∨ loc t = none)
    (hrun : x.books.running t = true) (hidle : t ≠ x.idle) :
    Placed { x with books := x.books.exited t } A Q (orphan loc t) := by
  have hgone : (x.books.exited t).running t = false := by
    rw [running_exited, bne_self_eq_false, Bool.and_false]
  have hsame (u : ThreadId) (hu : u ≠ t) : Unchanged x { x with books := x.books.exited t } u :=
    ⟨by simp only [running_exited, bne_iff_ne.mpr hu, Bool.and_true], rfl, rfl, fun _ => rfl, rfl⟩
  have hup : Updates x.books (x.books.exited t) (some t) := updates_exited hrun
  refine ⟨h.announcing, h.allocates.congr hup.nextId hup.slot hup.used, fun u => ?_, h.mutexes,
    h.conds, h.once, fun u p => ?_, fun u μ => ?_, fun u κ => ?_, fun u v => ?_, fun u => ?_,
    fun u => ?_⟩
  · rw [exited_entry]
    split
    · rw [entryStatus_exited]
      decide
    · exact h.consistent u
  · rw [orphan_iff ht (by simp) (by simp)]
    exact h.ready u p
  · rw [orphan_iff ht (by simp) (by simp), h.mutex]
  · rw [orphan_iff ht (by simp) (by simp), h.cond]
  · by_cases hv : v = t
    · rw [hv, awaiting_of_not_running hgone, orphan]
      split_ifs with _ hwaits
      · exact iff_of_false nofun nofun
      · exact iff_of_false nofun nofun
      · exact iff_of_false nofun hwaits
    · rw [orphan_iff ht (by simp) (by simpa using hv), ← h.child,
        awaiting_of_entry (exited_entry.trans (if_neg hv))]
  · rw [orphan_iff ht (by simp) (by simp)]
    exact h.mail u
  · rw [orphan]
    split_ifs with hu hwaits
    · refine ⟨nofun, nofun, fun hlive => ?_, fun _ _ => rfl, fun heq => absurd (hu ▸ heq) hidle⟩
      have hlive' : (x.books.exited t).running t = true := hu ▸ hlive.1
      rw [hgone] at hlive'
      cases hlive'
    · exact (((h.at hwaits).move (fun _ => (h.at hwaits).software _ rfl rfl)
        fun _ => .inl rfl).congr (hsame u hu))
    · exact (h.suits u).congr (hsame u hu)

lemma Placed.exit (h : Placed x A Q loc) (ht : loc t = some .executing ∨ loc t = none)
    (hrun : x.books.running t = true) (hidle : t ≠ x.idle) :
    hasError (x.books.exit t).2 = false ∧ ∃ loc',
      Placed { x with books := (x.books.exit t).1 } A Q loc' ∧ loc' t = none ∧
        ∀ u ≠ t, loc' u = loc u ∨ loc u = some (.child t) ∧ ∃ p, loc' u = some (.ready p) := by
  have hexited := h.exited ht hrun hidle
  have hself : orphan loc t t = none := if_pos rfl
  have hzero : hasError (0 : Word) = false := by decide
  cases hwaits : !entryDetached (x.books.entry t) && entryJoined (x.books.entry t) with
  | false =>
    have hnone : awaiting x.books t = none := by
      rw [awaiting, Bool.and_assoc, hwaits, Bool.and_false, if_neg Bool.false_ne_true]
    have hbooks : x.books.exit t = (x.books.exited t, 0) := by
      simp only [Books.exit, hwaits, Bool.false_eq_true, if_false]
      rfl
    rw [hbooks]
    refine ⟨hzero, _, hexited, hself, fun u hu => .inl ?_⟩
    rw [orphan, if_neg hu, if_neg fun hchild => ?_]
    have hsome := (h.child u t).mpr hchild
    rw [hnone] at hsome
    cases hsome
  | true =>
    obtain ⟨p, hp⟩ : ∃ p, entryParent (x.books.entry t) = p := ⟨_, rfl⟩
    have hchild : awaiting x.books t = some p := by
      rw [awaiting, Bool.and_assoc, hwaits, hrun, Bool.true_and, if_pos rfl, hp]
    have hplace := (h.child p t).mp hchild
    have hne : p ≠ t := by
      rintro rfl
      rcases ht with ht | ht <;> rw [ht] at hplace <;> cases hplace
    have hparent : (x.books.exited t).running p = true := by
      rw [running_exited, ((h.at hplace).alive _ rfl).1, bne_iff_ne.mpr hne]
      rfl
    have hbooks : x.books.exit t = ((x.books.exited t).enqueue p, 0) := by
      simp only [Books.exit, hwaits, if_true, hp]
      exact if_pos hparent
    have hexec : orphan loc t p = some .executing := by
      rw [orphan, if_neg hne, if_pos hplace]
    rw [hbooks]
    refine ⟨hzero, _, hexited.enqueue hexec, ?_, fun u hu => ?_⟩
    · rw [Function.update_of_ne hne.symm, hself]
    · by_cases hup : u = p
      · rw [hup]
        exact .inr ⟨hplace, _, Function.update_self _ _ _⟩
      · refine .inl ?_
        rw [Function.update_of_ne hup, orphan, if_neg hu, if_neg fun hu' => hup ?_]
        exact Option.some.inj (((h.child u t).mpr hu').symm.trans hchild)

end Exit

end Hthreads.Kernel
