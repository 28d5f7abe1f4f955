import Hthreads.Cores.ChildRuns

/-! The wake-up protocol of JOIN and EXIT over whole lifetimes. -/

namespace Hthreads.Cores

open Library Library.BitFields Scheduler ThreadManager

section Statuses

variable {b b' : Books} {cmd : Command} {w : Word}

-- an entry that is not used does not run
def Consistent (b : Books) : Prop := ∀ tid, entryStatus (b.entry tid) ≠ 0b01

lemma consistent_create (h : Consistent b) (command : BitVec 6) :
    Consistent (b.create command).1 := by
  intro u
  by_cases hu : (b.create command).2 = 0#23 ++ u ++ 0#1
  · rw [Books.create] at hu ⊢
    split at hu
    · next hfull =>
      rw [if_pos hfull]
      exact h u
    · next hfull =>
      rw [if_neg hfull]
      have htid : entryId (b.table b.nextId) = u := by
        have hslice := congrArg (fun v : Word => slice v 23 8) hu
        simp only [slice_created] at hslice
        exact hslice
      simp only [htid]
      have hentry : ({ b.setEntry u (createdEntry command (b.entry u) b.cpu) with
          nextId := b.nextId + 1 } : Books).entry u = createdEntry command (b.entry u) b.cpu :=
        entry_setEntry.trans (if_pos rfl)
      rw [hentry, entryStatus_createdEntry]
      decide
  · rw [create_entry command hu]
    exact h u

lemma Consistent.effect (h : Consistent b) (he : cmd.effect b = some (b', w)) : Consistent b' := by
  cases cmd with
  | createJ =>
    rw [fst_of_some he]
    exact consistent_create h _
  | createD =>
    rw [fst_of_some he]
    exact consistent_create h _
  | clear tid =>
    intro u
    have hrec := clear_record b tid u
    rw [fst_of_some he]
    split at hrec
    · rw [entryStatus_of_record (e := 0) hrec]
      decide
    · rw [entryStatus_of_record hrec]
      exact h u
  | join tid =>
    intro u
    rw [fst_of_some he, join_status]
    exact h u
  | exit tid =>
    intro u
    rw [fst_of_some he, exit_entry, exited_entry]
    split
    · rw [entryStatus_exited]
      decide
    · exact h u
  | add tid =>
    rw [fst_of_some he, add_eq]
    split <;> exact h
  | next =>
    rw [Command.effect] at he
    split at he
    · rw [fst_of_some he, next_eq]
      split <;> exact h
    · cases he
  | yield =>
    rw [fst_of_some he, yield_eq]
    split <;> exact h
  | isQueued tid | isDetached tid | read tid | current =>
    rw [fst_of_some he]
    exact h

lemma consistent_initial : Consistent .initial := by
  intro tid
  rw [initial_entry, status_eq]
  have hzero : ∀ i, 8 ≤ i → bit (tid ++ 0#24) i = false := by
    intro i hi
    rw [bit, BitVec.getLsbD_append, if_pos (by omega)]
    simp
  rw [hzero 26 (by omega), hzero 27 (by omega)]
  decide

lemma Managed.Run.consistent {a z : Managed} {es : List Event} (h : a.Run es z) (ha : a.AtRest)
    (hb : Consistent a.books) : Consistent z.books := by
  induction h with
  | nil a => exact hb
  | cons hexec _ ih =>
    obtain ⟨heff, hrest⟩ := execute_iff ha hexec
    exact ih hrest (hb.effect heff)

end Statuses

/-- The events between the CREATE of a child and the end of its lifetime. -/
structure WakeProtocol (c parent : ThreadId) (joinable : Bool) (es : List Event) : Prop where
  once : es.countP (Event.joins c) ≤ 1
  joined : ∀ (l : List Event) (e : Event) (r : List Event), es = l ++ e :: r →
    e.exits c = true → l.any (Event.joins c) = true →
    e.before.enqueues e.command = some parent ∧ e.after.ready = e.before.ready.enqueue parent
  unjoined : ∀ (l : List Event) (e : Event) (r : List Event), es = l ++ e :: r →
    e.exits c = true → l.any (Event.joins c) = false →
    e.before.enqueues e.command = none ∧ e.after.ready = e.before.ready
  late : joinable = true → ∀ (l : List Event) (x : Event) (m : List Event) (e : Event)
    (r : List Event), es = (l ++ x :: m) ++ e :: r → x.exits c = true →
    l.any (Event.joins c) = false → e.command = .join c →
    e.before.currentCpuThread = parent ++ 0#1 →
      e.word = 0#28 ++ threadAlreadyTerminated ∧ e.after = e.before
  refused : ∀ e ∈ es, ∀ tid : ThreadId, e.command = .join tid →
    entryParent (e.before.entry tid) ++ 0#1 ≠ e.before.currentCpuThread ∨
      entryDetached (e.before.entry tid) = true ∨ entryJoined (e.before.entry tid) = true ∨
      entryUsed (e.before.entry tid) = false →
    slice e.word 28 4 ≠ 0 ∧ slice e.word 28 4 ≠ threadAlreadyTerminated ∧ e.after = e.before

section Protocol

variable {a z : Managed} {es l m r : List Event} {e x : Event} {c p tid : ThreadId} {d : Bool}

lemma joinAllowed_false {b : Books} (h : Consistent b)
    (hno : entryParent (b.entry tid) ++ 0#1 ≠ b.currentCpuThread ∨
      entryDetached (b.entry tid) = true ∨ entryJoined (b.entry tid) = true ∨
      entryUsed (b.entry tid) = false) :
    joinAllowed (b.entry tid) b.currentCpuThread = false := by
  rw [joinAllowed]
  rcases hno with hp | hd | hj | hu
  · rw [beq_eq_false_iff_ne.mpr hp, Bool.false_and, Bool.false_and, Bool.false_and]
  · rw [hd, Bool.not_true, Bool.and_false, Bool.false_and, Bool.false_and]
  · rw [hj, Bool.not_true, Bool.and_false, Bool.false_and]
  · have hzero : entryStatus (b.entry tid) = 0 := by
      have hne := h tid
      rw [status_eq] at hne ⊢
      rw [entryUsed] at hu
      rw [hu] at hne ⊢
      revert hne
      cases bit (b.entry tid) 27 <;> decide
    rw [hzero, bne_self_eq_false, Bool.and_false]

lemma join_event_refused (h : a.Run es z) (ha : a.AtRest) (hb : Consistent a.books)
    (he : e ∈ es) (hcmd : e.command = .join tid)
    (hno : entryParent (e.before.entry tid) ++ 0#1 ≠ e.before.currentCpuThread ∨
      entryDetached (e.before.entry tid) = true ∨ entryJoined (e.before.entry tid) = true ∨
      entryUsed (e.before.entry tid) = false) :
    slice e.word 28 4 ≠ 0 ∧ slice e.word 28 4 ≠ threadAlreadyTerminated ∧ e.after = e.before := by
  obtain ⟨l, r, rfl⟩ := List.append_of_mem he
  obtain ⟨a₁, a₂, hl, hexec, hbefore, hafter, -⟩ := h.split
  rw [hbefore] at hno ⊢
  rw [hcmd] at hexec
  obtain ⟨heff, -⟩ := execute_iff (hl.atRest ha) hexec
  have hrefused := join_refused (joinAllowed_false (hl.consistent ha hb) hno)
  have hword := snd_of_some heff
  have hbooks := fst_of_some heff
  rw [hrefused] at hword hbooks
  rw [hafter, hbooks, hword, slice_withCode]
  exact ⟨(joinError_code _ _).1, (joinError_code _ _).2, rfl⟩

lemma exit_event (h : a.Run (l ++ e :: r) z) (ha : a.AtRest)
    (hc : Child d p false false (a.books.entry c)) (hes : Lives c (l ++ e :: r))
    (hx : e.exits c = true) :
    e.before.wakes c = (!d && l.any (Event.joins c) && e.after.running p) ∧
      entryParent (e.before.entry c) = p ∧ e.command = .exit c ∧
      e.after = (e.before.exit c).1 := by
  obtain ⟨a₁, a₂, hl, hexec, hbefore, hafter, -⟩ := h.split
  have hc₁ := hc.run hl ha fun e he => hes e (List.mem_append_left _ he)
  have hcmd : e.command = .exit c := beq_iff_eq.mp hx
  rw [hcmd] at hexec
  obtain ⟨heff, -⟩ := execute_iff (hl.atRest ha) hexec
  rw [hbefore, hafter, fst_of_some heff]
  refine ⟨?_, hc₁.parent, hcmd, rfl⟩
  have hrunning : (a₁.books.exit c).1.running p = (a₁.books.exited c).running p := by
    rw [Books.running, exit_entry, Books.running]
  rw [Books.wakes, hc₁.detached, hc₁.joined, hc₁.parent, hrunning, Bool.false_or]

lemma exit_event_effect (hcmd : e.command = .exit c) (hafter : e.after = (e.before.exit c).1) :
    (e.before.wakes c = true →
      e.before.enqueues e.command = some (entryParent (e.before.entry c)) ∧
        e.after.ready = e.before.ready.enqueue (entryParent (e.before.entry c))) ∧
    (e.before.wakes c = false →
      e.before.enqueues e.command = none ∧ e.after.ready = e.before.ready) := by
  rw [hafter, hcmd, exit_eq, Books.enqueues]
  constructor
  · intro hw
    rw [hw]
    exact ⟨rfl, rfl⟩
  · intro hw
    rw [hw]
    exact ⟨rfl, rfl⟩

lemma late_join (h : a.Run ((l ++ x :: m) ++ e :: r) z) (ha : a.AtRest)
    (hc : Child false p false false (a.books.entry c))
    (hes : Lives c ((l ++ x :: m) ++ e :: r)) (hx : x.exits c = true)
    (hl : l.any (Event.joins c) = false) (hcmd : e.command = .join c)
    (hcpu : e.before.currentCpuThread = p ++ 0#1) :
    e.word = 0#28 ++ threadAlreadyTerminated ∧ e.after = e.before := by
  obtain ⟨a₁, a₂, hrun, hexec, hbefore, hafter, -⟩ := h.split
  have hes₁ : Lives c (l ++ x :: m) := fun e he => hes e (List.mem_append_left _ he)
  have hc₁ := hc.run hrun ha hes₁
  have hnone : (l ++ x :: m).any (Event.joins c) = false := by
    obtain ⟨b₁, b₂, hrl, hxexec, hxb, hxa, hrm⟩ := hrun.split
    have hcl := hc.run hrl ha fun e he => hes₁ e (List.mem_append_left _ he)
    obtain ⟨hxclear, hxcreate⟩ := hes₁ x (List.mem_append_right _ List.mem_cons_self)
    obtain ⟨hxeff, hxrest⟩ := execute_iff (hrl.atRest ha) hxexec
    have hev : Event.mk b₁.books x.command x.word b₂.books = x := by rw [← hxb, ← hxa]
    have hcx := hcl.step hxeff hxclear (by rw [hev]; exact hxcreate)
    have hxjoins : x.joins c = false := by
      rw [Event.joins, beq_iff_eq.mp hx]
      rfl
    rw [hev, hx, hxjoins, Bool.or_true] at hcx
    have hm := any_joins_exited hrm hxrest hcx fun e he =>
      hes₁ e (List.mem_append_right _ (List.mem_cons_of_mem _ he))
    rw [List.any_append, List.any_cons, hl, hxjoins, hm]
    rfl
  have hexited : (l ++ x :: m).any (Event.exits c) = true := by
    rw [List.any_append, List.any_cons, hx, Bool.true_or, Bool.or_true]
  rw [hnone, hexited] at hc₁
  rw [hcmd] at hexec
  rw [hbefore] at hcpu
  obtain ⟨heff, -⟩ := execute_iff (hrun.atRest ha) hexec
  have hallowed : joinAllowed (a₁.books.entry c) a₁.books.currentCpuThread = true := by
    rw [joinAllowed, hcpu, hc₁.detached, hc₁.joined, hc₁.parent, hc₁.status, beq_self_eq_true]
    rfl
  have hjoin := join_terminated hallowed hc₁.running
  have hword := snd_of_some heff
  have hbooks := fst_of_some heff
  rw [hjoin] at hword hbooks
  exact ⟨hword, by rw [hafter, hbefore, hbooks]⟩

lemma wakeProtocol_joinable (h : a.Run es z) (ha : a.AtRest) (hb : Consistent a.books)
    (hc : Child false p false false (a.books.entry c)) (hes : Lives c es)
    (hp : ∀ e ∈ es, e.after.running p = true) : WakeProtocol c p true es := by
  refine ⟨joins_at_most_once h ha hc hes, ?_, ?_, ?_, fun e he tid => join_event_refused h ha hb he⟩
  · rintro l e r rfl hx hl
    obtain ⟨hwakes, hparent, hcmd, hafter⟩ := exit_event h ha hc hes hx
    rw [hl, hp e (List.mem_append_right _ List.mem_cons_self)] at hwakes
    have heffect := (exit_event_effect hcmd hafter).1 hwakes
    rwa [hparent] at heffect
  · rintro l e r rfl hx hl
    obtain ⟨hwakes, -, hcmd, hafter⟩ := exit_event h ha hc hes hx
    rw [hl, Bool.and_false, Bool.false_and] at hwakes
    exact (exit_event_effect hcmd hafter).2 hwakes
  · rintro - l x m e r rfl hx hl hcmd hcpu
    exact late_join h ha hc hes hx hl hcmd hcpu

lemma wakeProtocol_detached (h : a.Run es z) (ha : a.AtRest) (hb : Consistent a.books)
    (hc : Child true p false false (a.books.entry c)) (hes : Lives c es) (q : ThreadId) :
    WakeProtocol c q false es := by
  refine ⟨joins_at_most_once h ha hc hes, ?_, ?_, fun hj => Bool.noConfusion hj,
    fun e he tid => join_event_refused h ha hb he⟩
  · rintro l e r rfl hx hl
    obtain ⟨a₁, -, hrl, -, -, -, -⟩ := h.split
    rw [any_joins_detached hrl ha hc fun e he => hes e (List.mem_append_left _ he)] at hl
    cases hl
  · rintro l e r rfl hx hl
    obtain ⟨hwakes, -, hcmd, hafter⟩ := exit_event h ha hc hes hx
    rw [Bool.not_true, Bool.false_and, Bool.false_and] at hwakes
    exact (exit_event_effect hcmd hafter).2 hwakes

end Protocol

lemma created_entry {b : Books} {command : BitVec 6} {c : ThreadId}
    (h : (b.create command).2 = 0#23 ++ c ++ 0#1) :
    (b.create command).1.entry c = createdEntry command (b.entry c) b.cpu := by
  rw [Books.create] at h ⊢
  split at h
  · next hfull =>
    have hbit := bit_created c
    rw [show (0#23 ++ c ++ 0#1 : Word) = 1 from h.symm] at hbit
    exact absurd hbit (by decide)
  · next hfull =>
    have htid : entryId (b.table b.nextId) = c := by
      have hslice := congrArg (fun v : Word => slice v 23 8) h
      simp only [slice_created] at hslice
      exact hslice
    rw [if_neg hfull]
    simp only [htid]
    exact entry_setEntry.trans (if_pos rfl)

/-- From the CREATE of a child on, as long as its parent stays used and running. -/
theorem join_exit_protocol (a a₀ z : Managed) (ha : a.Reachable fun _ _ => True) (cmd : Command)
    (hcmd : cmd = .createJ ∨ cmd = .createD) (c : ThreadId)
    (hcreate : a.execute cmd = some (a₀, 0#23 ++ c ++ 0#1)) (es : List Event)
    (hrun : a₀.Run es z) (hes : Lives c es)
    (hparent : cmd = .createJ → ∀ e ∈ es, e.after.running a.books.cpu = true) :
    WakeProtocol c a.books.cpu (cmd == .createJ) es := by
  obtain ⟨hrest, hb⟩ := reachable_invariant consistent_initial
    (fun cmd b b' w hb _ he => hb.effect he) ha
  obtain ⟨heff, hrest₀⟩ := execute_iff hrest hcreate
  have hb₀ := hb.effect heff
  rcases hcmd with rfl | rfl
  · have hentry := created_entry (snd_of_some heff).symm
    rw [← fst_of_some heff] at hentry
    have hc := child_created (p := a.books.cpu) (e := a.books.entry c) cCreateThreadJ (by decide)
    rw [← hentry] at hc
    exact wakeProtocol_joinable hrun hrest₀ hb₀ hc hes (hparent rfl)
  · have hentry := created_entry (snd_of_some heff).symm
    rw [← fst_of_some heff] at hentry
    have hc := child_created_detached (p := a.books.cpu) (e := a.books.entry c)
    rw [← hentry] at hc
    exact wakeProtocol_detached hrun hrest₀ hb₀ hc hes _

-- thread 0 runs and creates thread 1, which is joined, exits, and is joined too late
def parentRun : List Command := [.createJ, .add 0, .next]

def childRun : List Command := [.join 1, .join 1, .exit 1, .next, .join 1]

theorem join_exit_protocol_childRun : ∃ es : List Event,
    es.map Event.command = childRun ∧ WakeProtocol 1 0 true es := by
  have hany : Books.initial.Allowed (fun _ _ => True) parentRun := by decide
  have hfacts : ((Books.initial.follow parentRun).bind fun b =>
      (b.create cCreateThreadJ).1.trace childRun |>.map fun es =>
        (b.create cCreateThreadJ).2 == 0#23 ++ 1#8 ++ 0#1 && b.cpu == 0 &&
          decide (es.map Event.command = childRun) && es.all fun e =>
            decide (e.command ≠ .clear 1) && !e.creates 1 && e.after.running 0) = some true := by
    decide
  obtain ⟨b, hb, hfacts⟩ := Option.bind_eq_some_iff.mp hfacts
  obtain ⟨es, htrace, hfacts⟩ := Option.map_eq_some_iff.mp hfacts
  simp only [Bool.and_eq_true, beq_iff_eq, decide_eq_true_iff, List.all_eq_true,
    Bool.not_eq_true'] at hfacts
  obtain ⟨⟨⟨hword, hcpu⟩, hcmds⟩, hall⟩ := hfacts
  obtain ⟨a, ha, rfl⟩ := reachable_of_follow hany hb
  obtain ⟨a₀, hexec, hrest, hbooks⟩ := returns_create ha.atRest (.inl ⟨rfl, rfl⟩)
  rw [← hbooks] at htrace
  rw [hword] at hexec
  obtain ⟨z, hrun⟩ := run_of_trace hrest htrace
  refine ⟨es, hcmds, ?_⟩
  rw [← hcpu]
  exact join_exit_protocol a a₀ z ha .createJ (.inl rfl) 1 hexec es hrun
    (fun e he => (hall e he).1) fun _ e he => hcpu ▸ (hall e he).2

end Hthreads.Cores
