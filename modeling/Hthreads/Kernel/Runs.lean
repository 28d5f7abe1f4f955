import Hthreads.Kernel.Handing

/-! Whole runs: every live thread of the processor is in one place, and a lock succeeds for the
owner of the mutex alone. -/

namespace Hthreads.Kernel

open Library Library.BitFields Scheduler ThreadManager Cores Software

variable {m : ℕ} {P : Prop} {x y : Node m} {A : SyncManager.FifoMutexes m} {Q : CondVars.WaitQueues}
  {loc : ThreadId → Option (Place m)} {t u c : ThreadId} {μ : BitVec m} {a : Act m}
  {r : Node m × Option (Answer m)}

/-- The mutex that a step unlocks, and the thread that does it. -/
def Node.frees (x : Node m) : Act m → Option (BitVec m × ThreadId)
  | .unlock μ => some (μ, x.cpu)
  | .release =>
    match x.stage with
    | .waited _ μ => some (μ, x.cpu)
    | _ => none
  | .hardware h (.unlock μ) => some (μ, h)
  | _ => none

/-- A mutex is unlocked by its owner, or while it is free. -/
def unlocksOwn (a : Act m) (x : Node m) : Prop :=
  ∀ q ∈ x.frees a, (x.mutexes.mutexes q.1).count ≠ 0 → (x.mutexes.mutexes q.1).owner = q.2

instance unlocksOwn.decidable (a : Act m) (x : Node m) : Decidable (unlocksOwn a x) :=
  Option.decidableForallMem (x.frees a)

/-- Mutexes are not locked beyond what they count, and not unlocked by others. -/
def disciplined (a : Act m) (x : Node m) : Prop := nests a x ∧ unlocksOwn a x

instance disciplined.decidable (a : Act m) (x : Node m) : Decidable (disciplined a x) :=
  inferInstanceAs (Decidable (_ ∧ _))

section Steps

lemma Placed.owner_alone (h : Placed x A Q loc)
    (hown : (x.mutexes.mutexes μ).count ≠ 0 → (x.mutexes.mutexes μ).owner = t)
    (hu : Owned A μ u) : u = t := by
  obtain ⟨k, hk, rfl⟩ := owned_iff.mp hu
  have hheld := h.mutexes.held hk
  exact hheld.owner.symm.trans (hown hheld.count_ne_zero)

lemma calls_eq {s : Option (Node m × Option (Answer m))} (h : x.calls s = some r) :
    x.cpu ≠ x.idle ∧ s = some r := by
  rw [Node.calls] at h
  split at h
  next => cases h
  next hne => exact ⟨hne, h⟩

lemma Sound.perform (h : Sound P x A Q loc) {call : Call m} (ha : x.awake t = true)
    (hn : nests (.hardware t call) x) (ho : P → unlocksOwn (.hardware t call) x)
    (hr : x.perform t call = some y) : Ends P (y, none) := by
  have hnone := (h.hardware_absent ha).1
  cases call with
  | lock μ => exact h.hardwareLock ha (hn _ rfl) hr
  | tryLock μ =>
    cases hr
    exact (h.tryLock (fun ν => by simp [hnone]) (hn _ rfl)).ends
  | unlock μ =>
    cases hr
    exact (h.unlock (h.hardware_point ha) fun hP u hu => h.owner_alone (ho hP _ rfl) hu).ends
  | signal κ | broadcast κ =>
    cases hr
    exact (h.wake (by simp)).ends
  | exit => exact h.hardwareExit ha hr

lemma Sound.step (h : Sound P x A Q loc) (hn : nests a x) (ho : P → unlocksOwn a x)
    (hr : x.step a = some r) : Ends P r := by
  unfold Node.step at hr
  split at hr
  next hs => exact h.create hs (calls_eq hr).1 (calls_eq hr).2
  next hs =>
    cases hr
    exact h.param hs _
  next hs => exact h.add hs hr
  next hs => exact h.join hs (calls_eq hr).1 (calls_eq hr).2
  next hs => exact h.reap hs hr
  next hs => exact h.yield hs hr
  next hs => exact h.exit hs (calls_eq hr).1 (calls_eq hr).2
  next hs => exact h.destroy hs hr
  next hs => exact h.leave hs hr
  next hs => exact h.sleep hs hr
  next hs =>
    split at hr
    next hidle => exact h.idleNext hs hidle hr
    next => cases hr
  next hs =>
    obtain ⟨hidle, hr⟩ := calls_eq hr
    cases hr
    exact h.lock (hs ▸ rfl) hidle (hn _ rfl) rfl
  next hs =>
    cases (calls_eq hr).2
    exact (h.tryLock (fun ν => by simp [h.at_cpu (hs ▸ rfl)]) (hn _ rfl)).ends
  next hs =>
    cases (calls_eq hr).2
    refine (h.unlock ?_ fun hP u hu => h.owner_alone (ho hP _ rfl) hu).ends
    rw [Node.point, if_pos rfl, hs]
    rfl
  next hs =>
    obtain ⟨hidle, hr⟩ := calls_eq hr
    cases hr
    exact h.wait hs hidle
  next κ μ hs =>
    cases hr
    refine h.release hs fun hP u hu => h.owner_alone (ho hP (μ, x.cpu) ?_) hu
    simp only [Node.frees, hs, Option.mem_def]
  next κ μ hs =>
    cases hr
    refine h.lock (hs ▸ rfl) (h.busy (by simp [hs])) (hn _ ?_) rfl
    simp only [Node.asks, hs, Option.mem_def]
  next hs =>
    cases (calls_eq hr).2
    exact (h.wake (by simp)).ends
  next hs =>
    cases (calls_eq hr).2
    exact (h.wake (by simp)).ends
  next =>
    split at hr
    next ha =>
      obtain ⟨y, hy, rfl⟩ := Option.map_eq_some_iff.mp hr
      exact h.perform ha hn ho hy
    next => cases hr
  next =>
    obtain ⟨y, hy, rfl⟩ := Option.map_eq_some_iff.mp hr
    exact h.deliver hy
  next => cases hr

end Steps

section Boot

variable {b : Books}

structure Starting (b : Books) (idle : Option ThreadId) : Prop where
  announcing : Announcing b.ready idle
  allocates : Allocates b
  consistent : Consistent b

variable {idle : Option ThreadId}

lemma Starting.create (h : Starting b idle) (command : BitVec 6) :
    Starting (b.create command).1 idle :=
  ⟨create_ready (b := b) command ▸ h.announcing, h.allocates.create,
    consistent_create h.consistent command⟩

lemma Starting.enqueue (h : Starting b idle) (hq : b.ready.queued t = false) :
    Starting (b.enqueue t) idle :=
  ⟨h.announcing.enqueue hq, h.allocates.congr rfl rfl fun _ => rfl, h.consistent⟩

lemma Starting.dispatch (h : Starting b idle) : Starting b.dispatch idle :=
  ⟨h.announcing.dequeue, h.allocates.congr rfl rfl fun _ => rfl, h.consistent⟩

-- the effect of a command of the scheduler
def scheduled (cmd : Scheduler.Command) (b : Books) : Books :=
  { b with ready := cmd.effect b.environment b.ready }

lemma Starting.setSchedParam (h : Starting b idle) (hq : b.ready.queued t = false) (w : Word) :
    Starting (scheduled (.setSchedParam t w) b) idle := by
  refine ⟨h.announcing.setSchedParam fun _ _ hqueued => ?_,
    h.allocates.congr rfl rfl fun _ => rfl, h.consistent⟩
  rw [hq] at hqueued
  cases hqueued

lemma Starting.setIdleThread (h : Starting b idle) (hv : b.ready.nextThreadValid = false)
    (ha : b.ready.idleAllowed (b.entry t) t = true) :
    Starting (scheduled (.setIdleThread t) b) (some t) := by
  have hann : Announcing (b.ready.setIdleThread (b.entry t) t) _ :=
    h.announcing.setIdleThread fun _ => .inr (.inl hv)
  rw [if_pos ha] at hann
  exact ⟨hann, h.allocates.congr rfl rfl fun _ => rfl, h.consistent⟩

lemma starting_boot : ∃ b, bootBooks = some b ∧ Starting b (some 1) := by
  have hmain := (⟨announcing_initial, allocates_initial, consistent_initial⟩ :
    Starting .initial none).create cCreateThreadD
  have hadded := (hmain.setSchedParam (t := 0) (by decide) 0x40).enqueue (t := 0) (by decide)
  have hsecond := hadded.dispatch.create cCreateThreadD
  exact ⟨_, rfl, (hsecond.setSchedParam (t := 1) (by decide) 0x7F).setIdleThread (by decide)
    (by decide)⟩

lemma boot_threads (h : some b = bootBooks) : b.cpu = 0 ∧
    (∀ t, b.running t = (t == 0 || t == 1)) ∧ (∀ t, awaiting b t = none) ∧
    (∀ p, b.ready.readyList p = []) ∧ isSoftwareParam (b.ready.param 0) = true ∧
    isSoftwareParam (b.ready.param 1) = true := by
  have hall : bootBooks.elim false (fun b => decide (b.cpu = 0 ∧
      (∀ t, b.running t = (t == 0 || t == 1)) ∧ (∀ t, awaiting b t = none) ∧
      (∀ p, b.ready.readyList p = []) ∧ isSoftwareParam (b.ready.param 0) = true ∧
      isSoftwareParam (b.ready.param 1) = true)) = true := by decide
  rw [← h] at hall
  exact of_decide_eq_true hall

lemma sound_boot (h : x.Boot) : ∃ A Q loc, Sound P x A Q loc := by
  obtain ⟨b, hb, hstart⟩ := starting_boot
  obtain rfl : x.books = b := Option.some.inj (h.books.trans hb)
  obtain ⟨hcpu, hrun, hawait, hlists, hmain, hidle⟩ := boot_threads h.books
  obtain ⟨kinds, hkinds⟩ := h.mutexes
  have hid : x.idle = 1 := (idle_announced hstart.announcing).1
  have hlive (t : ThreadId) (ht : t = 0 ∨ t = 1) : x.Live t := by
    rw [Node.Live, hrun, h.started, Node.software]
    rcases ht with rfl | rfl
    · exact ⟨rfl, rfl, hmain⟩
    · exact ⟨rfl, rfl, hidle⟩
  obtain ⟨loc, hloc⟩ : ∃ loc : ThreadId → Option (Place m),
      ∀ t, loc t = if t = 0 then some .executing else none := ⟨_, fun _ => rfl⟩
  have hplace (q : Place m) (hq : q ≠ .executing) (t : ThreadId) : loc t ≠ some q := by
    rw [hloc]
    split_ifs
    · exact fun heq => hq (Option.some.inj heq).symm
    · simp
  have hplaced : Placed x (fun μ => ⟨kinds μ, none⟩) .initial loc := by
    refine ⟨hid ▸ hstart.announcing, hstart.allocates, hstart.consistent, ?_,
      CondVars.represents_initial h.conds, h.mail ▸ List.nodup_nil, fun t p => ?_, fun t μ => ?_,
      fun t κ => ?_, fun t c => ?_, fun t => ?_, fun t => ?_⟩
    · rw [hkinds]
      exact ⟨fun _ => ⟨rfl, rfl, rfl⟩, fun _ hh => by cases hh⟩
    · rw [hlists]
      exact iff_of_false List.not_mem_nil (hplace _ (by simp) t)
    · exact iff_of_false List.not_mem_nil (hplace _ (by simp) t)
    · exact iff_of_false List.not_mem_nil (hplace _ (by simp) t)
    · rw [hawait]
      exact iff_of_false (by simp) (hplace _ (by simp) t)
    · rw [h.mail]
      exact iff_of_false List.not_mem_nil (hplace _ (by simp) t)
    · by_cases ht : t = 0
      · rw [hloc, if_pos ht]
        have hl := hlive t (.inl ht)
        refine ⟨fun _ _ => ⟨hl.1, hl.2.1⟩, fun _ _ _ => hl.2.2, fun _ _ => Option.some_ne_none _,
          fun hno => ?_, fun heq => ⟨hl, fun q hq => .inl (Option.some.inj hq).symm⟩⟩
        rw [hl.2.2] at hno
        cases hno
      · rw [hloc, if_neg ht]
        refine ⟨by simp, by simp, fun hl hne => ?_, fun _ _ => rfl, fun heq => ⟨?_, by simp⟩⟩
        · have hstarted := hl.2.1
          rw [h.started] at hstarted
          simp only [Bool.or_eq_true, beq_iff_eq] at hstarted
          exact absurd (hstarted.resolve_left ht) (hid ▸ hne)
        · exact hlive t (.inr (heq.trans hid))
  refine ⟨_, _, _, hplaced.sound (fun t => ?_) (h.stage ▸ rfl) (absurd h.stage) ?_ (fun c hc => ?_)
    fun _ t _ => ?_⟩
  · rw [hloc, Node.cpu, hcpu]
    split_ifs with ht
    · exact iff_of_true rfl ht
    · exact iff_of_false (by simp) ht
  · rw [h.saved]
  · rw [h.stage] at hc
    rcases hc with hc | hc <;> cases hc
  · rw [h.saved]
    exact grants_of_not_waiting rfl

end Boot

section Following

variable {guard : Act m → Node m → Prop}

def Node.follow (guard : Act m → Node m → Prop) [∀ a x, Decidable (guard a x)] (x : Node m) :
    List (Act m) → Option (Node m)
  | [] => some x
  | a :: as => if guard a x then (x.step a).bind fun r => r.1.follow guard as else none

lemma Node.Reachable.follow [∀ a x, Decidable (guard a x)] {as : List (Act m)}
    (h : x.Reachable guard) (hy : x.follow guard as = some y) : y.Reachable guard := by
  induction as generalizing x with
  | nil =>
    cases hy
    exact h
  | cons a as ih =>
    rw [Node.follow] at hy
    split at hy
    next hguard =>
      obtain ⟨⟨z, o⟩, hz, hy⟩ := Option.bind_eq_some_iff.mp hy
      exact ih (h.step hguard hz) hy
    next => cases hy

lemma Node.Reachable.run [∀ a x, Decidable (guard a x)] (as : List (Act m)) (φ : Node m → Prop)
    [DecidablePred φ] (h : x.Reachable guard)
    (hrun : (x.follow guard as).elim false (fun y => decide (φ y)) = true) :
    ∃ y : Node m, y.Reachable guard ∧ φ y := by
  cases hy : x.follow guard as with
  | none =>
    rw [hy] at hrun
    cases hrun
  | some y =>
    rw [hy] at hrun
    exact ⟨y, h.follow hy, of_decide_eq_true hrun⟩

def Node.booted : Node m where
  books := bootBooks.getD .initial
  mutexes := ⟨fun _ => ⟨0, 0, 0, 0, 0⟩, fun _ => 0⟩
  conds := fun _ => 0
  mail := []
  started := fun t => t == 0 || t == 1
  saved := fun _ => .user
  stage := .user

lemma boot_booted : (Node.booted : Node m).Boot where
  books := by
    obtain ⟨b, hb, -⟩ := starting_boot
    rw [Node.booted, hb]
    rfl
  mutexes := ⟨fun _ => 0, rfl⟩
  conds _ := rfl
  mail := rfl
  started := rfl
  saved := rfl
  stage := rfl

end Following

section Theorems

/-- The runs in which the steps meet the guard keep the invariant. -/
lemma sound_reachable {guard : Act m → Node m → Prop} (hg : ∀ a x, guard a x → nests a x)
    (ho : P → ∀ a x, guard a x → unlocksOwn a x) (h : x.Reachable guard) :
    ∃ A Q loc, Sound P x A Q loc := by
  induction h with
  | boot hboot => exact sound_boot hboot
  | step _ hguard hstep ih =>
    obtain ⟨A, Q, loc, hsound⟩ := ih
    obtain ⟨A', Q', loc', hnext, -⟩ :=
      hsound.step (hg _ _ hguard) (fun hP => ho hP _ _ hguard) hstep
    exact ⟨A', Q', loc', hnext⟩

lemma count_of_mem_iff {l : List ThreadId} {q : Prop} [Decidable q] (hl : l.Nodup)
    (h : t ∈ l ↔ q) : l.count t = if q then 1 else 0 := by
  split_ifs with hq
  · exact List.count_eq_one_of_mem hl (h.mpr hq)
  · exact List.count_eq_zero_of_not_mem (mt h.mp hq)

lemma Sound.occurs (h : Sound P x A Q loc) (t : ThreadId) (q : Place m) :
    x.occurs t q = if loc t = some q then 1 else 0 := by
  cases q with
  | executing =>
    rw [Node.occurs]
    exact if_congr (h.executing t).symm rfl rfl
  | ready p => exact count_of_mem_iff (h.announcing.lists.nodup p) (h.ready t p)
  | mutex μ =>
    rw [Node.occurs, show x.mutexes.waiters μ = (A μ).waiters from congrFun h.mutexes.waiters μ]
    exact count_of_mem_iff (h.waiters_nodup μ) (h.mutex t μ)
  | cond κ =>
    rw [Node.occurs, show x.conds.lists.waiters κ = Q κ from congrFun h.conds.waiters κ]
    exact count_of_mem_iff (h.queue_nodup κ) (h.cond t κ)
  | child c =>
    rw [Node.occurs]
    exact if_congr (h.child t c) rfl rfl
  | mail => exact count_of_mem_iff h.once (h.mail t)

/-- Every thread of the processor that has been started and has not exited, except for the idle
thread, is in exactly one place after every run. -/
theorem live_threads_in_one_place (x : Node m) (h : x.Reachable nests) (t : ThreadId)
    (ht : x.Live t) (hidle : t ≠ x.idle) :
    ∃ p, ∀ q, x.occurs t q = if q = p then 1 else 0 := by
  obtain ⟨A, Q, loc, hsound⟩ :=
    sound_reachable (P := False) (fun _ _ hg => hg) (fun hP => hP.elim) h
  obtain ⟨p, hp⟩ := Option.ne_none_iff_exists'.mp ((hsound.suits t).placed ht hidle)
  refine ⟨p, fun q => ?_⟩
  rw [hsound.occurs, hp]
  exact if_congr (by rw [Option.some.injEq, eq_comm]) rfl rfl

/-- The main thread wants a mutex that a hardware thread owns. -/
def lockedRun : List (Act 6) :=
  [.create true, .param 128, .add, .hardware 2 (.lock 0), .lock 0]

theorem live_threads_in_one_place_after_lock :
    ∃ x : Node 6, x.Reachable nests ∧ x.Live 0 ∧ x.stage = .asleep (.locking 0) ∧
      ∃ p, ∀ q, x.occurs 0 q = if q = p then 1 else 0 := by
  have hrun :=
    (Node.Reachable.boot boot_booted : (Node.booted : Node 6).Reachable nests).run lockedRun
    (fun y => (y.books.running 0 = true ∧ y.started 0 = true ∧ y.software 0 = true) ∧
      y.stage = .asleep (.locking 0) ∧ 0 ≠ y.idle) (by decide)
  obtain ⟨y, hreach, hlive, hstage, hidle⟩ := hrun
  exact ⟨y, hreach, hlive, hstage, live_threads_in_one_place y hreach 0 hlive hidle⟩

/-- The main thread locks a FAST mutex twice, and is in no place then. -/
theorem lost_after_relock : ∃ x : Node 6, (x.Reachable fun _ _ => True) ∧
    x.Live 0 ∧ 0 ≠ x.idle ∧ ∀ q, x.occurs 0 q = 0 := by
  have hrun := (Node.Reachable.boot boot_booted :
      (Node.booted : Node 6).Reachable fun _ _ => True).run [.lock 0, .lock 0]
    (fun y => (y.books.running 0 = true ∧ y.started 0 = true ∧ y.software 0 = true) ∧
      0 ≠ y.idle ∧ y.occurs 0 .executing = 0 ∧ (∀ p, y.occurs 0 (.ready p) = 0) ∧
      (∀ μ, y.occurs 0 (.mutex μ) = 0) ∧ (∀ κ, y.occurs 0 (.cond κ) = 0) ∧
      (∀ c, y.occurs 0 (.child c) = 0) ∧ y.occurs 0 .mail = 0) (by decide)
  obtain ⟨y, hreach, hlive, hidle, hexec, hready, hmutex, hcond, hchild, hmail⟩ := hrun
  refine ⟨y, hreach, hlive, hidle, fun q => ?_⟩
  cases q with
  | executing => exact hexec
  | ready p => exact hready p
  | mutex μ => exact hmutex μ
  | cond κ => exact hcond κ
  | child c => exact hchild c
  | mail => exact hmail

/-- In the runs that keep to the discipline `_syscall_mutex_lock` returns SUCCESS to the owner of
the mutex, on whatever way it comes back, also where `_syscall_cond_wait` calls it. -/
theorem lock_succeeds_for_owner (x y : Node m) (a : Act m) (r : Answer m)
    (h : x.Reachable disciplined) (hd : disciplined a x) (hs : x.step a = some (y, some r)) :
    (y.mutexes.mutexes r.mutex).count ≠ 0 ∧ (y.mutexes.mutexes r.mutex).owner = r.thread := by
  obtain ⟨A, Q, loc, hsound⟩ :=
    sound_reachable (P := True) (fun _ _ hg => hg.1) (fun _ _ _ hg => hg.2) h
  obtain ⟨A', Q', loc', hnext, hanswer⟩ := hsound.step hd.1 (fun _ => hd.2) hs
  obtain ⟨k, hk, hkt⟩ := owned_iff.mp (hanswer trivial _ rfl)
  have hheld := hnext.mutexes.held hk
  exact ⟨hheld.count_ne_zero, hheld.owner.trans hkt⟩

/-- The hardware thread hands the mutex over, and the message comes before NEXT. -/
def handedRun : List (Act 6) := lockedRun ++ [.hardware 2 (.unlock 0), .deliver 0]

lemma step_of_answer {o : Option (Answer m)} (h : (x.step a).map (·.2) = some o) :
    ∃ y, x.step a = some (y, o) := by
  obtain ⟨⟨y, o'⟩, hy, rfl⟩ := Option.map_eq_some_iff.mp h
  exact ⟨y, hy⟩

theorem lock_succeeds_for_owner_after_handOff : ∃ x y : Node 6, x.Reachable disciplined ∧
    x.step .next = some (y, some (.locked 0 0)) ∧
    (y.mutexes.mutexes 0).count ≠ 0 ∧ (y.mutexes.mutexes 0).owner = 0 := by
  have hrun := (Node.Reachable.boot boot_booted :
      (Node.booted : Node 6).Reachable disciplined).run handedRun
    (fun y => disciplined .next y ∧ (y.step .next).map (·.2) = some (some (.locked 0 0)))
    (by decide)
  obtain ⟨x, hreach, hnext, hanswer⟩ := hrun
  obtain ⟨y, hy⟩ := step_of_answer hanswer
  exact ⟨x, y, hreach, hy, lock_succeeds_for_owner x y .next (.locked 0 0) hreach hnext hy⟩

/-- The hardware thread unlocks the mutex once more, and it is free when the lock returns. -/
theorem lock_succeeds_on_free_mutex : ∃ x y : Node 6, (x.Reachable fun _ _ => True) ∧
    x.step .next = some (y, some (.locked 0 0)) ∧ (y.mutexes.mutexes 0).count = 0 := by
  have hrun := (Node.Reachable.boot boot_booted :
      (Node.booted : Node 6).Reachable fun _ _ => True).run (handedRun ++ [.hardware 2 (.unlock 0)])
    (fun y => (y.step .next).map (·.2) = some (some (.locked 0 0)) ∧
      ((y.step .next).map fun r => (r.1.mutexes.mutexes 0).count) = some 0) (by decide)
  obtain ⟨x, hreach, hanswer, hcount⟩ := hrun
  obtain ⟨y, hy⟩ := step_of_answer hanswer
  rw [hy] at hcount
  exact ⟨x, y, hreach, hy, Option.some.inj hcount⟩

end Theorems

end Hthreads.Kernel
