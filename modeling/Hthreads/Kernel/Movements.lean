import Hthreads.Kernel.Places

/-! What the commands to the cores do to the places of the threads. -/

namespace Hthreads.Kernel

open Library Library.BitFields Library.Fifo Scheduler ThreadManager Cores Software

variable {m : ℕ} {x y : Node m} {A : SyncManager.FifoMutexes m} {Q : CondVars.WaitQueues}
  {loc : ThreadId → Option (Place m)} {t u c : ThreadId} {μ : BitVec m} {κ : CondVars.Cvar}

section Processor

lemma Placed.at (h : Placed x A Q loc) {p : Place m} (ht : loc t = some p) :
    Suits x t (some p) := ht ▸ h.suits t

lemma Placed.unqueued (h : Placed x A Q loc) (ht : ∀ p, loc t ≠ some (.ready p)) :
    x.books.ready.queued t = false :=
  (unlisted_iff h.announcing.toIntact).mp fun p hp => ht p ((h.ready t p).mp hp)

lemma Placed.goto (h : Placed x A Q loc) (s : Stage m) : Placed (x.goto s) A Q loc :=
  { h with suits := fun u => (h.suits u).congr ⟨rfl, rfl, rfl, fun _ => rfl, rfl⟩ }

lemma Placed.enqueue (h : Placed x A Q loc) (ht : loc t = some .executing) :
    Placed { x with books := x.books.enqueue t } A Q
      (Function.update loc t (some (.ready (x.books.ready.level t)))) := by
  have hsoft : x.software t = true := (h.at ht).software _ rfl rfl
  have hq : x.books.ready.queued t = false := h.unqueued fun p => by simp [ht]
  have hann := h.announcing.enqueue hq
  have hidle : (x.books.ready.enqueue t).idleThreadId = x.idle := (idle_announced hann).1
  have hsame (v : ThreadId) : Unchanged x { x with books := x.books.enqueue t } v :=
    ⟨rfl, rfl, congrFun (congrArg (isSoftwareParam ∘ ·) (enqueue_param _ t)) v, fun _ => rfl, hidle⟩
  refine ⟨?_, h.allocates.congr rfl rfl fun _ => rfl, h.consistent, h.mutexes, h.conds, h.once,
    fun u p => ?_, fun u μ => ?_, fun u κ => ?_, fun u c => ?_, fun u => ?_, ?_⟩
  · exact (hsame t).idle.symm ▸ hann
  · refine (mem_enqueue_iff h.announcing.toIntact hq hsoft).trans ?_
    by_cases hp : p = x.books.ready.level t
    · rw [hp, moved_to_iff (by simp [ht]), h.ready, and_iff_right rfl]
    · rw [moved_iff (by simp [ht]) (by simpa using Ne.symm hp), h.ready,
        or_iff_left fun hu => hp hu.1]
  · rw [moved_iff (by simp [ht]) (by simp), h.mutex]
  · rw [moved_iff (by simp [ht]) (by simp), h.cond]
  · rw [moved_iff (by simp [ht]) (by simp)]
    exact h.child u c
  · rw [moved_iff (by simp [ht]) (by simp)]
    exact h.mail u
  · refine suits_update (fun u _ => (h.suits u).congr (hsame u)) ?_
    exact ((h.at ht).move (fun _ => hsoft) fun _ => .inr ⟨_, rfl⟩).congr (hsame t)

lemma Placed.announced (h : Placed x A Q loc) (hno : ∀ u, loc u ≠ some .executing) :
    x.books.ready.nextThreadValid = true ∧ x.Live x.books.ready.nextThreadId ∧
      ((∃ p, loc x.books.ready.nextThreadId = some (.ready p)) ∨
        x.books.ready.nextThreadId = x.idle ∧ loc x.books.ready.nextThreadId = none) := by
  have hvalid : x.books.ready.nextThreadValid = true :=
    h.announcing.valid.mpr (.inr (idle_announced h.announcing).2)
  refine ⟨hvalid, ?_⟩
  by_cases hq : ∃ p, x.books.ready.readyList p ≠ []
  · have hplace := (h.ready _ _).mp (announced_mem h.announcing.toIntact hq)
    obtain ⟨hrun, hstart⟩ := (h.at hplace).alive _ rfl
    exact ⟨⟨hrun, hstart, (h.at hplace).software _ rfl rfl⟩, .inl ⟨_, hplace⟩⟩
  · push Not at hq
    have hidle : x.books.ready.nextThreadId = x.idle := by
      refine h.announcing.idle hvalid ?_
      rintro ⟨p, hp⟩
      exact (h.announcing.lists.bit p).mp hp (hq p)
    rw [hidle]
    refine ⟨((h.suits x.idle).idle rfl).1, .inr ⟨rfl, ?_⟩⟩
    cases hplace : loc x.idle with
    | none => rfl
    | some p =>
      obtain rfl | ⟨r, rfl⟩ := ((h.at hplace).idle rfl).2 p rfl
      · exact absurd hplace (hno _)
      · have hmem := (h.ready _ _).mpr hplace
        rw [hq r] at hmem
        exact absurd hmem List.not_mem_nil

lemma Placed.dispatch (h : Placed x A Q loc) (hno : ∀ u, loc u ≠ some .executing) :
    Placed { x with books := x.books.dispatch } A Q
      (Function.update loc x.books.ready.nextThreadId (some .executing)) := by
  obtain ⟨-, hlive, hplace⟩ := h.announced hno
  obtain ⟨n, hn⟩ : ∃ n, n = x.books.ready.nextThreadId := ⟨_, rfl⟩
  have hann : Announcing x.books.dispatch.ready (some x.idle) := h.announcing.dequeue
  have hsame (v : ThreadId) : Unchanged x { x with books := x.books.dispatch } v :=
    ⟨rfl, rfl, congrFun (congrArg (isSoftwareParam ∘ ·) (dequeue_param _ _)) v, fun _ => rfl,
      (idle_announced hann).1⟩
  have hleft (q : Place m) (hq : ∀ r, q ≠ .ready r) : loc x.books.ready.nextThreadId ≠ some q := by
    rintro hloc
    obtain ⟨p, hp⟩ | ⟨-, hnone⟩ := hplace
    · rw [hp] at hloc
      exact hq p (Option.some.inj hloc).symm
    · rw [hnone] at hloc
      cases hloc
  refine ⟨?_, h.allocates.congr rfl rfl fun _ => rfl, h.consistent, h.mutexes, h.conds, h.once,
    fun u p => ?_, fun u μ => ?_, fun u κ => ?_, fun u c => ?_, fun u => ?_, ?_⟩
  · exact (hsame n).idle.symm ▸ hann
  · rw [moved_from_iff (by simp)]
    refine (mem_dequeue_iff h.announcing.toIntact).trans ?_
    rw [h.ready]
  · rw [moved_iff (hleft _ (by simp)) (by simp), h.mutex]
  · rw [moved_iff (hleft _ (by simp)) (by simp), h.cond]
  · rw [moved_iff (hleft _ (by simp)) (by simp)]
    exact h.child u c
  · rw [moved_iff (hleft _ (by simp)) (by simp)]
    exact h.mail u
  · refine suits_update (fun u _ => (h.suits u).congr (hsame u)) (Suits.congr ?_ (hsame _))
    refine ⟨fun _ _ => ⟨hlive.1, hlive.2.1⟩, fun _ _ _ => hlive.2.2,
      fun _ _ => Option.some_ne_none _,
      fun hsoft => ?_, fun _ => ⟨hlive, fun p hp => .inl (Option.some.inj hp).symm⟩⟩
    rw [hlive.2.2] at hsoft
    cases hsoft

end Processor

section Mail

lemma Placed.unmail (h : Placed x A Q loc) (ht : loc t = some .mail) {o : Option (Place m)}
    (ho : ∀ q, o = some q → q = .executing) {s : ThreadId → Point m}
    (hs : ∀ u ≠ t, s u = x.saved u) (hsuit : Suits { x with saved := s } t o) :
    Placed { x with mail := x.mail.erase t, saved := s } A Q (Function.update loc t o) := by
  have hleft (q : Place m) (hq : q ≠ .executing) : o ≠ some q := fun heq => hq (ho q heq)
  refine ⟨h.announcing, h.allocates, h.consistent, h.mutexes, h.conds, h.once.erase t,
    fun u p => ?_, fun u μ => ?_, fun u κ => ?_, fun u c => ?_, fun u => ?_, ?_⟩
  · rw [moved_iff (by simp [ht]) (hleft _ (by simp)), ← h.ready]
  · rw [moved_iff (by simp [ht]) (hleft _ (by simp)), h.mutex]
  · rw [moved_iff (by simp [ht]) (hleft _ (by simp)), h.cond]
  · rw [moved_iff (by simp [ht]) (hleft _ (by simp)), ← h.child]
  · rw [moved_from_iff (hleft _ (by simp)), ← h.mail, h.once.mem_erase_iff, and_comm]
  · refine suits_update (fun u hu => (h.suits u).congr ⟨rfl, rfl, rfl, fun _ => hs u hu, rfl⟩) ?_
    exact hsuit.congr ⟨rfl, rfl, rfl, fun _ => rfl, rfl⟩

end Mail

section Mutexes

open SyncManager (FifoMutex blockData)

variable {M : FifoMutex}

lemma waiters_lock (M : FifoMutex) (t : ThreadId) :
    (M.lock t).1.data = blockData ∧ (M.lock t).2.waiters = M.waiters ++ [t] ∨
      (M.lock t).1.data ≠ blockData ∧ (M.lock t).2.waiters = M.waiters := by
  have hzero : (0 : Word) ≠ blockData := by decide
  have herror : SyncManager.errorData ≠ blockData := by decide
  rw [FifoMutex.lock]
  split
  · next hM => exact .inr ⟨hzero, by simp [FifoMutex.waiters, hM]⟩
  · next k hM =>
    split_ifs
    · exact .inr ⟨hzero, by simp [FifoMutex.waiters, hM]⟩
    · exact .inr ⟨herror, rfl⟩
    · exact .inl ⟨rfl, by simp [FifoMutex.waiters, hM]⟩

lemma waiters_tryLock (M : FifoMutex) (t : ThreadId) : (M.tryLock t).2.waiters = M.waiters := by
  rw [FifoMutex.tryLock]
  split
  · next hM => simp [FifoMutex.waiters, hM]
  · next k hM =>
    split_ifs
    · simp [FifoMutex.waiters, hM]
    · rfl

lemma waiters_unlock (M : FifoMutex) :
    M.unlock.2.1 = [] ∧ M.unlock.2.2.waiters = M.waiters ∨
      ∃ w, M.waiters = w :: M.unlock.2.2.waiters ∧ M.unlock.2.1 = [w] := by
  rw [FifoMutex.unlock]
  split
  · exact .inl ⟨rfl, rfl⟩
  · next k hM =>
    split_ifs
    · exact .inl ⟨rfl, by simp [FifoMutex.waiters, hM]⟩
    · split
      · next hw => exact .inl ⟨rfl, by simp [FifoMutex.waiters, hM, hw]⟩
      · next w ws hw => exact .inr ⟨w, by simp [FifoMutex.waiters, hM, hw], rfl⟩

lemma Placed.waiters_nodup (h : Placed x A Q loc) (μ : BitVec m) : (A μ).waiters.Nodup := by
  have hd := (h.mutexes.each μ).2
  rw [FifoMutex.waiters]
  cases hh : (A μ).holder with
  | none => exact List.nodup_nil
  | some k =>
    rw [hh] at hd
    exact hd.queue.nodup

lemma Placed.queue_nodup (h : Placed x A Q loc) (κ : CondVars.Cvar) : (Q κ).Nodup := by
  by_cases hq : Q κ = []
  · rw [hq]
    exact List.nodup_nil
  · exact (h.conds.path κ hq).nodup

lemma Placed.running (h : Placed x A Q loc) (ht : ∀ μ, loc t ≠ some (.mutex μ)) : A.Running t := by
  intro μ k hk hmem
  have hwaiters : (A μ).waiters = k.waiters := by simp [FifoMutex.waiters, Option.mem_def.mp hk]
  exact ht μ ((h.mutex t μ).mp (hwaiters ▸ hmem))

lemma Placed.lock_allowed (h : Placed x A Q loc) (ht : ∀ μ, loc t ≠ some (.mutex μ))
    (hn : Nestable x.mutexes (.lock μ t)) : A.Allowed (.lock μ t) := by
  refine ⟨h.running ht, fun k hk howner => ?_⟩
  have hheld := h.mutexes.held (Option.mem_def.mp hk)
  have hkind := (h.mutexes.each μ).1
  rcases hn hheld.count_ne_zero (hheld.owner.trans howner) with ⟨hrec, hcount⟩ | herr
  · refine .inl ⟨hkind.symm.trans hrec, ?_⟩
    have hlt := (x.mutexes.mutexes μ).count.isLt
    have hne : (x.mutexes.mutexes μ).count.toNat ≠ 255 :=
      fun heq => hcount (BitVec.eq_of_toNat_eq heq)
    have hdepth := hheld.count
    omega
  · exact .inr (hkind.symm.trans herr)

lemma Placed.tryLock_allowed (h : Placed x A Q loc) (ht : ∀ μ, loc t ≠ some (.mutex μ))
    (hn : Nestable x.mutexes (.tryLock μ t)) : A.Allowed (.tryLock μ t) := by
  refine ⟨h.running ht, fun k hk howner hrec => ?_⟩
  have hheld := h.mutexes.held (Option.mem_def.mp hk)
  have hkind := (h.mutexes.each μ).1
  have hcount := hn hheld.count_ne_zero (hheld.owner.trans howner) (hkind.trans hrec)
  have hlt := (x.mutexes.mutexes μ).count.isLt
  have hne : (x.mutexes.mutexes μ).count.toNat ≠ 255 :=
    fun heq => hcount (BitVec.eq_of_toNat_eq heq)
  have hdepth := hheld.count
  omega

lemma Placed.lock (h : Placed x A Q loc) (ht : loc t = some .executing ∨ loc t = none)
    (hs : Suits x t (some (.mutex μ))) (hn : Nestable x.mutexes (.lock μ t)) :
    Placed (x.request (.lock μ t)) (A.step (.lock μ t)).2.2 Q
      (if ((SyncManager.Request.lock μ t).effect x.mutexes).data = blockData then
        Function.update loc t (some (.mutex μ)) else loc) := by
  have hfree (q : Place m) (hq : q ≠ .executing) : loc t ≠ some q := by
    rcases ht with ht | ht
    · rw [ht]
      exact fun heq => hq (Option.some.inj heq).symm
    · rw [ht]
      exact nofun
  have hag := h.mutexes.lock (h.lock_allowed (fun ν => hfree _ (by simp)) hn)
  have hdata : ((SyncManager.Request.lock μ t).effect x.mutexes).data = ((A μ).lock t).1.data :=
    hag.data
  have hsent : (x.request (.lock μ t)).mail = x.mail := by
    have hnil : ((SyncManager.Request.lock μ t).effect x.mutexes).sent = [] := hag.sent
    rw [Node.request, hnil, List.append_nil]
  have hsame (v : ThreadId) : Unchanged x (x.request (.lock μ t)) v :=
    ⟨rfl, rfl, rfl, fun _ => rfl, rfl⟩
  rw [hdata]
  rcases waiters_lock (A μ) t with ⟨hblocked, hwait⟩ | ⟨hnot, hwait⟩
  · rw [if_pos hblocked]
    refine ⟨h.announcing, h.allocates, h.consistent, hag.stores, h.conds, hsent ▸ h.once,
      fun u p => ?_, fun u ν => ?_, fun u κ => ?_, fun u c => ?_, fun u => ?_, ?_⟩
    · rw [moved_iff (hfree _ (by simp)) (by simp), ← h.ready]
      rfl
    · by_cases hν : ν = μ
      · rw [hν, moved_to_iff (hfree _ (by simp)), ← h.mutex]
        simp only [SyncManager.FifoMutexes.step, Function.update_self, hwait, List.mem_append,
          List.mem_singleton]
      · rw [moved_iff (hfree _ (by simp)) (by simpa using Ne.symm hν), ← h.mutex]
        simp only [SyncManager.FifoMutexes.step, Function.update_of_ne hν]
    · rw [moved_iff (hfree _ (by simp)) (by simp), h.cond]
    · rw [moved_iff (hfree _ (by simp)) (by simp), ← h.child]
      rfl
    · rw [moved_iff (hfree _ (by simp)) (by simp), hsent, h.mail]
    · exact suits_update (fun u _ => (h.suits u).congr (hsame u)) (hs.congr (hsame t))
  · rw [if_neg hnot]
    refine ⟨h.announcing, h.allocates, h.consistent, hag.stores, h.conds, hsent ▸ h.once, h.ready,
      fun u ν => ?_, h.cond, h.child, fun u => ?_, fun u => (h.suits u).congr (hsame u)⟩
    · rw [← h.mutex]
      by_cases hν : ν = μ
      · rw [hν]
        simp only [SyncManager.FifoMutexes.step, Function.update_self, hwait]
      · simp only [SyncManager.FifoMutexes.step, Function.update_of_ne hν]
    · rw [hsent, h.mail]

lemma Placed.tryLock (h : Placed x A Q loc) (ht : ∀ μ, loc t ≠ some (.mutex μ))
    (hn : Nestable x.mutexes (.tryLock μ t)) :
    Placed (x.request (.tryLock μ t)) (A.step (.tryLock μ t)).2.2 Q loc := by
  have hag := h.mutexes.tryLock (h.tryLock_allowed ht hn)
  have hsent : (x.request (.tryLock μ t)).mail = x.mail := by
    have hnil : ((SyncManager.Request.tryLock μ t).effect x.mutexes).sent = [] := hag.sent
    rw [Node.request, hnil, List.append_nil]
  refine ⟨h.announcing, h.allocates, h.consistent, hag.stores, h.conds, hsent ▸ h.once, h.ready,
    fun u ν => ?_, h.cond, h.child, fun u => ?_,
    fun u => (h.suits u).congr ⟨rfl, rfl, rfl, fun _ => rfl, rfl⟩⟩
  · rw [← h.mutex]
    by_cases hν : ν = μ
    · rw [hν]
      simp only [SyncManager.FifoMutexes.step, Function.update_self, waiters_tryLock]
    · simp only [SyncManager.FifoMutexes.step, Function.update_of_ne hν]
  · rw [hsent, h.mail]

end Mutexes

section Wakes

local instance lawfulThreadId : LawfulBEq ThreadId := inferInstance

/-- The map once messages for these threads have been sent. -/
def post (loc : ThreadId → Option (Place m)) (l : List ThreadId) (u : ThreadId) :
    Option (Place m) :=
  if u ∈ l then some .mail else loc u

variable {l : List ThreadId} {p q : Place m}

lemma post_iff (hl : ∀ u ∈ l, loc u ≠ some q) (hq : q ≠ .mail) :
    post loc l u = some q ↔ loc u = some q := by
  rw [post]
  split
  next hu => exact iff_of_false (fun heq => hq (Option.some.inj heq).symm) (hl u hu)
  next => exact Iff.rfl

lemma post_from_iff (hp : p ≠ .mail) :
    post loc l u = some p ↔ loc u = some p ∧ u ∉ l := by
  rw [post]
  split
  next hu => exact iff_of_false (fun heq => hp (Option.some.inj heq).symm) fun h => h.2 hu
  next hu => exact (and_iff_left hu).symm

lemma post_of_none (hl : ∀ u ∈ l, loc u = some p) (hnone : loc u = none) : post loc l u = none := by
  rw [post, if_neg, hnone]
  intro hu
  rw [hl u hu] at hnone
  cases hnone

lemma post_mail_iff : post loc l u = some .mail ↔ loc u = some .mail ∨ u ∈ l := by
  rw [post]
  split
  next hu => exact iff_of_true rfl (.inr hu)
  next hu => exact (or_iff_left hu).symm

lemma Placed.suits_post (h : Placed x A Q loc) (hl : ∀ u ∈ l, loc u = some p)
    (hp : p ≠ .executing) (hp' : ∀ r, p ≠ .ready r) (u : ThreadId) : Suits x u (post loc l u) := by
  rw [post]
  split
  next hu =>
    have hsuit := h.at (hl u hu)
    refine hsuit.move nofun fun hidle => absurd hidle (hsuit.ne_idle hp hp')
  next => exact h.suits u

lemma Placed.once_post (h : Placed x A Q loc) (hl : ∀ u ∈ l, loc u = some p) (hp : p ≠ .mail)
    (hnodup : l.Nodup) : (x.mail ++ l).Nodup := by
  refine List.nodup_append.mpr ⟨h.once, hnodup, fun u hu v hv heq => ?_⟩
  have hmail := (h.mail u).mp hu
  rw [heq, hl v hv] at hmail
  exact hp (Option.some.inj hmail)

lemma Placed.unlock_sent (h : Placed x A Q loc) :
    ((SyncManager.Request.unlock μ t).effect x.mutexes).sent = (A μ).unlock.2.1 :=
  (h.mutexes.unlock (t := t)).sent

lemma Placed.handed (h : Placed x A Q loc) (hu : u ∈ (A μ).unlock.2.1) :
    loc u = some (.mutex μ) := by
  rw [← h.mutex]
  rcases waiters_unlock (A μ) with ⟨hnil, -⟩ | ⟨w, hw, hone⟩
  · rw [hnil] at hu
    exact absurd hu List.not_mem_nil
  · rw [hone, List.mem_singleton] at hu
    rw [hw, hu]
    exact List.mem_cons_self

lemma Placed.unlock (h : Placed x A Q loc) :
    Placed (x.request (.unlock μ t)) (A.step (.unlock μ t)).2.2 Q
      (post loc ((SyncManager.Request.unlock μ t).effect x.mutexes).sent) := by
  have hag := h.mutexes.unlock (μ := μ) (t := t)
  have hsent := h.unlock_sent (μ := μ) (t := t)
  have hfrom : ∀ u ∈ (A μ).unlock.2.1, loc u = some (.mutex μ) := fun _ => h.handed
  have hother (q : Place m) (hq : q ≠ .mutex μ) : ∀ u ∈ (A μ).unlock.2.1, loc u ≠ some q := by
    intro u hu heq
    rw [hfrom u hu] at heq
    exact hq (Option.some.inj heq).symm
  have hnodup : (A μ).unlock.2.1.Nodup := by
    rcases waiters_unlock (A μ) with ⟨hnil, -⟩ | ⟨w, -, hone⟩
    · rw [hnil]
      exact List.nodup_nil
    · rw [hone]
      exact List.nodup_singleton w
  rw [hsent]
  refine ⟨h.announcing, h.allocates, h.consistent, hag.stores, h.conds, ?_, fun u p => ?_,
    fun u ν => ?_, fun u κ => ?_, fun u c => ?_, fun u => ?_, fun u => ?_⟩
  · rw [Node.request, hsent]
    exact h.once_post hfrom (by simp) hnodup
  · rw [post_iff (hother _ (by simp)) (by simp), ← h.ready]
    rfl
  · by_cases hν : ν = μ
    · rw [hν, post_from_iff (by simp), ← h.mutex]
      simp only [SyncManager.FifoMutexes.step, Function.update_self]
      have hlist := h.waiters_nodup μ
      rcases waiters_unlock (A μ) with ⟨hnil, hsame⟩ | ⟨w, hw, hone⟩
      · rw [hnil, hsame]
        simp
      · rw [hw, List.nodup_cons] at hlist
        rw [hone, hw, List.mem_cons, List.mem_singleton]
        constructor
        · intro hu
          exact ⟨.inr hu, fun heq => hlist.1 (heq ▸ hu)⟩
        · rintro ⟨heq | hu, hne⟩
          · exact absurd heq hne
          · exact hu
    · rw [post_iff (hother _ (by simpa using hν)) (by simp), ← h.mutex]
      simp only [SyncManager.FifoMutexes.step, Function.update_of_ne hν]
  · rw [post_iff (hother _ (by simp)) (by simp), h.cond]
  · rw [post_iff (hother _ (by simp)) (by simp), ← h.child]
    rfl
  · rw [post_mail_iff, ← h.mail, Node.request, hsent]
    exact List.mem_append
  · refine (h.suits_post hfrom (by simp) (by simp) u).congr ⟨rfl, rfl, rfl, fun _ => rfl, rfl⟩

end Wakes

section Conditions

variable {c : CondVars.Command}

lemma Placed.wait_allowed (h : Placed x A Q loc) (ht : ∀ κ, loc t ≠ some (.cond κ))
    (hidle : t ≠ x.idle) : Q.Allowed (.wait κ t) := by
  refine ⟨fun κ' hmem => ht κ' ((h.cond t κ').mp hmem), ?_⟩
  have hi : x.idle ∉ Q κ := fun hmem => by
    have hplace := (h.cond x.idle κ).mp hmem
    exact (h.at hplace).ne_idle (by simp) (by simp) rfl
  have htq : t ∉ Q κ := fun hmem => ht κ ((h.cond t κ).mp hmem)
  have hnodup : (t :: x.idle :: Q κ).Nodup := by
    rw [List.nodup_cons, List.nodup_cons, List.mem_cons, not_or]
    exact ⟨⟨hidle, htq⟩, hi, h.queue_nodup κ⟩
  have hcard := (hnodup.map (f := BitVec.toFin) fun _ _ => BitVec.eq_of_toFin_eq).length_le_card
  rw [List.length_map, List.length_cons, List.length_cons, Fintype.card_fin] at hcard
  omega

lemma Placed.wait (h : Placed x A Q loc) (ht : loc t = some .executing) (hidle : t ≠ x.idle) :
    Placed (x.condition (.wait κ t)) A (Q.step (.wait κ t)).2
      (Function.update loc t (some (.cond κ))) := by
  have hex := h.conds.execute (h.wait_allowed (κ := κ) (fun κ' => by simp [ht]) hidle)
  have hsent : (x.condition (.wait κ t)).mail = x.mail := List.append_nil _
  have hsame (v : ThreadId) : Unchanged x (x.condition (.wait κ t)) v :=
    ⟨rfl, rfl, rfl, fun _ => rfl, rfl⟩
  refine ⟨h.announcing, h.allocates, h.consistent, h.mutexes, hex.2, hsent ▸ h.once,
    fun u p => ?_, fun u ν => ?_, fun u κ' => ?_, fun u c => ?_, fun u => ?_, ?_⟩
  · rw [moved_iff (by simp [ht]) (by simp), ← h.ready]
    rfl
  · rw [moved_iff (by simp [ht]) (by simp), h.mutex]
  · refine (mem_push _ _ _ _ _).trans ?_
    by_cases hκ : κ' = κ
    · rw [hκ, moved_to_iff (by simp [ht]), h.cond, and_iff_right rfl]
    · rw [moved_iff (by simp [ht]) (by simpa using Ne.symm hκ), h.cond,
        or_iff_left fun hu => hκ hu.1]
  · rw [moved_iff (by simp [ht]) (by simp), ← h.child]
    rfl
  · rw [moved_iff (by simp [ht]) (by simp), hsent, h.mail]
  · refine suits_update (fun u _ => (h.suits u).congr (hsame u)) (Suits.congr ?_ (hsame t))
    exact (h.at ht).move nofun fun heq => absurd heq hidle

lemma queue_wake (hc : ∀ κ t, c ≠ .wait κ t) : ∃ κ, (∀ κ' ≠ κ, (Q.step c).2 κ' = Q κ') ∧
    Q κ = (Q.step c).1 ++ (Q.step c).2 κ := by
  cases c with
  | wait κ t => exact absurd rfl (hc κ t)
  | signal κ =>
    refine ⟨κ, fun κ' hκ => pop_of_ne _ _ hκ, ?_⟩
    simp only [CondVars.WaitQueues.step, pop_self]
    cases Q κ <;> simp
  | broadcast κ =>
    refine ⟨κ, fun κ' hκ => Function.update_of_ne hκ _ _, ?_⟩
    simp [CondVars.WaitQueues.step]

lemma Placed.woken (h : Placed x A Q loc) (hc : ∀ κ t, c ≠ .wait κ t) :
    (x.conds.execute c).1 = (Q.step c).1 ∧
      CondVars.Represents (x.conds.execute c).2.lists (Q.step c).2 := by
  refine h.conds.execute ?_
  cases c with
  | wait κ t => exact absurd rfl (hc κ t)
  | signal κ | broadcast κ => trivial

lemma Placed.woken_from (h : Placed x A Q loc) {κ : CondVars.Cvar}
    (hκ : Q κ = (Q.step c).1 ++ (Q.step c).2 κ) (hu : u ∈ (Q.step c).1) :
      loc u = some (.cond κ) := by
  rw [← h.cond, hκ]
  exact List.mem_append_left _ hu

lemma Placed.wake (h : Placed x A Q loc) (hc : ∀ κ t, c ≠ .wait κ t) :
    Placed (x.condition c) A (Q.step c).2 (post loc (x.conds.execute c).1) := by
  have hex := h.woken hc
  obtain ⟨κ, hother, hκ⟩ := queue_wake (Q := Q) hc
  have hnodup := h.queue_nodup κ
  rw [hκ, List.nodup_append] at hnodup
  have hfrom : ∀ u ∈ (Q.step c).1, loc u = some (.cond κ) := fun _ => h.woken_from hκ
  have hothers (q : Place m) (hq : q ≠ .cond κ) : ∀ u ∈ (Q.step c).1, loc u ≠ some q := by
    intro u hu heq
    rw [hfrom u hu] at heq
    exact hq (Option.some.inj heq).symm
  rw [hex.1]
  refine ⟨h.announcing, h.allocates, h.consistent, h.mutexes, hex.2, ?_, fun u p => ?_,
    fun u ν => ?_, fun u κ' => ?_, fun u c => ?_, fun u => ?_, fun u => ?_⟩
  · rw [Node.condition, hex.1]
    exact h.once_post hfrom (by simp) hnodup.1
  · rw [post_iff (hothers _ (by simp)) (by simp), ← h.ready]
    rfl
  · rw [post_iff (hothers _ (by simp)) (by simp), h.mutex]
  · by_cases hκ' : κ' = κ
    · rw [hκ', post_from_iff (by simp), ← h.cond]
      conv_rhs => rw [hκ]
      rw [List.mem_append]
      constructor
      · intro hu
        exact ⟨.inr hu, fun hfront => hnodup.2.2 u hfront u hu rfl⟩
      · rintro ⟨hfront | hu, hne⟩
        · exact absurd hfront hne
        · exact hu
    · rw [post_iff (hothers _ (by simpa using hκ')) (by simp), hother κ' hκ', h.cond]
  · rw [post_iff (hothers _ (by simp)) (by simp), ← h.child]
    rfl
  · rw [post_mail_iff, ← h.mail, Node.condition, hex.1]
    exact List.mem_append
  · refine (h.suits_post hfrom (by simp) (by simp) u).congr ⟨rfl, rfl, rfl, fun _ => rfl, rfl⟩

end Conditions

end Hthreads.Kernel
