import Hthreads.Kernel.SystemCalls

/-! The commands to the synchronization cores, by the current thread and by hardware threads, and
the wake-up messages. -/

namespace Hthreads.Kernel

open Library Library.BitFields Scheduler ThreadManager Cores Software

variable {m : ℕ} {P : Prop} {x y : Node m} {A A' : SyncManager.FifoMutexes m}
  {Q : CondVars.WaitQueues} {loc loc' : ThreadId → Option (Place m)} {t u c : ThreadId}
  {μ ν : BitVec m} {κ : CondVars.Cvar} {p : Point m} {r : Node m × Option (Answer m)}

section Owners

open SyncManager (FifoMutex FifoMutexes Holder)

lemma Grants.mono {o : Option (Place m)} (h : Grants A t p o)
    (hA : ∀ μ, Owned A μ t → Owned A' μ t) : Grants A' t p o :=
  fun μ hwants hne hμ => hA μ (h μ hwants hne hμ)

lemma owned_iff : Owned A μ t ↔ ∃ k, (A μ).holder = some k ∧ k.owner = t := Option.map_eq_some_iff

lemma owned_lock (h : Owned A ν u) : Owned (A.step (.lock μ t)).2.2 ν u := by
  by_cases hν : ν = μ
  · obtain ⟨k, hk, hu⟩ := owned_iff.mp h
    rw [hν] at hk ⊢
    simp only [Owned, FifoMutexes.step, Function.update_self, FifoMutex.lock, hk]
    split_ifs <;> simp [hu, hk]
  · simpa only [Owned, FifoMutexes.step, Function.update_of_ne hν] using h

lemma owned_tryLock (h : Owned A ν u) : Owned (A.step (.tryLock μ t)).2.2 ν u := by
  by_cases hν : ν = μ
  · obtain ⟨k, hk, hu⟩ := owned_iff.mp h
    rw [hν] at hk ⊢
    simp only [Owned, FifoMutexes.step, Function.update_self, FifoMutex.tryLock, hk]
    split_ifs <;> simp [hu, hk]
  · simpa only [Owned, FifoMutexes.step, Function.update_of_ne hν] using h

lemma owned_of_locked (h : ((A μ).lock t).1.data = 0) : Owned (A.step (.lock μ t)).2.2 μ t := by
  have hblock : SyncManager.blockData ≠ 0 := by decide
  have herror : SyncManager.errorData ≠ 0 := by decide
  simp only [Owned, FifoMutexes.step, Function.update_self]
  rw [FifoMutex.lock] at h ⊢
  cases hk : (A μ).holder with
  | none => rfl
  | some k =>
    simp only [hk] at h ⊢
    split_ifs at h ⊢ with hown hagain
    · exact congrArg some hown.1
    · exact absurd h herror
    · exact absurd h hblock

lemma owned_unlock_of_ne (hν : ν ≠ μ) : Owned (A.step (.unlock μ t)).2.2 ν u ↔ Owned A ν u := by
  simp only [Owned, FifoMutexes.step, Function.update_of_ne hν]

lemma owned_of_handed (h : u ∈ (A μ).unlock.2.1) : Owned (A.step (.unlock μ t)).2.2 μ u := by
  simp only [Owned, FifoMutexes.step, Function.update_self]
  rw [FifoMutex.unlock] at h ⊢
  cases hk : (A μ).holder with
  | none =>
    simp only [hk] at h
    exact absurd h List.not_mem_nil
  | some k =>
    simp only [hk] at h ⊢
    split_ifs at h ⊢
    · exact absurd h List.not_mem_nil
    · cases hw : k.waiters with
      | nil =>
        simp only [hw] at h
        exact absurd h List.not_mem_nil
      | cons w ws =>
        simp only [hw, List.mem_singleton] at h ⊢
        rw [h]
        rfl

end Owners

section Requests

lemma Sound.tryLock (h : Sound P x A Q loc) (ht : ∀ μ, loc t ≠ some (.mutex μ))
    (hn : Nestable x.mutexes (.tryLock μ t)) :
    Sound P (x.request (.tryLock μ t)) (A.step (.tryLock μ t)).2.2 Q loc :=
  h.aside (h.toPlaced.tryLock ht hn) rfl rfl (fun _ => Iff.rfl)
    (fun _ _ => ⟨⟨rfl, rfl, rfl, fun _ => rfl, rfl⟩, rfl, id⟩)
    fun hP u => (h.granted hP u).mono fun _ => owned_tryLock

lemma Sound.unlock (h : Sound P x A Q loc) (ht : (x.point t).wants = none)
    (hown : P → ∀ u, Owned A μ u → u = t) :
    Sound P (x.request (.unlock μ t)) (A.step (.unlock μ t)).2.2 Q
      (post loc ((SyncManager.Request.unlock μ t).effect x.mutexes).sent) := by
  have hplaced := h.toPlaced.unlock (μ := μ) (t := t)
  have hsent := h.unlock_sent (μ := μ) (t := t)
  rw [hsent] at hplaced ⊢
  have hfrom : ∀ u ∈ (A μ).unlock.2.1, loc u = some (.mutex μ) := fun _ => h.handed
  refine h.aside hplaced rfl rfl (fun u => post_iff (fun v hv => ?_) (by simp)) (fun u _ => ?_)
    fun hP u => ?_
  · rw [hfrom v hv]
    simp
  · exact ⟨⟨rfl, rfl, rfl, fun _ => rfl, rfl⟩, rfl, post_of_none hfrom⟩
  · have hgrant := h.granted hP u
    intro ν hwants hne hloc
    by_cases hu : u ∈ (A μ).unlock.2.1
    · by_cases hν : ν = μ
      · rw [hν]
        exact owned_of_handed hu
      · rw [owned_unlock_of_ne hν]
        rw [hfrom u hu] at hgrant
        exact hgrant ν hwants (Option.some_ne_none _) (by simpa using Ne.symm hν)
    · rw [post, if_neg hu] at hne hloc
      have hold := hgrant ν hwants hne hloc
      by_cases hν : ν = μ
      · rw [hν] at hold
        have hself : (x.point u).wants = none := by rw [hown hP u hold, ht]
        cases hself.symm.trans hwants
      · exact (owned_unlock_of_ne hν).mpr hold

lemma Sound.wake (h : Sound P x A Q loc) {c : CondVars.Command} (hc : ∀ κ t, c ≠ .wait κ t) :
    Sound P (x.condition c) A (Q.step c).2 (post loc (x.conds.execute c).1) := by
  have hplaced := h.toPlaced.wake hc
  have hsent := (h.woken hc).1
  obtain ⟨κ, -, hκ⟩ := queue_wake (Q := Q) hc
  rw [hsent] at hplaced ⊢
  have hfrom : ∀ u ∈ (Q.step c).1, loc u = some (.cond κ) := fun _ => h.woken_from hκ
  refine h.aside hplaced rfl rfl (fun u => post_iff (fun v hv => ?_) (by simp)) (fun u _ => ?_)
    fun hP u => ?_
  · rw [hfrom v hv]
    simp
  · exact ⟨⟨rfl, rfl, rfl, fun _ => rfl, rfl⟩, rfl, post_of_none hfrom⟩
  · have hgrant := h.granted hP u
    rw [post]
    split_ifs with hu
    · rw [hfrom u hu] at hgrant
      exact hgrant.moved (by simp) (by simp)
    · exact hgrant

lemma Placed.lock_data (h : Placed x A Q loc) (ht : ∀ μ, loc t ≠ some (.mutex μ))
    (hn : Nestable x.mutexes (.lock μ t)) :
    ((SyncManager.Request.lock μ t).effect x.mutexes).data = ((A μ).lock t).1.data :=
  (h.mutexes.lock (h.lock_allowed ht hn)).data

lemma Sound.lock (h : Sound P x A Q loc) (hs : x.stage.executes = true) (hidle : x.cpu ≠ x.idle)
    (hn : Nestable x.mutexes (.lock μ x.cpu)) (hp : p.wants = some μ) : Ends P (x.lock μ p) := by
  have hcpu := h.at_cpu hs
  have hlive := h.current (Stage.gone_of_executes hs)
  have hsuit : Suits x x.cpu (some (.mutex μ)) :=
    (h.at hcpu).move nofun fun heq => absurd heq hidle
  have hplaced := h.toPlaced.lock (.inl hcpu) hsuit hn
  have hdata := h.lock_data (fun ν => by simp [hcpu]) hn
  simp only [Node.lock, show htMutexBlock = SyncManager.blockData from rfl]
  split_ifs with hblocked hok
  · rw [if_pos hblocked] at hplaced
    refine ((hplaced.goto (.asleep p)).halted (fun u => h.vacated (by simp)) rfl rfl
      hlive hidle h.rest
      fun hP t => ?_).ends
    by_cases ht : t = x.cpu
    · rw [ht, Function.update_self]
      intro ν hwants _ hne
      have hpoint : Node.point ((x.request (.lock μ x.cpu)).goto (.asleep p)) x.cpu = p :=
        if_pos rfl
      rw [hpoint, hp] at hwants
      cases hwants
      exact absurd rfl hne
    · have hpoint : Node.point ((x.request (.lock μ x.cpu)).goto (.asleep p)) t = x.saved t :=
        if_neg ht
      rw [hpoint, Function.update_of_ne ht]
      exact (h.grants hP ht).mono fun _ => owned_lock
  · rw [if_neg hblocked] at hplaced
    refine hplaced.resume (fun t => h.executing_iff hs) h.rest (fun heq => absurd heq hidle)
      (fun hP t ht => (h.grants hP ht).mono fun _ => owned_lock) fun _ ν hwants _ _ => ?_
    rw [hp] at hwants
    cases hwants
    exact owned_of_locked (hdata.symm.trans hok)
  · rw [if_neg hblocked] at hplaced
    exact ((hplaced.goto .user).sound (fun t => h.executing_iff hs) rfl (absurd rfl) h.rest
      (fun _ hc => by rcases hc with hc | hc <;> cases hc)
      fun hP t ht => (h.grants hP ht).mono fun _ => owned_lock).ends

end Requests

section Waiting

lemma Sound.wait (h : Sound P x A Q loc) (hs : x.stage = .user) (hidle : x.cpu ≠ x.idle) :
    Ends P ((x.condition (.wait κ x.cpu)).goto (.waited κ μ), none) := by
  have hplaced := h.toPlaced.wait (κ := κ) (h.at_cpu (hs ▸ rfl)) hidle
  refine ((hplaced.goto (.waited κ μ)).halted (fun u => h.vacated (by simp)) rfl rfl
    (h.current (hs ▸ rfl)) hidle h.rest fun hP t => ?_).ends
  rw [Node.point]
  split_ifs with ht
  · exact grants_of_not_waiting rfl
  · have hne : t ≠ x.cpu := ht
    rw [Function.update_of_ne hne]
    exact h.grants hP hne

lemma Sound.release (h : Sound P x A Q loc) (hs : x.stage = .waited κ μ)
    (hown : P → ∀ u, Owned A μ u → u = x.cpu) :
    Ends P ((x.request (.unlock μ x.cpu)).goto (.asleep (.waiting κ μ)), none) := by
  have hpoint : x.point x.cpu = .user := by rw [Node.point, if_pos rfl, hs]; rfl
  have hafter := h.unlock (hpoint ▸ rfl) hown
  have hstage : (x.request (.unlock μ x.cpu)).stage = .waited κ μ := hs
  refine ((hafter.goto (.asleep (.waiting κ μ))).halted
    (fun u => hafter.not_executing (hstage ▸ rfl)) rfl rfl (hafter.current (hstage ▸ rfl))
    (hafter.busy (by simp [hstage])) hafter.rest fun hP t => ?_).ends
  rw [Node.point]
  split_ifs with ht
  · exact grants_of_not_waiting rfl
  · exact hafter.grants hP ht

end Waiting

section Hardware

lemma awake_iff : x.awake t = true ↔ x.books.running t = true ∧ x.started t = true ∧
    x.software t = false ∧ x.saved t = .user := by
  simp [Node.awake, and_assoc]

lemma apart (hsoft : x.software t = false) (hstart : x.started t = true)
    (hu : x.software u = true ∨ x.started u = false) : u ≠ t := by
  rintro rfl
  rw [hsoft, hstart] at hu
  rcases hu with hu | hu <;> cases hu

lemma Placed.save_absent (h : Placed x A Q loc) (ht : loc t = none) (p : Point m) :
    Placed (x.save t p) A Q loc := by
  refine { h with suits := fun u => ?_ }
  by_cases hu : u = t
  · have hsuit := h.suits u
    rw [hu, ht] at hsuit ⊢
    exact ⟨nofun, nofun, hsuit.placed, fun _ _ => rfl, hsuit.idle⟩
  · exact (h.suits u).congr ⟨rfl, rfl, rfl, fun _ => Function.update_of_ne hu _ _, rfl⟩

lemma Sound.hardware_absent (h : Sound P x A Q loc) (ha : x.awake t = true) :
    loc t = none ∧ t ≠ x.cpu ∧ t ≠ x.idle := by
  obtain ⟨-, -, hsoft, hsaved⟩ := awake_iff.mp ha
  refine ⟨(h.suits t).awake hsoft hsaved, ?_, ?_⟩
  · rintro rfl
    rw [h.software] at hsoft
    cases hsoft
  · rintro rfl
    rw [((h.suits x.idle).idle rfl).1.2.2] at hsoft
    cases hsoft

lemma Sound.hardware_point (h : Sound P x A Q loc) (ha : x.awake t = true) :
    (x.point t).wants = none := by
  rw [Node.point, if_neg (h.hardware_absent ha).2.1, (awake_iff.mp ha).2.2.2]
  rfl

lemma Sound.hardwareLock (h : Sound P x A Q loc) (ha : x.awake t = true)
    (hn : Nestable x.mutexes (.lock μ t)) (hr : x.perform t (.lock μ) = some y) :
    Ends P (y, none) := by
  obtain ⟨hrun, hstart, hsoft, hsaved⟩ := awake_iff.mp ha
  obtain ⟨hnone, hcpu, hidle⟩ := h.hardware_absent ha
  have hwaits := h.toPlaced.save_absent hnone (.locking μ)
  have hsuit : Suits (x.save t (.locking μ)) t (some (.mutex μ)) := by
    refine ⟨fun _ _ => ⟨hrun, hstart⟩, ?_, fun _ _ => Option.some_ne_none _, fun _ hsame => ?_,
      fun heq => absurd heq hidle⟩
    · intro q hq hsoft
      cases hq
      cases hsoft
    · have hself : (x.save t (.locking μ)).saved t = .locking μ := Function.update_self _ _ _
      rw [hself] at hsame
      cases hsame
  have hplaced := hwaits.lock (.inr hnone) hsuit hn
  have hdata : ((SyncManager.Request.lock μ t).effect (x.save t (.locking μ)).mutexes).data =
    ((SyncManager.Request.lock μ t).effect x.mutexes).data := rfl
  rw [hdata] at hplaced
  simp only [Node.perform, show htMutexBlock = SyncManager.blockData from rfl] at hr
  split_ifs at hr hplaced with hblocked
  · cases hr
    obtain ⟨z, hz⟩ : ∃ z, (x.request (.lock μ t)).save t (.locking μ) = z := ⟨_, rfl⟩
    have hsaved' {u : ThreadId} (hu : u ≠ t) : z.saved u = x.saved u := by
      rw [← hz]
      exact Function.update_of_ne hu _ _
    refine (h.aside (y := (x.request (.lock μ t)).save t (.locking μ)) hplaced rfl rfl (fun u => ?_)
      (fun u hu => ?_) fun hP u => ?_).ends
    · exact moved_iff (by simp [hnone]) (by simp) u
    · have hne := apart hsoft hstart hu
      exact ⟨⟨rfl, rfl, rfl, fun _ => hz ▸ hsaved' hne, rfl⟩, hz ▸ hsaved' hne,
        fun hu' => (Function.update_of_ne hne _ _).trans hu'⟩
    · by_cases hu : u = t
      · rw [hu, Function.update_self]
        intro ν hwants _ hne
        have hself : Node.point ((x.request (.lock μ t)).save t (.locking μ)) t = .locking μ :=
          (if_neg hcpu).trans (Function.update_self _ _ _)
        rw [hself] at hwants
        cases hwants
        exact absurd rfl hne
      · have hgrant := h.granted hP u
        have hpoint : z.point u = x.point u := by
          rw [Node.point, Node.point, hsaved' hu, ← hz]
          rfl
        rw [← hpoint, ← Function.update_of_ne hu (some (.mutex μ)) loc, ← hz] at hgrant
        exact hgrant.mono fun _ => owned_lock
  · cases hr
    have hback := hplaced.save_absent hnone .user
    have hnode : ((x.save t (.locking μ)).request (.lock μ t)).save t .user =
        x.request (.lock μ t) := by
      have hsaved' :
          Function.update (Function.update x.saved t (.locking μ)) t .user = x.saved := by
        rw [Function.update_idem, ← hsaved, Function.update_eq_self]
      exact congrArg (fun s => ({ x.request (.lock μ t) with saved := s } : Node m)) hsaved'
    rw [hnode] at hback
    exact (h.aside hback rfl rfl (fun _ => Iff.rfl)
      (fun _ _ => ⟨⟨rfl, rfl, rfl, fun _ => rfl, rfl⟩, rfl, id⟩)
      fun hP u => (h.granted hP u).mono fun _ => owned_lock).ends

lemma Sound.hardwareExit (h : Sound P x A Q loc) (ha : x.awake t = true)
    (hr : x.perform t .exit = some y) : Ends P (y, none) := by
  obtain ⟨hrun, hstart, hsoft, hsaved⟩ := awake_iff.mp ha
  obtain ⟨hnone, hcpu, hidle⟩ := h.hardware_absent ha
  obtain ⟨-, loc', hplaced, hgone, hother⟩ := h.toPlaced.exit (.inr hnone) hrun hidle
  obtain ⟨b, w, hb⟩ : ∃ b w, x.books.exit t = (b, w) := ⟨_, _, rfl⟩
  have heffect : (Cores.Command.exit t).effect x.books = some (b, w) := congrArg some hb
  have hbooks : b = (x.books.exit t).1 := (congrArg Prod.fst hb).symm
  have hcpu' : b.cpu = x.cpu := hbooks ▸ exit_cpu _ _
  obtain ⟨hidle', hparam⟩ := exit_keeps t x.books
  rw [← hbooks] at hidle' hparam hplaced
  rw [Node.perform, manager_eq heffect] at hr
  cases hr
  have hrunning {u : ThreadId} (hu : u ≠ t) : b.running u = x.books.running u := by
    have hkeep : b.running u = (x.books.exited t).running u := hbooks ▸ running_of_entry exit_entry
    rw [hkeep, running_exited, bne_iff_ne.mpr hu, Bool.and_true]
  refine (h.aside hplaced hcpu' rfl (fun u => ?_) (fun u hu => ?_) fun hP u => ?_).ends
  · by_cases hu : u = t
    · rw [hu, hgone, hnone]
    · rcases hother u hu with hsame | ⟨hchild, p, hready⟩
      · rw [hsame]
      · rw [hchild, hready]
        exact iff_of_false (by simp) (by simp)
  · have hne := apart hsoft hstart hu
    refine ⟨⟨hrunning hne, rfl, ?_, fun _ => rfl, hidle'⟩, rfl, fun hu' => ?_⟩
    · exact congrFun (congrArg (isSoftwareParam ∘ ·) hparam) u
    · rcases hother u hne with hsame | ⟨hchild, -⟩
      · rw [hsame, hu']
      · rw [hchild] at hu'
        cases hu'
  · by_cases hu : u = t
    · rw [hu, hgone]
      exact fun μ _ hne => absurd rfl hne
    · have hgrant := h.granted hP u
      have hpoint : Node.point { x with books := b } u = x.point u := by
        rw [Node.point, Node.point, show Node.cpu { x with books := b } = x.cpu from hcpu']
      rw [hpoint]
      rcases hother u hu with hsame | ⟨hchild, -⟩
      · rw [hsame]
        exact hgrant
      · rw [hchild] at hgrant
        exact hgrant.moved (by simp) (by simp)

/-- The thread manager accepts a wake-up message. -/
lemma Placed.delivered (h : Placed x A Q loc) (ht : loc t = some .mail) :
    (x.books.add t).1 = x.books.enqueue t := by
  have hrun := ((h.at ht).alive _ rfl).1
  have hq := h.unqueued (t := t) fun p => by simp [ht]
  rw [add_eq, hrun, hq]
  rfl

lemma Sound.deliver (h : Sound P x A Q loc) (hr : x.deliver t = some y) : Ends P (y, none) := by
  rw [Node.deliver] at hr
  split at hr
  next hmem =>
    have ht := (h.mail t).mp hmem
    obtain ⟨hrun, hstart⟩ := (h.at ht).alive _ rfl
    have hidle : t ≠ x.idle := (h.at ht).ne_idle (by simp) (by simp)
    obtain ⟨b, w, hb⟩ : ∃ b w, x.books.add t = (b, w) := ⟨_, _, rfl⟩
    have heffect : (Cores.Command.add t).effect x.books = some (b, w) := congrArg some hb
    have hbooks : b = x.books.enqueue t := (congrArg Prod.fst hb).symm.trans (h.delivered ht)
    rw [manager_eq heffect, Option.map_some, hbooks] at hr
    cases hsoft : x.software t with
    | true =>
      simp only [hsoft, if_true] at hr
      cases hr
      have hsuit : Suits { x with saved := x.saved } t (some .executing) :=
        (h.at ht).move (fun _ => hsoft) fun heq => absurd heq hidle
      have hmoved := h.unmail ht (o := some .executing) (fun q hq => (Option.some.inj hq).symm)
        (fun _ _ => rfl) hsuit
      have hplaced := hmoved.enqueue (Function.update_self _ _ _)
      rw [Function.update_idem] at hplaced
      have hsame (u : ThreadId) : Unchanged x { x with
          books := x.books.enqueue t
          mail := x.mail.erase t } u :=
        ⟨rfl, rfl, congrFun (congrArg (isSoftwareParam ∘ ·) (enqueue_param _ t)) u, fun _ => rfl,
          enqueue_idle _ _⟩
      refine (h.aside hplaced rfl rfl (fun u => ?_) (fun u _ => ?_) fun hP u => ?_).ends
      · exact moved_iff (by simp [ht]) (by simp) u
      · refine ⟨hsame u, rfl, fun hnone => ?_⟩
        rw [Function.update_of_ne, hnone]
        rintro rfl
        rw [ht] at hnone
        cases hnone
      · have hgrant := h.granted hP u
        by_cases hu : u = t
        · rw [hu, ht] at hgrant
          rw [hu, Function.update_self]
          exact hgrant.moved (by simp) (by simp)
        · rw [Function.update_of_ne hu]
          exact hgrant
    | false =>
      have hskip : x.books.enqueue t = x.books := by
        have hsame : x.books.ready.enqueue t = x.books.ready :=
          if_neg (Bool.eq_false_iff.mp hsoft)
        rw [Books.enqueue, hsame]
      simp only [hsoft, Bool.false_eq_true, if_false, hskip] at hr
      cases hr
      have hsuit : Suits { x with saved := Function.update x.saved t .user } t none :=
        ⟨by simp, by simp, fun hlive => absurd (hsoft.symm.trans hlive.2.2) Bool.false_ne_true,
          fun _ _ => rfl, fun heq => absurd heq hidle⟩
      have hplaced :=
        h.unmail ht (o := none) (by simp) (fun u hu => Function.update_of_ne hu _ _) hsuit
      have hcpu : t ≠ x.cpu := by
        rintro rfl
        rw [h.software] at hsoft
        cases hsoft
      refine (h.aside hplaced rfl rfl (fun u => ?_) (fun u hu => ?_) fun hP u => ?_).ends
      · exact moved_iff (by simp [ht]) (by simp) u
      · have hne := apart hsoft hstart hu
        exact ⟨⟨rfl, rfl, rfl, fun _ => Function.update_of_ne hne _ _, rfl⟩,
          Function.update_of_ne hne _ _, fun hnone => (Function.update_of_ne hne _ _).trans hnone⟩
      · by_cases hu : u = t
        · rw [hu, Function.update_self]
          exact fun μ _ hne => absurd rfl hne
        · have hgrant := h.granted hP u
          have hpoint : Node.point { x with
              mail := x.mail.erase t
              saved := Function.update x.saved t .user } u = x.point u := by
            simp only [Node.point, Function.update_of_ne hu]
            rfl
          rw [hpoint, Function.update_of_ne hu]
          exact hgrant
  next => cases hr

end Hardware

end Hthreads.Kernel
