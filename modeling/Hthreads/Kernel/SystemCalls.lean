import Hthreads.Kernel.Soundness

/-! The steps of the current thread keep the invariant. -/

namespace Hthreads.Kernel

open Library Library.BitFields Scheduler ThreadManager Cores Software

variable {m : ℕ} {P : Prop} {x y : Node m} {A : SyncManager.FifoMutexes m} {Q : CondVars.WaitQueues}
  {loc loc' : ThreadId → Option (Place m)} {t u c : ThreadId} {p : Point m}
  {r : Node m × Option (Answer m)}

section Processor

lemma manager_eq {cmd : Cores.Command} {b : Books} {w : Word}
    (he : cmd.effect x.books = some (b, w)) : x.manager cmd = some ({ x with books := b }, w) := by
  rw [Node.manager, he]
  rfl

lemma Sound.grants (h : Sound P x A Q loc) (hP : P) (ht : t ≠ x.cpu) :
    Grants A t (x.saved t) (loc t) := by
  have hgrant := h.granted hP t
  rwa [Node.point, if_neg ht] at hgrant

lemma Sound.vacated (h : Sound P x A Q loc) {o : Option (Place m)} (ho : o ≠ some .executing) :
    Function.update loc x.cpu o u ≠ some .executing := by
  rw [ne_eq, moved_from_iff ho, h.executing]
  exact fun hu => hu.2 hu.1.1

lemma Sound.sleep (h : Sound P x A Q loc) (hs : x.stage = .asleep p)
    (hr : x.runSched true p = some r) : Ends P r := by
  have hno (u : ThreadId) : loc u ≠ some .executing := h.not_executing (hs ▸ rfl)
  obtain ⟨hvalid, hlive, -⟩ := h.announced hno
  rw [Node.runSched, runSched_run true hvalid hlive.1, Option.map_some] at hr
  cases hr
  refine h.switch hno h.software h.rest (fun hidle => ?_) nofun fun hP t => ?_
  · exact absurd hidle (h.busy (hs ▸ nofun))
  · have hgrant := h.granted hP t
    rwa [Node.point, hs] at hgrant

lemma Sound.leave (h : Sound P x A Q loc) (hs : x.stage = .leaving)
    (hr : x.runSched false .user = some r) : Ends P r := by
  have hno (u : ThreadId) : loc u ≠ some .executing := h.not_executing (hs ▸ rfl)
  obtain ⟨hvalid, hlive, -⟩ := h.announced hno
  rw [Node.runSched, runSched_run false hvalid hlive.1, Option.map_some] at hr
  cases hr
  refine h.switch hno h.software h.rest (fun _ => rfl) (fun _ => (h.gone (hs ▸ rfl)).2)
    fun hP t => ?_
  have hgrant := h.granted hP t
  rwa [Node.point, hs] at hgrant

lemma Sound.idleNext (h : Sound P x A Q loc) (hs : x.stage = .user) (hidle : x.cpu = x.idle)
    (hr : x.runSched true .user = some r) : Ends P r := by
  have hcpu := h.at_cpu (hs ▸ rfl)
  have hrest : Placed x A Q (Function.update loc x.cpu none) := by
    have hleft (q : Place m) (hq : q ≠ .executing) : loc x.cpu ≠ some q := by
      rw [hcpu]
      exact fun heq => hq (Option.some.inj heq).symm
    refine ⟨h.announcing, h.allocates, h.consistent, h.mutexes, h.conds, h.once, fun u p => ?_,
      fun u μ => ?_, fun u κ => ?_, fun u c => ?_, fun u => ?_,
      suits_update (fun u _ => h.suits u) ?_⟩
    · rw [moved_iff (hleft _ (by simp)) (by simp), h.ready]
    · rw [moved_iff (hleft _ (by simp)) (by simp), h.mutex]
    · rw [moved_iff (hleft _ (by simp)) (by simp), h.cond]
    · rw [moved_iff (hleft _ (by simp)) (by simp), h.child]
    · rw [moved_iff (hleft _ (by simp)) (by simp), h.mail]
    · refine ⟨nofun, nofun, fun _ hne => absurd hidle hne, fun _ _ => rfl, fun heq => ⟨?_, nofun⟩⟩
      exact ((h.suits x.cpu).idle heq).1
  have hno (u : ThreadId) := h.vacated (u := u) (o := none) (by simp)
  obtain ⟨hvalid, hlive, -⟩ := hrest.announced hno
  rw [Node.runSched, runSched_run true hvalid hlive.1, Option.map_some] at hr
  cases hr
  refine hrest.switch hno h.software h.rest (fun _ => rfl) nofun fun hP t => ?_
  split_ifs with ht
  · exact grants_of_not_waiting rfl
  · rw [Function.update_of_ne ht]
    exact h.grants hP ht

lemma Sound.goes (h : Sound P x A Q loc) (hs : x.stage.executes = true) {s : Stage m}
    (hs' : s.executes = true) (hidle : s ≠ .user → x.cpu ≠ x.idle)
    (hfresh : ∀ c, s ≠ .created c ∧ s ≠ .prepared c) : Sound P (x.goto s) A Q loc :=
  (h.goto s).sound (fun _ => h.executing_iff hs) hs' hidle h.rest
    (fun c hc => (hc.elim (hfresh c).1 (hfresh c).2).elim) fun hP _ ht => h.grants hP ht

lemma Sound.user (h : Sound P x A Q loc) (hs : x.stage.executes = true) :
    Sound P (x.goto .user) A Q loc :=
  h.goes hs rfl (absurd rfl) fun _ => ⟨nofun, nofun⟩

lemma Sound.yield (h : Sound P x A Q loc) (hs : x.stage = .user) (hr : x.yield = some r) :
    Ends P r := by
  have hcpu := h.at_cpu (hs ▸ rfl)
  have hrun := (h.current (hs ▸ rfl)).1
  rw [Node.yield, syscallYield_run hrun] at hr
  split_ifs at hr
  · cases hr
    exact (h.user (hs ▸ rfl)).ends
  · cases hr
    have hplaced := h.enqueue hcpu
    have hidle : Node.idle { x with books := x.books.enqueue x.cpu } = x.idle :=
      (idle_announced (h.announcing.enqueue (h.unqueued fun p => by simp [hcpu]))).1
    have hsoft : Node.software { x with books := x.books.enqueue x.cpu } x.cpu = true :=
      (congrFun (congrArg (isSoftwareParam ∘ ·) (enqueue_param _ _)) x.cpu).trans h.software
    refine hplaced.switch (fun u => h.vacated (by simp)) hsoft (hidle.symm ▸ h.rest) (fun _ => rfl)
      nofun fun hP t => ?_
    split_ifs with ht
    · exact grants_of_not_waiting rfl
    · have hne : t ≠ x.cpu := ht
      rw [Function.update_of_ne hne]
      exact h.grants hP hne

end Processor

section Threads

lemma create_cpu (command : BitVec 6) (b : Books) : (b.create command).1.cpu = b.cpu := by
  rw [Books.create]
  split <;> rfl

lemma join_cpu (tid : ThreadId) (b : Books) : (b.join tid).1.cpu = b.cpu := by
  rw [Books.join]
  split_ifs <;> rfl

lemma clear_cpu (tid : ThreadId) (b : Books) : (b.clear tid).1.cpu = b.cpu := by
  simp only [Books.clear, Books.deallocate]
  split_ifs <;> rfl

lemma enqueue_idle (T : Tables) (tid : ThreadId) :
    (T.enqueue tid).idleThreadId = T.idleThreadId := by
  simp only [Tables.enqueue, Tables.link]
  split_ifs <;> rfl

lemma exit_keeps (tid : ThreadId) (b : Books) :
    (b.exit tid).1.ready.idleThreadId = b.ready.idleThreadId ∧
      (b.exit tid).1.ready.param = b.ready.param := by
  rw [exit_eq]
  split_ifs
  · exact ⟨enqueue_idle _ _, enqueue_param _ _⟩
  · exact ⟨rfl, rfl⟩

lemma exit_cpu (tid : ThreadId) (b : Books) : (b.exit tid).1.cpu = b.cpu := by
  rw [exit_eq]
  split_ifs <;> rfl

lemma Sound.create (h : Sound P x A Q loc) (hs : x.stage = .user) (hidle : x.cpu ≠ x.idle)
    {detached : Bool} (hr : x.create detached = some r) : Ends P r := by
  obtain ⟨command, hcommand⟩ : ∃ command, (if detached then Cores.Command.createD
      else .createJ).effect x.books = some (x.books.create command) := by
    cases detached <;> exact ⟨_, rfl⟩
  obtain ⟨b, w, hb⟩ : ∃ b w, x.books.create command = (b, w) := ⟨_, _, rfl⟩
  rw [Node.create, manager_eq (hcommand.trans (congrArg some hb)), Option.map_some] at hr
  cases hfree : bit x.books.nextId 0 with
  | true =>
    have hfull : x.books.create command = (x.books, 1) := by rw [Books.create, if_pos hfree]
    obtain ⟨rfl, rfl⟩ := Prod.mk.inj (hb.symm.trans hfull)
    cases hr
    exact h.ends
  | false =>
    obtain ⟨c, (hword : (x.books.create command).2 = _), hnone, hrun, -, hplaced⟩ :=
      h.toPlaced.create hfree
    have hid : (extractId (0#23 ++ c ++ 0#1)).setWidth 8 = c := by simp [extractId_created]
    have hcpu : b.cpu = x.cpu := (congrArg (Books.cpu ·.1) hb).symm.trans (create_cpu _ _)
    have hready : b.ready = x.books.ready :=
      (congrArg (Books.ready ·.1) hb).symm.trans (create_ready command)
    rw [hb] at hword hrun hplaced
    obtain rfl : w = 0#23 ++ c ++ 0#1 := hword
    simp only [hasError_named, Bool.false_eq_true, if_false, hid] at hr
    cases hr
    refine (Placed.sound (hplaced.goto (.created c)) (fun t => ?_) rfl (fun _ => ?_) ?_
      (fun c' hc => ?_) fun hP t ht => ?_).ends
    · exact (h.executing_iff (hs ▸ rfl)).trans (Eq.congr_right hcpu.symm)
    · simpa only [Node.goto, Node.cpu, Node.idle, hready, hcpu] using hidle
    · simp only [Node.goto, Node.idle, hready, Function.update_apply]
      split_ifs
      · rfl
      · exact h.rest
    · obtain rfl : c = c' := by
        rcases hc with hc | hc <;> cases hc
        rfl
      exact ⟨hnone, hrun, Function.update_self _ _ _, Function.update_self _ _ _⟩
    · by_cases htc : t = c
      · rw [htc, hnone]
        exact fun μ _ hne => absurd rfl hne
      · have hgrant := h.grants hP fun heq => ht (heq.trans hcpu.symm)
        rwa [← Function.update_of_ne htc .user x.saved] at hgrant

lemma Sound.param (h : Sound P x A Q loc) (hs : x.stage = .created c) (w : Word) :
    Ends P (x.param c w, none) := by
  obtain ⟨hnone, hrun, hstart, hsaved⟩ := h.fresh c (.inl hs)
  have hplaced := h.toPlaced.param hnone hstart w
  have hidle : (x.param c w).idle = x.idle := (idle_announced (h.announcing_param hnone w)).1
  refine (hplaced.sound (fun t => h.executing_iff (hs ▸ rfl)) rfl (fun _ => ?_) ?_ (fun c' hc => ?_)
    fun hP t ht => h.grants hP ht).ends
  · rw [hidle]
    exact h.busy (hs ▸ nofun)
  · rw [hidle]
    exact h.rest
  · obtain rfl : c = c' := by
      rcases hc with hc | hc <;> cases hc
      rfl
    exact ⟨hnone, hrun, hstart, hsaved⟩

lemma Sound.add (h : Sound P x A Q loc) (hs : x.stage = .prepared c) (hr : x.add c = some r) :
    Ends P r := by
  obtain ⟨hnone, hrun, hstart, hsaved⟩ := h.fresh c (.inr hs)
  obtain ⟨hbooks, herror, loc', hplaced, hother, hc⟩ := h.toPlaced.add hnone hrun hstart
  obtain ⟨b, w, hb⟩ : ∃ b w, x.books.add c = (b, w) := ⟨_, _, rfl⟩
  have heffect : (Cores.Command.add c).effect x.books = some (b, w) := congrArg some hb
  rw [hb] at hbooks herror
  obtain rfl : b = x.books.enqueue c := hbooks
  rw [Node.add, manager_eq heffect, Option.map_some] at hr
  simp only [show hasError w = false from herror, Bool.false_eq_true, if_false] at hr
  cases hr
  have hcpu : c ≠ x.cpu := by
    rintro rfl
    have hexec := h.at_cpu (hs ▸ rfl)
    rw [hnone] at hexec
    cases hexec
  have hidle : Node.idle { x with books := x.books.enqueue c } = x.idle :=
    (idle_announced (h.announcing.enqueue (h.unqueued fun p => by simp [hnone]))).1
  refine (Placed.sound (hplaced.goto .user) (fun t => ?_) rfl (absurd rfl) ?_
    (fun _ hc => by rcases hc with hc | hc <;> cases hc) fun hP t ht => ?_).ends
  · by_cases ht : t = c
    · rw [ht]
      exact iff_of_false hc hcpu
    · rw [hother t ht]
      exact h.executing_iff (hs ▸ rfl)
  · exact hidle.symm ▸ h.rest
  · by_cases htc : t = c
    · have hwants : (x.saved t).wants = none := by rw [htc, hsaved]; rfl
      exact grants_of_not_waiting hwants
    · rw [hother t htc]
      exact h.grants hP ht

lemma Sound.join (h : Sound P x A Q loc) (hs : x.stage = .user) (hidle : x.cpu ≠ x.idle)
    (hr : x.join c = some r) : Ends P r := by
  have hcpu := h.at_cpu (hs ▸ rfl)
  obtain ⟨b, w, hb⟩ : ∃ b w, x.books.join c = (b, w) := ⟨_, _, rfl⟩
  have heffect : (Cores.Command.join c).effect x.books = some (b, w) := congrArg some hb
  rw [Node.join, manager_eq heffect, Option.map_some] at hr
  have hcases := h.toPlaced.join hcpu hidle c
  rw [hb] at hcases
  rcases hcases with ⟨hphase, hplaced⟩ | ⟨hphase, hbooks⟩
  · have hjoin : b = (x.books.join c).1 := (congrArg Prod.fst hb).symm
    have hcpu' : Node.cpu { x with books := b } = x.cpu := by
      rw [hjoin]
      exact join_cpu c x.books
    have hidle' : Node.idle { x with books := b } = x.idle := by
      rw [hjoin]
      exact congrArg Tables.idleThreadId (join_ready c)
    simp only at hphase
    simp only [hphase] at hr
    cases hr
    refine ((hplaced.goto (.asleep (.joining c))).halted (fun u => h.vacated (by simp))
      rfl rfl ?_ ?_ ?_
      fun hP t => ?_).ends
    · have hsuit := hplaced.at (Function.update_self _ _ _)
      obtain ⟨hrun, hstart⟩ := hsuit.alive _ rfl
      exact hcpu'.symm ▸ ⟨hrun, hstart, hsuit.software _ rfl rfl⟩
    · exact hcpu'.symm ▸ hidle'.symm ▸ hidle
    · exact hidle'.symm ▸ h.rest
    · rw [Node.point]
      split_ifs with ht
      · exact grants_of_not_waiting rfl
      · have hne : t ≠ x.cpu := fun heq => ht (heq.trans hcpu'.symm)
        rw [Function.update_of_ne hne]
        exact h.grants hP hne
  · obtain rfl : b = x.books := hbooks
    simp only at hr
    split at hr
    · next heq => exact absurd heq hphase
    · cases hr
      exact (h.goes (s := .reap c) (hs ▸ rfl) rfl (fun _ => hidle) fun _ => by simp).ends
    · cases hr
      exact h.ends

lemma Sound.reap (h : Sound P x A Q loc) (hs : x.stage = .reap c) (hr : x.reap c = some r) :
    Ends P r := by
  rw [Node.reap] at hr
  split_ifs at hr
  · cases hr
    exact (h.user (hs ▸ rfl)).ends
  · have heffect : (Cores.Command.clear c).effect x.books = some (x.books.clear c) := rfl
    rw [manager_eq heffect] at hr
    cases hr
    have hcpu := clear_cpu c x.books
    have hidle : Node.idle { x with books := (x.books.clear c).1 } = x.idle :=
      congrArg Tables.idleThreadId (clear_ready c)
    refine (Placed.sound ((h.toPlaced.clear c).goto .user) (fun t => ?_) rfl (absurd rfl)
      (hidle.symm ▸ h.rest) (fun _ hc => by rcases hc with hc | hc <;> cases hc)
      fun hP t ht => ?_).ends
    · exact (h.executing_iff (hs ▸ rfl)).trans (Eq.congr_right hcpu.symm)
    · exact h.grants hP fun heq => ht (heq.trans hcpu.symm)

lemma Sound.exit (h : Sound P x A Q loc) (hs : x.stage = .user) (hidle : x.cpu ≠ x.idle)
    (hr : x.exit = some r) : Ends P r := by
  have hlive := h.current (hs ▸ rfl)
  obtain ⟨herror, loc', hplaced, hnone, hother⟩ :=
    h.toPlaced.exit (.inl (h.at_cpu (hs ▸ rfl))) hlive.1 hidle
  obtain ⟨b, w, hb⟩ : ∃ b w, x.books.exit x.cpu = (b, w) := ⟨_, _, rfl⟩
  have heffect : (Cores.Command.exit x.cpu).effect x.books = some (b, w) := congrArg some hb
  have hbooks : b = (x.books.exit x.cpu).1 := (congrArg Prod.fst hb).symm
  have hcpu : b.cpu = x.cpu := hbooks ▸ exit_cpu _ _
  obtain ⟨hidle', hparam⟩ := exit_keeps x.cpu x.books
  rw [← hbooks] at hidle' hparam
  rw [hb] at herror hplaced
  rw [Node.exit, manager_eq heffect, Option.bind_some] at hr
  simp only [show hasError w = false from herror, Bool.false_eq_true, if_false] at hr
  cases hr
  have hsoft : Node.software { x with books := b } x.cpu = true :=
    (congrFun (congrArg (isSoftwareParam ∘ ·) hparam) x.cpu).trans h.software
  have hno (u : ThreadId) : loc' u ≠ some .executing := by
    by_cases hu : u = x.cpu
    · rw [hu, hnone]
      exact nofun
    · rcases hother u hu with hsame | ⟨-, p, hready⟩
      · rw [hsame, ne_eq, h.executing_iff (hs ▸ rfl)]
        exact hu
      · rw [hready]
        exact nofun
  have hbusy : b.cpu ≠ b.ready.idleThreadId := by
    rw [hcpu, hidle']
    exact hidle
  have hrest : x.saved b.ready.idleThreadId = .user := by
    rw [hidle']
    exact h.rest
  refine ((hplaced.goto _).ended hno ?_ (hcpu.symm ▸ hsoft) (hcpu.symm ▸ hnone) hbusy hrest
    fun hP t ht => ?_).ends
  · show Stage.gone (if x.detached x.cpu then .dying else .leaving) = true
    split <;> rfl
  · have hne : t ≠ x.cpu := fun heq => ht (heq.trans hcpu.symm)
    rcases hother t hne with hsame | ⟨hchild, -⟩
    · rw [hsame]
      exact h.grants hP hne
    · have hgrant := h.grants hP hne
      rw [hchild] at hgrant
      exact hgrant.moved nofun nofun

lemma Sound.destroy (h : Sound P x A Q loc) (hs : x.stage = .dying)
    (hr : (x.manager (.clear x.cpu)).map (fun (y, _) => (y.goto .leaving, none)) = some r) :
    Ends P r := by
  obtain ⟨b, w, hb⟩ : ∃ b w, x.books.clear x.cpu = (b, w) := ⟨_, _, rfl⟩
  have heffect : (Cores.Command.clear x.cpu).effect x.books = some (b, w) := congrArg some hb
  rw [manager_eq heffect] at hr
  cases hr
  obtain ⟨hsoft, hnone⟩ := h.gone (hs ▸ rfl)
  have hbooks : b = (x.books.clear x.cpu).1 := (congrArg Prod.fst hb).symm
  have hcpu : b.cpu = x.cpu := hbooks ▸ clear_cpu _ _
  have hready : b.ready = x.books.ready := hbooks ▸ clear_ready _
  have hplaced := h.toPlaced.clear x.cpu
  rw [← hbooks] at hplaced
  have hnone' : loc b.cpu = none := hcpu.symm ▸ hnone
  refine ((hplaced.goto .leaving).ended (fun u => h.not_executing (hs ▸ rfl)) rfl ?_ hnone' ?_ ?_
    fun hP t ht => h.grants hP fun heq => ht (heq.trans hcpu.symm)).ends
  · simpa only [Node.goto, Node.software, Node.cpu, hready, hcpu] using hsoft
  · simpa only [Node.goto, Node.idle, Node.cpu, hready, hcpu] using h.busy (by simp [hs])
  · simpa only [Node.goto, Node.idle, hready] using h.rest

end Threads

end Hthreads.Kernel
