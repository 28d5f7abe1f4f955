import Hthreads.Kernel.Lifetimes

/-! The processor among the places of the threads, and what it takes for a lock to succeed. -/

namespace Hthreads.Kernel

open Library Library.BitFields Scheduler ThreadManager Cores Software

variable {m : ℕ}

/-- The mutex that a thread waits for where it has left the processor. -/
def Point.wants : Point m → Option (BitVec m)
  | locking μ | relocking _ μ => some μ
  | user | joining _ | waiting _ _ => none

def Stage.point : Stage m → Point m
  | asleep p => p
  | _ => .user

/-- The current thread has exited. -/
def Stage.gone : Stage m → Bool
  | dying | leaving => true
  | _ => false

/-- Where a thread goes on when it gets the processor. -/
def Node.point (x : Node m) (t : ThreadId) : Point m :=
  if t = x.cpu then x.stage.point else x.saved t

def Owned (A : SyncManager.FifoMutexes m) (μ : BitVec m) (t : ThreadId) : Prop :=
  (A μ).holder.map SyncManager.Holder.owner = some t

/-- A thread that waits for a mutex stands in its list until it owns it. -/
def Grants (A : SyncManager.FifoMutexes m) (t : ThreadId) (p : Point m) (o : Option (Place m)) :
    Prop :=
  ∀ μ, p.wants = some μ → o ≠ none → o ≠ some (.mutex μ) → Owned A μ t

def Answer.thread : Answer m → ThreadId
  | locked t _ | waited t _ _ => t

def Answer.mutex : Answer m → BitVec m
  | locked _ μ | waited _ _ μ => μ

/-- The invariant of all runs. `P` says whether mutexes are only unlocked by their owners. -/
structure Sound (P : Prop) (x : Node m) (A : SyncManager.FifoMutexes m) (Q : CondVars.WaitQueues)
    (loc : ThreadId → Option (Place m)) : Prop extends Placed x A Q loc where
  executing : ∀ t, loc t = some .executing ↔ t = x.cpu ∧ x.stage.executes = true
  current : x.stage.gone = false → x.Live x.cpu
  gone : x.stage.gone = true → x.software x.cpu = true ∧ loc x.cpu = none
  busy : x.stage ≠ .user → x.cpu ≠ x.idle
  rest : x.saved x.idle = .user
  fresh : ∀ c, x.stage = .created c ∨ x.stage = .prepared c →
    loc c = none ∧ x.books.running c = true ∧ x.started c = false ∧ x.saved c = .user
  granted : P → ∀ t, Grants A t (x.point t) (loc t)

/-- A step ends in a sound state, and SUCCESS goes to the owner of the mutex. -/
def Ends (P : Prop) (r : Node m × Option (Answer m)) : Prop :=
  ∃ A Q loc, Sound P r.1 A Q loc ∧ (P → ∀ a ∈ r.2, Owned A a.mutex a.thread)

variable {P : Prop} {x y : Node m} {A : SyncManager.FifoMutexes m} {Q : CondVars.WaitQueues}
  {loc loc' : ThreadId → Option (Place m)} {t u c : ThreadId} {p : Point m} {s : Stage m}

section Stages

lemma Sound.ends (h : Sound P x A Q loc) : Ends P (x, none) := ⟨A, Q, loc, h, fun _ => nofun⟩

lemma Sound.software (h : Sound P x A Q loc) : x.software x.cpu = true := by
  cases hgone : x.stage.gone with
  | false => exact (h.current hgone).2.2
  | true => exact (h.gone hgone).1

lemma Stage.point_of_executes (hs : s.executes = true) : s.point = .user := by
  cases s with
  | asleep p => cases hs
  | _ => rfl

lemma Stage.gone_of_executes (hs : s.executes = true) : s.gone = false := by
  cases s with
  | dying | leaving => cases hs
  | _ => rfl

lemma grants_of_not_waiting {o : Option (Place m)} (hp : p.wants = none) : Grants A t p o := by
  intro μ hμ
  rw [hp] at hμ
  cases hμ

lemma Sound.at_cpu (h : Sound P x A Q loc) (hs : x.stage.executes = true) :
    loc x.cpu = some .executing :=
  (h.executing _).mpr ⟨rfl, hs⟩

lemma Grants.moved {o o' : Option (Place m)} (h : Grants A t p o) (ho : o ≠ none)
    (hμ : ∀ μ, o ≠ some (.mutex μ)) : Grants A t p o' :=
  fun μ hwants _ _ => h μ hwants ho (hμ μ)

lemma Sound.executing_iff (h : Sound P x A Q loc) (hs : x.stage.executes = true) :
    loc t = some .executing ↔ t = x.cpu := by
  rw [h.executing, hs, and_iff_left rfl]

lemma Sound.not_executing (h : Sound P x A Q loc) (hs : x.stage.executes = false) :
    loc u ≠ some .executing := by
  intro hu
  rw [h.executing, hs] at hu
  cases hu.2

lemma Placed.sound (h : Placed x A Q loc) (hexec : ∀ t, loc t = some .executing ↔ t = x.cpu)
    (hs : x.stage.executes = true) (hbusy : x.stage ≠ .user → x.cpu ≠ x.idle)
    (hrest : x.saved x.idle = .user)
    (hfresh : ∀ c, x.stage = .created c ∨ x.stage = .prepared c →
      loc c = none ∧ x.books.running c = true ∧ x.started c = false ∧ x.saved c = .user)
    (hgr : P → ∀ t ≠ x.cpu, Grants A t (x.saved t) (loc t)) : Sound P x A Q loc where
  toPlaced := h
  executing t := by rw [hexec, and_iff_left hs]
  current _ := by
    have hcpu := (hexec x.cpu).mpr rfl
    obtain ⟨hrun, hstart⟩ := (h.at hcpu).alive _ rfl
    exact ⟨hrun, hstart, (h.at hcpu).software _ rfl rfl⟩
  gone hgone := by
    rw [Stage.gone_of_executes hs] at hgone
    cases hgone
  busy := hbusy
  rest := hrest
  fresh := hfresh
  granted hP t := by
    rw [Node.point]
    split_ifs with ht
    · rw [Stage.point_of_executes hs]
      exact grants_of_not_waiting rfl
    · exact hgr hP t ht

lemma Placed.halted (h : Placed x A Q loc) (hno : ∀ u, loc u ≠ some .executing)
    (hs : x.stage.executes = false) (hgone : x.stage.gone = false) (hlive : x.Live x.cpu)
    (hidle : x.cpu ≠ x.idle) (hrest : x.saved x.idle = .user)
    (hgr : P → ∀ t, Grants A t (x.point t) (loc t)) : Sound P x A Q loc where
  toPlaced := h
  executing t := by
    refine iff_of_false (hno t) fun ht => ?_
    rw [hs] at ht
    cases ht.2
  current _ := hlive
  gone hg := by
    rw [hgone] at hg
    cases hg
  busy _ := hidle
  rest := hrest
  fresh c hc := by
    rcases hc with hc | hc <;> rw [hc] at hs <;> cases hs
  granted := hgr

lemma Placed.ended (h : Placed x A Q loc) (hno : ∀ u, loc u ≠ some .executing)
    (hgone : x.stage.gone = true) (hsoft : x.software x.cpu = true) (hnone : loc x.cpu = none)
    (hidle : x.cpu ≠ x.idle) (hrest : x.saved x.idle = .user)
    (hgr : P → ∀ t ≠ x.cpu, Grants A t (x.saved t) (loc t)) : Sound P x A Q loc where
  toPlaced := h
  executing t := by
    refine iff_of_false (hno t) fun ht => ?_
    rw [Stage.gone_of_executes ht.2] at hgone
    cases hgone
  current hg := by
    rw [hgone] at hg
    cases hg
  gone _ := ⟨hsoft, hnone⟩
  busy _ := hidle
  rest := hrest
  fresh c hc := by
    rcases hc with hc | hc <;> rw [hc] at hgone <;> cases hgone
  granted hP t := by
    rw [Node.point]
    split_ifs with ht
    · rw [ht, hnone]
      exact fun μ _ hne => absurd rfl hne
    · exact hgr hP t ht

lemma Sound.aside (h : Sound P x A Q loc) {A' : SyncManager.FifoMutexes m}
    {Q' : CondVars.WaitQueues} (hy : Placed y A' Q' loc') (hcpu : y.cpu = x.cpu)
    (hstage : y.stage = x.stage) (hexec : ∀ u, loc' u = some .executing ↔ loc u = some .executing)
    (hsame : ∀ u, x.software u = true ∨ x.started u = false →
      Unchanged x y u ∧ y.saved u = x.saved u ∧ (loc u = none → loc' u = none))
    (hgr : P → ∀ t, Grants A' t (y.point t) (loc' t)) : Sound P y A' Q' loc' where
  toPlaced := hy
  executing t := by rw [hexec, h.executing, hcpu, hstage]
  current hgone := by
    rw [hcpu, (hsame x.cpu (.inl h.software)).1.live]
    exact h.current (hstage ▸ hgone)
  gone hgone := by
    obtain ⟨hsoft, hnone⟩ := h.gone (hstage ▸ hgone)
    obtain ⟨hun, -, hkeep⟩ := hsame x.cpu (.inl hsoft)
    rw [hcpu, hun.software]
    exact ⟨hsoft, hkeep hnone⟩
  busy hne := by
    rw [hcpu, (hsame x.cpu (.inl h.software)).1.idle]
    exact h.busy (hstage ▸ hne)
  rest := by
    have hidle := ((h.suits x.idle).idle rfl).1.2.2
    rw [(hsame x.cpu (.inl h.software)).1.idle, (hsame x.idle (.inl hidle)).2.1]
    exact h.rest
  fresh c hc := by
    rw [hstage] at hc
    obtain ⟨hnone, hrun, hstart, hsaved⟩ := h.fresh c hc
    obtain ⟨hun, hkeep, hloc⟩ := hsame c (.inr hstart)
    rw [hun.running, hun.started, hkeep]
    exact ⟨hloc hnone, hrun, hstart, hsaved⟩
  granted := hgr

lemma resume_answer {a : Answer m} (ha : a ∈ (x.resume t p).2) :
    a.thread = t ∧ p.wants = some a.mutex := by
  cases p with
  | user | joining _ | waiting _ _ => cases ha
  | locking μ | relocking κ μ =>
    cases ha
    exact ⟨rfl, rfl⟩

lemma Placed.resume (h : Placed x A Q loc) (hexec : ∀ t, loc t = some .executing ↔ t = x.cpu)
    (hrest : x.saved x.idle = .user) (hp : x.cpu = x.idle → p = .user)
    (hgr : P → ∀ t ≠ x.cpu, Grants A t (x.saved t) (loc t))
    (hown : P → Grants A x.cpu p (some .executing)) : Ends P (x.resume x.cpu p) := by
  have hgoto (s : Stage m) (hs : s.executes = true) (hbusy : s ≠ .user → p ≠ .user)
      (hfresh : ∀ c, s ≠ .created c ∧ s ≠ .prepared c) : Sound P (x.goto s) A Q loc :=
    (h.goto s).sound hexec hs (fun hne hidle => hbusy hne (hp hidle)) hrest
      (fun c hc => (hc.elim (hfresh c).1 (hfresh c).2).elim) hgr
  refine ⟨A, Q, loc, ?_, fun hP a ha => ?_⟩
  · cases p with
    | user | locking μ | relocking κ μ => exact hgoto _ rfl (absurd rfl) fun _ => ⟨nofun, nofun⟩
    | joining c | waiting κ μ => exact hgoto _ rfl (fun _ => nofun) fun _ => ⟨nofun, nofun⟩
  · obtain ⟨hthread, hwants⟩ := resume_answer ha
    rw [hthread]
    exact hown hP a.mutex hwants (Option.some_ne_none _) nofun

end Stages

section Switches

/-- The end of `_run_sched` and of a yield behind a NEXT or a YIELD that is accepted. -/
def leaves (curr next : ThreadId) (save : Bool) : Control :=
  if curr = next then .back
  else if save then .switch (curr.setWidth 32) (next.setWidth 32) (0#23 ++ next ++ 0#1)
  else .restore (curr.setWidth 32) (next.setWidth 32) (0#23 ++ next ++ 0#1)

lemma setWidth_inj {a b : ThreadId} : a.setWidth 32 = b.setWidth 32 ↔ a = b := by
  refine ⟨fun heq => ?_, fun heq => heq ▸ rfl⟩
  have hback := congrArg (BitVec.setWidth 8) heq
  simpa using hback

lemma runSched_run {b : Books} (save : Bool) (hv : b.ready.nextThreadValid = true)
    (hr : b.running b.ready.nextThreadId = true) : (Bus.runSched save).run bookAccess b =
      some (b.dispatch, leaves b.cpu b.ready.nextThreadId save) := by
  have hnext : b.next = (b.dispatch, 0#23 ++ b.ready.nextThreadId ++ 0#1) := by
    rw [Books.next, hr, if_pos rfl]
  simp only [Bus.runSched, Bus.nextThread, Program.run_bind, Program.run_issue, Program.run_pure,
    currentThread_run, bookAccess, Cores.Command.effect, hv, if_true, Option.bind_some, hnext,
    extractId_created, dispatch_cpu, ne_eq, not_true_eq_false, if_false, setWidth_inj, leaves]
  split_ifs <;> rfl

lemma syscallYield_run {b : Books} (hr : b.running b.cpu = true) :
    Bus.syscallYield.run bookAccess b =
      if isEncoderZero b.ready.encoderInput then some (b, .back)
      else some ((b.enqueue b.cpu).dispatch,
        leaves b.cpu (b.enqueue b.cpu).ready.nextThreadId true) := by
  simp only [Bus.syscallYield, Bus.yieldThread, Program.run_bind, Program.run_issue,
    Program.run_pure, currentThread_run, bookAccess, Cores.Command.effect, Option.bind_some]
  cases hempty : isEncoderZero b.ready.encoderInput with
  | true =>
    have hyield : b.yield = (b, 0#23 ++ b.currentCpuThread) := by
      simp only [Books.yield, hr, hempty, if_true]
    have hsame : extractId (0#23 ++ b.currentCpuThread) = b.cpu.setWidth 32 := extractId_named _
    simp only [hyield, hsame, ne_eq, not_true_eq_false, if_false, if_true, Program.run_pure]
  | false =>
    have hyield : b.yield = ((b.enqueue b.cpu).dispatch,
        0#23 ++ (b.enqueue b.cpu).ready.nextThreadId ++ 0#1) := by
      simp only [Books.yield, hr, hempty, if_true, Bool.false_eq_true, if_false]
    simp only [hyield, extractId_created, ne_eq, setWidth_inj, leaves, ite_not, if_true,
      Bool.false_eq_true, if_false]
    split_ifs <;> rfl

lemma Placed.switch (h : Placed x A Q loc) (hno : ∀ u, loc u ≠ some .executing)
    (hsoft : x.software x.cpu = true) (hrest : x.saved x.idle = .user)
    (hp : x.cpu = x.idle → p = .user) {save : Bool} (hsave : save = false → loc x.cpu = none)
    (hgr : P → ∀ t, Grants A t (if t = x.cpu then p else x.saved t) (loc t)) :
    Ends P ({ x with books := x.books.dispatch }.control p
      (leaves x.cpu x.books.ready.nextThreadId save)) := by
  obtain ⟨-, hlive, hplace⟩ := h.announced hno
  have hplaced := h.dispatch hno
  obtain ⟨n, hn⟩ : ∃ n, x.books.ready.nextThreadId = n := ⟨_, rfl⟩
  obtain ⟨z, hz⟩ : ∃ z : Node m, { x with books := x.books.dispatch } = z := ⟨_, rfl⟩
  obtain ⟨q, hq⟩ : ∃ q, (if n = x.cpu then p else x.saved n) = q := ⟨_, rfl⟩
  have hcpu : z.cpu = n := by
    rw [← hz, ← hn]
    exact dispatch_cpu _
  have hidle : z.idle = x.idle := by
    rw [← hz]
    exact (idle_announced h.announcing.dequeue).1
  have hsaved : z.saved = x.saved := hz ▸ rfl
  rw [hz, hn] at hplaced
  rw [hz, hn]
  rw [hn] at hplace
  have hexec (t : ThreadId) : Function.update loc n (some .executing) t =
    some .executing ↔ t = n := by
    rw [moved_to_iff (hno n), or_iff_right (hno t)]
  have hquser : n = x.idle → q = .user := by
    intro hni
    rw [← hq]
    split_ifs with hnc
    · exact hp (hnc ▸ hni)
    · rw [hni, hrest]
  have hown : P → Grants A n q (some .executing) := by
    intro hP μ hμ _ _
    rcases hplace with ⟨r, hr⟩ | ⟨hni, -⟩
    · refine hgr hP n μ (hq ▸ hμ) ?_ ?_ <;> rw [hr] <;> nofun
    · rw [hquser hni] at hμ
      cases hμ
  have hgoes (s : ThreadId → Point m) (hkeep : ∀ u ≠ x.cpu, s u = x.saved u)
      (hleft : s x.idle = .user) (hcurr : P → x.cpu ≠ n → Grants A x.cpu (s x.cpu) (loc x.cpu)) :
      Ends P (({ z with saved := s } : Node m).resume n q) := by
    have hy : Placed { z with saved := s } A Q (Function.update loc n (some .executing)) := by
      refine { hplaced with
        suits := fun u => (hplaced.suits u).congr ⟨rfl, rfl, rfl, fun hu => ?_, rfl⟩ }
      rw [hsaved]
      refine hkeep u ?_
      rintro rfl
      have hsame : z.software x.cpu = x.software x.cpu := by
        rw [← hz]
        exact congrFun (congrArg (isSoftwareParam ∘ ·) (dequeue_param _ _)) x.cpu
      rw [hsame, hsoft] at hu
      cases hu
    have hends := hy.resume (P := P) (p := q) (fun t => (hexec t).trans (hcpu ▸ Iff.rfl))
      (by exact hidle.symm ▸ hleft) (fun heq => hquser ?_) ?_ ?_
    · rwa [show ({ z with saved := s } : Node m).cpu = n from hcpu] at hends
    · rw [← hcpu, ← hidle]
      exact heq
    · intro hP t ht
      have htn : t ≠ n := fun heq => ht (heq.trans hcpu.symm)
      rw [Function.update_of_ne htn]
      by_cases hct : t = x.cpu
      · rw [hct]
        exact hcurr hP (hct ▸ htn)
      · have hgrant := hgr hP t
        rw [if_neg hct] at hgrant
        rwa [← hkeep t hct] at hgrant
    · intro hP
      have hgrant := hown hP
      rwa [← hcpu] at hgrant
  rw [leaves]
  split_ifs with heq hs
  · have hqp : q = p := by rw [← hq, if_pos heq.symm]
    have hback : z.control p .back = ({ z with saved := x.saved } : Node m).resume n q := by
      rw [← hsaved, hqp, ← hcpu]
      rfl
    rw [hback]
    exact hgoes x.saved (fun _ _ => rfl) hrest fun _ hne => absurd heq hne
  · have hqs : q = x.saved n := by rw [← hq, if_neg (Ne.symm heq)]
    have hswitch : z.control p (.switch (x.cpu.setWidth 32) (n.setWidth 32) (0#23 ++ n ++ 0#1)) =
        ({ z with saved := Function.update x.saved x.cpu p } : Node m).resume n q := by
      simp only [Node.control, Node.save, BitVec.setWidth_setWidth_of_le,
        BitVec.setWidth_eq, hsaved, Nat.reduceLeDiff, Function.update_of_ne (Ne.symm heq), hqs]
    rw [hswitch]
    refine hgoes _ (fun u hu => Function.update_of_ne hu _ _) ?_ fun hP _ => ?_
    · by_cases hci : x.idle = x.cpu
      · rw [hci, Function.update_self]
        exact hp hci.symm
      · rw [Function.update_of_ne hci, hrest]
    · have hgrant := hgr hP x.cpu
      rwa [if_pos rfl, ← Function.update_self (f := x.saved) x.cpu p] at hgrant
  · have hqs : q = x.saved n := by rw [← hq, if_neg (Ne.symm heq)]
    have hrestore : z.control p (.restore (x.cpu.setWidth 32) (n.setWidth 32) (0#23 ++ n ++ 0#1)) =
        ({ z with saved := x.saved } : Node m).resume n q := by
      rw [hqs, ← hsaved]
      simp only [Node.control, BitVec.setWidth_setWidth_of_le, BitVec.setWidth_eq,
        Nat.reduceLeDiff]
    rw [hrestore]
    refine hgoes _ (fun _ _ => rfl) hrest fun _ _ μ _ hne => absurd (hsave ?_) hne
    simpa using hs

end Switches

end Hthreads.Kernel
