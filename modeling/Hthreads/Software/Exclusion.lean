import Hthreads.Software.Mutex

/-! Who holds which mutex, from the side of the callers: what an unlock by another thread does, and
when two threads are never in the same critical section. -/

namespace Hthreads.Software

open Library Library.BitFields Scheduler SyncManager

variable {m : ℕ}

/-- How often a thread was granted a mutex that it has not yet released. -/
abbrev Holdings (m : ℕ) := BitVec m → ThreadId → ℕ

def Holdings.grant (H : Holdings m) (μ : BitVec m) (t : ThreadId) : Holdings m :=
  Function.update H μ (Function.update (H μ) t (H μ t + 1))

def Holdings.release (H : Holdings m) (μ : BitVec m) (t : ThreadId) : Holdings m :=
  Function.update H μ (Function.update (H μ) t (H μ t - 1))

/-- Two threads never hold the same mutex. -/
def Holdings.Exclusive (H : Holdings m) : Prop :=
  ∀ μ u v, 0 < H μ u → 0 < H μ v → u = v

/-- The core, and the mutexes as the threads have seen them granted and released. -/
structure Scene (m : ℕ) where
  slave : Slave m
  holds : Holdings m

/-- A hand-off grants the mutex to the thread that is woken. -/
def Holdings.after (H : Holdings m) (c : MutexCall) (R : Returned m) : Holdings m :=
  R.woken.foldl (fun H w => H.grant (c.mutex m) w)
    (if c.op = .unlock then H.release (c.mutex m) c.caller
      else if c.Granted R then H.grant (c.mutex m) c.caller else H)

def Scene.perform (base : Huint) (c : MutexCall) (x : Scene m) : Option (Scene m) :=
  (c.perform base x.slave).map fun R => ⟨R.slave, x.holds.after c R⟩

/-- The states that sequences of calls lead to, from mutexes that are all free. -/
inductive Scene.Reachable (base : Huint) (ok : MutexCall → Stores m → Prop) : Scene m → Prop
  | start {s : Slave m} : s.Quiet → (∀ μ, (s.stores.mutexes μ).count = 0) →
      Reachable base ok ⟨s, fun _ _ => 0⟩
  | idle {x : Scene m} : Reachable base ok x → Reachable base ok ⟨x.slave.clock .idle, x.holds⟩
  | call {x y : Scene m} {c : MutexCall} : Reachable base ok x → ok c x.slave.stores →
      x.perform base c = some y → Reachable base ok y

def Scene.performAll (base : Huint) : List MutexCall → Scene m → Option (Scene m)
  | [], x => some x
  | c :: cs, x => (x.perform base c).bind (performAll base cs)

lemma Scene.Reachable.performAll {base : Huint} {x y : Scene m} {cs : List MutexCall}
    (h : x.Reachable base fun _ _ => True) (hy : x.performAll base cs = some y) :
    y.Reachable base fun _ _ => True := by
  induction cs generalizing x with
  | nil =>
    cases hy
    exact h
  | cons c cs ih =>
    obtain ⟨z, hz, hy⟩ := Option.bind_eq_some_iff.mp hy
    exact ih (h.call trivial hz) hy

/-- The mutex is unlocked by its owner, or is free; its owner does not nest a 256th lock. -/
def Proper (c : MutexCall) (S : Stores m) : Prop :=
  let e := S.mutexes (c.mutex m)
  match c.op with
  | .lock | .tryLock => ¬ (e.kind = synchRecurs ∧ e.owner = c.caller ∧ e.count = 255)
  | .unlock => e.count = 0 ∨ e.owner = c.caller

lemma Proper.of_asks {c : MutexCall} {S : Stores m} (hop : c.op ≠ .unlock) (h : Proper c S) :
    ¬ ((S.mutexes (c.mutex m)).kind = synchRecurs ∧ (S.mutexes (c.mutex m)).owner = c.caller ∧
      (S.mutexes (c.mutex m)).count = 255) := by
  cases hc : c.op with
  | lock => simpa [Proper, hc] using h
  | tryLock => simpa [Proper, hc] using h
  | unlock => exact absurd hc hop

section Accounts

variable {S T : Stores m} {H : Holdings m} {μ : BitVec m} {t : ThreadId}
  {base : Huint} {x : Scene m}

/-- The entry of a mutex accounts for all that its owner holds, and nobody else holds it. -/
structure Accounts (S : Stores m) (H : Holdings m) : Prop where
  holds : ∀ μ u, H μ u = if (S.mutexes μ).owner = u then (S.mutexes μ).count.toNat else 0
  nested : ∀ μ, 1 < (S.mutexes μ).count.toNat → (S.mutexes μ).kind = synchRecurs

lemma Accounts.exclusive (h : Accounts S H) : H.Exclusive := by
  intro μ u v hu hv
  rw [h.holds] at hu hv
  have howner : ∀ w, 0 < (if (S.mutexes μ).owner = w then (S.mutexes μ).count.toNat else 0) →
      (S.mutexes μ).owner = w := by
    intro w hw
    by_contra hne
    rw [if_neg hne] at hw
    exact lt_irrefl 0 hw
  rw [← howner u hu, ← howner v hv]

lemma Accounts.update (h : Accounts S H) {f : ThreadId → ℕ}
    (hother : ∀ ν ≠ μ, T.mutexes ν = S.mutexes ν)
    (hf : ∀ u, f u = if (T.mutexes μ).owner = u then (T.mutexes μ).count.toNat else 0)
    (hnested : 1 < (T.mutexes μ).count.toNat → (T.mutexes μ).kind = synchRecurs) :
    Accounts T (Function.update H μ f) where
  holds ν u := by
    by_cases hν : ν = μ
    · subst hν
      rw [Function.update_self]
      exact hf u
    · rw [Function.update_of_ne hν, hother ν hν]
      exact h.holds ν u
  nested ν := by
    by_cases hν : ν = μ
    · subst hν
      exact hnested
    · rw [hother ν hν]
      exact h.nested ν

lemma Accounts.held_self (h : Accounts S H)
    (hok : (S.mutexes μ).count = 0 ∨ (S.mutexes μ).owner = t) :
    H μ t = (S.mutexes μ).count.toNat := by
  rw [h.holds μ t]
  split_ifs with howner
  · rfl
  · rw [hok.resolve_right howner]
    rfl

lemma Accounts.held_of_ne (h : Accounts S H)
    (hok : (S.mutexes μ).count = 0 ∨ (S.mutexes μ).owner = t) {u : ThreadId} (hu : u ≠ t) :
    H μ u = 0 := by
  rw [h.holds μ u]
  rcases hok with hfree | howner
  · rw [hfree]
    exact ite_self 0
  · rw [howner, if_neg (Ne.symm hu)]

lemma Accounts.update_held (h : Accounts S H) {n : ℕ}
    (hother : ∀ ν ≠ μ, T.mutexes ν = S.mutexes ν)
    (hok : (S.mutexes μ).count = 0 ∨ (S.mutexes μ).owner = t)
    (hcount : (T.mutexes μ).count.toNat = n) (howner : n = 0 ∨ (T.mutexes μ).owner = t)
    (hnested : 1 < (T.mutexes μ).count.toNat → (T.mutexes μ).kind = synchRecurs) :
    Accounts T (Function.update H μ (Function.update (H μ) t n)) := by
  refine h.update hother (fun u => ?_) hnested
  rw [hcount, Function.update_apply]
  split_ifs with hu hown hown
  · rfl
  · exact howner.resolve_right (hu ▸ hown)
  · exact (h.held_of_ne hok hu).trans (howner.resolve_right fun ht => hu (hown.symm.trans ht)).symm
  · exact h.held_of_ne hok hu

lemma Accounts.asks (h : Accounts S H) {r : Request m} (hr : r.asks μ = some t)
    (hok : ¬ ((S.mutexes μ).kind = synchRecurs ∧ (S.mutexes μ).owner = t ∧
      (S.mutexes μ).count = 255)) :
    Accounts (r.effect S).stores (if (r.effect S).data = 0 then H.grant μ t else H) := by
  have hother : ∀ ν ≠ μ, (r.effect S).stores.mutexes ν = S.mutexes ν := by
    intro ν hν
    exact effect_mutexes_of_ne (Request.asks_mutex hr ▸ hν.symm)
  obtain ⟨-, hcase⟩ := effect_asks_cases (S := S) hr
  rcases hcase with ⟨hfree, hdata, hentry⟩ | ⟨hkind, howner, hdata, hentry⟩ |
    ⟨hdata, howner, hkind, hcount⟩
  · rw [if_pos hdata]
    rw [Holdings.grant, h.held_self (.inl hfree), hfree]
    refine h.update_held hother (.inl hfree) ?_ (.inr ?_) ?_
    · rw [hentry]
      rfl
    · rw [hentry]
    · rw [hentry]
      simp
  · rw [if_pos hdata]
    have hcount : ((S.mutexes μ).count + 1).toNat = (S.mutexes μ).count.toNat + 1 := by
      have hne : (S.mutexes μ).count.toNat ≠ 255 :=
        fun heq => hok ⟨hkind, howner, BitVec.eq_of_toNat_eq heq⟩
      have hlt := (S.mutexes μ).count.isLt
      exact toNat_succ_of_lt (by omega)
    rw [Holdings.grant, h.held_self (.inr howner), ← hcount]
    refine h.update_held hother (.inr howner) ?_ (.inr ?_) ?_
    · rw [hentry]
    · rw [hentry, howner]
    · rw [hentry]
      exact fun _ => hkind
  · rw [if_neg hdata, ← Function.update_eq_self μ H]
    refine h.update hother (fun u => ?_) ?_
    · rw [howner, hcount]
      exact h.holds μ u
    · rw [hcount, hkind]
      exact h.nested μ

lemma Accounts.unlock (h : Accounts S H)
    (hok : (S.mutexes μ).count = 0 ∨ (S.mutexes μ).owner = t) :
    Accounts (S.unlock μ).stores
      ((S.unlock μ).sent.foldl (fun H w => H.grant μ w) (H.release μ t)) := by
  have hother : ∀ ν ≠ μ, (S.unlock μ).stores.mutexes ν = S.mutexes ν := by
    intro ν hν
    exact effect_mutexes_of_ne (r := .unlock μ t) hν.symm
  rcases unlock_cases S μ with ⟨hkind, hheld, hsent, hentry⟩ | ⟨hone, hsent, hentry⟩ |
    ⟨hone, hsent, hentry⟩ | ⟨hnested, hone, hsent, hstores⟩
  · have howner := hok.resolve_left hheld
    have hcount := toNat_pred_of_ne_zero hheld
    rw [hsent, List.foldl_nil, Holdings.release, h.held_self hok, ← hcount]
    refine h.update_held hother hok ?_ (.inr ?_) ?_
    · rw [hentry]
    · rw [hentry, howner]
    · rw [hentry]
      exact fun _ => hkind
  · rw [hsent, List.foldl_nil, Holdings.release, h.held_self hok, hone]
    refine h.update_held hother hok ?_ (.inl rfl) ?_
    · rw [hentry]
      rfl
    · rw [hentry]
      simp
  · have hnone : ∀ u, (H.release μ t) μ u = 0 := by
      intro u
      rw [Holdings.release, Function.update_self, Function.update_apply, h.held_self hok, hone]
      split_ifs with hu
      · rfl
      · exact h.held_of_ne hok hu
    rw [hsent, List.foldl_cons, List.foldl_nil, Holdings.grant, hnone, Holdings.release,
      Function.update_idem]
    refine h.update hother (fun u => ?_) ?_
    · rw [hentry, Function.update_apply]
      have hu := hnone u
      rw [Holdings.release, Function.update_self] at hu
      rw [Function.update_self, hu]
      by_cases hnext : u = (S.mutexes μ).next
      · simp [hnext]
      · simp [hnext, Ne.symm hnext]
    · rw [hentry]
      simp
  · have hzero : (S.mutexes μ).count.toNat = 0 := by
      rcases hok with hfree | -
      · rw [hfree]
        rfl
      · by_contra hpos
        have hone' : (S.mutexes μ).count.toNat ≠ 1 := fun heq => hone (BitVec.eq_of_toNat_eq heq)
        apply hnested ⟨h.nested μ (by omega), fun heq => hpos ?_⟩
        rw [heq]
        rfl
    have hsame : H.release μ t = H := by
      have hheld : H μ t = 0 := by
        rw [h.holds μ t, hzero, ite_self]
      rw [Holdings.release, hheld, Nat.zero_sub, ← hheld, Function.update_eq_self,
        Function.update_eq_self]
    rw [hsent, hstores, List.foldl_nil, hsame]
    exact h

lemma Accounts.call (hbase : Aligned m base) (hm : m ≤ 19) (hs : x.slave.Quiet)
    (h : Accounts x.slave.stores x.holds) {c : MutexCall} (hok : Proper c x.slave.stores)
    {y : Scene m} (hy : x.perform base c = some y) :
    y.slave.Quiet ∧ Accounts y.slave.stores y.holds := by
  obtain ⟨R, hR, hperf⟩ := perform_spec hbase hm hs c
  rw [Scene.perform, hR, Option.map_some] at hy
  cases hy
  refine ⟨hperf.quiet, ?_⟩
  rw [hperf.stores, Holdings.after, hperf.woken]
  by_cases hop : c.op = .unlock
  · rw [if_pos hop, MutexCall.request, hop]
    simp only [Proper, hop] at hok
    exact h.unlock hok
  · have hasks := MutexCall.request_asks (m := m) hop
    have hgranted : c.Granted R ↔ ((c.request m).effect x.slave.stores).data = 0 :=
      hperf.granted.trans (and_iff_right hop)
    rw [if_neg hop, (effect_asks_cases hasks).1, List.foldl_nil]
    simp only [hgranted]
    exact h.asks hasks (Proper.of_asks hop hok)

lemma Scene.Reachable.accounts (hbase : Aligned m base) (hm : m ≤ 19)
    (h : x.Reachable base Proper) : x.slave.Quiet ∧ Accounts x.slave.stores x.holds := by
  induction h with
  | start hs hfree =>
    refine ⟨hs, fun μ u => ?_, fun μ hlt => ?_⟩
    · simp [hfree μ]
    · rw [hfree μ] at hlt
      exact absurd hlt (by decide)
  | idle _ ih =>
    refine ⟨ih.1.clock_idle, ?_⟩
    rw [ih.1.clock_idle_stores]
    exact ih.2
  | call _ hok hR ih => exact ih.2.call hbase hm ih.1 hok hR

end Accounts

/-- The call fails, and the books of the core stay as they are. -/
def Refuses (base thread num : Huint) (s : Slave m) : Prop :=
  ∃ R, hthreadMutexUnlock base thread num s = some R ∧ R.value ≠ success ∧
    R.slave.stores = s.stores

lemma not_refuses {base : Huint} (hbase : Aligned m base) (hm : m ≤ 19) {s : Slave m}
    (hs : s.Quiet) (thread num : Huint) : ¬ Refuses base thread num s := by
  rintro ⟨R, hR, hvalue, -⟩
  obtain ⟨R', hR', hperf⟩ := perform_unlock hbase hm hs thread num
  obtain rfl : R = R' := Option.some.inj (hR.symm.trans hR')
  exact hvalue (hperf.unlocked rfl)

lemma unlock_free_stores {base : Huint} (hbase : Aligned m base) (hm : m ≤ 19) {s : Slave m}
    (hs : s.Quiet) (thread num : Huint) (hfree : (s.stores.mutexes (num.setWidth m)).count = 0) :
    ∃ R, hthreadMutexUnlock base thread num s = some R ∧ R.slave.stores = s.stores := by
  obtain ⟨R, hR, hperf⟩ := perform_unlock hbase hm hs thread num
  refine ⟨R, hR, hperf.stores.trans ?_⟩
  have hone : ¬ (0 : BitVec 8) = 1 := by decide
  have hrefused : (s.stores.unlock (num.setWidth m)).stores = s.stores := by
    simp only [Stores.unlock, hfree, ne_eq, not_true_eq_false, and_false, if_false, hone]
  exact hrefused

/-- An unlock by a thread that does not own the mutex is never reported as a failure. It leaves
the books alone on a free mutex, and two threads never hold one mutex as long as a mutex that is
held is only unlocked by its owner and the count does not wrap. -/
theorem unlock_by_others (base : Huint) (hbase : Aligned m base) (hm : m ≤ 19) :
    (∀ s : Slave m, s.Quiet → ∀ thread num : Huint,
      ¬ s.stores.Owns (num.setWidth m) (thread.setWidth 8) → ¬ Refuses base thread num s) ∧
    (∀ s : Slave m, s.Quiet → ∀ thread num : Huint,
      (s.stores.mutexes (num.setWidth m)).count = 0 →
        ∃ R, hthreadMutexUnlock base thread num s = some R ∧ R.slave.stores = s.stores) ∧
    ∀ x : Scene m, x.Reachable base Proper → x.holds.Exclusive :=
  ⟨fun _ hs thread num _ => not_refuses hbase hm hs thread num,
    fun _ hs thread num => unlock_free_stores hbase hm hs thread num,
    fun _ hx => (hx.accounts hbase hm).2.exclusive⟩

lemma aligned_zero : Aligned m 0 := fun _ _ => BitVec.getLsbD_zero

lemma powerUp_quiet : (Slave.powerUp : Slave m).Quiet := ⟨rfl, rfl, rfl, rfl, rfl, rfl, rfl, rfl⟩

def Scene.start : Scene m := ⟨.powerUp, fun _ _ => 0⟩

lemma Scene.start_reachable (base : Huint) (ok : MutexCall → Stores m → Prop) :
    Scene.start.Reachable base ok :=
  .start powerUp_quiet fun _ => rfl

theorem unlock_by_others_after_lock :
    ∃ x : Scene 6, Scene.start.perform 0 ⟨.lock, 5, 1⟩ = some x ∧ x.holds.Exclusive := by
  obtain ⟨R, hR, -⟩ := perform_spec (m := 6) aligned_zero (by decide) powerUp_quiet ⟨.lock, 5, 1⟩
  have hx : Scene.start.perform (m := 6) 0 ⟨.lock, 5, 1⟩ =
      some ⟨R.slave, Holdings.after (fun _ _ => 0) ⟨.lock, 5, 1⟩ R⟩ := by
    rw [Scene.perform]
    exact congrArg _ hR
  have hok : Proper ⟨.lock, 5, 1⟩ (Scene.start : Scene 6).slave.stores :=
    fun h => absurd h.1 (by decide)
  exact ⟨_, hx, (unlock_by_others 0 aligned_zero (by decide)).2.2 _
    ((Scene.start_reachable 0 Proper).call hok hx)⟩

-- thread 9 hands mutex 1 of thread 5 on to thread 7
theorem two_threads_after_foreign_unlock :
    ¬ ∀ x : Scene 1, x.Reachable 0 (fun _ _ => True) →
      x.holds.Exclusive ∧ ∀ thread num : Huint,
        ¬ x.slave.stores.Owns (num.setWidth 1) (thread.setWidth 8) →
          Refuses 0 thread num x.slave := by
  intro hclaim
  have hrun : ((Scene.start : Scene 1).performAll 0
      [⟨.lock, 5, 1⟩, ⟨.lock, 7, 1⟩, ⟨.unlock, 9, 1⟩]).map
        (fun x => (x.holds 1 5, x.holds 1 7)) = some (1, 1) := by
    decide
  obtain ⟨x, hx, hholds⟩ := Option.map_eq_some_iff.mp hrun
  have hfive : x.holds 1 5 = 1 := congrArg Prod.fst hholds
  have hseven : x.holds 1 7 = 1 := congrArg Prod.snd hholds
  have hexclusive := (hclaim x ((Scene.start_reachable 0 _).performAll hx)).1
  have heq :=
    hexclusive 1 5 7 (by rw [hfive]; exact Nat.one_pos) (by rw [hseven]; exact Nat.one_pos)
  exact absurd heq (by decide)

end Hthreads.Software
