import Hthreads.Scheduler.MallocLock

/-! The malloc lock as a counting owner lock, over all histories of requests. -/

namespace Hthreads.Scheduler

open Library Library.BitFields Hthreads.Scheduler.Core

-- what every thread has acquired and not released yet, by the answers it got
def outstanding (r : MallocRequest) (w : Word) (out : ThreadId → ℕ) : ThreadId → ℕ :=
  match r with
  | .acquire tid => if bit w 31 then Function.update out tid (out tid + 1) else out
  | .release tid => Function.update out tid (out tid - 1)

def Core.followMalloc : List (Environment × MallocRequest) → Core → (ThreadId → ℕ) →
    Core × (ThreadId → ℕ)
  | [], c, out => (c, out)
  | (e, r) :: rs, c, out =>
    followMalloc rs (c.requestMalloc e r) (outstanding r (c.mallocAnswer e r) out)

/-- What the lock owes to the next request. -/
structure MallocLaw (c : Core) (out : ThreadId → ℕ) (e : Environment) (r : MallocRequest) :
    Prop where
  granted : ∀ tid, r = .acquire tid →
    (bit (c.mallocAnswer e r) 31 = true ↔ ∀ u ≠ tid, out u = 0)
  kept : ∀ u, 0 < out u → u ≠ r.thread → (c.requestMalloc e r).mallocLock = c.mallocLock
  foreign : ∀ tid, r = .release tid → out tid = 0 →
    (c.requestMalloc e r).mallocLock = c.mallocLock

-- the count does not wrap, and thread 255 does not release a free lock
def mallocGuard (r : MallocRequest) (m : MallocLock) : Prop :=
  match r with
  | .acquire tid => ¬ (m.mutex = true ∧ m.holder = tid ∧ m.count = 15)
  | .release tid => ¬ (m.mutex = false ∧ tid = 0xFF)

instance mallocGuard.decidable (r : MallocRequest) (m : MallocLock) : Decidable (mallocGuard r m) :=
  match r with
  | .acquire _ => inferInstanceAs (Decidable (¬ _))
  | .release _ => inferInstanceAs (Decidable (¬ _))

def Core.MallocAllowed : List (Environment × MallocRequest) → Core → Prop
  | [], _ => True
  | (e, r) :: rs, c => mallocGuard r c.mallocLock ∧ MallocAllowed rs (c.requestMalloc e r)

inductive Owned : MallocLock → (ThreadId → ℕ) → Prop
  | free : Owned .initial fun _ => 0
  | held (tid : ThreadId) (count : BitVec 4) : count ≠ 0 →
    Owned ⟨true, tid, count⟩ (Function.update (fun _ => 0) tid count.toNat)

section Steps

variable {m : MallocLock} {out : ThreadId → ℕ} {tid : ThreadId}

lemma bit_answer (m : MallocLock) (tid : ThreadId) : bit (m.answer tid) 31 = (m.holder == tid) := by
  rw [MallocLock.answer]
  simp only [bit, BitVec.getLsbD_append]
  simp

lemma toNat_succ {count : BitVec 4} (h : count ≠ 15) :
    count + 1 ≠ 0 ∧ (count + 1).toNat = count.toNat + 1 := by
  revert count
  decide

lemma toNat_pred {count : BitVec 4} (h : count ≠ 0) : (count - 1).toNat = count.toNat - 1 := by
  revert count
  decide

lemma acquire_free : MallocLock.initial.acquire tid = ⟨true, tid, 1⟩ := rfl

lemma acquire_held (count : BitVec 4) :
    MallocLock.acquire tid ⟨true, tid, count⟩ = ⟨true, tid, count + 1⟩ := by
  simp [MallocLock.acquire]

lemma acquire_other {h : ThreadId} (hne : h ≠ tid) (count : BitVec 4) :
    MallocLock.acquire tid ⟨true, h, count⟩ = ⟨true, h, count⟩ := by
  simp [MallocLock.acquire, hne]

lemma release_free (hne : tid ≠ 0xFF) : MallocLock.initial.release tid = .initial := by
  have hne' : ¬ MallocLock.initial.holder = tid := fun heq => hne heq.symm
  simp only [MallocLock.release, if_neg hne']
  rfl

lemma release_other {h : ThreadId} (hne : h ≠ tid) {count : BitVec 4} (hc : count ≠ 0) :
    MallocLock.release tid ⟨true, h, count⟩ = ⟨true, h, count⟩ := by
  simp only [MallocLock.release, if_neg hne, if_neg hc]

lemma release_held (count : BitVec 4) : MallocLock.release tid ⟨true, tid, count⟩ =
    if count - 1 = 0 then .initial else ⟨true, tid, count - 1⟩ := by
  simp only [MallocLock.release, if_true]
  split
  · next hc =>
    rw [hc]
    rfl
  · rfl

lemma Owned.acquire (h : Owned m out) (hg : mallocGuard (.acquire tid) m) :
    Owned (m.acquire tid) (outstanding (.acquire tid) ((m.acquire tid).answer tid) out) := by
  rw [outstanding, bit_answer]
  cases h with
  | free =>
    rw [acquire_free, beq_self_eq_true, if_pos rfl]
    exact .held tid 1 (by decide)
  | held u count hc =>
    by_cases hu : u = tid
    · subst hu
      obtain ⟨hne, hnat⟩ := toNat_succ fun heq => hg ⟨rfl, rfl, heq⟩
      rw [acquire_held, beq_self_eq_true, if_pos rfl, Function.update_self, Function.update_idem,
        ← hnat]
      exact .held u (count + 1) hne
    · rw [acquire_other hu, beq_eq_false_iff_ne.mpr hu, if_neg Bool.false_ne_true]
      exact .held u count hc

lemma Owned.release (h : Owned m out) (hg : mallocGuard (.release tid) m) (w : Word) :
    Owned (m.release tid) (outstanding (.release tid) w out) := by
  rw [outstanding]
  cases h with
  | free =>
    have hout : Function.update (fun _ : ThreadId => 0) tid (0 - 1) = fun _ => 0 :=
      Function.update_eq_self tid _
    rw [release_free fun heq => hg ⟨rfl, heq⟩, hout]
    exact .free
  | held u count hc =>
    by_cases hu : u = tid
    · subst hu
      rw [release_held, Function.update_self, Function.update_idem, ← toNat_pred hc]
      split
      · next hone =>
        have hout : Function.update (fun _ : ThreadId => 0) u (count - 1).toNat = fun _ => 0 := by
          rw [hone]
          exact Function.update_eq_self u _
        rw [hout]
        exact .free
      · next hne => exact .held u (count - 1) hne
    · have hzero : Function.update (fun _ : ThreadId => 0) u count.toNat tid = 0 :=
        Function.update_of_ne (Ne.symm hu) _ _
      have hout : Function.update (Function.update (fun _ : ThreadId => 0) u count.toNat) tid
          (Function.update (fun _ : ThreadId => 0) u count.toNat tid - 1) =
          Function.update (fun _ => 0) u count.toNat := by
        rw [hzero, Nat.zero_sub]
        nth_rewrite 2 [← hzero]
        exact Function.update_eq_self tid _
      rw [release_other hu hc, hout]
      exact .held u count hc

lemma Owned.effect (h : Owned m out) {r : MallocRequest} (hg : mallocGuard r m) :
    Owned (r.effect m) (outstanding r ((r.effect m).answer r.thread) out) := by
  cases r with
  | acquire tid => exact h.acquire hg
  | release tid => exact h.release hg _

lemma Owned.granted (h : Owned m out) :
    bit ((m.acquire tid).answer tid) 31 = true ↔ ∀ u ≠ tid, out u = 0 := by
  rw [bit_answer]
  cases h with
  | free =>
    rw [acquire_free]
    exact iff_of_true (beq_self_eq_true tid) fun _ _ => rfl
  | held v count hc =>
    by_cases hv : v = tid
    · subst hv
      rw [acquire_held]
      refine iff_of_true (beq_self_eq_true v) fun u hu => ?_
      exact Function.update_of_ne hu _ _
    · rw [acquire_other hv]
      refine iff_of_false (by simpa using hv) fun hall => hc ?_
      have hzero := hall v hv
      rw [Function.update_self] at hzero
      exact BitVec.eq_of_toNat_eq hzero

lemma Owned.kept (h : Owned m out) {r : MallocRequest} {u : ThreadId} (hu : 0 < out u)
    (hne : u ≠ r.thread) : r.effect m = m := by
  cases h with
  | free => exact absurd hu (Nat.lt_irrefl 0)
  | held v count hc =>
    obtain rfl : u = v := by
      by_contra huv
      rw [Function.update_of_ne huv] at hu
      exact Nat.lt_irrefl 0 hu
    cases r with
    | acquire tid => exact acquire_other hne count
    | release tid => exact release_other hne hc

lemma Owned.foreign (h : Owned m out) (hg : mallocGuard (.release tid) m) (hz : out tid = 0) :
    m.release tid = m := by
  cases h with
  | free => exact release_free fun heq => hg ⟨rfl, heq⟩
  | held u count hc =>
    refine release_other (fun hu => hc ?_) hc
    rw [hu, Function.update_self] at hz
    exact BitVec.eq_of_toNat_eq hz

end Steps

lemma owned_follow {c : Core} (hc : c.Quiescent) {rs : List (Environment × MallocRequest)}
    (hrs : c.MallocAllowed rs) {out : ThreadId → ℕ} (h : Owned c.mallocLock out) :
    (c.followMalloc rs out).1.Quiescent ∧
      Owned (c.followMalloc rs out).1.mallocLock (c.followMalloc rs out).2 := by
  induction rs generalizing c out with
  | nil => exact ⟨hc, h⟩
  | cons x rs ih =>
    obtain ⟨e, r⟩ := x
    obtain ⟨hexec, hlock, hanswer⟩ := requestMalloc_spec hc e r
    refine ih hexec.toQuiescent hrs.2 ?_
    rw [hlock, hanswer]
    exact h.effect hrs.1

theorem malloc_lock_owned_on_guarded_runs (e : Environment) (c : Core)
    (hc : c.regs.insideReset = false) (rs : List (Environment × MallocRequest))
    (hrs : (c.softReset e).MallocAllowed rs) (e' : Environment) (r : MallocRequest)
    (hr : mallocGuard r ((c.softReset e).followMalloc rs fun _ => 0).1.mallocLock) :
    MallocLaw ((c.softReset e).followMalloc rs fun _ => 0).1
      ((c.softReset e).followMalloc rs fun _ => 0).2 e' r := by
  have hreset := softReset_spec e hc
  have hfree : Owned (c.softReset e).mallocLock fun _ => 0 := by
    rw [softReset_mallocLock e hc]
    exact .free
  obtain ⟨hquiet, howned⟩ := owned_follow hreset.toQuiescent hrs hfree
  obtain ⟨-, hlock, hanswer⟩ := requestMalloc_spec hquiet e' r
  refine ⟨?_, fun u hu hne => ?_, ?_⟩
  · rintro tid rfl
    rw [hanswer]
    exact howned.granted
  · rw [hlock]
    exact howned.kept hu hne
  · rintro tid rfl hz
    rw [hlock]
    exact howned.foreign hr hz

section Evaluation

-- the lock alone, with the answers it gives
def MallocLock.follow : List (Environment × MallocRequest) → MallocLock → (ThreadId → ℕ) →
    MallocLock × (ThreadId → ℕ)
  | [], m, out => (m, out)
  | (_, r) :: rs, m, out =>
    follow rs (r.effect m) (outstanding r ((r.effect m).answer r.thread) out)

def MallocLock.Allowed : List (Environment × MallocRequest) → MallocLock → Prop
  | [], _ => True
  | (_, r) :: rs, m => mallocGuard r m ∧ Allowed rs (r.effect m)

instance MallocLock.Allowed.decidable : ∀ rs m, Decidable (MallocLock.Allowed rs m)
  | [], _ => inferInstanceAs (Decidable True)
  | (_, r) :: rs, m =>
    have := MallocLock.Allowed.decidable rs (r.effect m)
    inferInstanceAs (Decidable (_ ∧ _))

lemma followMalloc_eq {c : Core} (hc : c.Quiescent) (rs : List (Environment × MallocRequest))
    (out : ThreadId → ℕ) : (c.followMalloc rs out).1.Quiescent ∧
      ((c.followMalloc rs out).1.mallocLock, (c.followMalloc rs out).2) =
        c.mallocLock.follow rs out := by
  induction rs generalizing c out with
  | nil => exact ⟨hc, rfl⟩
  | cons x rs ih =>
    obtain ⟨hexec, hlock, hanswer⟩ := requestMalloc_spec hc x.1 x.2
    have hrest := ih hexec.toQuiescent (outstanding x.2 (c.mallocAnswer x.1 x.2) out)
    rw [hlock, hanswer] at hrest
    rw [Core.followMalloc, hanswer]
    exact hrest

lemma mallocAllowed_iff {c : Core} (hc : c.Quiescent) (rs : List (Environment × MallocRequest)) :
    c.MallocAllowed rs ↔ c.mallocLock.Allowed rs := by
  induction rs generalizing c with
  | nil => exact Iff.rfl
  | cons x rs ih =>
    obtain ⟨hexec, hlock, -⟩ := requestMalloc_spec hc x.1 x.2
    have hrest := ih hexec.toQuiescent
    rw [hlock] at hrest
    exact and_congr_right fun _ => hrest

end Evaluation

def mallocReset : Core := Core.powerUp.softReset ⟨0, fun _ => 0⟩

lemma mallocReset_spec : mallocReset.Quiescent ∧ mallocReset.mallocLock = .initial :=
  ⟨(softReset_spec _ rfl).toQuiescent, softReset_mallocLock _ rfl⟩

-- thread 1 nests twice, thread 2 is sent away and releases what it does not hold
def nestedRun : List (Environment × MallocRequest) :=
  [.acquire 1, .acquire 2, .acquire 1, .release 2, .release 1].map fun r => (⟨0, fun _ => 0⟩, r)

theorem malloc_lock_owned_on_nestedRun :
    MallocLaw (mallocReset.followMalloc nestedRun fun _ => 0).1
      (mallocReset.followMalloc nestedRun fun _ => 0).2 ⟨0, fun _ => 0⟩ (.acquire 2) := by
  obtain ⟨hquiet, hlock⟩ := mallocReset_spec
  obtain ⟨-, heq⟩ := followMalloc_eq hquiet nestedRun fun _ => 0
  refine malloc_lock_owned_on_guarded_runs _ _ rfl nestedRun ?_ _ _ ?_
  · refine (mallocAllowed_iff hquiet nestedRun).mpr ?_
    rw [hlock]
    decide
  · have hm := congrArg Prod.fst heq
    rw [hlock] at hm
    simp only at hm
    change mallocGuard _ (mallocReset.followMalloc nestedRun fun _ => 0).1.mallocLock
    rw [hm]
    decide

-- sixteen acquires of thread 1 bring its count back to zero
def wrappedRun : List (Environment × MallocRequest) :=
  List.replicate 16 (⟨0, fun _ => 0⟩, .acquire 1)

theorem malloc_lock_freed_by_other_after_wrap :
    ¬ ∀ (e : Environment) (c : Core), c.regs.insideReset = false →
      ∀ (rs : List (Environment × MallocRequest)) (e' : Environment) (r : MallocRequest),
        MallocLaw ((c.softReset e).followMalloc rs fun _ => 0).1
          ((c.softReset e).followMalloc rs fun _ => 0).2 e' r := by
  intro hclaim
  obtain ⟨hquiet, hlock⟩ := mallocReset_spec
  obtain ⟨hquiet', heq⟩ := followMalloc_eq hquiet wrappedRun fun _ => 0
  rw [hlock] at heq
  have hm := congrArg Prod.fst heq
  have hout := congrFun (congrArg Prod.snd heq) 1
  have hkept := (hclaim ⟨0, fun _ => 0⟩ Core.powerUp rfl wrappedRun ⟨0, fun _ => 0⟩
    (.release 2)).kept 1
  change 0 < (mallocReset.followMalloc wrappedRun fun _ => 0).2 1 → _ at hkept
  obtain ⟨-, hnext, -⟩ := requestMalloc_spec hquiet' ⟨0, fun _ => 0⟩ (.release 2)
  simp only at hm hout
  have hsame := hkept (by rw [hout]; decide) (by decide)
  rw [hm] at hnext
  have hcontra : MallocRequest.effect (.release 2)
    (MallocLock.follow wrappedRun .initial fun _ => 0).1
      = (MallocLock.follow wrappedRun .initial fun _ => 0).1 := hnext.symm.trans (hsame.trans hm)
  exact absurd hcontra (by decide)

end Hthreads.Scheduler
