import Hthreads.SyncManager.Runs

/-! What one thread sees of one mutex: a ledger of its requests, and the effect of each request on
the entry of the mutex. -/

namespace Hthreads.SyncManager

open Library Scheduler

variable {m : ℕ}

def Request.mutex : Request m → BitVec m
  | lock μ _ | tryLock μ _ | unlock μ _ | setKind μ _ | kind μ | owner μ | count μ => μ

def Request.asks (μ : BitVec m) : Request m → Option ThreadId
  | lock ν u | tryLock ν u => if ν = μ then some u else none
  | _ => none

def Stores.Owns (S : Stores m) (μ : BitVec m) (t : ThreadId) : Prop :=
  (S.mutexes μ).count ≠ 0 ∧ (S.mutexes μ).owner = t

/-- The stores, and what has been seen of mutex `μ` from the side of thread `t`: its granted
requests, its unlocks, the grants to other threads and the hand-offs. -/
structure Ledger (m : ℕ) where
  stores : Stores m
  granted : ℕ := 0
  unlocked : ℕ := 0
  others : ℕ := 0
  handed : ℕ := 0

namespace Ledger

variable (t : ThreadId) (μ : BitVec m)

def step (L : Ledger m) (r : Request m) : Ledger m where
  stores := (r.effect L.stores).stores
  granted := L.granted + if r.asks μ = some t ∧ (r.effect L.stores).data = 0 then 1 else 0
  unlocked := L.unlocked + if r = .unlock μ t then 1 else 0
  others := L.others +
    if (r.asks μ).any (· ≠ t) ∧ (r.effect L.stores).data = 0 then 1 else 0
  handed := L.handed + if r.mutex = μ then (r.effect L.stores).sent.length else 0

def run (L : Ledger m) (rs : List (Request m)) : Ledger m := rs.foldl (step t μ) L

/-- While the thread has unlocked less often than it was granted the mutex, the mutex is its own;
after as many unlocks it is not. -/
structure Kept (L : Ledger m) : Prop where
  owns : L.unlocked < L.granted → L.stores.Owns μ t
  alone : L.unlocked < L.granted → L.others = 0 ∧ L.handed = 0
  released : L.unlocked = L.granted → ¬ L.stores.Owns μ t

end Ledger

section Schedules

variable (t : ThreadId) (μ : BitVec m)

def locks (rs : List (Request m)) : ℕ := rs.countP fun r => r.asks μ = some t

def unlocks (rs : List (Request m)) : ℕ := rs.count (.unlock μ t)

/-- With `n` locks and `k` unlocks of thread `t` behind it, the request has its place between its
first lock and its last unlock; requests to other mutexes are not restricted. -/
def Interleaves (n k : ℕ) : Request m → Prop
  | .lock ν u | .tryLock ν u => ν = μ → k < n ∨ u = t ∧ n = 0
  | .unlock ν u => ν = μ → u = t ∧ k < n
  | .setKind ν _ => ν ≠ μ
  | .kind _ | .owner _ | .count _ => True

def Scheduled (rs : List (Request m)) : Prop :=
  ∀ i : Fin rs.length, Interleaves t μ (locks t μ (rs.take i)) (unlocks t μ (rs.take i)) rs[i]

instance Interleaves.decidable (n k : ℕ) (r : Request m) : Decidable (Interleaves t μ n k r) :=
  match r with
  | .lock ν u | .tryLock ν u => inferInstanceAs (Decidable (ν = μ → k < n ∨ u = t ∧ n = 0))
  | .unlock ν u => inferInstanceAs (Decidable (ν = μ → u = t ∧ k < n))
  | .setKind ν _ => inferInstanceAs (Decidable (ν ≠ μ))
  | .kind _ | .owner _ | .count _ => inferInstanceAs (Decidable True)

instance Scheduled.decidable (rs : List (Request m)) : Decidable (Scheduled t μ rs) :=
  inferInstanceAs (Decidable (∀ i : Fin rs.length, Interleaves t μ _ _ rs[i]))

variable {t μ}

lemma Scheduled.interleaves {rs p : List (Request m)} {r : Request m} (h : Scheduled t μ rs)
    (hp : p ++ [r] <+: rs) : Interleaves t μ (locks t μ p) (unlocks t μ p) r := by
  obtain ⟨q, rfl⟩ := hp
  have hp := h ⟨p.length, by simp⟩
  simpa using hp

end Schedules

section Effects

variable {S : Stores m} {μ : BitVec m} {t u : ThreadId} {r : Request m}

lemma Request.of_asks (h : r.asks μ = some u) : r = .lock μ u ∨ r = .tryLock μ u := by
  cases r with
  | lock ν v =>
    simp only [asks] at h
    split at h
    next hν => exact .inl (by rw [hν, Option.some.inj h])
    next => cases h
  | tryLock ν v =>
    simp only [asks] at h
    split at h
    next hν => exact .inr (by rw [hν, Option.some.inj h])
    next => cases h
  | _ => cases h

lemma Request.asks_mutex (h : r.asks μ = some u) : r.mutex = μ := by
  rcases of_asks h with rfl | rfl <;> rfl

lemma effect_asks_free (h : r.asks μ = some u) (hfree : (S.mutexes μ).count = 0) :
    r.effect S = { stores := S.grant μ u } := by
  rcases Request.of_asks h with rfl | rfl
  · simp [Request.effect, Stores.lock, hfree]
  · simp [Request.effect, Stores.tryLock, hfree]

lemma effect_asks_own (h : r.asks μ = some t) (hheld : (S.mutexes μ).count ≠ 0)
    (hkind : (S.mutexes μ).kind = synchRecurs) (howner : (S.mutexes μ).owner = t) :
    r.effect S = { stores := S.nest μ } := by
  have hother : ¬ synchRecurs = synchError := by decide
  rcases Request.of_asks h with rfl | rfl
  · simp only [Request.effect, Stores.lock, if_neg hheld, hkind, howner, hother,
      false_and, and_self, if_true, if_false]
  · simp only [Request.effect, Stores.tryLock, if_neg hheld, hkind, howner, and_self, if_true]

/-- The two ends of the waiting list agree on whether the thread itself is one of them. -/
def MutexEntry.Ends (e : MutexEntry) (t : ThreadId) : Prop :=
  e.next = t ∧ e.last = t ∨ e.next ≠ t ∧ e.last ≠ t

lemma effect_asks_other (h : r.asks μ = some u) (hu : u ≠ t)
    (hheld : (S.mutexes μ).count ≠ 0) (howner : (S.mutexes μ).owner = t)
    (hends : (S.mutexes μ).Ends t) :
    (r.effect S).data = blockData ∧ (r.effect S).sent = [] ∧
      ((r.effect S).stores.mutexes μ).owner = t ∧
      ((r.effect S).stores.mutexes μ).kind = (S.mutexes μ).kind ∧
      ((r.effect S).stores.mutexes μ).count = (S.mutexes μ).count ∧
      ((r.effect S).stores.mutexes μ).Ends t := by
  have hne : ¬ (S.mutexes μ).owner = u := by
    rw [howner]
    exact hu.symm
  rcases Request.of_asks h with rfl | rfl
  · simp only [Request.effect, Stores.lock, if_neg hheld, hne, and_false, if_false]
    split
    next => simpa [Stores.put, Stores.link, MutexEntry.Ends, howner] using Or.inr hu
    next hnext =>
      rw [howner] at hnext
      have hnew : (S.mutexes μ).next ≠ t ∧ u ≠ t := ⟨hnext, hu⟩
      simpa [Stores.put, Stores.link, MutexEntry.Ends, howner] using Or.inr hnew
  · simp only [Request.effect, Stores.tryLock, if_neg hheld, hne, and_false, if_false]
    exact ⟨trivial, trivial, howner, trivial, trivial, hends⟩

/-- A request for the mutex is granted on a free mutex, granted again to the owner of a recursive
one, and otherwise leaves owner, kind and count as they are. -/
lemma effect_asks_cases (h : r.asks μ = some u) :
    (r.effect S).sent = [] ∧
    ((S.mutexes μ).count = 0 ∧ (r.effect S).data = 0 ∧
        (r.effect S).stores.mutexes μ = ⟨u, u, u, (S.mutexes μ).kind, 1⟩ ∨
      (S.mutexes μ).kind = synchRecurs ∧ (S.mutexes μ).owner = u ∧ (r.effect S).data = 0 ∧
        (r.effect S).stores.mutexes μ =
          { S.mutexes μ with count := (S.mutexes μ).count + 1 } ∨
      (r.effect S).data ≠ 0 ∧
        ((r.effect S).stores.mutexes μ).owner = (S.mutexes μ).owner ∧
        ((r.effect S).stores.mutexes μ).kind = (S.mutexes μ).kind ∧
        ((r.effect S).stores.mutexes μ).count = (S.mutexes μ).count) := by
  by_cases hfree : (S.mutexes μ).count = 0
  · rw [effect_asks_free h hfree]
    exact ⟨rfl, .inl ⟨hfree, rfl, Function.update_self μ _ _⟩⟩
  by_cases hown : (S.mutexes μ).kind = synchRecurs ∧ (S.mutexes μ).owner = u
  · rw [effect_asks_own h hfree hown.1 hown.2]
    exact ⟨rfl, .inr (.inl ⟨hown.1, hown.2, rfl, Function.update_self μ _ _⟩)⟩
  have hblock : blockData ≠ 0 := by decide
  have herror : errorData ≠ 0 := by decide
  rcases Request.of_asks h with rfl | rfl
  · simp only [Request.effect, Stores.lock, if_neg hfree, if_neg hown]
    split_ifs with herr hnext
    · exact ⟨rfl, .inr (.inr ⟨herror, rfl, rfl, rfl⟩)⟩
    · refine ⟨rfl, .inr (.inr ⟨hblock, ?_⟩)⟩
      simp [Stores.put, Stores.link]
    · refine ⟨rfl, .inr (.inr ⟨hblock, ?_⟩)⟩
      simp [Stores.put, Stores.link]
  · simp only [Request.effect, Stores.tryLock, if_neg hfree, if_neg hown]
    exact ⟨trivial, .inr (.inr ⟨hblock, trivial, trivial, trivial⟩)⟩

lemma unlock_cases (S : Stores m) (μ : BitVec m) :
    ((S.mutexes μ).kind = synchRecurs ∧ (S.mutexes μ).count ≠ 0 ∧ (S.unlock μ).sent = [] ∧
        (S.unlock μ).stores.mutexes μ =
          { S.mutexes μ with count := (S.mutexes μ).count - 1 }) ∨
      ((S.mutexes μ).count = 1 ∧ (S.unlock μ).sent = [] ∧
        (S.unlock μ).stores.mutexes μ = ⟨0, 0, 0, (S.mutexes μ).kind, 0⟩) ∨
      ((S.mutexes μ).count = 1 ∧ (S.unlock μ).sent = [(S.mutexes μ).next] ∧
        (S.unlock μ).stores.mutexes μ = ⟨(S.mutexes μ).next, S.links (S.mutexes μ).next,
          (S.mutexes μ).last, (S.mutexes μ).kind, 1⟩) ∨
      (¬ ((S.mutexes μ).kind = synchRecurs ∧ (S.mutexes μ).count ≠ 0) ∧
        (S.mutexes μ).count ≠ 1 ∧ (S.unlock μ).sent = [] ∧ (S.unlock μ).stores = S) := by
  rw [Stores.unlock]
  split_ifs with hnested hone hlast
  · exact .inl ⟨hnested.1, hnested.2.2, rfl, Function.update_self μ _ _⟩
  · exact .inr (.inl ⟨hone, rfl, Function.update_self μ _ _⟩)
  · exact .inr (.inr (.inl ⟨hone, rfl, Function.update_self μ _ _⟩))
  · exact .inr (.inr (.inr ⟨fun hheld => hnested ⟨hheld.1, hone, hheld.2⟩, hone, rfl, rfl⟩))

lemma effect_mutexes_of_ne (h : r.mutex ≠ μ) :
    (r.effect S).stores.mutexes μ = S.mutexes μ := by
  have hput : ∀ (T : Stores m) (e : MutexEntry), T.mutexes μ = S.mutexes μ →
      (T.put r.mutex e).mutexes μ = S.mutexes μ := by
    intro T e hT
    exact (Function.update_of_ne h.symm _ _).trans hT
  cases r with
  | lock ν u =>
    simp only [Request.effect, Stores.lock]
    split_ifs <;> first | rfl | exact hput S _ rfl
  | tryLock ν u =>
    simp only [Request.effect, Stores.tryLock]
    split_ifs <;> first | rfl | exact hput S _ rfl
  | unlock ν u =>
    simp only [Request.effect, Stores.unlock]
    split_ifs <;> first | rfl | exact hput S _ rfl
  | setKind ν k => exact hput S _ rfl
  | _ => rfl

end Effects

end Hthreads.SyncManager
