import Hthreads.SyncManager.Refinement

/-! Sequences of bus transactions from the reset, and the mutexes they implement. -/

namespace Hthreads.SyncManager

open Library Scheduler

variable {m : ℕ}

namespace FifoMutexes

def run (A : FifoMutexes m) : List (Request m) → List (Word × List ThreadId) × FifoMutexes m
  | [] => ([], A)
  | r :: rs =>
    (((A.step r).1.data, (A.step r).2.1) :: ((A.step r).2.2.run rs).1, ((A.step r).2.2.run rs).2)

def Disciplined (A : FifoMutexes m) : List (Request m) → Prop
  | [] => True
  | r :: rs => A.Allowed r ∧ (A.step r).2.2.Disciplined rs

instance Disciplined.decidable (A : FifoMutexes m) : ∀ rs, Decidable (A.Disciplined rs)
  | [] => inferInstanceAs (Decidable True)
  | r :: rs =>
    have := Disciplined.decidable (A.step r).2.2 rs
    inferInstanceAs (Decidable (A.Allowed r ∧ (A.step r).2.2.Disciplined rs))

end FifoMutexes

namespace Slave

/-- Some cycles in which the bus is idle, followed by a transaction. -/
abbrev Turn := ℕ × Bus

def serveAll : List Turn → Slave m → Option (List (Word × List ThreadId) × Slave m)
  | [], s => some ([], s)
  | (n, b) :: turns, s => do
    let (data, ids, t) ← serve b 5 ((clock .idle)^[n] s)
    let (answers, u) ← serveAll turns t
    return ((data, ids) :: answers, u)

structure Blank (s : Slave m) : Prop extends s.Quiet where
  stores : s.stores = .initial

lemma Quiet.iterate_idle {s : Slave m} (h : s.Quiet) (n : ℕ) :
    ((clock .idle)^[n] s).Quiet ∧ ((clock .idle)^[n] s).stores = s.stores := by
  induction n with
  | zero => exact ⟨h, rfl⟩
  | succ n ih =>
    rw [Function.iterate_succ_apply']
    exact ⟨ih.1.clock_idle, ih.1.clock_idle_stores.trans ih.2⟩

lemma reset_quiet (b : Bus) (s : Slave m) : (s.reset b).Quiet :=
  ⟨rfl, rfl, rfl, rfl, rfl, rfl, rfl, rfl⟩

lemma blank_of_reset {s : Slave m} (hm : s.mutexes.resetting = false)
    (ht : s.threads.resetting = false) (b : Bus) {n : ℕ} (hn : 2 ^ m < n) (hn' : 2 ^ 8 < n) :
    Blank ((reset b)^[n] s) := by
  have hmutexes : Function.Semiconj Slave.mutexes (reset b : Slave m → Slave m)
    (Store.clock true .off) := fun _ => rfl
  have hthreads : Function.Semiconj Slave.threads (reset b : Slave m → Slave m)
    (Store.clock true .off) := fun _ => rfl
  have hstores : ((reset b)^[n] s).stores = .initial := by
    have hcm := Store.reset_contents .off hm hn
    have hct := Store.reset_contents .off ht hn'
    rw [stores, Stores.initial, (hmutexes.iterate_right n).eq,
      (hthreads.iterate_right n).eq, hcm, hct]
  obtain ⟨k, rfl⟩ : ∃ k, n = k + 1 := Nat.exists_eq_succ_of_ne_zero (Nat.ne_zero_of_lt hn)
  refine ⟨?_, hstores⟩
  rw [Function.iterate_succ_apply']
  exact reset_quiet b _

end Slave

def Stores.run (S : Stores m) : List (Request m) → List (Word × List ThreadId) × Stores m
  | [] => ([], S)
  | r :: rs =>
    (((r.effect S).data, (r.effect S).sent) :: ((r.effect S).stores.run rs).1,
      ((r.effect S).stores.run rs).2)

/-- A sequence of transactions has the effect of the requests it carries, at any pace. -/
theorem serveAll_eq_run {s : Slave m} (hs : s.Quiet) {turns : List Slave.Turn}
    {rs : List (Request m)} (hturns : turns.map (fun turn => turn.2.request) = rs.map some) :
    ∃ t : Slave m, s.serveAll turns = some ((s.stores.run rs).1, t) ∧ t.Quiet ∧
      t.stores = (s.stores.run rs).2 := by
  induction rs generalizing turns s with
  | nil =>
    obtain rfl : turns = [] := List.map_eq_nil_iff.mp hturns
    exact ⟨s, rfl, hs, rfl⟩
  | cons r rs ih =>
    obtain ⟨⟨n, b⟩, turns, rfl, hb, hturns⟩ := List.map_eq_cons_iff.mp hturns
    obtain ⟨hquiet, hstores⟩ := hs.iterate_idle n
    obtain ⟨t, hserve, ht, htstores⟩ := Slave.serves_request hquiet hb
    rw [hstores] at hserve htstores
    obtain ⟨u, hall, hu, hustores⟩ := ih ht hturns
    rw [htstores] at hall hustores
    refine ⟨u, ?_, hu, hustores⟩
    simp only [Slave.serveAll, hserve, Option.bind_eq_bind, Option.bind_some, hall, Stores.run]
    rfl

lemma Represents.run {S : Stores m} {A : FifoMutexes m} (hS : Represents S A)
    {rs : List (Request m)} (hrs : A.Disciplined rs) :
    (S.run rs).1 = (A.run rs).1 ∧ Represents (S.run rs).2 (A.run rs).2 := by
  induction rs generalizing S A with
  | nil => exact ⟨rfl, hS⟩
  | cons r rs ih =>
    have hstep := hS.request hrs.1
    obtain ⟨hanswers, hrep⟩ := ih hstep.stores hrs.2
    refine ⟨?_, hrep⟩
    rw [Stores.run, FifoMutexes.run, hstep.data, hstep.sent, hanswers]

lemma Represents.distinct {S : Stores m} {A : FifoMutexes m} (hS : Represents S A) {μ : BitVec m}
    {h : Holder} (hh : (A μ).holder = some h) : (h.owner :: h.waiters).Nodup :=
  List.nodup_cons.mpr ⟨(hS.held hh).apart, (hS.held hh).queue.nodup⟩

/-- The synchronization manager implements first-in first-out mutexes: it answers every
disciplined sequence of requests as they do, names the same threads on the send port, and its
stores represent the mutexes at the end. -/
theorem serveAll_refines_fifoMutexes (s : Slave m) (hs : s.Blank) (turns : List Slave.Turn)
    (rs : List (Request m)) (hturns : turns.map (fun turn => turn.2.request) = rs.map some)
    (hrs : FifoMutexes.initial.Disciplined rs) :
    ∃ t : Slave m, s.serveAll turns = some ((FifoMutexes.initial.run rs).1, t) ∧
      Represents t.stores (FifoMutexes.initial.run rs).2 ∧
      ∀ μ, ∀ h ∈ ((FifoMutexes.initial.run rs).2 μ).holder, (h.owner :: h.waiters).Nodup := by
  obtain ⟨t, hall, -, hstores⟩ := serveAll_eq_run hs.toQuiet hturns
  obtain ⟨hanswers, hrep⟩ := represents_initial.run hrs
  rw [hs.stores] at hall hstores
  rw [hanswers] at hall
  exact ⟨t, hall, hstores ▸ hrep, fun μ h hh => hrep.distinct hh⟩

-- thread 5 locks mutex 1, thread 7 has to wait for it, and thread 5 hands it over
theorem serveAll_refines_handOff :
    ∃ t : Slave 1, ((Slave.reset .idle)^[300] Slave.powerUp).serveAll
        [(0, ⟨some .lock, 0x2c, 0, true⟩), (3, ⟨some .lock, 0x3c, 0, true⟩),
          (1, ⟨some .unlock, 0x2c, 0, true⟩)] =
        some ([(0, []), (blockData, []), (0, [7])], t) ∧
      Represents t.stores
        (FifoMutexes.initial.run [.lock 1 5, .lock 1 7, .unlock 1 5]).2 := by
  have hblank : Slave.Blank ((Slave.reset .idle)^[300] (Slave.powerUp : Slave 1)) :=
    Slave.blank_of_reset rfl rfl .idle (by norm_num) (by norm_num)
  obtain ⟨t, hall, hrep, -⟩ := serveAll_refines_fifoMutexes _ hblank
    [(0, ⟨some .lock, 0x2c, 0, true⟩), (3, ⟨some .lock, 0x3c, 0, true⟩),
      (1, ⟨some .unlock, 0x2c, 0, true⟩)] [.lock 1 5, .lock 1 7, .unlock 1 5] (by decide)
    (by decide)
  exact ⟨t, hall, hrep⟩

end Hthreads.SyncManager
