import Hthreads.SyncManager.Ledger

/-! Who is told to wait for a mutex, and who is woken for it. -/

namespace Hthreads.SyncManager

open Library Scheduler

variable {m : ℕ}

/-- The thread that a request leaves waiting for the mutex, seen from the word it is answered. -/
def toldToWait (μ : BitVec m) (r : Request m) (data : Word) : List ThreadId :=
  match r with
  | .lock ν t => if ν = μ ∧ data = blockData then [t] else []
  | _ => []

def waitsFor (μ : BitVec m) (rs : List (Request m)) (answers : List (Word × List ThreadId)) :
    List ThreadId :=
  (rs.zip answers).flatMap fun x => toldToWait μ x.1 x.2.1

/-- The threads named on the send port while requests for the mutex are served. -/
def wokenFor (μ : BitVec m) (rs : List (Request m)) (answers : List (Word × List ThreadId)) :
    List ThreadId :=
  (rs.zip answers).flatMap fun x => if x.1.mutex = μ then x.2.2 else []

namespace FifoMutex

variable {M : FifoMutex} {t : ThreadId}

lemma lock_waiters :
    (M.lock t).2.waiters = M.waiters ++ if (M.lock t).1.data = blockData then [t] else [] := by
  have hsuccess : Verdict.success.data ≠ blockData := by decide
  have hrefused : Verdict.refused.data ≠ blockData := by decide
  obtain ⟨kind, _ | ⟨owner, depth, ws⟩⟩ := M
  · change [] = [] ++ if Verdict.success.data = blockData then [t] else []
    rw [if_neg hsuccess, List.append_nil]
  · by_cases hrecurs : owner = t ∧ kind = synchRecurs
    · simp only [lock, if_pos hrecurs, waiters, Option.elim, if_neg hsuccess, List.append_nil]
    · by_cases herror : owner = t ∧ kind = synchError
      · simp only [lock, if_neg hrecurs, if_pos herror, if_neg hrefused, List.append_nil]
      · simp only [lock, if_neg hrecurs, if_neg herror, Verdict.data, if_true, waiters, Option.elim]

lemma tryLock_waiters : (M.tryLock t).2.waiters = M.waiters := by
  obtain ⟨kind, _ | ⟨owner, depth, ws⟩⟩ := M
  · rfl
  · by_cases hrecurs : owner = t ∧ kind = synchRecurs
    · simp only [tryLock, if_pos hrecurs, waiters, Option.elim]
    · simp only [tryLock, if_neg hrecurs]

lemma unlock_waiters : M.waiters = M.unlock.2.1 ++ M.unlock.2.2.waiters := by
  obtain ⟨kind, _ | ⟨owner, depth, _ | ⟨w, ws⟩⟩⟩ := M
  · rfl
  · by_cases hdepth : 1 < depth <;> simp [unlock, waiters, hdepth]
  · by_cases hdepth : 1 < depth <;> simp [unlock, waiters, hdepth]

end FifoMutex

namespace FifoMutexes

variable {A : FifoMutexes m} {μ : BitVec m}

lemma waiters_step (A : FifoMutexes m) (μ : BitVec m) (r : Request m) :
    (A μ).waiters ++ toldToWait μ r (A.step r).1.data =
      (if r.mutex = μ then (A.step r).2.1 else []) ++ ((A.step r).2.2 μ).waiters := by
  by_cases hμ : r.mutex = μ
  · subst hμ
    cases r with
    | lock ν t => simp [step, Request.mutex, toldToWait, FifoMutex.lock_waiters]
    | tryLock ν t => simp [step, Request.mutex, toldToWait, FifoMutex.tryLock_waiters]
    | unlock ν t => simp [step, Request.mutex, toldToWait, ← FifoMutex.unlock_waiters]
    | setKind ν k => simp [step, Request.mutex, toldToWait, FifoMutex.waiters]
    | kind ν | owner ν | count ν => simp [step, toldToWait]
  · rw [if_neg hμ, List.nil_append]
    cases r with
    | lock ν t =>
      have hne : μ ≠ ν := Ne.symm hμ
      simp [step, toldToWait, hne, Ne.symm hne]
    | tryLock ν t | unlock ν t | setKind ν k =>
      have hne : μ ≠ ν := Ne.symm hμ
      simp [step, toldToWait, hne]
    | kind ν | owner ν | count ν => simp [step, toldToWait]

lemma length_run (A : FifoMutexes m) (rs : List (Request m)) : (A.run rs).1.length = rs.length := by
  induction rs generalizing A with
  | nil => rfl
  | cons r rs ih => simp [run, ih]

lemma waiters_run (A : FifoMutexes m) (μ : BitVec m) (rs : List (Request m)) :
    (A μ).waiters ++ waitsFor μ rs (A.run rs).1 =
      wokenFor μ rs (A.run rs).1 ++ ((A.run rs).2 μ).waiters := by
  induction rs generalizing A with
  | nil => simp [waitsFor, wokenFor, run]
  | cons r rs ih =>
    have hstep := waiters_step A μ r
    have hrest := ih (A.step r).2.2
    simp only [waitsFor, wokenFor, run, List.zip_cons_cons, List.flatMap_cons] at hrest ⊢
    rw [← List.append_assoc, hstep, List.append_assoc, hrest, List.append_assoc]

end FifoMutexes

/-- Nobody is lost, woken twice or overtaken. In every sequence of transactions after the reset,
the callers that were told to block on a mutex are, in their order, those named on the send port
for it and those that its list of waiters holds at the end. -/
theorem blocked_served_in_order (s : Slave m) (hs : s.Blank) (turns : List Slave.Turn)
    (rs : List (Request m)) (hturns : turns.map (fun turn => turn.2.request) = rs.map some)
    (hrs : FifoMutexes.initial.Disciplined rs) :
    ∃ answers t, s.serveAll turns = some (answers, t) ∧ answers.length = rs.length ∧
      ∀ μ, waitsFor μ rs answers = wokenFor μ rs answers ++ t.stores.waiters μ := by
  obtain ⟨t, hall, -, hstores⟩ := serveAll_eq_run hs.toQuiet hturns
  obtain ⟨hanswers, hrep⟩ := represents_initial.run hrs
  rw [hs.stores] at hall hstores
  rw [hanswers] at hall
  refine ⟨_, t, hall, FifoMutexes.length_run _ rs, fun μ => ?_⟩
  have hwaiters := FifoMutexes.waiters_run (FifoMutexes.initial : FifoMutexes m) μ rs
  rw [hstores, congrFun hrep.waiters μ]
  simpa [FifoMutex.waiters, FifoMutexes.initial] using hwaiters

-- thread 7 is woken for mutex 1, and thread 9 still waits
def twoBlocked : List (Request 1) := [.lock 1 5, .lock 1 7, .lock 1 9, .unlock 1 5]

def twoBlockedTurns : List Slave.Turn :=
  [(0, ⟨some .lock, 0x2c, 0, true⟩), (3, ⟨some .lock, 0x3c, 0, true⟩),
    (0, ⟨some .lock, 0x4c, 0, true⟩), (1, ⟨some .unlock, 0x2c, 0, true⟩)]

theorem blocked_served_in_order_two :
    ∃ answers t, ((Slave.reset .idle)^[300] (Slave.powerUp : Slave 1)).serveAll twoBlockedTurns =
        some (answers, t) ∧
      waitsFor 1 twoBlocked answers = wokenFor 1 twoBlocked answers ++ t.stores.waiters 1 := by
  have hblank : Slave.Blank ((Slave.reset .idle)^[300] (Slave.powerUp : Slave 1)) :=
    Slave.blank_of_reset rfl rfl .idle (by norm_num) (by norm_num)
  obtain ⟨answers, t, hall, -, hwaits⟩ :=
    blocked_served_in_order _ hblank twoBlockedTurns twoBlocked
    (by decide) (by decide)
  exact ⟨answers, t, hall, hwaits 1⟩

end Hthreads.SyncManager
