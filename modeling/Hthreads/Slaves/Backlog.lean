import Hthreads.Slaves.OneThread

/-! The requests that `thread_create` queues: the ring keeps them in order as long as there are no
more of them than it has slots. -/

namespace Hthreads.Slaves

open Software

namespace ThreadQueue

/-- The slots from `head` up to `tail`. Where the two meet, the ring is full or empty, and the
counter says which. The calls here do not move `head`: a request is taken out by the program itself,
as `combined.c` and other test applications do. -/
def between (q : ThreadQueue) : List Qnode :=
  let count :=
    if q.head = q.tail then if q.threadEntries = 0 then 0 else threadQueueMax
    else (q.tail.val + threadQueueMax - q.head.val) % threadQueueMax
  (List.range count).map fun i => q.slots (Fin.ofNat threadQueueMax (q.head.val + i))

lemma length_between_le (q : ThreadQueue) : q.between.length ≤ threadQueueMax := by
  rw [between, List.length_map, List.length_range]
  split_ifs
  · exact Nat.zero_le _
  · exact le_rfl
  · exact (Nat.mod_lt _ (NeZero.pos threadQueueMax)).le

def enqueueAll (q : ThreadQueue) (requests : List Qnode) : ThreadQueue :=
  requests.foldl (fun q request => q.enqueue request) q

/-- The ring after it has taken the requests, in order, since it was reset. -/
structure Holds (requests : List Qnode) (q : ThreadQueue) : Prop where
  head : q.head = 0
  tail : q.tail.val = requests.length % threadQueueMax
  index : q.threadTailIndex.toNat = requests.length % threadQueueMax
  entries : q.threadEntries = BitVec.ofNat 32 requests.length
  slots : requests.length ≤ threadQueueMax →
    ∀ (i : Fin threadQueueMax) (hi : i.val < requests.length), q.slots i = requests.get ⟨i, hi⟩

lemma holds_reset (q : ThreadQueue) : Holds [] q.reset where
  head := rfl
  tail := rfl
  index := rfl
  entries := rfl
  slots _ i hi := (Nat.not_lt_zero i hi).elim

lemma Holds.enqueue {requests : List Qnode} {q : ThreadQueue} (h : Holds requests q)
    (request : Qnode) : Holds (requests ++ [request]) (q.enqueue request) := by
  have hmax : threadQueueMax = 100 := rfl
  have hindex : q.nextTailIndex.toNat = (requests.length + 1) % threadQueueMax := by
    have hmod : (BitVec.ofNat 32 threadQueueMax).toNat = 100 := by
      rw [BitVec.toNat_ofNat, hmax]
    rw [nextTailIndex, BitVec.toNat_umod, BitVec.toNat_add, h.index, hmod, hmax]
    have hone : (1 : Huint).toNat = 1 := rfl
    rw [hone]
    omega
  have hlength : (requests ++ [request]).length = requests.length + 1 := by simp
  refine ⟨h.head, ?_, ?_, ?_, fun hle i hi => ?_⟩
  · rw [hlength, ← hindex]
    exact Nat.mod_eq_of_lt (Progress.nextTailIndex_lt q)
  · rw [hlength, ← hindex]
    rfl
  · rw [hlength, BitVec.ofNat_add, ← h.entries]
    rfl
  · have htail : q.tail.val = requests.length := by
      rw [h.tail]
      exact Nat.mod_eq_of_lt (by omega)
    by_cases hlast : i.val = requests.length
    · have hslot : i = q.tail := Fin.ext (hlast.trans htail.symm)
      simp [ThreadQueue.enqueue, hslot, htail]
    · have hslot : i ≠ q.tail := fun heq => hlast ((congrArg Fin.val heq).trans htail)
      have hold : i.val < requests.length := by omega
      simp [ThreadQueue.enqueue, hslot, h.slots (by omega) i hold, hold]

lemma holds_enqueueAll (q : ThreadQueue) (requests : List Qnode) :
    Holds requests (q.reset.enqueueAll requests) := by
  induction requests using List.reverseRecOn with
  | nil => exact holds_reset q
  | append_singleton requests request ih =>
    rw [enqueueAll, List.foldl_append]
    exact ih.enqueue request

lemma Holds.count_eq {requests : List Qnode} {q : ThreadQueue} (h : Holds requests q)
    (hle : requests.length ≤ threadQueueMax) :
    (if q.head = q.tail then if q.threadEntries = 0 then 0 else threadQueueMax
      else (q.tail.val + threadQueueMax - q.head.val) % threadQueueMax) = requests.length := by
  have hmax : threadQueueMax = 100 := rfl
  have hhead : q.head.val = 0 := congrArg Fin.val h.head
  have hmeet : q.head = q.tail ↔ requests.length % threadQueueMax = 0 := by
    rw [Fin.ext_iff, hhead, h.tail]
    exact eq_comm
  have hentries : q.threadEntries = 0 ↔ requests.length = 0 := by
    rw [h.entries, ← BitVec.toNat_inj, BitVec.toNat_ofNat, Nat.mod_eq_of_lt (by omega)]
    rfl
  simp only [hmeet, hentries, hhead, h.tail, hmax] at hle ⊢
  split_ifs <;> omega

lemma Holds.between_eq {requests : List Qnode} {q : ThreadQueue} (h : Holds requests q)
    (hle : requests.length ≤ threadQueueMax) : q.between = requests := by
  rw [between, h.count_eq hle]
  refine List.ext_get (by simp) fun i hi hi' => ?_
  have hslot : Fin.ofNat threadQueueMax (q.head.val + i) = ⟨i, hi'.trans_le hle⟩ := by
    refine Fin.ext ?_
    rw [h.head]
    exact (congrArg (· % threadQueueMax) (Nat.zero_add i)).trans
      (Nat.mod_eq_of_lt (hi'.trans_le hle))
  simp only [List.get_eq_getElem, List.getElem_map, List.getElem_range, hslot]
  exact h.slots hle ⟨i, hi'.trans_le hle⟩ hi'

lemma Holds.between_eq_iff {requests : List Qnode} {q : ThreadQueue} (h : Holds requests q) :
    q.between = requests ↔ requests.length ≤ threadQueueMax :=
  ⟨fun heq => heq ▸ q.length_between_le, h.between_eq⟩

end ThreadQueue

structure Attempt where
  call : Call
  surroundings : Surroundings
  fuel : ℕ

variable (P : Platform)

def Attempt.perform (a : Attempt) (d : Tables) : Option Progress :=
  threadCreate P a.surroundings a.fuel a.call d

/-- The call asks for any slave, and the search has none to give. -/
structure Attempt.Unmatched (a : Attempt) : Prop where
  dynamic : a.call.type = dynamicHw
  enqueue : (P.findBestMatch a.surroundings a.call.funcId).1 = enqueueThread

-- what each call returned, and the tables after the last one
def runCalls : List Attempt → Tables → Option (List Huint × Tables)
  | [], d => some ([], d)
  | a :: rest, d =>
    (a.perform P d).bind fun o =>
      (runCalls rest o.tables).map fun (rets, d') => (o.ret :: rets, d')

def accepted (attempts : List Attempt) (rets : List Huint) : List Qnode :=
  ((attempts.zip rets).filter fun answer => answer.2 = success).map (·.1.call.request)

structure NothingLost (attempts : List Attempt) (rets : List Huint) (d : Tables) : Prop where
  kept : d.queue.between = accepted attempts rets
  counted : d.queue.threadEntries.toNat = (accepted attempts rets).length
  refused : ∀ (k : ℕ) (ret : Huint), rets[k]? = some ret →
    threadQueueMax ≤ (accepted (attempts.take k) rets).length → ret ≠ success

variable {P}

section Runs

variable {a : Attempt} {attempts : List Attempt} {rets : List Huint} {d d' : Tables} {o : Progress}

lemma Attempt.Unmatched.perform (h : a.Unmatched P) (hd : d.tableInitializedFlag = true)
    (ho : a.perform P d = some o) :
    o.ret = success ∧ o.tables = { d with queue := d.queue.enqueue a.call.request } := by
  have hne : enqueueThread ≠ failure := by decide
  have hstart : Progress.start P d = ⟨0, [], [], d⟩ := by
    rw [Progress.start, Progress.initHostTables, if_pos hd]
  have hdynamic (o : Progress) : o.createDynamic P a.surroundings a.call =
      (o.look (P.findBestMatch a.surroundings a.call.funcId).2).enqueue a.call := by
    unfold Progress.createDynamic
    dsimp only
    rw [h.enqueue, if_neg hne, if_pos rfl]
  rw [Attempt.perform, threadCreate, if_pos h.dynamic, hstart] at ho
  split_ifs at ho
  obtain ⟨waited, -, rfl⟩ := Option.map_eq_some_iff.mp ho
  rw [hdynamic]
  exact ⟨rfl, rfl⟩

/-- A run of calls that find no slave: each is told SUCCESS, and all of them are put in the ring. -/
lemma runCalls_unmatched (h : ∀ a ∈ attempts, a.Unmatched P)
    (hd : d.tableInitializedFlag = true) (hrun : runCalls P attempts d = some (rets, d')) :
    rets = List.replicate attempts.length success ∧
      d'.queue = d.queue.enqueueAll (attempts.map (·.call.request)) := by
  induction attempts generalizing d rets with
  | nil =>
    cases hrun
    exact ⟨rfl, rfl⟩
  | cons a rest ih =>
    obtain ⟨o, ho, hrest⟩ := Option.bind_eq_some_iff.mp hrun
    obtain ⟨⟨rets, d''⟩, hrest, heq⟩ := Option.map_eq_some_iff.mp hrest
    cases heq
    obtain ⟨hret, htables⟩ := (h a List.mem_cons_self).perform hd ho
    have hd' : o.tables.tableInitializedFlag = true := by
      rw [htables]
      exact hd
    obtain ⟨hrets, hqueue⟩ := ih (fun a ha => h a (List.mem_cons_of_mem _ ha)) hd' hrest
    refine ⟨by simp [hret, hrets, List.replicate_succ], ?_⟩
    rw [hqueue, htables]
    rfl

lemma accepted_replicate (attempts : List Attempt) (n : ℕ) (hn : attempts.length ≤ n) :
    accepted attempts (List.replicate n success) = attempts.map (·.call.request) := by
  induction attempts generalizing n with
  | nil => rfl
  | cons a rest ih =>
    obtain ⟨n, rfl⟩ : ∃ m, n = m + 1 := ⟨n - 1, by simp at hn; omega⟩
    have htail := ih n (by simpa using hn)
    rw [accepted] at htail
    simp [accepted, List.replicate_succ, htail]

lemma tables_start (hd : d.tableInitializedFlag = false) :
    (Progress.start P d).tables =
      { d with tableInitializedFlag := true, queue := d.queue.reset } := by
  simp [Progress.start, Progress.initHostTables, hd]

/-- No request of a run from `init_host_tables` is lost exactly when there are at most as many as
the ring has slots. -/
theorem queued_requests_kept_iff (h : ∀ a ∈ attempts, a.Unmatched P)
    (hd : d.tableInitializedFlag = false)
    (hrun : runCalls P attempts (Progress.start P d).tables = some (rets, d')) :
    NothingLost attempts rets d' ↔ attempts.length ≤ threadQueueMax := by
  rw [tables_start hd] at hrun
  obtain ⟨rfl, hqueue⟩ := runCalls_unmatched h rfl hrun
  have hholds := ThreadQueue.holds_enqueueAll d.queue (attempts.map (·.call.request))
  rw [← hqueue] at hholds
  have haccepted := accepted_replicate attempts attempts.length le_rfl
  have hlength : (attempts.map (·.call.request)).length = attempts.length := List.length_map _
  constructor
  · intro hkept
    have := hholds.between_eq_iff.mp (hkept.kept.trans haccepted)
    rwa [hlength] at this
  · intro hle
    refine ⟨(hholds.between_eq (by rwa [hlength])).trans haccepted.symm, ?_, ?_⟩
    · have hmax : threadQueueMax = 100 := rfl
      rw [haccepted, hholds.entries, BitVec.toNat_ofNat, hlength, Nat.mod_eq_of_lt (by omega)]
    · intro k ret hret hfull
      have hk : k < attempts.length := by
        have := (List.getElem?_eq_some_iff.mp hret).1
        rwa [List.length_replicate] at this
      rw [accepted_replicate _ _ (by simp), List.length_map, List.length_take] at hfull
      omega

lemma runCalls_replicate (n : ℕ) (h : ∀ d, ∃ o, a.perform P d = some o) (d : Tables) :
    ∃ rets d', runCalls P (List.replicate n a) d = some (rets, d') := by
  induction n generalizing d with
  | zero => exact ⟨[], d, rfl⟩
  | succ n ih =>
    obtain ⟨o, ho⟩ := h d
    obtain ⟨rets, d', hrest⟩ := ih o.tables
    exact ⟨o.ret :: rets, d', by simp [List.replicate_succ, runCalls, ho, hrest]⟩

end Runs

section Latecomer

-- the only slave was free when it was counted and is busy when it is looked at
def taken : Surroundings := { obliging with matched := fun _ => flagHwtiUtilized }

def late : Attempt := ⟨callOf dynamicHw, taken, 1⟩

lemma late_unmatched : late.Unmatched oneSlave := ⟨rfl, by decide⟩

lemma late_returns (d : Tables) : ∃ o, late.perform oneSlave d = some o := ⟨_, rfl⟩

theorem queued_requests_kept_for_three :
    ∃ rets d', runCalls oneSlave (List.replicate 3 late)
        (Progress.start oneSlave uninitialized).tables = some (rets, d') ∧
      NothingLost (List.replicate 3 late) rets d' := by
  obtain ⟨rets, d', hrun⟩ := runCalls_replicate 3 late_returns
    (Progress.start oneSlave uninitialized).tables
  have hunmatched : ∀ a ∈ List.replicate 3 late, a.Unmatched oneSlave := by
    intro a ha
    exact List.eq_of_mem_replicate ha ▸ late_unmatched
  exact ⟨rets, d', hrun, (queued_requests_kept_iff hunmatched rfl hrun).mpr (by decide)⟩

/-- The hundred and first request is accepted too, and takes the slot of the first. -/
theorem queued_request_overwritten :
    ∃ rets d', runCalls oneSlave (List.replicate 101 late)
        (Progress.start oneSlave uninitialized).tables = some (rets, d') ∧
      rets = List.replicate 101 success ∧ ¬ NothingLost (List.replicate 101 late) rets d' := by
  obtain ⟨rets, d', hrun⟩ := runCalls_replicate 101 late_returns
    (Progress.start oneSlave uninitialized).tables
  have hunmatched : ∀ a ∈ List.replicate 101 late, a.Unmatched oneSlave := by
    intro a ha
    exact List.eq_of_mem_replicate ha ▸ late_unmatched
  obtain ⟨hrets, -⟩ := runCalls_unmatched hunmatched rfl hrun
  rw [List.length_replicate] at hrets
  refine ⟨rets, d', hrun, hrets, fun hkept => ?_⟩
  have hfull := d'.queue.length_between_le
  rw [hkept.kept, hrets, accepted_replicate _ _ (by rw [List.length_replicate]), List.length_map,
    List.length_replicate] at hfull
  exact absurd hfull (by decide)

end Latecomer

end Hthreads.Slaves
