import Hthreads.SyncManager.Progress

/-! Every thread that is handed a mutex is woken exactly once, in the order of the hand-offs, when
the bus answers and no hand-off is overheard. -/

namespace Hthreads.SyncManager

open Library Scheduler

variable {m : ℕ}

namespace Feed

/-- The reads of ADD_THREAD are those of the ids handed off: each once, and in their order. A
request keeps its address until it is acknowledged. -/
structure Delivers (base : Word) (F : Feed) (x : Watched m) : Prop where
  ordered : ∀ k, (F.state base x k).reads <+:
    (F.state base x k).handed.map (Master.addThread base)
  complete : ∀ k, ∃ j, (F.state base x k).handed.map (Master.addThread base) <+:
    (F.state base x j).reads
  steady : ∀ k, ∀ a ∈ (F.state base x k).lines, ∀ c ∈ (F.state base x (k + 1)).lines, c = a

/-- No hand-off comes while the queue controller takes an id from its store, or finds the count of
the ids at its limit. -/
def Heard (base : Word) (F : Feed) (x : Watched m) : Prop := ∀ k, (F.state base x k).Heard

end Feed

theorem wakeups_delivered (base : Word) (s : Slave m) {M : Master} (hM : M.AtRest) {F : Feed}
    (hanswers : F.Answers base (Watched.start s M))
    (hdistinct : F.Distinct base (Watched.start s M))
    (hheard : F.Heard base (Watched.start s M)) : F.Delivers base (Watched.start s M) := by
  have hfits : F.Fits base (Watched.start s M) := fun k =>
    ⟨hanswers.ack k, hdistinct k, hheard k⟩
  have hstart : (Watched.start s M).Flows base [] := Watched.flows_start s hM
  refine ⟨fun k => ?_, fun k => ?_, fun k a ha c hc => ?_⟩
  · obtain ⟨q, hflows⟩ := flows_state hstart hfits k
    exact reads_isPrefix hflows
  · obtain ⟨j, hj⟩ := reads_reach hanswers hfits hstart hM.send le_rfl (k := k)
    refine ⟨j, ?_⟩
    obtain ⟨q, hflows⟩ := flows_state hstart hfits j
    -- both are prefixes of what has been handed off in the later of the two cycles
    have hlate := (reads_isPrefix hflows).trans
      ((handed_mono (le_max_left j k)).map (Master.addThread base))
    have hearly : (F.state base (Watched.start s M) k).handed <+: _ :=
      handed_mono (le_max_right j k)
    replace hearly := hearly.map (Master.addThread base)
    exact List.prefix_of_prefix_length_le hearly hlate (by rwa [List.length_map])
  · obtain ⟨q, hflows⟩ := flows_state hstart hfits k
    obtain ⟨-, -, hc⟩ := Watched.lines_clock hc
    rw [hc, (hflows.lines a ha).2]

section Scripts

variable {base : Word} {F : Feed} {x : Watched m} {n : ℕ}

structure Watched.Settled (x : Watched m) : Prop where
  slave : x.slave.Quiet
  master : x.master.AtRest
  lines : x.lines = none

lemma Watched.Settled.clock (h : x.Settled) :
    (x.clock base .idle ⟨false, false⟩).Settled ∧
      (x.clock base .idle ⟨false, false⟩).reads = x.reads := by
  have hsent : x.slave.unlock.sent = none := by rw [h.slave.unlock]; rfl
  have hctrl : x.master.queueController none = ({ x.master with sendValid := false }, .off) := by
    simp [Master.queueController, h.master.queue, h.master.sendCount]
  refine ⟨⟨h.slave.clock_idle, ⟨?_, ?_, ?_, ?_⟩, ?_⟩, ?_⟩
  · simp [Watched.clock, Master.clock, hsent, hctrl, h.master.queue]
  · simp [Watched.clock, Master.clock, hsent, hctrl, h.master.sendCount]
  · simp [Watched.clock, Master.clock, hsent, hctrl]
  · simp [Watched.clock, Master.clock, Master.sendController, h.master.send, h.master.sendValid]
  · simp [Watched.clock, Master.mstRd, h.master.send]
  · simp [Watched.clock, Master.mstRd, h.master.send]

/-- From cycle `n` on nothing happens on the two buses, and nothing is under way. -/
structure Feed.EndsAt (base : Word) (F : Feed) (x : Watched m) (n : ℕ) : Prop where
  bus : ∀ k ≥ n, F.bus k = .idle
  mst : ∀ k ≥ n, F.mst k = ⟨false, false⟩
  settled : (F.state base x n).Settled

lemma Feed.EndsAt.after (h : F.EndsAt base x n) {k : ℕ} (hk : n ≤ k) :
    (F.state base x k).Settled ∧ (F.state base x k).reads = (F.state base x n).reads := by
  induction k, hk using Nat.le_induction with
  | base => exact ⟨h.settled, rfl⟩
  | succ k hk ih =>
    obtain ⟨hsettled, hreads⟩ := ih
    rw [Feed.state, h.bus k hk, h.mst k hk]
    exact ⟨hsettled.clock.1, hsettled.clock.2.trans hreads⟩

lemma Feed.EndsAt.answers (h : F.EndsAt base x n)
    (hack : ∀ k < n, (F.mst k).cmdAck = true → (F.state base x k).lines.isSome)
    (hacked : ∀ k < n, (F.state base x (k + 1)).lines.isSome →
      ∃ j < n, k < j ∧ (F.mst j).cmdAck = true)
    (hcompleted : ∀ k < n, (F.mst k).cmdAck = true → ∃ j < n, k ≤ j ∧ (F.mst j).cmplt = true) :
    F.Answers base x := by
  have hquiet {k : ℕ} (hk : n ≤ k) : ¬ (F.mst k).cmdAck = true := by
    rw [h.mst k hk]
    exact Bool.false_ne_true
  refine ⟨fun k hk => ?_, fun k hk => ?_, fun k hk => ?_⟩
  · exact hack k (Nat.lt_of_not_le fun hle => hquiet hle hk) hk
  · have hlt : k < n := by
      by_contra hle
      have hnone := (h.after (by omega : n ≤ k + 1)).1.lines
      rw [hnone] at hk
      cases hk
    obtain ⟨j, -, hj, hjack⟩ := hacked k hlt hk
    exact ⟨j, hj, hjack⟩
  · obtain ⟨j, -, hj, hcmplt⟩ := hcompleted k (Nat.lt_of_not_le fun hle => hquiet hle hk) hk
    exact ⟨j, hj, hcmplt⟩

lemma Feed.EndsAt.sent_eq_none (h : F.EndsAt base x n) {k : ℕ} (hk : n ≤ k) :
    (F.state base x k).slave.unlock.sent = none := by
  rw [(h.after hk).1.slave.unlock]
  rfl

lemma Feed.EndsAt.distinct (h : F.EndsAt base x n)
    (hfresh : ∀ k < n, ∀ id ∈ (F.state base x k).slave.unlock.sent,
      id ∉ (F.state base x k).pending) : F.Distinct base x := by
  intro k id hid
  refine hfresh k (Nat.lt_of_not_le fun hle => ?_) id hid
  rw [h.sent_eq_none hle] at hid
  cases hid

lemma Feed.EndsAt.heard (h : F.EndsAt base x n)
    (hheard : ∀ k < n, (F.state base x k).slave.unlock.sent.isSome →
      (F.state base x k).master.queue ≠ .getWait ∧ (F.state base x k).master.queue ≠ .getDone ∧
        (F.state base x k).master.sendCount ≠ 255) : F.Heard base x := by
  intro k hid
  refine hheard k (Nat.lt_of_not_le fun hle => ?_) hid
  rw [h.sent_eq_none hle] at hid
  cases hid

end Scripts

section ThreeUnlocks

/-- A command on the first of four mutexes, held for some cycles. -/
def holdBus (c : Command) (t : ThreadId) (cycles : ℕ) : List Bus :=
  List.replicate cycles ⟨some c, t.setWidth 32 <<< 4, 0, true⟩

-- thread 1 takes the mutex, threads 2, 3 and 4 wait for it, and it is unlocked three times
def threeUnlocks : List Bus :=
  holdBus .lock 1 3 ++ holdBus .lock 2 3 ++ holdBus .lock 3 4 ++ holdBus .lock 4 4 ++
    holdBus .unlock 1 5 ++ holdBus .unlock 2 5 ++ holdBus .unlock 3 5

/-- The three unlocks, with the cycles in which the wake-ups are acknowledged. Each is completed in
the cycle after. -/
def threeHandOffs (acks : List ℕ) : Feed where
  bus k := threeUnlocks.getD k .idle
  mst k := ⟨acks.contains k, (acks.map (· + 1)).contains k⟩

def masterAtRest : Master :=
  ⟨.idle, 0, 0, 0, 0, false, .idle, false, ⟨.off, fun _ => 0, 0, false, 0⟩⟩

def fourMutexes : Watched 2 := .start Slave.powerUp masterAtRest

lemma threeHandOffs_endsAt {acks : List ℕ} {n : ℕ} (hn : 29 ≤ n) (hacks : ∀ a ∈ acks, a + 1 < n)
    (hsettled : ((threeHandOffs acks).state 0 fourMutexes n).Settled) :
    (threeHandOffs acks).EndsAt 0 fourMutexes n := by
  refine ⟨fun k hk => ?_, fun k hk => ?_, hsettled⟩
  · have hlen : threeUnlocks.length = 29 := by decide
    simp only [threeHandOffs, List.getD]
    rw [List.getElem?_eq_none (by omega)]
    rfl
  · have hack : acks.contains k = false := by
      by_contra hin
      have hlt := hacks k (by simpa using hin)
      omega
    have hcmplt : (acks.map (· + 1)).contains k = false := by
      by_contra hin
      obtain ⟨a, ha, rfl⟩ : ∃ a ∈ acks, a + 1 = k := by simpa using hin
      have hlt := hacks a ha
      omega
    simp only [threeHandOffs]
    rw [hack, hcmplt]

lemma masterAtRest_atRest : masterAtRest.AtRest := ⟨rfl, rfl, rfl, rfl⟩

lemma Watched.settled_of_fields {x : Watched m}
    (h : (x.slave.lock = .idle ∧ x.slave.unlock.cs = .idle ∧ x.slave.unlock.holdMinext = 0 ∧
        x.slave.tryLock = .idle ∧ x.slave.owner = .idle ∧ x.slave.kind = .idle ∧
        x.slave.count = .idle ∧ x.slave.result.finish = false ∧ x.slave.result.data = 0) ∧
      (x.master.queue = .idle ∧ x.master.sendCount = 0 ∧ x.master.sendValid = false ∧
        x.master.send = .idle) ∧ x.lines = none) : x.Settled := by
  obtain ⟨⟨h1, h2, h3, h4, h5, h6, h7, h8, h9⟩, ⟨h10, h11, h12, h13⟩, h14⟩ := h
  refine ⟨⟨h1, ?_, h4, h5, h6, h7, h8, h9⟩, ⟨h10, h11, h12, h13⟩, h14⟩
  cases hu : x.slave.unlock
  simp_all

lemma heardHandOffs_endsAt : (threeHandOffs [28, 34, 40]).EndsAt 0 fourMutexes 43 := by
  apply threeHandOffs_endsAt (by decide) (by decide)
  apply Watched.settled_of_fields
  decide +kernel

/-- The first wake-up is acknowledged when all three threads stand in the queue. -/
theorem wakeups_delivered_to_three :
    (threeHandOffs [28, 34, 40]).Delivers 0 (.start (m := 2) Slave.powerUp masterAtRest) ∧
      ((threeHandOffs [28, 34, 40]).state 0 fourMutexes 43).handed = [2, 3, 4] := by
  refine ⟨wakeups_delivered 0 Slave.powerUp masterAtRest_atRest ?_ ?_ ?_, by decide +kernel⟩
  · refine heardHandOffs_endsAt.answers ?_ ?_ ?_ <;> decide +kernel
  · apply heardHandOffs_endsAt.distinct
    decide +kernel
  · apply heardHandOffs_endsAt.heard
    decide +kernel

lemma lostHandOff_endsAt : (threeHandOffs [25, 31]).EndsAt 0 fourMutexes 33 := by
  apply threeHandOffs_endsAt (by decide) (by decide)
  apply Watched.settled_of_fields
  decide +kernel

/-- The first wake-up is over in the cycle before the third unlock names its thread, so that the
queue controller is then taking the second id. -/
theorem wakeup_lost_in_getWait :
    masterAtRest.AtRest ∧ (threeHandOffs [25, 31]).Answers 0 fourMutexes ∧
      (threeHandOffs [25, 31]).Distinct 0 fourMutexes ∧
      ¬ (threeHandOffs [25, 31]).Delivers 0 fourMutexes := by
  refine ⟨masterAtRest_atRest, ?_, ?_, fun hdelivers => ?_⟩
  · refine lostHandOff_endsAt.answers ?_ ?_ ?_ <;> decide +kernel
  · apply lostHandOff_endsAt.distinct
    decide +kernel
  · obtain ⟨j, hj⟩ := hdelivers.complete 33
    have hhanded : ((threeHandOffs [25, 31]).state 0 fourMutexes 33).handed.length = 3 := by
      decide +kernel
    have hreads : ((threeHandOffs [25, 31]).state 0 fourMutexes 33).reads.length = 2 := by
      decide +kernel
    have hmono : ((threeHandOffs [25, 31]).state 0 fourMutexes j).reads <+: _ :=
      reads_mono (le_max_left j 33)
    have hlate := hmono.length_le
    rw [(lostHandOff_endsAt.after (le_max_right j 33)).2, hreads] at hlate
    have hlong := hj.length_le
    rw [List.length_map, hhanded] at hlong
    omega

end ThreeUnlocks

end Hthreads.SyncManager
