import Hthreads.SyncManager.WakeQueue

/-! The reads of ADD_THREAD catch up with the hand-offs when the bus answers. -/

namespace Hthreads.SyncManager

open Library Scheduler

variable {m : ℕ}

structure Feed where
  bus : ℕ → Bus
  mst : ℕ → MstBus

namespace Feed

def state (base : Word) (F : Feed) (x : Watched m) : ℕ → Watched m
  | 0 => x
  | k + 1 => (F.state base x k).clock base (F.bus k) (F.mst k)

structure Answers (base : Word) (F : Feed) (x : Watched m) : Prop where
  ack : ∀ k, (F.mst k).cmdAck = true → (F.state base x k).lines.isSome
  acked : ∀ k, (F.state base x (k + 1)).lines.isSome → ∃ j > k, (F.mst j).cmdAck = true
  completed : ∀ k, (F.mst k).cmdAck = true → ∃ j ≥ k, (F.mst j).cmplt = true

/-- The ids handed off are different from those still pending. -/
def Distinct (base : Word) (F : Feed) (x : Watched m) : Prop :=
  ∀ k, ∀ id ∈ (F.state base x k).slave.unlock.sent, id ∉ (F.state base x k).pending

end Feed

section Progress

variable {base : Word} {F : Feed} {x : Watched m} {k : ℕ}

def Feed.Fits (base : Word) (F : Feed) (x : Watched m) : Prop :=
  ∀ k, (F.state base x k).Fits (F.mst k)

lemma flows_state {q : List ThreadId} (h : x.Flows base q) (hfits : F.Fits base x) (k : ℕ) :
    ∃ q', (F.state base x k).Flows base q' := by
  induction k with
  | zero => exact ⟨q, h⟩
  | succ k ih =>
    obtain ⟨q', h'⟩ := ih
    exact h'.step (hfits k)

lemma send_succ : (F.state base x (k + 1)).master.send =
    ((F.state base x k).master.sendController (F.mst k)).1 := rfl

lemma mstCmplt_succ : (F.state base x (k + 1)).master.mstCmplt =
    ((F.state base x k).master.sendController (F.mst k)).2 := rfl

lemma idle_after_ack (ha : F.Answers base x) (hs : (F.state base x k).master.send = .sending)
    (hack : (F.mst k).cmdAck = true) :
    ∃ j > k, (F.state base x j).master.send = .idle := by
  obtain ⟨c, hc, hcmplt⟩ := ha.completed k hack
  have hfinish : (F.state base x (k + 1)).master.send = .finish := by
    rw [send_succ, Master.sendController_sending hs, hack]
    rfl
  rcases Nat.eq_or_lt_of_le hc with rfl | hlt
  · refine ⟨k + 2, by omega, ?_⟩
    have hlatch : (F.state base x (k + 1)).master.mstCmplt = true := by
      rw [mstCmplt_succ, Master.sendController_sending hs, hcmplt, Bool.or_true]
    rw [send_succ, Master.sendController_finish hfinish, hlatch]
    rfl
  · by_contra hnever
    push Not at hnever
    have hstays : ∀ d, (F.state base x (k + 1 + d)).master.send = .finish := by
      intro d
      induction d with
      | zero => exact hfinish
      | succ d ih =>
        have hne := hnever (k + 1 + (d + 1)) (by omega)
        rw [← Nat.add_assoc, send_succ, Master.sendController_finish ih] at hne ⊢
        by_cases hopen : ((F.state base x (k + 1 + d)).master.mstCmplt ||
            (F.mst (k + 1 + d)).cmplt) = true
        · exact absurd (if_pos hopen) hne
        · exact if_neg hopen
    have hlast := hstays (c - (k + 1))
    rw [Nat.add_sub_of_le hlt] at hlast
    apply hnever (c + 1) (by omega)
    rw [send_succ, Master.sendController_finish hlast, hcmplt, Bool.or_true]
    rfl

lemma ack_of_sending (ha : F.Answers base x) (hs : (F.state base x k).master.send = .sending) :
    ∃ j ≥ k, (F.state base x j).master.send = .sending ∧ (F.mst j).cmdAck = true := by
  cases hack : (F.mst k).cmdAck with
  | true => exact ⟨k, le_refl k, hs, hack⟩
  | false =>
    have hlines : (F.state base x (k + 1)).lines.isSome := by
      simp [Feed.state, Watched.clock, Master.mstRd, hs, hack]
    obtain ⟨j, hj, hjack⟩ := ha.acked k hlines
    -- the first acknowledge after cycle `k` finds the request up
    classical
    have hex : ∃ j, k < j ∧ (F.mst j).cmdAck = true := ⟨j, hj, hjack⟩
    obtain ⟨hlt, hfirst⟩ := Nat.find_spec hex
    refine ⟨Nat.find hex, hlt.le, ?_, hfirst⟩
    have hup : ∀ d, k + d < Nat.find hex + 1 → (F.state base x (k + d)).master.send = .sending := by
      intro d
      induction d with
      | zero => exact fun _ => hs
      | succ d ih =>
        intro hd
        have hnoack : (F.mst (k + d)).cmdAck = false := by
          rcases Nat.eq_zero_or_pos d with rfl | hpos
          · exact hack
          · by_contra htrue
            exact Nat.find_min hex (m := k + d) (by omega) ⟨by omega, Bool.not_eq_false _ ▸ htrue⟩
        rw [← Nat.add_assoc, send_succ, Master.sendController_sending (ih (by omega)), hnoack]
        rfl
    have hend := hup (Nat.find hex - k) (by omega)
    rwa [Nat.add_sub_of_le hlt.le] at hend

lemma idle_of_sending (ha : F.Answers base x) (hs : (F.state base x k).master.send = .sending) :
    ∃ j > k, (F.state base x j).master.send = .idle := by
  obtain ⟨i, hi, hsi, hack⟩ := ack_of_sending ha hs
  obtain ⟨j, hj, hidle⟩ := idle_after_ack ha hsi hack
  exact ⟨j, by omega, hidle⟩

lemma eventually_idle (ha : F.Answers base x) (hx : x.master.send = .idle) (k : ℕ) :
    ∃ j ≥ k, (F.state base x j).master.send = .idle := by
  induction k with
  | zero => exact ⟨0, le_refl 0, hx⟩
  | succ k ih =>
    obtain ⟨j, hj, hidle⟩ := ih
    rcases Nat.eq_or_lt_of_le hj with rfl | hlt
    · cases hs : (F.state base x (k + 1)).master.send with
      | idle => exact ⟨k + 1, le_refl _, hs⟩
      | sending =>
        obtain ⟨j, hj, hidle⟩ := idle_of_sending ha hs
        exact ⟨j, hj.le, hidle⟩
      | finish =>
        rw [send_succ, Master.sendController_idle hidle] at hs
        split at hs <;> cases hs
    · exact ⟨j, hlt, hidle⟩

lemma reads_succ : (F.state base x (k + 1)).reads = (F.state base x k).reads ++
    if (F.state base x k).lines = none then
      ((F.state base x k).master.mstRd base (F.mst k)).toList else [] := rfl

lemma reads_mono {j : ℕ} (h : k ≤ j) : (F.state base x k).reads <+: (F.state base x j).reads := by
  induction j, h using Nat.le_induction with
  | base => exact List.prefix_rfl
  | succ j _ ih => exact ih.trans (reads_succ ▸ List.prefix_append _ _)

lemma reads_grow_of_valid (hfits : F.Fits base x) (hs : (F.state base x k).master.send = .idle)
    (hv : (F.state base x k).master.sendValid = true) :
    (F.state base x k).reads.length < (F.state base x (k + 2)).reads.length := by
  have hsending : (F.state base x (k + 1)).master.send = .sending := by
    rw [send_succ, Master.sendController_idle hs, hv]
    rfl
  have hlines : (F.state base x (k + 1)).lines = none := by
    simp [Feed.state, Watched.clock, Master.mstRd, hs]
  have hnoack : (F.mst (k + 1)).cmdAck = false := by
    by_contra htrue
    have hsome := (hfits (k + 1)).ack (Bool.not_eq_false _ ▸ htrue)
    rw [hlines] at hsome
    cases hsome
  have hgrow : (F.state base x (k + 1)).reads.length < (F.state base x (k + 2)).reads.length := by
    rw [reads_succ (k := k + 1), hlines]
    simp [Master.mstRd, hsending, hnoack]
  exact lt_of_le_of_lt (reads_mono (Nat.le_succ k)).length_le hgrow

lemma reads_grow_of_pop (hfits : F.Fits base x) {q : List ThreadId}
    (hflows : (F.state base x k).Flows base q) (hq : (F.state base x k).master.queue = .idle)
    (hs : (F.state base x k).master.send = .idle)
    (hsent : (F.state base x k).slave.unlock.sent = none) (hne : q ≠ []) :
    (F.state base x k).reads.length < (F.state base x (k + 3)).reads.length := by
  have hholds : (F.state base x k).master.Holds q := by
    have hstage := hflows.stage
    rwa [Master.Stage, hq] at hstage
  have hcount : ¬ (F.state base x k).master.sendCount = 0#8 := by
    intro hzero
    have heq := hholds.count
    rw [hzero] at heq
    exact hne (List.length_eq_zero_iff.mp heq.symm)
  obtain ⟨hvalid, -⟩ := hflows.calm (b := F.bus k) (w := F.mst k) (.inl hq)
  have hv : (F.state base x (k + 1)).master.sendValid = true := by
    simp [Feed.state, Watched.clock, Master.clock, Master.queueController, hq, hsent,
      Master.sendRdy, hs, hcount]
  have hs' : (F.state base x (k + 1)).master.send = .idle := by
    rw [send_succ, Master.sendController_idle hs, hvalid]
    rfl
  exact lt_of_le_of_lt (reads_mono (Nat.le_succ k)).length_le (reads_grow_of_valid hfits hs' hv)

lemma reads_grow_of_done (hfits : F.Fits base x) {q : List ThreadId}
    (hflows : (F.state base x k).Flows base q) (hq : (F.state base x k).master.queue = .done)
    (hs : (F.state base x k).master.send = .idle) (hne : q ≠ []) :
    (F.state base x k).reads.length < (F.state base x (k + 4)).reads.length := by
  have hcs := hflows.spaced hq
  have hsent := Watched.sent_of_idle hcs
  obtain ⟨hvalid, -⟩ := hflows.calm (b := F.bus k) (w := F.mst k) (.inr hq)
  have hq' : (F.state base x (k + 1)).master.queue = .idle := by
    simp [Feed.state, Watched.clock, Master.clock, Master.queueController, hq, hsent]
  have hs' : (F.state base x (k + 1)).master.send = .idle := by
    rw [send_succ, Master.sendController_idle hs, hvalid]
    rfl
  have hgrow := reads_grow_of_pop hfits (k := k + 1) (hflows.step_done hq) hq' hs'
    (Watched.unlock_sent_clock_of_idle hcs (F.bus k)) hne
  exact lt_of_le_of_lt (reads_mono (Nat.le_succ k)).length_le hgrow

lemma reads_grow_of_heard (hfits : F.Fits base x) {q : List ThreadId}
    (hflows : (F.state base x k).Flows base q) (hq : (F.state base x k).master.queue = .idle)
    (hs : (F.state base x k).master.send = .idle) {id : ThreadId}
    (hsent : (F.state base x k).slave.unlock.sent = some id) :
    (F.state base x k).reads.length < (F.state base x (k + 5)).reads.length := by
  obtain ⟨-, -, hroom⟩ := (hfits k).heard (by rw [hsent]; rfl)
  have hid : id ∉ q := fun hmem => (hfits k).fresh id hsent (hflows.mem_pending hmem)
  obtain ⟨hvalid, -⟩ := hflows.calm (b := F.bus k) (w := F.mst k) (.inl hq)
  have hq' : (F.state base x (k + 1)).master.queue = .done := by
    simp only [Feed.state, Watched.clock, Master.clock, Master.queueController, hq, hsent]
    split <;> rfl
  have hs' : (F.state base x (k + 1)).master.send = .idle := by
    rw [send_succ, Master.sendController_idle hs, hvalid]
    rfl
  have hgrow := reads_grow_of_done hfits (k := k + 1)
    (hflows.step_heard hq hsent hroom hid) hq' hs' (by simp)
  exact lt_of_le_of_lt (reads_mono (Nat.le_succ k)).length_le hgrow

lemma reads_grow_of_idle (hfits : F.Fits base x) {q : List ThreadId}
    (hflows : (F.state base x k).Flows base q) (hs : (F.state base x k).master.send = .idle)
    (hlt : (F.state base x k).reads.length < (F.state base x k).handed.length) :
    ∃ j, (F.state base x k).reads.length < (F.state base x j).reads.length := by
  have hne (hun : (F.state base x k).unissued = []) : q ≠ [] := by
    rintro rfl
    obtain ⟨issued, hreads, hhanded⟩ := hflows.handed
    rw [hreads, hhanded, hun] at hlt
    simp at hlt
  cases hq : (F.state base x k).master.queue with
  | idle =>
    obtain ⟨-, hun, -⟩ := hflows.calm (b := F.bus k) (w := F.mst k) (.inl hq)
    cases hsent : (F.state base x k).slave.unlock.sent with
    | none => exact ⟨k + 3, reads_grow_of_pop hfits hflows hq hs hsent (hne hun)⟩
    | some id => exact ⟨k + 5, reads_grow_of_heard hfits hflows hq hs hsent⟩
  | done =>
    obtain ⟨-, hun, -⟩ := hflows.calm (b := F.bus k) (w := F.mst k) (.inr hq)
    exact ⟨k + 4, reads_grow_of_done hfits hflows hq hs (hne hun)⟩
  | getWait =>
    have hstage := hflows.stage
    rw [Master.Stage, hq] at hstage
    exact ⟨k + 2, reads_grow_of_valid hfits hs hstage.2.1⟩
  | getDone =>
    have hstage := hflows.stage
    rw [Master.Stage, hq] at hstage
    rw [hs] at hstage
    cases hstage.2.1

lemma handed_mono {j : ℕ} (h : k ≤ j) :
    (F.state base x k).handed <+: (F.state base x j).handed := by
  induction j, h using Nat.le_induction with
  | base => exact List.prefix_rfl
  | succ j _ ih => exact ih.trans (List.prefix_append _ _)

lemma reads_isPrefix {q : List ThreadId} (hflows : (F.state base x k).Flows base q) :
    (F.state base x k).reads <+: (F.state base x k).handed.map (Master.addThread base) := by
  obtain ⟨issued, hreads, hhanded⟩ := hflows.handed
  rw [hreads, hhanded, List.map_append]
  exact List.prefix_append _ _

lemma reads_reach (ha : F.Answers base x) (hfits : F.Fits base x) {q : List ThreadId}
    (hx : x.Flows base q) (hidle : x.master.send = .idle) {n : ℕ}
    (hn : n ≤ (F.state base x k).handed.length) : ∃ j, n ≤ (F.state base x j).reads.length := by
  induction n with
  | zero => exact ⟨0, Nat.zero_le _⟩
  | succ n ih =>
    obtain ⟨i, hi⟩ := ih (by omega)
    obtain ⟨j, hj, hs⟩ := eventually_idle ha hidle (max i k)
    have hreads : (F.state base x i).reads <+: (F.state base x j).reads :=
      reads_mono (le_trans (le_max_left i k) hj)
    have hhanded : (F.state base x k).handed <+: (F.state base x j).handed :=
      handed_mono (le_trans (le_max_right i k) hj)
    have hreadsle := hreads.length_le
    have hhandedle := hhanded.length_le
    by_cases hdone : n + 1 ≤ (F.state base x j).reads.length
    · exact ⟨j, hdone⟩
    · obtain ⟨q', hflows⟩ := flows_state hx hfits j
      obtain ⟨j', hj'⟩ := reads_grow_of_idle hfits hflows hs (by omega)
      exact ⟨j', by omega⟩

end Progress

end Hthreads.SyncManager
