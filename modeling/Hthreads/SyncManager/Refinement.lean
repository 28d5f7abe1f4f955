import Hthreads.SyncManager.FifoMutexes

/-! The synchronization manager refines first-in first-out mutexes. -/

namespace Hthreads.SyncManager

open Library Library.BitFields Scheduler

variable {m : ℕ}

/-- A request is answered the way the mutexes answer it, and the stores still represent them. -/
structure Agrees (o : Outcome m) (a : Verdict × List ThreadId × FifoMutexes m) : Prop where
  data : o.data = a.1.data
  sent : o.sent = a.2.1
  stores : Represents o.stores a.2.2

section Steps

variable {S : Stores m} {A : FifoMutexes m} {μ : BitVec m} {t : ThreadId} {h : Holder}

lemma Represents.held (hS : Represents S A) (hh : (A μ).holder = some h) :
    HeldBy S.links (S.mutexes μ) h := by
  have hd := (hS.each μ).2
  rw [hh] at hd
  exact hd

lemma Represents.free (hS : Represents S A) (hh : (A μ).holder = none) :
    (S.mutexes μ).count = 0 ∧ (S.mutexes μ).owner = 0 := by
  have hd := (hS.each μ).2
  rw [hh] at hd
  exact hd

lemma Represents.put (hS : Represents S A) {links : ThreadId → ThreadId} {e : MutexEntry}
    {M : FifoMutex} (hM : Depicts links e M)
    (hlinks : ∀ ν ≠ μ, ∀ k ∈ (A ν).holder, ∀ u ∈ k.waiters, links u = S.links u)
    (hnew : ∀ h ∈ M.holder, ∀ ν ≠ μ, ∀ k ∈ (A ν).holder, h.waiters.Disjoint k.waiters) :
    Represents ⟨Function.update S.mutexes μ e, links⟩ (Function.update A μ M) where
  each ν := by
    by_cases hν : ν = μ
    · subst hν
      simpa only [Function.update_self] using hM
    · simp only [Function.update_of_ne hν]
      exact (hS.each ν).congr (hlinks ν hν)
  disjoint {ν ξ h k} hne hh hk := by
    by_cases hν : ν = μ
    · subst hν
      rw [Function.update_self] at hh
      rw [Function.update_of_ne hne.symm] at hk
      exact hnew h hh ξ hne.symm k hk
    · rw [Function.update_of_ne hν] at hh
      by_cases hξ : ξ = μ
      · subst hξ
        rw [Function.update_self] at hk
        exact (hnew k hk ν hν h hh).symm
      · rw [Function.update_of_ne hξ] at hk
        exact hS.disjoint hne hh hk

lemma Represents.put_within (hS : Represents S A) {e : MutexEntry} {M : FifoMutex}
    (hM : Depicts S.links e M)
    (hsub : ∀ k ∈ M.holder, k.waiters = [] ∨ ∃ h ∈ (A μ).holder, k.waiters ⊆ h.waiters) :
    Represents ⟨Function.update S.mutexes μ e, S.links⟩ (Function.update A μ M) := by
  refine hS.put hM (fun _ _ _ _ _ _ => rfl) fun k hk ν hν l hl => ?_
  rcases hsub k hk with hnil | ⟨h, hh, hsub⟩
  · rw [hnil]
    exact List.disjoint_nil_left _
  · exact List.disjoint_of_subset_left hsub (hS.disjoint hν.symm hh hl)

lemma Represents.same (hS : Represents S A) : Represents S (Function.update A μ (A μ)) := by
  rwa [Function.update_eq_self]

lemma Represents.grant (hS : Represents S A) :
    Represents (S.grant μ t)
      (Function.update A μ { A μ with holder := some ⟨t, 1, []⟩ }) := by
  refine hS.put_within ⟨(hS.each μ).1, ?_⟩ fun k hk => ?_
  · exact ⟨rfl, rfl, Nat.one_pos, fun hlt => absurd hlt (lt_irrefl 1), List.not_mem_nil, rfl, rfl⟩
  · cases hk
    exact .inl rfl

lemma Represents.nest (hS : Represents S A) (hh : (A μ).holder = some h) (hdepth : h.depth < 255)
    (hkind : (A μ).kind = synchRecurs) :
    Represents (S.nest μ)
      (Function.update A μ { A μ with holder := some { h with depth := h.depth + 1 } }) := by
  have hheld := hS.held hh
  have hkind' : (S.mutexes μ).kind = synchRecurs := (hS.each μ).1.trans hkind
  have hcount : ((S.mutexes μ).count + 1).toNat = h.depth + 1 := by
    have heq := hheld.count
    rw [toNat_succ_of_lt (by omega), heq]
  refine hS.put_within ⟨(hS.each μ).1, ?_⟩ fun k hk => ?_
  · exact ⟨hheld.owner, hcount, Nat.succ_pos _, fun _ => hkind', hheld.apart, hheld.queue⟩
  · cases hk
    exact .inr ⟨h, hh, List.Subset.refl _⟩

lemma Represents.append (hS : Represents S A) (hh : (A μ).holder = some h) (hrun : A.Running t)
    (hne : h.owner ≠ t) {links : ThreadId → ThreadId} {e : MutexEntry}
    (hentry : e.owner = (S.mutexes μ).owner ∧ e.kind = (S.mutexes μ).kind ∧
      e.count = (S.mutexes μ).count)
    (hqueue : Queue links e (h.waiters ++ [t]))
    (hlinks : ∀ u, u ≠ t → u ∉ h.waiters → links u = S.links u) :
    Represents ⟨Function.update S.mutexes μ e, links⟩
      (Function.update A μ { A μ with holder := some { h with waiters := h.waiters ++ [t] } }) := by
  have hheld := hS.held hh
  obtain ⟨howner, hkind, hcount⟩ := hentry
  refine hS.put ⟨hkind.trans (hS.each μ).1, ?_⟩ (fun ν hν k hk u hu => ?_) fun k hk ν hν l hl => ?_
  · refine ⟨howner.trans hheld.owner, (congrArg BitVec.toNat hcount).trans hheld.count,
      hheld.locked, fun hlt => hkind.trans (hheld.nested hlt), fun hmem => ?_, hqueue⟩
    rcases List.mem_append.mp hmem with hold | hnew
    · exact hheld.apart hold
    · exact hne (List.mem_singleton.mp hnew)
  · refine hlinks u (fun heq => hrun ν k hk (heq ▸ hu)) fun hmem => ?_
    exact hS.disjoint hν.symm hh hk hmem hu
  · cases hk
    refine List.disjoint_append_left.mpr ⟨hS.disjoint hν.symm hh hl, ?_⟩
    exact List.singleton_disjoint.mpr (hrun ν l hl)

lemma Represents.lock_blocked (hS : Represents S A) (hh : (A μ).holder = some h)
    (hrun : A.Running t) (hne : h.owner ≠ t) :
    Agrees (S.lock μ t) (A.step (.lock μ t)) := by
  have hheld := hS.held hh
  have howner : (S.mutexes μ).owner ≠ t := hheld.owner ▸ hne
  have hstep : A.step (.lock μ t) = (.blocked, [],
      Function.update A μ { A μ with holder := some { h with waiters := h.waiters ++ [t] } }) := by
    simp [FifoMutexes.step, FifoMutex.lock, hh, hne]
  rw [hstep, Stores.lock]
  simp only [hheld.count_ne_zero, howner, and_false, if_false]
  have ht : t ∉ h.waiters := hrun μ h hh
  by_cases hnil : h.waiters = []
  · rw [if_pos (hheld.next_eq_owner.mpr hnil)]
    refine ⟨rfl, rfl, hS.append hh hrun hne ⟨rfl, rfl, rfl⟩ ?_ fun u hu _ => ?_⟩
    · rw [hnil]
      exact Queue.append_first (Function.update_self t _ _)
    · exact Function.update_of_ne hu _ _
  · rw [if_neg (mt hheld.next_eq_owner.mp hnil)]
    refine ⟨rfl, rfl, hS.append hh hrun hne ⟨rfl, rfl, rfl⟩ (hheld.queue.append hnil ht)
      fun u hu hmem => ?_⟩
    have hlast : u ≠ (S.mutexes μ).last := by
      rintro rfl
      obtain ⟨w, ws, hw⟩ := List.exists_cons_of_ne_nil hnil
      have hq := hheld.queue
      rw [hw] at hq hmem
      exact hmem hq.1.last_mem
    exact (Function.update_of_ne hu _ _).trans (Function.update_of_ne hlast _ _)

lemma Represents.lock (hS : Represents S A) (ha : A.Allowed (.lock μ t)) :
    Agrees (S.lock μ t) (A.step (.lock μ t)) := by
  obtain ⟨hrun, hagain⟩ := ha
  cases hh : (A μ).holder with
  | none =>
    have hstep : A.step (.lock μ t) =
        (.success, [], Function.update A μ { A μ with holder := some ⟨t, 1, []⟩ }) := by
      simp [FifoMutexes.step, FifoMutex.lock, hh]
    rw [hstep, Stores.lock]
    simp only [(hS.free hh).1, if_true]
    exact ⟨rfl, rfl, hS.grant⟩
  | some h =>
    by_cases howner : h.owner = t
    · have hheld := hS.held hh
      have howner' : (S.mutexes μ).owner = t := hheld.owner.trans howner
      rcases hagain h hh howner with ⟨hkind, hdepth⟩ | hkind
      · have hkind' : (S.mutexes μ).kind = synchRecurs := (hS.each μ).1.trans hkind
        have hother : ¬ synchRecurs = synchError := by decide
        have hstep : A.step (.lock μ t) = (.success, [],
            Function.update A μ { A μ with holder := some { h with depth := h.depth + 1 } }) := by
          simp [FifoMutexes.step, FifoMutex.lock, hh, howner, hkind]
        rw [hstep, Stores.lock]
        simp only [hheld.count_ne_zero, howner', hkind', hother, false_and, and_self, if_false,
          if_true]
        exact ⟨rfl, rfl, hS.nest hh hdepth hkind⟩
      · have hkind' : (S.mutexes μ).kind = synchError := (hS.each μ).1.trans hkind
        have hother : ¬ synchError = synchRecurs := by decide
        have hstep : A.step (.lock μ t) = (.refused, [], Function.update A μ (A μ)) := by
          simp [FifoMutexes.step, FifoMutex.lock, hh, howner, hkind, hother]
        rw [hstep, Stores.lock]
        simp only [hheld.count_ne_zero, howner', hkind', and_self, if_false, if_true]
        exact ⟨rfl, rfl, hS.same⟩
    · exact hS.lock_blocked hh hrun howner

lemma Represents.tryLock (hS : Represents S A) (ha : A.Allowed (.tryLock μ t)) :
    Agrees (S.tryLock μ t) (A.step (.tryLock μ t)) := by
  obtain ⟨-, hagain⟩ := ha
  cases hh : (A μ).holder with
  | none =>
    have hstep : A.step (.tryLock μ t) =
        (.success, [], Function.update A μ { A μ with holder := some ⟨t, 1, []⟩ }) := by
      simp [FifoMutexes.step, FifoMutex.tryLock, hh]
    rw [hstep, Stores.tryLock]
    simp only [(hS.free hh).1, if_true]
    exact ⟨rfl, rfl, hS.grant⟩
  | some h =>
    have hheld := hS.held hh
    have hsame : ((S.mutexes μ).kind = synchRecurs ∧ (S.mutexes μ).owner = t) ↔
        h.owner = t ∧ (A μ).kind = synchRecurs := by
      rw [(hS.each μ).1, hheld.owner, and_comm]
    rw [Stores.tryLock]
    simp only [hheld.count_ne_zero, if_false, hsame]
    by_cases hnest : h.owner = t ∧ (A μ).kind = synchRecurs
    · have hstep : A.step (.tryLock μ t) = (.success, [],
          Function.update A μ { A μ with holder := some { h with depth := h.depth + 1 } }) := by
        simp [FifoMutexes.step, FifoMutex.tryLock, hh, hnest]
      rw [hstep, if_pos hnest]
      exact ⟨rfl, rfl, hS.nest hh (hagain h hh hnest.1 hnest.2) hnest.2⟩
    · have hstep : A.step (.tryLock μ t) = (.blocked, [], Function.update A μ (A μ)) := by
        simp only [FifoMutexes.step, FifoMutex.tryLock, hh, if_neg hnest]
      rw [hstep, if_neg hnest]
      exact ⟨rfl, rfl, hS.same⟩

lemma Represents.unnest (hS : Represents S A) (hh : (A μ).holder = some h) (hdepth : 1 < h.depth) :
    Represents
      (S.put μ { S.mutexes μ with count := (S.mutexes μ).count - 1 })
      (Function.update A μ { A μ with holder := some { h with depth := h.depth - 1 } }) := by
  have hheld := hS.held hh
  have hcount : ((S.mutexes μ).count - 1).toNat = h.depth - 1 := by
    rw [toNat_pred_of_ne_zero hheld.count_ne_zero, hheld.count]
  refine hS.put_within ⟨(hS.each μ).1, ?_⟩ fun k hk => ?_
  · refine ⟨hheld.owner, hcount, ?_, fun _ => hheld.nested hdepth, hheld.apart, hheld.queue⟩
    change 0 < h.depth - 1
    omega
  · cases hk
    exact .inr ⟨h, hh, List.Subset.refl _⟩

lemma Represents.release (hS : Represents S A) :
    Represents (S.put μ ⟨0, 0, 0, (S.mutexes μ).kind, 0⟩)
      (Function.update A μ { A μ with holder := none }) :=
  hS.put_within ⟨(hS.each μ).1, rfl, rfl⟩ fun k hk => by cases hk

lemma Represents.handOff (hS : Represents S A) (hh : (A μ).holder = some h) {w : ThreadId}
    {ws : List ThreadId} (hw : h.waiters = w :: ws) :
    (S.mutexes μ).next = w ∧
    Represents (S.put μ ⟨w, S.links w, (S.mutexes μ).last, (S.mutexes μ).kind, 1⟩)
      (Function.update A μ { A μ with holder := some ⟨w, 1, ws⟩ }) := by
  have hqueue := (hS.held hh).queue
  rw [hw] at hqueue
  obtain ⟨hnext, hmem, hrest⟩ := hqueue.advance
  refine ⟨hnext, hS.put_within ⟨(hS.each μ).1, ?_⟩ fun k hk => ?_⟩
  · exact ⟨rfl, rfl, Nat.one_pos, fun hlt => absurd hlt (lt_irrefl 1), hmem, hrest⟩
  · cases hk
    exact .inr ⟨h, hh, hw ▸ List.subset_cons_self w ws⟩

lemma Represents.unlock (hS : Represents S A) : Agrees (S.unlock μ) (A.step (.unlock μ t)) := by
  rw [Stores.unlock]
  cases hh : (A μ).holder with
  | none =>
    have hstep : A.step (.unlock μ t) = (.refused, [], Function.update A μ (A μ)) := by
      simp [FifoMutexes.step, FifoMutex.unlock, hh]
    have hone : ¬ (0 : BitVec 8) = 1 := by decide
    simp only [(hS.free hh).1, ne_eq, not_true_eq_false, and_false, if_false, hone]
    rw [hstep]
    exact ⟨rfl, rfl, hS.same⟩
  | some h =>
    have hheld := hS.held hh
    by_cases hdepth : 1 < h.depth
    · have hstep : A.step (.unlock μ t) = (.success, [],
          Function.update A μ { A μ with holder := some { h with depth := h.depth - 1 } }) := by
        simp [FifoMutexes.step, FifoMutex.unlock, hh, hdepth]
      have hcount : (S.mutexes μ).count ≠ 1 := fun heq => by
        have := hheld.count_eq_one.mp heq
        omega
      have hnested := And.intro (hheld.nested hdepth) (And.intro hcount hheld.count_ne_zero)
      rw [hstep, if_pos hnested]
      exact ⟨rfl, rfl, hS.unnest hh hdepth⟩
    · have hone : h.depth = 1 := by
        have := hheld.locked
        omega
      simp only [hheld.count_eq_one.mpr hone, ne_eq, not_true_eq_false, false_and, and_false,
        if_false, if_true]
      cases hw : h.waiters with
      | nil =>
        have hstep : A.step (.unlock μ t) =
            (.success, [], Function.update A μ { A μ with holder := none }) := by
          simp [FifoMutexes.step, FifoMutex.unlock, hh, hdepth, hw]
        rw [hstep, if_pos (hheld.last_eq_owner.mpr hw)]
        exact ⟨rfl, rfl, hS.release⟩
      | cons w ws =>
        have hstep : A.step (.unlock μ t) =
            (.success, [w], Function.update A μ { A μ with holder := some ⟨w, 1, ws⟩ }) := by
          simp [FifoMutexes.step, FifoMutex.unlock, hh, hdepth, hw]
        have hlast : (S.mutexes μ).last ≠ (S.mutexes μ).owner := fun heq => by
          have hnil := hheld.last_eq_owner.mp heq
          rw [hw] at hnil
          cases hnil
        obtain ⟨hnext, hrep⟩ := hS.handOff hh hw
        rw [hstep, if_neg hlast, hnext]
        exact ⟨rfl, rfl, hrep⟩

lemma Represents.setKind (hS : Represents S A) {k : BitVec 2} (ha : A.Allowed (.setKind μ k)) :
    Agrees (S.setKind μ k) (A.step (.setKind μ k)) := by
  have hfree : (A μ).holder = none := Option.isNone_iff_eq_none.mp ha
  refine ⟨rfl, rfl, hS.put_within ⟨rfl, ?_⟩ fun l hl => ?_⟩
  · simpa [hfree] using hS.free hfree
  · rw [hfree] at hl
    cases hl

lemma Represents.owner (hS : Represents S A) :
    Agrees ((Request.owner μ).effect S) (A.step (.owner μ)) := by
  refine ⟨?_, rfl, hS⟩
  cases hh : (A μ).holder with
  | none => simp [Request.effect, FifoMutexes.step, Verdict.data, hh, (hS.free hh).2]
  | some h => simp [Request.effect, FifoMutexes.step, Verdict.data, hh, (hS.held hh).owner]

lemma Represents.count (hS : Represents S A) :
    Agrees ((Request.count μ).effect S) (A.step (.count μ)) := by
  refine ⟨?_, rfl, hS⟩
  cases hh : (A μ).holder with
  | none => simp [Request.effect, FifoMutexes.step, Verdict.data, hh, (hS.free hh).1]
  | some h =>
    have hcount : (S.mutexes μ).count.setWidth 32 = BitVec.ofNat 32 h.depth := by
      rw [← (hS.held hh).count]
      exact (BitVec.ofNat_toNat 32 _).symm
    simp [Request.effect, FifoMutexes.step, Verdict.data, hh, hcount]

lemma Represents.kind (hS : Represents S A) :
    Agrees ((Request.kind μ).effect S) (A.step (.kind μ)) := by
  refine ⟨?_, rfl, hS⟩
  simp [Request.effect, FifoMutexes.step, Verdict.data, (hS.each μ).1]

lemma Represents.request (hS : Represents S A) {r : Request m} (ha : A.Allowed r) :
    Agrees (r.effect S) (A.step r) := by
  cases r with
  | lock μ t => exact hS.lock ha
  | tryLock μ t => exact hS.tryLock ha
  | unlock μ t => exact hS.unlock
  | setKind μ k => exact hS.setKind ha
  | kind μ => exact hS.kind
  | owner μ => exact hS.owner
  | count μ => exact hS.count

end Steps

end Hthreads.SyncManager
