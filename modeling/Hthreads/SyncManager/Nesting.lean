import Hthreads.SyncManager.Ledger

/-! How deep a thread may nest its locks of a recursive mutex. -/

namespace Hthreads.SyncManager

open Library Library.BitFields Scheduler

variable {m : ℕ}

section Tracking

variable {S : Stores m} {L : Ledger m} {μ : BitVec m} {t u : ThreadId} {r : Request m} {n k : ℕ}

structure Tracks (t : ThreadId) (μ : BitVec m) (n k : ℕ) (L : Ledger m) : Prop where
  kind : (L.stores.mutexes μ).kind = synchRecurs
  granted : L.granted = n
  unlocked : L.unlocked = k
  order : k ≤ n
  free : n = 0 → (L.stores.mutexes μ).count = 0
  owner : k < n → (L.stores.mutexes μ).owner = t
  count : k < n → (L.stores.mutexes μ).count.toNat = n - k
  ends : k < n → (L.stores.mutexes μ).Ends t
  alone : k < n ∨ n = 0 → L.others = 0 ∧ L.handed = 0
  released : k = n → ¬ L.stores.Owns μ t

lemma Tracks.count_ne_zero (h : Tracks t μ n k L) (hlt : k < n) :
    (L.stores.mutexes μ).count ≠ 0 := by
  intro hzero
  have hcount := h.count hlt
  rw [hzero] at hcount
  exact (Nat.sub_pos_of_lt hlt).ne hcount

lemma Tracks.kept (h : Tracks t μ n k L) : L.Kept t μ where
  owns hlt := by
    rw [h.granted, h.unlocked] at hlt
    exact ⟨h.count_ne_zero hlt, h.owner hlt⟩
  alone hlt := by
    rw [h.granted, h.unlocked] at hlt
    exact h.alone (.inl hlt)
  released heq := by
    rw [h.granted, h.unlocked] at heq
    exact h.released heq

lemma tracks_start (hfree : (S.mutexes μ).count = 0) (hkind : (S.mutexes μ).kind = synchRecurs) :
    Tracks t μ 0 0 { stores := S } where
  kind := hkind
  granted := rfl
  unlocked := rfl
  order := le_refl 0
  free _ := hfree
  owner hlt := absurd hlt (lt_irrefl 0)
  count hlt := absurd hlt (lt_irrefl 0)
  ends hlt := absurd hlt (lt_irrefl 0)
  alone _ := ⟨rfl, rfl⟩
  released _ howns := howns.1 hfree

lemma Tracks.of_entry (h : Tracks t μ n k L)
    (hasks : r.asks μ = none) (hunlock : r ≠ .unlock μ t)
    (hentry : (r.effect L.stores).stores.mutexes μ = L.stores.mutexes μ)
    (hsent : r.mutex = μ → (r.effect L.stores).sent = []) : Tracks t μ n k (L.step t μ r) where
  kind := by simpa [Ledger.step, hentry] using h.kind
  granted := by simpa [Ledger.step, hasks] using h.granted
  unlocked := by simpa [Ledger.step, hunlock] using h.unlocked
  order := h.order
  free := by simpa [Ledger.step, hentry] using h.free
  owner := by simpa [Ledger.step, hentry] using h.owner
  count := by simpa [Ledger.step, hentry] using h.count
  ends := by simpa [Ledger.step, hentry] using h.ends
  alone hlt := by
    obtain ⟨hothers, hhanded⟩ := h.alone hlt
    simp +contextual [Ledger.step, hasks, hothers, hhanded, hsent]
  released heq := by simpa [Ledger.step, Stores.Owns, hentry] using h.released heq

lemma Tracks.asks_first (h : Tracks t μ 0 0 L) (hr : r.asks μ = some t) :
    Tracks t μ 1 0 (L.step t μ r) := by
  have heffect := effect_asks_free (S := L.stores) hr (h.free rfl)
  have hunlock : r ≠ .unlock μ t := by rintro rfl; cases hr
  obtain ⟨hothers, hhanded⟩ := h.alone (.inr rfl)
  constructor <;>
    simp [Ledger.step, heffect, hr, hunlock, Stores.grant, Stores.put, Stores.Owns,
      MutexEntry.Ends, h.kind, h.granted, h.unlocked, hothers, hhanded]

lemma Tracks.asks_again (h : Tracks t μ n k L) (hr : r.asks μ = some t) (hlt : k < n)
    (hdepth : n + 1 ≤ k + 255) : Tracks t μ (n + 1) k (L.step t μ r) := by
  have heffect := effect_asks_own (S := L.stores) hr (h.count_ne_zero hlt) h.kind (h.owner hlt)
  have hunlock : r ≠ .unlock μ t := by rintro rfl; cases hr
  have hcount : ((L.stores.mutexes μ).count + 1).toNat = n + 1 - k := by
    have heq := h.count hlt
    rw [toNat_succ_of_lt (by omega)]
    omega
  obtain ⟨hothers, hhanded⟩ := h.alone (.inl hlt)
  have horder := h.order
  refine ⟨?_, ?_, ?_, by omega, by omega, fun _ => ?_, fun _ => ?_, fun _ => ?_, fun _ => ⟨?_, ?_⟩,
    by omega⟩
  · simpa [Ledger.step, heffect, Stores.nest, Stores.put] using h.kind
  · simp [Ledger.step, heffect, hr, h.granted]
  · simp [Ledger.step, hunlock, h.unlocked]
  · simpa [Ledger.step, heffect, Stores.nest, Stores.put] using h.owner hlt
  · simpa [Ledger.step, heffect, Stores.nest, Stores.put] using hcount
  · simpa [Ledger.step, heffect, Stores.nest, Stores.put, MutexEntry.Ends] using h.ends hlt
  · simp [Ledger.step, hr, hothers]
  · simp [Ledger.step, heffect, hhanded]

lemma Tracks.asks_other (h : Tracks t μ n k L) (hr : r.asks μ = some u) (hu : u ≠ t)
    (hlt : k < n) : Tracks t μ n k (L.step t μ r) := by
  obtain ⟨hdata, hsent, howner, hkind, hcount, hends⟩ :=
    effect_asks_other hr hu (h.count_ne_zero hlt) (h.owner hlt) (h.ends hlt)
  have hunlock : r ≠ .unlock μ t := by rintro rfl; cases hr
  have hblock : blockData ≠ 0 := by decide
  obtain ⟨hothers, hhanded⟩ := h.alone (.inl hlt)
  refine ⟨hkind.trans h.kind, ?_, ?_, h.order, by omega, fun _ => howner, fun _ => ?_,
    fun _ => hends, fun _ => ⟨?_, ?_⟩, by omega⟩
  · simp [Ledger.step, hr, hu, h.granted]
  · simp [Ledger.step, hunlock, h.unlocked]
  · exact (congrArg BitVec.toNat hcount).trans (h.count hlt)
  · simp only [Ledger.step, hdata, hblock, and_false, if_false, hothers]
  · simp [Ledger.step, hsent, hhanded]

lemma Tracks.unlock_nested (h : Tracks t μ n k L) (hlt : k + 1 < n) :
    Tracks t μ n (k + 1) (L.step t μ (.unlock μ t)) := by
  have hcount := h.count (by omega)
  have hone : (L.stores.mutexes μ).count ≠ 1 := by
    intro heq
    rw [heq] at hcount
    simp only [BitVec.ofNat_eq_ofNat, BitVec.toNat_ofNat] at hcount
    omega
  have heffect : (Request.unlock μ t).effect L.stores =
      { stores := L.stores.put μ
          { L.stores.mutexes μ with count := (L.stores.mutexes μ).count - 1 } } := by
    rw [Request.effect, Stores.unlock]
    exact if_pos ⟨h.kind, hone, h.count_ne_zero (by omega)⟩
  have hless : ((L.stores.mutexes μ).count - 1).toNat = n - (k + 1) := by
    rw [toNat_pred_of_ne_zero (h.count_ne_zero (by omega)), hcount, Nat.sub_sub]
  obtain ⟨hothers, hhanded⟩ := h.alone (.inl (by omega))
  refine ⟨?_, ?_, ?_, hlt.le, by omega, fun _ => ?_, fun _ => ?_, fun _ => ?_, fun _ => ⟨?_, ?_⟩,
    by omega⟩
  · simpa [Ledger.step, heffect, Stores.put] using h.kind
  · simp [Ledger.step, Request.asks, h.granted]
  · simp [Ledger.step, h.unlocked]
  · simpa [Ledger.step, heffect, Stores.put] using h.owner (by omega)
  · simpa [Ledger.step, heffect, Stores.put] using hless
  · simpa [Ledger.step, heffect, Stores.put, MutexEntry.Ends] using h.ends (by omega)
  · simp [Ledger.step, Request.asks, hothers]
  · simp [Ledger.step, heffect, hhanded]

lemma Tracks.unlock_last (h : Tracks t μ n k L) (hlast : k + 1 = n) :
    Tracks t μ n (k + 1) (L.step t μ (.unlock μ t)) := by
  have hlt : k < n := by omega
  have hone : (L.stores.mutexes μ).count = 1 := by
    apply BitVec.eq_of_toNat_eq
    rw [h.count hlt, ← hlast, Nat.add_sub_cancel_left]
    rfl
  have heffect : (Request.unlock μ t).effect L.stores = L.stores.unlock μ := rfl
  have hentry : (((L.stores.unlock μ).stores.mutexes μ).kind = synchRecurs) ∧
      ¬ (L.stores.unlock μ).stores.Owns μ t := by
    rw [Stores.unlock]
    simp only [hone, ne_eq, not_true_eq_false, false_and, and_false, if_false, if_true]
    split
    next => simp [Stores.put, Stores.Owns, h.kind]
    next hne =>
      rw [h.owner hlt] at hne
      have hnext : (L.stores.mutexes μ).next ≠ t := by
        rcases h.ends hlt with ⟨-, heq⟩ | ⟨hnext, -⟩
        · exact absurd heq hne
        · exact hnext
      simp [Stores.put, Stores.Owns, h.kind, hnext]
  refine ⟨?_, ?_, ?_, by omega, by omega, by omega, by omega, by omega, by omega, fun _ => ?_⟩
  · simpa [Ledger.step, heffect] using hentry.1
  · simp [Ledger.step, Request.asks, h.granted]
  · simp [Ledger.step, h.unlocked]
  · simpa [Ledger.step, heffect] using hentry.2

lemma Tracks.step (h : Tracks t μ n k L) (hr : Interleaves t μ n k r)
    (hdepth : n + (if r.asks μ = some t then 1 else 0) ≤
      k + (if r = .unlock μ t then 1 else 0) + 255) :
    Tracks t μ (n + if r.asks μ = some t then 1 else 0) (k + if r = .unlock μ t then 1 else 0)
      (L.step t μ r) := by
  cases hasks : r.asks μ with
  | some u =>
    have hunlock : r ≠ .unlock μ t := by rintro rfl; cases hasks
    have hturn : k < n ∨ u = t ∧ n = 0 := by
      rcases Request.of_asks hasks with rfl | rfl <;> exact hr rfl
    by_cases hu : u = t
    · subst hu
      simp only [hasks, hunlock, if_true, if_false, Nat.add_zero] at hdepth ⊢
      rcases hturn with hlt | ⟨-, rfl⟩
      · exact h.asks_again hasks hlt hdepth
      · obtain rfl : k = 0 := Nat.le_zero.mp h.order
        exact h.asks_first hasks
    · have hlt : k < n := hturn.resolve_right fun hut => hu hut.1
      simp only [hunlock, Option.some.injEq, hu, if_false, Nat.add_zero]
      exact h.asks_other hasks hu hlt
  | none =>
    by_cases hunlock : r = .unlock μ t
    · subst hunlock
      have hlt : k < n := (hr rfl).2
      simp only [reduceCtorEq, if_true, if_false, Nat.add_zero]
      rcases Nat.lt_or_eq_of_le (Nat.succ_le_of_lt hlt) with hnested | hlast
      · exact h.unlock_nested hnested
      · exact h.unlock_last hlast
    · simp only [hunlock, reduceCtorEq, if_false, Nat.add_zero]
      by_cases hμ : r.mutex = μ
      · subst hμ
        cases r with
        | lock ν u => simp [Request.asks, Request.mutex] at hasks
        | tryLock ν u => simp [Request.asks, Request.mutex] at hasks
        | unlock ν u =>
          obtain rfl : u = t := (hr rfl).1
          exact absurd rfl hunlock
        | setKind ν c => exact absurd rfl hr
        | kind ν => exact h.of_entry hasks hunlock rfl fun _ => rfl
        | owner ν => exact h.of_entry hasks hunlock rfl fun _ => rfl
        | count ν => exact h.of_entry hasks hunlock rfl fun _ => rfl
      · exact h.of_entry hasks hunlock (effect_mutexes_of_ne hμ) fun heq => absurd heq hμ

lemma Tracks.not_kept_of_wrap (h : Tracks t μ n k L) (hr : r.asks μ = some t)
    (hdepth : n = k + 255) : ¬ (L.step t μ r).Kept t μ := by
  have hlt : k < n := by omega
  have heffect := effect_asks_own (S := L.stores) hr (h.count_ne_zero hlt) h.kind (h.owner hlt)
  have hunlock : r ≠ .unlock μ t := by rintro rfl; cases hr
  have hcount : (L.stores.mutexes μ).count + 1 = 0 := by
    apply BitVec.eq_of_toNat_eq
    rw [BitVec.toNat_add, h.count hlt, hdepth, Nat.add_sub_cancel_left]
    rfl
  intro hkept
  have howns := hkept.owns (by
    simp only [Ledger.step, heffect, hr, hunlock, and_self, if_true, if_false,
      h.granted, h.unlocked]
    omega)
  apply howns.1
  simpa [Ledger.step, heffect, Stores.nest, Stores.put] using hcount

end Tracking

section Prefixes

variable {S : Stores m} {μ : BitVec m} {t : ThreadId} {rs p : List (Request m)}

lemma locks_concat (r : Request m) :
    locks t μ (p ++ [r]) = locks t μ p + if r.asks μ = some t then 1 else 0 := by
  simp [locks, List.countP_append, List.countP_singleton]

lemma unlocks_concat (r : Request m) :
    unlocks t μ (p ++ [r]) = unlocks t μ p + if r = .unlock μ t then 1 else 0 := by
  simp [unlocks, List.count_append, List.count_singleton]

lemma run_concat (L : Ledger m) (r : Request m) :
    L.run t μ (p ++ [r]) = (L.run t μ p).step t μ r := by
  simp [Ledger.run]

lemma tracks_isPrefix (hfree : (S.mutexes μ).count = 0) (hkind : (S.mutexes μ).kind = synchRecurs)
    (hsched : Scheduled t μ rs) (hp : p <+: rs)
    (hdepth : ∀ q, q <+: p → locks t μ q ≤ unlocks t μ q + 255) :
    Tracks t μ (locks t μ p) (unlocks t μ p) (Ledger.run t μ { stores := S } p) := by
  induction p using List.reverseRecOn with
  | nil => exact tracks_start hfree hkind
  | append_singleton p r ih =>
    have hqp : p <+: p ++ [r] := List.prefix_append p [r]
    have htracks := ih (hqp.trans hp) fun q hq => hdepth q (hq.trans hqp)
    have hlast := hdepth (p ++ [r]) List.prefix_rfl
    rw [locks_concat, unlocks_concat] at hlast
    rw [locks_concat, unlocks_concat, run_concat]
    exact htracks.step (hsched.interleaves hp) hlast

end Prefixes

lemma depth_of_kept {S : Stores m} {μ : BitVec m} {t : ThreadId} {rs p : List (Request m)}
    (hfree : (S.mutexes μ).count = 0) (hkind : (S.mutexes μ).kind = synchRecurs)
    (hsched : Scheduled t μ rs)
    (hkept : ∀ p, p <+: rs → (Ledger.run t μ { stores := S } p).Kept t μ) (hp : p <+: rs) :
    ∀ q, q <+: p → locks t μ q ≤ unlocks t μ q + 255 := by
  induction p using List.reverseRecOn with
  | nil =>
    intro q hq
    rw [List.prefix_nil.mp hq]
    exact Nat.zero_le _
  | append_singleton p r ih =>
    have hbefore := ih ((List.prefix_append p [r]).trans hp)
    intro q hq
    rcases List.prefix_concat_iff.mp hq with rfl | hq
    · have htracks :=
        tracks_isPrefix hfree hkind hsched ((List.prefix_append p [r]).trans hp) hbefore
      have hdepth := hbefore p List.prefix_rfl
      rw [locks_concat, unlocks_concat]
      by_contra hdeep
      by_cases hasks : r.asks μ = some t
      · rw [if_pos hasks] at hdeep
        apply htracks.not_kept_of_wrap hasks (by omega)
        rw [← run_concat]
        exact hkept _ hp
      · rw [if_neg hasks] at hdeep
        omega
    · exact hbefore q hq

/-- A thread keeps a recursive mutex through its nested locks and unlocks exactly as long as the
nesting is at most 255 deep. -/
theorem nesting_kept_iff (S : Stores m) (μ : BitVec m) (t : ThreadId)
    (hfree : (S.mutexes μ).count = 0) (hkind : (S.mutexes μ).kind = synchRecurs)
    (rs : List (Request m)) (hsched : Scheduled t μ rs) :
    (∀ p, p <+: rs → (Ledger.run t μ { stores := S } p).Kept t μ) ↔
      ∀ p, p <+: rs → locks t μ p ≤ unlocks t μ p + 255 := by
  constructor
  · intro hkept p hp
    exact depth_of_kept hfree hkind hsched hkept hp p List.prefix_rfl
  · intro hdepth p hp
    exact (tracks_isPrefix hfree hkind hsched hp fun q hq => hdepth q (hq.trans hp)).kept

def recursiveStores : Stores m := ⟨fun _ => ⟨0, 0, 0, synchRecurs, 0⟩, fun _ => 0⟩

theorem nesting_kept_twice :
    (Ledger.run 5 (0 : BitVec 1) { stores := recursiveStores }
      [.lock 0 5, .lock 0 7, .tryLock 0 5, .unlock 0 5]).Kept 5 0 := by
  apply (nesting_kept_iff recursiveStores (0 : BitVec 1) 5 rfl rfl
    [.lock 0 5, .lock 0 7, .tryLock 0 5, .unlock 0 5] ?_).mpr ?_ _ List.prefix_rfl
  · decide
  · intro p hp
    have hlocks : locks 5 (0 : BitVec 1) p ≤ 2 := hp.sublist.countP_le
    omega

lemma scheduled_replicate (t : ThreadId) (μ : BitVec m) (n : ℕ) :
    Scheduled t μ (List.replicate n (.lock μ t)) := by
  intro i
  have hi : (i : ℕ) < n := by simpa using i.isLt
  have hmin : min (i : ℕ) n = i := min_eq_left hi.le
  have hunlocks : unlocks t μ (List.replicate i (.lock μ t)) = 0 := by
    simp [unlocks, List.count_replicate]
  have hlocks : locks t μ (List.replicate i (.lock μ t)) = i := by
    simp [locks, List.countP_replicate, Request.asks]
  simp only [Fin.getElem_fin, List.getElem_replicate, List.take_replicate, hmin, hunlocks, hlocks,
    Interleaves, true_and, forall_const]
  exact (Nat.eq_zero_or_pos i).symm

theorem nesting_lost_after_256_locks :
    ¬ ∀ (S : Stores 1) (μ : BitVec 1) (t : ThreadId), (S.mutexes μ).count = 0 →
      (S.mutexes μ).kind = synchRecurs → ∀ rs : List (Request 1), Scheduled t μ rs →
        (Ledger.run t μ { stores := S } rs).Kept t μ := by
  intro hclaim
  have hkept := hclaim recursiveStores 0 5 rfl rfl _ (scheduled_replicate 5 0 256)
  exact (hkept.owns (by decide +kernel)).1 (by decide +kernel)

end Hthreads.SyncManager
