import Hthreads.Hterm.Registry

/-! A select round: the callbacks answer first, the ones that asked for it are removed after. -/

namespace Hthreads.Hterm

variable {α : Type} {s t u : Input α} {R : Registry α} {k : Kind} {r : Input.Round α}
  {e : Slot α} {n : ℕ}

-- a slot after the descriptors below `n` were visited
def answered (r : Input.Round α) (k : Kind) (n : ℕ) (e : Slot α) : Slot α :=
  if 0 ≤ e.fd ∧ e.fd < n ∧ r.ready k e.fd.toNat = true then
    match e.call with
    | some c => { e with del := r.answer k e.fd.toNat c }
    | none => e
  else e

lemma answered_fd : (answered r k n e).fd = e.fd := by
  rw [answered]
  split
  · split <;> rfl
  · rfl

lemma answered_call : (answered r k n e).call = e.call := by
  rw [answered]
  split
  · split <;> rfl
  · rfl

lemma answered_live : (answered r k n e).live = e.live := by
  rw [Slot.live, Slot.live, answered_fd, answered_call]

lemma answered_succ : answered r k (n + 1) e =
    if r.ready k n then Input.visitSlot r k n (answered r k n e) else answered r k n e := by
  by_cases hfd : e.fd = n
  · have hkeep : answered r k n e = e := if_neg (by omega)
    have hnat : e.fd.toNat = n := by omega
    rw [hkeep, answered, hnat]
    by_cases hr : r.ready k n = true
    · rw [if_pos ⟨by omega, by omega, hr⟩, if_pos hr, Input.visitSlot]
      exact (if_pos hfd).symm
    · rw [if_neg fun h => hr h.2.2, if_neg hr]
  · have hvisit : Input.visitSlot r k n (answered r k n e) = answered r k n e := by
      rw [Input.visitSlot, answered_fd, if_neg hfd]
    rw [hvisit, ite_self, answered, answered]
    have hlt : e.fd < (n + 1 : ℕ) ↔ e.fd < n := by omega
    simp only [hlt]

lemma visits_eq (s : Input α) (n : ℕ) : (List.range n).foldl (Input.visit r) s =
    { s with calls := fun k => (s.calls k).map (answered r k n) } := by
  induction n with
  | zero =>
    have hzero : ∀ k, answered r k 0 = id := by
      intro k
      funext e
      exact if_neg (by omega)
    simp only [hzero, List.map_id]
    rfl
  | succ n ih =>
    rw [List.range_succ, List.foldl_append, ih, List.foldl_cons, List.foldl_nil, Input.visit]
    congr 1
    funext k
    have hsucc : answered r k (n + 1) = fun e =>
        if r.ready k n then Input.visitSlot r k n (answered r k n e) else answered r k n e :=
      funext fun e => answered_succ
    rw [hsucc]
    split
    · rw [List.map_map]
      rfl
    · rfl

def Slot.Marked (e : Slot α) : Prop := e.fd ≥ 0 ∧ e.del ≠ 0

instance (e : Slot α) : Decidable e.Marked := inferInstanceAs (Decidable (_ ∧ _))

def swept (e : Slot α) : Slot α := if e.Marked then e.drop else e

lemma sweepSlot_of_marked {i : ℕ} (hi : (s.calls k)[i]? = some e) (he : e.Marked) :
    s.sweepSlot k i =
      ((s.setFd k e.fd.toNat false).setCalls k ((s.calls k).set i e.drop)).findhigh := by
  rw [Input.sweepSlot, hi]
  exact if_pos he

lemma sweepSlot_of_unmarked {i : ℕ} (h : ∀ e, (s.calls k)[i]? = some e → ¬ e.Marked) :
    s.sweepSlot k i = s := by
  rw [Input.sweepSlot]
  split
  case h_1 e he => exact if_neg (h e he)
  case h_2 => rfl

-- the sweep is a fold over the slots; what it has made of the first `n` of them
structure SweptTo (s : Input α) (k : Kind) (n : ℕ) (t : Input α) : Prop where
  calls : t.calls = Function.update s.calls k
    (((s.calls k).take n).map swept ++ (s.calls k).drop n)
  bits : ∀ k' fd, t.fds k' fd = true ↔ s.fds k' fd = true ∧
    ¬ (k' = k ∧ ∃ e ∈ (s.calls k).take n, e.Marked ∧ e.fd = fd)

lemma sweptTo_step (h : SweptTo s k n t) (hn : n < (s.calls k).length) :
    SweptTo s k (n + 1) (t.sweepSlot k n) := by
  have hcalls : t.calls k = ((s.calls k).take n).map swept ++ (s.calls k).drop n := by
    rw [h.calls, Function.update_self]
  have hlen : (((s.calls k).take n).map swept).length = n := by
    rw [List.length_map, List.length_take, Nat.min_eq_left (Nat.le_of_lt hn)]
  have hdrop : (s.calls k).drop n = (s.calls k)[n] :: (s.calls k).drop (n + 1) :=
    List.drop_eq_getElem_cons hn
  have hslot : (t.calls k)[n]? = some (s.calls k)[n] := by
    rw [hcalls, List.getElem?_append_right (by rw [hlen]), hlen, hdrop, Nat.sub_self]
    rfl
  have htake : (s.calls k).take (n + 1) = (s.calls k).take n ++ [(s.calls k)[n]] :=
    (List.take_append_getElem hn).symm
  by_cases he : (s.calls k)[n].Marked
  · rw [sweepSlot_of_marked hslot he]
    refine ⟨?_, fun k' fd => ?_⟩
    · have hset : (t.calls k).set n (s.calls k)[n].drop =
          ((s.calls k).take (n + 1)).map swept ++ (s.calls k).drop (n + 1) := by
        rw [hcalls, List.set_append_right _ _ (by rw [hlen]), hlen, Nat.sub_self, hdrop, htake,
          List.map_append, List.map_singleton, swept, if_pos he, List.set_cons_zero,
          List.append_assoc, List.singleton_append]
      change Function.update t.calls k _ = _
      rw [hset, h.calls, Function.update_idem]
    · change Function.update t.fds k _ k' fd = true ↔ _
      rw [htake]
      by_cases hk : k' = k
      · subst hk
        rw [Function.update_self]
        by_cases hfd : fd = (s.calls k')[n].fd.toNat
        · have hnat : (s.calls k')[n].fd = fd := by
            have := he.1
            omega
          rw [hfd, Function.update_self]
          rw [← hfd]
          refine ⟨fun hf => Bool.noConfusion hf, fun ⟨_, hno⟩ => absurd ⟨rfl, ?_⟩ hno⟩
          exact ⟨_, List.mem_append_right _ List.mem_cons_self, he, hnat⟩
        · rw [Function.update_of_ne hfd, h.bits]
          refine and_congr_right fun _ => not_congr (and_congr_right fun _ => ?_)
          have hne : (s.calls k')[n].fd ≠ fd := by
            intro heq
            exact hfd (by rw [heq, Int.toNat_natCast])
          simp only [List.mem_append, List.mem_singleton, or_and_right, exists_or,
            exists_eq_left, hne, and_false, or_false]
      · rw [Function.update_of_ne hk, h.bits]
        simp only [hk, false_and]
  · have hkeep : t.sweepSlot k n = t := by
      apply sweepSlot_of_unmarked
      intro e hmem
      rw [hslot, Option.some.injEq] at hmem
      exact hmem ▸ he
    rw [hkeep]
    refine ⟨?_, fun k' fd => ?_⟩
    · rw [h.calls, htake, hdrop, List.map_append, List.map_singleton, swept, if_neg he,
        List.append_assoc, List.singleton_append]
    · rw [h.bits, htake]
      simp only [List.mem_append, List.mem_singleton, or_and_right, exists_or, exists_eq_left, he,
        false_and, or_false]

lemma sweptTo_all (s : Input α) (k : Kind) (hn : n ≤ (s.calls k).length) :
    SweptTo s k n ((List.range n).foldl (Input.sweepSlot k) s) := by
  induction n with
  | zero =>
    refine ⟨?_, fun k' fd => ?_⟩
    · rw [List.take_zero, List.map_nil, List.nil_append, List.drop_zero, Function.update_eq_self]
      rfl
    · simp
  | succ n ih =>
    rw [List.range_succ, List.foldl_append]
    exact sweptTo_step (ih (Nat.le_of_succ_le hn)) hn

-- nothing was removed yet, or the highest descriptor was found anew
def Topped (s t : Input α) : Prop :=
  t.nfds = s.nfds ∧ t.calls = s.calls ∨ t.nfds = t.findhigh.nfds

lemma Topped.trans (h : Topped s t) (h' : Topped t u) : Topped s u := by
  rcases h' with ⟨hn, hc⟩ | h'
  · rcases h with ⟨hn', hc'⟩ | h
    · exact Or.inl ⟨hn.trans hn', hc.trans hc'⟩
    · right
      rw [hn, h, Input.findhigh_nfds, Input.findhigh_nfds, Input.highest, Input.highest, hc]
  · exact Or.inr h'

lemma topped_sweepSlot (i : ℕ) : Topped s (s.sweepSlot k i) := by
  cases hi : (s.calls k)[i]? with
  | none =>
    rw [sweepSlot_of_unmarked (by simp [hi])]
    exact Or.inl ⟨rfl, rfl⟩
  | some e =>
    by_cases he : e.Marked
    · rw [sweepSlot_of_marked hi he]
      exact Or.inr rfl
    · rw [sweepSlot_of_unmarked fun e' he' => Option.some.inj (hi.symm.trans he') ▸ he]
      exact Or.inl ⟨rfl, rfl⟩

lemma topped_sweep (s : Input α) (k : Kind) : Topped s (s.sweep k) := by
  rw [Input.sweep]
  generalize List.range (s.calls k).length = l
  induction l generalizing s with
  | nil => exact Or.inl ⟨rfl, rfl⟩
  | cons i l ih => exact (topped_sweepSlot i).trans (ih _)

lemma sweep_of_unmarked (h : ∀ e ∈ s.calls k, ¬ e.Marked) : s.sweep k = s := by
  rw [Input.sweep]
  generalize List.range (s.calls k).length = l
  induction l with
  | nil => rfl
  | cons i l ih =>
    rw [List.foldl_cons, sweepSlot_of_unmarked fun e he => h e (List.mem_of_getElem? he)]
    exact ih

lemma sweep_calls (s : Input α) (k : Kind) :
    (s.sweep k).calls = Function.update s.calls k ((s.calls k).map swept) := by
  have h := (sweptTo_all s k (le_refl _)).calls
  rwa [List.take_length, List.drop_length, List.append_nil] at h

lemma sweep_bits (s : Input α) (k k' : Kind) (fd : ℕ) : (s.sweep k).fds k' fd = true ↔
    s.fds k' fd = true ∧ ¬ (k' = k ∧ ∃ e ∈ s.calls k, e.Marked ∧ e.fd = fd) := by
  have h := (sweptTo_all s k (le_refl _)).bits k' fd
  rwa [List.take_length] at h

def sweepAll (s : Input α) : Input α := ((s.sweep .read).sweep .write).sweep .except

lemma sweepAll_calls (s : Input α) (k : Kind) :
    (sweepAll s).calls k = (s.calls k).map swept := by
  simp only [sweepAll, sweep_calls]
  cases k
  all_goals
    simp

lemma sweepAll_bits (s : Input α) (k : Kind) (fd : ℕ) : (sweepAll s).fds k fd = true ↔
    s.fds k fd = true ∧ ¬ ∃ e ∈ s.calls k, e.Marked ∧ e.fd = fd := by
  simp only [sweepAll, sweep_bits, sweep_calls]
  cases k
  all_goals
    simp

lemma topped_sweepAll (s : Input α) : Topped s (sweepAll s) :=
  ((topped_sweep s .read).trans (topped_sweep _ .write)).trans (topped_sweep _ .except)

lemma sweepAll_of_unmarked (h : ∀ k, ∀ e ∈ s.calls k, ¬ e.Marked) : sweepAll s = s := by
  rw [sweepAll, sweep_of_unmarked (h .read), sweep_of_unmarked (h .write),
    sweep_of_unmarked (h .except)]

lemma select_eq (r : Input.Round α) (s : Input α) : s.select r = sweepAll
    { s with calls := fun k => (s.calls k).map (answered r k s.nfds.toNat) } := by
  rw [Input.select, visits_eq]
  rfl

lemma Sound.marked_iff (h : Sound s R) {x : ℕ × α} (he : e ∈ s.calls k) (hx : e.live = some x) :
    (answered r k s.nfds.toNat e).Marked ↔ Registry.Asks r k x := by
  obtain ⟨fd, c⟩ := x
  obtain ⟨hfd, hc⟩ := Slot.live_eq_some_iff.mp hx
  have hlt : (fd : ℤ) < s.nfds := by
    apply h.high.1 k fd
    refine ⟨c, ?_⟩
    rw [← h.calls k]
    exact mem_live_iff.mpr ⟨e, he, hfd, hc⟩
  have hnat : e.fd.toNat = fd := by omega
  rw [Slot.Marked, answered_fd, answered, hnat, hc, Registry.Asks]
  by_cases hr : r.ready k fd = true
  · rw [if_pos ⟨by omega, by omega, hr⟩]
    simp only [hr, true_and, hfd, Nat.cast_nonneg, ge_iff_le]
  · rw [if_neg fun hall => hr hall.2.2]
    rw [(h.settled k e he (by omega)).del]
    exact ⟨fun hm => absurd rfl hm.2, fun ha => absurd ha.1 hr⟩

lemma Sound.select (h : Sound s R) (hR : R.Harmless (.select r)) :
    Sound (s.select r) (R.step (.select r)) := by
  classical
  have hmarked : ∀ k, ∀ e ∈ s.calls k, ∀ x, e.live = some x →
      ((answered r k s.nfds.toNat e).Marked ↔ Registry.Asks r k x) :=
    fun k e he x hx => h.marked_iff he hx
  have hlive : ∀ k, live ((s.calls k).map (answered r k s.nfds.toNat)) = R k := by
    intro k
    have hcomp : Slot.live ∘ answered r k s.nfds.toNat = Slot.live :=
      funext fun e => answered_live
    rw [live, List.filterMap_map, hcomp]
    exact h.calls k
  have hcalls : ∀ k, (s.select r).calls k =
      ((s.calls k).map (answered r k s.nfds.toNat)).map swept := by
    intro k
    rw [select_eq, sweepAll_calls]
  have hstep : ∀ k, live ((s.select r).calls k) = R.step (.select r) k := by
    intro k
    have hdrop := live_map_drop (l := (s.calls k).map (answered r k s.nfds.toNat))
      (fun e => decide e.Marked) (fun x => ¬ Registry.Asks r k x) fun e he x hx => by
        obtain ⟨e', he', rfl⟩ := List.mem_map.mp he
        rw [answered_live] at hx
        rw [decide_eq_true_eq, not_not]
        exact hmarked k e' he' x hx
    rw [hlive k] at hdrop
    rw [hcalls]
    refine Eq.trans ?_ hdrop
    simp only [decide_eq_true_eq]
    rfl
  have hsettled : ∀ k, ∀ e ∈ (s.select r).calls k, 0 ≤ e.fd → e.Settled := by
    intro k e he hpos
    rw [hcalls] at he
    obtain ⟨e', he', rfl⟩ := List.mem_map.mp he
    obtain ⟨e, hmem, rfl⟩ := List.mem_map.mp he'
    by_cases hm : (answered r k s.nfds.toNat e).Marked
    · rw [swept, if_pos hm] at hpos
      exact absurd hpos (show ¬ (0 : ℤ) ≤ -1 by decide)
    · rw [swept, if_neg hm] at hpos ⊢
      rw [answered_fd] at hpos
      refine ⟨?_, ?_⟩
      · by_contra hdel
        exact hm ⟨by rw [answered_fd]; exact hpos, hdel⟩
      · rw [answered_call]
        exact (h.settled k e hmem hpos).call
  refine ⟨⟨hstep, fun k fd => ?_, ?_⟩, hsettled⟩
  · rw [select_eq, sweepAll_bits]
    change s.fds k fd = true ∧ _ ↔ _
    rw [h.bits, Registry.Registered, Registry.Registered, Registry.step]
    simp only [Multiset.mem_filter]
    constructor
    · rintro ⟨⟨c, hc⟩, hno⟩
      refine ⟨c, hc, fun hasks => hno ?_⟩
      rw [← h.calls k] at hc
      obtain ⟨e, he, hfd, hcall⟩ := mem_live_iff.mp hc
      refine ⟨_, List.mem_map_of_mem he, ?_, answered_fd.trans hfd⟩
      exact (hmarked k e he _ (Slot.live_eq_some_iff.mpr ⟨hfd, hcall⟩)).mpr hasks
    · rintro ⟨c, hc, hkeep⟩
      refine ⟨⟨c, hc⟩, ?_⟩
      rintro ⟨e', he', hm, hfd⟩
      obtain ⟨e, he, rfl⟩ := List.mem_map.mp he'
      rw [answered_fd] at hfd
      obtain ⟨c', hc'⟩ := Option.isSome_iff_exists.mp (h.settled k e he (by omega)).call
      have hx := Slot.live_eq_some_iff.mpr ⟨hfd, hc'⟩
      have hmem : (fd, c') ∈ R k := by
        rw [← h.calls k]
        exact mem_live_iff.mpr ⟨e, he, hfd, hc'⟩
      exact hkeep (hR.1 k _ hmem ((hmarked k e he _ hx).mp hm) _ hc rfl)
  · by_cases hasks : ∃ k, ∃ e ∈ R k, Registry.Asks r k e
    · rw [select_eq] at hstep hsettled ⊢
      rcases topped_sweepAll
        { s with calls := fun k => (s.calls k).map (answered r k s.nfds.toNat) }
          with ⟨hn, hc⟩ | htop
      · have hsame : R.step (.select r) = R := by
          funext k
          rw [← hstep k, hc]
          exact hlive k
        rw [hsame, hn]
        exact h.high
      · rw [htop]
        exact findhigh_high hstep (fun k e he hpos => (hsettled k e he hpos).call) (hR.2 hasks)
    · have hnone : ∀ k, ∀ e ∈ (s.calls k).map (answered r k s.nfds.toNat), ¬ e.Marked := by
        intro k e' he' hm
        obtain ⟨e, he, rfl⟩ := List.mem_map.mp he'
        have hpos : 0 ≤ e.fd := by
          have := hm.1
          rwa [answered_fd] at this
        obtain ⟨c, hc⟩ := Option.isSome_iff_exists.mp (h.settled k e he hpos).call
        have hfd : e.fd = (e.fd.toNat : ℤ) := by omega
        have hx := Slot.live_eq_some_iff.mpr ⟨hfd, hc⟩
        refine hasks ⟨k, _, ?_, (hmarked k e he _ hx).mp hm⟩
        rw [← h.calls k]
        exact mem_live_iff.mpr ⟨e, he, hfd, hc⟩
      have hsame : R.step (.select r) = R := by
        funext k
        exact Multiset.filter_eq_self.mpr fun e he ha => hasks ⟨k, e, he, ha⟩
      rw [hsame, select_eq, sweepAll_of_unmarked hnone]
      exact h.high

lemma sound_create : Sound (Input.create : Input α) Registry.empty := by
  refine ⟨⟨fun _ => rfl, fun k fd => ?_, ?_⟩, fun _ e he => absurd he List.not_mem_nil⟩
  · exact ⟨fun h => Bool.noConfusion h, fun ⟨_, hc⟩ => absurd hc (Multiset.notMem_zero _)⟩
  · exact ⟨fun k fd ⟨_, hc⟩ => absurd hc (Multiset.notMem_zero _), Or.inl rfl⟩

lemma Sound.step {op : Op α} (h : Sound s R) (hop : R.Harmless op) :
    Sound (op.step s) (R.step op) := by
  cases op with
  | register k fd call => exact h.register
  | delete k fd => exact h.delete hop
  | select r => exact h.select hop

lemma Sound.run {ops : List (Op α)} (h : Sound s R) (hops : R.Allowed ops) :
    Sound (s.run ops) (R.run ops) := by
  induction ops generalizing s R with
  | nil => exact h
  | cons op ops ih => exact ih (h.step hops.1) hops.2

theorem registry_consistent (ops : List (Op α)) (h : Registry.empty.Allowed ops) :
    Consistent (Input.create.run ops) (Registry.empty.run ops) :=
  (sound_create.run h).toConsistent

-- every write callback asks to be removed
def closingRound : Input.Round Unit :=
  ⟨fun _ _ => true, fun k _ _ => if k = .write then 1 else 0⟩

def terminalRun : List (Op Unit) :=
  [.register .read 0 (), .register .read 5 (), .register .write 7 (), .select closingRound,
    .delete .read 0]

-- the round removes the callback on descriptor 7, and the deletion the one on descriptor 0
theorem registry_consistent_on_terminalRun :
    Consistent (Input.create.run terminalRun) (Registry.empty.run terminalRun) := by
  classical
  have hasks : ∀ k e, Registry.Asks closingRound k e ↔ k = .write := by
    intro k e
    cases k <;> simp [Registry.Asks, closingRound]
  have hread : (5, ()) ∈ Registry.empty.run (terminalRun.take 3) Kind.read := by
    simp [Registry.run, terminalRun, Registry.step, Function.update]
  have hleft : (5, ()) ∈ Registry.empty.run (terminalRun.take 4) Kind.read :=
    Multiset.mem_filter.mpr ⟨hread, fun h => Kind.noConfusion ((hasks _ _).mp h)⟩
  have hlast : (5, ()) ∈ Registry.empty.run terminalRun Kind.read :=
    Multiset.mem_filter.mpr ⟨hleft, by decide⟩
  apply registry_consistent terminalRun
  refine ⟨trivial, trivial, trivial, ⟨fun k e _ h e' _ _ => ?_, fun _ => ?_⟩, ?_, trivial⟩
  · rw [hasks] at h ⊢
    exact h
  · exact .inr ⟨.read, 5, by decide, (), hleft⟩
  · exact .inr ⟨.read, 5, by decide, (), hlast⟩

def lowestLeft : List (Op Unit) :=
  [.register .read 0 (), .register .read 1 (), .delete .read 1]

theorem registry_inconsistent_after_delete :
    ¬ ∀ ops : List (Op Unit), Consistent (Input.create.run ops) (Registry.empty.run ops) := by
  intro hclaim
  have h := hclaim lowestLeft
  have hzero := h.high.1 .read 0 ((h.bits .read 0).mp rfl)
  have hnfds : (Input.create.run lowestLeft).nfds = 0 := rfl
  rw [hnfds] at hzero
  exact absurd hzero (by decide)

end Hthreads.Hterm
