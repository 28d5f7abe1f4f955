import Hthreads.Slaves.Results
import Hthreads.Software.Create

/-! What a join can rely on: the invariant that ties the entries of the threads to what the threads
have returned, and what a step may change. -/

namespace Hthreads.Slaves

open Library Library.BitFields Scheduler ThreadManager Cores Software

structure View where
  running : Bool
  used : Bool
  detached : Bool

def viewOf (b : Books) (tid : ThreadId) : View :=
  ⟨b.running tid, b.used tid, entryDetached (b.entry tid)⟩

section Views

variable {b b' : Books} {cmd : Cores.Command} {tid u : ThreadId} {w : Word}

lemma used_of_status_eq {e e' : Word} (h : entryStatus e' = entryStatus e) :
    entryUsed e' = entryUsed e := by
  rw [status_eq, status_eq] at h
  rw [entryUsed, entryUsed]
  revert h
  cases bit e 26 <;> cases bit e 27 <;> cases bit e' 26 <;> cases bit e' 27 <;> decide

lemma view_eq (hstatus : entryStatus (b'.entry u) = entryStatus (b.entry u))
    (hdetached : entryDetached (b'.entry u) = entryDetached (b.entry u)) :
    viewOf b' u = viewOf b u := by
  rw [viewOf, viewOf, Books.running, Books.running, Books.used, Books.used, hstatus, hdetached,
    used_of_status_eq hstatus]

lemma view_quiet (hquiet : quiet cmd = true) (h : cmd.effect b = some (b', w)) (u : ThreadId) :
    viewOf b' u = viewOf b u := by
  have hcreates : (Event.mk b cmd w b').creates u = false := by
    cases cmd <;> first | rfl | cases hquiet
  have hrec := record_of_effect h (by rintro rfl; cases hquiet) hcreates
    (by rintro rfl; cases hquiet) (by rintro rfl; cases hquiet)
  exact view_eq (entryStatus_of_record hrec) (bit_of_record hrec (by omega))

lemma view_join (tid u : ThreadId) : viewOf (b.join tid).1 u = viewOf b u :=
  view_eq join_status (join_detached tid u)

lemma view_create (hc : cmd = .createJ ∨ cmd = .createD) (h : cmd.effect b = some (b', w))
    (hcreates : (Event.mk b cmd w b').creates u = false) : viewOf b' u = viewOf b u := by
  have hrec := record_of_effect h (by rintro rfl; rcases hc with hc | hc <;> cases hc) hcreates
    (by rintro rfl; rcases hc with hc | hc <;> cases hc)
    (by rintro rfl; rcases hc with hc | hc <;> cases hc)
  exact view_eq (entryStatus_of_record hrec) (bit_of_record hrec (by omega))

lemma view_exit_of_ne (hu : u ≠ tid) : viewOf (b.exit tid).1 u = viewOf b u := by
  have hentry : (b.exit tid).1.entry u = b.entry u := by rw [exit_entry, exited_entry, if_neg hu]
  exact view_eq (by rw [hentry]) (by rw [hentry])

lemma view_exit_self (b : Books) (tid : ThreadId) :
    viewOf (b.exit tid).1 tid = ⟨false, true, entryDetached (b.entry tid)⟩ := by
  have hstatus : entryStatus ((b.exit tid).1.entry tid) = 0b10 := by
    rw [exit_entry, exited_entry, if_pos rfl, entryStatus_exited]
  have hused : (b.exit tid).1.used tid = true := entryUsed_of_status (by rw [hstatus]; rfl)
  rw [viewOf, Books.running, hstatus, hused, exit_detached]
  rfl

lemma view_clear_of_ne (hu : u ≠ tid) : viewOf (b.clear tid).1 u = viewOf b u := by
  have hrec := clear_record b tid u
  rw [if_neg fun h => hu h.2] at hrec
  exact view_eq (entryStatus_of_record hrec) (bit_of_record hrec (by omega))

lemma view_clear_self (hb : Consistent b) (hrunning : b.running tid = false) :
    (viewOf (b.clear tid).1 tid).running = false ∧ (viewOf (b.clear tid).1 tid).used = false := by
  have hzero : entryStatus ((b.clear tid).1.entry tid) = 0 := by
    have hrec := clear_record b tid tid
    split at hrec
    · exact entryStatus_of_record (e := 0) hrec
    · next hno =>
      rw [entryStatus_of_record hrec]
      have hne := hb tid
      have hten : entryStatus (b.entry tid) ≠ 0b10 := fun h => hno ⟨h, rfl⟩
      rw [Books.running] at hrunning
      rw [status_eq] at hne hten hrunning ⊢
      revert hne hten hrunning
      cases bit (b.entry tid) 26 <;> cases bit (b.entry tid) 27 <;> decide
  refine ⟨?_, ?_⟩
  · rw [viewOf, Books.running, hzero]
    rfl
  · exact used_of_status_eq (e := 0) hzero

end Views

section Words

lemma extractError_eq (status : Huint) :
    extractError status = ((slice status 28 4).setWidth 32) >>> 1 := by
  apply BitVec.eq_of_getLsbD_eq
  intro i hi
  have hmask : (0x00000007 : Huint).getLsbD i = decide (i < 3) := by
    have hpow : (0x00000007 : Huint) = BitVec.ofNat 32 (2 ^ 3 - 1) := rfl
    rw [hpow, BitVec.getLsbD_ofNat, Nat.testBit_two_pow_sub_one]
    by_cases h3 : i < 3
    · rw [decide_eq_true h3, decide_eq_true (by omega : i < 32)]
      rfl
    · rw [decide_eq_false h3, Bool.and_false]
  rw [extractError, BitVec.getLsbD_and, hmask, BitVec.getLsbD_ushiftRight,
    BitVec.getLsbD_ushiftRight, BitVec.getLsbD_setWidth, getLsbD_slice]
  by_cases h3 : i < 3
  · simp [h3, (by omega : 1 + i < 32), (by omega : 1 + i < 4)]
  · simp [h3]
    omega

lemma joinPhase_refused {e : Word} {cpu : BitVec 9} :
    joinPhase (withCode e (joinError e cpu)) = none := by
  have hcode : (joinError e cpu).getLsbD 0 = true ∧
      ((joinError e cpu).setWidth 32 >>> 1 != htAlreadyExited) = true := by
    simp only [joinError]
    split_ifs <;> decide
  have herror := hasError_withCode e (joinError e cpu) hcode.1
  rw [joinPhase, herror, extractError_eq, slice_withCode, hcode.2]
  rfl

lemma joinPhase_accepted : joinPhase 0 = some .blocked := rfl

lemma joinPhase_terminated : joinPhase (0#28 ++ threadAlreadyTerminated) = some .ready := rfl

lemma join_view {b : Books} {th : ThreadId} {phase : Phase} (hb : Consistent b)
    (h : joinPhase (b.join th).2 = some phase) :
    b.used th = true ∧ entryDetached (b.entry th) = false ∧
      (phase = .blocked ∨ (phase = .ready ∧ b.running th = false)) := by
  cases hallowed : joinAllowed (b.entry th) b.currentCpuThread with
  | false =>
    rw [join_refused hallowed, joinPhase_refused] at h
    cases h
  | true =>
    have hjoinable := hallowed
    simp only [joinAllowed, Bool.and_eq_true, Bool.not_eq_true', bne_iff_ne] at hjoinable
    obtain ⟨⟨⟨-, hdetached⟩, -⟩, hstatus⟩ := hjoinable
    have hused : b.used th = true := by
      have hne := hb th
      rw [Books.used, entryUsed]
      rw [status_eq] at hne hstatus
      revert hne hstatus
      cases bit (b.entry th) 26 <;> cases bit (b.entry th) 27 <;> decide
    refine ⟨hused, hdetached, ?_⟩
    cases hrunning : bit (b.entry th) 27 with
    | true =>
      rw [join_accepted hallowed hrunning] at h
      exact .inl (Option.some.inj (h.symm.trans joinPhase_accepted))
    | false =>
      rw [join_terminated hallowed hrunning] at h
      refine .inr ⟨Option.some.inj (h.symm.trans joinPhase_terminated), ?_⟩
      rw [Books.running, status_eq, hrunning]
      cases bit (b.entry th) 26 <;> rfl

end Words

def Tcb.Matches (t : Tcb) (o : Outcome) : Prop :=
  t.retval = o.value ∧ (o.returned = true → t.executionTime = o.time)

/-- The thread that has an id: what the thread manager says about it, what it has returned, and what
is or will be in its entry. -/
def Life.Now (v : View) (o : Option Outcome) (t : Tcb) : Life → Prop
  | unborn => v.running = false ∧ v.used = false ∧ o = none
  | setup _ todo => v.running = true ∧ o = none ∧ (∀ value, .result value ∉ todo) ∧
      (todo.foldl Task.apply t).retval = null
  | running _ => v.running = true ∧ o = none ∧ t.retval = null
  | exiting _ _ destroy todo => v.running = true ∧ (destroy = true → v.detached = true) ∧
      ∃ out, o = some out ∧ (∀ value, .result value ∈ todo → value = out.value) ∧
        (todo.foldl Task.apply t).Matches out
  | again _ _ _ => False
  | exited | gone => v.running = false ∧ ∃ out, o = some out ∧ t.Matches out
  | leaving destroy => v.running = false ∧ (destroy = true → v.used = true ∧ v.detached = true) ∧
      ∃ out, o = some out ∧ t.Matches out

/-- A thread whose id may have been given to another one. -/
def Life.Past : Life → Prop
  | unborn | exited | leaving false | gone => True
  | setup _ _ | running _ | exiting _ _ _ _ | again _ _ _ | leaving true => False

structure ThreadOk (v : View) (n : ℕ) (life : ℕ → Life) (outcome : ℕ → Option Outcome) (t : Tcb) :
    Prop where
  later : ∀ g, n < g → life g = .unborn ∧ outcome g = none
  past : ∀ g, g < n → (life g).Past
  now : (life n).Now v (outcome n) t

/-- A join keeps the id of its child until it has read what it wants. -/
structure JoinOk (v : View) (n : ℕ) (outcome : ℕ → Option Outcome) (j : Joining) : Prop where
  early : j.phase.early = true → j.generation = n ∧ v.used = true ∧ v.detached = false ∧
    (j.phase ≠ .blocked → v.running = false)
  value : ∀ x, j.phase.value = some x → ∃ o, outcome j.generation = some o ∧ x = o.value
  time : ∀ x t, j.phase = .finished x t → ∃ o, outcome j.generation = some o ∧ t = o.time
  le : j.generation ≤ n
  after : j.phase.early = false → (∃ o, outcome j.generation = some o) ∧
    (j.generation = n → v.running = false)

structure Truthful (s : Results) : Prop where
  atRest : s.machine.AtRest
  allocates : Allocates s.books
  consistent : Consistent s.books
  threads : ∀ tid, ThreadOk (viewOf s.books tid) (s.generation tid) (s.life tid) (s.outcome tid)
    (s.tcb tid)
  joins : ∀ k j, s.joins k = some j →
    JoinOk (viewOf s.books j.th) (s.generation j.th) (s.outcome j.th) j
  unique : ∀ k k' j j', s.joins k = some j → s.joins k' = some j' → j.th = j'.th →
    j.phase.early = true → j'.phase.early = true → k = k'
  writer : ∀ p tid g, s.writer p = some (tid, g) →
    ∃ o, s.outcome tid g = some o ∧ s.result p = o.value

section Frames

variable {s s' : Results} {tid : ThreadId} {g : ℕ}

lemma JoinOk.update {v v' : View} {n n' : ℕ} {out out' : ℕ → Option Outcome} {j : Joining}
    (h : JoinOk v n out j)
    (hearly : j.phase.early = true → n' = n ∧ v'.used = v.used ∧ v'.detached = v.detached)
    (hlater : n ≤ n' ∧ (n' = n → v.running = false → v'.running = false))
    (hout : ∀ g o, out g = some o → out' g = some o) : JoinOk v' n' out' j where
  early hj := by
    obtain ⟨hgen, hused, hdetached, hrunning⟩ := h.early hj
    obtain ⟨hgen', hused', hdetached'⟩ := hearly hj
    exact ⟨hgen.trans hgen'.symm, hused'.trans hused, hdetached'.trans hdetached,
      fun hphase => hlater.2 hgen' (hrunning hphase)⟩
  value x hx := by
    obtain ⟨o, ho, hvalue⟩ := h.value x hx
    exact ⟨o, hout _ _ ho, hvalue⟩
  time x t ht := by
    obtain ⟨o, ho, htime⟩ := h.time x t ht
    exact ⟨o, hout _ _ ho, htime⟩
  le := h.le.trans hlater.1
  after hj := by
    obtain ⟨⟨o, ho⟩, hrunning⟩ := h.after hj
    refine ⟨⟨o, hout _ _ ho⟩, fun hgen => ?_⟩
    have hsame : j.generation = n := Nat.le_antisymm h.le (hgen ▸ hlater.1)
    exact hlater.2 (hgen.symm.trans hsame) (hrunning hsame)

lemma Truthful.thread (h : Truthful s) (tid : ThreadId) (hrest : s'.machine.AtRest)
    (hallocates : Allocates s'.books) (hconsistent : Consistent s'.books)
    (hothers : ∀ u, u ≠ tid → viewOf s'.books u = viewOf s.books u ∧
      s'.generation u = s.generation u ∧ s'.life u = s.life u ∧ s'.outcome u = s.outcome u ∧
      s'.tcb u = s.tcb u)
    (hself : ThreadOk (viewOf s'.books tid) (s'.generation tid) (s'.life tid) (s'.outcome tid)
      (s'.tcb tid))
    (hjoins : s'.joins = s.joins)
    (hearly : ∀ k j, s.joins k = some j → j.th = tid → j.phase.early = true →
      s'.generation tid = s.generation tid ∧
      (viewOf s'.books tid).used = (viewOf s.books tid).used ∧
      (viewOf s'.books tid).detached = (viewOf s.books tid).detached)
    (hlater : s.generation tid ≤ s'.generation tid ∧ (s'.generation tid = s.generation tid →
      (viewOf s.books tid).running = false → (viewOf s'.books tid).running = false))
    (hout : ∀ g o, s.outcome tid g = some o → s'.outcome tid g = some o)
    (hwriter : ∀ p u k, s'.writer p = some (u, k) →
      (s.writer p = some (u, k) ∧ s'.result p = s.result p) ∨
      ∃ o, s'.outcome u k = some o ∧ s'.result p = o.value) : Truthful s' where
  atRest := hrest
  allocates := hallocates
  consistent := hconsistent
  threads u := by
    by_cases hu : u = tid
    · exact hu ▸ hself
    · obtain ⟨hview, hgen, hlife, houtcome, htcb⟩ := hothers u hu
      rw [hview, hgen, hlife, houtcome, htcb]
      exact h.threads u
  joins k j hj := by
    rw [hjoins] at hj
    have hok := h.joins k j hj
    by_cases hu : j.th = tid
    · rw [hu] at hok ⊢
      exact hok.update (hearly k j hj hu) hlater hout
    · obtain ⟨hview, hgen, -, houtcome, -⟩ := hothers j.th hu
      rw [hview, hgen, houtcome]
      exact hok
  unique := by
    rw [hjoins]
    exact h.unique
  writer p u k hp := by
    rcases hwriter p u k hp with ⟨hold, hresult⟩ | hnew
    · obtain ⟨o, ho, hvalue⟩ := h.writer p u k hold
      refine ⟨o, ?_, hresult.trans hvalue⟩
      by_cases hu : u = tid
      · rw [hu] at ho ⊢
        exact hout k o ho
      · rw [(hothers u hu).2.2.2.1]
        exact ho
    · exact hnew

lemma Truthful.install (h : Truthful s) {a : Managed} (hrest : a.AtRest)
    (hallocates : Allocates a.books) (hconsistent : Consistent a.books)
    (hview : ∀ u, viewOf a.books u = viewOf s.books u) : Truthful (s.install a) where
  atRest := hrest
  allocates := hallocates
  consistent := hconsistent
  threads u := by
    have hsame : viewOf (s.install a).books u = viewOf s.books u := hview u
    rw [hsame]
    exact h.threads u
  joins k j hj := by
    have hsame : viewOf (s.install a).books j.th = viewOf s.books j.th := hview j.th
    rw [hsame]
    exact h.joins k j hj
  unique := h.unique
  writer := h.writer

lemma setPhase_joins (s : Results) (k k' : ℕ) (j : Joining) (phase : Phase) :
    (s.setPhase k j phase).joins k' =
      if k' = k then some { j with phase := phase } else s.joins k' :=
  Function.update_apply _ _ _ _

lemma Truthful.setPhase (h : Truthful s) {k : ℕ} {j : Joining} {phase : Phase}
    (hok : JoinOk (viewOf s.books j.th) (s.generation j.th) (s.outcome j.th)
      { j with phase := phase })
    (hunique : phase.early = true → ∀ k' j', s.joins k' = some j' → j'.phase.early = true →
      j'.th = j.th → k' = k) : Truthful (s.setPhase k j phase) where
  atRest := h.atRest
  allocates := h.allocates
  consistent := h.consistent
  threads := h.threads
  joins k' j' hj' := by
    rw [setPhase_joins] at hj'
    split at hj'
    · cases hj'
      exact hok
    · exact h.joins k' j' hj'
  unique k₁ k₂ j₁ j₂ hj₁ hj₂ hth he₁ he₂ := by
    rw [setPhase_joins] at hj₁ hj₂
    split at hj₁
    · next hk₁ =>
      cases hj₁
      split at hj₂
      · next hk₂ => exact hk₁.trans hk₂.symm
      · exact hk₁.trans (hunique he₁ k₂ j₂ hj₂ he₂ hth.symm).symm
    · split at hj₂
      · next hk₂ =>
        cases hj₂
        exact (hunique he₂ k₁ j₁ hj₁ he₁ hth).trans hk₂.symm
      · exact h.unique k₁ k₂ j₁ j₂ hj₁ hj₂ hth he₁ he₂
  writer := h.writer

variable {v v' : View} {n : ℕ} {life : ℕ → Life} {out out' : ℕ → Option Outcome} {t t' : Tcb}

lemma ThreadOk.eq_of_not_past (h : ThreadOk v n life out t) (hlife : ¬ (life g).Past) : g = n := by
  rcases Nat.lt_trichotomy g n with hlt | heq | hgt
  · exact absurd (h.past g hlt) hlife
  · exact heq
  · rw [(h.later g hgt).1] at hlife
    exact absurd trivial hlife

lemma ThreadOk.setNow (h : ThreadOk v n life out t) {x : Life}
    (hlater : ∀ k, n < k → out' k = out k) (hnow : x.Now v' (out' n) t') :
    ThreadOk v' n (Function.update life n x) out' t' where
  later k hk := by
    rw [Function.update_of_ne (Nat.ne_of_gt hk), hlater k hk]
    exact h.later k hk
  past k hk := by
    rw [Function.update_of_ne (Nat.ne_of_lt hk)]
    exact h.past k hk
  now := by
    rw [Function.update_self]
    exact hnow

lemma ThreadOk.setPast (h : ThreadOk v n life out t) {x : Life} (hg : g < n) (hx : x.Past) :
    ThreadOk v n (Function.update life g x) out t where
  later k hk := by
    rw [Function.update_of_ne (by omega)]
    exact h.later k hk
  past k hk := by
    by_cases hkg : k = g
    · rw [hkg, Function.update_self]
      exact hx
    · rw [Function.update_of_ne hkg]
      exact h.past k hk
  now := by
    rw [Function.update_of_ne (by omega)]
    exact h.now

lemma Truthful.here (h : Truthful s) (tid : ThreadId) (hmachine : s'.machine = s.machine)
    (hgeneration : s'.generation = s.generation) (hjoins : s'.joins = s.joins)
    (hothers : ∀ u, u ≠ tid → s'.life u = s.life u ∧ s'.outcome u = s.outcome u ∧
      s'.tcb u = s.tcb u)
    (hself : ThreadOk (viewOf s.books tid) (s.generation tid) (s'.life tid) (s'.outcome tid)
      (s'.tcb tid))
    (hout : ∀ k o, s.outcome tid k = some o → s'.outcome tid k = some o)
    (hwriter : ∀ p u k, s'.writer p = some (u, k) →
      (s.writer p = some (u, k) ∧ s'.result p = s.result p) ∨
      ∃ o, s'.outcome u k = some o ∧ s'.result p = o.value) : Truthful s' := by
  have hbooks : s'.books = s.books := congrArg Managed.books hmachine
  refine h.thread tid ?_ ?_ ?_ ?_ ?_ hjoins ?_ ?_ hout hwriter
  · rw [hmachine]
    exact h.atRest
  · rw [hbooks]
    exact h.allocates
  · rw [hbooks]
    exact h.consistent
  · intro u hu
    rw [hbooks, hgeneration]
    exact ⟨rfl, rfl, hothers u hu⟩
  · rw [hbooks, hgeneration]
    exact hself
  · intro k j _ _ _
    rw [hbooks, hgeneration]
    exact ⟨rfl, rfl, rfl⟩
  · rw [hbooks, hgeneration]
    exact ⟨le_rfl, fun _ => id⟩

end Frames

end Hthreads.Slaves
