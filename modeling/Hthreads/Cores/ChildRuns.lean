import Hthreads.Cores.Lifetimes

/-! How the entry of a child moves through its lifetime, whatever happens to other threads. -/

namespace Hthreads.Cores

open Library Library.BitFields Scheduler ThreadManager

section Steps

variable {b b' : Books} {cmd : Command} {c u : ThreadId} {w : Word}

lemma join_entry_of_ne (hu : u ≠ c) : (b.join c).1.entry u = b.entry u := by
  simp only [Books.join]
  split
  · split
    · rw [entry_setEntry, if_neg hu]
    · rfl
  · rfl

lemma record_of_effect (h : cmd.effect b = some (b', w)) (hclear : cmd ≠ .clear c)
    (hcreate : (Event.mk b cmd w b').creates c = false) (hjoin : cmd ≠ .join c)
    (hexit : cmd ≠ .exit c) : b'.record c = b.record c := by
  have hnew (command : BitVec 6) (hb : b' = (b.create command).1)
      (hw : w = (b.create command).2) (hne : w ≠ 0#23 ++ c ++ 0#1) :
      b'.record c = b.record c := by
    rw [hw] at hne
    rw [hb, Books.record, create_entry command hne, Books.record]
  cases cmd with
  | createJ =>
    refine hnew _ (fst_of_some h) (snd_of_some h) fun heq => ?_
    rw [heq, Event.creates] at hcreate
    simp at hcreate
  | createD =>
    refine hnew _ (fst_of_some h) (snd_of_some h) fun heq => ?_
    rw [heq, Event.creates] at hcreate
    simp at hcreate
  | clear tid =>
    have hne : ¬ (entryStatus (b.entry tid) = 0b10 ∧ c = tid) :=
      fun heq => hclear (by rw [heq.2])
    rw [fst_of_some h, clear_record, if_neg hne]
  | join tid =>
    have hne : c ≠ tid := fun heq => hjoin (by rw [heq])
    rw [fst_of_some h, Books.record, join_entry_of_ne hne, Books.record]
  | exit tid =>
    have hne : c ≠ tid := fun heq => hexit (by rw [heq])
    rw [fst_of_some h, Books.record, exit_entry, exited_entry, if_neg hne, Books.record]
  | add tid =>
    rw [fst_of_some h, add_eq]
    split <;> rfl
  | next =>
    rw [Command.effect] at h
    split at h
    · rw [fst_of_some h, next_eq]
      split <;> rfl
    · cases h
  | yield =>
    rw [fst_of_some h, yield_eq]
    split <;> rfl
  | isQueued tid | isDetached tid | read tid | current =>
    rw [fst_of_some h]

variable {d j x : Bool} {p : ThreadId}

lemma Child.step (hc : Child d p j x (b.entry c)) (h : cmd.effect b = some (b', w))
    (hclear : cmd ≠ .clear c) (hcreate : (Event.mk b cmd w b').creates c = false) :
    Child d p (j || (Event.mk b cmd w b').joins c) (x || (Event.mk b cmd w b').exits c)
      (b'.entry c) := by
  by_cases hjoin : cmd = .join c
  · subst hjoin
    have hexits : (Event.mk b (.join c) w b').exits c = false := rfl
    have hjoins : (Event.mk b (.join c) w b').joins c = (w == 0) := by
      simp [Event.joins]
    rw [hexits, Bool.or_false, hjoins, fst_of_some h]
    by_cases hw : w = 0
    · obtain ⟨ha, hr⟩ := join_zero ((snd_of_some h).symm.trans hw)
      rw [join_accepted ha hr, entry_setEntry, if_pos rfl, hw]
      simpa using hc.join
    · have hsame : (b.join c).1 = b := by
        rw [snd_of_some h] at hw
        cases ha : joinAllowed (b.entry c) b.currentCpuThread with
        | false => rw [join_refused ha]
        | true =>
          cases hr : bit (b.entry c) 27 with
          | false => rw [join_terminated ha hr]
          | true =>
            rw [join_accepted ha hr] at hw
            exact absurd rfl hw
      rw [hsame, beq_eq_false_iff_ne.mpr hw, Bool.or_false]
      exact hc
  · by_cases hexit : cmd = .exit c
    · subst hexit
      have hexits : (Event.mk b (.exit c) w b').exits c = true := by simp [Event.exits]
      have hjoins : (Event.mk b (.exit c) w b').joins c = false := rfl
      rw [hexits, hjoins, Bool.or_false, Bool.or_true, fst_of_some h, exit_entry, exited_entry,
        if_pos rfl]
      exact hc.exit
    · have hexits : (Event.mk b cmd w b').exits c = false := beq_eq_false_iff_ne.mpr hexit
      have hjoins : (Event.mk b cmd w b').joins c = false := by
        simp [Event.joins, hjoin]
      rw [hexits, hjoins, Bool.or_false, Bool.or_false]
      exact hc.of_record (record_of_effect h hclear hcreate hjoin hexit)

end Steps

section Runs

variable {a z : Managed} {es l r : List Event} {e : Event} {c p : ThreadId} {d j x : Bool}

lemma Managed.Run.split (h : a.Run (l ++ e :: r) z) : ∃ a₁ a₂ : Managed, a.Run l a₁ ∧
    a₁.execute e.command = some (a₂, e.word) ∧ e.before = a₁.books ∧ e.after = a₂.books ∧
      a₂.Run r z := by
  induction l generalizing a with
  | nil =>
    cases h with
    | cons hexec hrun => exact ⟨_, _, .nil a, hexec, rfl, rfl, hrun⟩
  | cons e' l ih =>
    cases h with
    | cons hexec hrun =>
      obtain ⟨a₁, a₂, hl, he, hb, ha, hr⟩ := ih hrun
      exact ⟨a₁, a₂, .cons hexec hl, he, hb, ha, hr⟩

lemma Managed.Run.atRest (h : a.Run es z) (ha : a.AtRest) : z.AtRest := by
  induction h with
  | nil a => exact ha
  | cons hexec _ ih => exact ih (execute_iff ha hexec).2

-- the events of a run that do not end the lifetime of the child
def Lives (c : ThreadId) (es : List Event) : Prop :=
  ∀ e ∈ es, e.command ≠ .clear c ∧ e.creates c = false

lemma Child.run (h : a.Run es z) (ha : a.AtRest) (hc : Child d p j x (a.books.entry c))
    (hes : Lives c es) :
    Child d p (j || es.any (Event.joins c)) (x || es.any (Event.exits c)) (z.books.entry c) := by
  induction h generalizing j x with
  | nil a =>
    rw [List.any_nil, List.any_nil, Bool.or_false, Bool.or_false]
    exact hc
  | @cons a a' z cmd w es hexec _ ih =>
    obtain ⟨heff, hrest⟩ := execute_iff ha hexec
    obtain ⟨⟨hclear, hcreate⟩, hes⟩ := List.forall_mem_cons.mp hes
    rw [List.any_cons, List.any_cons, ← Bool.or_assoc, ← Bool.or_assoc]
    exact ih hrest (hc.step heff hclear hcreate) hes

lemma joins_at_most_once (h : a.Run es z) (ha : a.AtRest)
    (hc : Child d p j x (a.books.entry c)) (hes : Lives c es) :
    es.countP (Event.joins c) ≤ if j then 0 else 1 := by
  induction h generalizing j x with
  | nil a => exact Nat.zero_le _
  | @cons a a' z cmd w es hexec _ ih =>
    obtain ⟨heff, hrest⟩ := execute_iff ha hexec
    obtain ⟨⟨hclear, hcreate⟩, hes⟩ := List.forall_mem_cons.mp hes
    have hcount := ih hrest (hc.step heff hclear hcreate) hes
    cases hjoins : Event.joins c ⟨a.books, cmd, w, a'.books⟩ with
    | false =>
      rw [hjoins, Bool.or_false] at hcount
      rwa [List.countP_cons_of_neg (by rw [hjoins]; exact Bool.false_ne_true)]
    | true =>
      rw [hjoins, Bool.or_true, if_pos rfl] at hcount
      rw [List.countP_cons_of_pos hjoins]
      rw [Event.joins, Bool.and_eq_true, beq_iff_eq, beq_iff_eq] at hjoins
      obtain ⟨rfl, rfl⟩ : cmd = .join c ∧ w = 0 := hjoins
      obtain ⟨hallowed, -⟩ := join_zero (snd_of_some heff).symm
      rw [joinAllowed, hc.joined] at hallowed
      cases j with
      | false =>
        rw [if_neg Bool.false_ne_true]
        omega
      | true => simp at hallowed

lemma Managed.Run.joins (h : a.Run (l ++ e :: r) z) (ha : a.AtRest)
    (hc : Child d p j x (a.books.entry c)) (hes : Lives c (l ++ e :: r))
    (hj : e.joins c = true) : d = false ∧ (x || l.any (Event.exits c)) = false := by
  obtain ⟨a₁, a₂, hl, hexec, -, -, -⟩ := h.split
  have hc₁ := hc.run hl ha fun e he => hes e (List.mem_append_left _ he)
  rw [Event.joins, Bool.and_eq_true, beq_iff_eq, beq_iff_eq] at hj
  rw [hj.1, hj.2] at hexec
  obtain ⟨heff, -⟩ := execute_iff (hl.atRest ha) hexec
  obtain ⟨hallowed, hrunning⟩ := join_zero (snd_of_some heff).symm
  rw [hc₁.running, Bool.not_eq_true'] at hrunning
  refine ⟨?_, hrunning⟩
  rw [joinAllowed, hc₁.detached] at hallowed
  cases d with
  | false => rfl
  | true => simp at hallowed

lemma any_joins_detached (h : a.Run es z) (ha : a.AtRest)
    (hc : Child true p j x (a.books.entry c)) (hes : Lives c es) :
    es.any (Event.joins c) = false := by
  rw [← Bool.not_eq_true, List.any_eq_true]
  rintro ⟨e, he, hj⟩
  obtain ⟨l, r, rfl⟩ := List.append_of_mem he
  exact Bool.noConfusion (h.joins ha hc hes hj).1

lemma any_joins_exited (h : a.Run es z) (ha : a.AtRest)
    (hc : Child d p j true (a.books.entry c)) (hes : Lives c es) :
    es.any (Event.joins c) = false := by
  rw [← Bool.not_eq_true, List.any_eq_true]
  rintro ⟨e, he, hj⟩
  obtain ⟨l, r, rfl⟩ := List.append_of_mem he
  exact Bool.noConfusion (h.joins ha hc hes hj).2

end Runs

end Hthreads.Cores
