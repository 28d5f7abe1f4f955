import Hthreads.Cores.Allocation

/-! The lifetime of a thread: from the CREATE that returns it, through at most one EXIT while it
runs, until the next CREATE that returns it. JOIN and EXIT on a child come in any order between its
CREATE and its CLEAR. -/

namespace Hthreads.Cores

open Library Library.BitFields Scheduler ThreadManager

-- CREATE begins a lifetime of the thread
def Event.creates (c : ThreadId) (e : Event) : Bool :=
  (e.command == .createJ || e.command == .createD) && e.word == 0#23 ++ c ++ 0#1

-- EXIT of the thread enqueues its parent
def Event.wakes (c : ThreadId) (e : Event) : Bool :=
  e.command == .exit c && e.before.wakes c

variable {b b' : Books} {tid c u : ThreadId} {cmd : Command} {w : Word}

lemma deallocate_record : (b.deallocate tid).record = b.record := by
  funext u
  rw [Books.deallocate]
  split
  · rw [Books.record, Books.entry, Books.record, Books.entry]
    by_cases hu : threadAddr u = b.nextId - 1
    · simp only [hu, Function.update_self, entryRecord_pushed]
    · simp only [Function.update_of_ne hu]
  · rfl

lemma clear_record (b : Books) (tid u : ThreadId) : (b.clear tid).1.record u =
    if entryStatus (b.entry tid) = 0b10 ∧ u = tid then 0 else b.record u := by
  rw [Books.clear]
  by_cases hs : entryStatus (b.entry tid) = 0b10
  · rw [if_pos hs, deallocate_record, Books.record, entry_setEntry]
    by_cases hu : u = tid
    · rw [if_pos hu, if_pos ⟨hs, hu⟩, entryRecord_clearedEntry]
    · rw [if_neg hu, if_neg fun h => hu h.2, Books.record]
  · rw [if_neg hs, if_neg fun h => hs h.1]

lemma running_of_record (h : b'.record u = b.record u) : b'.running u = b.running u := by
  rw [Books.running, Books.running, entryStatus_of_record h]

lemma create_entry (command : BitVec 6) (hu : (b.create command).2 ≠ 0#23 ++ u ++ 0#1) :
    (b.create command).1.entry u = b.entry u := by
  rw [Books.create] at hu ⊢
  split
  · rfl
  · next hfull =>
    rw [if_neg hfull] at hu
    have hne : u ≠ entryId (b.table b.nextId) := fun heq => hu (by rw [heq])
    exact entry_setEntry.trans (if_neg hne)

lemma join_status : entryStatus ((b.join tid).1.entry u) = entryStatus (b.entry u) := by
  simp only [Books.join]
  split
  · split
    · rw [entry_setEntry]
      split
      · next hu =>
        rw [hu]
        exact slice_insert_of_disjoint 25 26 _ _ (by omega) (by omega) (.inr (by omega))
      · rfl
    · rfl
  · rfl

lemma exit_entry : (b.exit tid).1.entry u = (b.exited tid).entry u := by
  rw [exit_eq]
  split <;> rfl

lemma exited_entry : (b.exited tid).entry u =
    if u = tid then insert 26 0b10#2 (b.entry tid) else b.entry u := entry_setEntry

lemma running_exited (b : Books) (tid u : ThreadId) :
    (b.exited tid).running u = (b.running u && u != tid) := by
  rw [Books.running, exited_entry]
  by_cases hu : u = tid
  · rw [if_pos hu, entryStatus_exited, hu, bne_self_eq_false, Bool.and_false]
    rfl
  · rw [if_neg hu, bne_iff_ne.mpr hu, Bool.and_true, Books.running]

lemma running_of_effect (h : cmd.effect b = some (b', w)) (hr : b'.running c = true) :
    b.running c = true ∨ (Event.mk b cmd w b').creates c = true := by
  have hcreate (command : BitVec 6) (hb : b' = (b.create command).1)
      (hw : w = (b.create command).2) : b.running c = true ∨ w = 0#23 ++ c ++ 0#1 := by
    by_cases hword : w = 0#23 ++ c ++ 0#1
    · exact .inr hword
    · rw [hw] at hword
      rw [hb, Books.running, create_entry command hword] at hr
      exact .inl hr
  cases cmd with
  | createJ =>
    refine (hcreate _ (fst_of_some h) (snd_of_some h)).imp_right fun hw => ?_
    simp [Event.creates, hw]
  | createD =>
    refine (hcreate _ (fst_of_some h) (snd_of_some h)).imp_right fun hw => ?_
    simp [Event.creates, hw]
  | clear tid =>
    have hrec := clear_record b tid c
    rw [fst_of_some h] at hr
    split at hrec
    · have hzero := entryStatus_of_record (e := 0) hrec
      rw [Books.running, hzero] at hr
      exact absurd hr (by decide)
    · rw [running_of_record hrec] at hr
      exact .inl hr
  | join tid =>
    rw [fst_of_some h, Books.running, join_status] at hr
    exact .inl hr
  | exit tid =>
    rw [fst_of_some h, Books.running, exit_entry] at hr
    have hex := running_exited b tid c
    rw [Books.running, hr] at hex
    exact .inl (Bool.and_eq_true_iff.mp hex.symm).1
  | add tid =>
    rw [fst_of_some h, add_eq] at hr
    split at hr <;> exact .inl hr
  | next =>
    rw [Command.effect] at h
    split at h
    · rw [fst_of_some h, next_eq] at hr
      split at hr <;> exact .inl hr
    · cases h
  | yield =>
    rw [fst_of_some h, yield_eq] at hr
    split at hr <;> exact .inl hr
  | isQueued tid | isDetached tid | read tid | current =>
    rw [fst_of_some h] at hr
    exact .inl hr

section Runs

variable {guard : Guard} {a z : Managed} {es : List Event}

-- a guard under which only running threads wake their parent
variable (hguard : ∀ b c, guard (.exit c) b → b.wakes c = true → b.running c = true)

include hguard

lemma not_wakes_of_not_running (ha : a.AtRest) (hrun : a.Run es z)
    (hes : ∀ e ∈ es, guard e.command e.before) (hc : ∀ e ∈ es, e.creates c = false)
    (hr : a.books.running c = false) : es.countP (Event.wakes c) = 0 := by
  induction hrun with
  | nil a => rfl
  | @cons a a' z cmd w es hexec _ ih =>
    obtain ⟨heff, hrest⟩ := execute_iff ha hexec
    have hhead := List.forall_mem_cons.mp hc
    have hr' : a'.books.running c = false := by
      rw [← Bool.not_eq_true]
      intro hrun'
      rcases running_of_effect heff hrun' with hold | hnew
      · rw [hr] at hold
        cases hold
      · rw [hhead.1] at hnew
        cases hnew
    have hno : Event.wakes c ⟨a.books, cmd, w, a'.books⟩ = false := by
      rw [← Bool.not_eq_true]
      intro hwakes
      rw [Event.wakes, Bool.and_eq_true, beq_iff_eq] at hwakes
      obtain ⟨hcmd, hw⟩ := hwakes
      have hg := hes _ List.mem_cons_self
      simp only at hcmd hw hg
      rw [hcmd] at hg
      rw [hguard _ _ hg hw] at hr
      cases hr
    rw [List.countP_cons_of_neg (by rw [hno]; exact Bool.false_ne_true)]
    exact ih hrest (fun e he => hes e (List.mem_cons_of_mem _ he)) hhead.2 hr'

lemma wakes_at_most_once (ha : a.AtRest) (hrun : a.Run es z)
    (hes : ∀ e ∈ es, guard e.command e.before) (hc : ∀ e ∈ es, e.creates c = false) :
    es.countP (Event.wakes c) ≤ 1 := by
  induction hrun with
  | nil a => exact Nat.zero_le 1
  | @cons a a' z cmd w es hexec hrun ih =>
    obtain ⟨heff, hrest⟩ := execute_iff ha hexec
    have hes' : ∀ e ∈ es, guard e.command e.before := fun e he => hes e (List.mem_cons_of_mem _ he)
    have hc' := (List.forall_mem_cons.mp hc).2
    by_cases hwakes : Event.wakes c ⟨a.books, cmd, w, a'.books⟩ = true
    · rw [List.countP_cons_of_pos hwakes]
      rw [Event.wakes, Bool.and_eq_true, beq_iff_eq] at hwakes
      obtain ⟨rfl, -⟩ : cmd = .exit c ∧ _ := hwakes
      have hr' : a'.books.running c = false := by
        rw [fst_of_some heff, Books.running, exit_entry, exited_entry, if_pos rfl,
          entryStatus_exited]
        rfl
      rw [not_wakes_of_not_running hguard hrest hrun hes' hc' hr']
    · rw [List.countP_cons_of_neg hwakes]
      exact ih hrest hes' hc'

end Runs

/-- JOIN on the child returned zero: its parent will wait for it. -/
def Event.joins (c : ThreadId) (e : Event) : Bool := e.command == .join c && e.word == 0

def Event.exits (c : ThreadId) (e : Event) : Bool := e.command == .exit c

structure Child (detached : Bool) (parent : ThreadId) (joined exited : Bool) (entry : Word) :
    Prop where
  detached : entryDetached entry = detached
  parent : entryParent entry = parent
  joined : entryJoined entry = joined
  status : entryStatus entry = if exited then 0b10 else 0b11

section Fields

variable {d j x : Bool} {p c u : ThreadId} {e e' : Word}

lemma Child.of_record (h : Child d p j x e) (hr : entryRecord e' = entryRecord e) :
    Child d p j x e' :=
  ⟨(bit_of_record hr (by omega)).trans h.detached,
    (slice_of_record hr (by omega) (by omega)).trans h.parent,
    (bit_of_record hr (by omega)).trans h.joined, (entryStatus_of_record hr).trans h.status⟩

lemma Child.join (h : Child d p j x e) : Child d p true x (insert 25 1#1 e) := by
  refine ⟨?_, ?_, ?_, ?_⟩
  · rw [← h.detached]
    exact bit_insert_of_outside 25 24 _ e (by omega) (by omega) (.inl (by omega))
  · rw [← h.parent]
    exact slice_insert_of_disjoint 25 16 _ e (by omega) (by omega) (.inl (by omega))
  · exact bit_insert_ofBool 25 true e (by omega)
  · rw [← h.status]
    exact slice_insert_of_disjoint 25 26 _ e (by omega) (by omega) (.inr (by omega))

lemma Child.exit (h : Child d p j x e) : Child d p j true (insert 26 0b10#2 e) := by
  refine ⟨?_, ?_, ?_, entryStatus_exited e⟩
  · rw [← h.detached]
    exact bit_insert_of_outside 26 24 _ e (by omega) (by omega) (.inl (by omega))
  · rw [← h.parent]
    exact slice_insert_of_disjoint 26 16 _ e (by omega) (by omega) (.inl (by omega))
  · rw [← h.joined]
    exact bit_insert_of_outside 26 25 _ e (by omega) (by omega) (.inl (by omega))

lemma Child.running (h : Child d p j x e) : bit e 27 = !x := by
  have hs := h.status
  rw [status_eq] at hs
  cases x <;> cases h26 : bit e 26 <;> cases h27 : bit e 27 <;> rw [h26, h27] at hs
  all_goals first | rfl | exact absurd hs (by decide)

lemma child_created (cmd : BitVec 6) (hcmd : cmd ≠ cCreateThreadD) :
    Child false p false false (createdEntry cmd e p) := by
  refine ⟨?_, ?_, ?_, entryStatus_createdEntry _ _ _⟩
  · rw [createdEntry, if_neg hcmd, entryDetached, bit]
    simp only [BitVec.getLsbD_append]
    simp
  · apply BitVec.eq_of_getLsbD_eq
    intro i hi
    rw [createdEntry, if_neg hcmd]
    simp only [entryParent, getLsbD_slice, BitVec.getLsbD_append, hi]
    grind
  · rw [createdEntry, if_neg hcmd, entryJoined, bit]
    simp only [BitVec.getLsbD_append]
    simp

lemma child_created_detached : Child true 0 false false (createdEntry cCreateThreadD e p) := by
  refine ⟨?_, ?_, ?_, entryStatus_createdEntry _ _ _⟩
  · rw [createdEntry, if_pos rfl, entryDetached, bit]
    simp only [BitVec.getLsbD_append]
    simp
  · apply BitVec.eq_of_getLsbD_eq
    intro i hi
    rw [createdEntry, if_pos rfl]
    simp only [entryParent, getLsbD_slice, BitVec.getLsbD_append, hi]
    grind
  · rw [createdEntry, if_pos rfl, entryJoined, bit]
    simp only [BitVec.getLsbD_append]
    simp

end Fields

section Join

variable {b : Books} {c tid : ThreadId}

lemma join_accepted (ha : joinAllowed (b.entry c) b.currentCpuThread = true)
    (hr : bit (b.entry c) 27 = true) :
    b.join c = (b.setEntry c (insert 25 1#1 (b.entry c)), 0) := by
  simp only [Books.join, ha, hr, if_true]

lemma join_terminated (ha : joinAllowed (b.entry c) b.currentCpuThread = true)
    (hr : bit (b.entry c) 27 = false) :
    b.join c = (b, 0#28 ++ threadAlreadyTerminated) := by
  simp only [Books.join, ha, hr, if_true, Bool.false_eq_true, if_false]

lemma join_refused (ha : joinAllowed (b.entry c) b.currentCpuThread = false) :
    b.join c = (b, withCode (b.entry c) (joinError (b.entry c) b.currentCpuThread)) := by
  simp only [Books.join, ha, Bool.false_eq_true, if_false]

lemma joinError_code (e : Word) (cpu : BitVec 9) :
    joinError e cpu ≠ 0 ∧ joinError e cpu ≠ threadAlreadyTerminated := by
  simp only [joinError]
  split_ifs <;> decide

lemma slice_withCode (e : Word) (code : BitVec 4) : slice (withCode e code) 28 4 = code :=
  slice_insert_self 28 code e (by omega)

lemma join_zero (h : (b.join c).2 = 0) : joinAllowed (b.entry c) b.currentCpuThread = true ∧
    bit (b.entry c) 27 = true := by
  cases ha : joinAllowed (b.entry c) b.currentCpuThread with
  | false =>
    rw [join_refused ha] at h
    have hcode := slice_withCode (b.entry c) (joinError (b.entry c) b.currentCpuThread)
    rw [show withCode _ _ = 0 from h] at hcode
    exact absurd hcode.symm (joinError_code _ _).1
  | true =>
    refine ⟨rfl, ?_⟩
    by_contra hr
    rw [Bool.not_eq_true] at hr
    rw [join_terminated ha hr] at h
    have hne : (0#28 ++ threadAlreadyTerminated : Word) ≠ 0 := by decide
    exact absurd h hne

end Join

end Hthreads.Cores
