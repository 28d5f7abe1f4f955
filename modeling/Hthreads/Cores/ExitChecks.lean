import Hthreads.Cores.Lifetimes

/-! EXIT of a thread that is not running: when it is refused, and what follows for runs in which
it always is. -/

namespace Hthreads.Cores

open Library Library.BitFields Scheduler ThreadManager

/-- The command returns an error code and changes neither the id table nor the ready lists. -/
structure Refused (b b' : Books) (w : Word) : Prop where
  code : slice w 28 4 ≠ 0
  table : b'.table = b.table
  nextId : b'.nextId = b.nextId
  ready : b'.ready = b.ready

-- an exited, joined child whose parent can not be woken
def exitRefuses (b : Books) (tid : ThreadId) : Prop :=
  entryStatus (b.entry tid) = 0b10 ∧ entryJoined (b.entry tid) = true ∧
    entryDetached (b.entry tid) = false ∧ b.running (entryParent (b.entry tid)) = false

instance exitRefuses.decidable (b : Books) (tid : ThreadId) : Decidable (exitRefuses b tid) :=
  inferInstanceAs (Decidable (_ ∧ _))

def exitChecked : Guard := fun cmd b =>
  match cmd with
  | .exit tid => b.running tid = true ∨ exitRefuses b tid
  | _ => True

instance exitChecked.decidable (cmd : Command) (b : Books) : Decidable (exitChecked cmd b) :=
  match cmd with
  | .exit _ => inferInstanceAs (Decidable (_ ∨ _))
  | .createJ | .createD | .clear _ | .join _ | .add _ | .next | .yield | .isQueued _
  | .isDetached _ | .read _ | .current => inferInstanceAs (Decidable True)

variable {b b' : Books} {tid c : ThreadId} {cmd : Command} {w : Word}

lemma insert_status (e : Word) (h : entryStatus e = 0b10) : insert 26 0b10#2 e = e := by
  apply BitVec.eq_of_getLsbD_eq
  intro i hi
  rw [getLsbD_insert 26 0b10#2 e (by omega)]
  split
  · next hin =>
    have h' : 0b10#2 = entryStatus e := h.symm
    rw [h', entryStatus, getLsbD_slice, decide_eq_true (by omega), Bool.true_and]
    congr 1
    omega
  · rfl

lemma exited_of_status (h : entryStatus (b.entry tid) = 0b10) : b.exited tid = b := by
  rw [Books.exited, insert_status _ h, Books.setEntry, Books.entry, Function.update_eq_self]

lemma exit_refused (h : exitRefuses b tid) :
    b.exit tid = (b, withCode (b.entry (entryParent (b.entry tid))) errorInStatus) := by
  obtain ⟨hs, hj, hd, hp⟩ := h
  have hb : b.setEntry tid (insert 26 0b10#2 (b.entry tid)) = b := exited_of_status hs
  simp only [Books.exit, hb, hj, hd, hp, Bool.not_false, Bool.and_self, if_true,
    Bool.false_eq_true, if_false]

lemma exit_word_of_not_refused (hs : entryStatus (b.entry tid) = 0b10) (h : ¬ exitRefuses b tid) :
    (b.exit tid).2 = 0 := by
  have hb : b.setEntry tid (insert 26 0b10#2 (b.entry tid)) = b := exited_of_status hs
  simp only [Books.exit, hb]
  split
  · next hj =>
    rw [Bool.and_eq_true, Bool.not_eq_true'] at hj
    split
    · rfl
    · next hp => exact absurd ⟨hs, hj.2, hj.1, Bool.not_eq_true _ ▸ hp⟩ h
  · rfl

lemma withCode_errorInStatus (e : Word) : slice (withCode e errorInStatus) 28 4 ≠ 0 := by
  rw [withCode, slice_insert_self 28 errorInStatus e (by omega)]
  decide

lemma exit_table : (b.exit tid).1.table = (b.exited tid).table := by
  rw [exit_eq]
  split <;> rfl

lemma exit_refused_iff : b.running tid = false →
    (Refused b (b.exit tid).1 (b.exit tid).2 ↔ exitRefuses b tid) := by
  intro hr
  constructor
  · intro href
    have hentry : (b.exited tid).entry tid = b.entry tid := by
      rw [Books.entry, ← exit_table, href.table, Books.entry]
    have hs : entryStatus (b.entry tid) = 0b10 := by
      rw [← hentry, Books.exited, entry_setEntry, if_pos rfl, entryStatus_exited]
    by_contra hno
    apply href.code
    rw [exit_word_of_not_refused hs hno]
    decide
  · intro hex
    rw [exit_refused hex]
    exact ⟨withCode_errorInStatus _, rfl, rfl, rfl⟩

lemma Allocates.effect_checked (h : Allocates b) (hg : exitChecked cmd b)
    (he : cmd.effect b = some (b', w)) : Allocates b' := by
  by_cases hx : ∃ tid, cmd = .exit tid ∧ exitRefuses b tid
  · obtain ⟨tid, rfl, hex⟩ := hx
    rw [fst_of_some he, exit_refused hex]
    exact h
  · refine h.effect ?_ he
    cases cmd with
    | exit tid => exact hg.resolve_right fun hex => hx ⟨tid, rfl, hex⟩
    | createJ | createD | clear tid | join tid | add tid | next | yield | isQueued tid
    | isDetached tid | read tid | current => trivial

lemma running_of_wakes (hg : exitChecked (.exit c) b) (hw : b.wakes c = true) :
    b.running c = true := by
  rcases hg with hr | ⟨hs, -, -, hp⟩
  · exact hr
  · rw [Books.wakes, exited_of_status hs, hp, Bool.and_false] at hw
    cases hw

theorem exit_refused_iff_and_checked_runs (a : Managed) :
    (a.Reachable (fun _ _ => True) → ∀ tid, a.books.running tid = false →
      ∀ a' w, a.execute (.exit tid) = some (a', w) →
        (Refused a.books a'.books w ↔ exitRefuses a.books tid)) ∧
    (a.Reachable exitChecked → a.books.freeIds.Nodup ∧
      ∀ es z, a.Run es z → (∀ e ∈ es, exitChecked e.command e.before) →
        ∀ c, (∀ e ∈ es, e.creates c = false) → es.countP (Event.wakes c) ≤ 1) := by
  refine ⟨fun ha tid hr a' w hexec => ?_, fun ha => ⟨?_, fun es z hrun hes c hc => ?_⟩⟩
  · obtain ⟨heff, -⟩ := execute_iff ha.atRest hexec
    rw [fst_of_some heff, snd_of_some heff]
    exact exit_refused_iff hr
  · exact (reachable_invariant allocates_initial
      (fun cmd b b' w hb hg he => hb.effect_checked hg he) ha).2.nodup
  · exact wakes_at_most_once (fun b c => running_of_wakes) ha.atRest hrun hes hc

-- the parent 0 has exited before its joined child 1
def orphanRun : List Command := [.createJ, .add 0, .next, .createJ, .join 1, .exit 0, .exit 1]

theorem second_exit_of_orphan_refused : ∃ a a' : Managed, ∃ w,
    Books.initial.follow orphanRun = some a.books ∧ a.execute (.exit 1) = some (a', w) ∧
      Refused a.books a'.books w ∧ a.books.freeIds.Nodup := by
  have hfacts : (Books.initial.follow orphanRun).map (fun b =>
      !b.running 1 && decide (exitRefuses b 1)) = some true := by
    decide
  have hchecked : Books.initial.Allowed exitChecked orphanRun := by decide
  have hany : Books.initial.Allowed (fun _ _ => True) orphanRun := by decide
  obtain ⟨b, hb, hfacts⟩ := Option.map_eq_some_iff.mp hfacts
  rw [Bool.and_eq_true, Bool.not_eq_true', decide_eq_true_iff] at hfacts
  obtain ⟨a, ha, rfl⟩ := reachable_of_follow hchecked hb
  obtain ⟨c, hc, hbooks⟩ := reachable_of_follow hany hb
  obtain ⟨c', hexec, -, -⟩ := returns_exit hc.atRest 1
  rw [← hbooks] at hb hfacts
  refine ⟨c, c', _, hb, hexec, ?_, ?_⟩
  · exact ((exit_refused_iff_and_checked_runs c).1 hc 1 hfacts.1 c' _ hexec).mpr hfacts.2
  · rw [hbooks]
    exact ((exit_refused_iff_and_checked_runs a).2 ha).1

-- id 5 is free when it exits, and comes onto the stack a second time
def exitOfFree : List Command := [.createJ, .exit 5, .clear 5]

theorem exit_of_free_not_refused :
    (¬ ∀ a : Managed, a.Reachable (fun _ _ => True) → ∀ tid, a.books.running tid = false →
      ∀ a' w, a.execute (.exit tid) = some (a', w) → Refused a.books a'.books w) ∧
    ¬ ∀ a : Managed, a.Reachable (fun _ _ => True) → a.books.freeIds.Nodup := by
  constructor
  · intro hclaim
    have hnone : Books.initial.Allowed (fun _ _ => True) [] := trivial
    obtain ⟨a, ha, hbooks⟩ := reachable_of_follow hnone rfl
    obtain ⟨a', hexec, -, -⟩ := returns_exit ha.atRest 5
    have hrunning : Books.initial.running 5 = false := by decide
    have hcode := (hclaim a ha 5 (hbooks ▸ hrunning) a' _ hexec).code
    rw [hbooks] at hcode
    exact absurd (by decide) hcode
  · intro hclaim
    have hany : Books.initial.Allowed (fun _ _ => True) exitOfFree := by decide
    have hdouble : (Books.initial.follow exitOfFree).map (fun b => b.freeIds.count 5) = some 2 := by
      decide +kernel
    obtain ⟨b, hb, hdouble⟩ := Option.map_eq_some_iff.mp hdouble
    obtain ⟨a, ha, rfl⟩ := reachable_of_follow hany hb
    have hcount := List.nodup_iff_count_le_one.mp (hclaim a ha) 5
    omega

end Hthreads.Cores
