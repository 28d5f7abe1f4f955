import Hthreads.Software.Create
import Hthreads.Software.Stacks

/-! A priority from the attribute to the scheduler: where it ends up when the new thread is put
into its ready list. -/

namespace Hthreads.Software

open Library Library.BitFields Scheduler ThreadManager Cores

variable {attr : Attr} {T : Tables} {tid : ThreadId}

/-- The scheduler holds a software priority for the thread, and has queued it. -/
structure QueuedAsSoftware (b : Books) (tid : ThreadId) : Prop where
  param : isSoftwareParam (b.ready.param tid) = true
  queued : b.ready.queued tid = true

lemma isSoftwareParam_iff (param : Word) : isSoftwareParam param = true ↔ param.toNat < 128 := by
  have hlt := param.isLt
  rw [isSoftwareParam, beq_iff_eq, BitVec.toNat_eq, slice, BitVec.extractLsb'_toNat,
    Nat.shiftRight_eq_div_pow]
  simp only [BitVec.ofNat_eq_ofNat, BitVec.toNat_zero]
  omega

/-- The attribute takes one priority more than there are ready lists. -/
lemma setSchedParam_accepted_iff (priority : Hint) :
    (attr.setSchedParam priority).1 = success ↔ priority.toNat ≤ 128 := by
  have hlt := priority.isLt
  have hbounds : (priority.slt 0 || hthreadSchedparamMax.slt priority) = true ↔
      ¬ priority.toNat ≤ 128 := by
    have hmax : hthreadSchedparamMax.toInt = 128 := by decide
    have hzero : (0 : Hint).toInt = 0 := by decide
    rw [Bool.or_eq_true, BitVec.slt, BitVec.slt, decide_eq_true_iff,
      decide_eq_true_iff, hmax, hzero, BitVec.toInt_eq_toNat_cond]
    split <;> omega
  have hne : einval ≠ success := by decide
  rw [Attr.setSchedParam]
  split
  next hout => exact iff_of_false hne (hbounds.mp hout)
  next hin => exact iff_of_true rfl (not_not.mp fun hnot => hin (hbounds.mpr hnot))

lemma setSchedParam_param_eq {priority : Hint} (h : (attr.setSchedParam priority).1 = success)
    (hsoft : attr.hardware = false) : (attr.setSchedParam priority).2.param = priority := by
  rw [Attr.setSchedParam] at h ⊢
  split
  next hout =>
    have hne : einval ≠ success := by decide
    rw [if_pos hout] at h
    exact absurd h hne
  next hin => simp [Attr.param, hsoft]

lemma enqueue_param : (T.enqueue tid).param = T.param := by
  simp only [Tables.enqueue, Tables.announceHead, Tables.runEncoder, Tables.link]
  split_ifs <;> rfl

lemma enqueue_queued (h : T.queued tid = false) :
    (T.enqueue tid).queued tid = isSoftwareParam (T.param tid) := by
  cases hsoft : isSoftwareParam (T.param tid) with
  | false =>
    rw [Tables.enqueue, hsoft]
    exact h
  | true =>
    simp only [Tables.enqueue, hsoft, if_true, Tables.announceHead, Tables.runEncoder, Tables.link,
      Tables.queued]
    split_ifs <;> simp

theorem accepted_priority_stays_software_iff (a : Managed) (ha : a.AtRest) (I : Image) (attr : Attr)
    (hsoft : attr.hardware = false) (priority : Hint)
    (haccepted : (attr.setSchedParam priority).1 = success) (start arg : Huint) (k k' : Kernel)
    (a' : Managed) (th : Huint)
    (hrun : (Bus.syscallCreate I (attr.setSchedParam priority).2 start arg k).run machineAccess a =
      some (a', success, some th, k')) :
    QueuedAsSoftware a'.books (th.setWidth 8) ↔ priority ≠ hthreadSchedparamMax := by
  obtain ⟨-, hbooks⟩ := run_machine _ ha hrun
  obtain ⟨attr', hattr⟩ : ∃ attr', (attr.setSchedParam priority).2 = attr' := ⟨_, rfl⟩
  have hparam : attr'.param = priority := hattr ▸ setSchedParam_param_eq haccepted hsoft
  rw [hattr] at hbooks
  obtain ⟨-, hq, hb, hth⟩ := of_syscallCreate_some hbooks
  have hid : th.setWidth 8 = freshId a.books := by
    rw [hth]
    simp
  have hstored : (parameterized attr' a.books).ready.param (freshId a.books) = priority := by
    rw [parameterized, setSchedParam_param, hparam]
  have hmax : priority ≠ hthreadSchedparamMax ↔ isSoftwareParam priority = true := by
    have hbound := (setSchedParam_accepted_iff priority).mp haccepted
    have h128 : hthreadSchedparamMax.toNat = 128 := by decide
    rw [isSoftwareParam_iff, ne_eq, BitVec.toNat_eq, h128]
    omega
  rw [hid, hmax, hb, ← hstored]
  constructor
  · intro hsw
    have hp := hsw.param
    rwa [Books.enqueue, enqueue_param] at hp
  · intro hsw
    refine ⟨?_, ?_⟩
    · rw [Books.enqueue, enqueue_param, hsw]
    · rw [Books.enqueue, enqueue_queued (queued_parameterized.trans hq), hsw]

lemma create_on_initial (priority : Hint) :
    ∃ a a' k', a.AtRest ∧ (Bus.syscallCreate smallImage (Attr.init.setSchedParam priority).2 0x500 0
      .blank).run machineAccess a = some (a', success, some 0, k') := by
  have hnone : Books.initial.Allowed (fun _ _ => True) [] := trivial
  obtain ⟨a, ha, hbooks⟩ := reachable_of_follow hnone rfl
  have hstack : (Attr.init.setSchedParam priority).2.StackAccepted := by
    have hmin : hthreadStackMin < Attr.init.stackSize := by decide
    intro _
    rw [Attr.setSchedParam]
    split <;> exact hmin
  have hfull : bit a.books.nextId 0 = false := by rw [hbooks]; rfl
  have hid : freshId a.books = 0 := by rw [hbooks]; decide
  have hq : a.books.ready.queued (freshId a.books) = false := by
    rw [hid, hbooks]
    decide
  have hrun : (Bus.syscallCreate smallImage (Attr.init.setSchedParam priority).2 0x500 0
    .blank).run bookAccess a.books = _ := syscallCreate_success hfull hstack hq
  rw [hid] at hrun
  obtain ⟨a', hmachine, -, -⟩ := run_machine_of_books _ ha.atRest hrun
  exact ⟨a, a', _, ha.atRest, hmachine⟩

theorem lowest_priority_stays_software : ∃ a a' k', (Bus.syscallCreate smallImage
    (Attr.init.setSchedParam 127).2 0x500 0 .blank).run machineAccess a =
      some (a', success, some 0, k') ∧ QueuedAsSoftware a'.books 0 := by
  obtain ⟨a, a', k', ha, hrun⟩ := create_on_initial 127
  exact ⟨a, a', k', hrun, (accepted_priority_stays_software_iff a ha smallImage .init rfl 127
    (by decide) 0x500 0 .blank k' a' 0 hrun).mpr (by decide)⟩

/-- The priority 128 is accepted, and the new thread is started as a hardware thread at this bus
address. -/
theorem priority_128_leaves_software_range : ¬ ∀ (a : Managed), a.AtRest → ∀ (priority : Hint),
    (Attr.init.setSchedParam priority).1 = success → ∀ a' th k', (Bus.syscallCreate smallImage
      (Attr.init.setSchedParam priority).2 0x500 0 .blank).run machineAccess a =
        some (a', success, some th, k') → QueuedAsSoftware a'.books (th.setWidth 8) := by
  intro hclaim
  obtain ⟨a, a', k', ha, hrun⟩ := create_on_initial 128
  have hsw := hclaim a ha 128 (by decide) a' 0 k' hrun
  obtain ⟨-, hbooks⟩ := run_machine _ ha hrun
  obtain ⟨-, -, hb, hth⟩ := of_syscallCreate_some hbooks
  have hid : (0 : Huint).setWidth 8 = freshId a.books := by
    rw [hth]
    simp
  have hp := hsw.param
  rw [hid, hb, Books.enqueue, enqueue_param, parameterized, setSchedParam_param] at hp
  exact absurd hp (by decide)

end Hthreads.Software
