import Hthreads.Cores.ExitChecks
import Hthreads.Software.Stacks
import Hthreads.Software.Switching

/-! When the kernel switches to no context but the one of the current thread. -/

namespace Hthreads.Software

open Library Library.BitFields Scheduler ThreadManager Cores

section Exit

variable {b b' : Books} {c : Control}

-- EXIT finds that the parent of the current thread, which waits for it, is not running
def exitFails (b : Books) : Bool :=
  !entryDetached (b.entry b.cpu) && entryJoined (b.entry b.cpu) &&
    !(b.exited b.cpu).running (entryParent (b.entry b.cpu))

/-- An exit is safe when EXIT does not fail, or when the yield that follows names the current
thread by chance. -/
def exitSafe (b : Books) : Prop :=
  exitFails b = false ∨ refusedId (b.exited b.cpu) = b.cpu.setWidth 32

lemma exit_fails (h : exitFails b = true) : ∃ w, hasError w = true ∧
    b.exit b.cpu = (b.exited b.cpu, w) ∧ (b.exited b.cpu).exit b.cpu = (b.exited b.cpu, w) := by
  rw [exitFails, Bool.and_eq_true, Bool.not_eq_true'] at h
  obtain ⟨hwaits, hparent⟩ := h
  have hb : b.setEntry b.cpu (insert 26 0b10#2 (b.entry b.cpu)) = b.exited b.cpu := rfl
  have hentry : (b.exited b.cpu).entry b.cpu = insert 26 0b10#2 (b.entry b.cpu) := by
    rw [exited_entry, if_pos rfl]
  have hkept : entryParent (insert 26 0b10#2 (b.entry b.cpu)) = entryParent (b.entry b.cpu) ∧
      entryDetached (insert 26 0b10#2 (b.entry b.cpu)) = entryDetached (b.entry b.cpu) ∧
      entryJoined (insert 26 0b10#2 (b.entry b.cpu)) = entryJoined (b.entry b.cpu) :=
    ⟨slice_insert_of_disjoint 26 _ _ _ (by omega) (by omega) (.inl (by omega)),
      bit_insert_of_outside 26 _ _ _ (by omega) (by omega) (.inl (by omega)),
      bit_insert_of_outside 26 _ _ _ (by omega) (by omega) (.inl (by omega))⟩
  obtain ⟨hp, hd, hj⟩ := hkept
  rw [Bool.and_eq_true, Bool.not_eq_true'] at hwaits
  refine ⟨withCode ((b.exited b.cpu).entry (entryParent (b.entry b.cpu))) errorInStatus,
    hasError_withCode _ _ rfl, ?_, ?_⟩
  · simp only [Books.exit, hb, hwaits.1, hwaits.2, hparent, Bool.not_false, Bool.and_self, if_true,
      Bool.false_eq_true, if_false]
  · have href : exitRefuses (b.exited b.cpu) b.cpu := by
      refine ⟨?_, ?_, ?_, ?_⟩
      · rw [hentry, entryStatus_exited]
      · rw [hentry, hj, hwaits.2]
      · rw [hentry, hd, hwaits.1]
      · rw [hentry, hp, hparent]
    rw [exit_refused href, hentry, hp]

lemma exit_word_zero (h : exitFails b = false) : (b.exit b.cpu).2 = 0 := by
  have hb : b.setEntry b.cpu (insert 26 0b10#2 (b.entry b.cpu)) = b.exited b.cpu := rfl
  simp only [Books.exit, hb]
  split
  next hwaits =>
    rw [exitFails, hwaits, Bool.true_and, Bool.not_eq_false'] at h
    rw [if_pos h]
  next => rfl

-- the books of a thread that has exited and is still current
structure Stuck (b : Books) (w : Word) : Prop where
  error : hasError w = true
  running : b.running b.cpu = false
  exit : b.exit b.cpu = (b, w)

lemma Stuck.spins {w : Word} (h : Stuck b w) (hid : refusedId b = b.cpu.setWidth 32) (n : ℕ) :
    (Bus.exitRetry (b.cpu.setWidth 32) n w).run bookAccess b = some (b, none) := by
  have htid : (b.cpu.setWidth 32).setWidth 8 = b.cpu := by simp
  induction n with
  | zero =>
    rw [Bus.exitRetry, if_pos h.error]
    rfl
  | succ n ih =>
    rw [Bus.exitRetry, if_pos h.error]
    simp only [Program.run_bind, syscallYield_refused h.running, hid, ne_eq, not_true_eq_false,
      if_false, Option.bind_some, Program.run_issue, bookAccess, htid, Cores.Command.effect, h.exit,
      ih]

lemma Stuck.leaves {w : Word} (h : Stuck b w) (hid : refusedId b ≠ b.cpu.setWidth 32) (n : ℕ) :
    (Bus.exitRetry (b.cpu.setWidth 32) (n + 1) w).run bookAccess b =
      some (b, some (.switch (b.cpu.setWidth 32) (refusedId b)
        (withCode (b.entry b.cpu) errorInStatus))) := by
  rw [Bus.exitRetry, if_pos h.error]
  simp only [Program.run_bind, syscallYield_refused h.running, ne_eq, Ne.symm hid,
    not_false_eq_true, if_true, Option.bind_some, Program.run_pure]

lemma stuck_of_fails (h : exitFails b = true) :
    ∃ w, b.exit b.cpu = (b.exited b.cpu, w) ∧ Stuck (b.exited b.cpu) w := by
  obtain ⟨w, herr, hexit, hagain⟩ := exit_fails h
  refine ⟨w, hexit, herr, ?_, hagain⟩
  rw [show (b.exited b.cpu).cpu = b.cpu from rfl, running_exited, bne_self_eq_false, Bool.and_false]

lemma detachedThread_run (b : Books) (id : Huint) :
    ∃ flag, (Bus.detachedThread id).run bookAccess b = some (b, flag) := by
  simp only [Bus.detachedThread, Program.run_bind, Program.run_issue, Program.run_pure, bookAccess,
    Cores.Command.effect, Option.bind_some]
  exact ⟨_, rfl⟩

lemma syscallExit_run (n : ℕ) (retval : Huint) (k : Kernel) (b : Books) :
    ∃ (flag : Bool) (k₁ : Kernel), (Bus.syscallExit n retval k).run bookAccess b =
      ((Bus.exitRetry (b.cpu.setWidth 32) n (b.exit b.cpu).2).run bookAccess (b.exit b.cpu).1).bind
        fun q => (Bus.finishExit flag (b.cpu.setWidth 32) k₁ q.2).run bookAccess q.1 := by
  obtain ⟨flag, hflag⟩ := detachedThread_run b (b.cpu.setWidth 32)
  have htid : (b.cpu.setWidth 32).setWidth 8 = b.cpu := by simp
  refine ⟨flag, k.setRetval b.cpu retval, ?_⟩
  simp only [Bus.syscallExit, Program.run_bind, currentThread_run, Option.bind_some, hflag,
    Program.run_issue, bookAccess, htid, Cores.Command.effect]

lemma exitRetry_done {w : Word} (h : hasError w = false) (current : Huint) (n : ℕ) :
    Bus.exitRetry current n w = pure (some .back) := by
  unfold Bus.exitRetry
  rw [if_neg (Bool.eq_false_iff.mp h)]

lemma syscallExit_sound (h : exitFails b = false) {n : ℕ} {retval : Huint} {k k' : Kernel}
    (hrun : (Bus.syscallExit n retval k).run bookAccess b = some (b', some c, k')) :
    c.Sound b' := by
  obtain ⟨flag, k₁, heq⟩ := syscallExit_run n retval k b
  have hzero : hasError 0 = false := by decide
  rw [heq, exit_word_zero h, exitRetry_done hzero] at hrun
  simp only [Program.run_pure, Option.bind_some, Bus.finishExit, Program.run_bind] at hrun
  rw [Option.bind_eq_some_iff] at hrun
  obtain ⟨⟨b₁, k₂⟩, -, hrun⟩ := hrun
  rw [Option.bind_eq_some_iff] at hrun
  obtain ⟨⟨b₂, c₂⟩, hsched, hrun⟩ := hrun
  obtain ⟨hb, hresult⟩ := Prod.mk.inj (Option.some.inj hrun)
  have hc := Option.some.inj (Prod.mk.inj hresult).1
  have hsound := runSched_sound hsched
  rwa [← hb, ← hc]

lemma syscallExit_sound_iff (retval : Huint) (k : Kernel) :
    (∀ n b' c k', (Bus.syscallExit n retval k).run bookAccess b = some (b', some c, k') →
      c.Sound b') ↔ exitSafe b := by
  cases hfails : exitFails b with
  | false => exact iff_of_true (fun n b' c k' => syscallExit_sound hfails) (.inl hfails)
  | true =>
    obtain ⟨w, hexit, hstuck⟩ := stuck_of_fails hfails
    by_cases hid : refusedId (b.exited b.cpu) = b.cpu.setWidth 32
    · refine iff_of_true (fun n b' c k' hrun => ?_) (.inr hid)
      obtain ⟨flag, k₁, heq⟩ := syscallExit_run n retval k b
      have hspins : (Bus.exitRetry (b.cpu.setWidth 32) n w).run bookAccess (b.exited b.cpu) =
        some (b.exited b.cpu, none) := hstuck.spins hid n
      rw [heq, hexit] at hrun
      simp only [hspins, Option.bind_some, Bus.finishExit, Program.run_pure] at hrun
      cases congrArg (Option.map (·.2.1)) hrun
    · refine iff_of_false (fun hsound => ?_) fun hsafe => ?_
      · obtain ⟨flag, k₁, heq⟩ := syscallExit_run 1 retval k b
        have hleaves :
            (Bus.exitRetry (b.cpu.setWidth 32) 1 w).run bookAccess (b.exited b.cpu) = _ :=
          hstuck.leaves hid 0
        rw [hexit] at heq
        simp only [hleaves, Option.bind_some, Bus.finishExit, Program.run_pure] at heq
        have hswitch := (hsound 1 _ _ _ heq).1
        rw [hasError_withCode _ _ rfl] at hswitch
        cases hswitch
      · rcases hsafe with hno | hsame
        · rw [hfails] at hno
          cases hno
        · exact hid hsame

end Exit

/-- When a site switches to no context but the current thread's. -/
def SwitchSite.SafeIn (b : Books) : SwitchSite → Prop
  | runSched _ => True
  | yield => yieldSafe b
  | preemption pending preemptMask => pending &&& preemptMask ≠ 0 → yieldSafe b
  | exit _ _ => exitSafe b

lemma interruptHandler_run {b : Books} {pending preemptMask : Huint}
    (h : pending &&& preemptMask ≠ 0) :
    (Bus.interruptHandler pending preemptMask).run bookAccess b =
      (Bus.syscallYield.run bookAccess b).map fun q => (q.1, some q.2) := by
  rw [Bus.interruptHandler, if_pos h, Bus.syscallYield]
  simp only [Program.run_bind, currentThread_run, Option.bind_some, Option.map_bind]
  congr 1
  funext q
  simp only [Function.comp]
  split <;> rfl

lemma syscallYield_some (b : Books) :
    ∃ b' c, Bus.syscallYield.run bookAccess b = some (b', c) := by
  simp only [Bus.syscallYield, Bus.yieldThread, Program.run_bind, Program.run_issue,
    Program.run_pure, currentThread_run, bookAccess, Cores.Command.effect, Option.bind_some]
  split <;> exact ⟨_, _, rfl⟩

lemma SwitchSite.sound_iff (site : SwitchSite) (b : Books) :
    (∀ n b' c, (site.program n).run bookAccess b = some (b', some c) → c.Sound b') ↔
      site.SafeIn b := by
  cases site with
  | runSched save =>
    refine iff_of_true (fun n b' c hrun => ?_) trivial
    simp only [program, Program.run_bind, Program.run_pure] at hrun
    obtain ⟨⟨b₁, c₁⟩, hsched, hrun⟩ := Option.bind_eq_some_iff.mp hrun
    obtain ⟨hb, hc⟩ := Prod.mk.inj (Option.some.inj hrun)
    rw [← hb, ← Option.some.inj hc]
    exact runSched_sound hsched
  | yield =>
    obtain ⟨b₁, c₁, hyield⟩ := syscallYield_some b
    simp only [program, Program.run_bind, Program.run_pure, hyield, Option.bind_some]
    refine ⟨fun hsound => (syscallYield_sound_iff hyield).mp (hsound 0 b₁ c₁ rfl),
      fun hsafe n b' c hrun => ?_⟩
    obtain ⟨hb, hc⟩ := Prod.mk.inj (Option.some.inj hrun)
    rw [← hb, ← Option.some.inj hc]
    exact (syscallYield_sound_iff hyield).mpr hsafe
  | preemption pending preemptMask =>
    by_cases hmask : pending &&& preemptMask = 0
    · refine iff_of_true (fun n b' c hrun => ?_) fun hne => absurd hmask hne
      rw [program, Bus.interruptHandler, if_neg (not_not_intro hmask)] at hrun
      cases congrArg (Option.map (·.2)) hrun
    · obtain ⟨b₁, c₁, hyield⟩ := syscallYield_some b
      simp only [program, interruptHandler_run hmask, hyield, Option.map_some]
      refine ⟨fun hsound _ => (syscallYield_sound_iff hyield).mp (hsound 0 b₁ c₁ rfl),
        fun hsafe n b' c hrun => ?_⟩
      obtain ⟨hb, hc⟩ := Prod.mk.inj (Option.some.inj hrun)
      rw [← hb, ← Option.some.inj hc]
      exact (syscallYield_sound_iff hyield).mpr (hsafe hmask)
  | exit retval k =>
    rw [SafeIn, ← syscallExit_sound_iff retval k]
    simp only [program, Program.run_bind, Program.run_pure]
    refine ⟨fun hsound n b' c k' hrun => hsound n b' c ?_, fun hsound n b' c hrun => ?_⟩
    · rw [hrun]
      rfl
    · obtain ⟨⟨b₁, c₁, k₁⟩, hexit, hrun⟩ := Option.bind_eq_some_iff.mp hrun
      obtain ⟨hb, hc⟩ := Prod.mk.inj (Option.some.inj hrun)
      simp only at hb hc
      rw [hc] at hexit
      rw [← hb]
      exact hsound n b₁ c k₁ hexit

lemma SwitchSite.Safe.safeIn {site : SwitchSite} {a : Managed} (h : site.Safe a)
    (ha : a.AtRest) : site.SafeIn a.books := by
  rw [← sound_iff]
  intro n b' c hrun
  obtain ⟨a', hmachine, -, hbooks⟩ := run_machine_of_books _ ha hrun
  rw [← hbooks]
  exact h n a' c hmachine

theorem switch_safe_iff (site : SwitchSite) (a : Managed) (ha : a.AtRest) :
    site.Safe a ↔ site.SafeIn a.books := by
  refine ⟨fun hsafe => hsafe.safeIn ha, fun hin n a' c hrun => ?_⟩
  exact (site.sound_iff a.books).mpr hin n a'.books c (run_machine _ ha hrun).2

-- thread 0 has created thread 1 and runs
def parentRuns : List Cores.Command := [.createJ, .add 0, .next, .createJ, .add 1]

theorem switch_safe_while_parent_runs : ∃ a : Managed,
    Books.initial.follow parentRuns = some a.books ∧ SwitchSite.yield.Safe a ∧
      (SwitchSite.preemption 1 1).Safe a ∧ (SwitchSite.exit 0 .blank).Safe a := by
  have hany : Books.initial.Allowed (fun _ _ => True) parentRuns := by decide
  have hfacts : (Books.initial.follow parentRuns).map (fun b =>
      b.running b.cpu && !exitFails b) = some true := by
    decide
  obtain ⟨b, hb, hfacts⟩ := Option.map_eq_some_iff.mp hfacts
  rw [Bool.and_eq_true, Bool.not_eq_true'] at hfacts
  obtain ⟨a, ha, rfl⟩ := reachable_of_follow hany hb
  exact ⟨a, hb, (switch_safe_iff .yield a ha.atRest).mpr (.inl hfacts.1),
    (switch_safe_iff (.preemption 1 1) a ha.atRest).mpr fun _ => .inl hfacts.1,
    (switch_safe_iff (.exit 0 .blank) a ha.atRest).mpr (.inl hfacts.2)⟩

-- a hardware thread has joined thread 1 while its parent 0 was current, and thread 0 has exited
def parentGone : List Cores.Command :=
  [.createJ, .add 0, .next, .createJ, .add 1, .join 1, .exit 0, .next]

/-- Thread 1 exits, is refused, and the yield of the retry loop goes to a context that was cut out
of an error word; so does every later yield or preemption. -/
theorem switch_from_error_word :
    (∃ a : Managed, a.Reachable (fun _ _ => True) ∧
      Books.initial.follow parentGone = some a.books ∧ ¬ (SwitchSite.exit 0 .blank).Safe a) ∧
    ∃ a : Managed, a.Reachable (fun _ _ => True) ∧
      Books.initial.follow (parentGone ++ [.exit 1]) = some a.books ∧ ¬ SwitchSite.yield.Safe a ∧
        ¬ (SwitchSite.preemption 1 1).Safe a := by
  constructor
  · have hany : Books.initial.Allowed (fun _ _ => True) parentGone := by decide
    have hfacts : (Books.initial.follow parentGone).map (fun b =>
        exitFails b && refusedId (b.exited b.cpu) != b.cpu.setWidth 32) = some true := by
      decide
    obtain ⟨b, hb, hfacts⟩ := Option.map_eq_some_iff.mp hfacts
    rw [Bool.and_eq_true, bne_iff_ne] at hfacts
    obtain ⟨a, ha, rfl⟩ := reachable_of_follow hany hb
    refine ⟨a, ha, hb, fun hsafe => ?_⟩
    rcases hsafe.safeIn ha.atRest with hno | hsame
    · rw [hfacts.1] at hno
      cases hno
    · exact hfacts.2 hsame
  · have hany : Books.initial.Allowed (fun _ _ => True) (parentGone ++ [.exit 1]) := by
      decide
    have hfacts : (Books.initial.follow (parentGone ++ [.exit 1])).map (fun b =>
        !b.running b.cpu && refusedId b != b.cpu.setWidth 32) = some true := by
      decide
    obtain ⟨b, hb, hfacts⟩ := Option.map_eq_some_iff.mp hfacts
    rw [Bool.and_eq_true, Bool.not_eq_true', bne_iff_ne] at hfacts
    obtain ⟨a, ha, rfl⟩ := reachable_of_follow hany hb
    have hunsafe : ¬ yieldSafe a.books := by
      rintro (hrun | hsame)
      · rw [hfacts.1] at hrun
        cases hrun
      · exact hfacts.2 hsame
    exact ⟨a, ha, hb, fun hsafe => hunsafe (hsafe.safeIn ha.atRest),
      fun hsafe => hunsafe (hsafe.safeIn ha.atRest (by decide))⟩

end Hthreads.Software
