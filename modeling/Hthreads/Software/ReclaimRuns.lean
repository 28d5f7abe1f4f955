import Hthreads.Software.Reclaiming

/-! What the exits of threads keep of the ids over whole runs. -/

namespace Hthreads.Software

open Library Library.BitFields Scheduler ThreadManager Cores

/-- A detached thread has exited and its id is still in use. -/
def Stranded (b : Books) (tid : ThreadId) : Prop :=
  entryStatus (b.entry tid) = 0b10 ∧ entryDetached (b.entry tid) = true

section Records

variable {b b' : Books} {cmd : Cores.Command} {tid u : ThreadId} {w : Word}

lemma used_of_running (h : b.running tid = true) : b.used tid = true := by
  have hstatus : entryStatus (b.entry tid) = 0b11 := beq_iff_eq.mp h
  exact entryUsed_of_status (by rw [hstatus]; rfl)

lemma join_detached (tid u : ThreadId) :
    entryDetached ((b.join tid).1.entry u) = entryDetached (b.entry u) := by
  by_cases hu : u = tid
  · subst hu
    rw [Books.join]
    split
    · split
      · rw [entry_setEntry, if_pos rfl]
        exact bit_insert_of_outside 25 24 _ _ (by omega) (by omega) (.inl (by omega))
      · rfl
    · rfl
  · rw [join_entry_of_ne hu]

lemma created_running (h : cmd.effect b = some (b', w))
    (hcreates : (Event.mk b cmd w b').creates u = true) : b'.running u = true := by
  have hnew (command : BitVec 6) (hb : b' = (b.create command).1)
      (hw : (b.create command).2 = 0#23 ++ u ++ 0#1) : b'.running u = true := by
    rw [hb, Books.running, created_entry hw, entryStatus_createdEntry]
    rfl
  rw [Event.creates, Bool.and_eq_true, Bool.or_eq_true, beq_iff_eq, beq_iff_eq,
    beq_iff_eq] at hcreates
  obtain ⟨hcmd, hw⟩ := hcreates
  simp only at hcmd hw
  rcases hcmd with rfl | rfl
  · exact hnew _ (fst_of_some h) ((snd_of_some h).symm.trans hw)
  · exact hnew _ (fst_of_some h) ((snd_of_some h).symm.trans hw)

lemma record_cases (h : cmd.effect b = some (b', w)) (hexit : ∀ t, cmd ≠ .exit t) (u : ThreadId) :
    (Event.mk b cmd w b').creates u = true ∨
      (entryStatus (b.entry u) = 0b10 ∧ entryStatus (b'.entry u) = 0) ∨
      (entryStatus (b'.entry u) = entryStatus (b.entry u) ∧
        entryDetached (b'.entry u) = entryDetached (b.entry u)) := by
  cases hcreates : (Event.mk b cmd w b').creates u with
  | true => exact .inl rfl
  | false =>
    refine .inr ?_
    by_cases hclear : cmd = .clear u
    · subst hclear
      have hrec := clear_record b u u
      rw [fst_of_some h]
      split at hrec
      · next hdone => exact .inl ⟨hdone.1, entryStatus_of_record (e := 0) hrec⟩
      · exact .inr ⟨entryStatus_of_record hrec, bit_of_record hrec (by omega)⟩
    · by_cases hjoin : cmd = .join u
      · subst hjoin
        rw [fst_of_some h]
        exact .inr ⟨join_status, join_detached u u⟩
      · have hrec := record_of_effect h hclear hcreates hjoin (hexit u)
        exact .inr ⟨entryStatus_of_record hrec, bit_of_record hrec (by omega)⟩

lemma Stranded.of_effect (h : cmd.effect b = some (b', w)) (hexit : ∀ t, cmd ≠ .exit t)
    (hu : Stranded b' u) : Stranded b u := by
  rcases record_cases h hexit u with hcreates | ⟨-, hzero⟩ | ⟨hstatus, hdetached⟩
  · have hrunning := created_running h hcreates
    rw [Books.running, hu.1] at hrunning
    cases hrunning
  · rw [hu.1] at hzero
    cases hzero
  · exact ⟨hstatus ▸ hu.1, hdetached ▸ hu.2⟩

lemma not_creates_of_used (hb : Allocates b) (h : cmd.effect b = some (b', w))
    (hu : b.used u = true) : (Event.mk b cmd w b').creates u = false := by
  rw [Bool.eq_false_iff]
  intro hcreates
  rw [Event.creates, Bool.and_eq_true, Bool.or_eq_true, beq_iff_eq, beq_iff_eq,
    beq_iff_eq] at hcreates
  obtain ⟨hcmd, hw⟩ := hcreates
  simp only at hcmd hw
  have hcreated := (step_create hb hcmd h).created hcmd
  rw [hw, slice_created, bit_created] at hcreated
  rw [(hcreated rfl).1] at hu
  cases hu

lemma kept_of_running (hb : Allocates b) (h : cmd.effect b = some (b', w))
    (hexit : ∀ t, cmd ≠ .exit t) (hr : b.running u = true) :
    b'.running u = true ∧ entryDetached (b'.entry u) = entryDetached (b.entry u) := by
  have hstatus : entryStatus (b.entry u) = 0b11 := beq_iff_eq.mp hr
  rcases record_cases h hexit u with hcreates | ⟨hten, -⟩ | ⟨hsame, hdetached⟩
  · rw [not_creates_of_used hb h (used_of_running hr)] at hcreates
    cases hcreates
  · rw [hstatus] at hten
    cases hten
  · exact ⟨beq_iff_eq.mpr (hsame.trans hstatus), hdetached⟩

lemma exit_running (b : Books) (tid u : ThreadId) :
    (b.exit tid).1.running u = (b.running u && u != tid) := by
  rw [Books.running, exit_entry]
  exact running_exited b tid u

lemma exit_detached (b : Books) (tid u : ThreadId) :
    entryDetached ((b.exit tid).1.entry u) = entryDetached (b.entry u) := by
  rw [exit_entry, exited_entry]
  split
  · next hu =>
    rw [hu]
    exact bit_insert_of_outside 26 24 _ _ (by omega) (by omega) (.inl (by omega))
  · rfl

lemma exit_stranded (h : Stranded (b.exit tid).1 u) :
    Stranded b u ∨ (u = tid ∧ entryDetached (b.entry tid) = true) := by
  obtain ⟨hstatus, hdetached⟩ := h
  rw [exit_detached] at hdetached
  rw [exit_entry, exited_entry] at hstatus
  split at hstatus
  · next hu => exact .inr ⟨hu, hu ▸ hdetached⟩
  · exact .inl ⟨hstatus, hdetached⟩

lemma isDetached_word (hused : b.used tid = true) :
    ((if entryDetached (b.entry tid) && entryUsed (b.entry tid) then 0b10 else 0 : Word) != 0) =
      entryDetached (b.entry tid) := by
  rw [show entryUsed (b.entry tid) = true from hused, Bool.and_true]
  cases entryDetached (b.entry tid) <;> rfl

lemma initial_used (tid : ThreadId) : Books.initial.used tid = false := by
  rw [Books.used, initial_entry, entryUsed, bit, BitVec.getLsbD_append]
  simp

lemma used_iff (hb : Consistent b) (tid : ThreadId) :
    b.used tid = (b.running tid || entryStatus (b.entry tid) == 0b10) := by
  have hne := hb tid
  rw [Books.used, Books.running, entryUsed]
  rw [status_eq] at hne ⊢
  revert hne
  cases bit (b.entry tid) 26 <;> cases bit (b.entry tid) 27 <;> decide

lemma countP_used (hb : Consistent b) (hnone : ∀ tid, ¬ Stranded b tid) (l : List ThreadId) :
    l.countP b.used = l.countP b.running + l.countP (waitsForJoin b) := by
  induction l with
  | nil => rfl
  | cons tid l ih =>
    have hused := used_iff hb tid
    rw [List.countP_cons, List.countP_cons, List.countP_cons, ih, hused]
    by_cases hexited : entryStatus (b.entry tid) = 0b10
    · have hrunning : b.running tid = false := by
        rw [Books.running, hexited]
        rfl
      have hwaits : waitsForJoin b tid = true := by
        have hdetached : entryDetached (b.entry tid) = false := by
          rw [← Bool.not_eq_true]
          exact fun hd => hnone tid ⟨hexited, hd⟩
        rw [waitsForJoin, hexited, hdetached]
        rfl
      simp only [hrunning, hwaits, hexited, beq_self_eq_true, Bool.or_true, if_true,
        Bool.false_eq_true, if_false]
      omega
    · have hwaits : waitsForJoin b tid = false := by
        rw [waitsForJoin, beq_eq_false_iff_ne.mpr hexited]
        rfl
      simp only [hwaits, beq_eq_false_iff_ne.mpr hexited, Bool.or_false, Bool.false_eq_true,
        if_false]
      omega

end Records

structure Kept (s : Exits) : Prop where
  atRest : s.machine.AtRest
  allocates : Allocates s.books
  consistent : Consistent s.books
  asked : ∀ tid g d, s.stage tid g = .asked d →
    g = s.generation tid ∧ s.books.running tid = true ∧ d = entryDetached (s.books.entry tid)
  again : ∀ tid g d, s.stage tid g ≠ .again d
  stranded : ∀ tid, Stranded s.books tid → s.current tid = .exited ∨ s.current tid = .leaving true
  later : ∀ tid g, s.generation tid < g → s.stage tid g = .staying
  out : ∀ tid, s.books.running tid = true →
    s.current tid = .staying ∨ ∃ d, s.current tid = .asked d

section Steps

variable {s : Exits} {tid : ThreadId} {g : ℕ} {a : Managed} {w : Word}

lemma setStage_stage (s : Exits) (tid u : ThreadId) (g k : ℕ) (x : Stage) :
    (s.setStage tid g x).stage u k = if u = tid ∧ k = g then x else s.stage u k := by
  by_cases hu : u = tid
  · subst hu
    by_cases hk : k = g
    · simp [Exits.setStage, hk]
    · simp [Exits.setStage, hk]
  · simp [Exits.setStage, hu]

lemma setStage_self (s : Exits) (tid : ThreadId) (g : ℕ) (x : Stage) :
    (s.setStage tid g x).stage tid g = x := by
  rw [setStage_stage, if_pos ⟨rfl, rfl⟩]

lemma Kept.command (h : Kept s) {cmd : Cores.Command} (hexit : ∀ t, cmd ≠ .exit t)
    (he : s.machine.execute cmd = some (a, w)) : Kept (s.after cmd a w) := by
  obtain ⟨heff, hrest⟩ := execute_iff h.atRest he
  have hguard : exitRunning cmd s.books := by
    cases cmd with
    | exit t => exact absurd rfl (hexit t)
    | createJ | createD | clear _ | join _ | add _ | next | yield | isQueued _ | isDetached _
    | read _ | current => trivial
  -- a new generation begins where nothing has been done yet
  have hstage (u : ThreadId) : (s.after cmd a w).current u =
      if (Event.mk s.books cmd w a.books).creates u then .staying else s.current u := by
    have hgeneration : (s.after cmd a w).generation u =
      if (Event.mk s.books cmd w a.books).creates u then s.generation u + 1
      else s.generation u := rfl
    rw [Exits.current, Exits.current, hgeneration]
    split
    · exact h.later u _ (Nat.lt_succ_self _)
    · rfl
  refine ⟨hrest, h.allocates.effect hguard heff, h.consistent.effect heff, ?_, h.again, ?_, ?_, ?_⟩
  · intro u k d hstage
    obtain ⟨hk, hr, hd⟩ := h.asked u k d hstage
    have hkept := kept_of_running h.allocates heff hexit hr
    have hnew := not_creates_of_used h.allocates heff (used_of_running hr)
    refine ⟨?_, hkept.1, hd.trans hkept.2.symm⟩
    rw [hk]
    exact (if_neg (Bool.eq_false_iff.mp hnew)).symm
  · intro u hu
    have hcurrent := h.stranded u (hu.of_effect heff hexit)
    rw [hstage]
    split
    · next hcreates =>
      have hrunning := created_running heff hcreates
      rw [Books.running, show a.books.entry u = (s.after cmd a w).books.entry u from rfl,
        hu.1] at hrunning
      cases hrunning
    · exact hcurrent
  · intro u k hk
    refine h.later u k (Nat.lt_of_le_of_lt ?_ hk)
    simp only [Exits.after]
    split
    · exact Nat.le_succ _
    · exact Nat.le_refl _
  · intro u hu
    rw [hstage]
    split
    · exact .inl rfl
    · next hold =>
      refine h.out u ?_
      rcases running_of_effect heff hu with hrun | hnew
      · exact hrun
      · exact absurd hnew hold

lemma Kept.le_generation (h : Kept s) (hstage : s.stage tid g ≠ .staying) :
    g ≤ s.generation tid := by
  by_contra hlt
  exact hstage (h.later tid g (Nat.lt_of_not_le hlt))

lemma Kept.setStage (h : Kept s) {x : Stage} (hg : g ≤ s.generation tid)
    (hasked : ∀ d, x = .asked d →
      g = s.generation tid ∧ s.books.running tid = true ∧ d = entryDetached (s.books.entry tid))
    (hagain : ∀ d, x ≠ .again d)
    (hstranded : g = s.generation tid → Stranded s.books tid → x = .exited ∨ x = .leaving true)
    (hout : g = s.generation tid → s.books.running tid = true → x = .staying ∨ ∃ d, x = .asked d) :
    Kept (s.setStage tid g x) := by
  refine ⟨h.atRest, h.allocates, h.consistent, ?_, ?_, ?_, ?_, ?_⟩
  · intro u k d hstage
    rw [setStage_stage] at hstage
    split at hstage
    · next hself =>
      obtain ⟨rfl, rfl⟩ := hself
      exact hasked d hstage
    · exact h.asked u k d hstage
  · intro u k d
    rw [setStage_stage]
    split
    · exact hagain d
    · exact h.again u k d
  · intro u hu
    rw [Exits.current, setStage_stage]
    split
    · next hself =>
      obtain ⟨rfl, hk⟩ := hself
      exact hstranded hk.symm hu
    · exact h.stranded u hu
  · intro u k hk
    have hne : ¬ (u = tid ∧ k = g) := by
      rintro ⟨rfl, rfl⟩
      exact absurd hk (Nat.not_lt.mpr hg)
    rw [setStage_stage, if_neg hne]
    exact h.later u k hk
  · intro u hu
    rw [Exits.current, setStage_stage]
    split
    · next hself =>
      obtain ⟨rfl, hk⟩ := hself
      exact hout hk.symm hu
    · exact h.out u hu

lemma Kept.install (h : Kept s) {cmd : Cores.Command} (he : s.machine.execute cmd = some (a, w))
    (hexit : ∀ t, cmd ≠ .exit t) (hcreate : cmd ≠ .createJ ∧ cmd ≠ .createD) :
    Kept (s.install a) := by
  have hafter : s.after cmd a w = s.install a := by
    have hnone (u : ThreadId) : (Event.mk s.books cmd w a.books).creates u = false := by
      rw [Event.creates, beq_eq_false_iff_ne.mpr hcreate.1, beq_eq_false_iff_ne.mpr hcreate.2]
      rfl
    simp only [Exits.after, hnone, Bool.false_eq_true, if_false]
    rfl
  exact hafter ▸ h.command hexit he

lemma Kept.exit (h : Kept s) (hr : s.books.running tid = true) {x : Stage}
    (he : s.machine.execute (.exit tid) = some (a, w)) (hasked : ∀ d, x ≠ .asked d)
    (hagain : ∀ d, x ≠ .again d)
    (hstranded : entryDetached (s.books.entry tid) = true → x = .exited ∨ x = .leaving true) :
    Kept ((s.install a).setStage tid (s.generation tid) x) := by
  obtain ⟨heff, hrest⟩ := execute_iff h.atRest he
  have hbooks : a.books = (s.books.exit tid).1 := fst_of_some heff
  have hguard : exitRunning (.exit tid) s.books := hr
  have hstage (u : ThreadId) (k : ℕ) :
      ((s.install a).setStage tid (s.generation tid) x).stage u k =
        if u = tid ∧ k = s.generation tid then x else s.stage u k := setStage_stage _ _ _ _ _ _
  refine ⟨hrest, h.allocates.effect hguard heff, h.consistent.effect heff, ?_, ?_, ?_, ?_, ?_⟩
  · intro u k d hu
    rw [hstage] at hu
    split at hu
    · exact absurd hu (hasked d)
    · next hne =>
      obtain ⟨hk, hrun, hd⟩ := h.asked u k d hu
      have hut : u ≠ tid := fun heq => hne ⟨heq, by rw [hk, heq]⟩
      refine ⟨hk, ?_, hd.trans ?_⟩
      · have hrunning := exit_running s.books tid u
        rw [hrun, bne_iff_ne.mpr hut, ← hbooks] at hrunning
        exact hrunning
      · have hdetached := exit_detached s.books tid u
        rw [← hbooks] at hdetached
        exact hdetached.symm
  · intro u k d
    rw [hstage]
    split
    · exact hagain d
    · exact h.again u k d
  · intro u hu
    have hu' : Stranded (s.books.exit tid).1 u := hbooks ▸ hu
    have hcurrent : ((s.install a).setStage tid (s.generation tid) x).current u =
      if u = tid ∧ s.generation u = s.generation tid then x else s.current u := hstage u _
    rw [hcurrent]
    rcases exit_stranded hu' with hold | ⟨rfl, hdetached⟩
    · have hut : u ≠ tid := by
        rintro rfl
        rw [Books.running, hold.1] at hr
        cases hr
      rw [if_neg fun hself => hut hself.1]
      exact h.stranded u hold
    · rw [if_pos ⟨rfl, rfl⟩]
      exact hstranded hdetached
  · intro u k hk
    have hne : ¬ (u = tid ∧ k = s.generation tid) := by
      rintro ⟨rfl, rfl⟩
      exact Nat.lt_irrefl _ hk
    rw [hstage, if_neg hne]
    exact h.later u k hk
  · intro u hu
    have hrunning : (s.books.exit tid).1.running u = true := hbooks ▸ hu
    rw [exit_running, Bool.and_eq_true, bne_iff_ne] at hrunning
    have hcurrent : ((s.install a).setStage tid (s.generation tid) x).current u =
      if u = tid ∧ s.generation u = s.generation tid then x else s.current u := hstage u _
    rw [hcurrent, if_neg fun hself => hrunning.2 hself.1]
    exact h.out u hrunning.1

end Steps

section Runs

variable {s s' : Exits} {tid : ThreadId} {g : ℕ} {a : Managed} {w : Word}

lemma Kept.absurd_running (h : Kept s) {x : Stage} (hstage : s.stage tid g = x)
    (hg : g = s.generation tid) (hx : x ≠ .staying) (hasked : ∀ d, x ≠ .asked d)
    (hr : s.books.running tid = true) : False := by
  have hcurrent : s.current tid = x := by rw [Exits.current, ← hg, hstage]
  rcases h.out tid hr with hstaying | ⟨d, hd⟩
  · exact hx (hcurrent.symm.trans hstaying)
  · exact hasked d (hcurrent.symm.trans hd)

lemma Kept.ask (h : Kept s) (hr : s.books.running tid = true)
    (he : s.machine.execute (.isDetached tid) = some (a, w)) :
    Kept ((s.install a).setStage tid (s.generation tid) (.asked (w != 0))) := by
  obtain ⟨heff, -⟩ := execute_iff h.atRest he
  have hbooks : (s.install a).books = s.books := fst_of_some heff
  have hinstall := h.install he (fun _ => nofun) ⟨nofun, nofun⟩
  refine hinstall.setStage (Nat.le_refl _) (fun d hd => ⟨rfl, ?_, ?_⟩) nofun (fun _ hs => ?_)
    fun _ _ => .inr ⟨_, rfl⟩
  · rw [hbooks]
    exact hr
  · rw [hbooks, ← isDetached_word (used_of_running hr)]
    cases hd
    rw [snd_of_some heff]
    rfl
  · rw [hbooks] at hs
    rw [Books.running, hs.1] at hr
    cases hr

lemma Kept.askHal (h : Kept s) (hstage : s.stage tid g = .exited)
    (he : s.machine.execute (.isDetached tid) = some (a, w)) :
    Kept ((s.install a).setStage tid g (.leaving (w != 0))) := by
  obtain ⟨heff, -⟩ := execute_iff h.atRest he
  have hbooks : (s.install a).books = s.books := fst_of_some heff
  have hinstall := h.install he (fun _ => nofun) ⟨nofun, nofun⟩
  refine hinstall.setStage (h.le_generation (by rw [hstage]; nofun)) nofun nofun (fun _ hs => ?_)
    fun hg hr => (hinstall.absurd_running hstage hg nofun nofun hr).elim
  rw [hbooks] at hs
  have hused : s.books.used tid = true := entryUsed_of_status (by rw [hs.1]; rfl)
  have hword : (w != 0) = true := by
    rw [snd_of_some heff]
    exact (isDetached_word hused).trans hs.2
  exact .inr (congrArg Stage.leaving hword)

lemma Kept.clear (h : Kept s) (hstage : s.stage tid g = .leaving true)
    (he : s.machine.execute (.clear tid) = some (a, w)) :
    Kept ((s.install a).setStage tid g .gone) := by
  obtain ⟨heff, -⟩ := execute_iff h.atRest he
  have hbooks : (s.install a).books = (s.books.clear tid).1 := fst_of_some heff
  have hinstall := h.install he (fun _ => nofun) ⟨nofun, nofun⟩
  refine hinstall.setStage (h.le_generation (by rw [hstage]; nofun)) nofun nofun (fun _ hs => ?_)
    fun hg hr => (hinstall.absurd_running hstage hg nofun nofun hr).elim
  have hrec := clear_record s.books tid tid
  rw [hbooks] at hs
  split at hrec
  · have hzero := entryStatus_of_record (e := 0) hrec
    rw [hs.1] at hzero
    cases hzero
  · next hno => exact absurd ⟨(entryStatus_of_record hrec).symm.trans hs.1, rfl⟩ hno

lemma Kept.step (h : Kept s) (hs : s.Step .keeping s') : Kept s' := by
  cases hs with
  | command he hexit => exact h.command hexit he
  | ask hr _ he => exact h.ask hr he
  | @exitHost tid g destroy a w hstage hrule he =>
    obtain ⟨rfl, hr, rfl⟩ := h.asked tid g destroy hstage
    obtain ⟨heff, -⟩ := execute_iff h.atRest he
    have hword : hasError w = false := by
      rw [snd_of_some heff]
      exact hrule
    have hafter : Stage.afterExit (some (entryDetached (s.books.entry tid))) w =
        .leaving (entryDetached (s.books.entry tid)) := by
      rw [Stage.afterExit, if_neg (Bool.eq_false_iff.mp hword)]
    rw [hafter]
    exact h.exit hr he nofun nofun fun hd => .inr (congrArg Stage.leaving hd)
  | exitBoot hr _ hboot he =>
    exact h.exit hr he nofun nofun fun hd => absurd (hd.symm.trans hboot) Bool.noConfusion
  | @exitHal tid a w hr _ hrule he =>
    obtain ⟨heff, -⟩ := execute_iff h.atRest he
    have hword : hasError w = false := by
      rw [snd_of_some heff]
      exact hrule
    have hafter : Stage.afterExit none w = .exited := by
      rw [Stage.afterExit, if_neg (Bool.eq_false_iff.mp hword)]
    rw [hafter]
    exact h.exit hr he nofun nofun fun _ => .inl rfl
  | exitAgain hstage => exact absurd hstage (h.again _ _ _)
  | askHal hstage he => exact h.askHal hstage he
  | clear hstage he => exact h.clear hstage he
  | @leave tid g hstage =>
    refine h.setStage (h.le_generation (by rw [hstage]; nofun)) nofun nofun (fun hg hs => ?_)
      fun hg hr => (h.absurd_running hstage hg nofun nofun hr).elim
    have hcurrent : s.current tid = .leaving false := by rw [Exits.current, ← hg, hstage]
    rcases h.stranded tid hs with hexited | hleaving
    · rw [hcurrent] at hexited
      cases hexited
    · rw [hcurrent] at hleaving
      cases hleaving

lemma Exits.Reachable.kept (h : s.Reachable .keeping) : Kept s := by
  induction h with
  | @reset a a' ha hreset =>
    obtain ⟨c, hc, hrest, hbooks⟩ := softReset_books ha
    rw [hreset] at hc
    cases hc
    have hstart : Exits.books ⟨a', fun _ => 0, fun _ _ => .staying⟩ = .initial := hbooks
    refine ⟨hrest, hstart ▸ allocates_initial, hstart ▸ consistent_initial, nofun, nofun, ?_,
      fun _ _ _ => rfl, fun _ _ => .inl rfl⟩
    intro tid htid
    have hused : Books.initial.used tid = true := by
      rw [hstart] at htid
      exact entryUsed_of_status (by rw [htid.1]; rfl)
    rw [initial_used] at hused
    cases hused
  | step _ hs ih => exact ih.step hs

lemma Kept.reclaimed (h : Kept s) : Reclaimed s := by
  have hcount (hs : s.Settled) : allIds.countP s.books.used =
      allIds.countP s.books.running + allIds.countP (waitsForJoin s.books) := by
    refine countP_used h.consistent (fun tid htid => ?_) allIds
    have hsettled := hs tid (s.generation tid)
    rcases h.stranded tid htid with hexited | hleaving
    · exact hsettled (by rw [show s.stage tid _ = _ from hexited]; trivial)
    · exact hsettled (by rw [show s.stage tid _ = _ from hleaving]; trivial)
  refine ⟨h.allocates, fun tid hgone hused => ?_, hcount, fun hs hlt cmd a w hcmd he => ?_⟩
  · rw [← Bool.not_eq_true]
    intro hdetached
    rw [used_iff h.consistent, Bool.or_eq_true, beq_iff_eq] at hused
    rcases hused with hr | hexited
    · exact h.absurd_running hgone rfl nofun nofun hr
    · rcases h.stranded tid ⟨hexited, hdetached⟩ with hstage | hstage
      · rw [hgone] at hstage
        cases hstage
      · rw [hgone] at hstage
        cases hstage
  · obtain ⟨heff, -⟩ := execute_iff h.atRest he
    rw [← Bool.not_eq_true]
    intro hfull
    have hall := ((step_create h.allocates hcmd heff).full hcmd).mp hfull
    have hlength : allIds.countP s.books.used = allIds.length :=
      List.countP_eq_length.mpr fun tid _ => hall tid
    rw [← hcount hs, hlength, allIds, List.length_map, List.length_range] at hlt
    exact Nat.lt_irrefl _ hlt

end Runs

/-- Ids are reclaimed in every run in which no detached thread is ended by the boot loop of a slave
and no EXIT of the host or the HAL is answered with an error. -/
theorem detached_ids_reclaimed (s : Exits) (hs : s.Reachable .keeping) : Reclaimed s :=
  hs.kept.reclaimed

lemma Exits.Reachable.atRest {rules : ExitRules} {s : Exits} (h : s.Reachable rules) :
    s.machine.AtRest := by
  induction h with
  | reset ha hreset =>
    obtain ⟨c, hc, hrest, -⟩ := softReset_books ha
    rw [hreset] at hc
    cases hc
    exact hrest
  | step _ hs ih =>
    cases hs with
    | command he _ | ask _ _ he | exitHost _ _ he | exitBoot _ _ _ he | exitHal _ _ _ he
    | exitAgain _ _ he | askHal _ he | clear _ he => exact (execute_iff ih he).2
    | leave _ => exact ih

lemma Exits.Reachable.execute {rules : ExitRules} {s : Exits} (h : s.Reachable rules)
    (cmd : Cores.Command) {b b' : Books} {w : Word} (hb : s.books = b)
    (he : cmd.effect b = some (b', w)) :
    ∃ a, s.machine.execute cmd = some (a, w) ∧ a.books = b' := by
  obtain ⟨a, hexec, -, hbooks⟩ := execute_some h.atRest (hb ▸ he)
  exact ⟨a, hexec, hbooks⟩

def oneDetached : Books := (Books.initial.create cCreateThreadD).1

lemma exists_created (rules : ExitRules) : ∃ s : Exits, s.Reachable rules ∧
    s.books = oneDetached ∧ ∀ tid g, s.stage tid g = .staying := by
  obtain ⟨a, ha, -, hbooks⟩ := softReset_books (a := .powerUp) ⟨rfl, rfl⟩
  have hreset : Exits.Reachable rules ⟨a, fun _ => 0, fun _ _ => .staying⟩ := .reset ⟨rfl, rfl⟩ ha
  obtain ⟨a', hexec, hbooks'⟩ := hreset.execute .createD hbooks rfl
  exact ⟨_, .step hreset (.command hexec fun _ => nofun), hbooks', fun _ _ => rfl⟩

-- the first thread is detached and ends on the host
theorem detached_id_reclaimed_on_host :
    ∃ s : Exits, s.current 0 = .gone ∧ s.books.used 0 = false ∧ Reclaimed s := by
  obtain ⟨s₁, hs₁, hbooks₁, hstage₁⟩ := exists_created .keeping
  have hrun : s₁.books.running 0 = true := by
    rw [hbooks₁]
    decide
  have hask : (Cores.Command.isDetached 0).effect oneDetached = some (oneDetached, 2) := by
    have hdetached : (entryDetached (oneDetached.entry 0) && entryUsed (oneDetached.entry 0)) =
      true := by decide
    rw [Cores.Command.effect, if_pos hdetached]
  have hword : (oneDetached.exit 0).2 = 0 := by decide
  obtain ⟨a₂, hexec₂, hbooks₂⟩ := hs₁.execute (.isDetached 0) hbooks₁ hask
  have hs₂ := hs₁.step (.ask hrun (hstage₁ 0 _) hexec₂)
  have hexit : (Cores.Command.exit 0).effect oneDetached = some ((oneDetached.exit 0).1, 0) := by
    rw [Cores.Command.effect, ← hword]
  obtain ⟨a₃, hexec₃, hbooks₃⟩ := hs₂.execute (.exit 0) hbooks₂ hexit
  have hrule : ExitRules.keeping.exit a₂.books 0 := by
    change hasError (a₂.books.exit 0).2 = false
    rw [hbooks₂, hword]
    rfl
  have hs₃ := hs₂.step (.exitHost (setStage_self _ _ _ _) hrule hexec₃)
  have hleaving : Stage.afterExit (some ((2 : Word) != 0)) 0 = .leaving true := rfl
  rw [hleaving] at hs₃
  have hcleared : ((oneDetached.exit 0).1.clear 0).2 = 0 := by decide
  have hclear : (Cores.Command.clear 0).effect (oneDetached.exit 0).1 =
      some (((oneDetached.exit 0).1.clear 0).1, 0) := by
    rw [Cores.Command.effect, ← hcleared]
  obtain ⟨a₄, hexec₄, hbooks₄⟩ := hs₃.execute (.clear 0) hbooks₃ hclear
  have hs₄ := hs₃.step (.clear (setStage_self _ _ _ _) hexec₄)
  refine ⟨_, setStage_self _ _ _ _, ?_, detached_ids_reclaimed _ hs₄⟩
  have hfinal : (((oneDetached.exit 0).1.clear 0).1).used 0 = false := by decide
  rw [← hbooks₄] at hfinal
  exact hfinal

/-- The first thread is detached, and the boot loop of a slave ends it. -/
theorem detached_id_lost_on_slave : ¬ ∀ s : Exits, s.Reachable .any → Reclaimed s := by
  intro hclaim
  obtain ⟨s, hs, hbooks, hstage⟩ := exists_created .any
  have hrun : s.books.running 0 = true := by
    rw [hbooks]
    decide
  obtain ⟨a, hexec, hbooks'⟩ := hs.execute (.exit 0) hbooks rfl
  have hended := hs.step (.exitBoot hrun (hstage 0 _) trivial hexec)
  have hsettled : ((s.install a).setStage 0 (s.generation 0) .gone).Settled := by
    intro tid g hprogress
    rw [setStage_stage] at hprogress
    split at hprogress
    · exact hprogress
    · rw [Exits.install, hstage] at hprogress
      exact hprogress
  have hcount := (hclaim _ hended).count hsettled
  have hfinal : ((s.install a).setStage 0 (s.generation 0) .gone).books =
    (oneDetached.exit 0).1 := hbooks'
  rw [hfinal] at hcount
  revert hcount
  decide +kernel

end Hthreads.Software
