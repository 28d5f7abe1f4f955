import Hthreads.Slaves.Truthful

/-! The steps of a thread, from its CREATE to its CLEAR, keep the invariant. -/

namespace Hthreads.Slaves

open Library Library.BitFields Scheduler ThreadManager Cores Software

section Writes

variable {s : Results} {tid : ThreadId} {g : ℕ} {place : Option ℕ} {task : Task} {todo : List Task}

lemma setLife_life_self (s : Results) (tid : ThreadId) (g : ℕ) (x : Life) :
    (s.setLife tid g x).life tid = Function.update (s.life tid) g x := Function.update_self _ _ _

lemma setLife_life_of_ne (s : Results) {tid u : ThreadId} (hu : u ≠ tid) (g : ℕ) (x : Life) :
    (s.setLife tid g x).life u = s.life u := Function.update_of_ne hu _ _

lemma perform_writer {p k : ℕ} {u : ThreadId}
    (h : (s.perform tid g place task).writer p = some (u, k)) :
    (s.writer p = some (u, k) ∧ (s.perform tid g place task).result p = s.result p) ∨
      (u = tid ∧ k = g ∧ ∃ value, task = .result value ∧
        (s.perform tid g place task).result p = value) := by
  cases hregister : task.register place with
  | none =>
    simp only [Results.perform, hregister] at h ⊢
    exact .inl ⟨h, trivial⟩
  | some target =>
    obtain ⟨q, value⟩ := target
    simp only [Results.perform, hregister] at h ⊢
    by_cases hp : p = q
    · subst hp
      rw [Function.update_self] at h ⊢
      cases h
      cases task with
      | result value' =>
        obtain ⟨_, _, heq⟩ := Option.map_eq_some_iff.mp hregister
        cases heq
        exact .inr ⟨rfl, rfl, value, rfl, rfl⟩
      | retval _ | executionTime _ | hardware _ | ask => cases hregister
    · rw [Function.update_of_ne hp] at h ⊢
      exact .inl ⟨h, rfl⟩

lemma Truthful.perform (h : Truthful s) {x : Life} (hg : g = s.generation tid)
    (hnow : x.Now (viewOf s.books tid) (s.outcome tid g) (task.apply (s.tcb tid)))
    (hresult : ∀ value, task = .result value → ∃ o, s.outcome tid g = some o ∧ value = o.value) :
    Truthful ((s.perform tid g place task).setLife tid g x) := by
  refine h.here tid rfl rfl rfl (fun u hu => ⟨?_, rfl, ?_⟩) ?_ (fun _ _ ho => ho) ?_
  · exact setLife_life_of_ne _ hu _ _
  · exact Function.update_of_ne hu _ _
  · have htcb : ((s.perform tid g place task).setLife tid g x).tcb tid = task.apply (s.tcb tid) :=
      Function.update_self _ _ _
    have hok := (h.threads tid).setNow (x := x) (fun _ _ => rfl) (hg ▸ hnow)
    rw [setLife_life_self, htcb]
    rw [← hg] at hok ⊢
    exact hok
  · intro p u k hp
    rcases perform_writer hp with hold | ⟨rfl, rfl, value, htask, hvalue⟩
    · exact .inl hold
    · obtain ⟨o, ho, heq⟩ := hresult value htask
      exact .inr ⟨o, ho, hvalue.trans heq⟩

lemma Truthful.setup (h : Truthful s) (hlife : s.life tid g = .setup place (task :: todo)) :
    Truthful ((s.perform tid g place task).setLife tid g (.setup place todo)) := by
  have hg : g = s.generation tid := (h.threads tid).eq_of_not_past (by rw [hlife]; exact id)
  have hnow := (h.threads tid).now
  rw [← hg, hlife] at hnow
  obtain ⟨hrunning, hnone, hno, hretval⟩ := hnow
  refine h.perform hg ⟨hrunning, hnone, fun value hv => ?_, hretval⟩ fun value hv => ?_
  · exact hno value (List.mem_cons_of_mem _ hv)
  · exact absurd (hv ▸ List.mem_cons_self) (hno value)

lemma Truthful.write (h : Truthful s) {path : Path} {destroy : Bool}
    (hlife : s.life tid g = .exiting path place destroy (task :: todo)) :
    Truthful ((s.perform tid g place task).setLife tid g (.exiting path place destroy todo)) := by
  have hg : g = s.generation tid := (h.threads tid).eq_of_not_past (by rw [hlife]; exact id)
  have hnow := (h.threads tid).now
  rw [← hg, hlife] at hnow
  obtain ⟨hrunning, hdestroy, out, hout, hresults, hmatches⟩ := hnow
  refine h.perform hg ⟨hrunning, hdestroy, out, hout, fun value hv => ?_, hmatches⟩
    fun value hv => ?_
  · exact hresults value (List.mem_cons_of_mem _ hv)
  · exact ⟨out, hout, hresults value (hv ▸ List.mem_cons_self)⟩

lemma Truthful.setLife (h : Truthful s) {x : Life}
    (hnow : g = s.generation tid → x.Now (viewOf s.books tid) (s.outcome tid g) (s.tcb tid))
    (hpast : g < s.generation tid → x.Past) (hle : g ≤ s.generation tid) :
    Truthful (s.setLife tid g x) := by
  refine h.here tid rfl rfl rfl (fun u hu => ⟨setLife_life_of_ne _ hu _ _, rfl, rfl⟩) ?_
    (fun _ _ ho => ho) fun _ _ _ hp => .inl ⟨hp, rfl⟩
  rw [setLife_life_self]
  rcases Nat.eq_or_lt_of_le hle with heq | hlt
  · have hok := (h.threads tid).setNow (x := x) (fun _ _ => rfl) (heq ▸ hnow heq)
    rw [← heq] at hok ⊢
    exact hok
  · exact (h.threads tid).setPast hlt (hpast hlt)

lemma Truthful.start (h : Truthful s) (hlife : s.life tid g = .setup place []) :
    Truthful (s.setLife tid g (.running place)) := by
  have hg : g = s.generation tid := (h.threads tid).eq_of_not_past (by rw [hlife]; exact id)
  have hnow := (h.threads tid).now
  rw [← hg, hlife] at hnow
  obtain ⟨hrunning, hnone, -, hretval⟩ := hnow
  exact h.setLife (fun _ => ⟨hrunning, hnone, hretval⟩) (fun hlt => absurd hg (Nat.ne_of_lt hlt))
    (Nat.le_of_eq hg)

lemma Path.tasks_result {path : Path} {value v : Huint} {time : Time}
    (h : .result v ∈ path.tasks value time) : v = value := by
  cases path with
  | boot =>
    rw [Path.tasks] at h
    split at h <;> simp_all
  | hostReturn | hostExit | hal => simp [Path.tasks] at h

lemma Path.tasks_matches (path : Path) (value : Huint) (time : Time) {t : Tcb}
    (ht : t.retval = null) :
    ((path.tasks value time).foldl Task.apply t).Matches ⟨value, time, path.returns⟩ := by
  cases path with
  | hostReturn => exact ⟨rfl, fun _ => rfl⟩
  | hostExit | hal => exact ⟨rfl, nofun⟩
  | boot =>
    rw [Path.tasks]
    split
    · exact ⟨rfl, fun _ => rfl⟩
    · next hnull =>
      rw [ne_eq, not_not] at hnull
      exact ⟨ht.trans hnull.symm, fun _ => rfl⟩

lemma Truthful.finish (h : Truthful s) (hlife : s.life tid g = .running place) (path : Path)
    (value : Huint) (time : Time) :
    Truthful ((s.setOutcome tid g ⟨value, time, path.returns⟩).setLife tid g
      (.exiting path place false (path.tasks value time))) := by
  have hg : g = s.generation tid := (h.threads tid).eq_of_not_past (by rw [hlife]; exact id)
  have hnow := (h.threads tid).now
  rw [← hg, hlife] at hnow
  obtain ⟨hrunning, hnone, hretval⟩ := hnow
  have hself (k : ℕ) : (s.setOutcome tid g ⟨value, time, path.returns⟩).outcome tid k =
      if k = g then some ⟨value, time, path.returns⟩ else s.outcome tid k := by
    simp only [Results.setOutcome, Function.update_self, Function.update_apply]
  have hother (u : ThreadId) (hu : u ≠ tid) :
      (s.setOutcome tid g ⟨value, time, path.returns⟩).outcome u = s.outcome u :=
    Function.update_of_ne hu _ _
  refine h.here tid rfl rfl rfl
    (fun u hu => ⟨setLife_life_of_ne _ hu _ _, hother u hu, rfl⟩) ?_ ?_ ?_
  · rw [setLife_life_self, ← hg]
    have hok := h.threads tid
    rw [← hg] at hok
    refine hok.setNow (fun k hk => (hself k).trans (if_neg (Nat.ne_of_gt hk))) ?_
    refine ⟨hrunning, nofun, _, (hself g).trans (if_pos rfl), fun v hv => Path.tasks_result hv, ?_⟩
    exact path.tasks_matches value time hretval
  · intro k o ho
    refine (hself k).trans ((if_neg ?_).trans ho)
    rintro rfl
    rw [hnone] at ho
    cases ho
  · exact fun _ _ _ hp => .inl ⟨hp, rfl⟩

end Writes

section Commands

variable {s : Results} {tid : ThreadId} {g : ℕ} {a : Managed} {w : Word}

lemma exitRunning_of_not_exit {cmd : Cores.Command} {b : Books} (h : ∀ t, cmd ≠ .exit t) :
    exitRunning cmd b := by
  cases cmd with
  | exit t => exact absurd rfl (h t)
  | createJ | createD | clear _ | join _ | add _ | next | yield | isQueued _ | isDetached _
  | read _ | current => trivial

lemma Truthful.command (h : Truthful s) {cmd : Cores.Command} (hquiet : quiet cmd = true)
    (he : s.machine.execute cmd = some (a, w)) : Truthful (s.install a) := by
  obtain ⟨heff, hrest⟩ := execute_iff h.atRest he
  have hguard : exitRunning cmd s.books := exitRunning_of_not_exit (by rintro t rfl; cases hquiet)
  exact h.install hrest (h.allocates.effect hguard heff) (h.consistent.effect heff)
    (view_quiet hquiet heff)

lemma creates_unique {e : Event} {u : ThreadId} (hu : e.creates u = true)
    (htid : e.creates tid = true) : u = tid := by
  rw [Event.creates, Bool.and_eq_true, beq_iff_eq] at hu htid
  rw [← slice_created u, ← slice_created tid, ← hu.2, ← htid.2]

lemma ThreadOk.bear {v v' : View} {n : ℕ} {life : ℕ → Life} {out : ℕ → Option Outcome} {t : Tcb}
    {place : Option ℕ} (h : ThreadOk v n life out t) (hused : v.running = true → v.used = true)
    (hunused : v.used = false) (hrunning : v'.running = true) :
    ThreadOk v' (n + 1) (Function.update life (n + 1) (.setup place (setupTasks place))) out t where
  later k hk := by
    rw [Function.update_of_ne (by omega)]
    exact h.later k (by omega)
  past k hk := by
    rw [Function.update_of_ne (by omega)]
    rcases Nat.lt_or_eq_of_le (Nat.lt_succ_iff.mp hk) with hlt | rfl
    · exact h.past k hlt
    · have hidle : v.running ≠ true := fun hr => Bool.noConfusion ((hused hr).symm.trans hunused)
      have hnow := h.now
      cases hlife : life k with
      | unborn | exited | gone => trivial
      | setup _ _ | running _ | exiting _ _ _ _ =>
        rw [hlife] at hnow
        exact absurd hnow.1 hidle
      | again _ _ _ =>
        rw [hlife] at hnow
        exact hnow
      | leaving destroy =>
        rw [hlife] at hnow
        cases destroy with
        | false => trivial
        | true => exact Bool.noConfusion ((hnow.2.1 rfl).1.symm.trans hunused)
  now := by
    rw [Function.update_self]
    refine ⟨hrunning, (h.later _ (Nat.lt_succ_self n)).2, fun value hv => ?_, rfl⟩
    simp [setupTasks] at hv

lemma Truthful.create (h : Truthful s) {cmd : Cores.Command} {place : Option ℕ}
    (hc : cmd = .createJ ∨ cmd = .createD) (he : s.machine.execute cmd = some (a, w)) :
    Truthful (s.bear place cmd a w) := by
  obtain ⟨heff, hrest⟩ := execute_iff h.atRest he
  have hguard : exitRunning cmd s.books :=
    exitRunning_of_not_exit (by rintro t rfl; rcases hc with hc | hc <;> cases hc)
  have hallocates := h.allocates.effect hguard heff
  have hconsistent := h.consistent.effect heff
  by_cases hborn : ∃ tid, (Event.mk s.books cmd w a.books).creates tid = true
  · obtain ⟨tid, htid⟩ := hborn
    have hother (u : ThreadId) (hu : u ≠ tid) :
        (Event.mk s.books cmd w a.books).creates u = false := by
      rw [← Bool.not_eq_true]
      exact fun hcreates => hu (creates_unique hcreates htid)
    have hunused : s.books.used tid = false := by
      rw [← Bool.not_eq_true]
      intro hused
      rw [not_creates_of_used h.allocates heff hused] at htid
      cases htid
    have hgeneration : (s.bear place cmd a w).generation tid = s.generation tid + 1 := if_pos htid
    refine h.thread tid hrest hallocates hconsistent (fun u hu => ⟨?_, ?_, ?_, rfl, rfl⟩) ?_ rfl ?_
      ⟨?_, ?_⟩ (fun _ _ ho => ho) fun _ _ _ hp => .inl ⟨hp, rfl⟩
    · exact view_create hc heff (hother u hu)
    · exact if_neg (Bool.eq_false_iff.mp (hother u hu))
    · exact if_neg (Bool.eq_false_iff.mp (hother u hu))
    · have hlife : (s.bear place cmd a w).life tid = Function.update (s.life tid)
        (s.generation tid + 1) (.setup place (setupTasks place)) := if_pos htid
      rw [hgeneration, hlife]
      exact (h.threads tid).bear used_of_running hunused (created_running heff htid)
    · intro k j hj hth hearly
      obtain ⟨-, hused, -, -⟩ := (h.joins k j hj).early hearly
      rw [hth] at hused
      rw [show s.books.used tid = true from hused] at hunused
      cases hunused
    · rw [hgeneration]
      exact Nat.le_succ _
    · intro hsame
      rw [hgeneration] at hsame
      omega
  · have hnone (u : ThreadId) : (Event.mk s.books cmd w a.books).creates u = false := by
      rw [← Bool.not_eq_true]
      exact fun hcreates => hborn ⟨u, hcreates⟩
    have hbear : s.bear place cmd a w = s.install a := by
      simp only [Results.bear, hnone, Bool.false_eq_true, if_false]
      rfl
    rw [hbear]
    exact h.install hrest hallocates hconsistent fun u => view_create hc heff (hnone u)

lemma Truthful.joinRefused (h : Truthful s) {th : ThreadId}
    (he : s.machine.execute (.join th) = some (a, w)) : Truthful (s.install a) := by
  obtain ⟨heff, hrest⟩ := execute_iff h.atRest he
  refine h.install hrest (h.allocates.effect (exitRunning_of_not_exit (by nofun)) heff)
    (h.consistent.effect heff) fun u => ?_
  rw [fst_of_some heff]
  exact view_join th u

lemma Truthful.isDetached (h : Truthful s)
    (he : s.machine.execute (.isDetached tid) = some (a, w)) :
    Truthful (s.install a) ∧ (s.install a).books = s.books ∧
      ((w != 0) = true → s.books.used tid = true ∧ entryDetached (s.books.entry tid) = true) ∧
      (w = 0 → s.books.used tid = true → entryDetached (s.books.entry tid) = false) := by
  obtain ⟨heff, -⟩ := execute_iff h.atRest he
  have hword : w = if entryDetached (s.books.entry tid) && entryUsed (s.books.entry tid) then 0b10
    else 0 := snd_of_some heff
  refine ⟨h.command rfl he, fst_of_some heff, fun hne => ?_, fun hzero hused => ?_⟩
  · rw [hword] at hne
    split at hne
    · next hboth =>
      rw [Bool.and_eq_true] at hboth
      exact ⟨hboth.2, hboth.1⟩
    · exact absurd hne (by decide)
  · have hone := isDetached_word hused
    rw [← hword, hzero] at hone
    exact hone.symm

lemma Truthful.ask (h : Truthful s) {path : Path} {place : Option ℕ} {destroy : Bool}
    {todo : List Task} (hlife : s.life tid g = .exiting path place destroy (.ask :: todo))
    (he : s.machine.execute (.isDetached tid) = some (a, w)) :
    Truthful ((s.install a).setLife tid g (.exiting path place (w != 0) todo)) := by
  obtain ⟨hinstall, hbooks, hdetached, -⟩ := h.isDetached he
  have hg : g = s.generation tid := (h.threads tid).eq_of_not_past (by rw [hlife]; exact id)
  have hnow := (h.threads tid).now
  rw [← hg, hlife] at hnow
  obtain ⟨hrunning, -, out, hout, hresults, hmatches⟩ := hnow
  refine hinstall.setLife (fun _ => ?_) (fun hlt => absurd hg (Nat.ne_of_lt hlt)) (Nat.le_of_eq hg)
  rw [hbooks]
  exact ⟨hrunning, fun hw => (hdetached hw).2, out, hout,
    fun value hv => hresults value (List.mem_cons_of_mem _ hv), hmatches⟩

lemma afterExit_of_ok {path : Path} {place : Option ℕ} {destroy : Bool}
    (hw : hasError w = false) :
    Life.afterExit path place destroy w = .gone ∨ Life.afterExit path place destroy w = .exited ∨
      Life.afterExit path place destroy w = .leaving destroy := by
  cases path with
  | boot => exact .inl rfl
  | hal => exact .inr (.inl (if_neg (Bool.eq_false_iff.mp hw)))
  | hostReturn | hostExit => exact .inr (.inr (if_neg (Bool.eq_false_iff.mp hw)))

lemma Truthful.exit (h : Truthful s) {path : Path} {place : Option ℕ} {destroy : Bool}
    (hlife : s.life tid g = .exiting path place destroy [])
    (hrule : hasError (s.books.exit tid).2 = false)
    (he : s.machine.execute (.exit tid) = some (a, w)) :
    Truthful ((s.install a).setLife tid g (.afterExit path place destroy w)) := by
  obtain ⟨heff, hrest⟩ := execute_iff h.atRest he
  have hbooks : (s.install a).books = (s.books.exit tid).1 := fst_of_some heff
  have hg : g = s.generation tid := (h.threads tid).eq_of_not_past (by rw [hlife]; exact id)
  have hnow := (h.threads tid).now
  rw [← hg, hlife] at hnow
  obtain ⟨hrunning, hdestroy, out, hout, -, hmatches⟩ := hnow
  have hguard : exitRunning (.exit tid) s.books := hrunning
  have hview : viewOf ((s.install a).setLife tid g (.afterExit path place destroy w)).books tid =
      ⟨false, true, entryDetached (s.books.entry tid)⟩ := by
    rw [← view_exit_self, ← hbooks]
    rfl
  refine h.thread tid hrest (h.allocates.effect hguard heff) (h.consistent.effect heff)
    (fun u hu => ⟨?_, rfl, setLife_life_of_ne _ hu _ _, rfl, rfl⟩) ?_ rfl ?_ ⟨le_rfl, ?_⟩
    (fun _ _ ho => ho) fun _ _ _ hp => .inl ⟨hp, rfl⟩
  · have hsame := view_exit_of_ne (b := s.books) hu
    rw [← hbooks] at hsame
    exact hsame
  · rw [hview, setLife_life_self]
    have hok := h.threads tid
    rw [← hg] at hok
    have hgen :
        ((s.install a).setLife tid g (.afterExit path place destroy w)).generation tid = g :=
      hg.symm
    rw [hgen]
    refine hok.setNow (fun _ _ => rfl) ?_
    have hword : hasError w = false := by
      rw [snd_of_some heff]
      exact hrule
    rcases afterExit_of_ok hword with hafter | hafter | hafter
    · rw [hafter]
      exact ⟨rfl, out, hout, hmatches⟩
    · rw [hafter]
      exact ⟨rfl, out, hout, hmatches⟩
    · rw [hafter]
      exact ⟨rfl, fun hd => ⟨rfl, hdestroy hd⟩, out, hout, hmatches⟩
  · intro k j hj hth hearly
    obtain ⟨-, hused, -, -⟩ := (h.joins k j hj).early hearly
    rw [hth] at hused
    rw [hview]
    exact ⟨rfl, hused.symm, rfl⟩
  · intro _ _
    rw [hview]

lemma Truthful.askHal (h : Truthful s) (hlife : s.life tid g = .exited)
    (hrule : s.generation tid = g) (he : s.machine.execute (.isDetached tid) = some (a, w)) :
    Truthful ((s.install a).setLife tid g (.leaving (w != 0))) := by
  obtain ⟨hinstall, hbooks, hdetached, -⟩ := h.isDetached he
  have hnow := (h.threads tid).now
  rw [hrule, hlife] at hnow
  obtain ⟨hrunning, out, hout, hmatches⟩ := hnow
  refine hinstall.setLife (fun _ => ?_) (fun hlt => absurd hrule.symm (Nat.ne_of_lt hlt))
    (Nat.le_of_eq hrule.symm)
  rw [hbooks]
  exact ⟨hrunning, hdetached, out, hout, hmatches⟩

lemma Truthful.clearing (h : Truthful s) {x : Life} (hg : g = s.generation tid)
    (hrunning : s.books.running tid = false)
    (he : s.machine.execute (.clear tid) = some (a, w))
    (hearly : ∀ k j, s.joins k = some j → j.th = tid → j.phase.early = false)
    (hnow : ∀ v, v.running = false → v.used = false → x.Now v (s.outcome tid g) (s.tcb tid)) :
    Truthful ((s.install a).setLife tid g x) := by
  obtain ⟨heff, hrest⟩ := execute_iff h.atRest he
  have hbooks : (s.install a).books = (s.books.clear tid).1 := fst_of_some heff
  obtain ⟨hidle, hunused⟩ := view_clear_self h.consistent hrunning
  have hguard : exitRunning (.clear tid) s.books := exitRunning_of_not_exit (by nofun)
  refine h.thread tid hrest (h.allocates.effect hguard heff) (h.consistent.effect heff)
    (fun u hu => ⟨?_, rfl, setLife_life_of_ne _ hu _ _, rfl, rfl⟩) ?_ rfl ?_ ⟨le_rfl, ?_⟩
    (fun _ _ ho => ho) fun _ _ _ hp => .inl ⟨hp, rfl⟩
  · have hsame := view_clear_of_ne (b := s.books) hu
    rw [← hbooks] at hsame
    exact hsame
  · rw [setLife_life_self]
    have hok := h.threads tid
    rw [← hg] at hok
    have hgen : ((s.install a).setLife tid g x).generation tid = g := hg.symm
    rw [hgen]
    refine hok.setNow (fun _ _ => rfl) (hnow _ ?_ ?_)
    · rw [← hidle, ← hbooks]
      rfl
    · rw [← hunused, ← hbooks]
      rfl
  · intro k j hj hth he
    rw [hearly k j hj hth] at he
    cases he
  · intro _ _
    rw [← hidle, ← hbooks]
    rfl

lemma Truthful.clear (h : Truthful s) (hlife : s.life tid g = .leaving true)
    (he : s.machine.execute (.clear tid) = some (a, w)) :
    Truthful ((s.install a).setLife tid g .gone) := by
  have hg : g = s.generation tid := (h.threads tid).eq_of_not_past (by rw [hlife]; exact id)
  have hnow := (h.threads tid).now
  rw [← hg, hlife] at hnow
  obtain ⟨hrunning, hleaving, out, hout, hmatches⟩ := hnow
  refine h.clearing hg hrunning he (fun k j hj hth => ?_) fun v hv _ => ⟨hv, out, hout, hmatches⟩
  -- a thread that is joined is not detached
  rw [← Bool.not_eq_true]
  intro hearly
  obtain ⟨-, -, hjoinable, -⟩ := (h.joins k j hj).early hearly
  rw [hth, (hleaving rfl).2] at hjoinable
  cases hjoinable

lemma Truthful.leave (h : Truthful s) (hlife : s.life tid g = .leaving false) :
    Truthful (s.setLife tid g .gone) := by
  refine h.setLife (fun hg => ?_) (fun _ => trivial) ?_
  · have hnow := (h.threads tid).now
    rw [← hg, hlife] at hnow
    exact ⟨hnow.1, hnow.2.2⟩
  · by_contra hlt
    rw [((h.threads tid).later g (Nat.lt_of_not_le hlt)).1] at hlife
    cases hlife

end Commands

end Hthreads.Slaves
