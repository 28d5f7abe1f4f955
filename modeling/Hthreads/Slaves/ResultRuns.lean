import Hthreads.Slaves.ResultSteps

/-! The steps of a join keep the invariant, and joins deliver over whole runs. -/

namespace Hthreads.Slaves

open Library Library.BitFields Scheduler ThreadManager Cores Software

section Joins

variable {s : Results} {k : ℕ} {j : Joining} {a : Managed} {w : Word}

lemma Truthful.only (h : Truthful s) (hj : s.joins k = some j) (he : j.phase.early = true) {k' : ℕ}
    {j' : Joining} (hj' : s.joins k' = some j') (he' : j'.phase.early = true) (hth : j'.th = j.th) :
    k' = k :=
  h.unique k' k j' j hj' hj hth he' he

lemma ThreadOk.matches {v : View} {n : ℕ} {life : ℕ → Life} {out : ℕ → Option Outcome} {t : Tcb}
    (h : ThreadOk v n life out t) (hrunning : v.running = false)
    (hborn : v.used = true ∨ ∃ o, out n = some o) : ∃ o, out n = some o ∧ t.Matches o := by
  have hidle : v.running ≠ true := fun hr => Bool.noConfusion (hr.symm.trans hrunning)
  have hnow := h.now
  cases hlife : life n with
  | unborn =>
    rw [hlife] at hnow
    obtain ⟨-, hunused, hnone⟩ := hnow
    rcases hborn with hused | ⟨o, ho⟩
    · exact Bool.noConfusion (hused.symm.trans hunused)
    · rw [hnone] at ho
      cases ho
  | setup _ _ | running _ | exiting _ _ _ _ =>
    rw [hlife] at hnow
    exact absurd hnow.1 hidle
  | again _ _ _ =>
    rw [hlife] at hnow
    exact hnow.elim
  | exited | gone =>
    rw [hlife] at hnow
    exact hnow.2
  | leaving _ =>
    rw [hlife] at hnow
    exact hnow.2.2

lemma Truthful.child (h : Truthful s) (hj : s.joins k = some j) (he : j.phase.early = true)
    (hphase : j.phase ≠ .blocked) :
    ∃ o, s.outcome j.th j.generation = some o ∧ (s.tcb j.th).Matches o := by
  obtain ⟨hgen, hused, -, hrunning⟩ := (h.joins k j hj).early he
  have hmatches := (h.threads j.th).matches (hrunning hphase) (.inl hused)
  rw [← hgen] at hmatches
  exact hmatches

lemma Truthful.join (h : Truthful s) {th : ThreadId} {hal : Bool} {phase : Phase}
    (hrule : ResultRules.keeping.join s th) (he : s.machine.execute (.join th) = some (a, w))
    (hphase : joinPhase w = some phase) :
    Truthful ((s.install a).setPhase k ⟨th, s.generation th, hal, phase⟩ phase) := by
  obtain ⟨heff, -⟩ := execute_iff h.atRest he
  have hbooks : (s.install a).books = (s.books.join th).1 := fst_of_some heff
  rw [snd_of_some heff] at hphase
  obtain ⟨hused, hdetached, hcases⟩ := join_view h.consistent hphase
  have hview : viewOf (s.install a).books th = viewOf s.books th := by rw [hbooks, view_join]
  refine (h.joinRefused he).setPhase ?_ fun _ k' j' hj' he' hth => absurd hth (hrule k' j' hj' he')
  refine ⟨fun _ => ⟨rfl, ?_, ?_, fun hne => ?_⟩, fun x hx => ?_, fun x t ht => ?_, le_rfl,
    fun hlate => ?_⟩
  · rw [hview]
    exact hused
  · rw [hview]
    exact hdetached
  · rw [hview]
    rcases hcases with hblocked | ⟨-, hidle⟩
    · exact absurd hblocked hne
    · exact hidle
  · rcases hcases with rfl | ⟨rfl, -⟩ <;> cases hx
  · rcases hcases with rfl | ⟨rfl, -⟩ <;> cases ht
  · rcases hcases with rfl | ⟨rfl, -⟩ <;> cases hlate

lemma Truthful.goOn (h : Truthful s) {phase : Phase} (hj : s.joins k = some j)
    (he : j.phase.early = true) (he' : phase.early = true)
    (hrunning : s.books.running j.th = false)
    (hvalue : ∀ x, phase.value = some x →
      ∃ o, s.outcome j.th j.generation = some o ∧ x = o.value) :
    Truthful (s.setPhase k j phase) := by
  have hok := h.joins k j hj
  obtain ⟨hgen, hused, hdetached, -⟩ := hok.early he
  refine h.setPhase ⟨fun _ => ⟨hgen, hused, hdetached, fun _ => hrunning⟩, hvalue, fun x t ht => ?_,
    hok.le, fun hlate => ?_⟩ fun _ k' j' hj' => h.only hj he hj'
  · have hphase : phase = .finished x t := ht
    rw [hphase] at he'
    cases he'
  · exact Bool.noConfusion (he'.symm.trans hlate)

lemma Truthful.ready (h : Truthful s) {phase : Phase} (hj : s.joins k = some j)
    (hready : j.phase = .ready) (he : phase.early = true) (hvalue : phase.value = none) :
    Truthful (s.setPhase k j phase) := by
  have hearly : j.phase.early = true := by rw [hready]; rfl
  obtain ⟨-, -, -, hrunning⟩ := (h.joins k j hj).early hearly
  refine h.goOn hj hearly he (hrunning (by rw [hready]; nofun)) fun x hx => ?_
  rw [hvalue] at hx
  cases hx

lemma Truthful.store (h : Truthful s) {x : Huint} (hj : s.joins k = some j)
    (he : j.phase.early = true) (hphase : j.phase ≠ .blocked)
    (hx : ∀ o, s.outcome j.th j.generation = some o → (s.tcb j.th).Matches o → x = o.value) :
    Truthful (s.setPhase k j (.stored (some x))) := by
  obtain ⟨-, -, -, hrunning⟩ := (h.joins k j hj).early he
  obtain ⟨o, ho, hmatches⟩ := h.child hj he hphase
  refine h.goOn hj he rfl (hrunning hphase) fun y hy => ⟨o, ho, ?_⟩
  cases hy
  exact hx o ho hmatches

lemma Truthful.askJoin (h : Truthful s) {value : Option Huint} (hj : s.joins k = some j)
    (hphase : j.phase = .stored value)
    (he : s.machine.execute (.isDetached j.th) = some (a, w)) :
    Truthful ((s.install a).setPhase k j (if w = 0 then .clearing value else .returned value)) := by
  obtain ⟨hinstall, hbooks, hdetached, -⟩ := h.isDetached he
  have hearly : j.phase.early = true := by rw [hphase]; rfl
  obtain ⟨-, -, hjoinable, hrunning⟩ := (h.joins k j hj).early hearly
  have hzero : w = 0 := by
    by_contra hne
    exact Bool.noConfusion ((hdetached (bne_iff_ne.mpr hne)).2.symm.trans hjoinable)
  rw [if_pos hzero]
  refine hinstall.goOn hj hearly rfl ?_ fun x hx => ?_
  · rw [hbooks]
    exact hrunning (by rw [hphase]; nofun)
  · refine (h.joins k j hj).value x ?_
    rw [hphase]
    exact hx

lemma setLife_self (s : Results) (tid : ThreadId) (g : ℕ) : s.setLife tid g (s.life tid g) = s := by
  rw [Results.setLife, Function.update_eq_self, Function.update_eq_self]

lemma Truthful.clearJoin (h : Truthful s) {value : Option Huint} (hj : s.joins k = some j)
    (hphase : j.phase = .clearing value)
    (he : s.machine.execute (.clear j.th) = some (a, w)) :
    Truthful ((s.install a).setPhase k j (.returned value)) := by
  have hearly : j.phase.early = true := by rw [hphase]; rfl
  have hblocked : j.phase ≠ .blocked := by rw [hphase]; nofun
  have hok := h.joins k j hj
  obtain ⟨hgen, hused, hjoinable, hrunning⟩ := hok.early hearly
  obtain ⟨o, ho, hmatches⟩ := h.child hj hearly hblocked
  have hreturned : Truthful (s.setPhase k j (.returned value)) := by
    refine h.setPhase ⟨nofun, fun x hx => hok.value x ?_, nofun, hok.le,
      fun _ => ⟨⟨o, ho⟩, fun _ => hrunning hblocked⟩⟩ nofun
    rw [hphase]
    exact hx
  -- the join itself has given the id up, and there is no other one
  have hlate : ∀ k' j', (s.setPhase k j (.returned value)).joins k' = some j' → j'.th = j.th →
      j'.phase.early = false := by
    intro k' j' hj' hth
    rw [setPhase_joins] at hj'
    split at hj'
    · cases hj'
      rfl
    · next hne =>
      rw [← Bool.not_eq_true]
      exact fun he' => hne (h.only hj hearly hj' he' hth)
  have hnow := (h.threads j.th).now
  rw [← hgen] at hnow
  have hcleared :=
    hreturned.clearing hgen (hrunning hblocked) he hlate (x := s.life j.th j.generation)
    fun v hv hv' => ?_
  · have hsame := setLife_self ((s.install a).setPhase k j (.returned value)) j.th j.generation
    rw [← hsame]
    exact hcleared
  · change (s.life j.th j.generation).Now v (s.outcome j.th j.generation) (s.tcb j.th)
    cases hlife : s.life j.th j.generation with
    | unborn =>
      rw [hlife] at hnow
      exact ⟨hv, hv', hnow.2.2⟩
    | setup _ _ | running _ | exiting _ _ _ _ =>
      rw [hlife] at hnow
      exact Bool.noConfusion (hnow.1.symm.trans (hrunning hblocked))
    | again _ _ _ =>
      rw [hlife] at hnow
      exact hnow
    | exited | gone => exact ⟨hv, o, ho, hmatches⟩
    | leaving destroy =>
      rw [hlife] at hnow
      refine ⟨hv, fun hd => ?_, o, ho, hmatches⟩
      exact Bool.noConfusion ((hnow.2.1 hd).2.symm.trans hjoinable)

lemma Truthful.time (h : Truthful s) {value : Option Huint} (hj : s.joins k = some j)
    (hphase : j.phase = .returned value) (hrule : ResultRules.keeping.time s j) :
    Truthful (s.setPhase k j (.finished value (s.tcb j.th).executionTime)) := by
  have hok := h.joins k j hj
  have hlate : j.phase.early = false := by rw [hphase]; rfl
  obtain ⟨⟨o, ho⟩, hrunning⟩ := hok.after hlate
  obtain ⟨hgen, hreturned⟩ := hrule
  have hsome : ∃ o, s.outcome j.th (s.generation j.th) = some o := by
    rw [hgen]
    exact ⟨o, ho⟩
  obtain ⟨o', ho', hmatches⟩ := (h.threads j.th).matches (hrunning hgen.symm) (.inr hsome)
  rw [hgen] at ho'
  refine h.setPhase ⟨nofun, fun x hx => hok.value x ?_, fun x t ht => ⟨o', ho', ?_⟩, hok.le,
    fun _ => ⟨⟨o, ho⟩, hrunning⟩⟩ nofun
  · rw [hphase]
    exact hx
  · cases ht
    exact hmatches.2 (hreturned o' ho')

end Joins

section Runs

variable {s s' : Results}

lemma Truthful.step (h : Truthful s) (hs : s.Step .keeping s') : Truthful s' := by
  cases hs with
  | command hquiet he => exact h.command hquiet he
  | create hc he => exact h.create hc he
  | setup hlife => exact h.setup hlife
  | start hlife => exact h.start hlife
  | finish hlife _ => exact h.finish hlife _ _ _
  | write hlife _ => exact h.write hlife
  | ask hlife he => exact h.ask hlife he
  | exit hlife hrule he => exact h.exit hlife hrule he
  | @exitAgain tid g path place destroy a w hlife _ _ =>
    -- no EXIT has failed
    have hg : g = s.generation tid := (h.threads tid).eq_of_not_past (by rw [hlife]; exact id)
    have hnow := (h.threads tid).now
    rw [← hg, hlife] at hnow
    exact hnow.elim
  | askHal hlife hrule he => exact h.askHal hlife hrule he
  | clear hlife he => exact h.clear hlife he
  | leave hlife => exact h.leave hlife
  | join _ hrule he hphase => exact h.join hrule he hphase
  | joinRefused he _ => exact h.joinRefused he
  | resume hj hphase hrule =>
    exact h.goOn hj (by rw [hphase]; rfl) rfl hrule nofun
  | skip hj hphase => exact h.ready hj hphase rfl rfl
  | fetch hj _ hphase =>
    exact h.store hj (by rw [hphase]; rfl) (by rw [hphase]; nofun) fun _ _ hm => hm.1
  | locate hj _ hphase => exact h.ready hj hphase rfl rfl
  | fetchHost hj hphase =>
    exact h.store hj (by rw [hphase]; rfl) (by rw [hphase]; nofun) fun _ _ hm => hm.1
  | fetchSlave hj hphase hrule =>
    refine h.store hj (by rw [hphase]; rfl) (by rw [hphase]; nofun) fun o ho _ => ?_
    obtain ⟨o', ho', hresult⟩ := h.writer _ _ _ hrule
    rw [ho] at ho'
    cases ho'
    exact hresult
  | askJoin hj hphase he => exact h.askJoin hj hphase he
  | clearJoin hj hphase he => exact h.clearJoin hj hphase he
  | time hj _ hphase hrule => exact h.time hj hphase hrule

lemma Results.Reachable.truthful (h : s.Reachable .keeping) : Truthful s := by
  induction h with
  | @reset a a' tcb result ha hreset =>
    obtain ⟨c, hc, hrest, hbooks⟩ := softReset_books ha
    rw [hreset] at hc
    cases hc
    have hstart : (Results.start a' tcb result).books = .initial := hbooks
    refine ⟨hrest, hstart ▸ allocates_initial, hstart ▸ consistent_initial, fun tid => ?_, nofun,
      nofun, nofun⟩
    have hunused : (viewOf (Results.start a' tcb result).books tid).used = false := by
      rw [hstart]
      exact initial_used tid
    refine ⟨fun _ _ => ⟨rfl, rfl⟩, nofun, ?_, hunused, rfl⟩
    rw [← Bool.not_eq_true]
    intro hrunning
    exact Bool.noConfusion ((used_of_running hrunning).symm.trans hunused)
  | step _ hs ih => exact ih.step hs

end Runs

/-- Joins deliver in every run in which no EXIT is answered with an error, the HAL asks whether a
thread is detached before its id is given away, joins of one thread do not overlap and wait for its
EXIT, the HAL reads a result register that the child was the last to write, and the execution time
is read of a child that returned, before its id is given away. -/
theorem results_delivered (s : Results) (hs : s.Reachable .keeping) : s.Delivered :=
  ⟨fun k j v hj hv => (hs.truthful.joins k j hj).value v hv,
    fun k j v t hj ht => (hs.truthful.joins k j hj).time v t ht⟩

section OneChild

variable {rules : ResultRules} {s : Results}

lemma Results.Reachable.atRest (h : s.Reachable rules) : s.machine.AtRest := by
  induction h with
  | reset ha hreset =>
    obtain ⟨c, hc, hrest, -⟩ := softReset_books ha
    rw [hreset] at hc
    cases hc
    exact hrest
  | step _ hs ih =>
    cases hs with
    | command _ he | create _ he | ask _ he | exit _ _ he | exitAgain _ _ he | askHal _ _ he
    | clear _ he | join _ _ he _ | joinRefused he _ | askJoin _ _ he | clearJoin _ _ he =>
      exact (execute_iff ih he).2
    | setup _ | start _ | finish _ _ | write _ _ | leave _ | resume _ _ _ | skip _ _ | fetch _ _ _
    | locate _ _ _ | fetchHost _ _ | fetchSlave _ _ _ | time _ _ _ _ => exact ih

lemma Results.Reachable.execute (h : s.Reachable rules) (cmd : Cores.Command) {b b' : Books}
    {w : Word} (hb : s.books = b) (he : cmd.effect b = some (b', w)) :
    ∃ a, s.machine.execute cmd = some (a, w) ∧ a.books = b' := by
  obtain ⟨a, hexec, -, hbooks⟩ := execute_some h.atRest (hb ▸ he)
  exact ⟨a, hexec, hbooks⟩

lemma setPhase_get (s : Results) (k : ℕ) (j : Joining) (phase : Phase) :
    (s.setPhase k j phase).joins k = some { j with phase := phase } := Function.update_self _ _ _

lemma setLife_get (s : Results) (tid : ThreadId) (g : ℕ) (x : Life) :
    (s.setLife tid g x).life tid g = x := by
  rw [setLife_life_self, Function.update_self]

-- the first thread has been created, added and dispatched
def mainRuns : Books := ((Books.initial.create cCreateThreadJ).1.add 0).1.next.1

def oneChild : Books := (mainRuns.create cCreateThreadJ).1

lemma Results.Reachable.create (h : s.Reachable rules) {b b' : Books} (place : Option ℕ)
    (tid : ThreadId) (hb : s.books = b)
    (hcreate : b.create cCreateThreadJ = (b', 0#23 ++ tid ++ 0#1)) :
    ∃ a : Managed, (s.bear place .createJ a (0#23 ++ tid ++ 0#1)).Reachable rules ∧
      a.books = b' := by
  have heff : Cores.Command.createJ.effect b = some (b', 0#23 ++ tid ++ 0#1) :=
    congrArg some hcreate
  obtain ⟨a, hexec, hbooks⟩ := h.execute .createJ hb heff
  exact ⟨a, h.step (.create (.inl rfl) hexec), hbooks⟩

lemma Results.Reachable.command (h : s.Reachable rules) (cmd : Cores.Command)
    (hquiet : quiet cmd = true) {b b' : Books} {w : Word} (hb : s.books = b)
    (heff : cmd.effect b = some (b', w)) :
    ∃ a : Managed, (s.install a).Reachable rules ∧ a.books = b' := by
  obtain ⟨a, hexec, hbooks⟩ := h.execute cmd hb heff
  exact ⟨a, h.step (.command hquiet hexec), hbooks⟩

lemma exists_main (rules : ResultRules) (result : ℕ → Huint) :
    ∃ s : Results, s.Reachable rules ∧ s.books = mainRuns ∧ s.generation 1 = 0 ∧
      s.result = result ∧ s.joins = fun _ => none := by
  obtain ⟨a, ha, -, hbooks⟩ := softReset_books (a := .powerUp) ⟨rfl, rfl⟩
  have hreset : Results.Reachable rules (.start a (fun _ => ⟨0, 0, none⟩) result) :=
    .reset ⟨rfl, rfl⟩ ha
  have hword : (Books.initial.create cCreateThreadJ).2 = 0#23 ++ (0 : ThreadId) ++ 0#1 := by
    decide
  obtain ⟨a₁, h₁, hbooks₁⟩ := hreset.create none 0 hbooks (Prod.ext rfl hword)
  obtain ⟨a₂, h₂, hbooks₂⟩ := h₁.command (.add 0) rfl hbooks₁ rfl
  have hvalid :
      (((Books.initial.create cCreateThreadJ).1.add 0).1).ready.nextThreadValid = true := by
    decide
  have hnext : Cores.Command.next.effect ((Books.initial.create cCreateThreadJ).1.add 0).1 =
      some ((Books.initial.create cCreateThreadJ).1.add 0).1.next := by
    rw [Cores.Command.effect, if_pos hvalid]
  obtain ⟨a₃, h₃, hbooks₃⟩ := h₂.command .next rfl hbooks₂ hnext
  exact ⟨_, h₃, hbooks₃, rfl, rfl, rfl⟩

lemma exists_child (rules : ResultRules) (place : Option ℕ) (result : ℕ → Huint) :
    ∃ s : Results, s.Reachable rules ∧ s.books = oneChild ∧ s.life 1 1 = .running place ∧
      s.generation 1 = 1 ∧ (s.tcb 1).hardware = place ∧ s.result = result ∧
      s.joins = fun _ => none := by
  obtain ⟨s, hs, hbooks, hgeneration, hresult, hjoins⟩ := exists_main rules result
  have hword : (mainRuns.create cCreateThreadJ).2 = 0#23 ++ (1 : ThreadId) ++ 0#1 := by
    decide
  obtain ⟨a, hborn, hbooks'⟩ := hs.create place 1 hbooks (Prod.ext rfl hword)
  have hcreates : (Event.mk s.books .createJ (0#23 ++ (1 : ThreadId) ++ 0#1) a.books).creates 1 =
    true := rfl
  have hlife : (s.bear place .createJ a (0#23 ++ (1 : ThreadId) ++ 0#1)).life 1 1 =
      .setup place (setupTasks place) := by
    simp only [Results.bear, hcreates, if_true, hgeneration]
    exact Function.update_self _ _ _
  have hgeneration' :
      (s.bear place .createJ a (0#23 ++ (1 : ThreadId) ++ 0#1)).generation 1 = 1 := by
    simp only [Results.bear, hcreates, if_true, hgeneration]
  have h₁ := hborn.step (.setup hlife)
  have h₂ := h₁.step (.setup (setLife_get _ _ _ _))
  have h₃ := h₂.step (.setup (setLife_get _ _ _ _))
  have h₄ := h₃.step (.start (setLife_get _ _ _ _))
  refine ⟨_, h₄, hbooks', setLife_get _ _ _ _, hgeneration', ?_, hresult, hjoins⟩
  simp only [Results.setLife, Results.perform, Function.update_self]
  rfl

lemma Results.Reachable.finish (h : s.Reachable rules) {tid : ThreadId} {g : ℕ} {place : Option ℕ}
    (path : Path) (value : Huint) (time : Time) (hlife : s.life tid g = .running place)
    (hpath : path.onHost = place.isNone) :
    ((s.setOutcome tid g ⟨value, time, path.returns⟩).setLife tid g
      (.exiting path place false (path.tasks value time))).Reachable rules :=
  h.step (.finish hlife hpath)

def childGone : Books := (oneChild.exit 1).1

lemma exit_oneChild : (Cores.Command.exit 1).effect oneChild = some (childGone, 0) := by
  have hword : (oneChild.exit 1).2 = 0 := by decide
  rw [Cores.Command.effect, childGone, ← hword]

lemma join_childGone : (Cores.Command.join 1).effect childGone = some (childGone, 3) := by
  have hallowed : joinAllowed (childGone.entry 1) childGone.currentCpuThread = true := by
    decide
  have hexited : bit (childGone.entry 1) 27 = false := by decide
  rw [Cores.Command.effect, join_terminated hallowed hexited]
  rfl

/-- The child has passed seven to `hthread_exit` on the host before it is joined there. -/
theorem seven_delivered : ∃ s : Results, s.Delivered ∧
    (s.joins 0).map Joining.phase = some (.stored (some 7)) := by
  obtain ⟨s, hs, hbooks, hlife, hgeneration, -, -, hjoins⟩ := exists_child .keeping none fun _ => 0
  have h₁ := hs.finish .hostExit 7 0 hlife rfl
  have hask : (Cores.Command.isDetached 1).effect oneChild = some (oneChild, 0) := by
    have hjoinable :
        (entryDetached (oneChild.entry 1) && entryUsed (oneChild.entry 1)) = false := by
      decide
    rw [Cores.Command.effect, hjoinable]
    rfl
  obtain ⟨a₂, hexec₂, hbooks₂⟩ := h₁.execute (.isDetached 1) hbooks hask
  have h₂ := h₁.step (.ask (setLife_get _ _ _ _) hexec₂)
  have h₃ := h₂.step (.write (setLife_get _ _ _ _) (by simp))
  obtain ⟨a₄, hexec₄, hbooks₄⟩ := h₃.execute (.exit 1) hbooks₂ exit_oneChild
  have hrule : ResultRules.keeping.exit a₂.books 1 := by
    change hasError (a₂.books.exit 1).2 = false
    rw [hbooks₂]
    decide
  have h₄ := h₃.step (.exit (setLife_get _ _ _ _) hrule hexec₄)
  obtain ⟨a₅, hexec₅, hbooks₅⟩ := h₄.execute (.join 1) hbooks₄ join_childGone
  have hfree (k : ℕ) : s.joins k = none := congrFun hjoins k
  have hrule' : ∀ k j, s.joins k = some j → j.phase.early = true → j.th ≠ 1 := by
    intro k j hj
    rw [hfree k] at hj
    cases hj
  have h₅ : (Results.setPhase _ 0 ⟨1, _, false, .ready⟩ .ready).Reachable .keeping :=
    h₄.step (.join (hfree 0) hrule' hexec₅ rfl)
  have h₆ := h₅.step (.fetch (setPhase_get _ _ _ _) rfl rfl)
  refine ⟨_, results_delivered _ h₆, ?_⟩
  rw [setPhase_get]
  simp only [Results.setPhase, Results.setLife, Results.perform, Results.install,
    Function.update_self]
  rfl

/-- The child has returned NULL in the boot loop of a slave, whose result register holds a five. -/
theorem old_result_delivered : ¬ ∀ s : Results, s.Reachable .any → s.Delivered := by
  intro hclaim
  obtain ⟨s, hs, hbooks, hlife, hgeneration, hhardware, hresult, hjoins⟩ :=
    exists_child .any (some 0) fun _ => 5
  have h₁ := hs.finish .boot null 0 hlife rfl
  have h₂ := h₁.step (.write (setLife_get _ _ _ _) nofun)
  obtain ⟨a₃, hexec₃, hbooks₃⟩ := h₂.execute (.exit 1) hbooks exit_oneChild
  have h₃ := h₂.step (.exit (setLife_get _ _ _ _) trivial hexec₃)
  obtain ⟨a₄, hexec₄, hbooks₄⟩ := h₃.execute (.join 1) hbooks₃ join_childGone
  have h₄ : (Results.setPhase _ 0 ⟨1, _, true, .ready⟩ .ready).Reachable .any :=
    h₃.step (.join (congrFun hjoins 0) trivial hexec₄ rfl)
  have h₅ := h₄.step (.locate (setPhase_get _ _ _ _) rfl rfl)
  have hlocated : Phase.located (Task.apply (s.tcb 1) (.executionTime 0)).hardware =
    .located (some 0) := congrArg Phase.located hhardware
  have h₆ := h₅.step (.fetchSlave (setPhase_get _ _ _ _) (by
    simp only [Results.setPhase, Results.setLife, Results.setOutcome, Results.perform,
      Results.install, Function.update_self]
    exact hlocated) trivial)
  obtain ⟨o, ho, hvalue⟩ := (hclaim _ h₆).value 0 _ _ (setPhase_get _ _ _ _) rfl
  have houtcome : o = ⟨null, 0, true⟩ := by
    simp only [Results.setPhase, Results.setLife, Results.setOutcome, Results.perform,
      Results.install, Function.update_self, hgeneration, Option.some.injEq] at ho
    exact ho.symm
  have hfive : (5 : Huint) = o.value := by
    rw [← hvalue]
    exact (congrFun hresult 0).symm
  rw [houtcome] at hfive
  exact absurd hfive (by decide)

end OneChild

end Hthreads.Slaves
