import Hthreads.Slaves.BootLoop

/-! When a slave comes back to its boot loop from the thread that it was given. -/

namespace Hthreads.Slaves

open Library Software

/-- What the rest of the system answers to a slave while it works for one thread: anything, except
that the id in its V-HWTI is the one of the thread. Every GO that is waited for comes. -/
structure Answers where
  tid : Huint
  answer : List Access → Access → Answer
  tid_eq : ∀ issued, (answer issued (.read .tid)).word = tid

-- the accesses issued so far are all that is remembered
def Answers.step (E : Answers) : Access → List Access → Option (List Access × Answer)
  | .spin, _ => none
  | a, issued => some (issued ++ [a], E.answer issued a)

/-- The accesses that end a thread: EXIT_THREAD, and the write that frees the slave. -/
def Access.ends : Access → Bool
  | .manager (.exit _) => true
  | .write .utilized _ => true
  | _ => false

-- neither that nor a loop without an end
def Access.plain (a : Access) : Bool := !a.ends && a != .spin

/-- A thread that was given to a slave. -/
structure Given where
  answers : Answers
  body : Body

/-- The slave issues EXIT for this thread once, frees itself after that, and is in its boot loop
again. -/
def Given.ComesBack (n : ℕ) (g : Given) : Prop :=
  ∃ issued, (Code.bootRound n fun _ _ => g.body).run g.answers.step [] = some (issued, ()) ∧
    issued.filter Access.ends =
      [.manager (.exit (g.answers.tid.setWidth 8)), .write .utilized flagHwtiFree]

/-- The slave is given one thread after the other, the next one when it is back. -/
def ComesBackEach (n : ℕ) : List Given → Prop
  | [] => True
  | g :: rest => g.ComesBack n ∧ ComesBackEach n rest

def Ending.Returns : Ending → Prop
  | returns _ => True
  | exits _ => False

section Emitting

variable {α β : Type} {E : Answers} {p : Code α} {l r : List Access} {Q : α → Prop}

/-- The code always comes to its end, with these accesses among those that end a thread and with a
result of this kind. -/
def Emits (E : Answers) (p : Code α) (l : List Access) (Q : α → Prop) : Prop :=
  ∀ issued, ∃ more a, p.run E.step issued = some (issued ++ more, a) ∧
    more.filter Access.ends = l ∧ Q a

lemma Emits.pure {a : α} (h : Q a) : Emits E (Pure.pure a) [] Q := fun issued =>
  ⟨[], a, by rw [Program.run_pure, List.append_nil], rfl, h⟩

lemma Emits.bind {f : α → Code β} {R : β → Prop} (hp : Emits E p l Q)
    (hf : ∀ a, Q a → Emits E (f a) r R) : Emits E (p >>= f) (l ++ r) R := by
  intro issued
  obtain ⟨more, a, hrun, hmore, ha⟩ := hp issued
  obtain ⟨rest, b, hrun', hrest, hb⟩ := hf a ha (issued ++ more)
  refine ⟨more ++ rest, b, ?_, ?_, hb⟩
  · rw [Program.run_bind, hrun, Option.bind_some, hrun', List.append_assoc]
  · rw [List.filter_append, hmore, hrest]

lemma Emits.issue {a : Access} (ha : a ≠ .spin) :
    Emits E (Program.issue a) (if a.ends then [a] else []) fun answer =>
      ∃ issued, answer = E.answer issued a := by
  intro issued
  refine ⟨[a], E.answer issued a, ?_, ?_, issued, rfl⟩
  · rw [Program.run_issue]
    cases a <;> first | rfl | exact absurd rfl ha
  · rw [List.filter_cons, List.filter_nil]

lemma Emits.mono {R : α → Prop} (hp : Emits E p l Q) (h : ∀ a, Q a → R a) : Emits E p l R := by
  intro issued
  obtain ⟨more, a, hrun, hmore, ha⟩ := hp issued
  exact ⟨more, a, hrun, hmore, h a ha⟩

-- code that neither exits nor frees the slave, whatever it finds out
def Quiet (E : Answers) (p : Code α) : Prop := Emits E p [] fun _ => True

lemma Quiet.pure (a : α) : Quiet E (Pure.pure a : Code α) := Emits.pure trivial

lemma Quiet.bind {f : α → Code β} (hp : Quiet E p) (hf : ∀ a, Quiet E (f a)) :
    Quiet E (p >>= f) :=
  Emits.bind hp fun a _ => hf a

lemma Quiet.then {f : α → Code β} {R : β → Prop} (hp : Quiet E p)
    (hf : ∀ a, Emits E (f a) l R) : Emits E (p >>= f) l R :=
  Emits.bind hp fun a _ => hf a

lemma Quiet.ite {c : Prop} [Decidable c] {q : Code α} (hp : Quiet E p) (hq : Quiet E q) :
    Quiet E (if c then p else q) := by
  split
  · exact hp
  · exact hq

lemma Quiet.issue {a : Access} (h : a.plain = true) : Quiet E (Program.issue a) := by
  rw [Access.plain, Bool.and_eq_true, Bool.not_eq_true', bne_iff_ne] at h
  have hissue := Emits.issue (E := E) h.2
  rw [h.1] at hissue
  exact hissue.mono fun _ _ => trivial

lemma quiet_perform {a : Access} (h : a.plain = true) : Quiet E (Code.perform a) :=
  (Quiet.issue h).bind fun _ => Quiet.pure ()

lemma quiet_read (r : Register) : Quiet E (Code.read r) :=
  Quiet.bind (Quiet.issue rfl) fun _ => Quiet.pure _

lemma quiet_time {a : Access} (h : a.plain = true) : Quiet E (Code.time a) :=
  (Quiet.issue h).bind fun _ => Quiet.pure _

end Emitting

section Pieces

variable {E : Answers}

lemma quiet_waitForGoCommand : Quiet E Code.waitForGoCommand := by
  refine Quiet.bind (quiet_perform rfl) fun _ => Quiet.bind (quiet_perform rfl) fun _ =>
    Quiet.bind (quiet_perform rfl) fun _ => Quiet.bind (quiet_time rfl) fun _ =>
    Quiet.bind (quiet_perform rfl) fun _ => quiet_perform rfl

lemma quiet_runSched (save : Bool) : Quiet E (Code.runSched save) := by
  cases save with
  | true => exact Quiet.bind (quiet_perform rfl) fun _ => quiet_perform rfl
  | false => exact Quiet.pure ()

lemma quiet_reportFirstUsed : Quiet E Code.reportFirstUsed :=
  (quiet_read _).bind fun _ => Quiet.ite
    ((quiet_read _).bind fun _ => Quiet.ite
      ((quiet_read _).bind fun _ => quiet_perform rfl) (Quiet.pure ()))
    (Quiet.pure ())

lemma quiet_reportLastUsed : Quiet E Code.reportLastUsed :=
  (quiet_read _).bind fun _ => Quiet.bind (Quiet.issue rfl) fun _ => Quiet.ite
    ((quiet_read _).bind fun _ =>
      (Quiet.ite ((quiet_read _).bind fun _ => quiet_perform rfl) (Quiet.pure ())).bind
        fun _ => (quiet_read _).bind fun _ => quiet_perform rfl)
    (Quiet.pure ())

lemma quiet_act (a : Action) : Quiet E (Code.act a) := by
  cases a with
  | lock num =>
    exact (quiet_read _).bind fun _ => Quiet.bind (Quiet.issue rfl) fun _ =>
      Quiet.ite quiet_waitForGoCommand (Quiet.pure ())
  | unlock num => exact (quiet_read _).bind fun _ => quiet_perform rfl
  | halLock num =>
    refine Quiet.bind ?_ fun _ => Quiet.pure ()
    exact (quiet_read _).bind fun _ => Quiet.bind (Quiet.issue rfl) fun _ =>
      Quiet.ite ((quiet_runSched true).bind fun _ => Quiet.pure _)
        (Quiet.ite (Quiet.pure _) (Quiet.pure _))
  | halUnlock num =>
    refine Quiet.bind ?_ fun _ => Quiet.pure ()
    exact (quiet_read _).bind fun _ => Quiet.bind (quiet_perform rfl) fun _ => Quiet.pure _

lemma quiet_actAll (actions : List Action) : Quiet E (Code.actAll actions) := by
  induction actions with
  | nil => exact Quiet.pure ()
  | cons a rest ih => exact (quiet_act a).bind fun _ => ih

lemma emits_read_tid : Emits E (Code.read .tid) [] fun tid => tid = E.tid := by
  refine (Emits.issue (by decide)).bind (r := []) fun answer hanswer => Emits.pure ?_
  obtain ⟨issued, rfl⟩ := hanswer
  exact E.tid_eq issued

lemma emits_procHwThreadExit (ret : Huint) : Emits E (Code.procHwThreadExit ret)
    [.manager (.exit (E.tid.setWidth 8)), .write .utilized flagHwtiFree] fun _ => True := by
  refine (quiet_read _).then fun _ => Quiet.then (quiet_time rfl) fun stop =>
    Quiet.then (quiet_time rfl) fun start => Quiet.then (quiet_perform rfl) fun _ =>
    (quiet_read _).then fun tid => Quiet.then (quiet_perform rfl) fun _ =>
    (Quiet.ite (Quiet.bind (quiet_perform rfl) fun _ => quiet_perform rfl)
      (Quiet.pure ())).then fun _ =>
    quiet_reportFirstUsed.then fun _ => quiet_reportLastUsed.then fun _ => ?_
  refine emits_read_tid.bind (l := []) fun tid htid => ?_
  subst htid
  have hexit : Emits E (Code.exitThread E.tid) [.manager (.exit (E.tid.setWidth 8))]
      fun _ => True :=
    (Emits.issue (by nofun)).bind (r := []) fun _ _ => Emits.pure trivial
  have hfree : Emits E (Code.perform (.write .utilized flagHwtiFree))
      [.write .utilized flagHwtiFree] fun _ => True :=
    (Emits.issue (by nofun)).bind (r := []) fun _ _ => Emits.pure trivial
  exact hexit.bind (r := [.write .utilized flagHwtiFree]) fun _ _ =>
    hfree.bind (r := []) fun _ _ => Emits.pure trivial

/-- Code that comes upon a loop without an end never ends, whatever comes before and after. -/
def Lost {α : Type} (E : Answers) (p : Code α) : Prop := ∀ issued, p.run E.step issued = none

lemma Lost.bind {α β : Type} {p : Code α} (h : Lost E p) (f : α → Code β) : Lost E (p >>= f) := by
  intro issued
  rw [Program.run_bind, h issued]
  rfl

lemma Lost.after {α β : Type} (p : Code α) {f : α → Code β} (h : ∀ a, Lost E (f a)) :
    Lost E (p >>= f) := by
  intro issued
  rw [Program.run_bind]
  cases p.run E.step issued with
  | none => rfl
  | some q => exact h q.2 q.1

lemma lost_hthreadExit (n : ℕ) (retval : Huint) : Lost E (Code.hthreadExit n retval) :=
  Lost.after _ fun _ => Lost.bind (p := Program.issue .spin) (fun _ => rfl) _

end Pieces

lemma comesBack_of_returns {n : ℕ} {g : Given} (h : g.body.ending.Returns) : g.ComesBack n := by
  obtain ⟨E, actions, ending⟩ := g
  cases ending with
  | exits retval => cases h
  | returns ret =>
    have hthread : Emits E (Code.bootstrapThread n ⟨actions, .returns ret⟩)
        [.manager (.exit (E.tid.setWidth 8)), .write .utilized flagHwtiFree] fun _ => True :=
      Quiet.then ((quiet_actAll actions).bind fun _ => Quiet.pure ret)
        fun ret => emits_procHwThreadExit ret
    have hround : Emits E (Code.bootRound n fun _ _ => ⟨actions, .returns ret⟩)
        [.manager (.exit (E.tid.setWidth 8)), .write .utilized flagHwtiFree] fun _ => True :=
      Quiet.then (quiet_perform rfl) fun _ => quiet_waitForGoCommand.then fun _ =>
        (quiet_read _).then fun _ => (quiet_read _).then fun _ => (quiet_read _).then fun _ =>
        hthread.bind (r := []) fun _ _ => Emits.pure trivial
    obtain ⟨issued, ⟨⟩, hrun, hends, -⟩ := hround []
    exact ⟨issued, hrun, hends⟩

lemma not_comesBack_of_exits {n : ℕ} {g : Given} (h : ¬ g.body.ending.Returns) :
    ¬ g.ComesBack n := by
  obtain ⟨E, actions, ending⟩ := g
  cases ending with
  | returns ret => exact absurd trivial h
  | exits retval =>
    rintro ⟨issued, hrun, -⟩
    have hlost : Lost E (Code.bootRound n fun _ _ => ⟨actions, .exits retval⟩) := by
      refine Lost.after _ fun _ => Lost.after _ fun _ => Lost.after _ fun _ => Lost.after _ fun _ =>
        Lost.after _ fun _ => Lost.bind (Lost.bind ?_ _) _
      exact Lost.after _ fun _ => (lost_hthreadExit n retval).bind _
    rw [hlost []] at hrun
    cases hrun

/-- A slave comes back to its boot loop from all the threads that it is given exactly when each of
them ends by returning from its start function. -/
theorem slave_comes_back_iff (n : ℕ) (threads : List Given) :
    ComesBackEach n threads ↔ ∀ g ∈ threads, g.body.ending.Returns := by
  induction threads with
  | nil => exact ⟨fun _ g hg => absurd hg List.not_mem_nil, fun _ => trivial⟩
  | cons g rest ih =>
    rw [ComesBackEach, ih, List.forall_mem_cons]
    refine and_congr_left fun _ => ⟨fun hback => ?_, comesBack_of_returns⟩
    by_contra hexits
    exact not_comesBack_of_exits hexits hback

/-- A thread of no actions that calls `hthread_exit`. -/
theorem slave_lost_after_hthreadExit :
    ¬ ComesBackEach 0 [⟨⟨1, fun _ _ => ⟨1, 0⟩, fun _ => rfl⟩, ⟨[], .exits 0⟩⟩] := by
  rintro ⟨hback, -⟩
  exact not_comesBack_of_exits id hback

end Hthreads.Slaves
