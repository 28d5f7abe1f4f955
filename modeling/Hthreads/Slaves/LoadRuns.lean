import Hthreads.Slaves.Loaded

/-! Whether the host knows which accelerators are loaded. -/

namespace Hthreads.Slaves

open Library Software

variable {κ : Type}

/-- NUM_AVAILABLE_HETERO_CPUS of the sixteen slaves that `perform_PR` knows are there. -/
def availableSlaves (cpus : ℕ) : List SlaveId := (List.finRange 16).filter fun i => i.val < cpus

/-- What is asked of the controllers before `init_slaves`, and of a slave that is given a thread. -/
structure LoadRules (κ : Type) where
  start : κ → Prop
  thread : Record → List (Accelerator × Huint) → Prop

def LoadRules.any : LoadRules κ := ⟨fun _ => True, fun _ _ => True⟩

/-- No earlier trigger is left, and a thread does not ask for the accelerator that its slave
remembers unless this is the one in the table. -/
def LoadRules.keeping (C : Controller κ) : LoadRules κ where
  start c := C.queue c = []
  thread v calls := v.prevLastUsed = v.acc ∨ ∀ call ∈ calls, call.1.code ≠ v.prevLastUsed

-- the boot code of a slave has run
def Record.Booted (v : Record) : Prop :=
  v.firstUsed = noAcc ∧ v.firstUsedPtr = null ∧ v.lastUsed = noAcc ∧ v.lastUsedPtr = null ∧
    v.prevLastUsed = noAcc

/-- Any sequence of reconfigurations by the host and of threads on slaves. -/
inductive Sockets.Reachable (C : Controller κ) (L : Layout) (cpus : ℕ) (rules : LoadRules κ) :
    Sockets κ → Prop
  | start {s t : Sockets κ} {n : ℕ} : (∀ i, (s i).record.Booted) →
    (∀ i, rules.start (s i).controller) →
    (SocketCode.initSlaves L n (availableSlaves cpus)).Ends (Step C L) s () t →
    Reachable C L cpus rules t
  | moves {s t : Sockets κ} : Reachable C L cpus rules s → Moves C s t → Reachable C L cpus rules t
  | reconfigure {s t : Sockets κ} {n : ℕ} {i : SlaveId} {acc : Accelerator} :
    Reachable C L cpus rules s → i ∈ availableSlaves cpus →
    (SocketCode.reconfigure n i acc).Ends (Step C L) s () t → Reachable C L cpus rules t
  | thread {s t : Sockets κ} {n : ℕ} {i : SlaveId} {funcId ret : Huint}
    {calls : List (Accelerator × Huint)} :
    Reachable C L cpus rules s → i ∈ availableSlaves cpus → rules.thread (s i).record calls →
    (SocketCode.thread L n i funcId calls ret).Ends (Step C L) s () t → Reachable C L cpus rules t

/-- The table, the V-HWTI and the socket of each slave agree, and whoever is told that a
reconfiguration succeeded has got what it asked for. -/
structure Sockets.Accurate (C : Controller κ) (L : Layout) (cpus : ℕ) (s : Sockets κ) : Prop where
  table : ∀ i ∈ availableSlaves cpus, (s i).record.acc = (s i).record.lastUsed
  register : ∀ i ∈ availableSlaves cpus, (s i).record.lastUsed = C.loaded (s i).controller
  host : ∀ i ∈ availableSlaves cpus, ∀ n (acc : Accelerator) t,
    (SocketCode.hostPerformPR n (SocketCode.slaveNum i) acc.code).Ends (Step C L) s success t →
    C.loaded (t i).controller = acc.code
  slave : ∀ i ∈ availableSlaves cpus, ∀ n (acc : Accelerator) t,
    (SocketCode.slavePerformPR n i (SocketCode.slaveNum i) acc.code).Ends (Step C L) s success t →
    C.loaded (t i).controller = acc.code

section Threads

variable {C : Controller κ} {L : Layout} (hC : C.Documented)

include hC

lemma Settled.stable (i : SlaveId) (v : Record) : C.Stable fun c => Settled C L i ⟨v, c⟩ := by
  rintro c c' hmove ⟨hacc, hready, hptr⟩
  exact ⟨hacc, hC.ready_stable _ c c' hmove hready, hptr⟩

variable {i : SlaveId} {R : SlaveId → Socket κ → Prop} {s : Sockets κ} (hR : Lasting C R)

include hR

lemma always_thread {calls : List (Accelerator × Huint)} (n : ℕ) (funcId ret : Huint)
    (hi : Settled C L i (s i)) (hothers : ∀ j, j ≠ i → R j (s j))
    (hrule : (LoadRules.keeping C).thread (s i).record calls) :
    (SocketCode.thread L n i funcId calls ret).Always (Sockets.Step C L) (fun _ t =>
      Settled C L i (t i) ∧ ∀ j, j ≠ i → R j (t j)) s := by
  obtain ⟨hacc, hready, hptr⟩ := hi
  have hat : At i (s i).record (C.Ready (s i).record.lastUsed) R s := ⟨rfl, hready, hothers⟩
  generalize (s i).record = v at hacc hptr hrule hat
  have hstable := hC.ready_stable v.lastUsed
  rw [SocketCode.thread, Program.always_bind]
  refine (hat.always_perform hR hstable fun _ _ _ => rfl).mono ?_
  rintro - t₁ ⟨c, hc, hat₁⟩
  rw [Program.always_bind, SocketCode.own, Program.always_via]
  refine ((hat₁.holding hc).always_waitForGoCommand hR hstable).mono fun _ t₂ hat₂ => ?_
  rw [Program.always_bind]
  refine (hat₂.always_callAll hC hR n).mono ?_
  rintro - t₃ ⟨w, hat₃, hafter⟩
  rw [Program.always_bind, SocketCode.own, Program.always_via]
  have hfirst : w.firstUsedPtr = L.profile funcId := hafter.firstUsedPtr
  have hlast : w.lastUsedPtr = L.entry i := hafter.lastUsedPtr.trans hptr
  refine (hat₃.always_procHwThreadExit hR (hC.ready_stable _) ret hfirst hlast).mono ?_
  rintro - t₄ hat₄
  refine ⟨?_, hat₄.others⟩
  rw [Settled, hat₄.record]
  split_ifs with hchanged
  · exact ⟨rfl, hat₄.controller, hlast⟩
  · refine ⟨?_, hat₄.controller, hlast⟩
    -- nothing is reported, so the register holds what the slave remembers
    rw [ne_eq, not_not] at hchanged
    have hprev : w.prevLastUsed = v.prevLastUsed := hafter.prevLastUsed
    have hsame : w.acc = v.acc := hafter.acc
    rw [hsame]
    rcases hrule with hknown | hnever
    · rw [hchanged, hprev, hknown]
    · rcases hafter.lastUsed with hkept | hasked
      · rw [hkept]
        exact hacc
      · obtain ⟨call, hcall, hcode⟩ := List.mem_map.mp hasked
        rw [hchanged, hprev] at hcode
        exact absurd hcode (hnever call hcall)

lemma always_reconfigure {acc : Accelerator} (n : ℕ) (hqueue : C.queue (s i).controller = [])
    (hptr : (s i).record.lastUsedPtr = L.entry i) (hothers : ∀ j, j ≠ i → R j (s j)) :
    (SocketCode.reconfigure n i acc).Always (Sockets.Step C L) (fun _ t =>
      Settled C L i (t i) ∧ ∀ j, j ≠ i → R j (t j)) s := by
  have hat : At i (s i).record (C.Ready (C.loaded (s i).controller)) R s :=
    ⟨rfl, ⟨hqueue, rfl⟩, hothers⟩
  refine (hat.always_reconfigure hC hR n).mono fun _ t ht => ⟨?_, ht.others⟩
  rw [Settled, ht.record]
  exact ⟨rfl, ht.controller, hptr⟩

def Introduced (C : Controller κ) (L : Layout) (i : SlaveId) (x : Socket κ) : Prop :=
  C.queue x.controller = [] ∧ x.record.lastUsedPtr = L.entry i

omit hC hR in
lemma Settled.introduced {x : Socket κ} (h : Settled C L i x) : Introduced C L i x :=
  ⟨h.2.1.1, h.2.2⟩

omit hR in
lemma Introduced.stable (i : SlaveId) (v : Record) : C.Stable fun c => Introduced C L i ⟨v, c⟩ := by
  rintro c c' hmove ⟨hqueue, hptr⟩
  exact ⟨(hC.idle c c' hmove hqueue).1, hptr⟩

lemma always_reconfigureAll (n : ℕ) (l : List Accelerator) (hi : Settled C L i (s i))
    (hothers : ∀ j, j ≠ i → R j (s j)) :
    (SocketCode.forEach (SocketCode.reconfigure n i) l).Always (Sockets.Step C L) (fun _ t =>
      Settled C L i (t i) ∧ ∀ j, j ≠ i → R j (t j)) s := by
  induction l generalizing s with
  | nil => exact ⟨hi, hothers⟩
  | cons acc rest ih =>
    rw [SocketCode.forEach, Program.always_bind]
    refine (always_reconfigure hC hR n hi.introduced.1 hi.introduced.2 hothers).mono ?_
    exact fun _ t ht => ih ht.1 ht.2

lemma always_selftest (n : ℕ) (hi : Introduced C L i (s i)) (hothers : ∀ j, j ≠ i → R j (s j)) :
    (SocketCode.selftest n i).Always (Sockets.Step C L) (fun _ t =>
      Settled C L i (t i) ∧ ∀ j, j ≠ i → R j (t j)) s := by
  rw [SocketCode.selftest, accelerators, SocketCode.forEach, Program.always_bind]
  refine (always_reconfigure hC hR n hi.1 hi.2 hothers).mono fun _ t ht => ?_
  exact always_reconfigureAll hC hR n _ ht.1 ht.2

lemma always_introduce (hi : C.queue (s i).controller = []) (hothers : ∀ j, j ≠ i → R j (s j)) :
    (SocketCode.introduce L i).Always (Sockets.Step C L) (fun _ t =>
      Introduced C L i (t i) ∧ ∀ j, j ≠ i → R j (t j)) s := by
  have hat : At i (s i).record (C.Ready (C.loaded (s i).controller)) R s :=
    ⟨rfl, ⟨hi, rfl⟩, hothers⟩
  have hstable := hC.ready_stable (C.loaded (s i).controller)
  rw [SocketCode.introduce, Program.always_bind]
  refine (hat.always_perform hR hstable fun _ _ _ => rfl).mono ?_
  rintro - t₁ ⟨c, hc, hat₁⟩
  rw [Program.always_bind]
  refine ((hat₁.holding hc).always_read hR hstable fun _ _ _ => rfl).mono ?_
  rintro acc t₂ ⟨c, hc, -, hat₂⟩
  rw [Program.always_bind]
  refine ((hat₂.holding hc).always_perform hR hstable fun _ _ _ => rfl).mono ?_
  rintro - t₃ ⟨c, hc, hat₃⟩
  refine ((hat₃.holding hc).always_perform hR hstable fun _ _ _ => rfl).mono ?_
  rintro - t₄ ⟨c, hc, hat₄⟩
  have hdone := hat₄.holding hc
  refine ⟨⟨hdone.controller.1, ?_⟩, hdone.others⟩
  rw [hdone.record]
  rfl

omit hC hR in
lemma Lasting.ite {P : SlaveId → Socket κ → Prop} (hP : Lasting C P) (hR : Lasting C R)
    (D : SlaveId → Prop) [DecidablePred D] :
    Lasting C fun j x => if D j then P j x else R j x := by
  intro j v c c' hmove
  by_cases hj : D j
  · simpa only [if_pos hj] using hP j v c c' hmove
  · simpa only [if_neg hj] using hR j v c c' hmove

omit hC hR in
lemma always_forEach {body : SlaveId → SocketCode Unit} {P P' : SlaveId → Socket κ → Prop}
    (hP : Lasting C P) (hP' : Lasting C P')
    (hbody : ∀ i s R, Lasting C R → P i (s i) → (∀ j, j ≠ i → R j (s j)) →
      (body i).Always (Sockets.Step C L) (fun _ t => P' i (t i) ∧ ∀ j, j ≠ i → R j (t j)) s)
    (l : List SlaveId) (hl : l.Nodup) (hR : Lasting C R) (hin : ∀ j ∈ l, P j (s j))
    (hout : ∀ j, j ∉ l → R j (s j)) :
    (SocketCode.forEach body l).Always (Sockets.Step C L) (fun _ t =>
      (∀ j ∈ l, P' j (t j)) ∧ ∀ j, j ∉ l → R j (t j)) s := by
  induction l generalizing s R with
  | nil => exact ⟨by simp, hout⟩
  | cons i rest ih =>
    obtain ⟨hi, hrest⟩ := List.nodup_cons.mp hl
    rw [SocketCode.forEach, Program.always_bind]
    refine (hbody i s _ (hP.ite hR (· ∈ rest)) (hin i List.mem_cons_self) ?_).mono ?_
    · intro j hj
      split_ifs with hmem
      · exact hin j (List.mem_cons_of_mem i hmem)
      · exact hout j (by simp [hj, hmem])
    · rintro - t ⟨hdone, hothers⟩
      refine (ih hrest (hP'.ite hR (· = i)) ?_ ?_).mono ?_
      · intro j hj
        have := hothers j (by rintro rfl; exact hi hj)
        rwa [if_pos hj] at this
      · intro j hj
        split_ifs with heq
        · exact heq ▸ hdone
        · have := hothers j heq
          rwa [if_neg hj] at this
      · rintro - t' ⟨hall, hothers'⟩
        refine ⟨?_, ?_⟩
        · intro j hj
          rcases List.mem_cons.mp hj with rfl | hmem
          · have := hothers' j hi
            rwa [if_pos rfl] at this
          · exact hall j hmem
        · intro j hj
          rw [List.mem_cons, not_or] at hj
          have := hothers' j hj.2
          rwa [if_neg hj.1] at this

omit hR in
lemma always_initSlaves (n cpus : ℕ) (hqueue : ∀ j, C.queue (s j).controller = []) :
    (SocketCode.initSlaves L n (availableSlaves cpus)).Always (Sockets.Step C L) (fun _ t =>
      ∀ j ∈ availableSlaves cpus, Settled C L j (t j)) s := by
  have hnodup : (availableSlaves cpus).Nodup := (List.nodup_finRange 16).filter _
  have hidle : Lasting C fun _ x => C.queue x.controller = [] := by
    intro j v c c' hmove hc
    exact (hC.idle c c' hmove hc).1
  have hany : Lasting C fun _ _ => True := fun _ _ _ _ _ _ => trivial
  have hintroduced : Lasting C (Introduced C L) := Introduced.stable hC
  rw [SocketCode.initSlaves, Program.always_bind]
  refine (always_forEach hidle hintroduced (fun i s R hR => always_introduce hC hR) _ hnodup hany
    (fun j _ => hqueue j) fun _ _ => trivial).mono ?_
  rintro - t ⟨ht, -⟩
  refine (always_forEach hintroduced (Settled.stable hC) (fun i s R hR => always_selftest hC hR n) _
    hnodup hany ht fun _ _ => trivial).mono ?_
  exact fun _ _ ht => ht.1

end Threads

section Runs

variable {C : Controller κ} {L : Layout} {cpus : ℕ} {s : Sockets κ}

lemma settled_of_one {i : SlaveId} {t : Sockets κ}
    (h : Settled C L i (t i) ∧ ∀ j, j ≠ i → j ∈ availableSlaves cpus → Settled C L j (t j)) :
    ∀ j ∈ availableSlaves cpus, Settled C L j (t j) := by
  intro j hj
  by_cases heq : j = i
  · exact heq ▸ h.1
  · exact h.2 j heq hj

lemma Sockets.Reachable.settled (hC : C.Documented)
    (h : s.Reachable C L cpus (LoadRules.keeping C)) :
    ∀ i ∈ availableSlaves cpus, Settled C L i (s i) := by
  have hlasting : Lasting C fun j x => j ∈ availableSlaves cpus → Settled C L j x := by
    intro j v c c' hmove hc hj
    exact Settled.stable hC j v c c' hmove (hc hj)
  induction h with
  | start _ hqueue hends => exact (always_initSlaves hC _ cpus hqueue).ends hends
  | moves _ hmoves ih =>
    intro i hi
    have hmoved := Controller.Stable.moves (Settled.stable hC i _) (hmoves i).2 (ih i hi)
    rw [← (hmoves i).1] at hmoved
    exact hmoved
  | reconfigure _ hi hends ih =>
    have hsettled := ih _ hi
    exact settled_of_one ((always_reconfigure hC hlasting _ hsettled.introduced.1
      hsettled.introduced.2 fun j _ hj => ih j hj).ends hends)
  | thread _ hi hrule hends ih =>
    exact settled_of_one ((always_thread hC hlasting _ _ _ (ih _ hi) (fun j _ hj => ih j hj)
      hrule).ends hends)

end Runs

/-- The records of the accelerators are accurate in every run that starts without an old trigger and
in which no thread asks for the accelerator that its slave remembers, unless this is the one in the
table. -/
theorem loaded_accelerators_recorded (C : Controller κ) (hC : C.Documented) (L : Layout) (cpus : ℕ)
    (s : Sockets κ) (hs : s.Reachable C L cpus (LoadRules.keeping C)) : s.Accurate C L cpus := by
  have hsettled := hs.settled hC
  have hany : Lasting C fun _ _ => True := fun _ _ _ _ _ _ => trivial
  have hperform : ∀ i ∈ availableSlaves cpus, ∀ n (acc : Accelerator) t,
      (SocketCode.performPR n i i acc.code).Ends (Sockets.Step C L) s success t →
      C.loaded (t i).controller = acc.code := by
    intro i hi n acc t hends
    have hat : At i (s i).record (C.Ready (s i).record.lastUsed) (fun _ _ => True) s :=
      ⟨rfl, (hsettled i hi).2.1, fun _ _ => trivial⟩
    rcases (hat.always_performPR hC hany n).ends hends with ⟨-, ht⟩ | ⟨hfail, -⟩
    · exact ht.controller.2
    · exact absurd hfail (by decide)
  refine ⟨fun i hi => (hsettled i hi).1, fun i hi => (hsettled i hi).2.1.2.symm, ?_, ?_⟩
  · intro i hi n acc t hends
    rw [hostPerformPR_eq] at hends
    exact hperform i hi n acc t hends
  · intro i hi n acc t hends
    rw [slavePerformPR_eq] at hends
    exact hperform i hi n acc t hends

section Prompt

/-- A controller that never fails: the triggers at hand, and what is loaded. -/
def promptController : Controller (List Huint × Huint) where
  trigger c := if c.1 = [] then 0 else 0x8000
  status c := if c.1 = [] then 7 else 4
  write c acc := (c.1 ++ [acc], c.2)
  Moves c c' := c.1 = c'.2 :: c'.1
  queue c := c.1
  loaded c := c.2
  failed _ := False

lemma promptController_documented : promptController.Documented where
  idle c c' hmove hqueue := by
    have hcons : ([] : List Huint) = c'.2 :: c'.1 := hqueue.symm.trans hmove
    cases hcons
  works c c' a rest hmove hqueue := by
    have heq : c'.2 :: c'.1 = a :: rest := hmove.symm.trans hqueue
    obtain ⟨hloaded, hrest⟩ := List.cons_eq_cons.mp heq
    exact .inr (.inl ⟨hrest, hloaded, not_false⟩)
  accepts c acc _ := ⟨rfl, rfl⟩
  pending c htrigger hqueue := htrigger (by
    have hnone : promptController.trigger c = 0 := if_pos hqueue
    rw [hnone]
    rfl)
  full c _ hfull := by
    refine ⟨?_, not_false⟩
    by_contra hqueue
    have hstatus : promptController.status c = 4 := if_neg hqueue
    rw [hstatus] at hfull
    exact absurd hfull (by decide)
  error c herror := by
    have hstatus : promptController.status c = 7 ∨ promptController.status c = 4 :=
      ite_eq_or_eq _ _ _
    rcases hstatus with h | h <;> rw [h] at herror <;> exact absurd herror (by decide)

def someLayout : Layout where
  entry i := 0x1000 + 4 * BitVec.ofNat 32 i
  profile _ := 0x2000
  entry_injective := by decide
  entry_ne_null := by decide
  profile_ne_entry _ := by decide

-- the triggers at hand are worked on before the status is read
def finished (c : List Huint × Huint) : List Huint × Huint := ([], c.1.getLast?.getD c.2)

def promptMoves (a : SocketAccess) (s : Sockets (List Huint × Huint)) :
    Sockets (List Huint × Huint) :=
  if a = .readStatus then fun j => ⟨(s j).record, finished (s j).controller⟩ else s

def SocketAccess.elsewhere : SocketAccess → Huint
  | worthwhile _ _ => 1
  | _ => 0

/-- Everything is worthwhile, and all other answers are zero. -/
def promptStep : Request → Sockets (List Huint × Huint) →
    Option (Sockets (List Huint × Huint) × Answer)
  | .socket i a, s =>
    if a = .own .spin then none
    else
      let m := promptMoves a s
      some (m.apply promptController someLayout i a,
        ⟨(a.answer promptController (m i)).getD a.elsewhere, 0⟩)
  | .stop, _ => none

lemma finished_moves (c : List Huint × Huint) :
    Relation.ReflTransGen promptController.Moves c (finished c) := by
  obtain ⟨queue, loaded⟩ := c
  induction queue generalizing loaded with
  | nil => exact .refl
  | cons a rest ih =>
    have hlast : finished (a :: rest, loaded) = finished (rest, a) := by
      rw [finished, finished, List.getLast?_cons]
      cases rest.getLast? <;> rfl
    rw [hlast]
    have hone : promptController.Moves (a :: rest, loaded) (rest, a) := rfl
    exact .head hone (ih a)

lemma promptStep_step (r : Request) (s t : Sockets (List Huint × Huint)) (b : Answer)
    (h : promptStep r s = some (t, b)) : Sockets.Step promptController someLayout r s t b := by
  cases r with
  | stop => cases h
  | socket i a =>
    rw [promptStep] at h
    split_ifs at h with hspin
    cases h
    refine ⟨hspin, promptMoves a s, ?_, ?_, rfl⟩
    · rw [promptMoves]
      split_ifs
      · exact fun j => ⟨rfl, finished_moves _⟩
      · exact fun j => ⟨rfl, .refl⟩
    · intro w hw
      rw [hw]
      rfl

def promptEnd (p : SocketCode Unit) (s : Sockets (List Huint × Huint)) :
    Sockets (List Huint × Huint) :=
  ((p.run promptStep s).map Prod.fst).getD s

lemma promptEnd_ends {p : SocketCode Unit} {s : Sockets (List Huint × Huint)}
    (h : (p.run promptStep s).isSome = true) :
    p.Ends (Sockets.Step promptController someLayout) s () (promptEnd p s) := by
  obtain ⟨⟨t, ⟨⟩⟩, ht⟩ := Option.isSome_iff_exists.mp h
  rw [promptEnd, ht]
  exact Program.ends_of_run promptStep_step ht

def booted : Sockets (List Huint × Huint) := fun _ =>
  ⟨⟨noAcc, noAcc, null, noAcc, null, 0, noAcc⟩, ([], 0)⟩

def afterInit : Sockets (List Huint × Huint) :=
  promptEnd (SocketCode.initSlaves someLayout 1 (availableSlaves 1)) booted

-- the slave uses the accelerator of the last selftest, and the host loads another one
def afterThread : Sockets (List Huint × Huint) :=
  promptEnd (SocketCode.thread someLayout 1 0 0 [(.matrixmul, 64)] 0) afterInit

def afterHost : Sockets (List Huint × Huint) :=
  promptEnd (SocketCode.reconfigure 1 0 .bubblesort) afterThread

lemma afterHost_reachable (rules : LoadRules (List Huint × Huint)) (hstart : rules.start ([], 0))
    (hthread : rules.thread (afterInit 0).record [(.matrixmul, 64)]) :
    afterHost.Reachable promptController someLayout 1 rules := by
  have hinit : afterInit.Reachable promptController someLayout 1 rules :=
    .start (fun _ => ⟨rfl, rfl, rfl, rfl, rfl⟩) (fun _ => hstart)
      (promptEnd_ends (by decide))
  have hafter : afterThread.Reachable promptController someLayout 1 rules :=
    hinit.thread (by decide) hthread (promptEnd_ends (by decide))
  exact hafter.reconfigure (by decide) (promptEnd_ends (by decide))

-- the next thread asks for a third accelerator
theorem crc_recorded : ∃ s : Sockets (List Huint × Huint),
    s.Accurate promptController someLayout 1 ∧ (s 0).record.acc = Accelerator.crc.code := by
  have hfirst : (LoadRules.keeping promptController).thread (afterInit 0).record
      [(.matrixmul, 64)] := by
    refine .inr fun call hcall => ?_
    rw [List.mem_singleton.mp hcall]
    decide
  have hnext : (LoadRules.keeping promptController).thread (afterHost 0).record [(.crc, 64)] := by
    refine .inr fun call hcall => ?_
    rw [List.mem_singleton.mp hcall]
    decide
  have hreach := (afterHost_reachable (.keeping promptController) rfl hfirst).thread
    (t := promptEnd (SocketCode.thread someLayout 1 0 0 [(.crc, 64)] 0) afterHost)
    (by decide) hnext (promptEnd_ends (by decide))
  exact ⟨_, loaded_accelerators_recorded _ promptController_documented _ _ _ hreach,
    by decide⟩

/-- The next thread asks for the one that its slave remembers: it is loaded, but the table is not
updated. -/
theorem remembered_accelerator_not_reported : ¬ ∀ s : Sockets (List Huint × Huint),
    s.Reachable promptController someLayout 1 .any → s.Accurate promptController someLayout 1 := by
  intro hclaim
  have hreach := (afterHost_reachable .any trivial trivial).thread
    (t := promptEnd (SocketCode.thread someLayout 1 0 0 [(.matrixmul, 64)] 0) afterHost)
    (by decide) trivial (promptEnd_ends (by decide))
  have htable := (hclaim _ hreach).table 0 (by decide)
  revert htable
  decide

end Prompt

end Hthreads.Slaves
