import Hthreads.Hwti.Channels

/-! Every request of a hardware thread is answered once, in the runs in which no step gets the
command controller into trouble. -/

namespace Hthreads.Hwti

open Library Library.BitFields

structure Sound (s : System) : Prop where
  served : Served s.regs.cmdCs s.events
  once : consumedWords s.events ++ s.pending = s.arrived
  answered : answers s.events + (if s.regs.cmdCs = .blocked then 1 else 0) = requests s.events
  room : .result true ∉ s.events ∧ .wake true ∉ s.events
  acknowledged : s.regs.cmdCs = .hold → s.outstanding = true ∧ s.pending ≠ []

section Counting

variable {s : System} {c : Cycle} {st st' : CommandState} {l es : List Event}

lemma consumedWords_append (l l' : List Event) :
    consumedWords (l ++ l') = consumedWords l ++ consumedWords l' := by
  induction l with
  | nil => rfl
  | cons e l ih => cases e <;> simp [consumedWords, ih]

lemma requests_append (l l' : List Event) : requests (l ++ l') = requests l + requests l' := by
  induction l with
  | nil => rw [List.nil_append, requests, Nat.zero_add]
  | cons e l ih => cases e <;> simp [requests, ih, Nat.add_assoc]

lemma answers_append (l l' : List Event) : answers (l ++ l') = answers l + answers l' := by
  induction l with
  | nil => rw [List.nil_append, answers, Nat.zero_add]
  | cons e l ih =>
    cases e <;> simp [answers, ih]
    omega

lemma Served.answered (h : Served st l) :
    answers l + (if st = .blocked then 1 else 0) = requests l := by
  induction h with
  | init => rfl
  | move _ hmoves ih =>
    rw [answers_append, requests_append]
    cases hmoves with
    | run => simpa [answers, requests] using ih
    | wake => simpa [answers, requests] using ih
    | ask => simpa [answers, requests] using ih
    | answer he _ => simpa [answers, requests, he] using ih
    | block he _ => simpa [answers, requests, he] using ih
    | resume => simpa [answers, requests] using ih
    | exit he => simpa [answers, requests, he] using ih

lemma Served.room (h : Served st l) : .result true ∉ l ∧ .wake true ∉ l := by
  induction h with
  | init => exact ⟨List.not_mem_nil, List.not_mem_nil⟩
  | move _ hmoves ih =>
    rw [List.mem_append, List.mem_append, not_or, not_or]
    exact ⟨⟨ih.1, by cases hmoves <;> simp⟩, ih.2, by cases hmoves <;> simp⟩

structure Inv (s : System) : Prop where
  served : Served s.regs.cmdCs s.events
  held : Held s
  once : consumedWords s.events ++ s.pending = s.arrived

lemma Inv.clock (h : Inv s) (hm : Meets s c) (b : Bases) : Inv (s.clock b c) := by
  have hsteps := steps_clock (b := b) h.served h.held hm
  have hserved := hsteps.served h.served
  have harrived : (s.clock b c).arrived = s.arrived ++ c.request.toList := rfl
  cases hsteps with
  | waits _ _ hevents hpending hheld =>
    refine ⟨hserved, hheld, ?_⟩
    rw [hevents, hpending, harrived, ← h.once, List.append_assoc]
  | moves es rest _ _ hevents hrest hpending hheld =>
    refine ⟨hserved, hheld, ?_⟩
    rw [hevents, hpending, harrived, ← h.once, hrest, consumedWords_append, List.append_assoc,
      List.append_assoc, List.append_assoc]

lemma Inv.sound (h : Inv s) : Sound s :=
  ⟨h.served, h.once, h.served.answered, h.served.room,
    fun hst => ⟨(h.held hst).1, (h.held hst).2.1⟩⟩

end Counting

section Runs

def run (b : Bases) (inputs : ℕ → Cycle) (words : List Tfsl) (n : ℕ) : System :=
  clocked (System.clock b) inputs 0 n (.init words)

/-- The other sides go on: accesses are acknowledged, results taken and threads run. -/
structure Fair (inputs : ℕ → Cycle) : Prop where
  ack : ∀ k, ∃ m ≥ k, (inputs m).ack = true
  room : ∀ k, ∃ m ≥ k, (inputs m).resultFull = false
  command : ∀ k, ∃ m ≥ k, (inputs m).command = commandRun

variable {b : Bases} {inputs : ℕ → Cycle} {words : List Tfsl} {k n : ℕ}

lemma run_succ (b : Bases) (inputs : ℕ → Cycle) (words : List Tfsl) (n : ℕ) :
    run b inputs words (n + 1) = (run b inputs words n).clock b (inputs n) := by
  rw [run, clocked_succ, Nat.zero_add]
  rfl

lemma inv_run (hmeets : ∀ k < n, Meets (run b inputs words k) (inputs k)) :
    Inv (run b inputs words n) := by
  induction n with
  | zero => exact ⟨.init, nofun, rfl⟩
  | succ n ih =>
    rw [run_succ]
    exact (ih fun k hk => hmeets k (by omega)).clock (hmeets n (Nat.lt_succ_self n)) b

/-- How far the controller is from consuming a request. -/
def rank : CommandState → ℕ
  | .start => 3
  | .wakeup => 2
  | .blocked => 2
  | .idle => 1
  | _ => 0

lemma Moves.consumes {st st' : CommandState} {es : List Event} (h : Moves st es st') :
    (consumedWords es = [] ∧ rank st' < rank st) ∨ ∃ w, consumedWords es = [w] := by
  cases h with
  | run => exact .inl ⟨rfl, by decide⟩
  | wake => exact .inl ⟨rfl, by decide⟩
  | ask => exact .inl ⟨rfl, by decide⟩
  | answer _ _ => exact .inr ⟨_, rfl⟩
  | block _ _ => exact .inr ⟨_, rfl⟩
  | resume => exact .inl ⟨rfl, by decide⟩
  | exit _ => exact .inr ⟨_, rfl⟩

/-- A request is left to be consumed in cycle `k`, when those of `x` have been. -/
def Due (b : Bases) (inputs : ℕ → Cycle) (words : List Tfsl) (st : CommandState) (x : List Tfsl)
    (k : ℕ) : Prop :=
  (run b inputs words k).regs.cmdCs = st ∧ consumedWords (run b inputs words k).events = x ∧
    x.length < (run b inputs words k).arrived.length

lemma arrived_mono (b : Bases) (inputs : ℕ → Cycle) (words : List Tfsl) {k m : ℕ} (hkm : k ≤ m) :
    (run b inputs words k).arrived <+: (run b inputs words m).arrived := by
  induction m, hkm using Nat.le_induction with
  | base => exact List.prefix_refl _
  | succ m _ ih =>
    rw [run_succ]
    exact ih.trans (List.prefix_append _ _)

section Progress

variable {st : CommandState} {x : List Tfsl}

lemma steps_run (hmeets : ∀ k, Meets (run b inputs words k) (inputs k)) (k : ℕ) :
    Steps (run b inputs words k) (inputs k) (run b inputs words (k + 1)) := by
  have hinv := inv_run (n := k) fun j _ => hmeets j
  rw [run_succ]
  exact steps_clock hinv.served hinv.held (hmeets k)

lemma Due.pending (hmeets : ∀ k, Meets (run b inputs words k) (inputs k))
    (h : Due b inputs words st x k) : (run b inputs words k).pending ≠ [] := by
  obtain ⟨-, hx, hlt⟩ := h
  have honce := (inv_run (n := k) fun j _ => hmeets j).once
  intro hnil
  rw [hnil, List.append_nil, hx] at honce
  rw [honce] at hlt
  exact Nat.lt_irrefl _ hlt

lemma Due.grow {m : ℕ} (hkm : k ≤ m) (hlt : x.length < (run b inputs words k).arrived.length) :
    x.length < (run b inputs words m).arrived.length :=
  hlt.trans_le (arrived_mono b inputs words hkm).length_le

lemma Due.goes (hmeets : ∀ k, Meets (run b inputs words k) (inputs k)) (hfair : Fair inputs)
    (h : Due b inputs words st x k) :
    ∃ m ≥ k, Due b inputs words st x m ∧ Goes (run b inputs words m) (inputs m) := by
  have hstates := (inv_run (n := k) fun j _ => hmeets j).served.states
  have hgoes : ∀ m, Due b inputs words st x m → ¬ Goes (run b inputs words m) (inputs m) →
      Due b inputs words st x (m + 1) := by
    intro m hm hno
    cases steps_run hmeets m with
    | waits _ hst hevents _ _ =>
      exact ⟨hst.trans hm.1, by rw [hevents, hm.2.1], Due.grow (Nat.le_succ m) hm.2.2⟩
    | moves _ _ hyes => exact absurd hyes hno
  -- where the controller goes on at what comes again and again
  have hwait : ∀ helpful : ℕ → Prop, (∀ k, ∃ m ≥ k, helpful m) →
      (∀ m, Due b inputs words st x m →
        (Goes (run b inputs words m) (inputs m) ↔ helpful m)) →
      ∃ m ≥ k, Due b inputs words st x m ∧ Goes (run b inputs words m) (inputs m) := by
    intro helpful hagain hiff
    obtain ⟨m, hm, hdue, hhelpful⟩ := exists_of_wait hagain
      (fun m hm hno => hgoes m hm fun hyes => hno ((hiff m hm).mp hyes)) h
    exact ⟨m, hm, hdue, (hiff m hdue).mpr hhelpful⟩
  rw [h.1] at hstates
  rcases hstates with rfl | rfl | rfl | rfl | rfl
  · refine hwait _ hfair.command fun m hm => ?_
    rw [Goes, hm.1]
  · refine hwait _ hfair.room fun m hm => ?_
    rw [Goes, hm.1]
  · refine hwait _ hfair.room fun m hm => ?_
    rw [Goes, hm.1]
    exact and_iff_right (hm.pending hmeets)
  · refine hwait _ hfair.ack fun m hm => ?_
    rw [Goes, hm.1]
  · refine hwait _ hfair.command fun m hm => ?_
    rw [Goes, hm.1]

lemma Due.consumed (hmeets : ∀ k, Meets (run b inputs words k) (inputs k)) (hfair : Fair inputs)
    (h : Due b inputs words st x k) :
    ∃ m ≥ k, x.length < (consumedWords (run b inputs words m).events).length := by
  induction hrank : rank st using Nat.strong_induction_on generalizing st k with
  | _ r ih =>
    obtain ⟨m, hm, hdue, hgoes⟩ := h.goes hmeets hfair
    cases steps_run hmeets m with
    | waits hno => exact absurd hgoes hno
    | moves es rest _ hmoves hevents _ _ _ =>
      rw [hdue.1] at hmoves
      rcases hmoves.consumes with ⟨hnone, hless⟩ | ⟨w, hw⟩
      · have hnext : Due b inputs words (run b inputs words (m + 1)).regs.cmdCs x (m + 1) := by
          refine ⟨rfl, ?_, Due.grow (Nat.le_succ m) hdue.2.2⟩
          rw [hevents, consumedWords_append, hnone, List.append_nil, hdue.2.1]
        obtain ⟨n, hn, hlt⟩ := ih _ (hrank ▸ hless) hnext rfl
        exact ⟨n, by omega, hlt⟩
      · refine ⟨m + 1, by omega, ?_⟩
        rw [hevents, consumedWords_append, hw, hdue.2.1, List.length_append]
        exact Nat.lt_succ_self _

lemma all_consumed (hmeets : ∀ k, Meets (run b inputs words k) (inputs k)) (hfair : Fair inputs)
    (k d : ℕ) : ∀ j ≥ k, (run b inputs words k).arrived.length ≤
        (consumedWords (run b inputs words j).events).length + d →
      ∃ m ≥ j, (run b inputs words k).arrived.length ≤
        (consumedWords (run b inputs words m).events).length := by
  induction d with
  | zero => exact fun j _ hle => ⟨j, le_refl j, hle⟩
  | succ d ih =>
    intro j hj hle
    by_cases hlt : (consumedWords (run b inputs words j).events).length <
        (run b inputs words k).arrived.length
    · obtain ⟨m, hm, hmore⟩ := Due.consumed hmeets hfair ⟨rfl, rfl, Due.grow hj hlt⟩
      obtain ⟨n, hn, hall⟩ := ih m (by omega) (by omega)
      exact ⟨n, by omega, hall⟩
    · exact ⟨j, le_refl j, by omega⟩

lemma consumed_mono (hmeets : ∀ k, Meets (run b inputs words k) (inputs k)) {m n : ℕ}
    (hmn : m ≤ n) : consumedWords (run b inputs words m).events <+:
      consumedWords (run b inputs words n).events := by
  induction n, hmn using Nat.le_induction with
  | base => exact List.prefix_refl _
  | succ n _ ih =>
    refine ih.trans ?_
    cases steps_run hmeets n with
    | waits _ _ hevents _ _ => rw [hevents]
    | moves es rest _ _ hevents _ _ _ =>
      rw [hevents, consumedWords_append]
      exact List.prefix_append _ _

lemma unblocked (hmeets : ∀ k, Meets (run b inputs words k) (inputs k)) (hfair : Fair inputs)
    (k : ℕ) : ∃ m ≥ k, (run b inputs words m).regs.cmdCs ≠ .blocked := by
  by_contra hall
  push Not at hall
  obtain ⟨m, hm, hcommand⟩ := hfair.command k
  have hgoes : Goes (run b inputs words m) (inputs m) := by
    rw [Goes, hall m hm]
    exact hcommand
  have hnext := hall (m + 1) (by omega)
  cases steps_run hmeets m with
  | waits hno => exact hno hgoes
  | moves es rest _ hmoves =>
    rw [hall m hm, hnext] at hmoves
    cases hmoves

end Progress

end Runs

section Examples

/-- Other sides that never keep the controller waiting, and what the bus answers. -/
def promptly (results : BitVec 64) (_ : ℕ) : Cycle where
  tid := 1
  arg := 0
  request := none
  resultFull := false
  memrd := false
  memwr := false
  command := commandRun
  ack := true
  last := false
  results := results

lemma fair_promptly (results : BitVec 64) : Fair (promptly results) :=
  ⟨fun k => ⟨k, le_refl k, rfl⟩, fun k => ⟨k, le_refl k, rfl⟩, fun k => ⟨k, le_refl k, rfl⟩⟩

lemma mem_pending_clock {b : Bases} {c : Cycle} {s : System} {w : Tfsl}
    (hw : w ∈ (s.clock b c).pending) : w ∈ s.pending ∨ w ∈ c.request.toList := by
  rw [System.clock, List.mem_append] at hw
  refine hw.imp_left fun hw => ?_
  split at hw
  · exact List.mem_of_mem_tail hw
  · exact hw

lemma meets_promptly (words : List Tfsl) (hdev : ∀ w ∈ words, opdev w < 3) (k : ℕ) :
    Meets (run .default (promptly 0) words k) (promptly 0 k) := by
  have hpending : ∀ k, ∀ w ∈ (run .default (promptly 0) words k).pending, w ∈ words := by
    intro k
    induction k with
    | zero => exact fun w hw => hw
    | succ k ih =>
      intro w hw
      rw [run_succ] at hw
      exact (mem_pending_clock hw).elim (ih w) nofun
  have hcond : slice (0 : BitVec 64) 60 4 ≠ 0xe := by decide
  have hexit : slice (0 : BitVec 64) 60 4 ≠ 3 := by decide
  refine ⟨fun _ hne _ => ?_, fun _ _ => ⟨fun _ => hcond, fun _ => hexit, fun _ _ => rfl⟩,
    fun _ _ => rfl⟩
  obtain ⟨w, rest, hw⟩ := List.exists_cons_of_ne_nil hne
  have hmem := hpending k
  rw [hw] at hmem ⊢
  exact hdev w (hmem w List.mem_cons_self)

end Examples

end Hthreads.Hwti
