import Hthreads.CondVars.Messenger
import Hthreads.Library.Cycles

/-! Every id in the message channel is delivered once. -/

namespace Hthreads.CondVars

open Library Scheduler

namespace Delivery

def FitsAll (base : Word) (d : Delivery) (turns : ℕ → Turn) : Prop :=
  ∀ n, (run base d turns n).Fits (turns n).bus

/-- The state machine is idle, and the channel may hold anything. -/
structure Fresh (d : Delivery) : Prop where
  state : d.messenger.state = .idle
  rdReq : d.messenger.rdReq = false
  fslRead : d.messenger.fslRead = false
  outstanding : d.outstanding = false
  pops : d.pops = []
  reads : d.reads = []

/-- The bus answers what it is asked, and the ids in the channel come to its output. -/
structure Answers (base : Word) (d : Delivery) (turns : ℕ → Turn) : Prop where
  taken : ∀ k, (run base d turns k).messenger.rdReq = true →
    ∃ j ≥ k, ((turns j).bus.cmdAck || (turns j).bus.cmplt) = true
  completed : ∀ k, (run base d turns k).outstanding = true → ∃ j ≥ k, (turns j).bus.cmplt = true
  shown : ∀ k, (run base d turns k).entering ≠ [] → ∃ j ≥ k, 0 < (turns j).shown

section Runs

variable {base : Word} {d : Delivery} {turns : ℕ → Turn} {k : ℕ}

lemma Fresh.stage (h : d.Fresh) : d.Stage base := by
  refine .idle h.state h.rdReq h.outstanding ⟨h.fslRead, fun id hid => ?_, ?_⟩
  · exact (Option.not_mem_none id hid).elim
  · rw [h.pops, h.reads]
    rfl

lemma stage_run (h : d.Fresh) (hfits : d.FitsAll base turns) (n : ℕ) :
    (run base d turns n).Stage base := by
  induction n with
  | zero => exact h.stage
  | succ n ih => exact ih.clock (hfits n)

lemma contents_run (n : ℕ) :
    (run base d turns n).contents =
      d.contents ++ (List.range n).flatMap fun k => (turns k).write.toList := by
  induction n with
  | zero => simp [run]
  | succ n ih => rw [run, contents_clock, ih, List.range_succ, List.flatMap_append,
      List.flatMap_singleton, List.append_assoc]

lemma contents_mono {m : ℕ} (h : k ≤ m) :
    (run base d turns k).contents <+: (run base d turns m).contents := by
  induction m, h using Nat.le_induction with
  | base => exact List.prefix_rfl
  | succ m _ ih =>
    rw [run, contents_clock]
    exact ih.trans (List.prefix_append _ _)

lemma pops_mono {m : ℕ} (h : k ≤ m) :
    (run base d turns k).pops.length ≤ (run base d turns m).pops.length := by
  induction m, h using Nat.le_induction with
  | base => exact le_rfl
  | succ m _ ih =>
    refine ih.trans ?_
    rw [run, clock, List.length_append]
    exact Nat.le_add_right _ _

lemma Stage.books (h : d.Stage base) : ∃ p, d.Books base p := by
  cases h with
  | idle _ _ _ hb => exact ⟨none, hb⟩
  | starting _ _ _ _ hb => exact ⟨none, hb⟩
  | requesting _ _ _ _ _ hb => exact ⟨none, hb⟩
  | waiting _ _ _ hb => exact ⟨_, hb⟩
  | finishing _ _ _ hb => exact ⟨_, hb⟩

lemma Stage.pops_succ {t : Turn} (h : d.Stage base) (hread : d.messenger.fslRead = true) :
    (d.clock base t).pops.length = d.pops.length + 1 := by
  obtain ⟨p, hb⟩ := h.books
  have hsome := hb.fslRead
  rw [hread] at hsome
  obtain ⟨id, rfl⟩ := Option.isSome_iff_exists.mp hsome.symm
  simp [Delivery.clock, hread, take_one (hb.head id rfl)]

end Runs

section Progress

variable {base : Word} {d : Delivery} {turns : ℕ → Turn} {k : ℕ}

lemma run_clock (base : Word) (t : Turn) (hs : d.messenger.state = .run) :
    (d.clock base t).messenger.state = .run ∧ (d.clock base t).messenger.rdReq = true ∧
        (t.bus.cmdAck || t.bus.cmplt) = false ∨
      (d.clock base t).messenger.fslRead = true := by
  cases hack : t.bus.cmdAck <;> cases hcmplt : t.bus.cmplt <;>
    simp [clock, Messenger.clock, Messenger.default, hs, hack, hcmplt]

lemma read_of_request (ha : d.Answers base turns) (hs : (run base d turns k).messenger.state = .run)
    (hreq : (run base d turns k).messenger.rdReq = true) :
    ∃ m ≥ k, (run base d turns m).messenger.fslRead = true := by
  refine leadsTo_of_helpful (s := fun j => run base d turns j)
    (P := fun e => e.messenger.state = .run ∧ e.messenger.rdReq = true)
    (R := fun e => e.messenger.fslRead = true) (ha.taken k hreq) ?_ ?_ ⟨hs, hreq⟩
  · intro n hn
    rcases run_clock base (turns n) hn.1 with ⟨hrun, hreq, -⟩ | hread
    · exact .inl ⟨hrun, hreq⟩
    · exact .inr hread
  · intro n htaken hn
    rcases run_clock base (turns n) hn.1 with ⟨-, -, hnot⟩ | hread
    · rw [htaken] at hnot
      cases hnot
    · exact hread

lemma read_of_run (ha : d.Answers base turns) (hs : (run base d turns k).messenger.state = .run) :
    ∃ m ≥ k, (run base d turns m).messenger.fslRead = true := by
  rcases run_clock base (turns k) hs with ⟨hrun, hreq, -⟩ | hread
  · obtain ⟨m, hm, hread⟩ := read_of_request (k := k + 1) ha hrun hreq
    exact ⟨m, by omega, hread⟩
  · exact ⟨k + 1, Nat.le_succ k, hread⟩

lemma idle_of_waiting (ha : d.Answers base turns)
    (hs : (run base d turns k).messenger.state = .waitForData)
    (hout : (run base d turns k).outstanding = true) :
    ∃ m ≥ k, (run base d turns m).messenger.state = .idle := by
  have hdone : ∃ m ≥ k, (run base d turns m).messenger.state = .done := by
    refine leadsTo_of_helpful (s := fun j => run base d turns j)
      (P := fun e => e.messenger.state = .waitForData)
      (R := fun e => e.messenger.state = .done) (ha.completed k hout) ?_ ?_ hs
    · intro n hn
      cases hcmplt : (turns n).bus.cmplt <;>
        simp [run, clock, Messenger.clock, Messenger.default, hn, hcmplt]
    · intro n hcmplt hn
      simp [run, clock, Messenger.clock, Messenger.default, hn, hcmplt]
  obtain ⟨m, hm, hdone⟩ := hdone
  refine ⟨m + 1, by omega, ?_⟩
  simp [run, clock, Messenger.clock, Messenger.default, hdone]

lemma run_of_idle (ha : d.Answers base turns) (hs : (run base d turns k).messenger.state = .idle)
    (hread : (run base d turns k).messenger.fslRead = false)
    (hsome : (run base d turns k).ready ++ (run base d turns k).entering ≠ []) :
    ∃ m ≥ k, (run base d turns m).messenger.state = .run := by
  by_cases hready : (run base d turns k).ready = []
  · have hentering : (run base d turns k).entering ≠ [] := by simpa [hready] using hsome
    have hshown : ∃ m ≥ k, (run base d turns m).messenger.state = .idle ∧
        (run base d turns m).ready ≠ [] := by
      refine leadsTo_of_helpful (s := fun j => run base d turns j)
        (P := fun e => e.messenger.state = .idle ∧ e.messenger.fslRead = false ∧ e.ready = [] ∧
          e.entering ≠ [])
        (R := fun e => e.messenger.state = .idle ∧ e.ready ≠ []) (ha.shown k hentering) ?_ ?_
        ⟨hs, hread, hready, hentering⟩
      · intro n ⟨hs, hread, hready, hentering⟩
        have hm : (run base d turns (n + 1)).messenger =
          { Messenger.default .idle with busy := false } := by
          simp [run, clock, Messenger.clock, hs, hready]
        cases hshown : (turns n).shown with
        | zero =>
          refine .inl ⟨by simp [hm, Messenger.default], by simp [hm, Messenger.default], ?_, ?_⟩
          · simp [run, clock, hread, hready, hshown]
          · simp [run, clock, hshown, hentering]
        | succ i =>
          refine .inr ⟨by simp [hm, Messenger.default], ?_⟩
          simp [run, clock, hread, hready, hshown, hentering]
      · intro n hpos ⟨hs, hread, hready, hentering⟩
        have hm : (run base d turns (n + 1)).messenger =
          { Messenger.default .idle with busy := false } := by
          simp [run, clock, Messenger.clock, hs, hready]
        refine ⟨by simp [hm, Messenger.default], ?_⟩
        simp [run, clock, hread, hready, hentering, Nat.ne_of_gt hpos]
    obtain ⟨m, hm, hidle, hne⟩ := hshown
    refine ⟨m + 1, by omega, ?_⟩
    simp [run, clock, Messenger.clock, Messenger.default, hidle, hne]
  · refine ⟨k + 1, Nat.le_succ k, ?_⟩
    simp [run, clock, Messenger.clock, Messenger.default, hs, hready]

lemma nonempty_clock {t : Turn} (hread : d.messenger.fslRead = false)
    (hsome : d.ready ++ d.entering ≠ []) :
    (d.clock base t).ready ++ (d.clock base t).entering ≠ [] := by
  have hlist : (d.clock base t).ready ++ (d.clock base t).entering =
      (d.ready ++ d.entering) ++ t.write.toList := by
    have hentering := List.take_append_drop t.shown d.entering
    simp only [clock, hread, Bool.false_eq_true, if_false]
    nth_rewrite 3 [← hentering]
    simp only [List.append_assoc]
  rw [hlist]
  exact List.append_ne_nil_of_left_ne_nil hsome _

lemma read_eventually (hd : d.Fresh) (hfits : d.FitsAll base turns) (ha : d.Answers base turns)
    (hsome : (run base d turns k).ready ++ (run base d turns k).entering ≠ []) :
    ∃ m ≥ k, (run base d turns m).messenger.fslRead = true := by
  by_contra hnever
  push Not at hnever
  have hquiet : ∀ m ≥ k, (run base d turns m).messenger.fslRead = false :=
    fun m hm => Bool.eq_false_iff.mpr (hnever m hm)
  have hstays : ∀ m ≥ k, (run base d turns m).ready ++ (run base d turns m).entering ≠ [] := by
    intro m hm
    induction m, hm using Nat.le_induction with
    | base => exact hsome
    | succ m hm ih => exact nonempty_clock (hquiet m hm) ih
  have hrun : ∀ m ≥ k, (run base d turns m).messenger.state ≠ .run := by
    intro m hm hs
    obtain ⟨j, hj, hread⟩ := read_of_run ha hs
    exact hnever j (hm.trans hj) hread
  have hidle : ∀ m ≥ k, (run base d turns m).messenger.state ≠ .idle := by
    intro m hm hs
    obtain ⟨j, hj, hs⟩ := run_of_idle ha hs (hquiet m hm) (hstays m hm)
    exact hrun j (hm.trans hj) hs
  cases stage_run hd hfits k with
  | idle hs _ _ _ => exact hidle k le_rfl hs
  | starting hs _ _ _ _ => exact hrun k le_rfl hs
  | requesting hs _ _ _ _ _ => exact hrun k le_rfl hs
  | waiting hs _ hout _ =>
    obtain ⟨m, hm, hs⟩ := idle_of_waiting ha hs hout
    exact hidle m hm hs
  | finishing hs _ _ _ =>
    refine hidle (k + 1) (Nat.le_succ k) ?_
    simp [run, clock, Messenger.clock, Messenger.default, hs]

lemma pops_isPrefix (n : ℕ) : (run base d turns n).pops <+: (run base d turns n).contents := by
  rw [contents, List.append_assoc]
  exact List.prefix_append _ _

lemma pops_reach (hd : d.Fresh) (hfits : d.FitsAll base turns) (ha : d.Answers base turns) (i : ℕ)
    (hi : i ≤ (run base d turns k).contents.length) :
    ∃ m ≥ k, i ≤ (run base d turns m).pops.length := by
  induction i with
  | zero => exact ⟨k, le_rfl, Nat.zero_le _⟩
  | succ i ih =>
    obtain ⟨m, hm, hpops⟩ := ih (by omega)
    by_cases hmore : i + 1 ≤ (run base d turns m).pops.length
    · exact ⟨m, hm, hmore⟩
    · have hsome : (run base d turns m).ready ++ (run base d turns m).entering ≠ [] := by
        intro hnil
        have hall : (run base d turns m).contents = (run base d turns m).pops := by
          rw [contents, List.append_assoc, hnil, List.append_nil]
        have hlength : (run base d turns k).contents.length ≤
          (run base d turns m).contents.length :=
          (contents_mono hm).length_le
        rw [hall] at hlength
        omega
      obtain ⟨j, hj, hread⟩ := read_eventually hd hfits ha hsome
      refine ⟨j + 1, by omega, ?_⟩
      have hsucc := (stage_run hd hfits j).pops_succ (t := turns j) hread
      have hmono : (run base d turns m).pops.length ≤ (run base d turns j).pops.length :=
        pops_mono hj
      change i + 1 ≤ ((run base d turns j).clock base (turns j)).pops.length
      omega

end Progress

/-- The master state machine delivers the channel. The addresses of the reads issued are those of
the ids popped, in the order of the channel, except for one pop that is under way; a pop always
finds its id, the address on the bus is that of the first id, and nothing is lost. If the bus
answers, every id is popped. -/
theorem channel_delivered (base : Word) (d : Delivery) (hd : d.Fresh) (turns : ℕ → Turn)
    (hfits : d.FitsAll base turns) :
    (∀ n, ∃ p : Option ThreadId,
      (run base d turns n).messenger.fslRead = p.isSome ∧
      (∀ id ∈ p, (run base d turns n).ready.head? = some id) ∧
      (run base d turns n).reads = ((run base d turns n).pops ++ p.toList).map (formTmAddr base) ∧
      ((run base d turns n).messenger.rdReq = true →
        (run base d turns n).ready.head?.map (formTmAddr base) =
          some (run base d turns n).messenger.addr) ∧
      (run base d turns n).pops ++ (run base d turns n).ready ++ (run base d turns n).entering =
        d.ready ++ d.entering ++ (List.range n).flatMap fun k => (turns k).write.toList) ∧
    (d.Answers base turns → ∀ k, ∃ m ≥ k,
      (run base d turns k).pops ++ (run base d turns k).ready ++ (run base d turns k).entering <+:
        (run base d turns m).pops) := by
  refine ⟨fun n => ?_, fun ha k => ?_⟩
  · have hstage := stage_run hd hfits n
    have hcontents : (run base d turns n).contents =
        d.contents ++ (List.range n).flatMap fun k => (turns k).write.toList := contents_run n
    rw [contents, contents, hd.pops, List.nil_append] at hcontents
    obtain ⟨p, hb⟩ := hstage.books
    refine ⟨p, hb.fslRead, hb.head, hb.reads, fun hreq => ?_, hcontents⟩
    cases hstage with
    | requesting _ _ _ hid haddr _ => rw [hid, haddr, Option.map_some]
    | idle _ hnot _ _ | starting _ hnot _ _ _ | waiting _ hnot _ _ | finishing _ hnot _ _ =>
      rw [hnot] at hreq
      cases hreq
  · obtain ⟨m, hm, hlength⟩ := pops_reach hd hfits ha _ le_rfl
    exact ⟨m, hm, List.prefix_of_prefix_length_le (contents_mono hm) (pops_isPrefix m) hlength⟩

-- the bus acknowledges the read for thread 5 in cycle 2 and completes it in cycle 4
def slowTurn (n : ℕ) : Turn := ⟨⟨n == 2, n == 4, false, false⟩, none, 0⟩

theorem channel_delivered_slowly :
    (run 0x11000000 ⟨.default .idle, [5, 7], [], false, [], []⟩ slowTurn 5).reads =
      ([5] : List ThreadId).map (formTmAddr 0x11000000) := by
  have hfits : FitsAll 0x11000000 ⟨.default .idle, [5, 7], [], false, [], []⟩ slowTurn := by
    intro n
    refine ⟨fun hack => ?_, fun hcmplt => ?_⟩
    · obtain rfl : n = 2 := by simpa [slowTurn] using hack
      decide
    · obtain rfl : n = 4 := by simpa [slowTurn] using hcmplt
      decide
  obtain ⟨p, hread, -, hreads, -⟩ := (channel_delivered 0x11000000
    ⟨.default .idle, [5, 7], [], false, [], []⟩ ⟨rfl, rfl, rfl, rfl, rfl, rfl⟩ slowTurn hfits).1 5
  have hp : p = none := Option.not_isSome_iff_eq_none.mp (by rw [← hread]; decide)
  rw [hreads, hp]
  decide

end Delivery

end Hthreads.CondVars
