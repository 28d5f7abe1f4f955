import Hthreads.Library.Path
import Hthreads.SyncManager.Master

/-! The ids handed off are read in their order, as long as the queue controller hears of them. -/

namespace Hthreads.SyncManager

open Library Library.BitFields Scheduler

variable {m : ℕ}

namespace Master

structure Holds (M : Master) (q : List ThreadId) : Prop where
  count : M.sendCount.toNat = q.length
  path : q ≠ [] → Path M.store.contents M.sendLast M.sendFirst q

/-- The id to be sent has been taken, but is still the first in the store. -/
structure Taking (M : Master) (q : List ThreadId) : Prop where
  count : M.sendCount.toNat = q.length + 1
  path : Path M.store.contents M.sendLast M.sendFirst (M.sendCur :: q)

lemma Taking.first_eq {M : Master} {q : List ThreadId} (h : M.Taking q) :
    M.sendFirst = M.sendCur := by
  obtain ⟨r, hr⟩ := h.path.exists_cons
  exact (List.cons.inj hr).1.symm

/-- What each state of the queue controller knows of the queue. -/
def Stage (M : Master) (lines : Option Word) (q : List ThreadId) : Prop :=
  match M.queue with
  | .idle | .done => M.Holds q
  | .getWait => M.Taking q ∧ M.sendValid = true ∧ M.send = .idle ∧ M.store.port = .read M.sendFirst
  | .getDone => M.Taking q ∧ M.send = .sending ∧ lines = none ∧
      M.store.dout = M.store.contents M.sendFirst

end Master

namespace Watched

variable {base : Word} {b : Bus} {w : MstBus} {x : Watched m} {q : List ThreadId}

/-- The id taken from the queue whose read has not been issued. -/
def unissued (x : Watched m) : List ThreadId :=
  if x.master.sendValid = true ∨ x.master.send = .sending ∧ x.lines = none then [x.master.sendCur]
  else []

/-- Everything handed off has been read, is about to be read, or stands in the queue. -/
structure Flows (base : Word) (x : Watched m) (q : List ThreadId) : Prop where
  handed : ∃ issued, x.reads = issued.map (Master.addThread base) ∧
    x.handed = issued ++ (x.unissued ++ q)
  stage : x.master.Stage x.lines q
  valid : x.master.sendValid = true → x.master.queue = .getWait
  lines : ∀ a ∈ x.lines, x.master.send = .sending ∧ a = Master.addThread base x.master.sendCur
  first : x.master.send = .sending → x.lines = none → x.master.queue = .getDone
  spaced : x.master.queue = .done → x.slave.unlock.cs = .idle

lemma Flows.mem_pending (h : Flows base x q) {id : ThreadId} (hid : id ∈ q) : id ∈ x.pending := by
  obtain ⟨issued, hreads, hhanded⟩ := h.handed
  rw [pending, hhanded, hreads, List.length_map, List.drop_left]
  exact List.mem_append_left _ (List.mem_append_right _ hid)

lemma flows_start (s : Slave m) {M : Master} (hM : M.AtRest) : Flows base (start s M) [] where
  handed := ⟨[], rfl, by simp [start, unissued, hM.sendValid, hM.send]⟩
  stage := by
    have hholds : M.Holds [] := ⟨by rw [hM.sendCount]; rfl, fun hne => absurd rfl hne⟩
    simpa [start, Master.Stage, hM.queue] using hholds
  valid hvalid := by
    rw [start, hM.sendValid] at hvalid
    cases hvalid
  lines a ha := by cases ha
  first hsend := by
    rw [start, hM.send] at hsend
    cases hsend
  spaced hdone := by
    rw [start, hM.queue] at hdone
    cases hdone

lemma sent_of_idle {r : UnlockRegs} (h : r.cs = .idle) : r.sent = none := by
  rw [UnlockRegs.sent, h]

lemma unlock_clock_of_sent {s : Slave m} {id : ThreadId} (h : s.unlock.sent = some id) (b : Bus) :
    (s.clock b).unlock.cs = .idle := by
  have hcs : s.unlock.cs = .doneThread := by
    rw [UnlockRegs.sent] at h
    split at h
    next hcs => exact hcs
    next => cases h
  simp [Slave.clock, Slave.unlockDrive, unlockController, hcs]

lemma unlock_sent_clock_of_idle {s : Slave m} (h : s.unlock.cs = .idle) (b : Bus) :
    (s.clock b).unlock.sent = none := by
  cases hstart : (s.signals b .unlock).start <;>
    simp [Slave.clock, Slave.unlockDrive, unlockController, h, awaitStart, hstart, UnlockRegs.sent]

lemma Flows.calm (h : Flows base x q) (hq : x.master.queue = .idle ∨ x.master.queue = .done) :
    x.master.sendValid = false ∧ x.unissued = [] ∧ (x.clock base b w).reads = x.reads ∧
      ((x.clock base b w).master.send = .sending → (x.clock base b w).lines ≠ none) := by
  have hvalid : x.master.sendValid = false := by
    by_contra hv
    have hwait := h.valid (Bool.not_eq_false _ ▸ hv)
    rcases hq with hq | hq <;> rw [hq] at hwait <;> cases hwait
  have hsending : ¬ (x.master.send = .sending ∧ x.lines = none) := by
    rintro ⟨hs, hl⟩
    have hdone := h.first hs hl
    rcases hq with hq | hq <;> rw [hq] at hdone <;> cases hdone
  refine ⟨hvalid, ?_, ?_, ?_⟩
  · simp [unissued, hvalid, hsending]
  · simp only [clock, Master.mstRd]
    by_cases hl : x.lines = none
    · have hs : x.master.send ≠ .sending := fun hs => hsending ⟨hs, hl⟩
      simp [hs]
    · simp [hl]
  · cases hs : x.master.send with
    | idle => simp [clock, Master.clock, Master.sendController, hs, hvalid]
    | sending => cases hack : w.cmdAck <;>
        simp [clock, Master.clock, Master.sendController, Master.mstRd, hs, hack]
    | finish => cases hc : (x.master.mstCmplt || w.cmplt) <;>
        simp [clock, Master.clock, Master.sendController, hs, hc]

lemma lines_clock {a : Word} (ha : a ∈ (x.clock base b w).lines) :
    x.master.send = .sending ∧ (x.clock base b w).master.send = .sending ∧
      a = Master.addThread base x.master.sendCur := by
  simp only [clock, Master.mstRd] at ha
  split at ha
  next hs =>
    cases ha
    exact ⟨hs.1, by simp [clock, Master.clock, Master.sendController, hs.1, hs.2], rfl⟩
  next => cases ha

lemma Flows.settled {q' ids : List ThreadId} (h : Flows base x q)
    (hq : x.master.queue = .idle ∨ x.master.queue = .done)
    (hq' : (x.clock base b w).master.queue = .idle ∨ (x.clock base b w).master.queue = .done)
    (hvalid : (x.clock base b w).master.sendValid = false)
    (hcur : (x.clock base b w).master.sendCur = x.master.sendCur)
    (hsent : x.slave.unlock.sent.toList = ids) (hids : q' = q ++ ids)
    (hholds : (x.clock base b w).master.Holds q')
    (hspaced : (x.clock base b w).master.queue = .done →
      (x.clock base b w).slave.unlock.cs = .idle) :
    Flows base (x.clock base b w) q' := by
  obtain ⟨-, hun, hreads, hsending⟩ := h.calm (b := b) (w := w) hq
  have hun' : (x.clock base b w).unissued = [] := by
    rw [unissued, if_neg]
    rintro (hv | ⟨hs, hl⟩)
    · rw [hvalid] at hv
      cases hv
    · exact hsending hs hl
  refine ⟨?_, ?_, fun hv => ?_, fun a ha => ?_, fun hs hl => absurd hl (hsending hs), hspaced⟩
  · obtain ⟨issued, hissued, hhanded⟩ := h.handed
    refine ⟨issued, hreads.trans hissued, ?_⟩
    have hlog : (x.clock base b w).handed = x.handed ++ ids := by rw [clock, hsent]
    rw [hlog, hhanded, hun, hun', hids]
    simp
  · rw [Master.Stage]
    rcases hq' with hq' | hq' <;> rw [hq'] <;> exact hholds
  · rw [hvalid] at hv
    cases hv
  · obtain ⟨-, hs, heq⟩ := lines_clock ha
    rw [hcur]
    exact ⟨hs, heq⟩

lemma Flows.step_done (h : Flows base x q) (hq : x.master.queue = .done) :
    Flows base (x.clock base b w) q := by
  have hsent := sent_of_idle (h.spaced hq)
  have hholds : x.master.Holds q := by
    have hstage := h.stage
    rwa [Master.Stage, hq] at hstage
  have hctrl : x.master.queueController none =
      ({ x.master with sendValid := false, queue := .idle }, .off) := by
    simp [Master.queueController, hq]
  refine h.settled (.inr hq) (.inl ?_) ?_ ?_ (by rw [hsent]; rfl) (List.append_nil q).symm ?_ ?_
  · simp [clock, Master.clock, hsent, hctrl]
  · simp [clock, Master.clock, hsent, hctrl]
  · simp [clock, Master.clock, hsent, hctrl]
  · refine ⟨?_, fun hne => ?_⟩
    · simpa [clock, Master.clock, hsent, hctrl] using hholds.count
    · simpa [clock, Master.clock, hsent, hctrl] using hholds.path hne
  · simp [clock, Master.clock, hsent, hctrl]

lemma Flows.step_quiet (h : Flows base x q) (hq : x.master.queue = .idle)
    (hsent : x.slave.unlock.sent = none)
    (hpop : (x.master.sendRdy && x.master.sendCount != 0) = false) :
    Flows base (x.clock base b w) q := by
  have hholds : x.master.Holds q := by
    have hstage := h.stage
    rwa [Master.Stage, hq] at hstage
  have hctrl : x.master.queueController none = ({ x.master with sendValid := false }, .off) := by
    simp only [Master.queueController, hq, hpop, Bool.false_eq_true, if_false]
  refine h.settled (.inl hq) (.inl ?_) ?_ ?_ (by rw [hsent]; rfl) (List.append_nil q).symm ?_ ?_
  · simp [clock, Master.clock, hsent, hctrl, hq]
  · simp [clock, Master.clock, hsent, hctrl]
  · simp [clock, Master.clock, hsent, hctrl]
  · refine ⟨?_, fun hne => ?_⟩
    · simpa [clock, Master.clock, hsent, hctrl] using hholds.count
    · simpa [clock, Master.clock, hsent, hctrl] using hholds.path hne
  · simp [clock, Master.clock, hsent, hctrl, hq]

lemma Flows.step_heard (h : Flows base x q) (hq : x.master.queue = .idle) {id : ThreadId}
    (hsent : x.slave.unlock.sent = some id) (hroom : x.master.sendCount ≠ 255) (hid : id ∉ q) :
    Flows base (x.clock base b w) (q ++ [id]) := by
  have hholds : x.master.Holds q := by
    have hstage := h.stage
    rwa [Master.Stage, hq] at hstage
  have hcount : (x.master.sendCount + 1).toNat = (q ++ [id]).length := by
    have hne : x.master.sendCount.toNat ≠ 255 := fun heq => hroom (BitVec.eq_of_toNat_eq heq)
    have hlt := x.master.sendCount.isLt
    rw [toNat_succ_of_lt (by omega), hholds.count, List.length_append]
    rfl
  by_cases hzero : x.master.sendCount = 0
  · have hnil : q = [] := by
      rw [← List.length_eq_zero_iff, ← hholds.count, hzero]
      rfl
    have hctrl : x.master.queueController (some id) =
        ({ x.master with sendFirst := id, sendLast := id, sendCount := x.master.sendCount + 1
                         sendValid := false, queue := .done }, .off) := by
      simp only [Master.queueController, hq, hzero, if_true]
    refine h.settled (.inl hq) (.inr ?_) ?_ ?_ (by rw [hsent]; rfl) rfl ?_ fun _ => ?_
    · simp [clock, Master.clock, hsent, hctrl]
    · simp [clock, Master.clock, hsent, hctrl]
    · simp [clock, Master.clock, hsent, hctrl]
    · refine ⟨?_, fun _ => ?_⟩
      · simpa [clock, Master.clock, hsent, hctrl] using hcount
      · simpa [clock, Master.clock, hsent, hctrl, hnil] using Path.last
    · exact unlock_clock_of_sent hsent b
  · have hne : q ≠ [] := by
      rintro rfl
      exact hzero (BitVec.eq_of_toNat_eq hholds.count)
    have hctrl : x.master.queueController (some id) =
        ({ x.master with sendLast := id, sendCount := x.master.sendCount + 1, sendValid := false
                         queue := .done }, .write x.master.sendLast id) := by
      simp only [Master.queueController, hq, if_neg hzero]
    have hpath := (hholds.path hne).concat hid
      (Function.update_self x.master.sendLast id x.master.store.contents)
      fun u _ hu => Function.update_of_ne hu _ _
    refine h.settled (.inl hq) (.inr ?_) ?_ ?_ (by rw [hsent]; rfl) rfl ?_ fun _ => ?_
    · simp [clock, Master.clock, hsent, hctrl]
    · simp [clock, Master.clock, hsent, hctrl]
    · simp [clock, Master.clock, hsent, hctrl]
    · refine ⟨?_, fun _ => ?_⟩
      · simpa [clock, Master.clock, hsent, hctrl] using hcount
      · simpa [clock, Master.clock, hsent, hctrl] using hpath
    · exact unlock_clock_of_sent hsent b

lemma Flows.step_pop (h : Flows base x q) (hq : x.master.queue = .idle)
    (hsent : x.slave.unlock.sent = none)
    (hpop : (x.master.sendRdy && x.master.sendCount != 0) = true) :
    ∃ c q', q = c :: q' ∧ Flows base (x.clock base b w) q' := by
  have hholds : x.master.Holds q := by
    have hstage := h.stage
    rwa [Master.Stage, hq] at hstage
  have hctrl : x.master.queueController none =
      ({ x.master with sendCur := x.master.sendFirst, sendValid := true, queue := .getWait },
        .read x.master.sendFirst) := by
    simp only [Master.queueController, hq, hpop, if_true]
  obtain ⟨hrdy, hcount⟩ := Bool.and_eq_true_iff.mp hpop
  have hidle : x.master.send = .idle := by simpa [Master.sendRdy] using hrdy
  have hne : q ≠ [] := by
    rintro rfl
    have hzero : x.master.sendCount = 0 := BitVec.eq_of_toNat_eq hholds.count
    simp [hzero] at hcount
  have hpath := hholds.path hne
  obtain ⟨q', rfl⟩ := hpath.exists_cons
  obtain ⟨hvalid, hun, hreads, -⟩ := h.calm (b := b) (w := w) (.inl hq)
  refine ⟨_, q', rfl, ?_, ?_, fun _ => ?_, fun a ha => ?_, fun hs => ?_, fun hdone => ?_⟩
  · obtain ⟨issued, hissued, hhanded⟩ := h.handed
    refine ⟨issued, hreads.trans hissued, ?_⟩
    have hun' : (x.clock base b w).unissued = [x.master.sendFirst] := by
      simp [unissued, clock, Master.clock, hsent, hctrl]
    rw [hun', clock, hhanded, hun, hsent]
    simp
  · rw [Master.Stage]
    simp only [clock, Master.clock, hsent, hctrl]
    refine ⟨⟨?_, ?_⟩, trivial, ?_, rfl⟩
    · simpa using hholds.count
    · simpa using hpath
    · simp [Master.sendController, hidle, hvalid]
  · simp [clock, Master.clock, hsent, hctrl]
  · obtain ⟨hs, -⟩ := lines_clock ha
    rw [hidle] at hs
    cases hs
  · simp [clock, Master.clock, Master.sendController, hidle, hvalid] at hs
  · simp [clock, Master.clock, hsent, hctrl] at hdone

lemma Flows.step_getWait (h : Flows base x q) (hq : x.master.queue = .getWait)
    (hsent : x.slave.unlock.sent = none) : Flows base (x.clock base b w) q := by
  have hstage := h.stage
  rw [Master.Stage, hq] at hstage
  obtain ⟨htaking, hvalid, hidle, hport⟩ := hstage
  have hctrl : x.master.queueController none =
      ({ x.master with sendValid := false, queue := .getDone }, .off) := by
    simp [Master.queueController, hq]
  have hlines : (x.clock base b w).lines = none := by simp [clock, Master.mstRd, hidle]
  have hsend : (x.clock base b w).master.send = .sending := by
    simp [clock, Master.clock, Master.sendController, hidle, hvalid]
  have hdata : x.master.store.data = x.master.store.contents := by simp [Store.contents, hport]
  refine ⟨?_, ?_, fun hv => ?_, fun a ha => ?_, fun _ _ => ?_, fun hdone => ?_⟩
  · obtain ⟨issued, hissued, hhanded⟩ := h.handed
    refine ⟨issued, ?_, ?_⟩
    · rw [← hissued]
      simp [clock, Master.mstRd, hidle]
    · have hun : x.unissued = [x.master.sendCur] := by simp [unissued, hvalid]
      have hun' : (x.clock base b w).unissued = [x.master.sendCur] := by
        rw [unissued, if_pos (.inr ⟨hsend, hlines⟩)]
        simp [clock, Master.clock, hsent, hctrl]
      rw [hun', clock, hhanded, hun, hsent]
      simp
  · rw [Master.Stage]
    simp only [clock, Master.clock, hsent, hctrl]
    refine ⟨⟨?_, ?_⟩, ?_, ?_, ?_⟩
    · simpa using htaking.count
    · simpa using htaking.path
    · simp [Master.sendController, hidle, hvalid]
    · simp [Master.mstRd, hidle]
    · simp [Store.clock_dout, hport, hdata]
  · simp [clock, Master.clock, hsent, hctrl] at hv
  · rw [hlines] at ha
    cases ha
  · simp [clock, Master.clock, hsent, hctrl]
  · simp [clock, Master.clock, hsent, hctrl] at hdone

lemma Flows.step_getDone (h : Flows base x q) (hq : x.master.queue = .getDone)
    (hsent : x.slave.unlock.sent = none) (hack : w.cmdAck = true → x.lines.isSome) :
    Flows base (x.clock base b w) q := by
  have hstage := h.stage
  rw [Master.Stage, hq] at hstage
  obtain ⟨htaking, hsending, hnone, hdout⟩ := hstage
  have hctrl : x.master.queueController none =
      ({ x.master with sendFirst := x.master.store.dout, sendCount := x.master.sendCount - 1
                       sendValid := false, queue := .idle }, .off) := by
    simp [Master.queueController, hq]
  have hnoack : w.cmdAck = false := by
    by_contra htrue
    have hsome := hack (Bool.not_eq_false _ ▸ htrue)
    rw [hnone] at hsome
    cases hsome
  have hlines : (x.clock base b w).lines = some (Master.addThread base x.master.sendCur) := by
    simp [clock, Master.mstRd, hsending, hnoack]
  have hcur : (x.clock base b w).master.sendCur = x.master.sendCur := by
    simp [clock, Master.clock, hsent, hctrl]
  refine ⟨?_, ?_, fun hv => ?_, fun a ha => ?_, fun _ hl => ?_, fun hdone => ?_⟩
  · obtain ⟨issued, hissued, hhanded⟩ := h.handed
    refine ⟨issued ++ [x.master.sendCur], ?_, ?_⟩
    · rw [List.map_append, ← hissued]
      simp [clock, Master.mstRd, hsending, hnoack, hnone]
    · have hun : x.unissued = [x.master.sendCur] := by simp [unissued, hsending, hnone]
      have hun' : (x.clock base b w).unissued = [] := by
        rw [unissued, hlines]
        simp [clock, Master.clock, hsent, hctrl]
      rw [hun', clock, hhanded, hun, hsent]
      simp
  · rw [Master.Stage]
    simp only [clock, Master.clock, hsent, hctrl]
    have hcount : (x.master.sendCount - 1).toNat = q.length := by
      have hne : x.master.sendCount ≠ 0 := by
        intro hzero
        have heq := htaking.count
        rw [hzero] at heq
        cases heq
      rw [toNat_pred_of_ne_zero hne, htaking.count, Nat.add_sub_cancel]
    refine ⟨?_, fun hne => ?_⟩
    · simpa using hcount
    · obtain ⟨-, -, hpath⟩ := htaking.path.of_cons hne
      rw [← htaking.first_eq, ← hdout] at hpath
      simpa using hpath
  · simp [clock, Master.clock, hsent, hctrl] at hv
  · obtain ⟨-, hs, heq⟩ := lines_clock ha
    rw [hcur]
    exact ⟨hs, heq⟩
  · rw [hlines] at hl
    cases hl
  · simp [clock, Master.clock, hsent, hctrl] at hdone

/-- What the runs of the core have to meet in every cycle: an acknowledge answers a request, an id
handed off is not already pending, and the queue controller hears of it. -/
structure Fits (x : Watched m) (w : MstBus) : Prop where
  ack : w.cmdAck = true → x.lines.isSome
  fresh : ∀ id ∈ x.slave.unlock.sent, id ∉ x.pending
  heard : x.Heard

lemma Flows.step (h : Flows base x q) (hx : x.Fits w) :
    ∃ q', Flows base (x.clock base b w) q' := by
  cases hsent : x.slave.unlock.sent with
  | none =>
    cases hq : x.master.queue with
    | idle =>
      cases hpop : x.master.sendRdy && x.master.sendCount != 0 with
      | true =>
        obtain ⟨c, q', -, hflows⟩ := h.step_pop hq hsent hpop
        exact ⟨q', hflows⟩
      | false => exact ⟨q, h.step_quiet hq hsent hpop⟩
    | done => exact ⟨q, h.step_done hq⟩
    | getWait => exact ⟨q, h.step_getWait hq hsent⟩
    | getDone => exact ⟨q, h.step_getDone hq hsent hx.ack⟩
  | some id =>
    obtain ⟨hwait, hget, hroom⟩ := hx.heard (by rw [hsent]; rfl)
    cases hq : x.master.queue with
    | idle =>
      have hid : id ∉ q := fun hmem => hx.fresh id hsent (h.mem_pending hmem)
      exact ⟨_, h.step_heard hq hsent hroom hid⟩
    | done => exact ⟨q, h.step_done hq⟩
    | getWait => exact absurd hq hwait
    | getDone => exact absurd hq hget

end Watched

end Hthreads.SyncManager
