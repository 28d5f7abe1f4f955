import Hthreads.CondVars.Core

/-! The master state machine of the condition variable core, which reads ADD_THREAD from the thread
manager for every thread id in the message channel (`MASTER_CMD_SM_PROC` of `user_logic.vhd`). -/

namespace Hthreads.CondVars

open Library Scheduler

inductive CmdState
  | idle
  | run
  | waitForData
  | done
  deriving DecidableEq

structure MstBus where
  cmdAck : Bool
  cmplt : Bool
  error : Bool
  cmdTimeout : Bool

def formTmAddr (base : Word) (tid : ThreadId) : Word := base ||| (0x00001#20 ++ 0#2 ++ tid ++ 0#2)

structure Messenger where
  state : CmdState
  clrGo : Bool
  rdReq : Bool
  addr : Word
  be : BitVec 4
  setDone : Bool
  setError : Bool
  setTimeout : Bool
  busy : Bool
  fslRead : Bool

namespace Messenger

-- the default assignments at the head of the process
def default (state : CmdState) : Messenger :=
  ⟨state, false, false, 0, 0, false, false, false, true, false⟩

def clock (base : Word) (w : MstBus) (hasData : Bool) (data : ThreadId) (M : Messenger) :
    Messenger :=
  match M.state with
  | .idle =>
    if hasData then { default .run with clrGo := true } else { default .idle with busy := false }
  | .run =>
    if w.cmdAck && !w.cmplt then { default .waitForData with fslRead := true }
    else if w.cmplt then
      { default .done with
        fslRead := true
        setError := w.cmdTimeout || w.error
        setTimeout := w.cmdTimeout }
    else { default .run with rdReq := true, addr := formTmAddr base data, be := BitVec.allOnes 4 }
  | .waitForData => if w.cmplt then default .done else default .waitForData
  | .done => { default .idle with setDone := true, busy := false }

end Messenger

/-- What happens around the state machine in one cycle: the answer of the bus, an id written to the
channel, and how many of the ids written earlier come to its output. -/
structure Turn where
  bus : MstBus
  write : Option ThreadId
  shown : ℕ

/-- The state machine with the channel: the ids at its output, those on their way to it, the ids
popped so far and the addresses of the reads issued so far. -/
structure Delivery where
  messenger : Messenger
  ready : List ThreadId
  entering : List ThreadId
  outstanding : Bool
  pops : List ThreadId
  reads : List Word

namespace Delivery

-- the output of the channel is not defined while it is empty
def clock (base : Word) (t : Turn) (d : Delivery) : Delivery where
  messenger := d.messenger.clock base t.bus (!d.ready.isEmpty) (d.ready.headD 0)
  ready := (if d.messenger.fslRead then d.ready.tail else d.ready) ++ d.entering.take t.shown
  entering := d.entering.drop t.shown ++ t.write.toList
  outstanding := !t.bus.cmplt && (t.bus.cmdAck || d.outstanding)
  pops := d.pops ++ if d.messenger.fslRead then d.ready.take 1 else []
  reads := d.reads ++
    if d.messenger.rdReq && (t.bus.cmdAck || t.bus.cmplt) then [d.messenger.addr] else []

def run (base : Word) (d : Delivery) (turns : ℕ → Turn) : ℕ → Delivery
  | 0 => d
  | n + 1 => (run base d turns n).clock base (turns n)

def contents (d : Delivery) : List ThreadId := d.pops ++ d.ready ++ d.entering

/-- The bus acknowledges only a request, and completes only what it was asked for. -/
structure Fits (w : MstBus) (d : Delivery) : Prop where
  ack : w.cmdAck = true → d.messenger.rdReq = true
  cmplt : w.cmplt = true → d.messenger.rdReq = true ∨ d.outstanding = true

/-- Every read issued is for an id that has been popped, or for the one whose pop is under way. -/
structure Books (base : Word) (popping : Option ThreadId) (d : Delivery) : Prop where
  fslRead : d.messenger.fslRead = popping.isSome
  head : ∀ id ∈ popping, d.ready.head? = some id
  reads : d.reads = (d.pops ++ popping.toList).map (formTmAddr base)

inductive Stage (base : Word) (d : Delivery) : Prop
  | idle : d.messenger.state = .idle → d.messenger.rdReq = false → d.outstanding = false →
      d.Books base none → Stage base d
  | starting : d.messenger.state = .run → d.messenger.rdReq = false → d.outstanding = false →
      d.ready ≠ [] → d.Books base none → Stage base d
  | requesting {id : ThreadId} : d.messenger.state = .run → d.messenger.rdReq = true →
      d.outstanding = false → d.ready.head? = some id → d.messenger.addr = formTmAddr base id →
      d.Books base none → Stage base d
  | waiting {p : Option ThreadId} : d.messenger.state = .waitForData → d.messenger.rdReq = false →
      d.outstanding = true → d.Books base p → Stage base d
  | finishing {p : Option ThreadId} : d.messenger.state = .done → d.messenger.rdReq = false →
      d.outstanding = false → d.Books base p → Stage base d

section Cycles

variable {base : Word} {t : Turn} {d : Delivery} {p : Option ThreadId} {id : ThreadId}

lemma take_one {l : List ThreadId} (h : l.head? = some id) : l.take 1 = [id] := by
  cases l with
  | nil => cases h
  | cons a l =>
    cases h
    rfl

lemma Books.settle (h : d.Books base p)
    (hnone : (d.messenger.rdReq && (t.bus.cmdAck || t.bus.cmplt)) = false)
    (hread : (d.clock base t).messenger.fslRead = false) : (d.clock base t).Books base none := by
  have hpops : (d.clock base t).pops = d.pops ++ p.toList := by
    cases p with
    | none => simp [clock, h.fslRead]
    | some id => simp [clock, h.fslRead, take_one (h.head id rfl)]
  refine ⟨hread, fun id hid => (Option.not_mem_none id hid).elim, ?_⟩
  rw [hpops, Option.toList_none, List.append_nil, ← h.reads]
  simp only [clock, hnone, Bool.false_eq_true, if_false, List.append_nil]

lemma Books.taken (h : d.Books base none) (hid : d.ready.head? = some id)
    (haddr : d.messenger.addr = formTmAddr base id)
    (htaken : (d.messenger.rdReq && (t.bus.cmdAck || t.bus.cmplt)) = true)
    (hread : (d.clock base t).messenger.fslRead = true) :
      (d.clock base t).Books base (some id) := by
  have hfsl : d.messenger.fslRead = false := h.fslRead
  refine ⟨hread, fun j hj => ?_, ?_⟩
  · cases hj
    simp [clock, hfsl, hid]
  · have hreads := h.reads
    rw [Option.toList_none, List.append_nil] at hreads
    simp only [clock, hfsl, htaken, if_true, Bool.false_eq_true, if_false, List.append_nil, hreads,
      haddr, Option.toList_some, List.map_append, List.map_singleton]

lemma ready_clock (hread : d.messenger.fslRead = false) :
    (d.clock base t).ready = d.ready ++ d.entering.take t.shown := by
  simp [clock, hread]

lemma Fits.quiet (hw : d.Fits t.bus) (hreq : d.messenger.rdReq = false) : t.bus.cmdAck = false := by
  by_contra hne
  have hr := hw.ack (by simpa using hne)
  rw [hreq] at hr
  cases hr

lemma Fits.done (hw : d.Fits t.bus) (hreq : d.messenger.rdReq = false)
    (hout : d.outstanding = false) : t.bus.cmplt = false := by
  by_contra hne
  have hr := hw.cmplt (by simpa using hne)
  rw [hreq, hout] at hr
  simp at hr

lemma Stage.clock_idle (hw : d.Fits t.bus) (hs : d.messenger.state = .idle)
    (hreq : d.messenger.rdReq = false) (hout : d.outstanding = false) (hb : d.Books base none) :
    (d.clock base t).Stage base := by
  have hout' : (d.clock base t).outstanding = false := by
    simp [Delivery.clock, hout, hw.quiet hreq]
  cases hr : d.ready with
  | nil =>
    have hm : (d.clock base t).messenger = { Messenger.default .idle with busy := false } := by
      simp [Delivery.clock, Messenger.clock, hs, hr]
    refine .idle ?_ ?_ hout' (hb.settle ?_ ?_)
    all_goals simp [hm, hreq, Messenger.default]
  | cons id l =>
    have hm : (d.clock base t).messenger = { Messenger.default .run with clrGo := true } := by
      simp [Delivery.clock, Messenger.clock, hs, hr]
    refine .starting ?_ ?_ hout' ?_ (hb.settle ?_ ?_)
    · simp [hm, Messenger.default]
    · simp [hm, Messenger.default]
    · rw [ready_clock hb.fslRead, hr]
      exact List.cons_ne_nil _ _
    · simp [hreq]
    · simp [hm, Messenger.default]

lemma Stage.clock_request (hs : d.messenger.state = .run) (hout : d.outstanding = false)
    (hid : d.ready.head? = some id) (hb : d.Books base none) (hack : t.bus.cmdAck = false)
    (hcmplt : t.bus.cmplt = false) : (d.clock base t).Stage base := by
  have hm : (d.clock base t).messenger =
      { Messenger.default .run with rdReq := true, addr := formTmAddr base id
                                    be := BitVec.allOnes 4 } := by
    simp [Delivery.clock, Messenger.clock, hs, hack, hcmplt, List.headD_eq_head?_getD, hid]
  have hfirst : (d.clock base t).ready.head? = some id := by
    rw [ready_clock hb.fslRead, List.head?_append, hid, Option.some_or]
  refine .requesting ?_ ?_ ?_ hfirst ?_ (hb.settle ?_ ?_)
  · simp [hm, Messenger.default]
  · simp [hm]
  · simp [Delivery.clock, hout, hack]
  · simp [hm]
  · simp [hack, hcmplt]
  · simp [hm, Messenger.default]

lemma Stage.clock_answer (hs : d.messenger.state = .run) (hreq : d.messenger.rdReq = true)
    (hid : d.ready.head? = some id)
    (haddr : d.messenger.addr = formTmAddr base id) (hb : d.Books base none)
    (htaken : (t.bus.cmdAck || t.bus.cmplt) = true) : (d.clock base t).Stage base := by
  have htaken' : (d.messenger.rdReq && (t.bus.cmdAck || t.bus.cmplt)) = true := by
    rw [hreq, htaken, Bool.and_self]
  cases hcmplt : t.bus.cmplt with
  | true =>
    have hm : (d.clock base t).messenger =
        { Messenger.default .done with
          fslRead := true
          setError := t.bus.cmdTimeout || t.bus.error
          setTimeout := t.bus.cmdTimeout } := by
      simp [Delivery.clock, Messenger.clock, hs, hcmplt]
    refine .finishing ?_ ?_ ?_ (hb.taken hid haddr htaken' ?_)
    · simp [hm, Messenger.default]
    · simp [hm, Messenger.default]
    · simp [Delivery.clock, hcmplt]
    · simp [hm]
  | false =>
    have hack : t.bus.cmdAck = true := by simpa [hcmplt] using htaken
    have hm : (d.clock base t).messenger =
      { Messenger.default .waitForData with fslRead := true } := by
      simp [Delivery.clock, Messenger.clock, hs, hcmplt, hack]
    refine .waiting ?_ ?_ ?_ (hb.taken hid haddr htaken' ?_)
    · simp [hm, Messenger.default]
    · simp [hm, Messenger.default]
    · simp [Delivery.clock, hcmplt, hack]
    · simp [hm]

lemma Stage.clock_waiting (hs : d.messenger.state = .waitForData) (hreq : d.messenger.rdReq = false)
    (hout : d.outstanding = true) (hb : d.Books base p) : (d.clock base t).Stage base := by
  cases hcmplt : t.bus.cmplt with
  | true =>
    have hm : (d.clock base t).messenger = Messenger.default .done := by
      simp [Delivery.clock, Messenger.clock, hs, hcmplt]
    refine .finishing ?_ ?_ ?_ (hb.settle ?_ ?_)
    · simp [hm, Messenger.default]
    · simp [hm, Messenger.default]
    · simp [Delivery.clock, hcmplt]
    · simp [hreq]
    · simp [hm, Messenger.default]
  | false =>
    have hm : (d.clock base t).messenger = Messenger.default .waitForData := by
      simp [Delivery.clock, Messenger.clock, hs, hcmplt]
    refine .waiting ?_ ?_ ?_ (hb.settle ?_ ?_)
    · simp [hm, Messenger.default]
    · simp [hm, Messenger.default]
    · simp [Delivery.clock, hcmplt, hout]
    · simp [hreq]
    · simp [hm, Messenger.default]

lemma Stage.clock_finishing (hw : d.Fits t.bus) (hs : d.messenger.state = .done)
    (hreq : d.messenger.rdReq = false) (hout : d.outstanding = false) (hb : d.Books base p) :
    (d.clock base t).Stage base := by
  have hm : (d.clock base t).messenger =
      { Messenger.default .idle with setDone := true, busy := false } := by
    simp [Delivery.clock, Messenger.clock, hs]
  refine .idle ?_ ?_ ?_ (hb.settle ?_ ?_)
  · simp [hm, Messenger.default]
  · simp [hm, Messenger.default]
  · simp [Delivery.clock, hout, hw.quiet hreq]
  · simp [hreq]
  · simp [hm, Messenger.default]

lemma Stage.clock (h : d.Stage base) (hw : d.Fits t.bus) : (d.clock base t).Stage base := by
  cases h with
  | idle hs hreq hout hb => exact clock_idle hw hs hreq hout hb
  | starting hs hreq hout hne hb =>
    obtain ⟨id, l, hl⟩ := List.exists_cons_of_ne_nil hne
    have hid : d.ready.head? = some id := by rw [hl, List.head?_cons]
    exact clock_request hs hout hid hb (hw.quiet hreq) (hw.done hreq hout)
  | requesting hs hreq hout hid haddr hb =>
    cases htaken : t.bus.cmdAck || t.bus.cmplt with
    | true => exact clock_answer hs hreq hid haddr hb htaken
    | false =>
      obtain ⟨hack, hcmplt⟩ := Bool.or_eq_false_iff.mp htaken
      exact clock_request hs hout hid hb hack hcmplt
  | waiting hs hreq hout hb => exact clock_waiting hs hreq hout hb
  | finishing hs hreq hout hb => exact clock_finishing hw hs hreq hout hb

lemma contents_clock : (d.clock base t).contents = d.contents ++ t.write.toList := by
  have hentering : d.entering.take t.shown ++ d.entering.drop t.shown = d.entering :=
    List.take_append_drop t.shown d.entering
  have hready : d.ready.take 1 ++ d.ready.tail = d.ready := by
    rw [← List.drop_one]
    exact List.take_append_drop 1 d.ready
  cases hread : d.messenger.fslRead with
  | true =>
    simp only [contents, clock, hread, if_true]
    nth_rewrite 3 [← hready]
    nth_rewrite 3 [← hentering]
    simp only [List.append_assoc]
  | false =>
    simp only [contents, clock, hread, Bool.false_eq_true, if_false, List.append_nil]
    nth_rewrite 3 [← hentering]
    simp only [List.append_assoc]

end Cycles

end Delivery

end Hthreads.CondVars
