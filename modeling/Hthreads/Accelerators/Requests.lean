import Hthreads.Accelerators.SlaveCalls

/-! The calls of a slave that go to its core: what they leave is what the software routines leave,
and every request is answered once unless it is about no words at all. -/

namespace Hthreads.Accelerators.Slave

open Library Software Slaves

section Agreement

variable {H : Hardware} {s : State} {listPtr : ℕ} {size : Huint}

/-- With the accelerator and without it the function comes to its end with SUCCESS and the same
contents of the main memory. -/
def Agrees (H : Hardware) (code : SlaveCode Hint) (s : State) (Leaves : (ℕ → Hint) → Prop) : Prop :=
  ∃ ram, Leaves ram ∧ ∀ accelerated,
    code.Total (State.Step { H with accelerated }) (fun r t => r = success ∧ t.ram = ram) s

/-- The words from `listPtr` on are put in ascending order, and no other word is changed. -/
structure SortedAt (listPtr n : ℕ) (ram ram' : ℕ → Hint) : Prop where
  ascending : ∀ i j, i ≤ j → j < n → (ram' (listPtr + i)).toInt ≤ (ram' (listPtr + j)).toInt
  perm : ((List.range n).map fun i => ram' (listPtr + i)).Perm
    ((List.range n).map fun i => ram (listPtr + i))
  outside : ∀ i, ¬ (⟨listPtr, n⟩ : Range).Contains i → ram' i = ram i

def listed (s : State) (listPtr : ℕ) (size : Huint) : Brams :=
  { s.brams with c := State.overwrite s.brams.c 0 size.toNat (s.read (.ram listPtr)) }

lemma ne_zero_of_pos (hpos : 1 ≤ size.toNat) : size ≠ 0 := by
  rintro rfl
  simp at hpos

lemma words_of_bytes (hsize : size.toNat ≤ 4096) : (size * 4).toNat / 4 = size.toNat := by
  rw [BitVec.toNat_mul, show (4 : Huint).toNat = 4 by decide]
  omega

lemma transferred_of_exact (hdma : H.Exact) (hpos : 1 ≤ size.toNat) (hsize : size.toNat ≤ 4096)
    (s : State) (src des : Place) :
      s.transferred H src des (size * 4) = s.copy src des size.toNat := by
  rw [State.transferred, if_pos (hdma size hpos hsize), words_of_bytes hsize]

lemma State.AtRest.total_deliver (hdma : H.Exact) (hpos : 1 ≤ size.toNat)
    (hsize : size.toNat ≤ 4096)
    (h : s.AtRest) {Q : Hint → State → Prop} {des : Place} {result : Hint} :
    (deliver des size result).Total (State.Step H) Q s ↔
      Q result (s.copy .bramC des size.toNat) := by
  rw [deliver, Program.total_bind, h.total_transferDma, transferred_of_exact hdma hpos hsize,
    hdma size hpos hsize, if_neg (by simp)]
  exact Program.total_pure _

/-- What the functions on a list have in common: a request or a routine that makes `m'` of the block
memories, between two transfers. -/
lemma State.AtRest.total_list (hdma : H.Exact) (hpos : 1 ≤ size.toNat) (hsize : size.toNat ≤ 4096)
    (h : s.AtRest) (acc : Accelerator) {ws : List Hint} (answered : Hint → SlaveCode Hint)
    {routine : Brams → Except Stop (Hint × Brams)} {m' : Brams} (hne : ws ≠ [])
    (hlen : ws.length = (H.turn acc).commands)
    (hbody : (H.turn acc).body ws (listed s listPtr size) = .ok (m', [1]))
    (hanswered : answered 1 = deliver (.ram listPtr) size success)
    (hroutine : routine (listed s listPtr size) = .ok (success, m')) :
    (do
      let useAccelerator ← polyInit acc size
      let status ← transferDma (.ram listPtr) .bramC (size * 4)
      if status ≠ 0 then pure failure
      else if useAccelerator then do
        let e ← request ws
        answered e
      else do
        let result ← Program.issue (.software routine)
        deliver (.ram listPtr) size result : SlaveCode Hint).Total (State.Step H)
      (fun r t => r = success ∧ t.ram = State.overwrite s.ram listPtr size.toNat m'.c) s := by
  set u := (s.initialised H acc).copy (.ram listPtr) .bramC size.toNat with hu
  have hrest : u.AtRest := (h.initialised acc).copy _ _ _
  have hram : u.ram = s.ram := by simp [hu, State.copy]
  have hread : (s.initialised H acc).read (.ram listPtr) = s.read (.ram listPtr) := by
    funext i
    simp [State.read]
  have hbrams : u.brams = listed s listPtr size := by simp [hu, State.copy, hread, listed]
  rw [Program.total_bind, h.total_polyInit, Program.total_bind,
    (h.initialised acc).total_transferDma,
    transferred_of_exact hdma hpos hsize, hdma size hpos hsize, if_neg (by simp), ← hu]
  cases hacc : H.accelerated with
  | true =>
    have hloaded : u.loaded = acc := by simp [hu, State.copy, State.initialised_loaded hacc]
    rw [if_pos rfl, Program.total_bind]
    refine hrest.total_request hne (by rw [hloaded, hlen]) (by rw [hloaded, hbrams, hbody]) ?_
    rw [hanswered, State.AtRest.total_deliver hdma hpos hsize ⟨rfl, rfl, rfl⟩]
    exact ⟨rfl, by rw [← hram]; rfl⟩
  | false =>
    have hran : u.access H (.software routine) = some ({ u with brams := m' }, success) := by
      rw [State.access, hbrams, hroutine]
    have hidle : ({ u with brams := m' } : State).AtRest := ⟨hrest.words, hrest.cmd, hrest.resp⟩
    rw [if_neg (by simp), Program.total_bind, hrest.total_issue hran,
      hidle.total_deliver hdma hpos hsize]
    exact ⟨rfl, by rw [← hram]; rfl⟩

lemma polyBubblesort_total (hdma : H.Exact) (hpos : 1 ≤ size.toNat) (hsize : size.toNat ≤ 4096)
    (h : s.AtRest) {c : ℕ → Hint} (hc : bubblePasses size 0 (listed s listPtr size).c = .ok c) :
    (polyBubblesort listPtr size).Total (State.Step H)
      (fun r t => r = success ∧ t.ram = State.overwrite s.ram listPtr size.toNat c) s := by
  have hne := ne_zero_of_pos hpos
  refine h.total_list hdma hpos hsize .bubblesort
    (fun _ => deliver (.ram listPtr) size success) (List.cons_ne_nil _ _) rfl
    (bubblesort_body hsize hne hc) rfl ?_
  rw [swBubblesort, Accelerators.polyBubblesort, hc]
  rfl

lemma polyCrc_total (hdma : H.Exact) (hpos : 1 ≤ size.toNat) (hsize : size.toNat ≤ 4096)
    (h : s.AtRest) {m' : Brams} (hm : wordLoop crcWord size 0 (listed s listPtr size) = .ok m') :
    (polyCrc listPtr size).Total (State.Step H)
      (fun r t => r = success ∧ t.ram = State.overwrite s.ram listPtr size.toNat m'.c) s := by
  have hne := ne_zero_of_pos hpos
  have hbody := crc_body hsize hm
  rw [lastTurn, if_neg hne] at hbody
  refine h.total_list hdma hpos hsize .crc
    (fun e => if e ≠ 1 then pure failure else deliver (.ram listPtr) size success)
    (List.cons_ne_nil _ _) rfl hbody rfl ?_
  rw [swCrc, hm]
  rfl

lemma overwrite_add {mem f : ℕ → Hint} {start n i : ℕ} (hi : i < n) :
    State.overwrite mem start n f (start + i) = f i := by
  rw [State.overwrite, if_pos (by omega), Nat.add_sub_cancel_left]

lemma overwrite_outside {mem f : ℕ → Hint} {start n i : ℕ}
    (hi : ¬ (⟨start, n⟩ : Range).Contains i) : State.overwrite mem start n f i = mem i :=
  if_neg hi

lemma sortedAt_overwrite {c : ℕ → Hint}
    (hperm : Rearranges {i | i < size.toNat} (listed s listPtr size).c c) (hc : Settled 1 size c) :
    SortedAt listPtr size.toNat s.ram (State.overwrite s.ram listPtr size.toNat c) where
  ascending i j hij hj := by
    rw [overwrite_add (hij.trans_lt hj), overwrite_add hj]
    rcases Nat.eq_zero_or_pos j with rfl | hpos
    · rw [Nat.le_zero.mp hij]
    · exact hc i j hij hpos hj
  perm := by
    have hafter : (List.range size.toNat).map
        (fun i => State.overwrite s.ram listPtr size.toNat c (listPtr + i)) =
          (List.range size.toNat).map c :=
      List.map_congr_left fun i hi => overwrite_add (List.mem_range.mp hi)
    have hbefore : (List.range size.toNat).map (listed s listPtr size).c =
        (List.range size.toNat).map fun i => s.ram (listPtr + i) := by
      refine List.map_congr_left fun i hi => ?_
      exact (congrArg _ (Nat.zero_add i).symm).trans (overwrite_add (List.mem_range.mp hi))
    rw [hafter, ← hbefore]
    exact hperm.perm List.nodup_range (by simp)
  outside _ hi := overwrite_outside hi

lemma map_eq_overwrite {m' : Brams} (hm : ∀ j, m'.c j =
    if j < size.toNat then genCrc ((listed s listPtr size).c j) else (listed s listPtr size).c j) :
    State.overwrite s.ram listPtr size.toNat m'.c =
      (⟨listPtr, size.toNat⟩ : Range).map genCrc s.ram := by
  funext i
  by_cases hi : (⟨listPtr, size.toNat⟩ : Range).Contains i
  · obtain ⟨j, rfl⟩ := Nat.exists_eq_add_of_le hi.1
    have hj : j < size.toNat := by
      have := hi.2
      dsimp only at this
      omega
    have hlisted : (listed s listPtr size).c j = s.ram (listPtr + j) :=
      (congrArg _ (Nat.zero_add j).symm).trans (overwrite_add hj)
    rw [overwrite_add hj, hm, if_pos hj, hlisted, Range.map, if_pos hi]
  · rw [overwrite_outside hi, Range.map, if_neg hi]

theorem accelerators_agree_with_the_routines (hdma : H.Exact) (h : s.AtRest) (listPtr : ℕ)
    (hpos : 1 ≤ size.toNat) (hsize : size.toNat ≤ 4096) :
    Agrees H (polyBubblesort listPtr size) s (SortedAt listPtr size.toNat s.ram) ∧
      Agrees H (polyCrc listPtr size) s
        (· = (⟨listPtr, size.toNat⟩ : Range).map genCrc s.ram) := by
  constructor
  · have hstart : Settled (size.toNat - (0 : Huint).toNat) size (listed s listPtr size).c :=
      fun i j _ hj hin => absurd hin (by simpa using hj)
    obtain ⟨c, hc, hperm, hsettled⟩ := bubblePasses_spec hstart hpos
    exact ⟨_, sortedAt_overwrite hperm hsettled, fun accelerated =>
      polyBubblesort_total (H := { H with accelerated }) hdma hpos hsize h hc⟩
  · obtain ⟨m', hm, hwords⟩ := crcLoop_spec (listed s listPtr size) hsize
    exact ⟨_, map_eq_overwrite hwords, fun accelerated =>
      polyCrc_total (H := { H with accelerated }) hdma hpos hsize h hm⟩

theorem two_words_agree :
    Agrees ⟨id, ⟨0, fun _ m => .ok (m, [])⟩, fun _ => 0, true⟩ (polyBubblesort 5 2)
        (State.initial (fun i => BitVec.ofNat 32 (9 - i)) .crc)
        (SortedAt 5 2 fun i => BitVec.ofNat 32 (9 - i)) ∧
      Agrees ⟨id, ⟨0, fun _ m => .ok (m, [])⟩, fun _ => 0, true⟩ (polyCrc 5 2)
        (State.initial (fun i => BitVec.ofNat 32 (9 - i)) .crc)
        (· = (⟨5, 2⟩ : Range).map genCrc fun i => BitVec.ofNat 32 (9 - i)) :=
  accelerators_agree_with_the_routines (fun _ _ _ => rfl) ⟨rfl, rfl, rfl⟩ 5 (by decide) (by decide)

end Agreement

section Answered

inductive Call
  | crc (listPtr : ℕ) (size : Huint)
  | vectoradd (aPtr bPtr cPtr : ℕ) (size : Huint)
  | vectorsub (aPtr bPtr cPtr : ℕ) (size : Huint)
  | vectormul (aPtr bPtr cPtr : ℕ) (size : Huint)
  | vectordiv (aPtr bPtr cPtr : ℕ) (size : Huint)

namespace Call

def code : Call → SlaveCode Hint
  | crc listPtr size => polyCrc listPtr size
  | vectoradd aPtr bPtr cPtr size => polyVectoradd aPtr bPtr cPtr size
  | vectorsub aPtr bPtr cPtr size => polyVectorsub aPtr bPtr cPtr size
  | vectormul aPtr bPtr cPtr size => polyVectormul aPtr bPtr cPtr size
  | vectordiv aPtr bPtr cPtr size => polyVectordiv aPtr bPtr cPtr size

def size : Call → Huint
  | crc _ size => size
  | vectoradd _ _ _ size => size
  | vectorsub _ _ _ size => size
  | vectormul _ _ _ size => size
  | vectordiv _ _ _ size => size

def words : Call → List Hint
  | crc _ size => [size, 0]
  | vectoradd _ _ _ size => [1, size, 0]
  | vectorsub _ _ _ size => [2, size, 0]
  | vectormul _ _ _ size => [1, size, 0]
  | vectordiv _ _ _ size => [2, size, 0]

end Call

/-- From `s` to `t` the core has taken the command words of the call and nothing else, has answered
with one word, which the driver has received, and is back at its first command. -/
structure AnsweredOnce (c : Call) (s t : State) : Prop where
  atRest : t.AtRest
  taken : t.taken = s.taken ++ c.words
  answered : ∃ e, t.answered = s.answered ++ [e] ∧ t.received = s.received ++ [e]

/-- Every call of a sequence comes to its end, whatever the core and the driver do in which order,
and is answered once. -/
def Serves (H : Hardware) : List Call → State → Prop
  | [], _ => True
  | c :: rest, s =>
    c.code.Total (State.Step H) (fun _ t => AnsweredOnce c s t ∧ Serves H rest t) s

variable {H : Hardware} {s : State} {size : Huint}

lemma answeredOnce_of_request (hdma : H.Exact) (hpos : 1 ≤ size.toNat) (hsize : size.toNat ≤ 4096)
    {u : State} (hu : u.AtRest) (hlinks : State.SameLinks s u) (c : Call) {m' : Brams} {des : Place}
    (answered : Hint → SlaveCode Hint) (hlen : c.words.length = (H.turn u.loaded).commands)
    (hbody : (H.turn u.loaded).body c.words u.brams = .ok (m', [1]))
    (hanswered : answered 1 = deliver des size success) :
    (request c.words >>= answered).Total (State.Step H) (fun _ t => AnsweredOnce c s t) u := by
  have hne : c.words ≠ [] := by cases c <;> exact List.cons_ne_nil _ _
  rw [Program.total_bind]
  refine hu.total_request hne hlen hbody ?_
  rw [hanswered, State.AtRest.total_deliver hdma hpos hsize ⟨rfl, rfl, rfl⟩]
  refine ⟨State.AtRest.copy ⟨rfl, rfl, rfl⟩ _ _ _, ?_, 1, ?_, ?_⟩
  · rw [(State.sameLinks_copy _ _ _).taken, ← hlinks.taken]
    rfl
  · rw [(State.sameLinks_copy _ _ _).answered, ← hlinks.answered]
    rfl
  · rw [(State.sameLinks_copy _ _ _).received, ← hlinks.received]

lemma polyCrc_answeredOnce (hacc : H.accelerated = true) (hdma : H.Exact) (hpos : 1 ≤ size.toNat)
    (hsize : size.toNat ≤ 4096) (h : s.AtRest) (listPtr : ℕ) :
    (polyCrc listPtr size).Total (State.Step H)
      (fun _ t => AnsweredOnce (.crc listPtr size) s t) s := by
  set u := (s.initialised H .crc).copy (.ram listPtr) .bramC size.toNat with hu
  have hloaded : u.loaded = .crc := by simp [hu, State.initialised_loaded hacc]
  have hne := ne_zero_of_pos hpos
  obtain ⟨m', hm⟩ :=
    wordLoop_total (i := 0) (m := u.brams) (fun _ hj m => ⟨_, crcWord_eq hj m⟩) hsize
  have hbody := crc_body hsize hm
  rw [lastTurn, if_neg hne] at hbody
  rw [polyCrc, Program.total_bind, h.total_polyInit, Program.total_bind,
    (h.initialised _).total_transferDma, transferred_of_exact hdma hpos hsize, hdma size hpos hsize,
    if_neg (by simp), hacc, if_pos rfl, ← hu]
  exact answeredOnce_of_request hdma hpos hsize ((h.initialised _).copy _ _ _)
    ((State.sameLinks_initialised _).trans (State.sameLinks_copy _ _ _)) (.crc listPtr size) _
    (by rw [hloaded]; rfl) (by rw [hloaded]; exact hbody) rfl

lemma polyVector_answeredOnce (hacc : H.accelerated = true) (hdma : H.Exact) (hpos : 1 ≤ size.toNat)
    (hsize : size.toNat ≤ 4096) (h : s.AtRest) (aPtr bPtr cPtr : ℕ) {op : Huint} {acc : Accelerator}
    {first second : Hint → Hint → Hint} (hop : op = 1 ∨ op = 2)
    (hturn : H.turn acc = vectorTurn first second) {c : Call} (hwords : c.words = [op, size, 0]) :
    (polyVector aPtr bPtr cPtr size op acc).Total (State.Step H)
      (fun _ t => AnsweredOnce c s t) s := by
  set v := (s.initialised H acc).copy (.ram aPtr) .bramA size.toNat with hv
  have hrest : v.AtRest := (h.initialised acc).copy _ _ _
  set u := v.copy (.ram bPtr) .bramB size.toNat with hu
  have hloaded : H.turn u.loaded = vectorTurn first second := by
    simp [hu, hv, State.initialised_loaded hacc, hturn]
  have hne := ne_zero_of_pos hpos
  obtain ⟨m', hbody⟩ := vectorTurn_body (m := u.brams) first second hsize hop
  rw [lastTurn, if_neg hne] at hbody
  rw [polyVector, Program.total_bind, h.total_polyInit, Program.total_bind,
    (h.initialised _).total_transferDma, transferred_of_exact hdma hpos hsize, hdma size hpos hsize,
    if_neg (by simp), ← hv, Program.total_bind, hrest.total_transferDma,
    transferred_of_exact hdma hpos hsize, hdma size hpos hsize, if_neg (by simp), hacc,
    if_pos rfl, ← hu, ← hwords]
  have hlinks : State.SameLinks s u :=
    ((State.sameLinks_initialised _).trans (State.sameLinks_copy _ _ _)).trans
      (State.sameLinks_copy _ _ _)
  rw [← hwords, ← hloaded] at hbody
  exact answeredOnce_of_request hdma hpos hsize (hrest.copy _ _ _) hlinks c _
    (by rw [hloaded, hwords]; rfl) hbody rfl

lemma AnsweredOnce.not_of_sameLinks {c : Call} {t : State} (hlinks : State.SameLinks s t) :
    ¬ AnsweredOnce c s t := by
  rintro ⟨-, -, e, hanswered, -⟩
  rw [hlinks.answered] at hanswered
  simp at hanswered

lemma polyCrc_waits (hacc : H.accelerated = true) (h : s.AtRest) (listPtr : ℕ)
    (hstatus : H.dma (0 * 4) = 0) {Q : Hint → State → Prop} :
    ¬ (polyCrc listPtr 0).Total (State.Step H) Q s := by
  set u := (s.initialised H .crc).transferred H (.ram listPtr) .bramC (0 * 4) with hu
  have hrest : u.AtRest := (h.initialised _).transferred _ _ _
  have hloaded : u.loaded = .crc := by simp [hu, State.initialised_loaded hacc]
  have hloop : wordLoop crcWord 0 0 u.brams = .ok u.brams := by
    rw [wordLoop, if_neg (by simp)]
    rfl
  rw [polyCrc, Program.total_bind, h.total_polyInit, Program.total_bind,
    (h.initialised _).total_transferDma, ← hu, if_neg (by simpa using hstatus), hacc, if_pos rfl,
    Program.total_bind]
  refine hrest.not_total_request (List.cons_ne_nil _ _) (by rw [hloaded]; rfl) (m := u.brams) ?_
  rw [hloaded]
  exact crc_body (by simp) hloop

lemma polyVector_waits (hacc : H.accelerated = true) (h : s.AtRest) (aPtr bPtr cPtr : ℕ)
    (hstatus : H.dma (0 * 4) = 0) {op : Huint} {acc : Accelerator}
      {first second : Hint → Hint → Hint}
    (hop : op = 1 ∨ op = 2) (hturn : H.turn acc = vectorTurn first second)
    {Q : Hint → State → Prop} :
    ¬ (polyVector aPtr bPtr cPtr 0 op acc).Total (State.Step H) Q s := by
  set v := (s.initialised H acc).transferred H (.ram aPtr) .bramA (0 * 4) with hv
  have hrest : v.AtRest := (h.initialised _).transferred _ _ _
  set u := v.transferred H (.ram bPtr) .bramB (0 * 4) with hu
  have hloaded : H.turn u.loaded = vectorTurn first second := by
    simp [hu, hv, State.initialised_loaded hacc, hturn]
  obtain ⟨m', hbody⟩ : ∃ m', (vectorTurn first second).body [op, 0, 0] u.brams =
    .ok (m', lastTurn 0) :=
    vectorTurn_body first second (by simp) hop
  rw [polyVector, Program.total_bind, h.total_polyInit, Program.total_bind,
    (h.initialised _).total_transferDma, ← hv, if_neg (by simpa using hstatus), Program.total_bind,
    hrest.total_transferDma, ← hu, if_neg (by simpa using hstatus), hacc, if_pos rfl,
    Program.total_bind]
  refine State.AtRest.not_total_request (hrest.transferred _ _ _) (List.cons_ne_nil _ _)
    (by rw [hloaded]; rfl) (m := m') ?_
  rw [hloaded]
  exact hbody

lemma polyCrc_not_answeredOnce (hacc : H.accelerated = true) (h : s.AtRest)
    (listPtr : ℕ) (c : Call) :
    ¬ (polyCrc listPtr 0).Total (State.Step H) (fun _ t => AnsweredOnce c s t) s := by
  by_cases hstatus : H.dma (0 * 4) = 0
  · exact polyCrc_waits hacc h listPtr hstatus
  · rw [polyCrc, Program.total_bind, h.total_polyInit, Program.total_bind,
      (h.initialised _).total_transferDma, if_pos hstatus, Program.total_pure]
    exact AnsweredOnce.not_of_sameLinks
      ((State.sameLinks_initialised _).trans (State.sameLinks_transferred _ _ _))

lemma polyVector_not_answeredOnce (hacc : H.accelerated = true) (h : s.AtRest) (aPtr bPtr cPtr : ℕ)
    {op : Huint} {acc : Accelerator} {first second : Hint → Hint → Hint} (hop : op = 1 ∨ op = 2)
    (hturn : H.turn acc = vectorTurn first second) (c : Call) :
    ¬ (polyVector aPtr bPtr cPtr 0 op acc).Total (State.Step H)
      (fun _ t => AnsweredOnce c s t) s := by
  by_cases hstatus : H.dma (0 * 4) = 0
  · exact polyVector_waits hacc h aPtr bPtr cPtr hstatus hop hturn
  · rw [polyVector, Program.total_bind, h.total_polyInit, Program.total_bind,
      (h.initialised _).total_transferDma, if_pos hstatus, Program.total_pure]
    exact AnsweredOnce.not_of_sameLinks
      ((State.sameLinks_initialised _).trans (State.sameLinks_transferred _ _ _))

lemma Call.answeredOnce_iff (hacc : H.accelerated = true) (hdma : H.Exact) (h : s.AtRest) (c : Call)
    (hsize : c.size.toNat ≤ 4096) :
    c.code.Total (State.Step H) (fun _ t => AnsweredOnce c s t) s ↔ c.size ≠ 0 := by
  constructor
  · intro htotal hzero
    cases c with
    | crc listPtr size =>
      obtain rfl : size = 0 := hzero
      exact polyCrc_not_answeredOnce hacc h listPtr _ htotal
    | vectoradd aPtr bPtr cPtr size =>
      obtain rfl : size = 0 := hzero
      exact polyVector_not_answeredOnce hacc h aPtr bPtr cPtr (.inl rfl) rfl _ htotal
    | vectorsub aPtr bPtr cPtr size =>
      obtain rfl : size = 0 := hzero
      exact polyVector_not_answeredOnce hacc h aPtr bPtr cPtr (.inr rfl) rfl _ htotal
    | vectormul aPtr bPtr cPtr size =>
      obtain rfl : size = 0 := hzero
      exact polyVector_not_answeredOnce hacc h aPtr bPtr cPtr (.inl rfl) rfl _ htotal
    | vectordiv aPtr bPtr cPtr size =>
      obtain rfl : size = 0 := hzero
      exact polyVector_not_answeredOnce hacc h aPtr bPtr cPtr (.inr rfl) rfl _ htotal
  · intro hne
    have hpos : 1 ≤ c.size.toNat := by bv_omega
    cases c with
    | crc listPtr size => exact polyCrc_answeredOnce hacc hdma hpos hsize h listPtr
    | vectoradd aPtr bPtr cPtr size =>
      exact polyVector_answeredOnce hacc hdma hpos hsize h aPtr bPtr cPtr (.inl rfl) rfl rfl
    | vectorsub aPtr bPtr cPtr size =>
      exact polyVector_answeredOnce hacc hdma hpos hsize h aPtr bPtr cPtr (.inr rfl) rfl rfl
    | vectormul aPtr bPtr cPtr size =>
      exact polyVector_answeredOnce hacc hdma hpos hsize h aPtr bPtr cPtr (.inl rfl) rfl rfl
    | vectordiv aPtr bPtr cPtr size =>
      exact polyVector_answeredOnce hacc hdma hpos hsize h aPtr bPtr cPtr (.inr rfl) rfl rfl

/-- A sequence of calls goes through exactly if none of them is about no words. -/
theorem requests_answered_once_iff (hacc : H.accelerated = true) (hdma : H.Exact)
    (calls : List Call) (hsizes : ∀ c ∈ calls, c.size.toNat ≤ 4096) (h : s.AtRest) :
    Serves H calls s ↔ ∀ c ∈ calls, c.size ≠ 0 := by
  induction calls generalizing s with
  | nil => simp [Serves]
  | cons c rest ih =>
    have hrest := fun t ht => ih (s := t) (fun d hd => hsizes d (List.mem_cons_of_mem c hd)) ht
    have hone := c.answeredOnce_iff hacc hdma h (hsizes c List.mem_cons_self)
    rw [Serves, List.forall_mem_cons, ← hone]
    constructor
    · intro htotal
      obtain ⟨a, t, hends⟩ := htotal.exists_ends
      obtain ⟨hanswered, hserves⟩ := htotal.always.ends hends
      exact ⟨htotal.mono fun _ _ ht => ht.1, (hrest t hanswered.atRest).mp hserves⟩
    · rintro ⟨htotal, hsizes'⟩
      exact htotal.mono fun _ t ht => ⟨ht, (hrest t ht.atRest).mpr hsizes'⟩

theorem two_requests_answered_once :
    Serves ⟨id, ⟨0, fun _ m => .ok (m, [])⟩, fun _ => 0, true⟩ [.crc 5 2, .vectordiv 5 5 7 1]
        (State.initial (fun i => BitVec.ofNat 32 (9 - i)) .crc) ↔
      ∀ c ∈ [Call.crc 5 2, .vectordiv 5 5 7 1], c.size ≠ 0 := by
  refine requests_answered_once_iff rfl (fun _ _ _ => rfl) _ (fun c hc => ?_) ⟨rfl, rfl, rfl⟩
  rcases List.mem_cons.mp hc with rfl | hc
  · decide
  · rw [List.mem_singleton.mp hc]
    decide

theorem empty_request_is_not_answered :
    ¬ (polyCrc 5 0).Total (State.Step ⟨id, ⟨0, fun _ m => .ok (m, [])⟩, fun _ => 0, true⟩)
        (fun _ _ => True) (State.initial (fun _ => 7) .crc) ∧
      ¬ Serves ⟨id, ⟨0, fun _ m => .ok (m, [])⟩, fun _ => 0, true⟩ [.crc 5 0]
        (State.initial (fun _ => 7) .crc) := by
  refine ⟨polyCrc_waits rfl ⟨rfl, rfl, rfl⟩ 5 rfl, fun hserves => ?_⟩
  exact polyCrc_waits rfl ⟨rfl, rfl, rfl⟩ 5 rfl hserves

end Answered

end Hthreads.Accelerators.Slave
