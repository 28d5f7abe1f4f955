import Hthreads.Accelerators.CoreLoops
import Hthreads.Library.Outcomes
import Hthreads.Slaves.Accelerators

/-! The polymorphic functions of the slave HAL (`sort_mblaze.c`, `crc_mblaze.c`, `vector_mblaze.c`)
beside the core in the socket of the slave, which takes its command words from one FSL and answers
on another. -/

namespace Hthreads.Accelerators.Slave

open Library Software Slaves

/-- Where a DMA transfer begins or ends. Pointers into the main memory count words. -/
inductive Place
  | ram (ptr : ℕ)
  | bramA
  | bramB
  | bramC
  deriving DecidableEq

/-- What the code asks of the hardware around it; `software` stands for a routine that works on the
block memories. -/
inductive Port
  | useHW (acc : Accelerator) (size : Huint)
  | countHw
  | countSw
  | transfer (src des : Place) (bytes : Hint)
  | put (word : Hint)
  | get
  | software (routine : Brams → Except Stop (Hint × Brams))

abbrev SlaveCode := Program Port Hint

section Code

def polyInit (acc : Accelerator) (size : Huint) : SlaveCode Bool := do
  let useAccelerator ← Program.issue (.useHW acc size)
  if useAccelerator ≠ 0 then do
    let _ ← Program.issue .countHw
    pure true
  else do
    let _ ← Program.issue .countSw
    pure false

def transferDma (src des : Place) (bytes : Hint) : SlaveCode Hint :=
  Program.issue (.transfer src des bytes)

/-- The `putfslx` of a function, one after the other, and then its `getfslx`. -/
def request : List Hint → SlaveCode Hint
  | [] => Program.issue .get
  | word :: rest => do
    let _ ← Program.issue (.put word)
    request rest

def deliver (des : Place) (size : Huint) (result : Hint) : SlaveCode Hint := do
  let status ← transferDma .bramC des (size * 4)
  if status ≠ 0 then pure failure else pure result

def polyBubblesort (listPtr : ℕ) (size : Huint) : SlaveCode Hint := do
  let useAccelerator ← polyInit .bubblesort size
  let status ← transferDma (.ram listPtr) .bramC (size * 4)
  if status ≠ 0 then pure failure
  else if useAccelerator then do
    let _ ← request [size - 1, 0]
    deliver (.ram listPtr) size success
  else do
    let result ← Program.issue (.software (swBubblesort size))
    deliver (.ram listPtr) size result

def polyCrc (listPtr : ℕ) (size : Huint) : SlaveCode Hint := do
  let useAccelerator ← polyInit .crc size
  let status ← transferDma (.ram listPtr) .bramC (size * 4)
  if status ≠ 0 then pure failure
  else if useAccelerator then do
    let e ← request [size, 0]
    if e ≠ 1 then pure failure else deliver (.ram listPtr) size success
  else do
    let result ← Program.issue (.software (swCrc size))
    deliver (.ram listPtr) size result

def swVector (acc : Accelerator) (opCode size : Huint) (m : Brams) :
    Except Stop (Hint × Brams) := do
  let m ←
    if acc = .vectoradd then
      if opCode = 1 then wordLoop (combineWords (· + ·)) size 0 m
      else if opCode = 2 then wordLoop (combineWords (· - ·)) size 0 m
      else pure m
    else if acc = .vectormul then
      if opCode = 1 then wordLoop (combineWords (· * ·)) size 0 m
      else if opCode = 2 then wordLoop divideWords size 0 m
      else pure m
    else pure m
  pure (success, m)

def polyVector (aPtr bPtr cPtr : ℕ) (size opCode : Huint) (acc : Accelerator) : SlaveCode Hint := do
  let useAccelerator ← polyInit acc size
  let status ← transferDma (.ram aPtr) .bramA (size * 4)
  if status ≠ 0 then pure failure
  else do
    let status ← transferDma (.ram bPtr) .bramB (size * 4)
    if status ≠ 0 then pure failure
    else if useAccelerator then do
      let _ ← request [opCode, size, 0]
      deliver (.ram cPtr) size success
    else do
      let result ← Program.issue (.software (swVector acc opCode size))
      deliver (.ram cPtr) size result

def polyVectoradd (aPtr bPtr cPtr : ℕ) (size : Huint) : SlaveCode Hint :=
  polyVector aPtr bPtr cPtr size 1 .vectoradd

def polyVectorsub (aPtr bPtr cPtr : ℕ) (size : Huint) : SlaveCode Hint :=
  polyVector aPtr bPtr cPtr size 2 .vectoradd

def polyVectormul (aPtr bPtr cPtr : ℕ) (size : Huint) : SlaveCode Hint :=
  polyVector aPtr bPtr cPtr size 1 .vectormul

def polyVectordiv (aPtr bPtr cPtr : ℕ) (size : Huint) : SlaveCode Hint :=
  polyVector aPtr bPtr cPtr size 2 .vectormul

end Code

/-- A slave with its core. `words` are the command words that the core has read in this turn;
`taken`, `answered` and `received` are all words that went over the links so far. -/
structure State where
  ram : ℕ → Hint
  brams : Brams
  loaded : Accelerator
  words : List Hint
  cmd : List Hint
  resp : List Hint
  hwCounter : Huint
  swCounter : Huint
  taken : List Hint
  answered : List Hint
  received : List Hint

def State.initial (ram : ℕ → Hint) (loaded : Accelerator) : State :=
  ⟨ram, ⟨fun _ => 0, fun _ => 0, fun _ => 0⟩, loaded, [], [], [], 0, 0, [], [], []⟩

/-- What the calls find around them: the divider of the multiplication core, the core of the matrix
multiplication, the status of a transfer of this many bytes, and whether `useHW` comes to use the
accelerator, which is then loaded. -/
structure Hardware where
  byZero : Hint → Hint
  matrixmul : Turn
  dma : Hint → Hint
  accelerated : Bool

namespace Hardware

variable (H : Hardware)

def turn : Accelerator → Turn
  | .crc => crc
  | .bubblesort => bubblesort
  | .vectoradd => vectoradd
  | .vectormul => vectormul H.byZero
  | .matrixmul => H.matrixmul

/-- The engine copies every block of words that fits in a block memory. -/
def Exact : Prop := ∀ size : Huint, 1 ≤ size.toNat → size.toNat ≤ 4096 → H.dma (size * 4) = 0

end Hardware

namespace State

/-- The next step of the core: it reads a command word, and with the last one it makes its turn. The
driver waits for the response meanwhile. -/
def fetch (H : Hardware) (s : State) : Option State :=
  match s.cmd with
  | [] => none
  | word :: rest =>
    let words := s.words ++ [word]
    let s := { s with cmd := rest, taken := s.taken ++ [word] }
    if words.length < (H.turn s.loaded).commands then some { s with words := words }
    else
      match (H.turn s.loaded).body words s.brams with
      | .ok (brams, responses) =>
        some { s with
          brams, words := [], resp := s.resp ++ responses, answered := s.answered ++ responses }
      | .error _ => none

def read (s : State) : Place → ℕ → Hint
  | .ram ptr, i => s.ram (ptr + i)
  | .bramA, i => s.brams.a i
  | .bramB, i => s.brams.b i
  | .bramC, i => s.brams.c i

def overwrite (mem : ℕ → Hint) (start n : ℕ) (f : ℕ → Hint) (i : ℕ) : Hint :=
  if start ≤ i ∧ i < start + n then f (i - start) else mem i

def copy (s : State) (src des : Place) (n : ℕ) : State :=
  match des with
  | .ram ptr => { s with ram := overwrite s.ram ptr n (s.read src) }
  | .bramA => { s with brams := { s.brams with a := overwrite s.brams.a 0 n (s.read src) } }
  | .bramB => { s with brams := { s.brams with b := overwrite s.brams.b 0 n (s.read src) } }
  | .bramC => { s with brams := { s.brams with c := overwrite s.brams.c 0 n (s.read src) } }

def load (s : State) (acc : Accelerator) : State :=
  if s.loaded = acc then s else { s with loaded := acc, words := [] }

/-- What a port does, at a moment of its own between the steps of the core. -/
def access (H : Hardware) (s : State) : Port → Option (State × Hint)
  | .useHW acc _ => if H.accelerated then some (s.load acc, 1) else some (s, 0)
  | .countHw => some ({ s with hwCounter := s.hwCounter + 1 }, 0)
  | .countSw => some ({ s with swCounter := s.swCounter + 1 }, 0)
  | .transfer src des bytes =>
    some (if H.dma bytes = 0 then s.copy src des (bytes.toNat / 4) else s, H.dma bytes)
  | .put word => some ({ s with cmd := s.cmd ++ [word] }, 0)
  | .get =>
    match s.resp with
    | [] => none
    | word :: rest => some ({ s with resp := rest, received := s.received ++ [word] }, word)
  | .software routine =>
    match routine s.brams with
    | .ok (result, brams) => some ({ s with brams }, result)
    | .error _ => none

def Step (H : Hardware) (p : Port) (s t : State) (b : Hint) : Prop :=
  ∃ m, Moves (fetch H) s m ∧ m.access H p = some (t, b)

end State

namespace State

variable {H : Hardware} {s t u : State} {ws : List Hint} {m : Brams} {r : List Hint}

/-- The core is at its first command, and nothing is under way. -/
structure AtRest (s : State) : Prop where
  words : s.words = []
  cmd : s.cmd = []
  resp : s.resp = []

lemma fetch_of_no_cmd (h : s.cmd = []) : s.fetch H = none := by rw [fetch, h]

lemma AtRest.step_iff (h : s.AtRest) {p : Port} {b : Hint} :
    Step H p s t b ↔ s.access H p = some (t, b) := by
  constructor
  · rintro ⟨m, hmoves, haccess⟩
    rw [(moves_iff_of_none (fetch_of_no_cmd h.cmd)).mp hmoves] at haccess
    exact haccess
  · exact fun haccess => ⟨s, .refl, haccess⟩

lemma AtRest.total_issue (h : s.AtRest) {p : Port} {Q : Hint → State → Prop} {b : Hint}
    (haccess : s.access H p = some (t, b)) :
    (Program.issue p : SlaveCode Hint).Total (Step H) Q s ↔ Q b t := by
  refine Program.total_issue_of_unique fun u c => ?_
  rw [h.step_iff, haccess, Option.some.injEq, Prod.mk.injEq]
  exact ⟨fun hu => ⟨hu.1.symm, hu.2.symm⟩, fun hu => ⟨hu.1.symm, hu.2.symm⟩⟩

def midway (s : State) (pre rest : List Hint) : State :=
  { s with words := pre, cmd := rest, taken := s.taken ++ pre }

def turned (s : State) (ws : List Hint) (m : Brams) (r : List Hint) : State :=
  { s with
    brams := m, words := [], cmd := [], resp := r, taken := s.taken ++ ws,
    answered := s.answered ++ r }

lemma fetch_midway_last {pre : List Hint} {word : Hint} (hresp : s.resp = [])
    (hlen : (pre ++ [word]).length = (H.turn s.loaded).commands)
    (hbody : (H.turn s.loaded).body (pre ++ [word]) s.brams = .ok (m, r)) :
    (s.midway pre [word]).fetch H = some (s.turned (pre ++ [word]) m r) := by
  have hlast : ¬ (pre ++ [word]).length < (H.turn s.loaded).commands := by omega
  simp only [fetch, midway, if_neg hlast, hbody, turned, hresp, List.append_assoc, List.nil_append]

lemma fetch_midway {pre rest : List Hint} {word : Hint}
    (hlen : (pre ++ [word]).length < (H.turn s.loaded).commands) :
    (s.midway pre (word :: rest)).fetch H = some (s.midway (pre ++ [word]) rest) := by
  simp only [fetch, midway, if_pos hlen, List.append_assoc]

lemma moves_midway {rest : List Hint} (hresp : s.resp = []) (hrest : rest ≠ []) (pre : List Hint)
    (hlen : (pre ++ rest).length = (H.turn s.loaded).commands)
    (hbody : (H.turn s.loaded).body (pre ++ rest) s.brams = .ok (m, r)) :
    Moves (fetch H) (s.midway pre rest) (s.turned (pre ++ rest) m r) ∧
      ∀ t, Moves (fetch H) (s.midway pre rest) t → t = s.turned (pre ++ rest) m r ∨
        t.resp = [] := by
  induction rest generalizing pre with
  | nil => exact absurd rfl hrest
  | cons word rest ih =>
    cases rest with
    | nil =>
      have hone := fetch_midway_last hresp hlen hbody
      refine ⟨.single hone, fun t ht => ?_⟩
      rcases (moves_iff_of_some hone).mp ht with rfl | ht
      · exact .inr hresp
      · exact .inl ((moves_iff_of_none (fetch_of_no_cmd rfl)).mp ht)
    | cons next rest =>
      have hmore : (pre ++ [word]).length < (H.turn s.loaded).commands := by
        simp only [List.length_append, List.length_cons, List.length_nil] at hlen ⊢
        omega
      have hone : (s.midway pre (word :: next :: rest)).fetch H =
          some (s.midway (pre ++ [word]) (next :: rest)) := fetch_midway hmore
      have hassoc : pre ++ word :: next :: rest = (pre ++ [word]) ++ next :: rest := by simp
      rw [hassoc] at hlen hbody ⊢
      obtain ⟨hmoves, hall⟩ := ih (List.cons_ne_nil _ _) _ hlen hbody
      refine ⟨.head hone hmoves, fun t ht => ?_⟩
      rcases (moves_iff_of_some hone).mp ht with rfl | ht
      · exact .inr hresp
      · exact hall t ht

def putWord (s : State) (word : Hint) : State := { s with cmd := s.cmd ++ [word] }

lemma fetch_putWord (word : Hint) (h : s.fetch H = some t) :
    (s.putWord word).fetch H = some (t.putWord word) := by
  cases hcmd : s.cmd with
  | nil =>
    rw [fetch_of_no_cmd hcmd] at h
    cases h
  | cons next rest =>
    simp only [fetch, hcmd, putWord, List.cons_append] at h ⊢
    split_ifs at h ⊢
    · cases h
      rfl
    · cases hbody : (H.turn s.loaded).body (s.words ++ [next]) s.brams with
      | error e =>
        rw [hbody] at h
        cases h
      | ok p =>
        rw [hbody] at h
        cases h
        rfl

lemma moves_putWord (word : Hint) (h : Moves (fetch H) s t) :
    Moves (fetch H) (s.putWord word) (t.putWord word) := by
  induction h with
  | refl => exact .refl
  | tail _ hone ih => exact ih.tail (fetch_putWord word hone)

lemma step_put_iff {word : Hint} {b : Hint} :
    Step H (.put word) s t b ↔ ∃ m, Moves (fetch H) s m ∧ t = m.putWord word ∧ b = 0 := by
  simp only [Step, access, Option.some.injEq, Prod.mk.injEq, putWord, eq_comm]

lemma step_get_iff {b : Hint} :
    Step H .get s t b ↔ ∃ m rest, Moves (fetch H) s m ∧ m.resp = b :: rest ∧
      t = { m with resp := rest, received := m.received ++ [b] } := by
  constructor
  · rintro ⟨m, hmoves, haccess⟩
    cases hresp : m.resp with
    | nil =>
      rw [access, hresp] at haccess
      cases haccess
    | cons word rest =>
      rw [access, hresp] at haccess
      cases haccess
      exact ⟨m, rest, hmoves, hresp, rfl⟩
  · rintro ⟨m, rest, hmoves, hresp, rfl⟩
    exact ⟨m, hmoves, by rw [access, hresp]⟩

lemma total_request_of_moves {Q : Hint → State → Prop} (rest pre : List Hint) (u : State)
    (hresp : s.resp = []) (hne : pre ++ rest ≠ [])
    (hlen : (pre ++ rest).length = (H.turn s.loaded).commands) {e : Hint}
    (hbody : (H.turn s.loaded).body (pre ++ rest) s.brams = .ok (m, [e]))
    (hQ : Q e { s.turned (pre ++ rest) m [e] with resp := [], received := s.received ++ [e] })
    (hmoves : Moves (fetch H) (s.midway [] pre) u) : (request rest).Total (Step H) Q u := by
  induction rest generalizing pre u with
  | nil =>
    rw [List.append_nil] at hne hlen hbody hQ
    obtain ⟨hturn, hall⟩ := moves_midway hresp hne [] hlen hbody
    have hrest : (s.turned pre m [e]).fetch H = none := fetch_of_no_cmd rfl
    rw [request, Program.total_issue]
    refine ⟨⟨_, e, step_get_iff.mpr ⟨_, [], hturn.rest hrest hmoves, rfl, rfl⟩⟩,
      fun t b hstep => ?_⟩
    obtain ⟨v, later, hv, hget, rfl⟩ := step_get_iff.mp hstep
    rcases hall v (hmoves.trans hv) with rfl | hnone
    · obtain ⟨rfl, rfl⟩ := List.cons.inj hget
      exact hQ
    · rw [hnone] at hget
      cases hget
  | cons word rest ih =>
    rw [request, Program.total_bind, Program.total_issue]
    refine ⟨⟨_, 0, step_put_iff.mpr ⟨u, .refl, rfl, rfl⟩⟩, fun t b hstep => ?_⟩
    obtain ⟨v, hv, rfl, -⟩ := step_put_iff.mp hstep
    have hassoc : pre ++ word :: rest = (pre ++ [word]) ++ rest := by simp
    rw [hassoc] at hne hlen hbody hQ
    exact ih (pre ++ [word]) _ hne hlen hbody hQ (moves_putWord word (hmoves.trans hv))

lemma AtRest.midway_nil (h : s.AtRest) : s.midway [] [] = s := by
  cases s
  cases h
  simp_all [midway]

lemma AtRest.total_request {Q : Hint → State → Prop} (h : s.AtRest) {e : Hint} (hne : ws ≠ [])
    (hlen : ws.length = (H.turn s.loaded).commands)
    (hbody : (H.turn s.loaded).body ws s.brams = .ok (m, [e]))
    (hQ : Q e { s.turned ws m [e] with resp := [], received := s.received ++ [e] }) :
    (request ws).Total (Step H) Q s := by
  refine total_request_of_moves ws [] s h.resp hne hlen hbody hQ ?_
  rw [h.midway_nil]

/-- The driver can put all its words before the core takes the first one. -/
lemma total_get_of_total_request {Q : Hint → State → Prop} (ws pre : List Hint)
    (h : (request ws).Total (Step H) Q (s.midway [] pre)) :
    (request []).Total (Step H) Q (s.midway [] (pre ++ ws)) := by
  induction ws generalizing pre with
  | nil =>
    rw [List.append_nil]
    exact h
  | cons word rest ih =>
    rw [request, Program.total_bind, Program.total_issue] at h
    have hrest := h.2 _ 0 (step_put_iff.mpr ⟨_, .refl, rfl, rfl⟩)
    have hassoc : pre ++ word :: rest = (pre ++ [word]) ++ rest := by simp
    rw [hassoc]
    exact ih (pre ++ [word]) hrest

lemma AtRest.not_total_request {Q : Hint → State → Prop} (h : s.AtRest) (hne : ws ≠ [])
    (hlen : ws.length = (H.turn s.loaded).commands)
    (hbody : (H.turn s.loaded).body ws s.brams = .ok (m, [])) :
    ¬ (request ws).Total (Step H) Q s := by
  intro htotal
  rw [← h.midway_nil] at htotal
  obtain ⟨⟨t, b, hstep⟩, -⟩ := total_get_of_total_request ws [] htotal
  obtain ⟨v, rest, hv, hget, -⟩ := step_get_iff.mp hstep
  have hnone : v.resp = [] := by
    rcases (moves_midway h.resp hne [] hlen hbody).2 v hv with rfl | hnone
    · rfl
    · exact hnone
  rw [hnone] at hget
  cases hget

def initialised (H : Hardware) (s : State) (acc : Accelerator) : State :=
  if H.accelerated then { s.load acc with hwCounter := (s.load acc).hwCounter + 1 }
  else { s with swCounter := s.swCounter + 1 }

def transferred (H : Hardware) (s : State) (src des : Place) (bytes : Hint) : State :=
  if H.dma bytes = 0 then s.copy src des (bytes.toNat / 4) else s

lemma AtRest.load (h : s.AtRest) (acc : Accelerator) : (s.load acc).AtRest := by
  rw [State.load]
  split_ifs
  · exact h
  · exact ⟨rfl, h.cmd, h.resp⟩

@[simp] lemma load_loaded (s : State) (acc : Accelerator) : (s.load acc).loaded = acc := by
  rw [load]
  split_ifs with hacc
  · exact hacc
  · rfl

lemma AtRest.initialised (h : s.AtRest) (acc : Accelerator) : (s.initialised H acc).AtRest := by
  rw [State.initialised]
  split_ifs
  · exact ⟨(h.load acc).words, (h.load acc).cmd, (h.load acc).resp⟩
  · exact ⟨h.words, h.cmd, h.resp⟩

@[simp] lemma initialised_ram (acc : Accelerator) : (s.initialised H acc).ram = s.ram := by
  rw [initialised, load]
  split_ifs <;> rfl

@[simp] lemma initialised_brams (acc : Accelerator) : (s.initialised H acc).brams = s.brams := by
  rw [initialised, load]
  split_ifs <;> rfl

lemma initialised_loaded (hacc : H.accelerated = true) (acc : Accelerator) :
    (s.initialised H acc).loaded = acc := by
  rw [initialised, if_pos hacc]
  exact load_loaded s acc

lemma AtRest.copy (h : s.AtRest) (src des : Place) (n : ℕ) : (s.copy src des n).AtRest := by
  cases des <;> exact ⟨h.words, h.cmd, h.resp⟩

lemma AtRest.transferred (h : s.AtRest) (src des : Place) (bytes : Hint) :
    (s.transferred H src des bytes).AtRest := by
  rw [State.transferred]
  split_ifs
  · exact h.copy _ _ _
  · exact h

structure SameLinks (s t : State) : Prop where
  taken : t.taken = s.taken
  answered : t.answered = s.answered
  received : t.received = s.received

lemma SameLinks.trans (h : SameLinks s t) (h' : SameLinks t u) : SameLinks s u :=
  ⟨h'.taken.trans h.taken, h'.answered.trans h.answered, h'.received.trans h.received⟩

lemma sameLinks_initialised (acc : Accelerator) : SameLinks s (s.initialised H acc) := by
  rw [initialised, load]
  split_ifs <;> exact ⟨rfl, rfl, rfl⟩

lemma sameLinks_copy (src des : Place) (n : ℕ) : SameLinks s (s.copy src des n) := by
  cases des <;> exact ⟨rfl, rfl, rfl⟩

@[simp] lemma copy_loaded (s : State) (src des : Place) (n : ℕ) :
    (s.copy src des n).loaded = s.loaded := by
  cases des <;> rfl

lemma sameLinks_transferred (src des : Place) (bytes : Hint) :
    SameLinks s (s.transferred H src des bytes) := by
  rw [transferred]
  split_ifs
  · exact sameLinks_copy _ _ _
  · exact ⟨rfl, rfl, rfl⟩

@[simp] lemma transferred_loaded (s : State) (src des : Place) (bytes : Hint) :
    (s.transferred H src des bytes).loaded = s.loaded := by
  rw [transferred]
  split_ifs
  · exact copy_loaded _ _ _ _
  · rfl

lemma AtRest.total_polyInit (h : s.AtRest) {Q : Bool → State → Prop} {acc : Accelerator}
    {size : Huint} :
    (polyInit acc size).Total (Step H) Q s ↔ Q H.accelerated (s.initialised H acc) := by
  rw [polyInit, Program.total_bind]
  cases hacc : H.accelerated with
  | true =>
    rw [h.total_issue (t := s.load acc) (b := 1) (by rw [access, hacc]; rfl), if_pos (by decide),
      Program.total_bind, (h.load acc).total_issue rfl, Program.total_pure, State.initialised, hacc]
    rfl
  | false =>
    rw [h.total_issue (t := s) (b := 0) (by rw [access, hacc]; rfl), if_neg (by decide),
      Program.total_bind, h.total_issue rfl, Program.total_pure, State.initialised, hacc]
    rfl

lemma AtRest.total_transferDma (h : s.AtRest) {Q : Hint → State → Prop} {src des : Place}
    {bytes : Hint} :
    (transferDma src des bytes).Total (Step H) Q s ↔
      Q (H.dma bytes) (s.transferred H src des bytes) :=
  h.total_issue rfl

end State

end Hthreads.Accelerators.Slave
