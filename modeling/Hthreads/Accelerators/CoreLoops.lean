import Hthreads.Accelerators.BubbleSort
import Hthreads.Accelerators.Crc

/-! The accelerator cores of the slaves (`bubblesort_top.c`, `crc_top.c`, `vectoradd_top.c`,
`vectormul_top.c`) and the software routines of the slave HAL, on the block memories that they
share. -/

namespace Hthreads.Accelerators

open Library Software

structure Brams where
  a : ℕ → Hint
  b : ℕ → Hint
  c : ℕ → Hint

def bramSize : Huint := 4096

abbrev Brams.load (mem : ℕ → Hint) (i : ℕ) : Except Stop Hint :=
  Library.load (Element bramSize) mem i

def Brams.storeC (m : Brams) (i : ℕ) (x : Hint) : Except Stop Brams := do
  let c ← store (Element bramSize) m.c i x
  pure { m with c := c }

/-- What a core does in a turn of its `while (1)`, which reads this number of command words: what it
leaves in the block memories, and its responses. -/
structure Turn where
  commands : ℕ
  body : List Hint → Brams → Except Stop (Brams × List Hint)

section Loops

lemma toInt_add_one {i stop : Hint} (h : i.toInt < stop.toInt) : (i + 1).toInt = i.toInt + 1 := by
  have hlow := BitVec.le_toInt i
  have hhigh := BitVec.toInt_lt (x := stop)
  rw [BitVec.toInt_add, show (1 : Hint).toInt = 1 by decide]
  exact Int.bmod_eq_of_le (by omega) (by omega)

/-- The data loops of the cores. The response of the last turn stands in the body. -/
def dataLoop (body : ℕ → Brams → Except Stop Brams) (stop i : Hint) (m : Brams) :
    Except Stop (Brams × List Hint) :=
  if i.toInt < stop.toInt then do
    let m ← body i.toNat m
    let (m, later) ← dataLoop body stop (i + 1) m
    pure (m, (if i = stop - 1 then [1] else []) ++ later)
  else pure (m, [])
termination_by (stop.toInt - i.toInt).toNat
decreasing_by
  have hnext := toInt_add_one ‹_›
  omega

def wordLoop (body : ℕ → Brams → Except Stop Brams) (size i : Huint) (m : Brams) :
    Except Stop Brams :=
  if i < size then do
    let m ← body i.toNat m
    wordLoop body size (i + 1) m
  else pure m
termination_by size.toNat - i.toNat
decreasing_by bv_omega

def crcWord (i : ℕ) (m : Brams) : Except Stop Brams := do
  let word ← Brams.load m.c i
  m.storeC i (genCrc word)

def combineWords (op : Hint → Hint → Hint) (i : ℕ) (m : Brams) : Except Stop Brams := do
  let left ← Brams.load m.a i
  let right ← Brams.load m.b i
  m.storeC i (op left right)

/-- Nothing is stored where the divisor is zero. -/
def divideWords (i : ℕ) (m : Brams) : Except Stop Brams := do
  let right ← Brams.load m.b i
  if right ≠ 0 then combineWords BitVec.sdiv i m else pure m

/-- `for (j = start; j < bound; j++)`, with the last value of the counter. -/
def corePass (bound j : Hint) (a : ℕ → Hint) : Except Stop (Hint × (ℕ → Hint)) :=
  if j.toInt < bound.toInt then do
    let a ← compareSwap bramSize j a
    corePass bound (j + 1) a
  else pure (j, a)
termination_by (bound.toInt - j.toInt).toNat
decreasing_by
  have hnext := toInt_add_one ‹_›
  omega

/-- `for (i = start; i < end; i++)`. -/
def corePasses (start stop i bound : Hint) (a : ℕ → Hint) : Except Stop (ℕ → Hint) :=
  if i.toInt < stop.toInt then do
    let (j, a) ← corePass bound start a
    corePasses start stop (i + 1) (j - 1) a
  else pure a
termination_by (stop.toInt - i.toInt).toNat
decreasing_by
  have hnext := toInt_add_one ‹_›
  omega

end Loops

section Cores

def bubblesort : Turn where
  commands := 2
  body
    | [stop, start], m => do
      let c ← corePasses start stop start stop m.c
      pure ({ m with c := c }, [1])
    | _, m => pure (m, [])

def crc : Turn where
  commands := 2
  body
    | [stop, start], m => dataLoop crcWord stop start m
    | _, m => pure (m, [])

-- the shape of the two vector cores, with the operations of their two opcodes
def vectorTurn (first second : Hint → Hint → Hint) : Turn where
  commands := 3
  body
    | [op, stop, start], m =>
      if op = 1 then dataLoop (combineWords first) stop start m
      else if op = 2 then dataLoop (combineWords second) stop start m
      else pure (m, [])
    | _, m => pure (m, [])

def vectoradd : Turn := vectorTurn (· + ·) (· - ·)

/-- `byZero` is what the divider makes of a division by zero, which C leaves open. -/
def vectormul (byZero : Hint → Hint) : Turn :=
  vectorTurn (· * ·) fun x y => if y = 0 then byZero x else x.sdiv y

end Cores

section Routines

/-- `sw_bubblesort` of the slave HAL has the loops of `poly_bubblesort` of the host. -/
def swBubblesort (size : Huint) (m : Brams) : Except Stop (Hint × Brams) := do
  let (result, c) ← polyBubblesort m.c size
  pure (result, { m with c := c })

def swCrc (size : Huint) (m : Brams) : Except Stop (Hint × Brams) := do
  let m ← wordLoop crcWord size 0 m
  pure (success, m)

end Routines

section Runs

variable {size i d c : Huint} {mem mem' : ℕ → Hint} {m m' : Brams}
  {body : ℕ → Brams → Except Stop Brams}

lemma toInt_lt_iff (hi : i.toNat ≤ 4096) (hd : d.toNat ≤ 4096) : i.toInt < d.toInt ↔ i < d := by
  rw [BitVec.toInt_eq_toNat_of_lt (by omega), BitVec.toInt_eq_toNat_of_lt (by omega), BitVec.lt_def]
  exact Int.ofNat_lt

lemma wordLoop_total (hbody : ∀ j < 4096, ∀ m, ∃ m', body j m = .ok m')
    (hsize : size.toNat ≤ 4096) :
    ∃ m', wordLoop body size i m = .ok m' := by
  fun_induction wordLoop body size i m with
  | case1 i m hlt ih =>
    obtain ⟨mid, hmid⟩ := hbody i.toNat (by bv_omega) m
    rw [hmid]
    exact ih mid
  | case2 i m hge => exact ⟨m, rfl⟩

lemma dataLoop_of_wordLoop (hsize : size.toNat ≤ 4096) (hi : i.toNat ≤ size.toNat)
    (h : wordLoop body size i m = .ok m') :
    dataLoop body size i m = .ok (m', if i < size then [1] else []) := by
  fun_induction wordLoop body size i m with
  | case1 i m hlt ih =>
    have hint : i.toInt < size.toInt := (toInt_lt_iff (by omega) hsize).mpr hlt
    obtain ⟨mid, hmid, hrest⟩ := exists_of_bind_ok h
    rw [dataLoop, if_pos hint, hmid, if_pos hlt]
    change (dataLoop body size (i + 1) mid).bind _ = _
    rw [ih mid (by bv_omega) hrest]
    by_cases hlast : i = size - 1
    · have hend : ¬ i + 1 < size := by bv_omega
      rw [if_neg hend]
      simp only [Except.bind, if_pos hlast, List.append_nil]
      rfl
    · have hmore : i + 1 < size := by bv_omega
      rw [if_pos hmore]
      simp only [Except.bind, if_neg hlast, List.nil_append]
      rfl
  | case2 i m hge =>
    have hint : ¬ i.toInt < size.toInt := fun hlt => hge ((toInt_lt_iff (by omega) hsize).mp hlt)
    rw [dataLoop, if_neg hint, if_neg hge, ← Except.ok.inj h]
    rfl

lemma load_bram (hsize : size.toNat ≤ 4096) {j : ℕ} {x : Hint}
    (h : load (Element size) mem j = .ok x) : load (Element bramSize) mem j = .ok x := by
  obtain ⟨hj, rfl⟩ := valid_of_load h
  have hbram : Element bramSize j := Nat.lt_of_lt_of_le hj hsize
  exact load_of_valid hbram

lemma store_bram (hsize : size.toNat ≤ 4096) {j : ℕ} {x : Hint}
    (h : store (Element size) mem j x = .ok mem') :
      store (Element bramSize) mem j x = .ok mem' := by
  obtain ⟨hj, rfl⟩ := valid_of_store h
  have hbram : Element bramSize j := Nat.lt_of_lt_of_le hj hsize
  exact store_of_valid hbram x

lemma compareSwap_bram (hsize : size.toNat ≤ 4096) (h : compareSwap size d mem = .ok mem') :
    compareSwap bramSize d mem = .ok mem' := by
  obtain ⟨left, hleft, h⟩ := exists_of_bind_ok h
  obtain ⟨right, hright, h⟩ := exists_of_bind_ok h
  rw [compareSwap, load_bram hsize hleft, load_bram hsize hright]
  by_cases hgt : left.toInt > right.toInt
  · rw [if_pos hgt] at h
    obtain ⟨swap, hswap, h⟩ := exists_of_bind_ok h
    obtain ⟨next, hnext, h⟩ := exists_of_bind_ok h
    obtain ⟨mid, hmid, hlast⟩ := exists_of_bind_ok h
    obtain rfl : left = swap := Except.ok.inj (hleft.symm.trans hswap)
    obtain rfl : right = next := Except.ok.inj (hright.symm.trans hnext)
    change (if left.toInt > right.toInt then _ else _ : Except Stop (ℕ → Hint)) = _
    rw [if_pos hgt]
    change (store (Element bramSize) mem d.toNat right).bind _ = _
    rw [store_bram hsize hmid]
    exact store_bram hsize hlast
  · rw [if_neg hgt] at h
    change (if left.toInt > right.toInt then _ else _ : Except Stop (ℕ → Hint)) = _
    rw [if_neg hgt]
    exact h

lemma corePass_of_bubblePass (hsize : size.toNat ≤ 4096) (hc : c.toNat + 1 ≤ size.toNat)
    (hd : d.toNat ≤ (size - c - 1).toNat) (h : bubblePass size c d mem = .ok mem') :
    corePass (size - c - 1) d mem = .ok (size - c - 1, mem') := by
  have hbound : (size - c - 1).toNat ≤ 4096 := by bv_omega
  fun_induction bubblePass size c d mem with
  | case1 d mem hlt ih =>
    obtain ⟨mid, hmid, hrest⟩ := exists_of_bind_ok h
    rw [corePass, if_pos ((toInt_lt_iff (by omega) hbound).mpr hlt), compareSwap_bram hsize hmid]
    exact ih mid (by bv_omega) hrest
  | case2 d mem hge =>
    have hlast : d = size - c - 1 := by bv_omega
    rw [corePass, if_neg fun hlt => hge ((toInt_lt_iff (by omega) hbound).mp hlt),
      ← Except.ok.inj h, ← hlast]
    rfl

/-- The bound of the next pass is one less than where the counter of this pass has stopped. -/
lemma corePasses_of_bubblePasses (hsize : size.toNat ≤ 4096) (hc : c.toNat + 1 ≤ size.toNat)
    (h : bubblePasses size c mem = .ok mem') :
    corePasses 0 (size - 1) c (size - c - 1) mem = .ok mem' := by
  have hstop : (size - 1).toNat ≤ 4096 := by bv_omega
  fun_induction bubblePasses size c mem with
  | case1 c mem hlt ih =>
    obtain ⟨mid, hmid, hrest⟩ := exists_of_bind_ok h
    rw [corePasses, if_pos ((toInt_lt_iff (by omega) hstop).mpr hlt),
      corePass_of_bubblePass hsize hc (by simp) hmid]
    have hbound : size - c - 1 - 1 = size - (c + 1) - 1 := by bv_omega
    change corePasses 0 (size - 1) (c + 1) (size - c - 1 - 1) mid = _
    rw [hbound]
    exact ih mid (by bv_omega) hrest
  | case2 c mem hge =>
    rw [corePasses, if_neg fun hlt => hge ((toInt_lt_iff (by omega) hstop).mp hlt)]
    exact h

lemma crcWord_eq {j : ℕ} (hj : j < 4096) (m : Brams) :
    crcWord j m = .ok { m with c := Function.update m.c j (genCrc (m.c j)) } := by
  have hbram : Element bramSize j := hj
  rw [crcWord, Brams.load, load_of_valid hbram]
  change (store _ _ _ _).bind _ = _
  rw [store_of_valid hbram]
  rfl

lemma crcLoop_from (hsize : size.toNat ≤ 4096) (i : Huint) (m : Brams) :
    ∃ m', wordLoop crcWord size i m = .ok m' ∧
      ∀ j, m'.c j = if i.toNat ≤ j ∧ j < size.toNat then genCrc (m.c j) else m.c j := by
  fun_induction wordLoop crcWord size i m with
  | case1 i m hlt ih =>
    have hnext : (i + 1).toNat = i.toNat + 1 := by bv_omega
    obtain ⟨m', hm, hwords⟩ := ih { m with c := Function.update m.c i.toNat (genCrc (m.c i.toNat)) }
    rw [crcWord_eq (by bv_omega)]
    refine ⟨m', hm, fun j => ?_⟩
    rw [hwords, hnext]
    dsimp only
    by_cases hj : j = i.toNat
    · rw [if_neg (by omega), if_pos (by bv_omega), hj, Function.update_self]
    · rw [Function.update_of_ne hj]
      have hbound : i.toNat + 1 ≤ j ↔ i.toNat ≤ j := by omega
      simp only [hbound]
  | case2 i m hge =>
    refine ⟨m, rfl, fun j => ?_⟩
    rw [if_neg (by bv_omega)]

lemma crcLoop_spec (m : Brams) (hsize : size.toNat ≤ 4096) :
    ∃ m', wordLoop crcWord size 0 m = .ok m' ∧
      ∀ j, m'.c j = if j < size.toNat then genCrc (m.c j) else m.c j := by
  obtain ⟨m', hm, hwords⟩ := crcLoop_from hsize 0 m
  exact ⟨m', hm, fun j => by simpa using hwords j⟩

lemma combineWords_total (op : Hint → Hint → Hint) {j : ℕ} (hj : j < 4096) (m : Brams) :
    ∃ m', combineWords op j m = .ok m' := by
  have hbram : Element bramSize j := hj
  refine ⟨{ m with c := Function.update m.c j (op (m.a j) (m.b j)) }, ?_⟩
  rw [combineWords, Brams.load, Brams.load, load_of_valid hbram, load_of_valid hbram]
  change (store _ _ _ _).bind _ = _
  rw [store_of_valid hbram]
  rfl

end Runs

section Answers

variable {size : Huint} {m m' : Brams}

def lastTurn (size : Huint) : List Hint := if size = 0 then [] else [1]

lemma lastTurn_eq (size : Huint) : (if 0 < size then [1] else []) = lastTurn size := by
  have hpos : 0 < size ↔ ¬ size = 0 := by bv_omega
  by_cases hsize : size = 0
  · rw [lastTurn, if_neg fun h => hpos.mp h hsize, if_pos hsize]
  · rw [lastTurn, if_pos (hpos.mpr hsize), if_neg hsize]

lemma bubblesort_body {c : ℕ → Hint} (hsize : size.toNat ≤ 4096) (hpos : size ≠ 0)
    (h : bubblePasses size 0 m.c = .ok c) :
    bubblesort.body [size - 1, 0] m = .ok ({ m with c := c }, [1]) := by
  have hcore := corePasses_of_bubblePasses hsize (by bv_omega) h
  rw [show size - 0 - 1 = size - 1 by simp] at hcore
  change (corePasses 0 (size - 1) 0 (size - 1) m.c).bind _ = _
  rw [hcore]
  rfl

lemma crc_body (hsize : size.toNat ≤ 4096) (h : wordLoop crcWord size 0 m = .ok m') :
    crc.body [size, 0] m = .ok (m', lastTurn size) := by
  rw [← lastTurn_eq]
  exact dataLoop_of_wordLoop hsize (Nat.zero_le _) h

lemma vectorTurn_body (first second : Hint → Hint → Hint) (hsize : size.toNat ≤ 4096) {op : Huint}
    (hop : op = 1 ∨ op = 2) :
    ∃ m', (vectorTurn first second).body [op, size, 0] m = .ok (m', lastTurn size) := by
  rw [← lastTurn_eq]
  rcases hop with rfl | rfl
  · obtain ⟨m', hm'⟩ := wordLoop_total (i := 0) (m := m)
      (fun j hj m => combineWords_total first hj m) hsize
    exact ⟨m', dataLoop_of_wordLoop hsize (Nat.zero_le _) hm'⟩
  · obtain ⟨m', hm'⟩ := wordLoop_total (i := 0) (m := m)
      (fun j hj m => combineWords_total second hj m) hsize
    exact ⟨m', dataLoop_of_wordLoop hsize (Nat.zero_le _) hm'⟩

end Answers

end Hthreads.Accelerators
