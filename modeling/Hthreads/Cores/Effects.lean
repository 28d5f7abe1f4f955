import Hthreads.Cores.Runs

/-! What one command of the thread manager does to the ready lists, and what it writes into the two
halves of a word of the thread table: the stack byte in front, and the record of a thread behind it.
-/

namespace Hthreads.Cores

open Library Library.BitFields Scheduler ThreadManager

namespace Books

-- EXIT marks the thread as exited before it looks at the parent
def exited (b : Books) (tid : ThreadId) : Books :=
  b.setEntry tid (insert 26 0b10#2 (b.entry tid))

/-- EXIT of the thread enqueues its parent. -/
def wakes (b : Books) (tid : ThreadId) : Bool :=
  !entryDetached (b.entry tid) && entryJoined (b.entry tid) &&
    (b.exited tid).running (entryParent (b.entry tid))

def yields (b : Books) : Bool := b.running b.cpu && !isEncoderZero b.ready.encoderInput

def enqueues (b : Books) : Command → Option ThreadId
  | .add tid => if b.running tid && !b.ready.queued tid then some tid else none
  | .yield => if b.yields then some b.cpu else none
  | .exit tid => if b.wakes tid then some (entryParent (b.entry tid)) else none
  | _ => none

-- the command installs the announced thread and sends DEQUEUE
def dispatches (b : Books) : Command → Bool
  | .next => b.running b.ready.nextThreadId
  | .yield => b.yields
  | _ => false

def enqueued (b : Books) (cmd : Command) : Tables :=
  match b.enqueues cmd with
  | some tid => b.ready.enqueue tid
  | none => b.ready

end Books

variable {b b' : Books} {cmd : Command} {w : Word}

lemma exit_eq (tid : ThreadId) : (b.exit tid).1 =
    if b.wakes tid then (b.exited tid).enqueue (entryParent (b.entry tid)) else b.exited tid := by
  have hb : b.setEntry tid (insert 26 0b10#2 (b.entry tid)) = b.exited tid := rfl
  simp only [Books.exit, Books.wakes, hb]
  by_cases hj : (!entryDetached (b.entry tid) && entryJoined (b.entry tid)) = true
  · simp only [hj, Bool.true_and, if_true]
    split <;> rfl
  · simp only [hj, Bool.false_and, Bool.false_eq_true, if_false]

lemma yield_eq : b.yield.1 = if b.yields then (b.enqueue b.cpu).dispatch else b := by
  rw [Books.yield, Books.yields]
  cases b.running b.cpu with
  | false => rfl
  | true => cases isEncoderZero b.ready.encoderInput <;> rfl

lemma add_eq (tid : ThreadId) : (b.add tid).1 =
    if b.running tid && !b.ready.queued tid then b.enqueue tid else b := by
  rw [Books.add]
  cases b.running tid with
  | false => rfl
  | true => cases b.ready.queued tid <;> rfl

lemma next_eq : b.next.1 = if b.running b.ready.nextThreadId then b.dispatch else b := by
  rw [Books.next]
  cases b.running b.ready.nextThreadId <;> rfl

lemma clear_ready (tid : ThreadId) : (b.clear tid).1.ready = b.ready := by
  rw [Books.clear]
  split
  · rw [Books.deallocate]
    split <;> rfl
  · rfl

lemma join_ready (tid : ThreadId) : (b.join tid).1.ready = b.ready := by
  rw [Books.join]
  split
  · split <;> rfl
  · rfl

lemma create_ready (command : BitVec 6) : (b.create command).1.ready = b.ready := by
  rw [Books.create]
  split <;> rfl

lemma fst_of_some {p : Books × Word} (h : some p = some (b', w)) : b' = p.1 := by
  cases h
  rfl

lemma snd_of_some {p : Books × Word} (h : some p = some (b', w)) : w = p.2 := by
  cases h
  rfl

lemma effect_ready (h : cmd.effect b = some (b', w)) :
    b'.ready = if b.dispatches cmd then (b.enqueued cmd).dequeue (b.enqueued cmd).nextThreadId
      else b.enqueued cmd := by
  cases cmd with
  | createJ =>
    rw [fst_of_some h]
    exact create_ready _
  | createD =>
    rw [fst_of_some h]
    exact create_ready _
  | clear tid =>
    rw [fst_of_some h]
    exact clear_ready tid
  | join tid =>
    rw [fst_of_some h]
    exact join_ready tid
  | add tid =>
    rw [fst_of_some h, add_eq]
    simp only [Books.dispatches, Books.enqueued, Books.enqueues, Bool.false_eq_true, if_false]
    split <;> rfl
  | next =>
    rw [Command.effect] at h
    split at h
    · rw [fst_of_some h, next_eq]
      simp only [Books.dispatches, Books.enqueued, Books.enqueues]
      exact apply_ite Books.ready _ _ _
    · cases h
  | yield =>
    rw [fst_of_some h, yield_eq]
    simp only [Books.dispatches, Books.enqueued, Books.enqueues]
    split <;> rfl
  | exit tid =>
    rw [fst_of_some h, exit_eq]
    simp only [Books.dispatches, Books.enqueued, Books.enqueues, Bool.false_eq_true, if_false]
    split <;> rfl
  | isQueued tid | isDetached tid | read tid | current =>
    rw [fst_of_some h]
    rfl

/-- `DOA(8 to 31)`: parent, flags and status. -/
def entryRecord (entry : Word) : BitVec 24 := slice entry 8 24

section Fields

variable {e e' : Word}

lemma getLsbD_record (e : Word) {i : ℕ} (hi : i < 24) :
    (entryRecord e).getLsbD i = e.getLsbD i := by
  rw [entryRecord, getLsbD_slice, decide_eq_true hi, Bool.true_and, Nat.zero_add]

lemma getLsbD_of_record (h : entryRecord e' = entryRecord e) {i : ℕ} (hi : i < 24) :
    e'.getLsbD i = e.getLsbD i := by
  rw [← getLsbD_record e' hi, h, getLsbD_record e hi]

lemma slice_of_record (h : entryRecord e' = entryRecord e) {first width : ℕ} (hf : 8 ≤ first)
    (hw : first + width ≤ 32) : slice e' first width = slice e first width := by
  apply BitVec.eq_of_getLsbD_eq
  intro i hi
  rw [getLsbD_slice, getLsbD_slice, getLsbD_of_record h (by omega)]

lemma bit_of_record (h : entryRecord e' = entryRecord e) {i : ℕ} (hi : 8 ≤ i) :
    bit e' i = bit e i := getLsbD_of_record h (by omega)

lemma entryUsed_of_record (h : entryRecord e' = entryRecord e) : entryUsed e' = entryUsed e :=
  bit_of_record h (by omega)

lemma entryStatus_of_record (h : entryRecord e' = entryRecord e) : entryStatus e' = entryStatus e :=
  slice_of_record h (by omega) (by omega)

lemma status_eq (e : Word) :
    entryStatus e = BitVec.ofBool (bit e 26) ++ BitVec.ofBool (bit e 27) := by
  apply BitVec.eq_of_getLsbD_eq
  intro i hi
  rw [entryStatus, getLsbD_slice, BitVec.getLsbD_append]
  obtain rfl | rfl : i = 0 ∨ i = 1 := by omega
  all_goals simp [bit]

lemma entryUsed_of_status (h : bit (entryStatus e) 0 = true) : entryUsed e = true := by
  rw [status_eq] at h
  revert h
  rw [entryUsed]
  cases bit e 26 <;> cases bit e 27 <;> decide

lemma entryId_createdEntry (command : BitVec 6) (e : Word) (cpu : ThreadId) :
    entryId (createdEntry command e cpu) = entryId e := by
  apply BitVec.eq_of_getLsbD_eq
  intro i hi
  rw [createdEntry]
  split
  all_goals
    simp only [entryId, getLsbD_slice, BitVec.getLsbD_append, hi]
    grind

lemma entryStatus_createdEntry (command : BitVec 6) (e : Word) (cpu : ThreadId) :
    entryStatus (createdEntry command e cpu) = 0b11 := by
  apply BitVec.eq_of_getLsbD_eq
  intro i hi
  rw [createdEntry]
  obtain rfl | rfl : i = 0 ∨ i = 1 := by omega
  all_goals
    split
    all_goals
      simp only [entryStatus, getLsbD_slice, BitVec.getLsbD_append]
      simp

lemma entryId_clearedEntry (e : Word) : entryId (entryId e ++ 0#24) = entryId e := by
  apply BitVec.eq_of_getLsbD_eq
  intro i hi
  simp only [entryId, getLsbD_slice, BitVec.getLsbD_append, hi]
  grind

lemma entryRecord_clearedEntry (e : Word) : entryRecord (entryId e ++ 0#24) = 0 := by
  apply BitVec.eq_of_getLsbD_eq
  intro i hi
  simp only [entryRecord, getLsbD_slice, BitVec.getLsbD_append, hi]
  grind

lemma entryId_insert {k first : ℕ} (x : BitVec k) (e : Word) (hf : 8 ≤ first)
    (hk : first + k ≤ 32) : entryId (insert first x e) = entryId e :=
  slice_insert_of_disjoint first 0 x e hk (by omega) (.inl (by omega))

lemma entryId_pushed (tid : ThreadId) (e : Word) : entryId (insert 0 tid e) = tid :=
  slice_insert_self 0 tid e (by omega)

lemma entryRecord_pushed (tid : ThreadId) (e : Word) :
    entryRecord (insert 0 tid e) = entryRecord e :=
  slice_insert_of_disjoint 0 8 tid e (by omega) (by omega) (.inr (by omega))

lemma entryUsed_joined (e : Word) : entryUsed (insert 25 1#1 e) = entryUsed e :=
  bit_insert_of_outside 25 26 _ e (by omega) (by omega) (.inr (by omega))

lemma entryStatus_exited (e : Word) : entryStatus (insert 26 0b10#2 e) = 0b10 :=
  slice_insert_self 26 0b10#2 e (by omega)

end Fields

end Hthreads.Cores
