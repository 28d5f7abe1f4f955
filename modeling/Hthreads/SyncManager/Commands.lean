import Hthreads.SyncManager.Slave

/-! What a bus transaction does to the contents of the two stores. The two ways to ask for a mutex
agree. -/

namespace Hthreads.SyncManager

open Library Library.BitFields Scheduler

variable {m : ℕ}

@[ext] structure Stores (m : ℕ) where
  mutexes : BitVec m → MutexEntry
  links : ThreadId → ThreadId

def Stores.initial : Stores m := ⟨fun _ => 0, fun _ => 0⟩

inductive Request (m : ℕ)
  | lock (mutex : BitVec m) (thread : ThreadId)
  | tryLock (mutex : BitVec m) (thread : ThreadId)
  | unlock (mutex : BitVec m) (thread : ThreadId)
  | setKind (mutex : BitVec m) (kind : BitVec 2)
  | kind (mutex : BitVec m)
  | owner (mutex : BitVec m)
  | count (mutex : BitVec m)
  deriving DecidableEq

def Bus.request (b : Bus) : Option (Request m) :=
  let mutex := mtxNumber m b.addr
  let thread := thrNumber m b.addr
  match b.select with
  | some .lock => some (.lock mutex thread)
  | some .tryLock => some (.tryLock mutex thread)
  | some .unlock => some (.unlock mutex thread)
  | some .kind => some (if b.rnw then .kind mutex else .setKind mutex (kndNumber b.data))
  | some .owner => some (.owner mutex)
  | some .count => some (.count mutex)
  | some .result => none
  | none => none

/-- The answer to a request: the data word, the ids on the send port and the new contents. -/
structure Outcome (m : ℕ) where
  data : Word := 0
  sent : List ThreadId := []
  stores : Stores m

namespace Stores

variable (S : Stores m) (μ : BitVec m) (t : ThreadId)

def put (e : MutexEntry) : Stores m := { S with mutexes := Function.update S.mutexes μ e }
def link (u : ThreadId) : Stores m := { S with links := Function.update S.links u t }

def grant : Stores m := S.put μ ⟨t, t, t, (S.mutexes μ).kind, 1⟩

def nest : Stores m := S.put μ { S.mutexes μ with count := (S.mutexes μ).count + 1 }

def lock : Outcome m :=
  let e := S.mutexes μ
  if e.count = 0 then { stores := S.grant μ t }
  else if e.kind = synchError ∧ e.owner = t then { data := errorData, stores := S }
  else if e.kind = synchRecurs ∧ e.owner = t then { stores := S.nest μ }
  else if e.next = e.owner then
    { data := blockData, stores := (S.put μ { e with next := t, last := t }).link t t }
  else
    { data := blockData, stores := ((S.put μ { e with last := t }).link t e.last).link t t }

def tryLock : Outcome m :=
  let e := S.mutexes μ
  if e.count = 0 then { stores := S.grant μ t }
  else if e.kind = synchRecurs ∧ e.owner = t then { stores := S.nest μ }
  else { data := blockData, stores := S }

def unlock : Outcome m :=
  let e := S.mutexes μ
  if e.kind = synchRecurs ∧ e.count ≠ 1 ∧ e.count ≠ 0 then
    { stores := S.put μ { e with count := e.count - 1 } }
  else if e.count = 1 then
    if e.last = e.owner then { stores := S.put μ ⟨0, 0, 0, e.kind, 0⟩ }
    else { sent := [e.next], stores := S.put μ ⟨e.next, S.links e.next, e.last, e.kind, 1⟩ }
  else { data := errorData, stores := S }

def setKind (k : BitVec 2) : Outcome m := { stores := S.put μ { S.mutexes μ with kind := k } }

end Stores

def Request.effect (S : Stores m) : Request m → Outcome m
  | .lock μ t => S.lock μ t
  | .tryLock μ t => S.tryLock μ t
  | .unlock μ _ => S.unlock μ
  | .setKind μ k => S.setKind μ k
  | .kind μ => { data := (S.mutexes μ).kind.setWidth 32, stores := S }
  | .owner μ => { data := (S.mutexes μ).owner.setWidth 32, stores := S }
  | .count μ => { data := (S.mutexes μ).count.setWidth 32, stores := S }

namespace Slave

/-- The contents of the stores once the writes under way have landed. -/
def stores (s : Slave m) : Stores m := ⟨s.mutexes.contents, s.threads.contents⟩

lemma Quiet.clock_idle_stores {s : Slave m} (h : s.Quiet) : (s.clock .idle).stores = s.stores := by
  simp [stores, clock, mutexAccess, threadAccess, lockDrive, unlockDrive, tryDrive, ownerDrive,
    kindDrive, countDrive, signals, lockController, unlockController, tryController,
    ownerController, kindController, countController, awaitStart, h.lock, h.unlock, h.tryLock,
    h.owner, h.kind, h.count]

/-- The request is answered within five cycles, and the slave is quiet again. -/
def Serves (b : Bus) (s : Slave m) (o : Outcome m) : Prop :=
  ∃ t : Slave m, s.serve b 5 = some (o.data, o.sent, t) ∧ t.Quiet ∧ t.stores = o.stores

section Cycles

attribute [local simp] serve ack ip2busData clock stores mutexAccess threadAccess lockDrive
  unlockDrive tryDrive ownerDrive kindDrive countDrive signals lockController unlockController
  tryController ownerController kindController countController awaitStart resultController
  UnlockRegs.sent Store.clock_dout Bus.start Stores.put Stores.link Stores.grant Stores.nest
  Stores.lock Stores.tryLock Stores.unlock Stores.setKind

variable {s : Slave m} {b : Bus}

lemma serves_lock (h : s.Quiet) (hb : b.select = some .lock) :
    s.Serves b (s.stores.lock (mtxNumber m b.addr) (thrNumber m b.addr)) := by
  obtain ⟨h1, h2, h3, h4, h5, h6, h7, h8⟩ := h
  have hkinds : synchRecurs ≠ synchError := by decide
  generalize he : s.mutexes.contents (mtxNumber m b.addr) = e
  by_cases hfree : e.count = 0#8
  · exact ⟨(clock b)^[3] s, by simp [*], by constructor <;> simp [*], by simp [*]⟩
  by_cases herr : e.kind = synchError ∧ e.owner = thrNumber m b.addr
  · exact ⟨(clock b)^[3] s, by simp [*], by constructor <;> simp [*], by simp [*]⟩
  by_cases hrec : e.kind = synchRecurs ∧ e.owner = thrNumber m b.addr
  · exact ⟨(clock b)^[3] s, by simp [*], by constructor <;> simp [*], by simp [*]⟩
  by_cases hnext : e.next = e.owner
  · exact ⟨(clock b)^[3] s, by simp [*], by constructor <;> simp [*], by simp [*]⟩
  · exact ⟨(clock b)^[4] s, by simp [*], by constructor <;> simp [*], by simp [*]⟩

lemma serves_tryLock (h : s.Quiet) (hb : b.select = some .tryLock) :
    s.Serves b (s.stores.tryLock (mtxNumber m b.addr) (thrNumber m b.addr)) := by
  obtain ⟨h1, h2, h3, h4, h5, h6, h7, h8⟩ := h
  generalize he : s.mutexes.contents (mtxNumber m b.addr) = e
  by_cases hfree : e.count = 0#8
  · exact ⟨(clock b)^[3] s, by simp [*], by constructor <;> simp [*], by simp [*]⟩
  by_cases hrec : e.kind = synchRecurs ∧ e.owner = thrNumber m b.addr
  · exact ⟨(clock b)^[3] s, by simp [*], by constructor <;> simp [*], by simp [*]⟩
  · exact ⟨(clock b)^[3] s, by simp [*], by constructor <;> simp [*], by simp [*]⟩

lemma serves_unlock (h : s.Quiet) (hb : b.select = some .unlock) :
    s.Serves b (s.stores.unlock (mtxNumber m b.addr)) := by
  obtain ⟨h1, h2, h3, h4, h5, h6, h7, h8⟩ := h
  generalize he : s.mutexes.contents (mtxNumber m b.addr) = e
  by_cases hone : e.count = 1#8
  · by_cases hlast : e.last = e.owner
    · exact ⟨(clock b)^[3] s, by simp [*], by constructor <;> simp [*], by simp [*]⟩
    · exact ⟨(clock b)^[5] s, by simp [*], by constructor <;> simp [*], by simp [*]⟩
  by_cases hrec : e.kind = synchRecurs ∧ ¬ e.count = 0#8
  · exact ⟨(clock b)^[3] s, by simp [*], by constructor <;> simp [*], by simp [*]⟩
  · exact ⟨(clock b)^[3] s, by simp [*], by constructor <;> simp [*], by simp [*]⟩

lemma serves_kind (h : s.Quiet) (hb : b.select = some .kind) (hrnw : b.rnw = true) :
    s.Serves b ((Request.kind (mtxNumber m b.addr)).effect s.stores) := by
  obtain ⟨h1, h2, h3, h4, h5, h6, h7, h8⟩ := h
  exact ⟨(clock b)^[3] s, by simp [*, Request.effect], by constructor <;> simp [*],
    by simp [*, Request.effect]⟩

lemma serves_setKind (h : s.Quiet) (hb : b.select = some .kind) (hrnw : b.rnw = false) :
    s.Serves b (s.stores.setKind (mtxNumber m b.addr) (kndNumber b.data)) := by
  obtain ⟨h1, h2, h3, h4, h5, h6, h7, h8⟩ := h
  exact ⟨(clock b)^[3] s, by simp [*], by constructor <;> simp [*], by simp [*]⟩

lemma serves_owner (h : s.Quiet) (hb : b.select = some .owner) :
    s.Serves b ((Request.owner (mtxNumber m b.addr)).effect s.stores) := by
  obtain ⟨h1, h2, h3, h4, h5, h6, h7, h8⟩ := h
  exact ⟨(clock b)^[3] s, by simp [*, Request.effect], by constructor <;> simp [*],
    by simp [*, Request.effect]⟩

lemma serves_count (h : s.Quiet) (hb : b.select = some .count) :
    s.Serves b ((Request.count (mtxNumber m b.addr)).effect s.stores) := by
  obtain ⟨h1, h2, h3, h4, h5, h6, h7, h8⟩ := h
  exact ⟨(clock b)^[3] s, by simp [*, Request.effect], by constructor <;> simp [*],
    by simp [*, Request.effect]⟩

end Cycles

/-- Every transaction of the bus has the effect of the request it stands for. -/
theorem serves_request {s : Slave m} (h : s.Quiet) {b : Bus} {r : Request m}
    (hb : b.request = some r) : s.Serves b (r.effect s.stores) := by
  rw [Bus.request] at hb
  split at hb
  next hc =>
    cases hb
    exact serves_lock h hc
  next hc =>
    cases hb
    exact serves_tryLock h hc
  next hc =>
    cases hb
    exact serves_unlock h hc
  next hc =>
    cases hb
    cases hrnw : b.rnw with
    | true => exact serves_kind h hc hrnw
    | false => exact serves_setKind h hc hrnw
  next hc =>
    cases hb
    exact serves_owner h hc
  next hc =>
    cases hb
    exact serves_count h hc
  next => cases hb
  next => cases hb

end Slave

namespace Stores

variable (S : Stores m) (μ : BitVec m) (t : ThreadId)

/-- A lock is granted at once to the first thread, and to the owner of a recursive mutex. -/
def Granted : Prop :=
  (S.mutexes μ).count = 0 ∨ (S.mutexes μ).kind = synchRecurs ∧ (S.mutexes μ).owner = t

lemma tryLock_of_granted (h : S.Granted μ t) :
    (S.tryLock μ t).data = 0 ∧ (S.lock μ t).data = 0 ∧
      (S.tryLock μ t).stores = (S.lock μ t).stores := by
  have hkinds : synchRecurs ≠ synchError := by decide
  by_cases hfree : (S.mutexes μ).count = 0
  · simp [tryLock, lock, hfree]
  · obtain ⟨hkind, howner⟩ := h.resolve_left hfree
    simp only [tryLock, lock, hfree, hkind, howner, hkinds, and_self, false_and, if_true, if_false]

lemma tryLock_of_not_granted (h : ¬ S.Granted μ t) :
    (S.tryLock μ t).data ≠ 0 ∧ (S.lock μ t).data ≠ 0 ∧ (S.tryLock μ t).stores = S := by
  have hblock : blockData ≠ 0 := by decide
  have herror : errorData ≠ 0 := by decide
  obtain ⟨hfree, hnest⟩ := not_or.mp h
  have htry : S.tryLock μ t = { data := blockData, stores := S } := by
    simp only [tryLock, hfree, hnest, if_false]
  refine ⟨?_, ?_, ?_⟩
  · rw [htry]
    exact hblock
  · rw [lock]
    simp only [hfree, hnest, if_false]
    split_ifs
    · exact herror
    · exact hblock
    · exact hblock
  · rw [htry]

end Stores

/-- A TRYLOCK succeeds when a LOCK of the same lines would be granted at once, leaves the stores as
that LOCK does, and otherwise changes nothing. -/
theorem tryLock_agrees_with_lock (s : Slave m) (hs : s.Quiet) (addr data : Word) (rnw : Bool) :
    ∃ (t u : Slave m) (k l : Word), s.serve ⟨some .tryLock, addr, data, rnw⟩ 5 = some (k, [], t) ∧
      s.serve ⟨some .lock, addr, data, rnw⟩ 5 = some (l, [], u) ∧ (k = 0 ↔ l = 0) ∧
      (k = 0 → t.stores = u.stores) ∧ (k ≠ 0 → t.stores = s.stores) := by
  obtain ⟨t, htry, -, htstores⟩ :=
    Slave.serves_tryLock hs (b := ⟨some .tryLock, addr, data, rnw⟩) rfl
  obtain ⟨u, hlock, -, hustores⟩ := Slave.serves_lock hs (b := ⟨some .lock, addr, data, rnw⟩) rfl
  have hsent : (s.stores.tryLock (mtxNumber m addr) (thrNumber m addr)).sent = [] ∧
      (s.stores.lock (mtxNumber m addr) (thrNumber m addr)).sent = [] := by
    simp only [Stores.tryLock, Stores.lock]
    refine ⟨?_, ?_⟩ <;> split_ifs <;> rfl
  rw [hsent.1] at htry
  rw [hsent.2] at hlock
  refine ⟨t, u, _, _, htry, hlock, ?_⟩
  rw [htstores, hustores]
  by_cases hgrant : s.stores.Granted (mtxNumber m addr) (thrNumber m addr)
  · obtain ⟨htryData, hlockData, hsame⟩ := s.stores.tryLock_of_granted _ _ hgrant
    exact ⟨iff_of_true htryData hlockData, fun _ => hsame, fun hne => absurd htryData hne⟩
  · obtain ⟨htryData, hlockData, hsame⟩ := s.stores.tryLock_of_not_granted _ _ hgrant
    exact ⟨iff_of_false htryData hlockData, fun heq => absurd heq htryData, fun _ => hsame⟩

-- thread 5 asks for mutex 1 after the reset
theorem tryLock_agrees_after_reset :
    ∃ (t u : Slave 1) (k l : Word),
      ((Slave.reset .idle)^[300] Slave.powerUp).serve ⟨some .tryLock, 0x2c, 0, true⟩ 5 =
        some (k, [], t) ∧
      ((Slave.reset .idle)^[300] Slave.powerUp).serve ⟨some .lock, 0x2c, 0, true⟩ 5 =
        some (l, [], u) ∧ (k = 0 ↔ l = 0) := by
  have hquiet : Slave.Quiet ((Slave.reset .idle)^[300] (Slave.powerUp : Slave 1)) := by
    rw [Function.iterate_succ_apply']
    exact ⟨rfl, rfl, rfl, rfl, rfl, rfl, rfl, rfl⟩
  obtain ⟨t, u, k, l, htry, hlock, hiff, -⟩ := tryLock_agrees_with_lock _ hquiet 0x2c 0 true
  exact ⟨t, u, k, l, htry, hlock, hiff⟩

end Hthreads.SyncManager
