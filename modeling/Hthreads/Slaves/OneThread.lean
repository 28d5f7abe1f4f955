import Hthreads.Slaves.Search
import Hthreads.Slaves.ThreadCreate

/-! A call of `thread_create` makes one thread or queues one request, unless it is given the number
of a slave that does not exist. -/

namespace Hthreads.Slaves

open Software

/-- What a call that began with the queue `q` is for. -/
structure CreatesOne (P : Platform) (c : Call) (q : ThreadQueue) (o : Progress) : Prop where
  one : o.ret = success →
    (o.created.length = 1 ∧ o.tables.queue = q) ∨
      (o.created = [] ∧ o.tables.queue.threadEntries = q.threadEntries + 1 ∧
        o.tables.queue.slots = Function.update q.slots q.tail c.request)
  nothing : o.ret ≠ success →
    (∀ made ∈ o.created, made.status ≠ success) ∧ o.tables.queue = q
  inBounds : ∀ cell ∈ o.indexed, cell.InBounds P

/-- The type names a slave that there is, or leaves the choice to the code; in the latter case the
preference lists do not end before the search does. -/
def WellPlaced (P : Platform) (E : Surroundings) (c : Call) : Prop :=
  c.type = softwareThread ∨ (c.type = dynamicHw ∧ P.ListedUntilTaken E c.funcId) ∨
    (c.type + staticHwOffset).toNat < P.cpus

section Outcomes

variable {P : Platform} {E : Surroundings} {c : Call} {q : ThreadQueue} {d : Tables} {o : Progress}

lemma CreatesOne.of_made {made : Creation} (hcreated : o.created = [made])
    (hret : o.ret = made.status) (hqueue : o.tables.queue = q)
    (hcells : ∀ cell ∈ o.indexed, cell.InBounds P) : CreatesOne P c q o where
  one _ := .inl ⟨by simp [hcreated], hqueue⟩
  nothing hfailed := ⟨by simpa [hcreated, ← hret] using hfailed, hqueue⟩
  inBounds := hcells

namespace Progress

/-- A call whose tables are set up and that has created nothing yet. -/
structure Ready (P : Platform) (q : ThreadQueue) (o : Progress) : Prop where
  initialized : o.tables.tableInitializedFlag = true
  created : o.created = []
  queue : o.tables.queue = q
  inBounds : ∀ cell ∈ o.indexed, cell.InBounds P

lemma ready_start : (start P d).Ready P (start P d).tables.queue := by
  unfold start initHostTables
  split
  next hflag => exact ⟨hflag, rfl, rfl, by simp⟩
  next =>
    refine ⟨rfl, rfl, rfl, ?_⟩
    have htables : ∀ cell ∈ (List.range P.cpus).map Cell.slaveTable, cell.InBounds P := by
      intro cell hcell
      obtain ⟨i, hi, rfl⟩ := List.mem_map.mp hcell
      exact List.mem_range.mp hi
    have hqueue : Cell.InBounds P (.threadQueue 0) := NeZero.pos threadQueueMax
    simp only [List.nil_append, List.forall_mem_append, List.forall_mem_singleton]
    exact ⟨⟨P.allSlaves_inBounds, htables⟩, hqueue⟩

lemma Ready.look (h : o.Ready P q) {cells : List Cell} (hcells : ∀ cell ∈ cells, cell.InBounds P) :
    (o.look cells).Ready P q :=
  ⟨h.initialized, h.created, h.queue, List.forall_mem_append.mpr ⟨h.inBounds, hcells⟩⟩

lemma Ready.hthreadCreate (h : o.Ready P q) (attributes : Option Attr) (func : Huint) :
    CreatesOne P c q (o.hthreadCreate E c attributes func) := by
  have hstatus : E.created o.created.length = E.created 0 := by rw [h.created, List.length_nil]
  have hcreated : (o.hthreadCreate E c attributes func).created =
      [⟨c.tid, attributes, func, c.arg, E.created 0⟩] := by
    simp [Progress.hthreadCreate, h.created]
  exact .of_made hcreated hstatus h.queue h.inBounds

lemma Ready.softwareCreate (h : o.Ready P q) (attributes : Option Attr) :
    CreatesOne P c q (o.softwareCreate P E c attributes) := by
  have hcounted : o.countThread.Ready P q := ⟨h.initialized, h.created, h.queue, h.inBounds⟩
  rw [Progress.softwareCreate, initHostTables, if_pos h.initialized]
  exact hcounted.hthreadCreate _ _

lemma Ready.createOnSlave (h : o.Ready P q) {slaveNum : Huint} (hs : slaveNum.toNat < P.cpus) :
    CreatesOne P c q (o.createOnSlave P E c slaveNum) := by
  have hcells : ∀ cell ∈ [Cell.slaveTable slaveNum.toNat, .hwtiArray slaveNum.toNat],
      cell.InBounds P := by
    simpa [Cell.InBounds] using hs
  exact (h.look hcells).hthreadCreate _ _

lemma nextTailIndex_lt (q : ThreadQueue) : q.nextTailIndex.toNat < threadQueueMax := by
  have hmax : (BitVec.ofNat 32 threadQueueMax).toNat = threadQueueMax := by
    rw [BitVec.toNat_ofNat, threadQueueMax]
  rw [ThreadQueue.nextTailIndex, BitVec.toNat_umod, hmax]
  exact Nat.mod_lt _ (NeZero.pos threadQueueMax)

lemma Ready.enqueue (h : o.Ready P q) : CreatesOne P c q (o.enqueue c) := by
  refine ⟨fun _ => .inr ⟨h.created, ?_, ?_⟩, fun hfailed => (hfailed rfl).elim, ?_⟩
  · rw [← h.queue]
    rfl
  · rw [← h.queue]
    rfl
  · have htail : Cell.InBounds P (.threadQueue o.tables.queue.tail) := o.tables.queue.tail.isLt
    have hnext : Cell.InBounds P (.threadQueue o.tables.queue.nextTailIndex.toNat) :=
      nextTailIndex_lt _
    refine List.forall_mem_append.mpr ⟨h.inBounds, ?_⟩
    simp [htail, hnext]

lemma Ready.createSoftware (h : o.Ready P q) : CreatesOne P c q (o.createSoftware P E c) := by
  unfold Progress.createSoftware
  split
  next =>
    have hne : failure ≠ success := by decide
    exact ⟨fun hret => (hne hret).elim, fun _ => ⟨by simp [h.created], h.queue⟩, h.inBounds⟩
  next => exact h.softwareCreate _

lemma indexed_softwareCreate (attributes : Option Attr) :
    o.indexed ⊆ (o.softwareCreate P E c attributes).indexed := by
  have hinit : o.indexed ⊆ (o.initHostTables P).indexed := by
    unfold initHostTables
    split_ifs
    · exact List.Subset.refl _
    · simp only [List.append_assoc]
      exact List.subset_append_left _ _
  exact hinit

lemma indexed_createOnSlave (slaveNum : Huint) :
    o.indexed ⊆ (o.createOnSlave P E c slaveNum).indexed :=
  List.subset_append_left _ _

lemma indexed_createDynamic :
    (P.findBestMatch E c.funcId).2 ⊆ (o.createDynamic P E c).indexed := by
  have hlook : (P.findBestMatch E c.funcId).2 ⊆ (o.look (P.findBestMatch E c.funcId).2).indexed :=
    List.subset_append_right _ _
  unfold createDynamic
  dsimp only
  split_ifs
  · exact List.Subset.trans hlook (indexed_softwareCreate _)
  · exact List.Subset.trans hlook (List.subset_append_left _ _)
  · exact List.Subset.trans hlook (indexed_createOnSlave _)

lemma Ready.createDynamic_iff (h : o.Ready P q) :
    CreatesOne P c q (o.createDynamic P E c) ↔ P.ListedUntilTaken E c.funcId := by
  rw [← Platform.findBestMatch_inBounds_iff]
  refine ⟨fun hone cell hcell => hone.inBounds cell (indexed_createDynamic hcell),
    fun hcells => ?_⟩
  have hlook := h.look hcells
  unfold createDynamic
  dsimp only
  split_ifs with hfailure henqueue
  · exact hlook.softwareCreate _
  · exact hlook.enqueue
  · have hfound : (P.findBestMatch E c.funcId).1 = enqueueThread ∨
        P.Answer (P.findBestMatch E c.funcId).1 := Platform.findBestMatch_answer
    obtain hanswer | hanswer | hanswer := hfound
    · exact (henqueue hanswer).elim
    · exact (hfailure hanswer).elim
    · exact hlook.createOnSlave hanswer

lemma Ready.createStatic (h : o.Ready P q) (hs : (c.type + staticHwOffset).toNat < P.cpus) :
    CreatesOne P c q (o.createStatic P E c) := by
  have hflag : ∀ cell ∈ [Cell.hwtiArray (c.type + staticHwOffset).toNat], cell.InBounds P :=
    List.forall_mem_singleton.mpr hs
  unfold Progress.createStatic
  simp only [if_neg (Nat.not_le.mpr hs)]
  split_ifs
  · exact (h.look hflag).softwareCreate _
  · exact (h.look hflag).createOnSlave hs

lemma mem_look (cell : Cell) : cell ∈ (o.look [cell]).indexed :=
  List.mem_append_right _ (List.mem_singleton_self cell)

lemma mem_indexed_createStatic :
    .hwtiArray (c.type + staticHwOffset).toNat ∈ (o.createStatic P E c).indexed := by
  unfold Progress.createStatic
  dsimp only
  generalize (if P.cpus ≤ (c.type + staticHwOffset).toNat then o.softwareCreate P E c none
    else o) = first
  generalize c.type + staticHwOffset = slaveNum
  split_ifs
  · exact indexed_softwareCreate none (mem_look _)
  · exact indexed_createOnSlave slaveNum (mem_look _)

lemma Ready.createStatic_iff (h : o.Ready P q) :
    CreatesOne P c q (o.createStatic P E c) ↔ (c.type + staticHwOffset).toNat < P.cpus :=
  ⟨fun hone => hone.inBounds _ mem_indexed_createStatic, h.createStatic⟩

end Progress

lemma wellPlaced_iff_of_dynamic (h : c.type = dynamicHw) :
    WellPlaced P E c ↔ P.ListedUntilTaken E c.funcId := by
  have hcpus := P.cpus_lt
  have hsoftware : dynamicHw ≠ softwareThread := by decide
  have hslave : (dynamicHw + staticHwOffset).toNat = 2 ^ 32 - 1 := by decide
  simp only [WellPlaced, h, hsoftware, hslave, false_or, true_and]
  refine or_iff_left ?_
  omega

/-- A call that returns has done its work exactly when the type is one that the code handles. -/
theorem thread_create_creates_one_iff {fuel : ℕ} (h : threadCreate P E fuel c d = some o) :
    CreatesOne P c (Progress.start P d).tables.queue o ↔ WellPlaced P E c := by
  have hready := Progress.ready_start (P := P) (d := d)
  unfold threadCreate at h
  split_ifs at h with hattr hdynamic hsoftware
  · obtain ⟨waited, hwaited, rfl⟩ := Option.map_eq_some_iff.mp h
    rw [wellPlaced_iff_of_dynamic hdynamic]
    exact (hready.look (Platform.awaitFree_inBounds hwaited)).createDynamic_iff
  · cases h
    exact iff_of_true hready.createSoftware (.inl hsoftware)
  · cases h
    rw [hready.createStatic_iff, WellPlaced]
    simp only [hsoftware, hdynamic, false_and, false_or]

end Outcomes

section OneSlave

-- a platform with a single slave, which is free, and a kernel that creates every thread
def oneSlave : Platform where
  cpus := 1
  hwtiArray _ := 0x63000000
  slaveTable _ := ⟨1, false⟩
  typeHost := 0
  lookupThread _ _ := 0x1000
  threadProfile _ := ⟨noAcc, false⟩
  preferredList _ _ := notListed
  nonPreferredList _ _ := notListed
  opcodeFlagging := false
  checkFirstPolymorphic := false
  cpus_lt := by decide
  preferredList_lt _ _ := .inl rfl
  nonPreferredList_lt _ _ := .inl rfl

def obliging : Surroundings where
  counted _ _ := flagHwtiFree
  matched _ := flagHwtiFree
  accelerator _ := noAcc
  flagged := flagHwtiFree
  created _ := success

def callOf (type : Huint) : Call := ⟨0x2000, 0x3000, .init, 0, 0, type⟩

def uninitialized : Tables where
  tableInitializedFlag := false
  queue := ⟨fun _ => ⟨0, 0, 0, 0⟩, 0, 0, 0, 0, 0⟩
  threadCounter := 0

theorem thread_create_creates_one_on_first_slave :
    ∃ o, threadCreate oneSlave obliging 0 (callOf staticHw0) uninitialized = some o ∧
      CreatesOne oneSlave (callOf staticHw0) (Progress.start oneSlave uninitialized).tables.queue
        o := by
  have hplaced : WellPlaced oneSlave obliging (callOf staticHw0) := by
    have hslave : (staticHw0 + staticHwOffset).toNat < oneSlave.cpus := by decide
    exact .inr (.inr hslave)
  have hcall : threadCreate oneSlave obliging 0 (callOf staticHw0) uninitialized = some _ := rfl
  exact ⟨_, hcall, (thread_create_creates_one_iff hcall).mpr hplaced⟩

/-- STATIC_HW1 with one slave: the call answers SUCCESS and has created two threads. -/
theorem thread_create_creates_two_on_missing_slave :
    ∃ o, threadCreate oneSlave obliging 0 (callOf 3) uninitialized = some o ∧
      o.ret = success ∧ o.created.length = 2 ∧
      ¬ CreatesOne oneSlave (callOf 3) (Progress.start oneSlave uninitialized).tables.queue o := by
  refine ⟨_, rfl, rfl, rfl, fun h => ?_⟩
  obtain ⟨hlength, -⟩ | ⟨hcreated, -⟩ := h.one rfl
  · exact absurd hlength (by decide)
  · exact absurd (congrArg List.length hcreated) (by decide)

end OneSlave

end Hthreads.Slaves
