import Hthreads.Library.Ranges
import Hthreads.Slaves.OneThread

/-! The host calls (`host_call.h`) that cut their data into chunks, one for each free slave, with a
thread for every chunk and a software thread for what remains. -/

namespace Hthreads.Accelerators

open Library Software Slaves

/-- The pointers of a package into the arrays of the call, which count words. -/
structure Package where
  data : List ℕ
  size : Huint
  deriving DecidableEq

/-- A call of `thread_create` with `&threads[slot]`, `&attr[slot]` and `&package[slot]`, the package
that is there, and the id of the thread that the call has made. -/
structure Request where
  slot : ℕ
  funcId : Huint
  package : Package
  type : Huint
  dmaLength : Huint
  thread : Option Huint

/-- The arrays of a host call, the tables that `thread_create` works on, what the call has asked for
so far, and the arguments of the merge at its end. -/
structure HostCall where
  package : ℕ → Package
  threads : ℕ → Huint
  tables : Tables
  requests : List Request
  joined : List Huint
  merged : Option (Huint × Huint)

/-- Where the elements of the arrays are, what each call of `thread_create` meets, the id that the
kernel has for its thread, and how many rounds a call may wait for a free slave. -/
structure Creating where
  threads : ℕ → Huint
  attr : ℕ → Huint
  package : ℕ → Huint
  attr_ne_null : ∀ i, attr i ≠ null
  meets : ℕ → Surroundings
  id : ℕ → Huint
  rounds : ℕ

/-- `min` takes its arguments as signed integers. -/
def cMin (x y : Hint) : Hint := if x.toInt < y.toInt then x else y

def wordBytes : ℕ := 4
def vectorBytes : ℕ := 16
def crcBytes : ℕ := 8
def sortBytes : ℕ := 8
def attrBytes : ℕ := 24

/-- `malloc(bytes * count)` has room for `n` elements; the product is taken in 32 bits. -/
def HasRoom (bytes : ℕ) (count : Huint) (n : ℕ) : Prop :=
  bytes * n ≤ (BitVec.ofNat 32 bytes * count).toNat

instance (bytes : ℕ) (count : Huint) (n : ℕ) : Decidable (HasRoom bytes count n) :=
  inferInstanceAs (Decidable (_ ≤ _))

section Code

variable (P : Platform) (C : Creating) (funcId : Huint) (ptrs : List ℕ)

def fillChunk (chunkSize : Huint) (h : HostCall) (i : ℕ) : HostCall :=
  let offset := (chunkSize * BitVec.ofNat 32 i).toNat
  { h with package := Function.update h.package i ⟨ptrs.map (· + offset), chunkSize⟩ }

def fillRemainder (size remainder : Huint) (h : HostCall) (i : ℕ) : HostCall :=
  { h with
    package :=
      Function.update h.package i ⟨ptrs.map fun p => p + size.toNat - remainder.toNat, remainder⟩ }

/-- The id is stored in the slot when the call makes a thread, and not when it queues the request or
fails. The attributes have just been initialized. -/
def createThread (type : Huint) (h : HostCall) (i : ℕ) : Option HostCall :=
  let n := h.requests.length
  let call : Slaves.Call := ⟨C.threads i, C.attr i, .init, funcId, C.package i, type⟩
  (threadCreate P (C.meets n) C.rounds call h.tables).map fun o =>
    let thread := if o.created.any (·.status = success) then some (C.id n) else none
    { h with
      tables := o.tables
      requests := h.requests ++ [⟨i, funcId, h.package i, type, 0, thread⟩]
      threads := thread.elim h.threads (Function.update h.threads i) }

def joinThread (h : HostCall) (i : ℕ) : HostCall := { h with joined := h.joined ++ [h.threads i] }

def extraThreadOf (size chunks : Huint) : Huint := if size % chunks = 0 then 0 else 1

def fillPackages (chunks size : Huint) (h : HostCall) : HostCall :=
  let h := (List.range chunks.toNat).foldl (fillChunk ptrs (size / chunks)) h
  if extraThreadOf size chunks ≠
    0 then fillRemainder ptrs size (size % chunks) h chunks.toNat else h

def createThreads (chunks size : Huint) (h : HostCall) : Option HostCall := do
  let h ← (List.range chunks.toNat).foldlM (createThread P C funcId dynamicHw) h
  if extraThreadOf size chunks ≠ 0 then createThread P C funcId softwareThread h chunks.toNat
  else some h

def threadCount (chunks size : Huint) : ℕ := chunks.toNat + (extraThreadOf size chunks).toNat

/-- The part that the three calls have in common. `none` stands for the division by zero, for a
write behind the end of an array (`package`, `attr`, then `threads` and `ret`), and for a call of
`thread_create` that still waits. -/
def runChunks (packageBytes : ℕ) (chunks size : Huint) (h : HostCall) : Option HostCall :=
  if chunks = 0 then none
  else
    let count := chunks + extraThreadOf size chunks
    if ∀ bytes ∈ [packageBytes, attrBytes, wordBytes],
      HasRoom bytes count (threadCount chunks size) then
      (createThreads P C funcId chunks size (fillPackages ptrs chunks size h)).map fun h =>
        (List.range count.toNat).foldl joinThread h
    else none

end Code

section Calls

/-- What the application generates: the tuning table with its index, and the ids of the functions.
-/
structure Tuning where
  optimalThreadNum : Huint → Hint
  getIndex : Huint → Huint
  numOfSizes : Huint
  vector : Huint
  crc : Huint
  sort : Huint
  vectorAddThreadFuncId : Huint
  crcThreadFuncId : Huint
  sortThreadFuncId : Huint

variable (P : Platform) (T : Tuning) (flag : ℕ → Huint) (C : Creating)

def hostChunks (acc size : Huint) : Huint :=
  cMin (BitVec.ofNat 32 (P.getNumFreeSlaves flag))
    (T.optimalThreadNum (acc * T.numOfSizes + T.getIndex size))

def vectorAddSwThread (aPtr bPtr cPtr : ℕ) (size : Huint) (h : HostCall) : Option HostCall :=
  runChunks P C T.vectorAddThreadFuncId [aPtr, bPtr, cPtr] vectorBytes
    (hostChunks P T flag T.vector size) size h

def crcSwThread (listPtr : ℕ) (size : Huint) (h : HostCall) : Option HostCall :=
  runChunks P C T.crcThreadFuncId [listPtr] crcBytes (hostChunks P T flag T.crc size) size h

def sortSwThread (listPtr : ℕ) (size : Huint) (h : HostCall) : Option HostCall :=
  let chunks := hostChunks P T flag T.sort size
  (runChunks P C T.sortThreadFuncId [listPtr] sortBytes chunks size h).map fun h =>
    { h with merged := if chunks ≠ 1 then some (chunks, size) else none }

end Calls

section Requests

def StopsWaiting (P : Platform) (E : Surroundings) (rounds : ℕ) (type : Huint) : Prop :=
  type = dynamicHw → (P.awaitFree E rounds 0).isSome

/-- The kernel creates the thread, and the request has not been queued because the slaves that were
free when it stopped waiting had been taken when it looked for one. -/
def Makes (P : Platform) (E : Surroundings) (funcId type : Huint) : Prop :=
  E.created 0 = success ∧ (type = dynamicHw → (P.findBestMatch E funcId).1 ≠ enqueueThread)

instance (P : Platform) (E : Surroundings) (funcId type : Huint) :
    Decidable (Makes P E funcId type) :=
  inferInstanceAs (Decidable (_ ∧ _))

variable {P : Platform} {E : Surroundings} {c : Slaves.Call} {d : Tables} {o : Progress}
  {q : ThreadQueue}
  {rounds : ℕ}

lemma threadCreate_isSome_iff (hattr : c.attr ≠ null) :
    (threadCreate P E rounds c d).isSome ↔ StopsWaiting P E rounds c.type := by
  unfold threadCreate StopsWaiting
  rw [if_neg hattr]
  split_ifs with hdynamic hsoftware <;> simp [hdynamic]

lemma any_hthreadCreate (h : o.created = []) (attributes : Option Attr) (func : Huint) :
    (o.hthreadCreate E c attributes func).created.any (·.status = success) ↔
      E.created 0 = success := by
  simp [Progress.hthreadCreate, h]

lemma any_softwareCreate (h : o.created = []) (hinit : o.tables.tableInitializedFlag = true)
    (attributes : Option Attr) :
    (o.softwareCreate P E c attributes).created.any (·.status = success) ↔
      E.created 0 = success := by
  rw [Progress.softwareCreate, Progress.initHostTables, if_pos hinit]
  exact any_hthreadCreate h _ _

lemma any_createDynamic (h : o.created = []) (hinit : o.tables.tableInitializedFlag = true) :
    (o.createDynamic P E c).created.any (·.status = success) ↔ Makes P E c.funcId dynamicHw := by
  have hne : failure ≠ enqueueThread := by decide
  unfold Progress.createDynamic Makes
  dsimp only
  split_ifs with hfailure henqueue
  · simp only [hfailure, hne, ne_eq, not_false_iff, implies_true, and_true]
    exact any_softwareCreate (P := P) (o := o.look _) h hinit none
  · simp [Progress.enqueue, Progress.look, h, henqueue]
  · simp only [henqueue, ne_eq, not_false_iff, implies_true, and_true]
    exact any_hthreadCreate h _ _

lemma threadCreate_makes_iff (h : threadCreate P E rounds c d = some o)
    (hattributes : c.attributes.hardware = false)
    (htype : c.type = dynamicHw ∨ c.type = softwareThread) :
    o.created.any (·.status = success) ↔ Makes P E c.funcId c.type := by
  have hready := Progress.ready_start (P := P) (d := d)
  unfold threadCreate at h
  split_ifs at h with hattr hdynamic hsoftware
  · obtain ⟨waited, -, rfl⟩ := Option.map_eq_some_iff.mp h
    rw [hdynamic]
    exact any_createDynamic hready.created hready.initialized
  · cases h
    rw [Progress.createSoftware, if_neg (by simp [hattributes]), any_softwareCreate hready.created
      hready.initialized, Makes, and_iff_left fun hdynamic' => absurd hdynamic' hdynamic]
  · exact absurd htype (by simp [hdynamic, hsoftware])

end Requests

section Loops

variable {P : Platform} {C : Creating} {funcId type chunkSize : Huint} {ptrs : List ℕ}
  {h h' h₀ : HostCall} {types : ℕ → Huint} {n : ℕ}

lemma foldl_fillChunk (n : ℕ) :
    (List.range n).foldl (fillChunk ptrs chunkSize) h =
      { h with
        package := fun i =>
          if i < n then ⟨ptrs.map (· + (chunkSize * BitVec.ofNat 32 i).toNat), chunkSize⟩
          else h.package i } := by
  induction n with
  | zero => simp
  | succ n ih =>
    rw [List.range_succ, List.foldl_append, ih]
    simp only [List.foldl_cons, List.foldl_nil, fillChunk, HostCall.mk.injEq, and_true]
    funext i
    by_cases hi : i = n
    · rw [hi, Function.update_self, if_pos (Nat.lt_succ_self n)]
    · have hlt : i < n + 1 ↔ i < n := by omega
      simp only [Function.update_of_ne hi, hlt]

def made (P : Platform) (C : Creating) (funcId : Huint) (types : ℕ → Huint) (i : ℕ) :
    Option Huint :=
  if Makes P (C.meets i) funcId (types i) then some (C.id i) else none

/-- A thread has been asked for with each of the first `n` packages, and those that were made have
their ids in their slots. -/
structure Asked (P : Platform) (C : Creating) (funcId : Huint) (types : ℕ → Huint)
    (h₀ : HostCall) (n : ℕ) (h : HostCall) : Prop where
  joined : h.joined = h₀.joined
  package : h.package = h₀.package
  requests : h.requests = (List.range n).map fun i =>
    ⟨i, funcId, h₀.package i, types i, 0, made P C funcId types i⟩
  threads : ∀ i < n, ∀ tid, made P C funcId types i = some tid → h.threads i = tid

namespace Asked

lemma start (hstart : h₀.requests = []) : Asked P C funcId types h₀ 0 h₀ where
  joined := rfl
  package := rfl
  requests := hstart
  threads i hi := absurd hi (Nat.not_lt_zero i)

lemma length (hn : Asked P C funcId types h₀ n h) : h.requests.length = n := by
  rw [hn.requests, List.length_map, List.length_range]

lemma isSome_iff (hn : Asked P C funcId types h₀ n h) :
    (createThread P C funcId type h n).isSome ↔ StopsWaiting P (C.meets n) C.rounds type := by
  rw [createThread, Option.isSome_map, hn.length]
  exact threadCreate_isSome_iff (C.attr_ne_null n)

lemma step (hn : Asked P C funcId types h₀ n h)
    (htype : types n = dynamicHw ∨ types n = softwareThread)
    (hrun : createThread P C funcId (types n) h n = some h') :
    Asked P C funcId types h₀ (n + 1) h' := by
  obtain ⟨o, hcall, rfl⟩ := Option.map_eq_some_iff.mp hrun
  rw [hn.length] at hcall
  have hmade : (if o.created.any (·.status = success) then some (C.id n) else none) =
      made P C funcId types n := by
    simp only [made, threadCreate_makes_iff hcall rfl htype]
  simp only [hn.length, hmade]
  exact {
    joined := hn.joined
    package := hn.package
    requests := by
      rw [List.range_succ, List.map_append, ← hn.requests, hn.package]
      rfl
    threads := fun i hi tid hid => by
      by_cases hin : i = n
      · subst hin
        simp only [hid, Option.elim_some, Function.update_self]
      · have hkept := hn.threads i (by omega) tid hid
        cases made P C funcId types n with
        | none => exact hkept
        | some last => simpa only [Option.elim_some, Function.update_of_ne hin] using hkept }

lemma loop (hstart : h₀.requests = []) (n : ℕ) (htypes : ∀ i < n, types i = dynamicHw) :
    (∀ h, (List.range n).foldlM (createThread P C funcId dynamicHw) h₀ = some h →
        Asked P C funcId types h₀ n h ∧ ∀ i < n, StopsWaiting P (C.meets i) C.rounds (types i)) ∧
      ((∀ i < n, StopsWaiting P (C.meets i) C.rounds (types i)) →
        ∃ h, (List.range n).foldlM (createThread P C funcId dynamicHw) h₀ = some h) := by
  induction n with
  | zero =>
    refine ⟨fun h hrun => ?_, fun _ => ⟨h₀, rfl⟩⟩
    cases hrun
    exact ⟨.start hstart, fun i hi => absurd hi (Nat.not_lt_zero i)⟩
  | succ n ih =>
    obtain ⟨ihasked, ihruns⟩ := ih fun i hi => htypes i (by omega)
    have htype := htypes n (Nat.lt_succ_self n)
    simp only [List.range_succ, List.foldlM_append, List.foldlM_cons, List.foldlM_nil, bind_pure,
      Option.bind_eq_bind, Option.bind_eq_some_iff]
    constructor
    · rintro h ⟨h₁, hrun, hlast⟩
      obtain ⟨hasked, hends⟩ := ihasked h₁ hrun
      rw [← htype] at hlast
      refine ⟨hasked.step (.inl htype) hlast, fun i hi => ?_⟩
      rcases Nat.lt_succ_iff_lt_or_eq.mp hi with hlt | rfl
      · exact hends i hlt
      · exact hasked.isSome_iff.mp (Option.isSome_iff_exists.mpr ⟨h, hlast⟩)
    · intro hends
      obtain ⟨h₁, hrun⟩ := ihruns fun i hi => hends i (by omega)
      have hasked := (ihasked h₁ hrun).1
      have hlast := hasked.isSome_iff.mpr (hends n (Nat.lt_succ_self n))
      rw [htype] at hlast
      obtain ⟨h₂, hlast⟩ := Option.isSome_iff_exists.mp hlast
      exact ⟨h₂, h₁, hrun, hlast⟩

end Asked

lemma foldl_joinThread (n : ℕ) :
    (List.range n).foldl joinThread h =
      { h with joined := h.joined ++ (List.range n).map h.threads } := by
  induction n with
  | zero => simp
  | succ n ih =>
    rw [List.range_succ, List.foldl_append, ih]
    simp [joinThread]

end Loops

def cut (size chunks : ℕ) : List Range :=
  (List.range chunks).map (fun i => ⟨size / chunks * i, size / chunks⟩) ++
    if size % chunks = 0 then [] else [⟨size / chunks * chunks, size % chunks⟩]

lemma cut_tiles {size chunks : ℕ} : Range.Tiles (cut size chunks) ⟨0, size⟩ := by
  have hwhole : size / chunks * chunks + size % chunks = size := by
    rw [Nat.mul_comm]
    exact Nat.div_add_mod size chunks
  rw [cut]
  split_ifs with hrem
  · rw [hrem, Nat.add_zero] at hwhole
    have htiles := Range.Tiles.equal (size / chunks) chunks
    rw [hwhole] at htiles
    rwa [List.append_nil]
  · have htiles := (Range.Tiles.equal (size / chunks) chunks).concat (size % chunks)
    rw [hwhole, Nat.zero_add] at htiles
    exact htiles

lemma length_cut (size chunks : ℕ) :
    (cut size chunks).length = chunks + if size % chunks = 0 then 0 else 1 := by
  rw [cut, List.length_append, List.length_map, List.length_range]
  split_ifs <;> rfl

def HostCall.Fresh (h : HostCall) : Prop := h.requests = [] ∧ h.joined = []

def packageOf (ptrs : List ℕ) (r : Range) : Package :=
  ⟨ptrs.map (· + r.start), BitVec.ofNat 32 r.size⟩

/-- The ranges of the packages cut the data up, one request is made with each package, and the
threads that are joined are those that the requests have made, one for each of them. -/
def Covers (ptrs : List ℕ) (size : Huint) (r : Option HostCall) : Prop :=
  ∃ h ranges, r = some h ∧ Range.Tiles ranges ⟨0, size.toNat⟩ ∧
    h.requests.map (·.package) = ranges.map (packageOf ptrs) ∧
    h.requests.map (·.thread) = h.joined.map some

section Runs

variable {size chunks : Huint} {ptrs : List ℕ} {h : HostCall}

lemma offset_eq {i : ℕ} (hi : i < chunks.toNat) :
    (size / chunks * BitVec.ofNat 32 i).toNat = size.toNat / chunks.toNat * i := by
  have hword : i % 2 ^ 32 = i := Nat.mod_eq_of_lt (hi.trans chunks.isLt)
  have hle : size.toNat / chunks.toNat * i ≤ size.toNat :=
    (Nat.mul_le_mul_left _ hi.le).trans (Nat.div_mul_le_self _ _)
  rw [BitVec.toNat_mul, BitVec.toNat_udiv, BitVec.toNat_ofNat, hword,
    Nat.mod_eq_of_lt (hle.trans_lt size.isLt)]

lemma chunkPackage_eq {i : ℕ} (hi : i < chunks.toNat) :
    (⟨ptrs.map (· + (size / chunks * BitVec.ofNat 32 i).toNat), size / chunks⟩ : Package) =
      packageOf ptrs ⟨size.toNat / chunks.toNat * i, size.toNat / chunks.toNat⟩ := by
  have hsize : BitVec.ofNat 32 (size.toNat / chunks.toNat) = size / chunks := by
    rw [← BitVec.toNat_udiv, BitVec.ofNat_toNat, BitVec.setWidth_eq]
  rw [packageOf, hsize, offset_eq hi]

lemma remainderPackage_eq :
    (⟨ptrs.map fun p => p + size.toNat - (size % chunks).toNat, size % chunks⟩ : Package) =
      packageOf ptrs ⟨size.toNat / chunks.toNat * chunks.toNat, size.toNat % chunks.toNat⟩ := by
  have hsize : BitVec.ofNat 32 (size.toNat % chunks.toNat) = size % chunks := by
    rw [← BitVec.toNat_umod, BitVec.ofNat_toNat, BitVec.setWidth_eq]
  have hwhole := Nat.div_add_mod size.toNat chunks.toNat
  rw [Nat.mul_comm] at hwhole
  rw [packageOf, hsize, BitVec.toNat_umod]
  have hshift : (fun p => p + size.toNat - size.toNat % chunks.toNat) =
      (· + size.toNat / chunks.toNat * chunks.toNat) := by
    funext p
    omega
  rw [hshift]

lemma toNat_remainder_eq_zero_iff : size.toNat % chunks.toNat = 0 ↔ size % chunks = 0 := by
  rw [← BitVec.toNat_umod]
  exact ⟨fun h => BitVec.eq_of_toNat_eq h, fun h => by rw [h]; rfl⟩

lemma extraThreadOf_ne_zero_iff :
    extraThreadOf size chunks ≠ 0 ↔ size.toNat % chunks.toNat ≠ 0 := by
  rw [extraThreadOf, ne_eq, ne_eq, toNat_remainder_eq_zero_iff]
  split_ifs with hrem
  · simp [hrem]
  · simpa using hrem

lemma fillPackages_spec (ptrs : List ℕ) (size chunks : Huint) (h : HostCall) :
    fillPackages ptrs chunks size h =
      { h with package := (fillPackages ptrs chunks size h).package } ∧
      (List.range (cut size.toNat chunks.toNat).length).map
        (fillPackages ptrs chunks size h).package =
        (cut size.toNat chunks.toNat).map (packageOf ptrs) := by
  have hchunk : ∀ i ∈ List.range chunks.toNat, (if i < chunks.toNat then
      ⟨ptrs.map (· + (size / chunks * BitVec.ofNat 32 i).toNat), size / chunks⟩ else h.package i) =
        packageOf ptrs ⟨size.toNat / chunks.toNat * i, size.toNat / chunks.toNat⟩ := fun i hi => by
    rw [if_pos (List.mem_range.mp hi), chunkPackage_eq (List.mem_range.mp hi)]
  by_cases hrem : size.toNat % chunks.toNat = 0
  · have hnone : ¬ extraThreadOf size chunks ≠ 0 := fun hx => extraThreadOf_ne_zero_iff.mp hx hrem
    rw [fillPackages, if_neg hnone, foldl_fillChunk]
    refine ⟨rfl, ?_⟩
    rw [length_cut, if_pos hrem, Nat.add_zero, cut, if_pos hrem, List.append_nil, List.map_map]
    exact List.map_congr_left hchunk
  · rw [fillPackages, if_pos (extraThreadOf_ne_zero_iff.mpr hrem), foldl_fillChunk, fillRemainder]
    refine ⟨rfl, ?_⟩
    dsimp only
    rw [length_cut, if_neg hrem, cut, if_neg hrem, List.map_append, List.range_succ,
      List.map_append, List.map_map, List.map_singleton, List.map_singleton, Function.update_self,
      remainderPackage_eq]
    refine congrArg (· ++ _) (List.map_congr_left fun i hi => ?_)
    rw [Function.update_of_ne (List.mem_range.mp hi).ne]
    exact hchunk i hi

lemma threadCount_eq : threadCount chunks size = (cut size.toNat chunks.toNat).length := by
  rw [length_cut, threadCount, extraThreadOf]
  by_cases hrem : size % chunks = 0
  · rw [if_pos hrem, if_pos (toNat_remainder_eq_zero_iff.mpr hrem)]
    rfl
  · rw [if_neg hrem, if_neg fun hnat => hrem (toNat_remainder_eq_zero_iff.mp hnat)]
    rfl

/-- The chunks go to the slaves, and what remains is for the host. -/
def typeOf (chunks : Huint) (i : ℕ) : Huint :=
  if i < chunks.toNat then dynamicHw else softwareThread

variable {P : Platform} {C : Creating} {funcId : Huint} {packageBytes : ℕ}

lemma createThreads_spec (size chunks : Huint) (hrequests : h.requests = []) :
    (∀ h', createThreads P C funcId chunks size h = some h' →
        Asked P C funcId (typeOf chunks) h (threadCount chunks size) h' ∧
          ∀ i < threadCount chunks size, StopsWaiting P (C.meets i) C.rounds (typeOf chunks i)) ∧
      ((∀ i < threadCount chunks size, StopsWaiting P (C.meets i) C.rounds (typeOf chunks i)) →
        ∃ h', createThreads P C funcId chunks size h = some h') := by
  have hslaves : ∀ i < chunks.toNat, typeOf chunks i = dynamicHw := fun i hi => if_pos hi
  obtain ⟨hasked, hruns⟩ := @Asked.loop P C funcId h (typeOf chunks) hrequests chunks.toNat hslaves
  have hsoftware : typeOf chunks chunks.toNat = softwareThread := if_neg (lt_irrefl _)
  rw [createThreads, threadCount]
  by_cases hrem : size % chunks = 0
  · have hnone : ¬ extraThreadOf size chunks ≠ 0 := by rw [extraThreadOf, if_pos hrem]; decide
    have hextra : (extraThreadOf size chunks).toNat = 0 := by rw [extraThreadOf, if_pos hrem]; rfl
    simp only [if_neg hnone, hextra, Nat.add_zero, Option.bind_eq_bind, Option.bind_fun_some]
    exact ⟨hasked, hruns⟩
  · have hone : extraThreadOf size chunks ≠ 0 := by rw [extraThreadOf, if_neg hrem]; decide
    have hextra : (extraThreadOf size chunks).toNat = 1 := by rw [extraThreadOf, if_neg hrem]; rfl
    simp only [if_pos hone, hextra, Option.bind_eq_bind, Option.bind_eq_some_iff]
    constructor
    · rintro h' ⟨h₁, hrun, hlast⟩
      obtain ⟨hloop, hends⟩ := hasked h₁ hrun
      rw [← hsoftware] at hlast
      refine ⟨hloop.step (.inr hsoftware) hlast, fun i hi => ?_⟩
      rcases Nat.lt_succ_iff_lt_or_eq.mp hi with hlt | rfl
      · exact hends i hlt
      · exact hloop.isSome_iff.mp (Option.isSome_iff_exists.mpr ⟨h', hlast⟩)
    · intro hends
      obtain ⟨h₁, hrun⟩ := hruns fun i hi => hends i (by omega)
      have hlast := (hasked h₁ hrun).1.isSome_iff.mpr (hends chunks.toNat (Nat.lt_succ_self _))
      rw [hsoftware] at hlast
      obtain ⟨h₂, hlast⟩ := Option.isSome_iff_exists.mp hlast
      exact ⟨h₂, h₁, hrun, hlast⟩

lemma hasRoom_iff {bytes : ℕ} (hbytes : bytes < 2 ^ 32) :
    HasRoom bytes (chunks + extraThreadOf size chunks) (threadCount chunks size) ↔
      bytes * threadCount chunks size < 2 ^ 32 := by
  have hroom : (BitVec.ofNat 32 bytes * (chunks + extraThreadOf size chunks)).toNat =
      bytes * threadCount chunks size % 2 ^ 32 := by
    rw [BitVec.toNat_mul, BitVec.toNat_add, BitVec.toNat_ofNat,
      Nat.mod_eq_of_lt hbytes, threadCount, Nat.mul_mod_mod]
  rw [HasRoom, hroom]
  constructor
  · exact fun hle => hle.trans_lt (Nat.mod_lt _ (by decide))
  · exact fun hlt => (Nat.mod_eq_of_lt hlt).ge

lemma hasRoom_all_iff (hbytes : packageBytes ≤ attrBytes) :
    (∀ bytes ∈ [packageBytes, attrBytes, wordBytes],
        HasRoom bytes (chunks + extraThreadOf size chunks) (threadCount chunks size)) ↔
      attrBytes * threadCount chunks size < 2 ^ 32 := by
  have hattr : attrBytes < 2 ^ 32 := by decide
  constructor
  · exact fun hall => (hasRoom_iff hattr).mp (hall attrBytes (by simp))
  · intro hlt bytes hmem
    have hle : bytes ≤ attrBytes := by
      have hword : wordBytes ≤ attrBytes := by decide
      simp only [List.mem_cons, List.not_mem_nil, or_false] at hmem
      rcases hmem with rfl | rfl | rfl
      · exact hbytes
      · exact le_rfl
      · exact hword
    exact (hasRoom_iff (hle.trans_lt hattr)).mpr ((Nat.mul_le_mul_right _ hle).trans_lt hlt)

def Served (P : Platform) (C : Creating) (funcId type : Huint) (i : ℕ) : Prop :=
  StopsWaiting P (C.meets i) C.rounds type ∧ Makes P (C.meets i) funcId type

/-- The chunks are not none, the largest array has room for its elements, and every request makes
its thread. -/
def Serves (P : Platform) (C : Creating) (funcId chunks size : Huint) : Prop :=
  chunks ≠ 0 ∧ attrBytes * threadCount chunks size < 2 ^ 32 ∧
    ∀ i < threadCount chunks size, Served P C funcId (typeOf chunks i) i

lemma made_eq_some_iff {types : ℕ → Huint} {i : ℕ} {tid : Huint} :
    made P C funcId types i = some tid ↔ Makes P (C.meets i) funcId (types i) ∧ C.id i = tid := by
  rw [made]
  split_ifs with hmakes <;> simp [hmakes]

lemma runChunks_eq_some (hbytes : packageBytes ≤ attrBytes) (hfresh : h.Fresh) {h' : HostCall}
    (hrun : runChunks P C funcId ptrs packageBytes chunks size h = some h') :
    chunks ≠ 0 ∧ attrBytes * threadCount chunks size < 2 ^ 32 ∧
      (∀ i < threadCount chunks size, StopsWaiting P (C.meets i) C.rounds (typeOf chunks i)) ∧
      h'.requests.map (·.package) = (cut size.toNat chunks.toNat).map (packageOf ptrs) ∧
      h'.requests.map (·.thread) =
        (List.range (threadCount chunks size)).map (made P C funcId (typeOf chunks)) ∧
      ∃ threads : ℕ → Huint, h'.joined = (List.range (threadCount chunks size)).map threads ∧
        ∀ i < threadCount chunks size, ∀ tid, made P C funcId (typeOf chunks) i = some tid →
          threads i = tid := by
  rw [runChunks] at hrun
  dsimp only at hrun
  split_ifs at hrun with hchunks hroom
  obtain ⟨hsame, hpackages⟩ := fillPackages_spec ptrs size chunks h
  have hrequests : (fillPackages ptrs chunks size h).requests = [] := by rw [hsame]; exact hfresh.1
  have hjoined : (fillPackages ptrs chunks size h).joined = [] := by rw [hsame]; exact hfresh.2
  obtain ⟨h₁, hcreate, rfl⟩ := Option.map_eq_some_iff.mp hrun
  obtain ⟨hasked, hends⟩ := (createThreads_spec size chunks hrequests).1 h₁ hcreate
  have hsmall := (hasRoom_all_iff hbytes).mp hroom
  have hcount : (chunks + extraThreadOf size chunks).toNat = threadCount chunks size := by
    rw [BitVec.toNat_add]
    refine Nat.mod_eq_of_lt (lt_of_le_of_lt ?_ hsmall)
    exact Nat.le_mul_of_pos_left _ (by decide)
  rw [foldl_joinThread, hcount]
  refine ⟨hchunks, hsmall, hends, ?_, ?_, h₁.threads, ?_, hasked.threads⟩
  · rw [← hpackages, ← threadCount_eq]
    simp only [hasked.requests, List.map_map]
    rfl
  · simp only [hasked.requests, List.map_map]
    rfl
  · simp only [hasked.joined, hjoined, List.nil_append]

lemma runChunks_exists (hbytes : packageBytes ≤ attrBytes) (hfresh : h.Fresh) (ptrs : List ℕ)
    (hserves : Serves P C funcId chunks size) :
    ∃ h', runChunks P C funcId ptrs packageBytes chunks size h = some h' := by
  obtain ⟨hchunks, hsmall, hserved⟩ := hserves
  have hrequests : (fillPackages ptrs chunks size h).requests = [] := by
    rw [(fillPackages_spec ptrs size chunks h).1]
    exact hfresh.1
  have hcreated : ∃ h₁,
      createThreads P C funcId chunks size (fillPackages ptrs chunks size h) = some h₁ :=
    (createThreads_spec size chunks hrequests).2 fun i hi => (hserved i hi).1
  obtain ⟨h₁, hcreate⟩ := hcreated
  rw [runChunks, if_neg hchunks]
  simp only [if_pos ((hasRoom_all_iff hbytes).mpr hsmall), hcreate]
  exact ⟨_, rfl⟩

lemma runChunks_covers_iff (hbytes : packageBytes ≤ attrBytes) (hfresh : h.Fresh) (ptrs : List ℕ) :
    Covers ptrs size (runChunks P C funcId ptrs packageBytes chunks size h) ↔
      Serves P C funcId chunks size := by
  constructor
  · rintro ⟨h', ranges, hrun, -, -, hthreads⟩
    obtain ⟨hchunks, hsmall, hends, -, hmade, -⟩ := runChunks_eq_some hbytes hfresh hrun
    refine ⟨hchunks, hsmall, fun i hi => ⟨hends i hi, ?_⟩⟩
    have hmem : made P C funcId (typeOf chunks) i ∈ h'.joined.map some := by
      rw [← hthreads, hmade]
      exact List.mem_map_of_mem (List.mem_range.mpr hi)
    obtain ⟨tid, -, htid⟩ := List.mem_map.mp hmem
    exact (made_eq_some_iff.mp htid.symm).1
  · intro hserves
    obtain ⟨h', hrun⟩ := runChunks_exists hbytes hfresh ptrs hserves
    obtain ⟨-, -, -, hpackages, hmade, threads, hjoined, hkept⟩ :=
      runChunks_eq_some hbytes hfresh hrun
    refine ⟨h', _, hrun, cut_tiles, hpackages, ?_⟩
    rw [hmade, hjoined, List.map_map]
    refine List.map_congr_left fun i hi => ?_
    have hlt := List.mem_range.mp hi
    have hid : made P C funcId (typeOf chunks) i = some (C.id i) :=
      made_eq_some_iff.mpr ⟨(hserves.2.2 i hlt).2, rfl⟩
    rw [Function.comp_apply, hkept i hlt _ hid, hid]

end Runs

section HostCalls

variable (P : Platform) (T : Tuning) (flag : ℕ → Huint) (C : Creating)

lemma Covers.map_merged {ptrs : List ℕ} {size : Huint} (r : Option HostCall)
    (merged : Option (Huint × Huint)) :
    Covers ptrs size (r.map fun h => { h with merged }) ↔ Covers ptrs size r := by
  constructor
  · rintro ⟨h, ranges, hrun, hcovers⟩
    obtain ⟨h', rfl, rfl⟩ := Option.map_eq_some_iff.mp hrun
    exact ⟨h', ranges, rfl, hcovers⟩
  · rintro ⟨h, ranges, rfl, hcovers⟩
    exact ⟨_, ranges, rfl, hcovers⟩

theorem hostCalls_cover_iff (size : Huint) (package : ℕ → Package) (threads : ℕ → Huint)
    (d : Tables) :
    (∀ aPtr bPtr cPtr, Covers [aPtr, bPtr, cPtr] size
        (vectorAddSwThread P T flag C aPtr bPtr cPtr size ⟨package, threads, d, [], [], none⟩) ↔
          Serves P C T.vectorAddThreadFuncId (hostChunks P T flag T.vector size) size) ∧
      (∀ listPtr, Covers [listPtr] size
        (crcSwThread P T flag C listPtr size ⟨package, threads, d, [], [], none⟩) ↔
          Serves P C T.crcThreadFuncId (hostChunks P T flag T.crc size) size) ∧
      ∀ listPtr, Covers [listPtr] size
        (sortSwThread P T flag C listPtr size ⟨package, threads, d, [], [], none⟩) ↔
          Serves P C T.sortThreadFuncId (hostChunks P T flag T.sort size) size := by
  have hvector : vectorBytes ≤ attrBytes := by decide
  have hlist : crcBytes ≤ attrBytes := by decide
  refine ⟨fun aPtr bPtr cPtr => ?_, fun listPtr => ?_, fun listPtr => ?_⟩
  · exact runChunks_covers_iff hvector ⟨rfl, rfl⟩ _
  · exact runChunks_covers_iff hlist ⟨rfl, rfl⟩ _
  · rw [sortSwThread, Covers.map_merged]
    exact runChunks_covers_iff hlist ⟨rfl, rfl⟩ _

-- the table wants four threads for every size
def fourThreads : Tuning := ⟨fun _ => 4, fun _ => 0, 1, 2, 0, 1, 0, 1, 2⟩

-- every call finds the slave free, and the kernel hands out the ids in order
def obligingCalls : Creating where
  threads _ := 0x2000
  attr _ := 0x3000
  package _ := 0x4000
  attr_ne_null _ := by decide
  meets _ := obliging
  id i := BitVec.ofNat 32 i
  rounds := 1

/-- While the only slave is busy, the size is divided by no chunks. -/
theorem crcSwThread_without_free_slave :
    let h : HostCall := ⟨fun _ => ⟨[], 0⟩, fun _ => 0, uninitialized, [], [], none⟩
    crcSwThread oneSlave fourThreads (fun _ => flagHwtiUtilized) obligingCalls 0 16 h = none ∧
      ¬ Covers [0] 16
        (crcSwThread oneSlave fourThreads (fun _ => flagHwtiUtilized) obligingCalls 0 16 h) := by
  intro h
  have hrun : crcSwThread oneSlave fourThreads (fun _ => flagHwtiUtilized) obligingCalls 0 16 h =
      none := rfl
  refine ⟨hrun, ?_⟩
  rw [hrun]
  rintro ⟨h, ranges, hsome, -⟩
  cases hsome

end HostCalls

end Hthreads.Accelerators
