import Hthreads.Sysace.Transfers

/-! Whole runs of requests to the block device: the cache cannot be told from the plain device. -/

namespace Hthreads.Sysace

open Library Software

inductive Request
  | read (start num : Huint)
  | write (start num : Huint) (buffer : ℕ → Sector)
  | flush
  | resize (lines depth : Huint) (memory : ℕ → Sector)

namespace Request

-- what the request asks of a device of this size
def Allowed (size : ℕ) : Request → Prop
  | read start num | write start num _ => start.toNat + num.toNat ≤ size
  | flush => True
  | resize lines depth _ => Ace.Geometry size lines depth

/-- The size of a new cache is below the 32-bit limit. -/
def Sized : Request → Prop
  | resize lines depth _ => Sysace.Sized lines depth
  | read _ _ | write _ _ _ | flush => True

def perform (ace : Ace) : Request → List Sector × Ace
  | read start num => ace.read start num
  | write start num buffer => ([], ace.write start num buffer)
  | flush => ([], ace.cacheflush)
  | resize lines depth memory => ([], ace.cachesize lines depth memory)

def answer (contents : Huint → Sector) : Request → List Sector
  | read start num => sectorsFrom contents start num.toNat
  | _ => []

def effect (contents : Huint → Sector) : Request → Huint → Sector
  | write start num buffer => overwrite contents start buffer num.toNat
  | _ => contents

def WritesBack : Request → Prop
  | flush | resize _ _ _ => True
  | read _ _ | write _ _ _ => False

end Request

def performAll (ace : Ace) : List Request → List (List Sector) × Ace
  | [] => ([], ace)
  | r :: rest =>
    ((r.perform ace).1 :: (performAll (r.perform ace).2 rest).1,
      (performAll (r.perform ace).2 rest).2)

def answers (contents : Huint → Sector) : List Request → List (List Sector)
  | [] => []
  | r :: rest => r.answer contents :: answers (r.effect contents) rest

def effects (contents : Huint → Sector) (requests : List Request) : Huint → Sector :=
  requests.foldl Request.effect contents

namespace Ace

variable {ace : Ace} {size : ℕ} {contents : Huint → Sector}

lemma represents_of_empty (hgeometry : Geometry size ace.lines ace.depth) (hfits : ace.Fits)
    (hsize : size < 2 ^ 32) (hallocated : ace.allocated = true) (hinfo : ∀ i, ace.info i = .empty)
    (hdevice : ∀ s, s.toNat < size → contents s = ace.device s) : ace.Represents size contents := by
  have hcold (i : ℕ) : ¬ ace.Warm i := fun hi => by
    rw [Warm, hinfo] at hi
    cases hi.2
  exact {
    geometry := hgeometry
    fits := hfits
    size_lt := hsize
    allocated := hallocated
    aligned := fun i hi => absurd hi (hcold i)
    inside := fun i hi => absurd hi (hcold i)
    warm_of_dirty := fun i _ hdirty => by
      rw [hinfo] at hdirty
      cases hdirty
    apart := fun i j hi => absurd hi (hcold i)
    clean := fun i hi => absurd hi (hcold i)
    cached := fun i hi => absurd hi (hcold i)
    uncached := fun s hs _ => hdevice s hs }

lemma Represents.cachesize (h : ace.Represents size contents) {lines depth : Huint}
    (hgeometry : Geometry size lines depth) (hsized : Sized lines depth) (memory : ℕ → Sector) :
    (ace.cachesize lines depth memory).Represents size contents ∧
      ∀ s, s.toNat < size → (ace.cachesize lines depth memory).device s = contents s := by
  obtain ⟨hflushed, hdevice⟩ := h.cacheflush
  have hpos : 0 < lines ∧ 0 < depth := ⟨hgeometry.lines_pos, hgeometry.depth_pos⟩
  rw [Ace.cachesize]
  simp only [h.allocated, if_true, if_pos hpos]
  refine ⟨?_, hdevice⟩
  exact represents_of_empty hgeometry
    (fits_allot hgeometry.lines_pos hsized hflushed.fits.overrun memory) h.size_lt rfl
    (fun _ => rfl) fun s hs => (hdevice s hs).symm

lemma represents_create (device : Huint → Sector) {lines depth : Huint}
    (hgeometry : Geometry size lines depth) (hsized : Sized lines depth) (hsize : size < 2 ^ 32)
    (memory : ℕ → Sector) : (create device lines depth memory).Represents size device := by
  rw [create_eq device hgeometry.lines_pos hgeometry.depth_pos]
  exact represents_of_empty hgeometry (fits_allot hgeometry.lines_pos hsized rfl memory) hsize rfl
    (fun _ => rfl) fun _ _ => rfl

lemma Represents.dirty_of_ne (h : ace.Represents size contents) {s : Huint} (hs : s.toNat < size)
    (hne : contents s ≠ ace.device s) :
    ∃ i, ace.Warm i ∧ (ace.info i).dirty = true ∧ ace.Covers i s := by
  by_contra hnone
  refine hne (h.uncached s hs fun i hi hcovers => ?_)
  have hclean : (ace.info i).dirty = false := by
    by_contra hdirty
    exact hnone ⟨i, hi, Bool.eq_true_of_not_eq_false hdirty, hcovers⟩
  refine hne ?_
  rw [h.contents_eq hi hcovers, h.offset_eq hi hcovers, h.clean i hi hclean _ hcovers,
    add_ofNat_sub]

lemma Represents.perform (h : ace.Represents size contents) {r : Request} (hr : r.Allowed size)
    (hsized : r.Sized) :
    (r.perform ace).1 = r.answer contents ∧
      (r.perform ace).2.Represents size (r.effect contents) ∧
      (r.WritesBack → ∀ s, s.toNat < size → (r.perform ace).2.device s = r.effect contents s) := by
  cases r with
  | read start num =>
    have hrounds := rounds_eq h.size_lt hr
    have hrange : start.toNat + rounds start num ≤ size := hrounds ▸ hr
    rw [Request.answer, ← hrounds]
    exact ⟨(h.readLoop hrange).1, (h.readLoop hrange).2, False.elim⟩
  | write start num buffer =>
    have hrounds := rounds_eq h.size_lt hr
    have hrange : start.toNat + rounds start num ≤ size := hrounds ▸ hr
    refine ⟨rfl, ?_, False.elim⟩
    rw [Request.effect, ← hrounds]
    exact h.writeLoop hrange
  | flush => exact ⟨rfl, h.cacheflush.1, fun _ => h.cacheflush.2⟩
  | resize lines depth memory =>
    have hresized := h.cachesize hr hsized memory
    exact ⟨rfl, hresized.1, fun _ => hresized.2⟩

/-- By induction on the run, the cache stands for what a plain device would have become. -/
lemma Represents.performAll (h : ace.Represents size contents) {requests : List Request}
    (hallowed : ∀ r ∈ requests, r.Allowed size) (hsized : ∀ r ∈ requests, r.Sized) :
    (performAll ace requests).1 = answers contents requests ∧
      (performAll ace requests).2.Represents size (effects contents requests) ∧
      ∀ r, requests.getLast? = some r → r.WritesBack → ∀ s, s.toNat < size →
        (performAll ace requests).2.device s = effects contents requests s := by
  induction requests generalizing ace contents with
  | nil => exact ⟨rfl, h, fun r hr => by cases hr⟩
  | cons r rest ih =>
    obtain ⟨hanswer, hrepresents, hback⟩ :=
      h.perform (hallowed r List.mem_cons_self) (hsized r List.mem_cons_self)
    obtain ⟨hanswers, hafter, hlast⟩ :=
      ih hrepresents (fun r' hr' => hallowed r' (List.mem_cons_of_mem _ hr'))
        fun r' hr' => hsized r' (List.mem_cons_of_mem _ hr')
    refine ⟨congrArg₂ List.cons hanswer hanswers, hafter, ?_⟩
    cases rest with
    | nil =>
      intro r' hr'
      cases hr'
      exact hback
    | cons r' rest =>
      intro r'' hr''
      rw [List.getLast?_cons_cons] at hr''
      exact hlast r'' hr''

end Ace

/-- What a caller and the device may see of the cache after the requests, and that the driver has
only used the memory that it has allocated. -/
structure Transparent (size : ℕ) (device : Huint → Sector) (requests : List Request)
    (result : List (List Sector) × Ace) : Prop where
  answers : result.1 = answers device requests
  apart : ∀ i j, result.2.Warm i → result.2.Warm j → i ≠ j →
    ∀ s, ¬ (result.2.Covers i s ∧ result.2.Covers j s)
  dirty : ∀ s, s.toNat < size → effects device requests s ≠ result.2.device s →
    ∃ i, result.2.Warm i ∧ (result.2.info i).dirty = true ∧ result.2.Covers i s
  writtenBack : ∀ r, requests.getLast? = some r → r.WritesBack → ∀ s, s.toNat < size →
    result.2.device s = effects device requests s
  inside : result.2.overrun = false

/-- The block cache is transparent as long as the sizes of its geometries stay below the 32-bit
limit: whatever the order of the requests, reads see the last writes, lines do not overlap,
unwritten data is marked, and a flush or a resize leaves everything on the device. -/
theorem block_cache_transparent (size : Huint) (device : Huint → Sector) (memory : ℕ → Sector)
    {lines depth : Huint} (hgeometry : Ace.Geometry size.toNat lines depth)
    (hsized : Sized lines depth) {requests : List Request}
    (hallowed : ∀ r ∈ requests, r.Allowed size.toNat) (hsizes : ∀ r ∈ requests, r.Sized) :
    Transparent size.toNat device requests
      (performAll (Ace.create device lines depth memory) requests) := by
  have hcreate := Ace.represents_create device hgeometry hsized size.isLt memory
  obtain ⟨hanswers, hrepresents, hlast⟩ := hcreate.performAll hallowed hsizes
  refine ⟨hanswers, fun i j hi hj hne s hs => ?_, fun s hs hne => ?_, hlast,
    hrepresents.fits.overrun⟩
  · exact hne (hrepresents.eq_of_covers hi hj hs.1 hs.2)
  · exact hrepresents.dirty_of_ne hs hne

-- two lines of two sectors in front of eight; the third block evicts the first
theorem block_cache_transparent_for_eight_sectors :
    Transparent 8 (fun _ _ => 0)
      [.write 0 1 (fun _ _ => 7), .read 2 1, .read 4 1, .read 0 1, .flush]
      (performAll (Ace.create (fun _ _ => 0) 2 2 (fun _ _ => 0))
        [.write 0 1 (fun _ _ => 7), .read 2 1, .read 4 1, .read 0 1, .flush]) := by
  have hgeometry : Ace.Geometry (8 : Huint).toNat 2 2 :=
    ⟨by decide, by decide, by decide, by decide⟩
  have hsized : Sized 2 2 := (by decide : 2 * 2 * 512 < 2 ^ 32)
  refine block_cache_transparent 8 _ _ hgeometry hsized (fun r hr => ?_) fun r hr => ?_
  · fin_cases hr
    · exact (by decide : 0 + 1 ≤ 8)
    · exact (by decide : 2 + 1 ≤ 8)
    · exact (by decide : 4 + 1 ≤ 8)
    · exact (by decide : 0 + 1 ≤ 8)
    · trivial
  · fin_cases hr <;> trivial

namespace Ace

/-- A block that is looked for in a cache without a warm line goes to line 0. -/
lemma locate_of_cold {ace : Ace} (hcold : ∀ i, (ace.info i).cold = true)
    (hdepth : 0 < ace.depth.toNat) (block : Huint) :
    ace.locate block =
      (0, cacheload { ace with miss := ace.miss + 1 } 0 (block - block % ace.lines)) := by
  have hnone : (List.range ace.depth.toNat).find? (ace.holds block) = none :=
    List.find?_eq_none.mpr fun i _ => by simp [holds, hcold]
  obtain ⟨left, hleft⟩ := Nat.exists_eq_succ_of_ne_zero hdepth.ne'
  have hpick : pick { ace with miss := ace.miss + 1 } 0 0 ace.depth.toNat = (0, true) := by
    rw [hleft, pick, if_pos (hcold 0)]
  have hreplace : cachereplace { ace with miss := ace.miss + 1 } =
      (0, { ace with miss := ace.miss + 1 }) := by
    rw [cachereplace, hpick, if_pos rfl]
  rw [locate, cachefind, hnone]
  dsimp only
  rw [cacheread, hreplace]

lemma overrun_of_first_line {device : Huint → Sector} {lines depth : Huint} {memory : ℕ → Sector}
    (hlines : 0 < lines) (hdepth : 0 < depth) (block : Huint)
    (hshort : (lines * depth * BitVec.ofNat 32 dataSector).toNat <
      (lines * BitVec.ofNat 32 dataSector).toNat) :
    ((create device lines depth memory).locate block).2.overrun = true := by
  have hstart (ace : Ace) : (ace.index 0 0).toNat = 0 := by simp [index]
  have hdepth' : 0 < ((fresh device memory).allot lines depth memory).depth.toNat := hdepth
  rw [create_eq device hlines hdepth, locate_of_cold (fun _ => rfl) hdepth']
  simp only [cacheload, reach, hstart, lineBytes, allot, Nat.zero_add, hshort, decide_true,
    Bool.or_true]

lemma read_first (ace : Ace) : (performAll ace [.read 0 1]).2 =
    ((ace.locate 0).2.reach (ace.locate 0).1 ((ace.locate 0).2.offset 0) dataSector).cachetouch
      (ace.locate 0).1 := by
  have hone : rounds 0 1 = 1 := by decide
  rw [performAll, performAll, Request.perform, read, hone]
  rfl

end Ace

/-- With 255 sectors a line and 32897 lines, the product is 65024 bytes in 32 bits, and the first
line that is loaded has 130560. -/
theorem block_cache_overrun_of_large_depth :
    Ace.Geometry (255 : Huint).toNat 255 32897 ∧ (Request.read 0 1).Allowed (255 : Huint).toNat ∧
      ∀ device memory, ¬ Transparent (255 : Huint).toNat device [.read 0 1]
        (performAll (Ace.create device 255 32897 memory) [.read 0 1]) := by
  refine ⟨⟨by decide, by decide, by decide, by decide⟩, (by decide : 0 + 1 ≤ 255),
    fun device memory h => ?_⟩
  have hover : ((Ace.create device 255 32897 memory).locate 0).2.overrun = true :=
    Ace.overrun_of_first_line (by decide) (by decide) 0 (by decide)
  have hinside := h.inside
  rw [Ace.read_first, Ace.cachetouch_overrun, Ace.reach, hover] at hinside
  cases hinside

end Hthreads.Sysace
