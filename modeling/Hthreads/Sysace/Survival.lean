import Hthreads.Sysace.Faults
import Hthreads.Sysace.Transparency

/-! When the block cache survives its device: exactly as long as no transfer comes back short. -/

namespace Hthreads.Sysace

open Library Software

namespace Driver

variable {d e f : Driver} {size : ℕ} {block : Huint}

section Following

structure Follows (d e : Driver) : Prop where
  outcomes : e.outcomes = d.outcomes
  used : d.used ≤ e.used

lemma Follows.refl (d : Driver) : Follows d d := ⟨rfl, Nat.le_refl _⟩

lemma Follows.trans (hde : Follows d e) (hef : Follows e f) : Follows d f :=
  ⟨hef.outcomes.trans hde.outcomes, hde.used.trans hef.used⟩

lemma cacheload_used (d : Driver) (line : ℕ) (sector : Huint) :
    (d.cacheload line sector).2.used = d.used + 1 := by
  rw [cacheload]
  split <;> rfl

lemma cachestore_used (d : Driver) (line : ℕ) : (d.cachestore line).2.used = d.used + 1 := by
  rw [cachestore]
  split <;> rfl

lemma cacheload_follows (d : Driver) (line : ℕ) (sector : Huint) :
    Follows d (d.cacheload line sector).2 := by
  refine ⟨?_, (Nat.le_succ _).trans_eq (d.cacheload_used line sector).symm⟩
  rw [cacheload]
  split <;> rfl

lemma cachestore_follows (d : Driver) (line : ℕ) : Follows d (d.cachestore line).2 := by
  refine ⟨?_, (Nat.le_succ _).trans_eq (d.cachestore_used line).symm⟩
  rw [cachestore]
  split <;> rfl

lemma cachereplace_follows (d : Driver) : Follows d d.cachereplace.2 := by
  induction d using cachereplace.induct with
  | case1 d hcold =>
    rw [cachereplace, if_pos hcold]
    exact .refl d
  | case2 d best hwarm hchance ih =>
    rw [cachereplace, if_neg hwarm, dif_pos hchance]
    exact ⟨ih.outcomes, ih.used⟩
  | case3 d best hwarm hchance hdirty =>
    rw [cachereplace, if_neg hwarm, dif_neg hchance, if_pos hdirty]
    exact cachestore_follows d _
  | case4 d best hwarm hchance hclean =>
    rw [cachereplace, if_neg hwarm, dif_neg hchance, if_neg hclean]
    exact .refl d

lemma cacheread_follows (d : Driver) (block : Huint) : Follows d (d.cacheread block).2 :=
  d.cachereplace_follows.trans (cacheload_follows _ _ _)

lemma cacheread_used (d : Driver) (block : Huint) : d.used < (d.cacheread block).2.used :=
  (Nat.lt_succ_of_le d.cachereplace_follows.used).trans_eq (cacheload_used _ _ _).symm

lemma locate_used (d : Driver) {block : Huint} (hmiss : (d.ace.cachefind block).1 = none) :
    d.used < (d.locate block).2.used := by
  rw [locate]
  split
  next hfind =>
    rw [hfind] at hmiss
    cases hmiss
  next ace _ => exact cacheread_used { d with ace } block

lemma locate_follows (d : Driver) (block : Huint) : Follows d (d.locate block).2 := by
  rw [locate]
  split
  next => exact ⟨rfl, Nat.le_refl _⟩
  next ace _ =>
    have hread := cacheread_follows { d with ace } block
    exact ⟨hread.outcomes, hread.used⟩

end Following

section Results

lemma cacheload_nonneg (d : Driver) (line : ℕ) (sector : Huint) :
    0 ≤ (d.cacheload line sector).1 := by
  rw [cacheload]
  split
  · exact (by decide : (0 : ℤ) ≤ eio)
  · exact Int.natCast_nonneg line

lemma cachestore_nonneg (d : Driver) (line : ℕ) : 0 ≤ (d.cachestore line).1 := by
  rw [cachestore]
  split
  · exact (by decide : (0 : ℤ) ≤ eio)
  · exact Int.le_refl _

/-- A failed load answers the error number, which is taken for a line. -/
lemma locate_nonneg (d : Driver) (block : Huint) : 0 ≤ (d.locate block).1 := by
  rw [locate]
  split
  · exact Int.natCast_nonneg _
  · exact cacheload_nonneg _ _ _

lemma readLoop_succ (d : Driver) (block : Huint) (left : ℕ) :
    d.readLoop block (left + 1) =
      readLoop ((d.locate block).2.takeSector (d.locate block).1.toNat block) (block + 1) left :=
  if_neg (Int.not_lt.mpr (d.locate_nonneg block))

lemma writeLoop_succ (d : Driver) (block : Huint) (buffer : ℕ → Sector) (left : ℕ) :
    d.writeLoop block buffer (left + 1) =
      writeLoop ((d.locate block).2.putSector (d.locate block).1.toNat block (buffer 0)) (block + 1)
        (fun k => buffer (k + 1)) left :=
  if_neg (Int.not_lt.mpr (d.locate_nonneg block))

def flushLine (d : Driver) (i : ℕ) : Driver :=
  let d := if (d.ace.info i).dirty then (d.cachestore i).2 else d
  { d with ace := d.ace.setInfo i .empty }

lemma flushLoop_succ (d : Driver) (i left : ℕ) :
    d.flushLoop i (left + 1) = (d.flushLine i).flushLoop (i + 1) left := by
  rw [flushLoop, flushLine]
  by_cases hdirty : (d.ace.info i).dirty = true
  · simp only [if_pos hdirty, if_neg (Int.not_lt.mpr (d.cachestore_nonneg i))]
  · simp only [if_neg hdirty]
    rfl

lemma flushLine_follows (d : Driver) (i : ℕ) : Follows d (d.flushLine i) := by
  rw [flushLine]
  split
  · exact ⟨(d.cachestore_follows i).outcomes, (d.cachestore_follows i).used⟩
  · exact ⟨rfl, Nat.le_refl _⟩

lemma readLoop_result (d : Driver) (block : Huint) (left : ℕ) :
    (d.readLoop block left).1 = success ∧ Follows d (d.readLoop block left).2 := by
  induction left generalizing d block with
  | zero => exact ⟨rfl, .refl d⟩
  | succ left ih =>
    rw [readLoop_succ]
    obtain ⟨hres, hrest⟩ := ih ((d.locate block).2.takeSector _ block) (block + 1)
    exact ⟨hres, (d.locate_follows block).trans ⟨hrest.outcomes, hrest.used⟩⟩

lemma writeLoop_result (d : Driver) (block : Huint) (buffer : ℕ → Sector) (left : ℕ) :
    (d.writeLoop block buffer left).1 = success ∧ Follows d (d.writeLoop block buffer left).2 := by
  induction left generalizing d block buffer with
  | zero => exact ⟨rfl, .refl d⟩
  | succ left ih =>
    rw [writeLoop_succ]
    obtain ⟨hres, hrest⟩ := ih ((d.locate block).2.putSector _ block (buffer 0)) (block + 1)
      (fun k => buffer (k + 1))
    exact ⟨hres, (d.locate_follows block).trans ⟨hrest.outcomes, hrest.used⟩⟩

lemma flushLoop_result (d : Driver) (i left : ℕ) :
    (d.flushLoop i left).1 = success ∧ Follows d (d.flushLoop i left).2 := by
  induction left generalizing d i with
  | zero => exact ⟨rfl, rfl, Nat.le_refl _⟩
  | succ left ih =>
    rw [flushLoop_succ]
    obtain ⟨hres, hrest⟩ := ih (d.flushLine i) (i + 1)
    exact ⟨hres, (d.flushLine_follows i).trans hrest⟩

end Results

section Complete

def Complete (d e : Driver) : Prop :=
  ∀ k, d.used ≤ k → k < e.used → (d.outcomes k).short = false

lemma Complete.first (h : Complete d f) (hef : Follows e f) : Complete d e :=
  fun k hk hlt => h k hk (hlt.trans_le hef.used)

lemma Complete.rest (h : Complete d f) (hde : Follows d e) : Complete e f := by
  intro k hk hlt
  rw [hde.outcomes]
  exact h k (hde.used.trans hk) hlt

/-- Nothing is amiss: the cache stands for the contents, and no mark is set. -/
structure Sound (size : ℕ) (d : Driver) : Prop where
  represents : d.ace.Represents size d.contents
  locked : d.locked = false
  strayed : d.strayed = false
  misread : d.misread = false

lemma Sound.advance (h : d.Sound size) {ace : Ace} {used : ℕ}
    (hace : ace.Represents size d.contents) :
    Sound size { d with ace, used } := ⟨hace, h.locked, h.strayed, h.misread⟩

lemma Sound.marks (h : d.Sound size) {line : ℕ} (hline : line < d.ace.depth.toNat) :
    (d.strayed || decide (d.ace.depth.toNat ≤ line)) = d.strayed := by
  rw [h.strayed, Bool.false_or]
  exact decide_eq_false (Nat.not_le.mpr hline)

lemma Sound.cachestore (h : d.Sound size) {line : ℕ} (hline : line < d.ace.depth.toNat)
    (hcomplete : Complete d (d.cachestore line).2) :
    d.cachestore line = (success, { d with ace := d.ace.cachestore line, used := d.used + 1 }) := by
  have hwhole := hcomplete d.used (Nat.le_refl _)
    ((Nat.lt_succ_self _).trans_eq (d.cachestore_used line).symm)
  rw [Driver.cachestore, if_neg (Bool.eq_false_iff.mp hwhole), begin, h.marks hline, ← h.locked]

lemma Sound.cacheload (h : d.Sound size) {line : ℕ} (hline : line < d.ace.depth.toNat)
    {sector : Huint}
    (hcomplete : Complete d (d.cacheload line sector).2) :
    d.cacheload line sector =
      (↑line, { d with ace := d.ace.cacheload line sector, used := d.used + 1 }) := by
  have hwhole := hcomplete d.used (Nat.le_refl _)
    ((Nat.lt_succ_self _).trans_eq (d.cacheload_used line sector).symm)
  rw [Driver.cacheload, if_neg (Bool.eq_false_iff.mp hwhole), begin, h.marks hline, ← h.locked]

/-- By induction on the second chances that are left. -/
lemma Sound.cachereplace (h : d.Sound size) (hcomplete : Complete d d.cachereplace.2) :
    ∃ used, d.cachereplace =
      (d.ace.cachereplace.1, { d with ace := d.ace.cachereplace.2, used }) := by
  induction d using Driver.cachereplace.induct with
  | case1 d hcold =>
    rw [Driver.cachereplace, Ace.cachereplace, if_pos hcold, if_pos hcold]
    exact ⟨d.used, rfl⟩
  | case2 d best hwarm hchance ih =>
    rw [Driver.cachereplace, if_neg hwarm, dif_pos hchance] at hcomplete
    rw [Driver.cachereplace, Ace.cachereplace, if_neg hwarm, if_neg hwarm, dif_pos hchance,
      dif_pos hchance]
    exact ih (h.advance (h.represents.setInfo rfl rfl rfl)) hcomplete
  | case3 d best hwarm hchance hdirty =>
    have hline := d.ace.pick_lt_depth h.represents.geometry.depth_pos
    rw [Driver.cachereplace, if_neg hwarm, dif_neg hchance, if_pos hdirty] at hcomplete
    rw [Driver.cachereplace, Ace.cachereplace, if_neg hwarm, if_neg hwarm, dif_neg hchance,
      dif_neg hchance, if_pos hdirty, if_pos hdirty, h.cachestore hline hcomplete]
    exact ⟨d.used + 1, rfl⟩
  | case4 d best hwarm hchance hclean =>
    rw [Driver.cachereplace, Ace.cachereplace, if_neg hwarm, if_neg hwarm, dif_neg hchance,
      dif_neg hchance, if_neg hclean, if_neg hclean]
    exact ⟨d.used, rfl⟩

lemma Sound.cacheread (h : d.Sound size) (hcomplete : Complete d (d.cacheread block).2) :
    ∃ used, d.cacheread block =
      (↑(d.ace.cacheread block).1, { d with ace := (d.ace.cacheread block).2, used }) := by
  obtain ⟨used, hreplace⟩ := h.cachereplace (hcomplete.first (cacheload_follows _ _ _))
  have hreplaced := h.represents.cachereplace
  have hread : d.cacheread block = d.cachereplace.2.cacheload d.cachereplace.1
    (block - block % d.cachereplace.2.ace.lines) := rfl
  have hload := hcomplete.rest d.cachereplace_follows
  rw [hread, hreplace] at hload
  rw [hread, hreplace,
    Sound.cacheload (h.advance hreplaced.represents) hreplaced.line_lt hload]
  exact ⟨used + 1, rfl⟩

lemma Sound.locate (h : d.Sound size) (hcomplete : Complete d (d.locate block).2) :
    ∃ used, d.locate block =
      (↑(d.ace.locate block).1, { d with ace := (d.ace.locate block).2, used }) := by
  rw [Driver.locate] at hcomplete
  rw [Driver.locate, Ace.locate]
  rcases hfind : d.ace.cachefind block with ⟨found, ace⟩
  rw [hfind] at hcomplete
  cases found with
  | some line => exact ⟨d.used, rfl⟩
  | none =>
    obtain ⟨hrepresents, -⟩ := Ace.cachefind_none h.represents hfind
    have hread : Sound size { d with ace } := h.advance hrepresents
    exact hread.cacheread hcomplete

end Complete

section Loops

lemma Sound.takeSector (h : d.Sound size) {line : ℕ} (hwarm : d.ace.Warm line)
    (hcovers : d.ace.Covers line block) : Sound size (d.takeSector line block) where
  represents := (h.represents.reach hwarm.1 block).cachetouch line
  locked := h.locked
  strayed := (h.marks hwarm.1).trans h.strayed
  misread := by
    have heq := h.represents.contents_eq hwarm hcovers
    simp [Driver.takeSector, h.misread, heq]

lemma Sound.putSector (h : d.Sound size) {line : ℕ} (hwarm : d.ace.Warm line)
    (hcovers : d.ace.Covers line block) (data : Sector) :
    Sound size (d.putSector line block data) where
  represents := h.represents.writeSector hwarm hcovers
  locked := h.locked
  strayed := (h.marks hwarm.1).trans h.strayed
  misread := h.misread

lemma Sound.readLoop (h : d.Sound size) {left : ℕ} (hleft : block.toNat + left ≤ size)
    (hcomplete : Complete d (d.readLoop block left).2) : Sound size (d.readLoop block left).2 := by
  induction left generalizing d block with
  | zero => exact h
  | succ left ih =>
    have hblock : block.toNat < size := by omega
    obtain ⟨hlocated, hwarm, hcovers⟩ := h.represents.locate hblock
    rw [readLoop_succ] at hcomplete ⊢
    have hrest := (readLoop_result ((d.locate block).2.takeSector (d.locate block).1.toNat block)
      (block + 1) left).2
    obtain ⟨used, hlocate⟩ := h.locate (hcomplete.first ⟨hrest.outcomes, hrest.used⟩)
    have hloop := hcomplete.rest (d.locate_follows block)
    rw [hlocate] at hloop ⊢
    have hsound : Sound size { d with ace := (d.ace.locate block).2, used } := h.advance hlocated
    exact ih (hsound.takeSector hwarm hcovers) (Ace.add_one_toNat hleft) hloop

lemma Sound.writeLoop (h : d.Sound size) {left : ℕ} (hleft : block.toNat + left ≤ size)
    {buffer : ℕ → Sector} (hcomplete : Complete d (d.writeLoop block buffer left).2) :
    Sound size (d.writeLoop block buffer left).2 := by
  induction left generalizing d block buffer with
  | zero => exact h
  | succ left ih =>
    have hblock : block.toNat < size := by omega
    obtain ⟨hlocated, hwarm, hcovers⟩ := h.represents.locate hblock
    rw [writeLoop_succ] at hcomplete ⊢
    have hrest := (writeLoop_result ((d.locate block).2.putSector (d.locate block).1.toNat block
      (buffer 0)) (block + 1) (fun k => buffer (k + 1)) left).2
    obtain ⟨used, hlocate⟩ := h.locate (hcomplete.first ⟨hrest.outcomes, hrest.used⟩)
    have hloop := hcomplete.rest (d.locate_follows block)
    rw [hlocate] at hloop ⊢
    have hsound : Sound size { d with ace := (d.ace.locate block).2, used } := h.advance hlocated
    exact ih (hsound.putSector hwarm hcovers (buffer 0)) (Ace.add_one_toNat hleft) hloop

lemma Sound.flushLine (h : d.Sound size) {i : ℕ} (hi : i < d.ace.depth.toNat)
    (hcomplete : Complete d (d.flushLine i)) :
    Sound size (d.flushLine i) ∧ (d.flushLine i).ace.depth = d.ace.depth := by
  have hflushed : (d.ace.flushLine i).Represents size d.contents := h.represents.flushLine hi
  rw [Ace.flushLine] at hflushed
  rw [Driver.flushLine] at hcomplete ⊢
  by_cases hdirty : (d.ace.info i).dirty = true
  · rw [if_pos hdirty] at hcomplete hflushed ⊢
    have hstore : Complete d (d.cachestore i).2 := hcomplete
    rw [h.cachestore hi hstore]
    exact ⟨h.advance hflushed, rfl⟩
  · rw [if_neg hdirty] at hflushed ⊢
    exact ⟨h.advance hflushed, rfl⟩

lemma Sound.flushLoop (h : d.Sound size) {i left : ℕ} (hleft : i + left = d.ace.depth.toNat)
    (hcomplete : Complete d (d.flushLoop i left).2) : Sound size (d.flushLoop i left).2 := by
  induction left generalizing d i with
  | zero =>
    exact h.advance (h.represents.congr (h.represents.fits.congr rfl rfl rfl rfl) rfl rfl rfl
      (fun _ => rfl) (fun _ => rfl) (fun _ => rfl) rfl rfl)
  | succ left ih =>
    rw [flushLoop_succ] at hcomplete ⊢
    obtain ⟨hline, hdepth⟩ :=
      h.flushLine (by omega) (hcomplete.first ((d.flushLine i).flushLoop_result (i + 1) left).2)
    exact ih hline (by rw [hdepth]; omega) (hcomplete.rest (d.flushLine_follows i))

end Loops

end Driver

open Driver

variable {d e f : Driver} {size : ℕ}

lemma Call.perform_result (c : Call) (d : Driver) :
    (c.perform d).1 = success ∧ Follows d (c.perform d).2 := by
  cases c with
  | read start num => exact d.readLoop_result start _
  | write start num buffer => exact d.writeLoop_result start buffer _
  | flush => exact d.flushLoop_result 0 _

lemma callAll_follows (d : Driver) (calls : List Call) : Follows d (callAll d calls) := by
  induction calls generalizing d with
  | nil => exact .refl d
  | cons c rest ih => exact (c.perform_result d).2.trans (ih _)

lemma Driver.Sound.perform (h : d.Sound size) {c : Call} (hc : c.Allowed size)
    (hcomplete : Complete d (c.perform d).2) : Sound size (c.perform d).2 := by
  cases c with
  | read start num =>
    have hrounds := Ace.rounds_eq h.represents.size_lt hc
    exact h.readLoop (hrounds ▸ hc) hcomplete
  | write start num buffer =>
    have hrounds := Ace.rounds_eq h.represents.size_lt hc
    exact h.writeLoop (hrounds ▸ hc) hcomplete
  | flush => exact h.flushLoop (Nat.zero_add _) hcomplete

lemma survives_of_complete {c : Call} (hcomplete : Complete d (c.perform d).2)
    (h : Sound size (c.perform d).2) : Survives size d (c.perform d) where
  error := by
    rintro ⟨k, hk, hlt, hshort⟩
    rw [hcomplete k hk hlt] at hshort
    cases hshort
  inRange := h.strayed
  released := h.locked
  kept t ht hne := by
    obtain ⟨i, hwarm, hdirty, hcovers⟩ := h.represents.dirty_of_ne ht hne
    exact ⟨i, hwarm, hdirty, hcovers, (h.represents.contents_eq hwarm hcovers).symm⟩
  right := h.misread

/-- By induction on the calls: a short transfer is not reported, and nothing goes wrong without
one. -/
lemma survivesAll_iff_complete (h : d.Sound size) {calls : List Call}
    (hallowed : ∀ c ∈ calls, c.Allowed size) :
    SurvivesAll size d calls ↔ Complete d (callAll d calls) := by
  induction calls generalizing d with
  | nil => exact ⟨fun _ k hk hlt => absurd hk (Nat.not_le.mpr hlt), fun _ => trivial⟩
  | cons c rest ih =>
    obtain ⟨hres, hfollows⟩ := c.perform_result d
    have hrest := callAll_follows (c.perform d).2 rest
    have hallowed' : ∀ c ∈ rest, c.Allowed size :=
      fun c hc => hallowed c (List.mem_cons_of_mem _ hc)
    constructor
    · rintro ⟨hfirst, hall⟩
      have hcomplete : Complete d (c.perform d).2 := by
        intro k hk hlt
        by_contra hshort
        have hneg := hfirst.error ⟨k, hk, hlt, Bool.eq_true_of_not_eq_false hshort⟩
        rw [hres] at hneg
        exact absurd hneg (Int.lt_irrefl _)
      have hsound := h.perform (hallowed c List.mem_cons_self) hcomplete
      intro k hk hlt
      rcases Nat.lt_or_ge k (c.perform d).2.used with hlt' | hge
      · exact hcomplete k hk hlt'
      · rw [← hfollows.outcomes]
        exact (ih hsound hallowed').mp hall k hge hlt
    · intro hcomplete
      have hfirst := hcomplete.first hrest
      have hsound := h.perform (hallowed c List.mem_cons_self) hfirst
      exact ⟨survives_of_complete hfirst hsound,
        (ih hsound hallowed').mpr (hcomplete.rest hfollows)⟩

/-- The block cache survives a run of calls exactly when none of the transfers that they make comes
back short: a short one is reported as a success. -/
theorem block_cache_survives_iff_no_short_transfer (size : Huint) (device : Huint → Sector)
    (memory : ℕ → Sector) (outcomes : ℕ → Outcome) {lines depth : Huint}
    (hgeometry : Ace.Geometry size.toNat lines depth) (hsized : Sized lines depth)
      {calls : List Call}
    (hallowed : ∀ c ∈ calls, c.Allowed size.toNat) :
    SurvivesAll size.toNat (create device lines depth memory outcomes) calls ↔
      ∀ k < (callAll (create device lines depth memory outcomes) calls).used,
        (outcomes k).short = false := by
  have hcreate : Sound size.toNat (create device lines depth memory outcomes) :=
    ⟨Ace.represents_create device hgeometry hsized size.isLt memory, rfl, rfl, rfl⟩
  rw [survivesAll_iff_complete hcreate hallowed]
  exact ⟨fun h k hk => h k (Nat.zero_le _) hk, fun h k _ hk => h k hk⟩

-- a write, a read that misses and a flush over eight sectors, all transfers complete
theorem block_cache_survives_complete_transfers :
    SurvivesAll 8 (create (fun _ _ => 0) 2 2 (fun _ _ => 0) fun _ => ⟨false, 0⟩)
      [.write 0 1 (fun _ _ => 7), .read 2 1, .flush] := by
  have hgeometry : Ace.Geometry (8 : Huint).toNat 2 2 :=
    ⟨by decide, by decide, by decide, by decide⟩
  have hsized : Sized 2 2 := (by decide : 2 * 2 * 512 < 2 ^ 32)
  refine (block_cache_survives_iff_no_short_transfer 8 _ _ _ hgeometry hsized fun c hc => ?_).mpr
    fun _ _ => rfl
  fin_cases hc
  · exact (by decide : 0 + 1 ≤ 8)
  · exact (by decide : 2 + 1 ≤ 8)
  · trivial

/-- The first transfer comes back without a byte: the read reports success, takes the error number
for a line and leaves the controller locked. -/
theorem short_read_reports_success :
    ¬ SurvivesAll 8 (create (fun _ _ => 0) 2 2 (fun _ _ => 0) fun _ => ⟨true, 0⟩) [.read 0 1] := by
  rintro ⟨hfirst, -⟩
  let start := create (fun _ _ => 0) 2 2 (fun _ _ => 0) fun _ => ⟨true, 0⟩
  have hloop : (Call.read 0 1).perform start =
      readLoop ((start.locate 0).2.takeSector (start.locate 0).1.toNat 0) 1 0 :=
    start.readLoop_succ 0 0
  -- no line is warm yet, so the block is read in
  have hmiss : (start.ace.cachefind 0).1 = none := by decide
  have hread : 0 < (start.locate 0).2.used := start.locate_used hmiss
  have hneg := hfirst.error ⟨0, Nat.le_refl 0, hloop ▸ hread, rfl⟩
  rw [((Call.read 0 1).perform_result _).1] at hneg
  exact absurd hneg (Int.lt_irrefl 0)

end Hthreads.Sysace
