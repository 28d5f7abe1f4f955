import Hthreads.Library.Recency
import Hthreads.Sysace.Faults
import Hthreads.Sysace.Transparency

/-! The ranks of the cache lines: they are the positions of the lines in the order of their last
accesses, and the line that is replaced is a cold one or the one at the end. -/

namespace Hthreads.Sysace

open Library Software

/-- The cache with the lines that have been accessed since it was last flushed, newest first. -/
structure Journal where
  ace : Ace
  log : List ℕ

-- one round of a loop, or a flush
inductive Round
  | read (block : Huint)
  | write (block : Huint) (data : Sector)
  | flush

namespace Journal

def step (j : Journal) : Round → Journal
  | .read block =>
    let (line, ace) := j.ace.locate block
    ⟨(ace.reach line (ace.offset block) dataSector).cachetouch line, line :: j.log⟩
  | .write block data =>
    let (line, ace) := j.ace.locate block
    ⟨ace.writeSector line block data, line :: j.log⟩
  | .flush => ⟨j.ace.cacheflush, []⟩

def run (j : Journal) (rounds : List Round) : Journal := rounds.foldl step j

end Journal

namespace Ace

variable {ace : Ace} {log : List ℕ} {line i : ℕ}

structure Ranked (log : List ℕ) (ace : Ace) : Prop where
  warm : ∀ i, ace.Warm i ↔ i ∈ log
  rank : ∀ i ∈ log, (ace.info i).lru.toNat = (recent log).idxOf i
  cold : ∀ i < ace.depth.toNat, (ace.info i).cold = true →
    (ace.info i).lru = 0xFFFFFFFF ∧ (ace.info i).dirty = false

/-- A line has been found or read in, and has not been touched yet. -/
structure Taken (log : List ℕ) (line : ℕ) (ace : Ace) : Prop where
  warm : ∀ i, ace.Warm i ↔ i = line ∨ i ∈ log
  rank : ∀ i ∈ log, (ace.info i).lru.toNat = (recent log).idxOf i
  fresh : line ∉ log → (ace.info line).lru = 0xFFFFFFFF
  cold : ∀ i < ace.depth.toNat, (ace.info i).cold = true →
    (ace.info i).lru = 0xFFFFFFFF ∧ (ace.info i).dirty = false

/-- What the choice of a line to replace goes by. -/
structure SameRanks (ace ace' : Ace) : Prop where
  depth : ace'.depth = ace.depth
  lru : ∀ i, (ace'.info i).lru = (ace.info i).lru
  cold : ∀ i, (ace'.info i).cold = (ace.info i).cold

lemma SameRanks.refl (ace : Ace) : SameRanks ace ace := ⟨rfl, fun _ => rfl, fun _ => rfl⟩

lemma SameRanks.trans {a b c : Ace} (hab : SameRanks a b) (hbc : SameRanks b c) : SameRanks a c :=
  ⟨hbc.depth.trans hab.depth, fun i => (hbc.lru i).trans (hab.lru i),
    fun i => (hbc.cold i).trans (hab.cold i)⟩

lemma SameRanks.warm {a b : Ace} (h : SameRanks a b) (i : ℕ) : b.Warm i ↔ a.Warm i := by
  rw [Warm, Warm, h.depth, h.cold]

lemma sameRanks_cachestore (ace : Ace) (line : ℕ) : SameRanks ace (ace.cachestore line) := by
  refine ⟨rfl, fun i => ?_, cachestore_cold line⟩
  by_cases hi : i = line
  · subst hi
    simp [cachestore]
  · simp [cachestore, hi]

lemma sameRanks_giveSecond (ace : Ace) (line : ℕ) : SameRanks ace (ace.giveSecond line) := by
  refine ⟨rfl, fun i => ?_, fun i => (giveSecond_info line i).2⟩
  by_cases hi : i = line
  · subst hi
    simp [giveSecond, setInfo]
  · simp [giveSecond, setInfo, hi]

section Choosing

/-- A search that finds no cold line ends with the largest rank. -/
lemma pick_largest {best left : ℕ} (h : (ace.pick best i left).2 = false) :
    (ace.info best).lru ≤ (ace.info (ace.pick best i left).1).lru ∧
      ∀ k, i ≤ k → k < i + left → (ace.info k).cold = false ∧
        (ace.info k).lru ≤ (ace.info (ace.pick best i left).1).lru := by
  induction left generalizing best i with
  | zero => exact ⟨BitVec.le_refl _, fun k hk hk' => absurd hk' (by omega)⟩
  | succ left ih =>
    rw [Ace.pick] at h ⊢
    split_ifs at h ⊢ with hcold hlarger
    · obtain ⟨hbest, hrest⟩ := ih h
      refine ⟨BitVec.le_trans (BitVec.le_of_lt hlarger) hbest, fun k hk hk' => ?_⟩
      rcases Nat.eq_or_lt_of_le hk with rfl | hlt
      · exact ⟨Bool.eq_false_of_not_eq_true hcold, hbest⟩
      · exact hrest k hlt (by omega)
    · obtain ⟨hbest, hrest⟩ := ih h
      refine ⟨hbest, fun k hk hk' => ?_⟩
      rcases Nat.eq_or_lt_of_le hk with rfl | hlt
      · exact ⟨Bool.eq_false_of_not_eq_true hcold,
          BitVec.le_trans (BitVec.not_lt.mp hlarger) hbest⟩
      · exact hrest k hlt (by omega)

/-- The line that is replaced, and the cache it was chosen in. -/
structure Chosen (ace : Ace) (r : ℕ × Ace) : Prop where
  line_lt : r.1 < ace.depth.toNat
  same : SameRanks ace r.2
  clean : (r.2.info r.1).dirty = false
  dirty : ∀ i, (r.2.info i).dirty = true → (ace.info i).dirty = true
  choice : (ace.info r.1).cold = true ∨ ∀ k < ace.depth.toNat, (ace.info k).cold = false ∧
    (ace.info k).lru ≤ (ace.info r.1).lru

/-- By induction on the second chances that are left. -/
lemma chosen_cachereplace (hdepth : 0 < ace.depth.toNat)
    (hcold : ∀ i < ace.depth.toNat, (ace.info i).cold = true → (ace.info i).dirty = false) :
    Chosen ace ace.cachereplace := by
  induction hchances : ace.chances using Nat.strong_induction_on generalizing ace with
  | _ chances ih =>
    have hlt := ace.pick_lt_depth hdepth
    have hlargest (h : ¬ (ace.pick 0 0 ace.depth.toNat).2 = true) : ∀ k < ace.depth.toNat,
        (ace.info k).cold = false ∧ (ace.info k).lru ≤
          (ace.info (ace.pick 0 0 ace.depth.toNat).1).lru := fun k hk =>
      (pick_largest (Bool.eq_false_of_not_eq_true h)).2 k (Nat.zero_le k) (by omega)
    rw [Ace.cachereplace]
    split_ifs with hpick hchance hdirty
    · exact ⟨hlt, .refl ace, hcold _ hlt (pick_cold hpick), fun _ h => h, .inl (pick_cold hpick)⟩
    · have hsame := sameRanks_giveSecond ace (ace.pick 0 0 ace.depth.toNat).1
      have hdirty (i : ℕ) : ((ace.giveSecond (ace.pick 0 0 ace.depth.toNat).1).info i).dirty =
          (ace.info i).dirty := by
        by_cases hi : i = (ace.pick 0 0 ace.depth.toNat).1
        · rw [hi]
          simp [giveSecond, setInfo]
        · simp [giveSecond, setInfo, hi]
      have hclean (i : ℕ) (hi : i < ace.depth.toNat)
          (h : ((ace.giveSecond (ace.pick 0 0 ace.depth.toNat).1).info i).cold = true) :
          ((ace.giveSecond (ace.pick 0 0 ace.depth.toNat).1).info i).dirty = false := by
        rw [hdirty]
        rw [hsame.cold] at h
        exact hcold i hi h
      have hrec := @ih _ (hchances ▸ chances_giveSecond hlt.le hchance.2)
        (ace.giveSecond (ace.pick 0 0 ace.depth.toNat).1) hdepth hclean rfl
      refine ⟨hrec.line_lt, hsame.trans hrec.same, hrec.clean,
        fun i h => (hdirty i).symm.trans (hrec.dirty i h), ?_⟩
      have hchoice := hrec.choice
      simp only [hsame.lru, hsame.cold] at hchoice
      exact hchoice
    · refine ⟨hlt, sameRanks_cachestore ace _, cachestore_dirty_self _, fun i h => ?_,
        .inr (hlargest hpick)⟩
      by_cases hi : i = (ace.pick 0 0 ace.depth.toNat).1
      · rw [hi, cachestore_dirty_self] at h
        cases h
      · rwa [cachestore_dirty_of_ne hi] at h
    · exact ⟨hlt, .refl ace, Bool.eq_false_of_not_eq_true hdirty, fun _ h => h,
        .inr (hlargest hpick)⟩

end Choosing

section Taking

variable {block : Huint}

lemma Ranked.taken (h : Ranked log ace) (hline : line ∈ log) : Taken log line ace := by
  refine ⟨fun i => ?_, h.rank, fun hno => absurd hline hno, h.cold⟩
  rw [h.warm]
  constructor
  · exact .inr
  · rintro (rfl | hi)
    · exact hline
    · exact hi

lemma Ranked.cacheread (h : Ranked log ace) (hdepth : 0 < ace.depth.toNat) :
    Taken log (ace.cacheread block).1 (ace.cacheread block).2 ∧
      (ace.cacheread block).2.depth = ace.depth := by
  have hchosen := chosen_cachereplace hdepth fun i hi hc => (h.cold i hi hc).2
  obtain ⟨r, hr⟩ : ∃ r, ace.cachereplace = r := ⟨_, rfl⟩
  have hread : ace.cacheread block =
      (r.1, r.2.cacheload r.1 (block - block % r.2.lines)) := by rw [Ace.cacheread, hr]
  rw [hr] at hchosen
  rw [hread]
  have hsame := hchosen.same
  have hlru (i : ℕ) : ((r.2.cacheload r.1 (block - block % r.2.lines)).info i).lru =
      (ace.info i).lru := by
    by_cases hi : i = r.1
    · rw [hi, cacheload_info_self, ← hsame.lru]
    · rw [cacheload_info_of_ne hi, hsame.lru]
  refine ⟨⟨fun i => ?_, fun i hi => ?_, fun hno => ?_, fun i hi hc => ?_⟩, hsame.depth⟩
  · by_cases hi : i = r.1
    · refine iff_of_true ⟨?_, ?_⟩ (.inl hi)
      · rw [hi]
        exact hchosen.line_lt.trans_eq (congrArg BitVec.toNat hsame.depth.symm)
      · rw [hi, cacheload_info_self]
    · rw [cacheload_warm_of_ne hi, or_iff_right hi, hsame.warm, h.warm]
  · rw [hlru]
    exact h.rank i hi
  · rw [hlru]
    refine (h.cold r.1 hchosen.line_lt (Bool.eq_true_of_not_eq_false fun hc => hno ?_)).1
    exact (h.warm r.1).mp ⟨hchosen.line_lt, hc⟩
  · have hne : i ≠ r.1 := by
      rintro rfl
      rw [cacheload_info_self] at hc
      cases hc
    rw [cacheload_info_of_ne hne] at hc ⊢
    have hcold :=
      h.cold i (hi.trans_eq (congrArg BitVec.toNat hsame.depth)) ((hsame.cold i).symm.trans hc)
    refine ⟨(hsame.lru i).trans hcold.1, Bool.eq_false_of_not_eq_true fun hdirty => ?_⟩
    rw [hchosen.dirty i hdirty] at hcold
    cases hcold.2

lemma Ranked.locate (h : Ranked log ace) (hdepth : 0 < ace.depth.toNat) (block : Huint) :
    Taken log (ace.locate block).1 (ace.locate block).2 ∧
      (ace.locate block).2.depth = ace.depth := by
  rw [Ace.locate, Ace.cachefind]
  split
  next heq =>
    split at heq
    next hfind =>
      cases heq
      have hholds := List.find?_some hfind
      simp only [holds, Bool.and_eq_true, Bool.not_eq_true'] at hholds
      have hlt := List.mem_range.mp (List.mem_of_find?_eq_some hfind)
      have hlog := (h.warm _).mp ⟨hlt, hholds.2⟩
      have hcounted : Ranked log { ace with hit := ace.hit + 1 } := ⟨h.warm, h.rank, h.cold⟩
      exact ⟨hcounted.taken hlog, rfl⟩
    next => cases heq
  next heq =>
    split at heq
    next => cases heq
    next =>
      cases heq
      have hcounted : Ranked log { ace with miss := ace.miss + 1 } := ⟨h.warm, h.rank, h.cold⟩
      exact hcounted.cacheread hdepth

end Taking

section Touching

lemma Taken.lt_of_mem (h : Taken log line ace) (hi : i ∈ log) : i < ace.depth.toNat :=
  ((h.warm i).mpr (.inr hi)).1

lemma Taken.rank_lt (h : Taken log line ace) (hi : i ∈ log) :
    (ace.info i).lru.toNat < ace.depth.toNat ∧ (ace.info i).lru ≠ 0xFFFFFFFF := by
  have hlt : (ace.info i).lru.toNat < ace.depth.toNat := by
    rw [h.rank i hi]
    exact idxOf_recent_lt (fun j hj => h.lt_of_mem hj) hi
  refine ⟨hlt, fun heq => ?_⟩
  have hdepth := ace.depth.isLt
  rw [heq, show (0xFFFFFFFF : Huint).toNat = 2 ^ 32 - 1 from rfl] at hlt
  omega

lemma Taken.lru_le_iff (h : Taken log line ace) (hi : i ∈ log)
    (hne : i ≠ line) : (ace.info i).lru ≤ (ace.info line).lru ↔
      (recent log).idxOf i < (recent log).idxOf line := by
  by_cases hline : line ∈ log
  · have hother : (recent log).idxOf i ≠ (recent log).idxOf line := fun heq =>
      hne (idxOf_recent_inj hi heq)
    rw [BitVec.le_def, h.rank i hi, h.rank line hline]
    omega
  · rw [h.fresh hline, List.idxOf_of_notMem (fun hmem => hline (mem_recent.mp hmem))]
    refine iff_of_true ?_ (List.idxOf_lt_length_of_mem (mem_recent.mpr hi))
    rw [BitVec.le_def, show (0xFFFFFFFF : Huint).toNat = 2 ^ 32 - 1 from rfl]
    have hlt := (h.rank_lt hi).1
    have hdepth := ace.depth.isLt
    omega

lemma Taken.cachetouch (h : Taken log line ace) :
    Ranked (line :: log) (ace.cachetouch line) := by
  have hframe := cachetouch_frame ace line
  have hwarm (i : ℕ) : (ace.cachetouch line).Warm i ↔ ace.Warm i := by
    rw [Warm, Warm, hframe.2.1, (cachetouch_info line i).2.2]
  have hlru : ∀ i, i = line ∨ i ∈ log → ((ace.cachetouch line).info i).lru.toNat =
      (recent (line :: log)).idxOf i := by
    intro i hi
    rw [Ace.cachetouch]
    dsimp only
    by_cases hzero : (ace.info line).lru = 0
    · -- nothing changes for the line in front
      rw [if_pos hzero]
      by_cases hne : i = line
      · rw [hne, hzero, idxOf_recent_head]
        rfl
      · have hlog := hi.resolve_left hne
        have hfirst : ¬ (recent log).idxOf i < (recent log).idxOf line := by
          rw [← h.lru_le_iff hlog hne, hzero, BitVec.not_le]
          have hpos : (recent log).idxOf i ≠ (recent log).idxOf line := fun heq =>
            hne (idxOf_recent_inj hlog heq)
          have hline : line ∈ log := by
            by_contra hno
            rw [h.fresh hno] at hzero
            cases hzero
          have hrank : 0 = (recent log).idxOf line := by
            rw [← h.rank line hline, hzero]
            rfl
          rw [← hrank] at hpos
          rw [BitVec.lt_def, h.rank i hlog]
          exact Nat.pos_of_ne_zero hpos
        rw [idxOf_recent_cons hlog hne, if_neg hfirst, h.rank i hlog]
    · rw [if_neg hzero]
      by_cases hne : i = line
      · rw [hne]
        simp only [Function.update_self, idxOf_recent_head]
        rfl
      · have hlog := hi.resolve_left hne
        obtain ⟨hlt, hranked⟩ := h.rank_lt hlog
        simp only [Function.update_of_ne hne, idxOf_recent_cons hlog hne,
          ← h.lru_le_iff hlog hne, h.lt_of_mem hlog, true_and, hranked, ne_eq,
          not_false_eq_true, and_true]
        split
        · rw [BitVec.toNat_add, ← h.rank i hlog, show (1 : Huint).toNat = 1 from rfl]
          omega
        · exact h.rank i hlog
  refine ⟨fun i => ?_, fun i hi => hlru i (List.mem_cons.mp hi), fun i hi hc => ?_⟩
  · rw [hwarm, h.warm, List.mem_cons]
  · rw [hframe.2.1] at hi
    rw [(cachetouch_info line i).2.2] at hc
    have hcold := h.cold i hi hc
    have hne : i ≠ line := by
      rintro rfl
      rw [((h.warm i).mpr (.inl rfl)).2] at hc
      cases hc
    refine ⟨?_, (cachetouch_info line i).2.1.trans hcold.2⟩
    rw [Ace.cachetouch]
    dsimp only
    split
    · exact hcold.1
    · simp only [Function.update_of_ne hne, hcold.1, ne_eq, not_true_eq_false, and_false, if_false]

lemma Taken.ranked_writeSector (h : Taken log line ace) (block : Huint)
    (data : Sector) : Ranked (line :: log) (ace.writeSector line block data) ∧
      (ace.writeSector line block data).depth = ace.depth := by
  obtain ⟨b, hb⟩ : ∃ b, { ace.reach line (ace.offset block) dataSector with
      cache := Function.update ace.cache (ace.slot line (ace.offset block)) data } = b := ⟨_, rfl⟩
  have hwrite : ace.writeSector line block data = (b.cachetouch line).setInfo line
      { (b.cachetouch line).info line with dirty := true } := by rw [Ace.writeSector, hb]
  have htaken : Taken log line b := hb ▸ ⟨h.warm, h.rank, h.fresh, h.cold⟩
  have hsame : b.depth = ace.depth := by
    rw [← hb]
    rfl
  have htouched := htaken.cachetouch
  have hframe := (cachetouch_frame b line).2.1
  rw [hwrite]
  have hinfo (i : ℕ) : (((b.cachetouch line).setInfo line
      { (b.cachetouch line).info line with dirty := true }).info i).lru =
        ((b.cachetouch line).info i).lru ∧ (((b.cachetouch line).setInfo line
      { (b.cachetouch line).info line with dirty := true }).info i).cold =
        ((b.cachetouch line).info i).cold := by
    by_cases hi : i = line
    · subst hi
      simp [setInfo]
    · simp [setInfo, hi]
  refine ⟨⟨fun i => ?_, fun i hi => ?_, fun i hi hc => ?_⟩, hframe.trans hsame⟩
  · rw [← htouched.warm, Warm, Warm, (hinfo i).2]
    rfl
  · rw [(hinfo i).1]
    exact htouched.rank i hi
  · rw [(hinfo i).2] at hc
    have hcold := htouched.cold i hi hc
    have hne : i ≠ line := by
      rintro rfl
      rw [((htouched.warm i).mpr List.mem_cons_self).2] at hc
      cases hc
    exact ⟨(hinfo i).1.trans hcold.1, by simpa [setInfo, hne] using hcold.2⟩

end Touching

section Flushing

lemma flushLine_info (ace : Ace) (line i : ℕ) :
    (ace.flushLine line).info i = if i = line then .empty else (ace.info i) := by
  rw [flushLine]
  by_cases hi : i = line
  · simp [hi, setInfo]
  · simp only [setInfo, Function.update_of_ne hi, if_neg hi]
    split
    · simp [cachestore, hi]
    · rfl

lemma flushLoop_info (ace : Ace) (first left : ℕ) : (ace.flushLoop first left).depth = ace.depth ∧
    ∀ i, (ace.flushLoop first left).info i =
      if first ≤ i ∧ i < first + left then .empty else ace.info i := by
  induction left generalizing ace first with
  | zero => exact ⟨rfl, fun i => (if_neg (by omega)).symm⟩
  | succ left ih =>
    obtain ⟨hdepth, hinfo⟩ := ih (ace.flushLine first) (first + 1)
    refine ⟨hdepth.trans (flushLine_frame ace first).1, fun i => ?_⟩
    rw [flushLoop, hinfo, flushLine_info]
    split_ifs <;> first | rfl | omega

lemma ranked_of_empty (h : ∀ i < ace.depth.toNat, ace.info i = .empty) : Ranked [] ace := by
  refine ⟨fun i => iff_of_false (fun hi => ?_) List.not_mem_nil, fun i hi => (nomatch hi),
    fun i hi _ => ?_⟩
  · have hwarm := hi.2
    rw [h i hi.1] at hwarm
    cases hwarm
  · rw [h i hi]
    exact ⟨rfl, rfl⟩

lemma ranked_cacheflush (ace : Ace) : Ranked [] ace.cacheflush ∧
    ace.cacheflush.depth = ace.depth := by
  obtain ⟨hdepth, hinfo⟩ := flushLoop_info ace 0 ace.depth.toNat
  refine ⟨ranked_of_empty fun i hi => ?_, hdepth⟩
  have hlt : i < ace.depth.toNat := hi.trans_eq (congrArg BitVec.toNat hdepth)
  exact (hinfo i).trans (if_pos ⟨Nat.zero_le i, by rwa [Nat.zero_add]⟩)

lemma ranked_create (device : Huint → Sector) {lines depth : Huint} (hlines : 0 < lines)
    (hdepth : 0 < depth) (memory : ℕ → Sector) : Ranked [] (create device lines depth memory) ∧
      (create device lines depth memory).depth = depth := by
  rw [create_eq device hlines hdepth]
  exact ⟨ranked_of_empty fun _ _ => rfl, rfl⟩

end Flushing

end Ace

namespace Journal

open Ace

def create (device : Huint → Sector) (lines depth : Huint) (memory : ℕ → Sector) : Journal :=
  ⟨Ace.create device lines depth memory, []⟩

lemma create_ace (device : Huint → Sector) (lines depth : Huint) (memory : ℕ → Sector) :
    (create device lines depth memory).ace = Ace.create device lines depth memory := rfl

variable {j : Journal}

/-- The ranks are right, and the driver has stayed inside of its arrays. -/
structure Tracked (depth : Huint) (j : Journal) : Prop where
  ranked : Ranked j.log j.ace
  fits : j.ace.Fits
  depth_eq : j.ace.depth = depth
  depth_pos : 0 < depth

lemma tracked_step {depth : Huint} (h : j.Tracked depth) (round : Round) :
    (j.step round).Tracked depth := by
  have hpos : 0 < j.ace.depth.toNat := by
    rw [h.depth_eq]
    exact h.depth_pos
  cases round with
  | read block =>
    obtain ⟨htaken, hsame⟩ := h.ranked.locate hpos block
    obtain ⟨hfits, hline, -⟩ := h.fits.locate hpos block
    have hreached : Taken j.log (j.ace.locate block).1 ((j.ace.locate block).2.reach
        (j.ace.locate block).1 ((j.ace.locate block).2.offset block) dataSector) :=
      ⟨htaken.warm, htaken.rank, htaken.fresh, htaken.cold⟩
    exact ⟨hreached.cachetouch, (hfits.reach_sector hline block).cachetouch _,
      (cachetouch_frame _ _).2.1.trans (hsame.trans h.depth_eq), h.depth_pos⟩
  | write block data =>
    obtain ⟨htaken, hsame⟩ := h.ranked.locate hpos block
    obtain ⟨hfits, hline, -⟩ := h.fits.locate hpos block
    obtain ⟨hranked, hkept⟩ := htaken.ranked_writeSector block data
    exact ⟨hranked, hfits.writeSector hline block data, hkept.trans (hsame.trans h.depth_eq),
      h.depth_pos⟩
  | flush =>
    obtain ⟨hranked, hkept⟩ := ranked_cacheflush j.ace
    exact ⟨hranked, h.fits.cacheflush, hkept.trans h.depth_eq, h.depth_pos⟩

lemma tracked_run {depth : Huint} (h : j.Tracked depth) (rounds : List Round) :
    (j.run rounds).Tracked depth := by
  induction rounds generalizing j with
  | nil => exact h
  | cons round rounds ih => exact ih (tracked_step h round)

lemma tracked_create (device : Huint → Sector) {lines depth : Huint} (hlines : 0 < lines)
    (hdepth : 0 < depth) (hsized : Sized lines depth) (memory : ℕ → Sector) :
    (create device lines depth memory).Tracked depth := by
  obtain ⟨hranked, hsame⟩ := ranked_create device hlines hdepth memory
  refine ⟨hranked, ?_, hsame, hdepth⟩
  rw [create_ace, create_eq device hlines hdepth]
  exact fits_allot hlines hsized rfl memory

lemma blocks_succ (round : Huint → ℕ → Round) (block : Huint) (left : ℕ) :
    (List.range (left + 1)).map (fun k => round (block + BitVec.ofNat 32 k) k) =
      round block 0 :: (List.range left).map fun k =>
        round (block + 1 + BitVec.ofNat 32 k) (k + 1) := by
  rw [List.range_succ_eq_map, List.map_cons, List.map_map, BitVec.add_zero]
  congr 2
  funext k
  rw [Function.comp_apply, BitVec.add_assoc, show (1 : Huint) = BitVec.ofNat 32 1 from rfl,
    ← BitVec.ofNat_add, Nat.add_comm]

lemma run_readLoop (j : Journal) (block : Huint) (left : ℕ) :
    (j.ace.readLoop block left).2 =
      (j.run ((List.range left).map fun k => .read (block + BitVec.ofNat 32 k))).ace := by
  induction left generalizing j block with
  | zero => rfl
  | succ left ih =>
    rw [readLoop, blocks_succ fun b _ => .read b]
    exact ih (j.step (.read block)) (block + 1)

lemma run_writeLoop (j : Journal) (block : Huint) (buffer : ℕ → Sector) (left : ℕ) :
    j.ace.writeLoop block buffer left =
      (j.run ((List.range left).map fun k =>
        .write (block + BitVec.ofNat 32 k) (buffer k))).ace := by
  induction left generalizing j block buffer with
  | zero => rfl
  | succ left ih =>
    rw [writeLoop, blocks_succ fun b k => .write b (buffer k)]
    exact ih (j.step (.write block (buffer 0))) (block + 1) fun k => buffer (k + 1)

end Journal

namespace Call

def request : Call → Request
  | read start num => .read start num
  | write start num buffer => .write start num buffer
  | flush => .flush

def rounds : Call → List Round
  | read start num =>
    (List.range (Ace.rounds start num)).map fun k => .read (start + BitVec.ofNat 32 k)
  | write start num buffer =>
    (List.range (Ace.rounds start num)).map fun k => .write (start + BitVec.ofNat 32 k) (buffer k)
  | flush => [.flush]

lemma perform_request (call : Call) (j : Journal) :
    (call.request.perform j.ace).2 = (j.run call.rounds).ace := by
  cases call with
  | read start num => exact j.run_readLoop start _
  | write start num buffer => exact j.run_writeLoop start buffer _
  | flush => rfl

lemma performAll_requests (calls : List Call) (j : Journal) :
    (performAll j.ace (calls.map request)).2 = (j.run (calls.flatMap rounds)).ace := by
  induction calls generalizing j with
  | nil => rfl
  | cons call calls ih =>
    rw [List.map_cons, performAll, perform_request, ih, List.flatMap_cons, Journal.run,
      Journal.run, Journal.run, List.foldl_append]

end Call

/-- The lines that have been accessed since the last flush are the warm ones, they are ranked by
their last accesses, a cold line or the one that has waited longest is replaced, and all the
accesses so far were to the allocated arrays. -/
structure LeastRecent (depth : ℕ) (j : Journal) : Prop where
  warm : ∀ i, j.ace.Warm i ↔ i ∈ j.log
  below : ∀ i, j.ace.Warm i → (j.ace.info i).lru.toNat < depth
  distinct : ∀ i k, j.ace.Warm i → j.ace.Warm k →
    (j.ace.info i).lru = (j.ace.info k).lru → i = k
  ordered : ∀ i k, j.ace.Warm i → j.ace.Warm k →
    ((j.ace.info i).lru < (j.ace.info k).lru ↔ j.log.idxOf i < j.log.idxOf k)
  newest : ∀ i, j.log.head? = some i → (j.ace.info i).lru = 0
  cold : ∀ i < depth, (j.ace.info i).cold = true → (j.ace.info i).lru = 0xFFFFFFFF
  replaced_lt : j.ace.cachereplace.1 < depth
  replaced_clean : (j.ace.cachereplace.2.info j.ace.cachereplace.1).dirty = false
  replaced_cold : ∀ i < depth, (j.ace.info i).cold = true →
    (j.ace.info j.ace.cachereplace.1).cold = true
  replaced_oldest : (∀ i < depth, (j.ace.info i).cold = false) →
    ∀ i < depth, j.log.idxOf i ≤ j.log.idxOf j.ace.cachereplace.1
  inside : j.ace.overrun = false

lemma Ace.Ranked.leastRecent {j : Journal} (h : Ranked j.log j.ace) (hpos : 0 < j.ace.depth.toNat)
    (hinside : j.ace.overrun = false) : LeastRecent j.ace.depth.toNat j := by
  have hchosen := chosen_cachereplace hpos fun i hi hc => (h.cold i hi hc).2
  have hrank (i k : ℕ) (hi : j.ace.Warm i) (hk : j.ace.Warm k) :
      (j.ace.info i).lru < (j.ace.info k).lru ↔ j.log.idxOf i < j.log.idxOf k := by
    have hi' := (h.warm i).mp hi
    have hk' := (h.warm k).mp hk
    rw [BitVec.lt_def, h.rank i hi', h.rank k hk', idxOf_recent_lt_iff hi' hk']
  refine ⟨h.warm, fun i hi => ?_, fun i k hi hk heq => ?_, hrank, fun i hi => ?_,
    fun i hi hc => (h.cold i hi hc).1, hchosen.line_lt, hchosen.clean, fun i hi hc => ?_,
    fun hwarm i hi => ?_, hinside⟩
  · have hi' := (h.warm i).mp hi
    rw [h.rank i hi']
    exact idxOf_recent_lt (fun k hk => ((h.warm k).mpr hk).1) hi'
  · have hi' := (h.warm i).mp hi
    have hk' := (h.warm k).mp hk
    refine idxOf_recent_inj hi' ?_
    rw [← h.rank i hi', ← h.rank k hk', heq]
  · obtain ⟨rest, hrest⟩ := List.head?_eq_some_iff.mp hi
    have hmem : i ∈ j.log := hrest ▸ List.mem_cons_self
    refine BitVec.eq_of_toNat_eq ((h.rank i hmem).trans ?_)
    rw [hrest, idxOf_recent_head]
    rfl
  · refine hchosen.choice.resolve_right fun hall => ?_
    rw [(hall i hi).1] at hc
    cases hc
  · rcases hchosen.choice with hcold | hall
    · rw [hwarm _ hchosen.line_lt] at hcold
      cases hcold
    · refine Nat.not_lt.mp fun hlt => ?_
      have hless := (hrank _ i ⟨hchosen.line_lt, hwarm _ hchosen.line_lt⟩ ⟨hi, hwarm i hi⟩).mpr hlt
      exact BitVec.not_le.mpr hless (hall i hi).2

/-- In every state between two accesses of a run of calls, when the size of the cache is below the
32-bit limit. -/
theorem cache_replacement_least_recent (device : Huint → Sector) (memory : ℕ → Sector)
    {lines depth : Huint} (hlines : 0 < lines) (hdepth : 0 < depth) (hsized : Sized lines depth)
    (calls : List Call) :
    (∀ rounds, rounds <+: calls.flatMap Call.rounds →
      LeastRecent depth.toNat ((Journal.create device lines depth memory).run rounds)) ∧
    (performAll (Ace.create device lines depth memory) (calls.map Call.request)).2 =
      ((Journal.create device lines depth memory).run (calls.flatMap Call.rounds)).ace := by
  refine ⟨fun rounds _ => ?_, Call.performAll_requests calls
    (Journal.create device lines depth memory)⟩
  have htracked := Journal.tracked_run (Journal.tracked_create device hlines hdepth hsized memory)
    rounds
  have hresult := htracked.ranked.leastRecent (by rw [htracked.depth_eq]; exact hdepth)
    htracked.fits.overrun
  rwa [htracked.depth_eq] at hresult

-- two lines; the third block evicts the line of the first
theorem cache_replacement_least_recent_for_two_lines :
    LeastRecent 2 ((Journal.create (fun _ _ => 0) 1 2 (fun _ _ => 0)).run
      [.read 0, .write 1 (fun _ => 7), .read 2]) :=
  (cache_replacement_least_recent (fun _ _ => 0) (fun _ _ => 0) (by decide : (0 : Huint) < 1)
    (by decide : (0 : Huint) < 2) (by decide : 1 * 2 * 512 < 2 ^ 32)
    [.read 0 1, .write 1 1 (fun _ _ => 7), .read 2 1]).1 _ (List.prefix_refl _)

lemma Journal.overrun_step_read {j : Journal} {block : Huint}
    (h : (j.ace.locate block).2.overrun = true) : (j.step (.read block)).ace.overrun = true := by
  rw [Journal.step]
  dsimp only
  rw [Ace.cachetouch_overrun, Ace.reach, h]
  rfl

/-- With 255 sectors a line and 32897 lines, the product is 65024 bytes in 32 bits, and the first
line that is loaded has 130560. -/
theorem cache_overrun_by_first_read :
    (0 : Huint) < 255 ∧ (0 : Huint) < 32897 ∧ ∀ device memory,
      ¬ LeastRecent (32897 : Huint).toNat
        ((Journal.create device 255 32897 memory).run [.read 0]) := by
  refine ⟨by decide, by decide, fun device memory h => ?_⟩
  have hover : ((Journal.create device 255 32897 memory).ace.locate 0).2.overrun = true := by
    rw [Journal.create_ace]
    exact Ace.overrun_of_first_line (by decide) (by decide) 0 (by decide)
  have hinside := h.inside
  rw [Journal.run, List.foldl_cons, List.foldl_nil, Journal.overrun_step_read hover] at hinside
  cases hinside

end Hthreads.Sysace
