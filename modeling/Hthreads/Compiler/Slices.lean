import Hthreads.Compiler.Dependencies

/-! The lines that are written for a function are closed under calls. -/

namespace Hthreads.Compiler

open Library Relation

def Listed.Has (f : Listed) (number : ℕ) : Prop := f.start ≤ number ∧ number ≤ f.stop

/-- A line of the first function calls the second one; `main` counts as called. -/
def Depends (lines : List Line) (f g : Listed) : Prop :=
  g.name.val = main ∨ ∃ k line, f.Has (k + 1) ∧ lines[k]? = some line ∧ line.Calls g.name

/-- The functions have names of their own and lie within the source. -/
structure Source (lines : List Line) (fs : List Listed) : Prop where
  names : (fs.map (·.name)).Nodup
  first : ∀ f ∈ fs, 1 ≤ f.start
  last : ∀ f ∈ fs, f.stop ≤ lines.length

def labelled (fs : List Listed) : Table where
  rows := fs.length + 1
  cols := fs.length + 1
  cell
    | 0, j + 1 => (fs[j]?.map (·.name.field)).getD (.number 0)
    | i + 1, 0 => (fs[i]?.map (·.name.field)).getD (.number 0)
    | _, _ => .number 0

variable {lines : List Line} {fs : List Listed} {f g : Listed} {t : Table} {i j k : ℕ}

section Marking

structure Filled (fs : List Listed) (W : ℕ → ℕ → Prop) (t : Table) : Prop where
  rows : t.rows = fs.length + 1
  cols : t.cols = fs.length + 1
  top : ∀ j, t.cell 0 j = (labelled fs).cell 0 j
  side : ∀ i, t.cell i 0 = (labelled fs).cell i 0
  marks : ∀ i j, t.cell (i + 1) (j + 1) = .number 1 ↔ W i j

variable {W V : ℕ → ℕ → Prop}

lemma filled_labelled (fs : List Listed) : Filled fs (fun _ _ => False) (labelled fs) :=
  ⟨rfl, rfl, fun _ => rfl, fun _ => rfl, fun i j => iff_of_false (fun h => by cases h) id⟩

lemma Filled.congr (h : Filled fs W t) (hWV : ∀ i j, W i j ↔ V i j) : Filled fs V t :=
  ⟨h.rows, h.cols, h.top, h.side, fun i j => (h.marks i j).trans (hWV i j)⟩

lemma Filled.label (h : Filled fs W t) (hf : fs[k]? = some f) :
    t.cell 0 (k + 1) = f.name.field := by
  rw [h.top]
  change (fs[k]?.map (·.name.field)).getD (.number 0) = _
  rw [hf]
  rfl

lemma Filled.get_top (h : Filled fs W t) (hf : fs[k]? = some f) :
    t.get 0 (k + 1) = some f.name.field := by
  have hk := (List.getElem?_eq_some_iff.mp hf).1
  rw [Table.get, h.rows, h.cols, if_pos ⟨by omega, by omega⟩, h.label hf]

lemma Filled.get_side (h : Filled fs W t) (hf : fs[k]? = some f) :
    t.get (k + 1) 0 = some f.name.field := by
  have hk := (List.getElem?_eq_some_iff.mp hf).1
  rw [Table.get, h.rows, h.cols, if_pos ⟨by omega, by omega⟩, h.side]
  change some ((fs[k]?.map (·.name.field)).getD (.number 0)) = _
  rw [hf]
  rfl

lemma Filled.mark (h : Filled fs W t) (hi : i < fs.length) (hj : j < fs.length) :
    ∃ t', t.mark (i + 1) (j + 1) = some t' ∧
      Filled fs (fun a b => (a = i ∧ b = j) ∨ W a b) t' := by
  refine ⟨_, if_pos ⟨by rw [h.rows]; omega, by rw [h.cols]; omega⟩, h.rows, h.cols, h.top,
    fun a => ?_, fun a b => ?_⟩
  · dsimp only
    by_cases ha : a = i + 1
    · rw [ha, Function.update_self, Function.update_of_ne (Nat.succ_ne_zero j).symm]
      exact h.side _
    · rw [Function.update_of_ne ha]
      exact h.side a
  · dsimp only
    by_cases ha : a = i
    · by_cases hb : b = j
      · rw [ha, hb, Function.update_self, Function.update_self]
        exact iff_of_true rfl (.inl ⟨rfl, rfl⟩)
      · rw [ha, Function.update_self, Function.update_of_ne (by omega), h.marks,
          or_iff_right (fun hab => hb hab.2)]
    · rw [Function.update_of_ne (by omega), h.marks, or_iff_right (fun hab => ha hab.1)]

lemma dependencyList_spec (hs : Source lines fs) (hf : f ∈ fs) :
    ∃ l, dependencyList lines (functionList fs) fs.length f.start f.stop = some l ∧
      ∀ g ∈ fs, g.name.val ∈ l ↔ Depends lines f g := by
  have hnames : (List.range fs.length).mapM
    (fun count => textAt (functionList fs) (4 * count + 1)) =
      some ((List.range fs.length).map fun k => ((fs[k]?.map (·.name.val)).getD [])) := by
    refine mapM_eq_map fun k hk => ?_
    have hk' := List.getElem?_eq_getElem (List.mem_range.mp hk)
    rw [textAt_name hk', hk']
    rfl
  have hlines : (List.range' f.start (f.stop + 1 - f.start)).mapM
    (fun number => lines[number - 1]?) =
      some ((List.range' f.start (f.stop + 1 - f.start)).map fun number =>
        (lines[number - 1]?).getD []) := by
    refine mapM_eq_map fun number hnumber => ?_
    have hfirst := hs.first f hf
    have hlast := hs.last f hf
    have hrange := List.mem_range'_1.mp hnumber
    rw [List.getElem?_eq_getElem (show number - 1 < lines.length by omega)]
    rfl
  rw [dependencyList, hnames, hlines]
  refine ⟨_, rfl, fun g hg => ?_⟩
  rw [List.mem_append, List.mem_singleton, List.mem_flatMap, Depends, or_comm]
  refine or_congr_right ?_
  constructor
  · rintro ⟨line, hline, hname⟩
    obtain ⟨number, hnumber, rfl⟩ := List.mem_map.mp hline
    have hfirst := hs.first f hf
    have hlast := hs.last f hf
    have hrange := List.mem_range'_1.mp hnumber
    refine ⟨number - 1, _, ⟨by omega, by omega⟩, List.getElem?_eq_getElem (by omega), ?_⟩
    rw [List.getElem?_eq_getElem (show number - 1 < lines.length by omega)] at hname
    exact callPattern_search.mp (List.mem_filter.mp hname).2
  · rintro ⟨k, line, hhas, hline, hcalls⟩
    refine ⟨line, List.mem_map.mpr ⟨k + 1, List.mem_range'_1.mpr ?_, ?_⟩, List.mem_filter.mpr
      ⟨?_, callPattern_search.mpr hcalls⟩⟩
    · have hstart := hhas.1
      have hstop := hhas.2
      omega
    · rw [Nat.add_sub_cancel, hline]
      rfl
    · obtain ⟨m, hm⟩ := List.mem_iff_getElem?.mp hg
      refine List.mem_map.mpr ⟨m, List.mem_range.mpr (List.getElem?_eq_some_iff.mp hm).1, ?_⟩
      rw [hm]
      rfl

def Marked (lines : List Line) (fs : List Listed) (k i j : ℕ) : Prop :=
  i < k ∧ ∃ f g, fs[i]? = some f ∧ fs[j]? = some g ∧ Depends lines f g

lemma Filled.markRow (h : Filled fs (Marked lines fs k) t) (hf : fs[k]? = some f)
    {l : List (List Char)} (hl : ∀ g ∈ fs, g.name.val ∈ l ↔ Depends lines f g) :
    ∃ t', markRow t l k fs.length = some t' ∧ Filled fs (Marked lines fs (k + 1)) t' := by
  obtain ⟨t', ht', hfilled⟩ := foldlM_range_invariant
    (f := fun (t : Table) count2 => do
      let label ← t.get 0 (count2 + 1)
      if label ∈ l.map .text then t.mark (k + 1) (count2 + 1) else some t)
    (P := fun m t => Filled fs (fun i j => Marked lines fs k i j ∨
      (i = k ∧ j < m ∧ ∃ g, fs[j]? = some g ∧ Depends lines f g)) t) (n := fs.length) (b := t)
    (h.congr fun i j => (or_iff_left fun hno => absurd hno.2.1 (Nat.not_lt_zero j)).symm)
    (fun m hm t ht => by
      have hg := List.getElem?_eq_getElem hm
      have hmem : fs[m].name.field ∈ l.map Field.text ↔ Depends lines f fs[m] := by
        rw [← hl _ (List.mem_of_getElem? hg), Name.field, List.mem_map]
        constructor
        · rintro ⟨word, hword, heq⟩
          rwa [← Field.text.inj heq]
        · exact fun hword => ⟨_, hword, rfl⟩
      rw [ht.get_top hg]
      by_cases hdepends : Depends lines f fs[m]
      · obtain ⟨t', ht', hfilled⟩ := ht.mark (List.getElem?_eq_some_iff.mp hf).1 hm
        refine ⟨t', ?_, hfilled.congr fun i j => ?_⟩
        · change (if _ ∈ _ then _ else _) = _
          rwa [if_pos (hmem.mpr hdepends)]
        · constructor
          · rintro (⟨rfl, rfl⟩ | hmarked | ⟨rfl, hj, hrest⟩)
            · exact .inr ⟨rfl, Nat.lt_succ_self _, _, hg, hdepends⟩
            · exact .inl hmarked
            · exact .inr ⟨rfl, Nat.lt_succ_of_lt hj, hrest⟩
          · rintro (hmarked | ⟨rfl, hj, hrest⟩)
            · exact .inr (.inl hmarked)
            · rcases Nat.eq_or_lt_of_le (Nat.lt_succ_iff.mp hj) with rfl | hj
              · exact .inl ⟨rfl, rfl⟩
              · exact .inr (.inr ⟨rfl, hj, hrest⟩)
      · refine ⟨t, ?_, ht.congr fun i j => ?_⟩
        · change (if _ ∈ _ then _ else _) = _
          rw [if_neg (hmem.not.mpr hdepends)]
        · refine or_congr_right ⟨?_, ?_⟩
          · rintro ⟨rfl, hj, hrest⟩
            exact ⟨rfl, Nat.lt_succ_of_lt hj, hrest⟩
          · rintro ⟨rfl, hj, g, hgj, hrest⟩
            rcases Nat.eq_or_lt_of_le (Nat.lt_succ_iff.mp hj) with rfl | hj
            · rw [hg] at hgj
              exact absurd (Option.some.inj hgj ▸ hrest) hdepends
            · exact ⟨rfl, hj, g, hgj, hrest⟩)
  refine ⟨t', ht', hfilled.congr fun i j => ?_⟩
  constructor
  · rintro (⟨hi, hrest⟩ | ⟨rfl, hj, g, hg, hrest⟩)
    · exact ⟨Nat.lt_succ_of_lt hi, hrest⟩
    · exact ⟨Nat.lt_succ_self i, f, g, hf, hg, hrest⟩
  · rintro ⟨hi, f', g, hf', hg, hrest⟩
    rcases Nat.eq_or_lt_of_le (Nat.lt_succ_iff.mp hi) with rfl | hi
    · rw [hf] at hf'
      cases hf'
      exact .inr ⟨rfl, (List.getElem?_eq_some_iff.mp hg).1, g, hg, hrest⟩
    · exact .inl ⟨hi, f', g, hf', hg, hrest⟩

lemma figureInitialDependencies_spec (hs : Source lines fs) :
    ∃ t, figureInitialDependencies lines (functionList fs) fs.length (labelled fs) (fs.length + 1)
      (fs.length + 1) = some t ∧ Filled fs (Marked lines fs fs.length) t := by
  rw [figureInitialDependencies, if_pos ⟨rfl, rfl⟩]
  refine foldlM_range_invariant (P := fun k t => Filled fs (Marked lines fs k) t)
    ((filled_labelled fs).congr fun i j => iff_of_false id fun h => absurd h.1 (Nat.not_lt_zero i))
    fun k hk t ht => ?_
  have hf := List.getElem?_eq_getElem hk
  obtain ⟨l, hlist, hl⟩ := dependencyList_spec hs (List.mem_of_getElem? hf)
  rw [textAt_name hf, numberAt_start hf, numberAt_stop hf, ht.get_side hf]
  obtain ⟨t', ht', hfilled⟩ := ht.markRow hf hl
  refine ⟨t', ?_, hfilled⟩
  refine (if_pos rfl).trans ?_
  rw [hlist]
  exact ht'

end Marking

section Searching

variable {W : ℕ → ℕ → Prop} {a b root : Field}

def Table.Edge (t : Table) (a b : Field) : Prop :=
  ∃ i j, 1 ≤ i ∧ i < t.rows ∧ 1 ≤ j ∧ j < t.cols ∧ t.cell 0 i = a ∧ t.cell 0 j = b ∧
    t.cell i j = .number 1

lemma Filled.label_of_pos (h : Filled fs W t) (hpos : 1 ≤ j) (hj : j < t.cols) :
    ∃ f, fs[j - 1]? = some f ∧ t.cell 0 j = f.name.field := by
  rw [h.cols] at hj
  have hf := List.getElem?_eq_getElem (show j - 1 < fs.length by omega)
  refine ⟨_, hf, ?_⟩
  rw [← h.label hf, Nat.sub_add_cancel hpos]

lemma getElem?_inj_name (hnames : (fs.map (·.name)).Nodup) (hf : fs[i]? = some f)
    (hg : fs[j]? = some g) (h : f.name = g.name) : i = j := by
  have hi : (fs.map (·.name))[i]? = some f.name := by rw [List.getElem?_map, hf]; rfl
  have hj : (fs.map (·.name))[j]? = some f.name := by rw [List.getElem?_map, hg, h]; rfl
  have hlt := (List.getElem?_eq_some_iff.mp hi).1
  exact (List.getElem?_inj hlt hnames).mp (hi.trans hj.symm)

lemma Filled.edge_iff (h : Filled fs W t) (hnames : (fs.map (·.name)).Nodup)
    (hf : fs[i]? = some f) (hg : fs[j]? = some g) :
    t.Edge f.name.field g.name.field ↔ W i j := by
  constructor
  · rintro ⟨a, b, hapos, ha, hbpos, hb, hfa, hgb, hone⟩
    obtain ⟨f', hf', hlabel⟩ := h.label_of_pos hapos (by rwa [h.cols, ← h.rows])
    obtain ⟨g', hg', hlabel'⟩ := h.label_of_pos hbpos hb
    rw [← getElem?_inj_name hnames hf' hf (field_inj (hlabel ▸ hfa)),
      ← getElem?_inj_name hnames hg' hg (field_inj (hlabel' ▸ hgb)), ← h.marks,
      Nat.sub_add_cancel hapos, Nat.sub_add_cancel hbpos]
    exact hone
  · intro hW
    have hi := (List.getElem?_eq_some_iff.mp hf).1
    have hj := (List.getElem?_eq_some_iff.mp hg).1
    exact ⟨i + 1, j + 1, by omega, by rw [h.rows]; omega, by omega, by rw [h.cols]; omega,
      h.label hf, h.label hg, (h.marks i j).mpr hW⟩

lemma Filled.reached_label (h : Filled fs W t) (hf : f ∈ fs)
    (hreached : ReflTransGen t.Edge f.name.field a) : ∃ g ∈ fs, a = g.name.field := by
  cases hreached with
  | refl => exact ⟨f, hf, rfl⟩
  | tail _ hedge =>
    obtain ⟨-, j, -, -, hpos, hj, -, hlabel, -⟩ := hedge
    obtain ⟨g, hg, hlabel'⟩ := h.label_of_pos hpos hj
    exact ⟨g, List.mem_of_getElem? hg, by rw [← hlabel, hlabel']⟩

lemma Filled.header_idxOf? (h : Filled fs W t) (hnames : (fs.map (·.name)).Nodup)
    (hg : fs[k]? = some g) : t.header.idxOf? g.name.field = some (k + 1) := by
  have hk := (List.getElem?_eq_some_iff.mp hg).1
  have hlength : t.header.length = fs.length + 1 := by
    rw [Table.header, List.length_map, List.length_range, h.cols]
  rw [List.idxOf?_eq_some_iff]
  refine ⟨by rw [hlength]; omega, ?_, fun j hj hlabel => ?_⟩
  · simp only [Table.header, List.getElem_map, List.getElem_range]
    exact h.label hg
  · simp only [Table.header, List.getElem_map, List.getElem_range] at hlabel
    by_cases hpos : 1 ≤ j
    · obtain ⟨f, hf, hlabel'⟩ := h.label_of_pos hpos (by rw [h.cols]; omega)
      have := getElem?_inj_name hnames hf hg (field_inj (hlabel' ▸ hlabel))
      omega
    · obtain rfl : j = 0 := by omega
      rw [h.top] at hlabel
      cases hlabel

lemma Filled.callees_spec (h : Filled fs W t) (hnames : (fs.map (·.name)).Nodup)
    (hg : fs[k]? = some g) : (∀ b ∈ t.callees (k + 1) t.cols, t.Edge g.name.field b) ∧
      ∀ b, t.Edge g.name.field b → b = g.name.field ∨ b ∈ t.callees (k + 1) t.cols := by
  have hk := (List.getElem?_eq_some_iff.mp hg).1
  constructor
  · intro b hb
    obtain ⟨column, hcolumn, rfl⟩ := List.mem_map.mp hb
    obtain ⟨hrange, hone⟩ := List.mem_filter.mp hcolumn
    have hrange' := List.mem_range'_1.mp hrange
    exact ⟨k + 1, column, by omega, by rw [h.rows]; omega, hrange'.1, by omega, h.label hg, rfl,
      (of_decide_eq_true hone).2⟩
  · rintro b ⟨i, j, hipos, hi, hjpos, hj, hlabel, rfl, hone⟩
    obtain ⟨f, hf, hlabel'⟩ := h.label_of_pos hipos (by rwa [h.cols, ← h.rows])
    have hik := getElem?_inj_name hnames hf hg (field_inj (hlabel' ▸ hlabel))
    obtain rfl : i = k + 1 := by omega
    by_cases hdiagonal : k + 1 = j
    · rw [← hdiagonal]
      exact .inl hlabel
    · exact .inr (List.mem_map.mpr ⟨j, List.mem_filter.mpr
        ⟨List.mem_range'_1.mpr ⟨hjpos, by omega⟩, decide_eq_true ⟨hdiagonal, hone⟩⟩, rfl⟩)

/-- By the recursion of the loop, which ends with everything that can be reached. -/
lemma Filled.figureLoop (h : Filled fs W t) (hnames : (fs.map (·.name)).Nodup) (hf : f ∈ fs)
    {finalList bufferList : List Field}
    (hsearch : Search t.Edge f.name.field finalList bufferList) :
    ∃ l, figureLoop t t.cols finalList bufferList = some l ∧ Search t.Edge f.name.field l [] := by
  induction finalList, bufferList using figureLoop.induct t t.cols with
  | case1 finalList => exact ⟨finalList, by rw [Compiler.figureLoop], hsearch⟩
  | case2 finalList dependency bufferList hdone ih =>
    rw [Compiler.figureLoop, dif_pos hdone]
    exact ih (hsearch.skip hdone)
  | case3 finalList dependency bufferList hdone hindex =>
    obtain ⟨g, hg, rfl⟩ := h.reached_label hf (hsearch.reached _ (.inr List.mem_cons_self))
    obtain ⟨k, hk⟩ := List.mem_iff_getElem?.mp hg
    rw [h.header_idxOf? hnames hk] at hindex
    cases hindex
  | case4 finalList dependency bufferList hdone index hindex hrow ih =>
    obtain ⟨g, hg, rfl⟩ := h.reached_label hf (hsearch.reached _ (.inr List.mem_cons_self))
    obtain ⟨k, hk⟩ := List.mem_iff_getElem?.mp hg
    have hk' := h.header_idxOf? hnames hk
    rw [hk'] at hindex
    cases hindex
    obtain ⟨hnew, hall⟩ := h.callees_spec hnames hk
    obtain ⟨l, hl, hrest⟩ := ih (hsearch.take hdone (fun b hb => hnew b (List.mem_reverse.mp hb))
      fun b hb => (hall b hb).imp_right List.mem_reverse.mpr)
    refine ⟨l, ?_, hrest⟩
    rw [Compiler.figureLoop, dif_neg hdone]
    split
    next hnone =>
      rw [hk'] at hnone
      cases hnone
    next index hsome =>
      rw [hk'] at hsome
      cases hsome
      rw [if_pos hrow]
      exact hl
  | case5 finalList dependency bufferList hdone index hindex hrow =>
    obtain ⟨g, hg, rfl⟩ := h.reached_label hf (hsearch.reached _ (.inr List.mem_cons_self))
    obtain ⟨k, hk⟩ := List.mem_iff_getElem?.mp hg
    rw [h.header_idxOf? hnames hk] at hindex
    cases hindex
    have hlt := (List.getElem?_eq_some_iff.mp hk).1
    exact absurd (by rw [h.rows]; omega) hrow

lemma Filled.figureAllDependencies (h : Filled fs W t) (hnames : (fs.map (·.name)).Nodup)
    (hf : f ∈ fs) : ∃ l, figureAllDependencies t f.name.field (fs.length + 1) (fs.length + 1) =
      some l ∧ l.Nodup ∧ ∀ a, a ∈ l ↔ ReflTransGen t.Edge f.name.field a := by
  obtain ⟨l, hl, hsearch⟩ := h.figureLoop hnames hf (Search.start t.Edge f.name.field)
  obtain ⟨k, hk⟩ := List.mem_iff_getElem?.mp hf
  have hheader : f.name.field ∈ t.header :=
    List.isSome_idxOf?.mp (h.header_idxOf? hnames hk ▸ Option.isSome_some)
  refine ⟨l, ?_, hsearch.nodup, hsearch.mem_iff⟩
  rw [Compiler.figureAllDependencies, if_pos ⟨h.rows, h.cols, hheader⟩, ← h.cols]
  exact hl

end Searching

section Writing

variable {W : ℕ → Prop} {marks : List ℤ} {n : ℕ}

/-- The marks of the lines: zero for those that are written. -/
structure Written (n : ℕ) (W : ℕ → Prop) (marks : List ℤ) : Prop where
  length : marks.length = n
  marked : ∀ k < n, (W k ∧ marks[k]? = some 0) ∨ (¬ W k ∧ marks[k]? = some (-1))

lemma Written.congr {V : ℕ → Prop} (h : Written n W marks) (hWV : ∀ k, W k ↔ V k) :
    Written n V marks :=
  ⟨h.length, fun k hk => (h.marked k hk).imp (fun hm => ⟨(hWV k).mp hm.1, hm.2⟩)
    fun hm => ⟨fun hV => hm.1 ((hWV k).mpr hV), hm.2⟩⟩

lemma markLines_spec (value : ℤ) (start : ℕ) {stop : ℕ} (hstop : stop ≤ marks.length) :
    ∃ marks', markLines value start stop marks = some marks' ∧ marks'.length = marks.length ∧
      ∀ k < marks.length, marks'[k]? =
        if start - 1 ≤ k ∧ k < stop then some value else marks[k]? := by
  obtain ⟨marks', hmarks, hlength, hinfo⟩ := foldlM_invariant (l := List.range' (start - 1)
      (stop - (start - 1))) (b := marks)
    (f := fun (l : List ℤ) i => if i < l.length then some (l.set i value) else none)
    (P := fun done l => l.length = marks.length ∧ ∀ k < marks.length, l[k]? =
      if k ∈ done then some value else marks[k]?)
    ⟨rfl, fun k _ => (if_neg List.not_mem_nil).symm⟩
    (fun done i l hi hl => by
      have hrange := List.mem_range'_1.mp hi
      refine ⟨l.set i value, if_pos (by omega), by rw [List.length_set, hl.1], fun k hk => ?_⟩
      rw [List.getElem?_set]
      by_cases hik : i = k
      · rw [if_pos hik, if_pos (by omega),
          if_pos (List.mem_append_right done (List.mem_singleton.mpr hik.symm))]
      · rw [if_neg hik, hl.2 k hk]
        refine if_congr ?_ rfl rfl
        rw [List.mem_append, List.mem_singleton, or_iff_left (Ne.symm hik)])
  refine ⟨marks', hmarks, hlength, fun k hk => (hinfo k hk).trans (if_congr ?_ rfl rfl)⟩
  rw [List.mem_range'_1]
  omega

lemma Written.mask (h : Written n W marks) (hstart : 1 ≤ f.start) (hstop : f.stop ≤ n) :
    ∃ marks', markLines (-1) f.start f.stop marks = some marks' ∧
      Written n (fun k => ¬ f.Has (k + 1) ∧ W k) marks' := by
  obtain ⟨marks', hmarks, hlength, hinfo⟩ := markLines_spec (-1) f.start
    (h.length.symm ▸ hstop)
  refine ⟨marks', hmarks, hlength.trans h.length, fun k hk => ?_⟩
  rw [hinfo k (h.length.symm ▸ hk)]
  by_cases hhas : f.Has (k + 1)
  · have hstart' := hhas.1
    have hstop' := hhas.2
    rw [if_pos ⟨by omega, by omega⟩]
    exact .inr ⟨fun hW => hW.1 hhas, rfl⟩
  · rw [if_neg (fun hrange => hhas ⟨by omega, by omega⟩)]
    exact (h.marked k hk).imp (fun hm => ⟨⟨hhas, hm.1⟩, hm.2⟩)
      fun hm => ⟨fun hW => hm.1 hW.2, hm.2⟩

lemma Written.unmask (h : Written n W marks) (hstart : 1 ≤ f.start) (hstop : f.stop ≤ n) :
    ∃ marks', markLines 0 f.start f.stop marks = some marks' ∧
      Written n (fun k => W k ∨ f.Has (k + 1)) marks' := by
  obtain ⟨marks', hmarks, hlength, hinfo⟩ := markLines_spec 0 f.start
    (h.length.symm ▸ hstop)
  refine ⟨marks', hmarks, hlength.trans h.length, fun k hk => ?_⟩
  rw [hinfo k (h.length.symm ▸ hk)]
  by_cases hhas : f.Has (k + 1)
  · have hstart' := hhas.1
    have hstop' := hhas.2
    rw [if_pos ⟨by omega, by omega⟩]
    exact .inl ⟨.inr hhas, rfl⟩
  · rw [if_neg (fun hrange => hhas ⟨by omega, by omega⟩)]
    exact (h.marked k hk).imp (fun hm => ⟨.inl hm.1, hm.2⟩)
      fun hm => ⟨fun hW => hW.elim hm.1 hhas, hm.2⟩

lemma getFunctionRange_spec (hs : Source lines fs) {l : List Field}
    (hl : ∀ a ∈ l, ∃ f ∈ fs, a = f.name.field) :
    ∃ marks, getFunctionRange l (functionList fs) lines = some marks ∧
      Written lines.length (fun k => (∀ f ∈ fs, ¬ f.Has (k + 1)) ∨
        ∃ f ∈ fs, f.name.field ∈ l ∧ f.Has (k + 1)) marks := by
  have hcount : ((functionList fs).length + 3) / 4 = fs.length := by
    rw [length_functionList]
    omega
  obtain ⟨masked, hmasked, hwritten⟩ := foldlM_range_invariant (n := fs.length)
    (f := fun (l : List ℤ) count => do
      markLines (-1) (← numberAt (functionList fs) (4 * count + 2))
        (← numberAt (functionList fs) (4 * count + 3)) l) (b := List.replicate lines.length 0)
    (P := fun m marks => Written lines.length
      (fun k => ∀ i < m, ∀ f, fs[i]? = some f → ¬ f.Has (k + 1)) marks)
    ⟨List.length_replicate, fun k hk => .inl ⟨fun i hi => absurd hi (Nat.not_lt_zero i),
      List.getElem?_replicate_of_lt hk⟩⟩
    (fun m hm marks hmarks => by
      have hf := List.getElem?_eq_getElem hm
      have hmem := List.mem_of_getElem? hf
      rw [numberAt_start hf, numberAt_stop hf]
      obtain ⟨marks', hmarks', hnext⟩ := hmarks.mask (hs.first _ hmem) (hs.last _ hmem)
      refine ⟨marks', hmarks', hnext.congr fun k => ⟨fun hno i hi f hfi => ?_, fun hno => ⟨?_, ?_⟩⟩⟩
      · rcases Nat.eq_or_lt_of_le (Nat.lt_succ_iff.mp hi) with rfl | hi
        · rw [hf] at hfi
          exact Option.some.inj hfi ▸ hno.1
        · exact hno.2 i hi f hfi
      · exact hno m (Nat.lt_succ_self m) _ hf
      · exact fun i hi => hno i (Nat.lt_succ_of_lt hi))
  have hbase : Written lines.length (fun k => (∀ f ∈ fs, ¬ f.Has (k + 1)) ∨
      ∃ f ∈ fs, f.name.field ∈ ([] : List Field) ∧ f.Has (k + 1)) masked := by
    refine hwritten.congr fun k => ⟨fun hno => .inl fun f hf => ?_, ?_⟩
    · obtain ⟨i, hi⟩ := List.mem_iff_getElem?.mp hf
      exact hno i (List.getElem?_eq_some_iff.mp hi).1 f hi
    · rintro (hno | ⟨f, -, hmem, -⟩)
      · exact fun i _ f hf => hno f (List.mem_of_getElem? hf)
      · cases hmem
  obtain ⟨marks, hmarks, hresult⟩ := foldlM_invariant (l := l) (b := masked)
    (f := fun (l : List ℤ) dependency => do
      let index ← (functionList fs).idxOf? dependency
      markLines 0 (← numberAt (functionList fs) (index + 1))
        (← numberAt (functionList fs) (index + 2)) l)
    (P := fun done marks => Written lines.length (fun k => (∀ f ∈ fs, ¬ f.Has (k + 1)) ∨
      ∃ f ∈ fs, f.name.field ∈ done ∧ f.Has (k + 1)) marks)
    hbase
    (fun done a marks ha hmarks => by
      obtain ⟨f, hf, rfl⟩ := hl a ha
      obtain ⟨i, hi⟩ := List.mem_iff_getElem?.mp hf
      rw [functionList_idxOf? hs.names hi]
      obtain ⟨marks', hmarks', hnext⟩ := hmarks.unmask (hs.first f hf) (hs.last f hf)
      refine ⟨marks', ?_, hnext.congr fun k => ?_⟩
      · change (numberAt (functionList fs) (4 * i + 2)).bind (fun start =>
          (numberAt (functionList fs) (4 * i + 3)).bind fun stop =>
            markLines 0 start stop marks) = _
        rw [numberAt_start hi, numberAt_stop hi]
        exact hmarks'
      · rw [or_assoc]
        refine or_congr_right ⟨?_, ?_⟩
        · rintro (⟨g, hg, hdone, hhas⟩ | hhas)
          · exact ⟨g, hg, List.mem_append_left _ hdone, hhas⟩
          · exact ⟨f, hf, List.mem_append_right _ List.mem_cons_self, hhas⟩
        · rintro ⟨g, hg, hmem, hhas⟩
          rcases List.mem_append.mp hmem with hdone | hlast
          · exact .inl ⟨g, hg, hdone, hhas⟩
          · have hname := field_inj (List.mem_singleton.mp hlast)
            obtain ⟨j, hj⟩ := List.mem_iff_getElem?.mp hg
            rw [getElem?_inj_name hs.names hj hi hname, hi] at hj
            exact .inr (Option.some.inj hj ▸ hhas))
  refine ⟨marks, ?_, hresult⟩
  rw [getFunctionRange, hcount]
  exact (congrArg (Option.bind · _) hmasked).trans hmarks

end Writing

structure Slice (lines : List Line) (fs : List Listed) (f : Listed) (t : Table)
    (dependencies : List Field) (marks : List ℤ) : Prop where
  table : figureInitialDependencies lines (functionList fs) fs.length (labelled fs) (fs.length + 1)
    (fs.length + 1) = some t
  search : figureAllDependencies t f.name.field (fs.length + 1) (fs.length + 1) = some dependencies
  range : getFunctionRange dependencies (functionList fs) lines = some marks
  edges : ∀ g ∈ fs, ∀ h ∈ fs, t.Edge g.name.field h.name.field ↔ Depends lines g h
  nodup : dependencies.Nodup
  reachable : ∀ a, a ∈ dependencies ↔ ReflTransGen t.Edge f.name.field a
  length : marks.length = lines.length
  values : ∀ k < lines.length, marks[k]? = some 0 ∨ marks[k]? = some (-1)
  written : ∀ k < lines.length, marks[k]? = some 0 ↔ (∀ g ∈ fs, ¬ g.Has (k + 1)) ∨
    ∃ g ∈ fs, ReflTransGen t.Edge f.name.field g.name.field ∧ g.Has (k + 1)
  closed : ∀ g ∈ fs, g.name.field ∈ dependencies → ∀ k line, g.Has (k + 1) → lines[k]? = some line →
    ∀ h ∈ fs, line.Calls h.name → ∀ m, h.Has (m + 1) → marks[m]? = some 0

theorem source_slice_closed_under_calls (hs : Source lines fs) (hf : f ∈ fs) :
    ∃ t dependencies marks, Slice lines fs f t dependencies marks := by
  obtain ⟨t, htable, hfilled⟩ := figureInitialDependencies_spec hs
  obtain ⟨l, hsearch, hnodup, hreachable⟩ := hfilled.figureAllDependencies hs.names hf
  obtain ⟨marks, hrange, hwritten⟩ := getFunctionRange_spec hs fun a ha =>
    hfilled.reached_label hf ((hreachable a).mp ha)
  have hedges : ∀ g ∈ fs, ∀ h ∈ fs, t.Edge g.name.field h.name.field ↔ Depends lines g h := by
    intro g hg h hh
    obtain ⟨i, hi⟩ := List.mem_iff_getElem?.mp hg
    obtain ⟨j, hj⟩ := List.mem_iff_getElem?.mp hh
    rw [hfilled.edge_iff hs.names hi hj]
    constructor
    · rintro ⟨-, g', h', hi', hj', hdepends⟩
      rw [hi] at hi'
      rw [hj] at hj'
      cases hi'
      cases hj'
      exact hdepends
    · exact fun hdepends => ⟨(List.getElem?_eq_some_iff.mp hi).1, g, h, hi, hj, hdepends⟩
  have hzero : ∀ k < lines.length, marks[k]? = some 0 ↔ (∀ g ∈ fs, ¬ g.Has (k + 1)) ∨
      ∃ g ∈ fs, g.name.field ∈ l ∧ g.Has (k + 1) := by
    intro k hk
    rcases hwritten.marked k hk with ⟨hW, hmark⟩ | ⟨hW, hmark⟩
    · exact iff_of_true hmark hW
    · refine iff_of_false (fun heq => ?_) hW
      rw [hmark] at heq
      cases heq
  refine ⟨t, l, marks, htable, hsearch, hrange, hedges, hnodup, hreachable, hwritten.length,
    fun k hk => (hwritten.marked k hk).imp And.right And.right, fun k hk => ?_, ?_⟩
  · simp only [hzero k hk, hreachable]
  · intro g hg hmem k line hhas hline h hh hcalls m hm
    have hlast := hs.last h hh
    have hstop := hm.2
    refine (hzero m (by omega)).mpr (.inr ⟨h, hh, (hreachable _).mpr ?_, hm⟩)
    exact ((hreachable _).mp hmem).tail
      ((hedges g hg h hh).mpr (.inr ⟨k, line, hhas, hline, hcalls⟩))

-- `f` calls `g` and the other way round; `h` is left out
theorem source_slice_of_mutual_recursion :
    let f : Listed := ⟨['1'], ⟨['f'], rfl⟩, 2, 3⟩
    let g : Listed := ⟨['2'], ⟨['g'], rfl⟩, 4, 4⟩
    let h : Listed := ⟨['3'], ⟨['h'], rfl⟩, 5, 5⟩
    ∃ t dependencies marks, Slice [[';'], ['f', '(', ')', '{'], ['g', ' ', '(', ')', '}'],
      ['g', '(', ')', '{', 'f', '(', ')', '}'],
      ['h', '(', ')', '{', '}']] [f, g, h] f t dependencies
      marks :=
  source_slice_closed_under_calls ⟨by decide, by decide, by decide⟩ List.mem_cons_self

end Hthreads.Compiler
