import Hthreads.Compiler.Comments

/-! What the removal of comments makes of every line, in closed form. -/

namespace Hthreads.Compiler

open Library Pattern

def carries : Bool → Line → Bool
  | true, line => !closeMark.search line
  | false, line => openMark.search (cutLine [] line) && !closeMark.search (cutLine [] line)

/-- The text of a line that is kept, by where the marks of the comments stand in it. -/
def keeps : Bool → Line → Line
  | true, line =>
    match closeMark.findLast line with
    | none => []
    | some m => cutLine [] (ltrim m.2)
  | false, line =>
    match openMark.find (cutLine [] line) with
    | none => cutLine [] line
    | some m =>
      if closeMark.search (cutLine [] line) then
        match aroundComments (cutLine [] line) with
        | none => cutLine [] line
        | some k => cutLine [] (rtrim k.1 ++ ltrim k.2)
      else m.1

/-- The newline of a line is lost: outside of a comment, the line has both kinds of comments, or
there is text before the comment and none behind it. -/
def loses (line : Line) : Bool :=
  openMark.search (cutLine [] line) &&
    if closeMark.search (cutLine [] line) then
      match aroundComments (cutLine [] line) with
      | none => lineMark.search line
      | some k => !(rtrim k.1 ++ ltrim k.2).isEmpty && !lineMark.search (rtrim k.1 ++ ltrim k.2) &&
          (lineMark.search line || (ltrim k.2).isEmpty)
    else lineMark.search line

/-- The text outside of the comments of every line is what is kept of it, and no newline is lost;
`inside` is whether a comment goes on, `again` whether the removal takes it so. -/
def Regular : Bool → Bool → List Line → Prop
  | _, _, [] => True
  | inside, again, line :: lines => (visible (outside inside line).1 = visible (keeps again line) ∧
      (again = false → loses line = false)) ∧
        Regular (outside inside line).2 (carries again line) lines

variable {s t line new : Line} {m : Line × Line}

section Visible

lemma visible_append (s t : Line) : visible (s ++ t) = visible s ++ visible t :=
  List.filter_append ..

lemma visible_newline (s : Line) : visible (s ++ ['\n']) = visible s :=
  (visible_append s _).trans (List.append_nil _)

lemma visible_of_space (h : ∀ c ∈ s, isSpace c = true) : visible s = [] :=
  List.filter_eq_nil_iff.mpr fun c hc => by simp [h c hc]

lemma visible_rtrim (s : Line) : visible (rtrim s) = visible s := by
  conv_rhs => rw [← List.rdropWhile_append_rtakeWhile (p := isSpace) (l := s)]
  rw [visible_append, visible_of_space fun c hc => List.mem_rtakeWhile_imp hc, List.append_nil]

lemma visible_ltrim (s : Line) : visible (ltrim s) = visible s := by
  conv_rhs => rw [← List.takeWhile_append_dropWhile (p := isSpace) (l := s)]
  rw [visible_append, visible_of_space fun c hc => List.mem_takeWhile_imp hc, List.nil_append]

lemma visible_cutLine (s : Line) : visible (cutLine ['\n'] s) = visible (cutLine [] s) := by
  rw [cutLine, cutLine]
  cases lineMark.find s with
  | none => rfl
  | some m =>
    dsimp only
    rw [visible_newline, List.append_nil]

end Visible

section Newlines

lemma endsInNewline_append (h : '\n' ∉ s) : EndsInNewline (s ++ ['\n']) := by
  refine ⟨List.getLast?_concat .., ?_⟩
  rwa [List.dropLast_concat]

lemma not_endsInNewline (h : '\n' ∉ s) : ¬ EndsInNewline s := fun hs =>
  h (List.mem_of_getLast? hs.1)

lemma EndsInNewline.oneLine (h : EndsInNewline s) : OneLine s := h.2

lemma EndsInNewline.suffix (h : EndsInNewline s) (ht : t <:+ s) (hne : t ≠ []) :
    EndsInNewline t := by
  refine ⟨?_, h.oneLine.suffix ht⟩
  obtain ⟨u, rfl⟩ := ht
  rw [← h.1, List.getLast?_append_of_ne_nil _ hne]

lemma OneLine.before (h : OneLine (s ++ t)) (ht : t ≠ []) : '\n' ∉ s := by
  rw [OneLine, List.dropLast_append_of_ne_nil ht] at h
  exact fun hs => h (List.mem_append_left _ hs)

lemma not_mem_rtrim (h : '\n' ∉ s) : '\n' ∉ rtrim s := fun hs =>
  h ((List.rdropWhile_prefix isSpace s).subset hs)

lemma EndsInNewline.behind (h : EndsInNewline (s ++ (t ++ new))) (hne : t ≠ []) (ht : '\n' ∉ t) :
    EndsInNewline new := by
  refine h.suffix ⟨s ++ t, List.append_assoc _ _ _⟩ ?_
  rintro rfl
  have hlast := h.1
  rw [List.append_nil, List.getLast?_append_of_ne_nil _ hne] at hlast
  exact ht (List.mem_of_getLast? hlast)

end Newlines

section Cutting

lemma lineMark_find_cutLine (s : Line) : lineMark.find (cutLine [] s) = none := by
  rw [cutLine]
  cases hfind : lineMark.find s with
  | none => exact hfind
  | some m =>
    dsimp only
    rw [List.append_nil]
    exact find_literal_before hfind (List.rdropWhile_prefix isSpace m.1) (List.cons_ne_nil _ _)

lemma cutLine_of_none (h : lineMark.find s = none) : cutLine new s = s := by
  rw [cutLine, h]

lemma cutLine_of_not_search (h : lineMark.search s = false) : cutLine new s = s := by
  refine cutLine_of_none (Option.not_isSome_iff_eq_none.mp ?_)
  rw [← search, h]
  exact Bool.false_ne_true

lemma cutLine_cutLine (s : Line) : cutLine new (cutLine [] s) = cutLine [] s :=
  cutLine_of_none (lineMark_find_cutLine s)

lemma cutLine_eq_iff (s : Line) : s = cutLine [] s ↔ lineMark.search s = false := by
  rw [cutLine, search]
  cases hfind : lineMark.find s with
  | none => exact iff_of_true rfl rfl
  | some m =>
    refine iff_of_false (fun heq => ?_) (by simp)
    have hlength := congrArg List.length heq
    have hwhole := congrArg List.length (find_literal hfind)
    have hle : (rtrim m.1).length ≤ m.1.length := (List.rdropWhile_prefix isSpace m.1).length_le
    simp only [List.append_nil, List.length_append] at hlength hwhole
    rw [hlength] at hwhole
    have : (['/', '/'] : Line).length = 2 := rfl
    omega

lemma not_mem_cutLine (h : OneLine s) (hmark : lineMark.search s = true) : '\n' ∉ cutLine [] s := by
  obtain ⟨m, hm⟩ := Option.isSome_iff_exists.mp hmark
  rw [cutLine, hm]
  dsimp only
  rw [List.append_nil]
  refine not_mem_rtrim (OneLine.before (t := ['/', '/'] ++ m.2) ?_ (List.cons_ne_nil _ _))
  rw [← find_literal hm]
  exact h

lemma oneLine_cutLine (h : OneLine s) : OneLine (cutLine [] s) := by
  cases hmark : lineMark.search s with
  | true => exact fun hmem => not_mem_cutLine h hmark (List.dropLast_subset _ hmem)
  | false => rwa [← (cutLine_eq_iff s).mpr hmark]

lemma endsInNewline_cutLine (h : OneLine s) (hs : lineMark.search s = true ∨ EndsInNewline s) :
    EndsInNewline (cutLine ['\n'] s) := by
  rw [cutLine]
  cases hfind : lineMark.find s with
  | none =>
    rw [search, hfind] at hs
    exact hs.resolve_left (by simp)
  | some m =>
    refine endsInNewline_append (not_mem_rtrim (OneLine.before (t := ['/', '/'] ++ m.2) ?_
      (List.cons_ne_nil _ _)))
    rw [← find_literal hfind]
    exact h

end Cutting

section Steps

/-- What a line outside of a comment becomes, when it has a beginning of one. -/
def opened (line : Line) (m : Line × Line) : Line :=
  if closeMark.search (cutLine [] line) then
    match aroundComments (cutLine [] line) with
    | none => cutLine [] line
    | some k =>
      if (rtrim k.1 ++ ltrim k.2).isEmpty then ['\n'] else cutLine ['\n'] (rtrim k.1 ++ ltrim k.2)
  else rtrim m.1 ++ m.2.dropWhile inLine

def removed : Bool → Line → Line
  | true, line =>
    match closeMark.findLast line with
    | none => ['\n']
    | some m => if (ltrim m.2).isEmpty then ['\n'] else cutLine ['\n'] (ltrim m.2)
  | false, line =>
    match openMark.find (cutLine [] line) with
    | none => if lineMark.search line then cutLine [] line ++ ['\n'] else line
    | some m => opened line m

lemma around_eq (hm : aroundComments s = some m) :
    ∃ comment, s = m.1 ++ comment ++ (['*', '/'] ++ m.2) := by
  obtain ⟨k, hk, hm⟩ := Option.bind_eq_some_iff.mp hm
  obtain ⟨l, hl, rfl⟩ := Option.map_eq_some_iff.mp hm
  refine ⟨['/', '*'] ++ l.1, ?_⟩
  rw [find_literal hk, (findLast_literal hl).1, List.append_assoc, List.append_assoc]

lemma oneLine_around (h : OneLine s) (hm : aroundComments s = some m) :
    OneLine (rtrim m.1 ++ ltrim m.2) ∧ '\n' ∉ m.1 := by
  obtain ⟨comment, rfl⟩ := around_eq hm
  have hrest : OneLine (ltrim m.2) := by
    refine (h.suffix ?_).suffix (List.dropWhile_suffix isSpace)
    exact ⟨m.1 ++ comment ++ ['*', '/'], by simp⟩
  rw [List.append_assoc] at h
  have hbefore := h.before (by simp)
  refine ⟨fun hmem => ?_, hbefore⟩
  by_cases hnil : ltrim m.2 = []
  · rw [hnil, List.append_nil] at hmem
    exact not_mem_rtrim hbefore (List.dropLast_subset _ hmem)
  · rw [List.dropLast_append_of_ne_nil hnil] at hmem
    rcases List.mem_append.mp hmem with hmem | hmem
    · exact not_mem_rtrim hbefore hmem
    · exact hrest hmem

lemma removeStep_inside (news : List Line) (h : OneLine line) :
    removeStep (news, true) line = (news ++ [removed true line], carries true line) := by
  rw [removeStep]
  dsimp only
  rw [if_pos rfl, endMultiCommentRegex_search, removed, carries, closeMark_search]
  cases hlast : closeMark.findLast line with
  | none => rfl
  | some m =>
    have hsub := endMultiCommentRegex_sub h
    rw [hlast] at hsub
    have hm := (findLast_literal hlast).1
    have hone : OneLine (ltrim m.2) := by
      refine (h.suffix ?_).suffix (List.dropWhile_suffix isSpace)
      exact ⟨m.1 ++ ['*', '/'], by rw [hm]; simp⟩
    rw [hsub, singleCommentRegex_sub hone]
    simp only [Option.isSome_some, if_true, List.isEmpty_iff, List.length_eq_zero_iff,
      Bool.not_true]

lemma removeStep_outside (news : List Line) (h : OneLine line) :
    removeStep (news, false) line = (news ++ [removed false line], carries false line) := by
  have hone := oneLine_cutLine h
  have hsearch : openMark.search (cutLine [] line) = (openMark.find (cutLine [] line)).isSome := rfl
  rw [removeStep]
  dsimp only
  rw [if_neg Bool.false_ne_true, singleCommentRegex_sub h, multiCommentRegex_search,
    endMultiCommentRegex_search, removed, carries, hsearch]
  cases hopen : openMark.find (cutLine [] line) with
  | none =>
    simp only [Option.isSome_none, Bool.false_and, ne_eq, cutLine_eq_iff, Bool.false_eq_true,
      if_false, Bool.not_eq_false]
    cases hmark : lineMark.search line with
    | true => rfl
    | false => rw [← (cutLine_eq_iff line).mpr hmark]; rfl
  | some m =>
    dsimp only
    rw [opened, Option.isSome_some, if_pos rfl, Bool.true_and]
    cases hclose : closeMark.search (cutLine [] line) with
    | true =>
      rw [removeRegex_sub hone]
      cases haround : aroundComments (cutLine [] line) with
      | none =>
        have hne : (cutLine [] line).length ≠ 0 := by
          rw [Ne, List.length_eq_zero_iff]
          intro hnil
          rw [hnil] at hopen
          cases hopen
        rw [if_pos rfl, if_pos rfl, if_neg hne, singleCommentRegex_sub hone, cutLine_cutLine]
        rfl
      | some k =>
        rw [if_pos rfl, if_pos rfl]
        dsimp only
        rw [singleCommentRegex_sub (oneLine_around hone haround).1]
        simp only [List.isEmpty_iff, List.length_eq_zero_iff, Bool.not_true]
    | false =>
      have hsub := multiCommentRegex_sub hone
      rw [hopen] at hsub
      rw [hsub]
      rfl

def removedFrom : Bool → List Line → List Line
  | _, [] => []
  | again, line :: lines => removed again line :: removedFrom (carries again line) lines

lemma removeComments_eq {lines : List Line} (h : ∀ line ∈ lines, OneLine line) :
    removeComments lines = removedFrom false lines := by
  suffices hfold : ∀ again news, (lines.foldl removeStep (news, again)).1 =
      news ++ removedFrom again lines from hfold false []
  induction lines with
  | nil => exact fun again news => (List.append_nil news).symm
  | cons line lines ih =>
    intro again news
    have hline := h line List.mem_cons_self
    have hstep : removeStep (news, again) line =
        (news ++ [removed again line], carries again line) := by
      cases again with
      | true => exact removeStep_inside news hline
      | false => exact removeStep_outside news hline
    rw [List.foldl_cons, hstep, ih fun t ht => h t (List.mem_cons_of_mem _ ht), List.append_assoc]
    rfl

end Steps

section Verdicts

lemma removed_inside (h : EndsInNewline line) : EndsInNewline (removed true line) ∧
    visible (removed true line) = visible (keeps true line) := by
  rw [removed, keeps]
  cases hlast : closeMark.findLast line with
  | none => exact ⟨endsInNewline_append List.not_mem_nil, rfl⟩
  | some m =>
    have hm := (findLast_literal hlast).1
    have hsuffix : ltrim m.2 <:+ line := by
      refine (List.dropWhile_suffix isSpace).trans ⟨m.1 ++ ['*', '/'], ?_⟩
      rw [hm]
      simp
    dsimp only
    by_cases hnil : ltrim m.2 = []
    · rw [hnil]
      exact ⟨endsInNewline_append List.not_mem_nil, rfl⟩
    · rw [if_neg (by simpa using hnil)]
      exact ⟨endsInNewline_cutLine (h.oneLine.suffix hsuffix) (.inr (h.suffix hsuffix hnil)),
        visible_cutLine _⟩

lemma visible_opened (h : OneLine line) (hm : openMark.find (cutLine [] line) = some m) :
    visible (opened line m) = visible (keeps false line) := by
  rw [opened, keeps, hm]
  dsimp only
  split
  · cases aroundComments (cutLine [] line) with
    | none => rfl
    | some k =>
      dsimp only
      split
      next hnil =>
        rw [List.isEmpty_iff.mp hnil]
        rfl
      next => exact visible_cutLine _
  · have hone : OneLine m.2 := by
      refine (oneLine_cutLine h).suffix ⟨m.1 ++ ['/', '*'], ?_⟩
      rw [find_literal hm]
      simp
    rw [visible_append, visible_rtrim]
    rcases hone.dropWhile with heq | heq
    · rw [heq]
      exact List.append_nil _
    · rw [heq]
      exact List.append_nil _

lemma not_endsInNewline_opened (h : OneLine line) (hmark : lineMark.search line = true)
    (hm : openMark.find (cutLine [] line) = some m) :
    EndsInNewline (opened line m) ↔ loses line = false := by
  have hno := not_mem_cutLine h hmark
  have hopen : openMark.search (cutLine [] line) = true := by rw [search, hm]; rfl
  rw [opened, loses, hopen, Bool.true_and, hmark]
  cases hclose : closeMark.search (cutLine [] line) with
  | false =>
    refine iff_of_false (not_endsInNewline fun hmem => ?_) (by simp)
    rw [find_literal hm] at hno
    rcases List.mem_append.mp hmem with hmem | hmem
    · exact hno (List.mem_append_left _ ((List.rdropWhile_prefix isSpace m.1).subset hmem))
    · exact hno (List.mem_append_right _ (List.mem_append_right _
        ((List.dropWhile_suffix inLine).subset hmem)))
  | true =>
    rw [if_pos rfl, if_pos rfl]
    cases haround : aroundComments (cutLine [] line) with
    | none => exact iff_of_false (not_endsInNewline hno) (by simp)
    | some k =>
      obtain ⟨hone, -⟩ := oneLine_around (oneLine_cutLine h) haround
      obtain ⟨comment, hcode⟩ := around_eq haround
      have hjoined : '\n' ∉ rtrim k.1 ++ ltrim k.2 := by
        intro hmem
        rw [hcode] at hno
        rcases List.mem_append.mp hmem with hmem | hmem
        · exact hno (List.mem_append_left _ (List.mem_append_left _
            ((List.rdropWhile_prefix isSpace k.1).subset hmem)))
        · exact hno (List.mem_append_right _ (List.mem_append_right _
            ((List.dropWhile_suffix isSpace).subset hmem)))
      dsimp only
      rw [Bool.true_or, Bool.and_true]
      cases hempty : (rtrim k.1 ++ ltrim k.2).isEmpty with
      | true => exact iff_of_true (endsInNewline_append List.not_mem_nil) rfl
      | false =>
        cases hsearch : lineMark.search (rtrim k.1 ++ ltrim k.2) with
        | true => exact iff_of_true (endsInNewline_cutLine hone (.inl hsearch)) rfl
        | false =>
          rw [if_neg Bool.false_ne_true, cutLine_of_not_search hsearch]
          exact iff_of_false (not_endsInNewline hjoined) (by simp)

lemma endsInNewline_opened (h : EndsInNewline line) (hmark : lineMark.search line = false)
    (hm : openMark.find (cutLine [] line) = some m) :
    EndsInNewline (opened line m) ↔ loses line = false := by
  have hopen : openMark.search (cutLine [] line) = true := by rw [search, hm]; rfl
  rw [opened, loses, hopen, Bool.true_and, hmark]
  rw [← (cutLine_eq_iff line).mpr hmark] at hm ⊢
  cases hclose : closeMark.search line with
  | false =>
    refine iff_of_true ?_ rfl
    have hline := find_literal hm
    have hbefore : '\n' ∉ m.1 := OneLine.before (hline ▸ h.oneLine) (by simp)
    have hrest : EndsInNewline m.2 := EndsInNewline.behind (hline ▸ h) (by simp) (by decide)
    have htail : m.2.dropWhile inLine = ['\n'] := by
      refine hrest.oneLine.dropWhile.resolve_left fun hnil => ?_
      have := List.dropWhile_eq_nil_iff.mp hnil _ (List.mem_of_getLast? hrest.1)
      cases this
    rw [if_neg Bool.false_ne_true, htail]
    exact endsInNewline_append (not_mem_rtrim hbefore)
  | true =>
    rw [if_pos rfl, if_pos rfl]
    cases haround : aroundComments line with
    | none => exact iff_of_true h rfl
    | some k =>
      obtain ⟨hone, hbefore⟩ := oneLine_around h.oneLine haround
      obtain ⟨comment, hline⟩ := around_eq haround
      have hrest : EndsInNewline k.2 := EndsInNewline.behind (hline ▸ h) (by simp) (by decide)
      dsimp only
      rw [Bool.false_or]
      cases hempty : (rtrim k.1 ++ ltrim k.2).isEmpty with
      | true => exact iff_of_true (endsInNewline_append List.not_mem_nil) rfl
      | false =>
        cases hsearch : lineMark.search (rtrim k.1 ++ ltrim k.2) with
        | true => exact iff_of_true (endsInNewline_cutLine hone (.inl hsearch)) rfl
        | false =>
          rw [if_neg Bool.false_ne_true, cutLine_of_not_search hsearch]
          cases hblank : (ltrim k.2).isEmpty with
          | true =>
            rw [List.isEmpty_iff.mp hblank, List.append_nil]
            exact iff_of_false (not_endsInNewline (not_mem_rtrim hbefore)) (by simp)
          | false =>
            have hne : ltrim k.2 ≠ [] := by simpa using hblank
            refine iff_of_true ⟨?_, hone⟩ rfl
            rw [List.getLast?_append_of_ne_nil _ hne]
            exact (hrest.suffix (List.dropWhile_suffix isSpace) hne).1

lemma removed_outside (h : EndsInNewline line) :
    (EndsInNewline (removed false line) ↔ loses line = false) ∧
      visible (removed false line) = visible (keeps false line) := by
  cases hm : openMark.find (cutLine [] line) with
  | none =>
    have hsearch : openMark.search (cutLine [] line) = false := by rw [search, hm]; rfl
    rw [removed, keeps, loses, hm, hsearch]
    cases hmark : lineMark.search line with
    | true =>
      exact ⟨iff_of_true (endsInNewline_append (not_mem_cutLine h.oneLine hmark)) rfl,
        visible_newline _⟩
    | false =>
      rw [← (cutLine_eq_iff line).mpr hmark]
      exact ⟨iff_of_true h rfl, rfl⟩
  | some m =>
    have hopened : removed false line = opened line m := by rw [removed, hm]
    rw [hopened]
    refine ⟨?_, visible_opened h.oneLine hm⟩
    cases hmark : lineMark.search line with
    | true => exact not_endsInNewline_opened h.oneLine hmark hm
    | false => exact endsInNewline_opened h hmark hm

lemma removed_spec (again : Bool) (h : EndsInNewline line) :
    (EndsInNewline (removed again line) ↔ (again = false → loses line = false)) ∧
      visible (removed again line) = visible (keeps again line) := by
  cases again with
  | true =>
    obtain ⟨hends, hvisible⟩ := removed_inside h
    exact ⟨iff_of_true hends fun heq => (nomatch heq), hvisible⟩
  | false =>
    obtain ⟨hends, hvisible⟩ := removed_outside h
    exact ⟨hends.trans ⟨fun h _ => h, fun h => h rfl⟩, hvisible⟩

lemma preserved_removedFrom {lines : List Line} (h : ∀ line ∈ lines, EndsInNewline line)
    (inside again : Bool) : Preserved inside lines (removedFrom again lines) ↔
      Regular inside again lines := by
  induction lines generalizing inside again with
  | nil => exact Iff.rfl
  | cons line lines ih =>
    obtain ⟨hends, hvisible⟩ := removed_spec again (h line List.mem_cons_self)
    rw [removedFrom, Preserved, Regular, ih fun t ht => h t (List.mem_cons_of_mem _ ht), hends,
      hvisible, and_comm (a := visible _ = _), eq_comm (a := visible (keeps again line))]

lemma preserved_removeComments_iff {lines : List Line} (h : ∀ line ∈ lines, EndsInNewline line) :
    Preserved false lines (removeComments lines) ↔ Regular false false lines := by
  rw [removeComments_eq fun line hline => (h line hline).oneLine]
  exact preserved_removedFrom h false false

end Verdicts

end Hthreads.Compiler
