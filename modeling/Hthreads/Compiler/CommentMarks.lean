import Hthreads.Compiler.CommentLines

/-! Where the marks of the comments may stand for their removal to keep the code and the lines. -/

namespace Hthreads.Compiler

open Library Pattern

/-- From inside a comment or behind one on there are only comments and white space, and the last
comment ends. -/
def commentsOnly : Bool → Line → Bool
  | inside, [] => !inside
  | false, '/' :: '*' :: s => commentsOnly true s
  | true, '*' :: '/' :: s => commentsOnly false s
  | false, c :: s => isSpace c && commentsOnly false s
  | true, _ :: s => commentsOnly true s

/-- What stands before and behind the comments of a line can be put together: all of it is white
space, or else there is no mark of a comment to the end of the line, none comes about where the two
meet, and the text behind the comments, if there is text before them, is not only the newline. -/
abbrev Meets (line before behind : Line) : Prop :=
  if lineMark.search line then visible before = [] ∧ visible behind = []
  else (visible before = [] ∨ visible behind ≠ []) ∧
    lineMark.search (rtrim before ++ ltrim behind) = false

/-- A line that begins inside of a comment: up to its last `*/` there are only comments, and no
other one begins behind that. -/
abbrev MarkedInside (line : Line) : Prop :=
  ∀ k ∈ closeMark.findLast line,
    commentsOnly true (k.1 ++ ['*', '/']) = true ∧ openMark.find (cutLine [] k.2) = none

/-- A line that begins outside: a comment that does not end in it is its only one, and has no `//`;
else there are only comments from the first `/*` up to the last `*/`, and no other one begins behind
that. -/
abbrev MarkedOutside (line : Line) : Prop :=
  ∀ m ∈ openMark.find (cutLine [] line),
    (closeMark.findLast m.2 = none →
      closeMark.search (cutLine [] line) = false ∧ lineMark.search line = false) ∧
    ∀ k ∈ closeMark.findLast m.2, commentsOnly true (k.1 ++ ['*', '/']) = true ∧
      openMark.find k.2 = none ∧ Meets line m.1 k.2

def LineMarked : Bool → Line → Prop
  | true, line => MarkedInside line
  | false, line => MarkedOutside line

/-- The marks of all lines; `inside` is whether a comment goes on before the first of them. -/
def MarkedLines : Bool → List Line → Prop
  | _, [] => True
  | inside, line :: lines => LineMarked inside line ∧ MarkedLines (outside inside line).2 lines

/-- There is at most one end of a comment in the line. -/
def OneClose (line : Line) : Prop := ∀ m ∈ closeMark.find line, closeMark.find m.2 = none

instance decidableLineMarked : ∀ inside line, Decidable (LineMarked inside line)
  | true, line => inferInstanceAs (Decidable (MarkedInside line))
  | false, line => inferInstanceAs (Decidable (MarkedOutside line))

instance decidableMarkedLines : ∀ inside lines, Decidable (MarkedLines inside lines)
  | _, [] => isTrue trivial
  | inside, line :: lines =>
    have := decidableMarkedLines (outside inside line).2 lines
    inferInstanceAs (Decidable (LineMarked inside line ∧ MarkedLines _ lines))

def uncommented (s : Line) : Line × Line :=
  match lineMark.find s with
  | none => (s, [])
  | some m => (m.1, ['/', '/'] ++ m.2)

section Scanning

variable {s v spaces rest : Line} {m : Line × Line} {c : Char}

lemma uncommented_append (s : Line) : (uncommented s).1 ++ (uncommented s).2 = s := by
  rw [uncommented]
  cases hfind : lineMark.find s with
  | none => exact List.append_nil s
  | some m => exact (find_literal hfind).symm

lemma uncommented_cons (h : lineMark.behind (c :: s) = none) :
    uncommented (c :: s) = (c :: (uncommented s).1, (uncommented s).2) := by
  rw [uncommented, uncommented, find_cons, h, Option.map_none, Option.none_or]
  cases lineMark.find s <;> rfl

lemma uncommented_suffix {u : Line} (h : uncommented (u ++ s) = (u ++ v, rest)) :
    uncommented s = (v, rest) := by
  induction u with
  | nil => exact h
  | cons c u ih =>
    have hbehind : lineMark.behind (c :: (u ++ s)) = none := by
      refine Option.eq_none_iff_forall_ne_some.mpr fun r hr => ?_
      have hfind : lineMark.find (c :: (u ++ s)) = some ([], r) := by rw [find_cons, hr]; rfl
      rw [List.cons_append, uncommented, hfind] at h
      cases h
    rw [List.cons_append, uncommented_cons hbehind, List.cons_append] at h
    obtain ⟨hbefore, hrest⟩ := Prod.mk.inj h
    exact ih (Prod.ext (List.cons.inj hbefore).2 hrest)

lemma uncommented_eq (line : Line) : ∃ spaces rest, (∀ c ∈ spaces, isSpace c = true) ∧
    uncommented line = (cutLine [] line ++ spaces, rest) ∧
    (lineMark.search line = false → spaces = [] ∧ rest = []) := by
  rw [uncommented, cutLine, search]
  cases lineMark.find line with
  | none =>
    refine ⟨[], [], fun c hc => absurd hc List.not_mem_nil, ?_, fun _ => ⟨rfl, rfl⟩⟩
    rw [List.append_nil]
  | some m =>
    refine ⟨m.1.rtakeWhile isSpace, ['/', '/'] ++ m.2, fun c hc => List.mem_rtakeWhile_imp hc, ?_,
      fun h => Bool.noConfusion h⟩
    dsimp only
    rw [List.append_nil, List.rdropWhile_append_rtakeWhile]

lemma visible_uncommented (s : Line) : visible (uncommented s).1 = visible (cutLine [] s) := by
  obtain ⟨spaces, rest, hspaces, h, -⟩ := uncommented_eq s
  rw [h, visible_append, visible_of_space hspaces, List.append_nil]

lemma visible_cutLine_ltrim (s : Line) :
    visible (cutLine [] (ltrim s)) = visible (cutLine [] s) := by
  induction s with
  | nil => rfl
  | cons c s ih =>
    by_cases hc : isSpace c = true
    · have hbehind : lineMark.behind (c :: s) = none := by
        refine Option.eq_none_iff_forall_ne_some.mpr fun r hr => ?_
        rw [(List.cons.inj (behind_literal hr)).1] at hc
        cases hc
      rw [ltrim, List.dropWhile_cons_of_pos hc, ih, ← visible_uncommented (c :: s),
        uncommented_cons hbehind, visible, visible, List.filter_cons_of_neg (by simp [hc])]
      exact (visible_uncommented s).symm
    · rw [ltrim, List.dropWhile_cons_of_neg hc]

lemma outside_inner (s : Line) : outside true s =
    match closeMark.find s with
    | none => ([], true)
    | some m => outside false m.2 := by
  induction s with
  | nil => rfl
  | cons c s ih =>
    by_cases hmark : ∃ r, c :: s = '*' :: '/' :: r
    · obtain ⟨r, hr⟩ := hmark
      rw [hr]
      rfl
    · have hbehind : closeMark.behind (c :: s) = none := by
        refine Option.eq_none_iff_forall_ne_some.mpr fun r hr => hmark ⟨r, behind_literal hr⟩
      rw [outside, ih, find_cons, hbehind]
      · cases closeMark.find s <;> rfl
      · rintro r rfl rfl
        exact hmark ⟨r, rfl⟩

lemma outside_outer (s : Line) : outside false s =
    match openMark.find (uncommented s).1 with
    | none => ((uncommented s).1, false)
    | some m => (m.1 ++ (outside true (m.2 ++ (uncommented s).2)).1,
        (outside true (m.2 ++ (uncommented s).2)).2) := by
  induction s with
  | nil => rfl
  | cons c s ih =>
    by_cases hmark : ∃ r, c :: s = '/' :: '/' :: r
    · obtain ⟨r, hr⟩ := hmark
      rw [hr]
      rfl
    have hline : lineMark.behind (c :: s) = none :=
      Option.eq_none_iff_forall_ne_some.mpr fun r hr => hmark ⟨r, behind_literal hr⟩
    rw [uncommented_cons hline]
    by_cases hopen : ∃ r, c :: s = '/' :: '*' :: r
    · obtain ⟨r, hr⟩ := hopen
      obtain ⟨rfl, rfl⟩ := List.cons.inj hr
      have hstar : lineMark.behind ('*' :: r) = none := rfl
      rw [uncommented_cons hstar]
      change outside true r = (outside true ((uncommented r).1 ++ (uncommented r).2))
      rw [uncommented_append]
    · have hbehind : openMark.behind (c :: (uncommented s).1) = none := by
        refine Option.eq_none_iff_forall_ne_some.mpr fun r hr => hopen ?_
        obtain ⟨rfl, hs⟩ := List.cons.inj (behind_literal hr)
        refine ⟨r ++ (uncommented s).2, ?_⟩
        conv_lhs => rw [← uncommented_append s, hs]
        rfl
      rw [outside, ih, find_cons, hbehind]
      · cases openMark.find (uncommented s).1 <;> rfl
      · rintro r rfl rfl
        exact hmark ⟨r, rfl⟩
      · rintro r rfl rfl
        exact hopen ⟨r, rfl⟩

lemma find_open_append (hspaces : ∀ c ∈ spaces, isSpace c = true) :
    openMark.find (v ++ spaces) = (openMark.find v).map fun m => (m.1, m.2 ++ spaces) := by
  refine find_literal_append_of_not_mem (List.cons_ne_nil _ _) fun c hc hmem => ?_
  have hspace := hspaces c hc
  rcases List.mem_cons.mp hmem with rfl | hmem
  · cases hspace
  · rw [List.mem_singleton.mp hmem] at hspace
    cases hspace

lemma outside_of_none (h : uncommented s = (v ++ spaces, rest))
    (hspaces : ∀ c ∈ spaces, isSpace c = true) (hopen : openMark.find v = none) :
    outside false s = (v ++ spaces, false) := by
  rw [outside_outer, h, find_open_append hspaces, hopen]
  rfl

lemma outside_of_some (h : uncommented s = (v ++ spaces, rest))
    (hspaces : ∀ c ∈ spaces, isSpace c = true) (hopen : openMark.find v = some m) :
    outside false s = (m.1 ++ (outside true (m.2 ++ (spaces ++ rest))).1,
      (outside true (m.2 ++ (spaces ++ rest))).2) := by
  rw [outside_outer, h, find_open_append hspaces, hopen, ← List.append_assoc]
  rfl

lemma outside_commentsOnly {inside : Bool} (h : commentsOnly inside s = true) (t : Line) :
    ∃ x, visible x = [] ∧
      outside inside (s ++ t) = (x ++ (outside false t).1, (outside false t).2) := by
  induction inside, s using commentsOnly.induct with
  | case1 inside =>
    cases inside with
    | false => exact ⟨[], rfl, rfl⟩
    | true => cases h
  | case2 s ih => exact ih h
  | case3 s ih => exact ih h
  | case4 c s hopen ih =>
    rw [commentsOnly, Bool.and_eq_true] at h
    · obtain ⟨hspace, h⟩ := h
      obtain ⟨x, hx, hout⟩ := ih h
      have hc : c ≠ '/' := by
        rintro rfl
        cases hspace
      refine ⟨c :: x, ?_, ?_⟩
      · rw [visible, List.filter_cons_of_neg (by simp [hspace])]
        exact hx
      · rw [List.cons_append, outside, hout]
        · rfl
        · exact fun r hc' => absurd hc' hc
        · exact fun r hc' => absurd hc' hc
    · exact hopen
  | case5 c s hclose ih =>
    rw [commentsOnly] at h
    · obtain ⟨x, hx, hout⟩ := ih h
      refine ⟨x, hx, ?_⟩
      rw [List.cons_append, outside, hout]
      rintro r rfl hr
      cases s with
      | nil => cases h
      | cons d s =>
        obtain ⟨rfl, -⟩ := List.cons.inj hr
        exact hclose s rfl rfl
    · exact hclose

lemma commentsOnly_single (h : closeMark.find s = none) :
    commentsOnly true (s ++ ['*', '/']) = true := by
  induction s with
  | nil => rfl
  | cons c s ih =>
    rw [find_cons, Option.or_eq_none_iff, Option.map_eq_none_iff, Option.map_eq_none_iff] at h
    rw [List.cons_append, commentsOnly, ih h.2]
    rintro r rfl hr
    cases s with
    | nil => cases hr
    | cons d s =>
      obtain ⟨rfl, -⟩ := List.cons.inj hr
      cases h.1

end Scanning

section Lines

variable {line s : Line} {m k : Line × Line}

lemma visible_eq_nil_iff : visible s = [] ↔ ∀ c ∈ s, isSpace c = true := by
  rw [visible, List.filter_eq_nil_iff]
  simp

lemma rtrim_eq_nil_iff : rtrim s = [] ↔ visible s = [] := by
  rw [visible_eq_nil_iff, rtrim, List.rdropWhile_eq_nil_iff]

lemma ltrim_eq_nil_iff : ltrim s = [] ↔ visible s = [] := by
  rw [visible_eq_nil_iff, ltrim, List.dropWhile_eq_nil_iff]

/-- What a line shows and carries on agrees with what the removal keeps and carries on. -/
structure Agrees (inside : Bool) (line : Line) : Prop where
  visible : visible (outside inside line).1 = visible (keeps inside line)
  newline : inside = false → loses line = false
  carries : (outside inside line).2 = carries inside line

lemma agrees_inside (h : MarkedInside line) : Agrees true line := by
  cases hlast : closeMark.findLast line with
  | none =>
    have hout : outside true line = ([], true) := by
      rw [outside_inner, findLast_eq_none_iff.mp hlast]
    refine ⟨?_, fun h => (nomatch h), ?_⟩
    · rw [hout, keeps, hlast]
    · rw [hout, carries, closeMark_search, hlast]
      rfl
  | some k =>
    obtain ⟨honly, hopen⟩ := h k hlast
    have hline : line = k.1 ++ ['*', '/'] ++ k.2 := by
      rw [List.append_assoc]
      exact (findLast_literal hlast).1
    obtain ⟨x, hx, hout⟩ := outside_commentsOnly honly k.2
    obtain ⟨spaces, rest, hspaces, hcut, -⟩ := uncommented_eq k.2
    rw [← hline, outside_of_none hcut hspaces hopen] at hout
    refine ⟨?_, fun h => (nomatch h), ?_⟩
    · rw [hout, keeps, hlast]
      dsimp only
      rw [visible_append, hx, List.nil_append, visible_append, visible_of_space hspaces,
        List.append_nil, visible_cutLine_ltrim]
    · rw [hout, carries, closeMark_search, hlast]
      rfl

lemma closeMark_search_of_suffix (hm : openMark.find s = some m)
    (hk : closeMark.findLast m.2 = some k) : closeMark.search s = true := by
  have hs := find_literal hm
  cases hfind : closeMark.find s with
  | some l => rw [search, hfind]; rfl
  | none =>
    have hnone := findLast_eq_none_iff.mpr (find_none_of_suffix hfind ⟨m.1 ++ ['/', '*'], by
      rw [List.append_assoc]; exact hs.symm⟩)
    rw [hnone] at hk
    cases hk

lemma aroundComments_of_some (hm : openMark.find s = some m)
    (hk : closeMark.findLast m.2 = some k) : aroundComments s = some (m.1, k.2) := by
  rw [aroundComments, hm, Option.bind_some, hk]
  rfl

lemma outside_around (hm : openMark.find (cutLine [] line) = some m)
    (hk : closeMark.findLast m.2 = some k) :
    ∃ spaces rest, (∀ c ∈ spaces, isSpace c = true) ∧
      (lineMark.search line = false → spaces = [] ∧ rest = []) ∧
      line = m.1 ++ ['/', '*'] ++ k.1 ++ (['*', '/'] ++ (k.2 ++ (spaces ++ rest))) ∧
      uncommented (k.2 ++ (spaces ++ rest)) = (k.2 ++ spaces, rest) ∧
      outside false line =
        (m.1 ++ (outside true (k.1 ++ ['*', '/'] ++ (k.2 ++ (spaces ++ rest)))).1,
        (outside true (k.1 ++ ['*', '/'] ++ (k.2 ++ (spaces ++ rest)))).2) := by
  obtain ⟨spaces, rest, hspaces, hcut, hnone⟩ := uncommented_eq line
  have hcode : cutLine [] line = m.1 ++ ['/', '*'] ++ k.1 ++ ['*', '/'] ++ k.2 := by
    rw [find_literal hm, (findLast_literal hk).1]
    simp
  have hinner : m.2 ++ (spaces ++ rest) = k.1 ++ ['*', '/'] ++ (k.2 ++ (spaces ++ rest)) := by
    rw [(findLast_literal hk).1]
    simp
  have hline := uncommented_append line
  rw [hcut, hcode] at hline
  refine ⟨spaces, rest, hspaces, hnone, by simpa using hline.symm, ?_, ?_⟩
  · refine uncommented_suffix (u := m.1 ++ ['/', '*'] ++ k.1 ++ ['*', '/']) ?_
    have hwhole : m.1 ++ ['/', '*'] ++ k.1 ++ ['*', '/'] ++ (k.2 ++ (spaces ++ rest)) = line := by
      simpa using hline
    rw [hwhole, hcut, hcode, List.append_assoc _ k.2]
  · rw [outside_of_some hcut hspaces hm, hinner]

lemma visible_cutLine_lt {before behind : Line} (hbehind : lineMark.find behind = none)
    (hmark : lineMark.search (before ++ behind) = true) :
    (visible (cutLine [] (before ++ behind))).length < (visible before).length := by
  obtain ⟨j, hj⟩ := Option.isSome_iff_exists.mp hmark
  have hjoined := find_literal hj
  have hcut : visible (cutLine [] (before ++ behind)) = visible j.1 := by
    rw [cutLine, hj]
    dsimp only
    rw [List.append_nil, visible_rtrim]
  have hinside (u : Line) (hu : behind = u ++ (['/', '/'] ++ j.2)) : False := by
    have hsuffix := find_none_of_suffix hbehind ⟨u, hu.symm⟩
    rw [find_eq_none_iff] at hsuffix
    have hself := hsuffix _ List.suffix_rfl
    rw [lineMark, behind_literal_self] at hself
    cases hself
  rcases List.append_eq_append_iff.mp hjoined with ⟨u, hu, hu'⟩ | ⟨u, hu, hu'⟩
  · exact (hinside u hu').elim
  · cases u with
    | nil => exact (hinside [] hu'.symm).elim
    | cons c u =>
      obtain ⟨rfl, -⟩ := List.cons.inj hu'
      rw [hcut, hu, visible_append, List.length_append]
      exact Nat.lt_add_of_pos_right (Nat.succ_pos _)

/-- The newline that goes with the comments is not put back. -/
def dropsNewline (line before behind : Line) : Bool :=
  !(rtrim before ++ ltrim behind).isEmpty && !lineMark.search (rtrim before ++ ltrim behind) &&
    (lineMark.search line || (ltrim behind).isEmpty)

lemma Meets.joined {before behind : Line} (h : Meets line before behind) :
    visible (cutLine [] (rtrim before ++ ltrim behind)) = visible before ++ visible behind ∧
      dropsNewline line before behind = false := by
  rw [dropsNewline]
  by_cases hmark : lineMark.search line = true
  · rw [Meets, if_pos hmark] at h
    obtain ⟨hbefore, hbehind⟩ := h
    rw [rtrim_eq_nil_iff.mpr hbefore, ltrim_eq_nil_iff.mpr hbehind, hbefore, hbehind]
    exact ⟨rfl, rfl⟩
  · rw [Meets, if_neg hmark] at h
    obtain ⟨hsome, hjoin⟩ := h
    rw [cutLine_of_not_search hjoin, visible_append, visible_rtrim, visible_ltrim, hjoin,
      eq_false_of_ne_true hmark]
    refine ⟨rfl, ?_⟩
    cases hempty : (ltrim behind).isEmpty with
    | false => simp
    | true =>
      have hnil := List.isEmpty_iff.mp hempty
      have hbefore := hsome.resolve_right (not_not.mpr (ltrim_eq_nil_iff.mp hnil))
      rw [hnil, rtrim_eq_nil_iff.mpr hbefore]
      rfl

lemma meets_of_joined {before behind : Line}
    (hjoin : lineMark.search (rtrim before ++ ltrim behind) = false)
    (hdrops : dropsNewline line before behind = false) : Meets line before behind := by
  rw [dropsNewline, hjoin, Bool.not_false, Bool.and_true] at hdrops
  rw [Meets]
  split
  next hmark =>
    have hempty : (rtrim before ++ ltrim behind).isEmpty = true := by simpa [hmark] using hdrops
    obtain ⟨hbefore, hbehind⟩ := List.append_eq_nil_iff.mp (List.isEmpty_iff.mp hempty)
    exact ⟨rtrim_eq_nil_iff.mp hbefore, ltrim_eq_nil_iff.mp hbehind⟩
  next hmark =>
    refine ⟨or_iff_not_imp_right.mpr fun hbehind => ?_, hjoin⟩
    have hnil := ltrim_eq_nil_iff.mpr (not_not.mp hbehind)
    rw [hnil, eq_false_of_ne_true hmark, List.append_nil] at hdrops
    exact rtrim_eq_nil_iff.mp (List.isEmpty_iff.mp (by simpa using hdrops))

lemma keeps_around (hm : openMark.find (cutLine [] line) = some m)
    (hk : closeMark.findLast m.2 = some k) :
    keeps false line = cutLine [] (rtrim m.1 ++ ltrim k.2) := by
  rw [keeps, hm]
  dsimp only
  rw [if_pos (closeMark_search_of_suffix hm hk), aroundComments_of_some hm hk]

lemma loses_around (hm : openMark.find (cutLine [] line) = some m)
    (hk : closeMark.findLast m.2 = some k) : loses line = dropsNewline line m.1 k.2 := by
  have hsearch : openMark.search (cutLine [] line) = true := by rw [search, hm]; rfl
  rw [loses, hsearch, closeMark_search_of_suffix hm hk, aroundComments_of_some hm hk]
  rfl

lemma agrees_outside (h : MarkedOutside line) : Agrees false line := by
  cases hm : openMark.find (cutLine [] line) with
  | none =>
    obtain ⟨spaces, rest, hspaces, hcut, -⟩ := uncommented_eq line
    have hout := outside_of_none hcut hspaces hm
    have hsearch : openMark.search (cutLine [] line) = false := by rw [search, hm]; rfl
    refine ⟨?_, fun _ => ?_, ?_⟩
    · rw [hout, keeps, hm]
      dsimp only
      rw [visible_append, visible_of_space hspaces, List.append_nil]
    · rw [loses, hsearch, Bool.false_and]
    · rw [hout, carries, hsearch, Bool.false_and]
  | some m =>
    have hsearch : openMark.search (cutLine [] line) = true := by rw [search, hm]; rfl
    obtain ⟨hunclosed, hclosed⟩ := h m hm
    cases hk : closeMark.findLast m.2 with
    | none =>
      obtain ⟨hclose, hmark⟩ := hunclosed hk
      obtain ⟨spaces, rest, hspaces, hcut, hnone⟩ := uncommented_eq line
      obtain ⟨rfl, rfl⟩ := hnone hmark
      have hout := outside_of_some hcut hspaces hm
      rw [List.append_nil, List.append_nil, outside_inner, findLast_eq_none_iff.mp hk] at hout
      refine ⟨?_, fun _ => ?_, ?_⟩
      · rw [hout, keeps, hm]
        dsimp only
        rw [if_neg (by rw [hclose]; exact Bool.false_ne_true), List.append_nil]
      · rw [loses, hsearch, hclose, hmark]
        rfl
      · rw [hout, carries, hsearch, hclose]
        rfl
    | some k =>
      obtain ⟨honly, hopen, hmeets⟩ := hclosed k hk
      obtain ⟨spaces, rest, hspaces, -, -, hcut, hout⟩ := outside_around hm hk
      obtain ⟨x, hx, hinner⟩ := outside_commentsOnly honly (k.2 ++ (spaces ++ rest))
      rw [hinner, outside_of_none hcut hspaces hopen] at hout
      obtain ⟨hjoined, hdrops⟩ := hmeets.joined
      refine ⟨?_, fun _ => ?_, ?_⟩
      · rw [hout, keeps_around hm hk, hjoined]
        dsimp only
        rw [visible_append, visible_append, hx, List.nil_append, visible_append,
          visible_of_space hspaces, List.append_nil]
      · rw [loses_around hm hk, hdrops]
      · rw [hout, carries, hsearch, closeMark_search_of_suffix hm hk]
        rfl

lemma LineMarked.agrees {inside : Bool} (h : LineMarked inside line) : Agrees inside line := by
  cases inside with
  | true => exact agrees_inside h
  | false => exact agrees_outside h

section Converse

lemma OneClose.before {u v : Line} (h : OneClose line) (hline : line = u ++ (['*', '/'] ++ v)) :
    closeMark.find u = none ∧ closeMark.find v = none := by
  have hself : (closeMark.behind (['*', '/'] ++ v)).isSome := by
    rw [closeMark, behind_literal_self]
    rfl
  cases hfind : closeMark.find line with
  | none =>
    have hnone := find_eq_none_iff.mp hfind _ ⟨u, hline.symm⟩
    rw [hnone] at hself
    cases hself
  | some m =>
    have hrest := h m hfind
    have hm := find_literal hfind
    have hle : m.1.length ≤ u.length := find_first (hline ▸ hfind) hself
    have hprefix : m.1 <+: u :=
      List.prefix_of_prefix_length_le ⟨_, hm.symm⟩ ⟨_, hline.symm⟩ hle
    obtain ⟨w, rfl⟩ := hprefix
    have hw : ['*', '/'] ++ m.2 = w ++ (['*', '/'] ++ v) := by
      rw [hm, List.append_assoc] at hline
      exact List.append_cancel_left hline
    cases w with
    | nil =>
      rw [List.append_nil, ← List.append_cancel_left hw]
      exact ⟨find_literal_before hfind List.prefix_rfl (List.cons_ne_nil _ _), hrest⟩
    | cons c w =>
      obtain ⟨-, hw⟩ := List.cons.inj hw
      cases w with
      | nil => cases hw
      | cons d w =>
        have hnone := find_eq_none_iff.mp hrest _ ⟨w, (List.cons.inj hw).2.symm⟩
        rw [hnone] at hself
        cases hself

lemma visible_ne_before (hm : openMark.find s = some m) : visible m.1 ≠ visible s := by
  rw [find_literal hm, visible_append, Ne, List.self_eq_append_right, visible_append]
  exact fun h => List.cons_ne_nil _ _ (List.append_eq_nil_iff.mp h).1

lemma marked_inside (hone : OneClose line)
    (hvisible : visible (outside true line).1 = visible (keeps true line)) : MarkedInside line := by
  intro k hk
  obtain ⟨hbefore, hbehind⟩ := hone.before (findLast_literal hk).1
  have honly := commentsOnly_single hbefore
  refine ⟨honly, ?_⟩
  cases hopen : openMark.find (cutLine [] k.2) with
  | none => rfl
  | some o =>
    exfalso
    obtain ⟨x, hx, hout⟩ := outside_commentsOnly honly k.2
    obtain ⟨spaces, rest, hspaces, hcut, -⟩ := uncommented_eq k.2
    have hline : line = k.1 ++ ['*', '/'] ++ k.2 := by
      rw [List.append_assoc]
      exact (findLast_literal hk).1
    have hinner : closeMark.find (o.2 ++ (spaces ++ rest)) = none := by
      refine find_none_of_suffix hbehind ⟨o.1 ++ ['/', '*'], ?_⟩
      have hwhole := uncommented_append k.2
      rw [hcut, find_literal hopen] at hwhole
      simpa using hwhole
    have hinside : outside false k.2 = (o.1, true) := by
      rw [outside_of_some hcut hspaces hopen, outside_inner, hinner]
      exact Prod.ext (List.append_nil _) rfl
    rw [hinside, ← hline] at hout
    rw [hout, keeps, hk] at hvisible
    dsimp only at hvisible
    rw [visible_cutLine_ltrim, visible_append, hx, List.nil_append] at hvisible
    exact visible_ne_before hopen hvisible

lemma marked_outside (hone : OneClose line)
    (hvisible : visible (outside false line).1 = visible (keeps false line))
    (hloses : loses line = false) : MarkedOutside line := by
  intro m hm
  have hsearch : openMark.search (cutLine [] line) = true := by
    rw [search, hm]
    rfl
  obtain ⟨spaces, rest, hspaces, hcut, hnone⟩ := uncommented_eq line
  refine ⟨fun hk => ?_, fun k hk => ?_⟩
  · cases hclose : closeMark.search (cutLine [] line) with
    | false =>
      refine ⟨rfl, ?_⟩
      rw [loses, hsearch, hclose] at hloses
      exact hloses
    | true =>
      exfalso
      have haround : aroundComments (cutLine [] line) = none := by
        rw [aroundComments, hm, Option.bind_some, hk]
        rfl
      rw [loses, hsearch, hclose, haround] at hloses
      obtain ⟨rfl, rfl⟩ := hnone hloses
      have hout := outside_of_some hcut hspaces hm
      rw [List.append_nil, List.append_nil, outside_inner, findLast_eq_none_iff.mp hk] at hout
      rw [hout, keeps, hm] at hvisible
      dsimp only at hvisible
      rw [if_pos hclose, haround, List.append_nil] at hvisible
      dsimp only at hvisible
      exact visible_ne_before hm hvisible
  · obtain ⟨spaces, rest, hspaces, hnone, hline, hcut, hout⟩ := outside_around hm hk
    obtain ⟨hbefore, hbehind⟩ := hone.before hline
    have honly := commentsOnly_single (find_none_of_suffix hbefore (List.suffix_append _ _))
    obtain ⟨x, hx, hinner⟩ := outside_commentsOnly honly (k.2 ++ (spaces ++ rest))
    rw [hout, hinner, keeps_around hm hk] at hvisible
    dsimp only at hvisible
    rw [visible_append, visible_append, hx, List.nil_append] at hvisible
    have hnomark : lineMark.find (ltrim k.2) = none := by
      refine find_none_of_suffix (lineMark_find_cutLine line) ?_
      refine (List.dropWhile_suffix isSpace).trans ⟨m.1 ++ ['/', '*'] ++ k.1 ++ ['*', '/'], ?_⟩
      rw [find_literal hm, (findLast_literal hk).1]
      simp
    have hjoin : lineMark.search (rtrim m.1 ++ ltrim k.2) = false := by
      refine eq_false_of_ne_true fun hmark => ?_
      have hlt := visible_cutLine_lt hnomark hmark
      rw [← hvisible, visible_rtrim, List.length_append] at hlt
      omega
    have hmeets := meets_of_joined hjoin ((loses_around hm hk).symm.trans hloses)
    refine ⟨honly, ?_, hmeets⟩
    cases hopen : openMark.find k.2 with
    | none => rfl
    | some o =>
      exfalso
      rw [hmeets.joined.1] at hvisible
      have hbehind' := List.append_cancel_left hvisible
      cases hmark : lineMark.search line with
      | true =>
        rw [Meets, if_pos hmark] at hmeets
        have hnil := hmeets.2
        rw [find_literal hopen, visible_append, visible_append, List.append_eq_nil_iff] at hnil
        exact List.cons_ne_nil _ _ (List.append_eq_nil_iff.mp hnil.2).1
      | false =>
        obtain ⟨rfl, rfl⟩ := hnone hmark
        have hinside : outside false k.2 = (o.1, true) := by
          have hnot : closeMark.find o.2 = none := by
            refine find_none_of_suffix hbehind ⟨o.1 ++ ['/', '*'], ?_⟩
            rw [List.append_nil, List.append_nil, List.append_assoc]
            exact (find_literal hopen).symm
          rw [List.append_nil, List.append_nil] at hcut
          rw [outside_of_some (by rw [hcut, List.append_nil]) hspaces hopen, List.append_nil,
            List.append_nil, outside_inner, hnot]
          exact Prod.ext (List.append_nil _) rfl
        rw [List.append_nil, List.append_nil, hinside] at hbehind'
        exact visible_ne_before hopen hbehind'

lemma marked_of_agrees {inside : Bool} (hone : OneClose line)
    (hvisible : visible (outside inside line).1 = visible (keeps inside line))
    (hloses : inside = false → loses line = false) : LineMarked inside line := by
  cases inside with
  | true => exact marked_inside hone hvisible
  | false => exact marked_outside hone hvisible (hloses rfl)

end Converse

end Lines

section Runs

variable {lines : List Line}

lemma MarkedLines.regular {inside : Bool} (h : MarkedLines inside lines) :
    Regular inside inside lines := by
  induction lines generalizing inside with
  | nil => trivial
  | cons line lines ih =>
    obtain ⟨hline, hlines⟩ := h
    obtain ⟨hvisible, hnewline, hcarries⟩ := hline.agrees
    have hrest := ih hlines
    rw [hcarries] at hrest
    refine ⟨⟨hvisible, hnewline⟩, ?_⟩
    rw [hcarries]
    exact hrest

lemma marked_of_regular {inside : Bool} (hone : ∀ line ∈ lines, OneClose line)
    (h : Regular inside inside lines) : MarkedLines inside lines := by
  induction lines generalizing inside with
  | nil => trivial
  | cons line lines ih =>
    obtain ⟨⟨hvisible, hnewline⟩, hlines⟩ := h
    have hline := marked_of_agrees (hone line List.mem_cons_self) hvisible hnewline
    rw [← hline.agrees.carries] at hlines
    exact ⟨hline, ih (fun t ht => hone t (List.mem_cons_of_mem _ ht)) hlines⟩

-- the greedy match takes text, and a comment that it leaves happens to read the same
example : Preserved false ["/* a */ / * w */ /* w * /\n".toList]
    (removeComments ["/* a */ / * w */ /* w * /\n".toList]) ∧
      ¬ MarkedLines false ["/* a */ / * w */ /* w * /\n".toList] := by decide

end Runs

end Hthreads.Compiler
