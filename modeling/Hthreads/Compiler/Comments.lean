import Hthreads.Compiler.Dependencies

/-! The removal of comments (`parser.py`) and what it does to each kind of line. -/

namespace Hthreads.Compiler

open Library Pattern

-- `.`
def inLine (c : Char) : Bool := c ≠ '\n'

def lineMark : Pattern Char := literal ['/', '/']
def openMark : Pattern Char := literal ['/', '*']
def closeMark : Pattern Char := literal ['*', '/']

def singleCommentRegex : Pattern Char :=
  .many isSpace :: (lineMark ++ [.many inLine, .many isSpace])
def multiCommentRegex : Pattern Char := .many isSpace :: (openMark ++ [.many inLine])
def endMultiCommentRegex : Pattern Char := .many inLine :: (closeMark ++ [.many isSpace])

def removeStep (state : List Line × Bool) (line : Line) : List Line × Bool :=
  let (newLines, again) := state
  if again then
    if endMultiCommentRegex.search line then
      let new := endMultiCommentRegex.sub [] line
      (newLines ++ [if new.length = 0 then ['\n'] else singleCommentRegex.sub ['\n'] new], false)
    else (newLines ++ [['\n']], true)
  else
    let original := line
    let line := singleCommentRegex.sub [] line
    let multipleLineStart := multiCommentRegex.search line
    let multipleLineEnd := endMultiCommentRegex.search line
    if multipleLineStart then
      if multipleLineEnd then
        let new := (multiCommentRegex ++ endMultiCommentRegex).sub [] line
        (newLines ++ [if new.length = 0 then ['\n'] else singleCommentRegex.sub ['\n'] new], false)
      else (newLines ++ [multiCommentRegex.sub [] line], true)
    else if original ≠ line then (newLines ++ [line ++ ['\n']], again)
    else (newLines ++ [line], again)

def removeComments (lines : List Line) : List Line := (lines.foldl removeStep ([], false)).1

section Specification

/-- The text of a line outside of comments, and whether a comment goes on behind it. -/
def outside : Bool → Line → Line × Bool
  | inside, [] => ([], inside)
  | false, '/' :: '/' :: _ => ([], false)
  | false, '/' :: '*' :: s => outside true s
  | true, '*' :: '/' :: s => outside false s
  | false, c :: s => (c :: (outside false s).1, (outside false s).2)
  | true, _ :: s => outside true s

def visible (s : Line) : Line := s.filter fun c => !isSpace c

def EndsInNewline (s : Line) : Prop := s.getLast? = some '\n' ∧ '\n' ∉ s.dropLast

instance (s : Line) : Decidable (EndsInNewline s) := inferInstanceAs (Decidable (_ ∧ _))

/-- Every line has kept its newline and, up to white space, its text outside of comments. -/
def Preserved : Bool → List Line → List Line → Prop
  | _, [], [] => True
  | inside, line :: lines, new :: news => (EndsInNewline new ∧
      visible new = visible (outside inside line).1) ∧ Preserved (outside inside line).2 lines news
  | _, _, _ => False

instance decidablePreserved : ∀ inside lines news, Decidable (Preserved inside lines news)
  | _, [], [] => isTrue trivial
  | inside, line :: lines, new :: news =>
    have := decidablePreserved (outside inside line).2 lines news
    inferInstanceAs (Decidable ((EndsInNewline new ∧
      visible new = visible (outside inside line).1) ∧ _))
  | _, [], _ :: _ => isFalse id
  | _, _ :: _, [] => isFalse id

end Specification

section Lines

variable {s t : Line} {c : Char} {m : Line × Line}

abbrev rtrim (s : Line) : Line := s.rdropWhile isSpace

abbrev ltrim (s : Line) : Line := s.dropWhile isSpace

/-- There is no newline, but for one at the end. -/
def OneLine (s : Line) : Prop := '\n' ∉ s.dropLast

lemma OneLine.suffix (h : OneLine s) (ht : t <:+ s) : OneLine t := by
  obtain ⟨u, rfl⟩ := ht
  by_cases hnil : t = []
  · rw [hnil]
    exact List.not_mem_nil
  · rw [OneLine, List.dropLast_append_of_ne_nil hnil] at h
    exact fun hmem => h (List.mem_append_right u hmem)

lemma OneLine.parts (h : OneLine s) : ∃ body tail, s = body ++ tail ∧
    (∀ c ∈ body, inLine c = true) ∧ (tail = [] ∨ tail = ['\n']) := by
  rcases List.eq_nil_or_concat s with rfl | ⟨body, c, rfl⟩
  · exact ⟨[], [], rfl, fun c hc => (nomatch hc), .inl rfl⟩
  · rw [OneLine, List.concat_eq_append, List.dropLast_concat] at h
    have hbody : ∀ c ∈ body, inLine c = true := fun d hd =>
      decide_eq_true fun heq => h (heq ▸ hd)
    rw [List.concat_eq_append]
    by_cases hc : c = '\n'
    · exact ⟨body, [c], rfl, hbody, .inr (by rw [hc])⟩
    · refine ⟨body ++ [c], [], (List.append_nil _).symm, fun d hd => ?_, .inl rfl⟩
      rcases List.mem_append.mp hd with hd | hd
      · exact hbody d hd
      · rw [List.mem_singleton.mp hd]
        exact decide_eq_true hc

lemma OneLine.dropWhile (h : OneLine s) :
    s.dropWhile inLine = [] ∨ s.dropWhile inLine = ['\n'] := by
  obtain ⟨body, tail, rfl, hbody, htail⟩ := h.parts
  rw [List.dropWhile_append_of_pos hbody]
  rcases htail with rfl | rfl
  · exact .inl rfl
  · exact .inr rfl

lemma behind_spaces : behind [.many isSpace] s = some (ltrim s) :=
  behindMany_of_total fun _ => rfl

lemma behind_inLine : behind [.many inLine] s = some (s.dropWhile inLine) :=
  behindMany_of_total fun _ => rfl

lemma behind_rest :
    behind [.many inLine, .many isSpace] s = some (ltrim (s.dropWhile inLine)) :=
  behindMany_of_total fun _ => behind_spaces

lemma behind_slash {word : List Char} {ps : Pattern Char} (hc : isSpace c = true) :
    behind (literal ('/' :: word) ++ ps) (c :: s) = none := by
  have hne : c ≠ '/' := by
    rintro rfl
    cases hc
  exact if_neg (by simpa using hne)

lemma find_tail {a b : Char} (hs : s = [] ∨ s = ['\n']) : find (literal [a, b]) s = none := by
  rcases hs with rfl | rfl
  · rfl
  · rw [find_cons]
    change (Option.map _ (if decide ('\n' = a) = true then none else none)).or _ = none
    split <;> rfl

end Lines

section Substitutions

def cutLine (new line : Line) : Line :=
  match lineMark.find line with
  | none => line
  | some m => rtrim m.1 ++ new

def aroundComments (line : Line) : Option (Line × Line) :=
  (openMark.find line).bind fun m => (closeMark.findLast m.2).map fun k => (m.1, k.2)

variable {s new : Line} {m : Line × Line}

lemma singleCommentRegex_find (h : OneLine s) :
    singleCommentRegex.find s = (lineMark.find s).map fun m => (rtrim m.1, []) := by
  rw [singleCommentRegex, lineMark, find_many fun c s hc => behind_slash hc,
    find_literal_append (fun r r' _ _ hr => by rw [behind_rest] at hr; cases hr)]
  change ((lineMark.find s).bind _).map _ = (lineMark.find s).map _
  cases hfind : lineMark.find s with
  | none => rfl
  | some m =>
    have hm := find_literal hfind
    have hrest : OneLine m.2 := h.suffix ⟨m.1 ++ ['/', '/'], by rw [hm]; simp⟩
    rw [Option.bind_some, behind_rest]
    rcases hrest.dropWhile with heq | heq
    · rw [heq]
      rfl
    · rw [heq]
      rfl

lemma singleCommentRegex_sub (h : OneLine s) : singleCommentRegex.sub new s = cutLine new s := by
  have hfind := singleCommentRegex_find h
  rw [cutLine]
  cases hmark : lineMark.find s with
  | none =>
    rw [hmark] at hfind
    exact sub_of_none hfind
  | some m =>
    rw [hmark] at hfind
    rw [sub_of_some hfind rfl (by rintro rfl; cases hmark)]
    exact List.append_nil _

lemma multiCommentRegex_find : multiCommentRegex.find s =
    (openMark.find s).map fun m => (rtrim m.1, m.2.dropWhile inLine) := by
  rw [multiCommentRegex, openMark, find_many fun c s hc => behind_slash hc,
    find_literal_append (fun r r' _ _ hr => by rw [behind_inLine] at hr; cases hr)]
  change ((openMark.find s).bind _).map _ = (openMark.find s).map _
  cases openMark.find s with
  | none => rfl
  | some m =>
    rw [Option.bind_some, behind_inLine]
    rfl

lemma multiCommentRegex_search : multiCommentRegex.search s = openMark.search s := by
  rw [search, multiCommentRegex_find, Option.isSome_map, search]

lemma multiCommentRegex_sub (h : OneLine s) : multiCommentRegex.sub [] s =
    match openMark.find s with
    | none => s
    | some m => rtrim m.1 ++ m.2.dropWhile inLine := by
  have hfind := multiCommentRegex_find (s := s)
  cases hmark : openMark.find s with
  | none =>
    rw [hmark] at hfind
    exact sub_of_none hfind
  | some m =>
    have hm := find_literal hmark
    have hrest : OneLine m.2 := h.suffix ⟨m.1 ++ ['/', '*'], by rw [hm]; simp⟩
    rw [hmark] at hfind
    rw [sub_of_some hfind _ (by rintro rfl; cases hmark), List.append_nil]
    rw [multiCommentRegex_find]
    exact congrArg (Option.map _) (find_tail hrest.dropWhile)

lemma behind_closing (h : OneLine s) : behind endMultiCommentRegex s =
    (closeMark.findLast s).map fun m => ltrim m.2 := by
  obtain ⟨body, tail, rfl, hbody, htail⟩ := h.parts
  have hnone : find (closeMark ++ [.many isSpace]) tail = none := by
    rw [closeMark, find_literal_append (fun r r' _ _ hr => by rw [behind_spaces] at hr; cases hr),
      find_tail htail]
    rfl
  refine (behindMany_eq_findLast hbody hnone).trans ?_
  rw [closeMark, findLast_literal_append fun r => behind_spaces, Option.map_map]
  rfl

lemma find_ltrim_none (hm : closeMark.findLast s = some m) : closeMark.find (ltrim m.2) = none :=
  find_none_of_suffix (findLast_literal hm).2
    ((List.dropWhile_suffix isSpace).trans (List.suffix_cons '/' m.2))

lemma closeMark_search (s : Line) : closeMark.search s = (closeMark.findLast s).isSome := by
  rw [search]
  cases hlast : closeMark.findLast s with
  | none => rw [findLast_eq_none_iff.mp hlast]
  | some m =>
    cases hfind : closeMark.find s with
    | none =>
      rw [findLast_eq_none_iff.mpr hfind] at hlast
      cases hlast
    | some k => rfl

lemma endMultiCommentRegex_search : endMultiCommentRegex.search s = closeMark.search s := by
  rw [endMultiCommentRegex, search_many, search, closeMark,
    find_literal_append (fun r r' _ _ hr => by rw [behind_spaces] at hr; cases hr), search]
  cases find (literal ['*', '/']) s with
  | none => rfl
  | some m =>
    rw [Option.bind_some, behind_spaces]
    rfl

lemma endMultiCommentRegex_sub (h : OneLine s) : endMultiCommentRegex.sub [] s =
    match closeMark.findLast s with
    | none => s
    | some m => ltrim m.2 := by
  have hnone {t : Line} (ht : closeMark.find t = none) : endMultiCommentRegex.find t = none := by
    have hsearch := endMultiCommentRegex_search (s := t)
    rw [closeMark_search, findLast_eq_none_iff.mpr ht] at hsearch
    exact Option.isSome_eq_false_iff.mp hsearch |> Option.isNone_iff_eq_none.mp
  cases hlast : closeMark.findLast s with
  | none => exact sub_of_none (hnone (findLast_eq_none_iff.mp hlast))
  | some m =>
    have hbehind := behind_closing h
    rw [hlast] at hbehind
    have hfind : endMultiCommentRegex.find s = some ([], ltrim m.2) := by
      cases s with
      | nil => cases hlast
      | cons c s =>
        rw [find_cons, hbehind]
        rfl
    rw [sub_of_some hfind (hnone (find_ltrim_none hlast)) (by rintro rfl; cases hlast)]
    rfl

lemma removeRegex_find (h : OneLine s) : (multiCommentRegex ++ endMultiCommentRegex).find s =
    (openMark.find s).bind fun m => (closeMark.findLast m.2).map fun k =>
      (rtrim m.1, ltrim k.2) := by
  have hrest {r : Line} (hr : OneLine r) : behind (.many inLine :: endMultiCommentRegex) r =
      (closeMark.findLast r).map fun m => ltrim m.2 := by
    refine Eq.trans ?_ (behind_closing hr)
    exact behindMany_twice
  change find (.many isSpace :: (openMark ++ (.many inLine :: endMultiCommentRegex))) s = _
  rw [openMark, find_many fun c s hc => behind_slash hc, find_literal_append]
  · change ((openMark.find s).bind _).map _ = (openMark.find s).bind _
    cases hfind : openMark.find s with
    | none => rfl
    | some m =>
      have hm := find_literal hfind
      rw [Option.bind_some, Option.bind_some,
        hrest (h.suffix ⟨m.1 ++ ['/', '*'], by rw [hm]; simp⟩)]
      cases closeMark.findLast m.2 <;> rfl
  · intro r r' hr hr' hnone
    rw [hrest (h.suffix hr), Option.map_eq_none_iff, findLast_eq_none_iff] at hnone
    rw [hrest (h.suffix (hr'.trans hr)), Option.map_eq_none_iff, findLast_eq_none_iff]
    exact find_none_of_suffix hnone hr'

lemma removeRegex_sub (h : OneLine s) : (multiCommentRegex ++ endMultiCommentRegex).sub [] s =
    match aroundComments s with
    | none => s
    | some m => rtrim m.1 ++ ltrim m.2 := by
  have hfind := removeRegex_find h
  rw [aroundComments]
  cases hopen : openMark.find s with
  | none =>
    rw [hopen] at hfind
    exact sub_of_none hfind
  | some m =>
    rw [hopen, Option.bind_some] at hfind
    rw [Option.bind_some]
    cases hclose : closeMark.findLast m.2 with
    | none =>
      rw [hclose] at hfind
      exact sub_of_none hfind
    | some k =>
      rw [hclose] at hfind
      have hnone := find_ltrim_none hclose
      have hk := (findLast_literal hclose).1
      have hm := find_literal hopen
      have hone : OneLine (ltrim k.2) := by
        refine (h.suffix ?_).suffix (List.dropWhile_suffix isSpace)
        exact ⟨m.1 ++ ['/', '*'] ++ k.1 ++ ['*', '/'], by rw [hm, hk]; simp⟩
      rw [sub_of_some hfind _ (by rintro rfl; cases hopen)]
      · exact congrArg (· ++ _) (List.append_nil _)
      · rw [removeRegex_find hone]
        cases hlater : openMark.find (ltrim k.2) with
        | none => rfl
        | some l =>
          have hl := find_literal hlater
          rw [Option.bind_some, findLast_eq_none_iff.mpr (find_none_of_suffix hnone
            ⟨l.1 ++ ['/', '*'], by rw [hl]; simp⟩)]
          rfl

end Substitutions

end Hthreads.Compiler
