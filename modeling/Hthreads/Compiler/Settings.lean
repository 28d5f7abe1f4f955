import Hthreads.Compiler.Comments
import Hthreads.Library.Anchors
import Mathlib.Data.List.Find

/-! The fields of the settings file (`execute.py`), read and written line by line. -/

namespace Hthreads.Compiler

open Library Pattern

-- `^\s*FIELD\s*`
def fieldRegex (searchString : List Char) : Pattern Char :=
  .many isSpace :: (literal searchString ++ [.many isSpace])

-- `^\s*.*=\s*`
def beginningRegex : Pattern Char := [.many isSpace, .many inLine, .one (· = '='), .many isSpace]

-- `\s*;\s*$`
def endRegex : Pattern Char := marked isSpace ';'

def atEnd (s : List Char) : Bool := s = [] || s = ['\n']

-- the first line has no other place than its beginning for `^`
def hasField (searchString : List Char) (line : Line) : Bool :=
  ((fieldRegex searchString).behind line).isSome

def fieldValue (line : Line) : List Char :=
  let line := (beginningRegex.behind line).getD line
  cutTo atEnd endRegex line

def readConfigSettings (searchString : List Char) (file : List Line) : Option (List Char) :=
  (file.find? (hasField searchString)).map fieldValue

def settingLine (searchString inputText : List Char) : Line :=
  searchString ++ ['\t', '=', '\t'] ++ inputText ++ [' ', ';', '\n']

def writeConfigSettings (searchString inputText : List Char) (file : List Line) : List Line :=
  file.map fun line =>
    if hasField searchString line then settingLine searchString inputText else line

section Files

def isWord (c : Char) : Bool := c.isAlphanum || c = '_'

/-- A line `FIELD = value ;`. What stands between the first equals sign and the last semicolon is
the value with any white space around it. -/
structure Setting where
  indent : List Char
  name : List Char
  gap : List Char
  body : List Char
  tail : List Char
  indent_blank : ∀ c ∈ indent, isSpace c = true
  name_word : name ≠ [] ∧ ∀ c ∈ name, isWord c = true
  gap_blank : ∀ c ∈ gap, isSpace c = true ∧ c ≠ '\n'
  body_line : '\n' ∉ body
  tail_blank : ∀ c ∈ tail, isSpace c = true

def Setting.text (s : Setting) : Line :=
  s.indent ++ (s.name ++ (s.gap ++ '=' :: (s.body ++ ';' :: s.tail)))

inductive Entry
  | setting (s : Setting)
  | comment (indent text : List Char) (h : ∀ c ∈ indent, isSpace c = true)
  | blank (text : List Char) (h : ∀ c ∈ text, isSpace c = true)

def Entry.text : Entry → Line
  | .setting s => s.text
  | .comment indent text _ => indent ++ '#' :: text
  | .blank text _ => text

def Entry.Defines (f : List Char) : Entry → Prop
  | .setting s => s.name = f
  | _ => False

def Entry.extends (f : List Char) : Entry → Bool
  | .setting s => f.isPrefixOf s.name
  | _ => false

def texts (file : List Entry) : List Line := file.map Entry.text

def trim (s : List Char) : List Char := (s.dropWhile isSpace).rdropWhile isSpace

/-- The value that is read from a line: what follows the last equals sign. -/
def Setting.stored (s : Setting) : List Char := trim (s.body.rtakeWhile (· ≠ '='))

structure Value (v : List Char) : Prop where
  line : '\n' ∉ v
  noSemicolon : ';' ∉ v
  trimmed : trim v = v

structure RoundTrips (file : List Entry) (f v : List Char) : Prop where
  back : readConfigSettings f (writeConfigSettings f v (texts file)) = some v
  others : ∀ g, (∃ e ∈ file, Entry.Defines g e) → g ≠ f →
    readConfigSettings g (writeConfigSettings f v (texts file)) =
      readConfigSettings g (texts file)
  lines : (writeConfigSettings f v (texts file)).length = file.length ∧
    ∀ (i : ℕ) (e : Entry), file[i]? = some e → ¬ e.Defines f →
      (writeConfigSettings f v (texts file))[i]? = some e.text

end Files

section Lines

variable {c : Char} {f v x t : List Char} {s : Setting} {e : Entry}

lemma isSpace_of_isWord (h : isWord c = true) : isSpace c = false := by
  rw [Bool.eq_false_iff]
  intro hs
  simp only [isSpace, Bool.or_eq_true, decide_eq_true_eq] at hs
  rcases hs with ((((rfl | rfl) | rfl) | rfl) | rfl) | rfl
  all_goals
    exact absurd h (by decide)

lemma ne_newline_of_isWord (h : isWord c = true) : inLine c = true := by
  rw [inLine, decide_eq_true_eq]
  rintro rfl
  exact absurd h (by decide)

lemma isSpace_of_atEnd (t : List Char) (h : atEnd t = true) : ∀ c ∈ t, isSpace c = true := by
  rw [atEnd, Bool.or_eq_true, decide_eq_true_eq, decide_eq_true_eq] at h
  rcases h with rfl | rfl
  · exact fun c hc => absurd hc List.not_mem_nil
  · intro c hc
    rw [List.mem_singleton.mp hc]
    rfl

lemma hasField_append (hf : f ≠ []) (hword : ∀ c ∈ f, isWord c = true)
    (hx : ∀ c ∈ x, isSpace c = true) (ht : ∀ c ∈ t.head?, isSpace c = false) :
    hasField f (x ++ t) = f.isPrefixOf t := by
  obtain ⟨a, w, rfl⟩ := List.exists_cons_of_ne_nil hf
  have ha := isSpace_of_isWord (hword a List.mem_cons_self)
  have hstop : ∀ b r, isSpace b = true →
      behind (literal (a :: w) ++ [.many isSpace]) (b :: r) = none := by
    intro b r hb
    change (if decide (b = a) = true then _ else none) = none
    rw [if_neg]
    intro heq
    rw [of_decide_eq_true heq, ha] at hb
    exact Bool.noConfusion hb
  have hdrop : (x ++ t).dropWhile isSpace = t := by
    rw [List.dropWhile_append_of_pos hx]
    cases t with
    | nil => rfl
    | cons b t => exact List.dropWhile_cons_of_neg (by rw [ht b rfl]; exact Bool.false_ne_true)
  have hmany : ∀ r : List Char, (behind [.many isSpace] r).isSome = true := fun r =>
    behindMany_isSome.mpr ⟨[], r, rfl, fun _ h => absurd h List.not_mem_nil, rfl⟩
  rw [hasField, fieldRegex, behind, behindMany_of_stop hstop, hdrop, behind_literal_append,
    Bool.eq_iff_iff, List.isPrefixOf_iff_prefix]
  constructor
  · intro h
    cases hr : behind (literal (a :: w)) t with
    | none =>
      rw [hr] at h
      exact Bool.noConfusion h
    | some r => exact ⟨r, (behind_literal hr).symm⟩
  · rintro ⟨r, rfl⟩
    rw [behind_literal_self]
    exact hmany r

lemma isPrefixOf_name_append (hword : ∀ c ∈ f, isWord c = true) {name rest : List Char}
    (hrest : ∀ c ∈ rest.head?, isWord c = false) :
    f.isPrefixOf (name ++ rest) = f.isPrefixOf name := by
  rw [Bool.eq_iff_iff, List.isPrefixOf_iff_prefix, List.isPrefixOf_iff_prefix]
  constructor
  · intro h
    by_cases hlen : f.length ≤ name.length
    · exact List.prefix_of_prefix_length_le h (List.prefix_append name rest) hlen
    · cases rest with
      | nil => rwa [List.append_nil] at h
      | cons c rest =>
        have hlonger : name ++ [c] <+: f := by
          apply List.prefix_of_prefix_length_le _ h
          · rw [List.length_append, List.length_singleton]
            omega
          · exact ⟨rest, by rw [List.append_assoc, List.singleton_append]⟩
        have hc := hword c (hlonger.subset (List.mem_append_right name List.mem_cons_self))
        rw [hrest c rfl] at hc
        exact Bool.noConfusion hc
  · exact fun h => h.trans (List.prefix_append name rest)

lemma Setting.head_gap (s : Setting) (r : List Char) :
    ∀ c ∈ (s.gap ++ '=' :: r).head?, isWord c = false := by
  intro c hc
  rw [Bool.eq_false_iff]
  intro hw
  cases hg : s.gap with
  | nil =>
    rw [hg] at hc
    rw [← Option.some.inj hc] at hw
    exact absurd hw (by decide)
  | cons d gap =>
    rw [hg] at hc
    have hd := (s.gap_blank d (hg ▸ List.mem_cons_self)).1
    rw [Option.some.inj hc, isSpace_of_isWord hw] at hd
    exact Bool.noConfusion hd

lemma Setting.head_name (s : Setting) (r : List Char) :
    ∀ c ∈ (s.name ++ r).head?, isSpace c = false := by
  obtain ⟨a, w, hname⟩ := List.exists_cons_of_ne_nil s.name_word.1
  intro c hc
  rw [hname] at hc
  rw [← Option.some.inj hc]
  exact isSpace_of_isWord (s.name_word.2 a (hname ▸ List.mem_cons_self))

lemma hasField_text (hf : f ≠ []) (hword : ∀ c ∈ f, isWord c = true) (e : Entry) :
    hasField f e.text = e.extends f := by
  cases e with
  | setting s =>
    rw [Entry.text, Setting.text, hasField_append hf hword s.indent_blank (s.head_name _),
      isPrefixOf_name_append hword (s.head_gap _)]
    rfl
  | comment indent text h =>
    have hmark : ∀ c ∈ ('#' :: text).head?, isSpace c = false := by
      intro c hc
      rw [← Option.some.inj hc]
      rfl
    rw [Entry.text, hasField_append hf hword h hmark]
    obtain ⟨a, w, rfl⟩ := List.exists_cons_of_ne_nil hf
    change (a :: w).isPrefixOf ('#' :: text) = false
    rw [List.isPrefixOf_cons_cons, Bool.and_eq_false_iff]
    left
    rw [beq_eq_false_iff_ne]
    rintro rfl
    exact absurd (hword _ List.mem_cons_self) (by decide)
  | blank text h =>
    have hnil := hasField_append (t := []) hf hword h fun c hc => absurd hc (Option.not_mem_none c)
    rw [List.append_nil] at hnil
    rw [Entry.text, hnil]
    obtain ⟨a, w, rfl⟩ := List.exists_cons_of_ne_nil hf
    rfl

lemma dropWhile_append_stop (h : isSpace c = false) :
    (x ++ c :: t).dropWhile isSpace = x.dropWhile isSpace ++ c :: t := by
  induction x with
  | nil => exact List.dropWhile_cons_of_neg (by rw [h]; exact Bool.false_ne_true)
  | cons a x ih =>
    by_cases ha : isSpace a = true
    · rw [List.cons_append, List.dropWhile_cons_of_pos ha, List.dropWhile_cons_of_pos ha, ih]
    · rw [List.cons_append, List.dropWhile_cons_of_neg ha, List.dropWhile_cons_of_neg ha,
        List.cons_append]

lemma last_rdropWhile (p : Char → Bool) (l : List Char) :
    ∀ c ∈ (l.rdropWhile p).getLast?, p c = false := by
  intro c hc
  have hne : l.rdropWhile p ≠ [] := by
    intro hnil
    rw [hnil] at hc
    exact absurd hc (Option.not_mem_none c)
  rw [List.getLast?_eq_getLast_of_ne_nil hne] at hc
  rw [← Option.some.inj hc]
  exact Bool.eq_false_iff.mpr (List.rdropWhile_last_not p l hne)

lemma Setting.last_equals (s : Setting) : ∃ before, (∀ c ∈ before, inLine c = true) ∧
    s.name ++ (s.gap ++ '=' :: (s.body ++ ';' :: s.tail)) =
      before ++ '=' :: (s.body.rtakeWhile (· ≠ '=') ++ ';' :: s.tail) := by
  have hname : ∀ c ∈ s.name ++ s.gap, inLine c = true := by
    intro c hc
    rcases List.mem_append.mp hc with hc | hc
    · exact ne_newline_of_isWord (s.name_word.2 c hc)
    · exact decide_eq_true (s.gap_blank c hc).2
  have hbody : s.body.rdropWhile (· ≠ '=') ++ s.body.rtakeWhile (· ≠ '=') = s.body :=
    List.rdropWhile_append_rtakeWhile
  rcases List.eq_nil_or_concat (s.body.rdropWhile (· ≠ '=')) with hnil | ⟨l, d, hl⟩
  · rw [hnil, List.nil_append] at hbody
    refine ⟨s.name ++ s.gap, hname, ?_⟩
    rw [hbody, List.append_assoc]
  · rw [List.concat_eq_append] at hl
    have hd : d = '=' := by
      have hlast := last_rdropWhile (fun c : Char => decide (c ≠ '=')) s.body d
        (by rw [hl, List.getLast?_concat]; rfl)
      simpa using hlast
    subst hd
    rw [hl] at hbody
    refine ⟨s.name ++ s.gap ++ '=' :: l, fun c hc => ?_, ?_⟩
    · rcases List.mem_append.mp hc with hc | hc
      · exact hname c hc
      · rcases List.mem_cons.mp hc with rfl | hc
        · rfl
        · apply decide_eq_true
          rintro rfl
          apply s.body_line
          rw [← hbody]
          exact List.mem_append_left _ (List.mem_append_left _ hc)
    · conv_lhs => rw [← hbody]
      simp only [List.append_assoc, List.cons_append, List.nil_append]

lemma beginningRegex_behind (s : Setting) : beginningRegex.behind s.text =
    some ((s.body.rtakeWhile (· ≠ '=') ++ ';' :: s.tail).dropWhile isSpace) := by
  obtain ⟨before, hbefore, hsplit⟩ := s.last_equals
  apply behindMany_of_some s.indent_blank
  apply behindMany_of_next (s.head_name _)
  rw [hsplit]
  apply behindMany_last hbefore
  · exact behindMany_of_total (g := id) fun _ => rfl
  · intro u hu
    cases u with
    | nil => rfl
    | cons b u =>
      have hb : b ≠ '=' := by
        have hmem := hu.subset List.mem_cons_self
        rcases List.mem_append.mp hmem with hmem | hmem
        · have := List.mem_rtakeWhile_imp hmem
          simpa using this
        · rcases List.mem_cons.mp hmem with rfl | hmem
          · decide
          · rintro rfl
            exact absurd (s.tail_blank _ hmem) (by decide)
      exact if_neg fun h => hb (of_decide_eq_true h)

lemma fieldValue_text (s : Setting) : fieldValue s.text = s.stored := by
  rw [fieldValue, beginningRegex_behind, Option.getD_some, dropWhile_append_stop (by decide)]
  generalize hz : (s.body.rtakeWhile (· ≠ '=')).dropWhile isSpace = z
  have hsplit : z ++ ';' :: s.tail =
      z.rdropWhile isSpace ++ (z.rtakeWhile isSpace ++ ';' :: s.tail) := by
    rw [← List.append_assoc, List.rdropWhile_append_rtakeWhile]
  have hstored : s.stored = z.rdropWhile isSpace := by
    rw [Setting.stored, trim, hz]
  rw [hsplit, hstored]
  apply cutTo_marked (by decide) isSpace_of_atEnd rfl
  · exact last_rdropWhile isSpace z
  · exact fun c hc => List.mem_rtakeWhile_imp hc
  · exact s.tail_blank

end Lines

section Writing

variable {f v : List Char} {file : List Entry}

def written (hf : f ≠ [] ∧ ∀ c ∈ f, isWord c = true) (hv : '\n' ∉ v) : Setting where
  indent := []
  name := f
  gap := ['\t']
  body := '\t' :: (v ++ [' '])
  tail := ['\n']
  indent_blank _ h := absurd h List.not_mem_nil
  name_word := hf
  gap_blank c h := by
    rw [List.mem_singleton.mp h]
    decide
  body_line h := by
    rcases List.mem_cons.mp h with h | h
    · exact absurd h (by decide)
    · rcases List.mem_append.mp h with h | h
      · exact hv h
      · exact absurd h (by decide)
  tail_blank c h := by
    rw [List.mem_singleton.mp h]
    rfl

lemma written_text (hf : f ≠ [] ∧ ∀ c ∈ f, isWord c = true) (hv : '\n' ∉ v) :
    (written hf hv).text = settingLine f v := by
  simp [Setting.text, written, settingLine]

lemma trim_pad : trim ('\t' :: (v ++ [' '])) = trim v := by
  rw [trim, List.dropWhile_cons_of_pos rfl, List.dropWhile_append]
  split
  case isTrue h =>
    rw [trim, List.isEmpty_iff.mp h]
    rfl
  case isFalse => exact List.rdropWhile_concat_pos isSpace _ _ rfl

lemma stored_written (hf : f ≠ [] ∧ ∀ c ∈ f, isWord c = true) (hv : Value v) :
    (written hf hv.line).stored = v ↔ '=' ∉ v := by
  rw [Setting.stored]
  constructor
  · intro h hmem
    rw [← h] at hmem
    have hsub := List.mem_rtakeWhile_imp
      (List.dropWhile_subset _ ((List.rdropWhile_prefix _ _).subset hmem))
    exact absurd hsub (by decide)
  · intro h
    have hall : (written hf hv.line).body.rtakeWhile (· ≠ '=') = '\t' :: (v ++ [' ']) := by
      apply List.rtakeWhile_eq_self_iff.mpr
      intro c hc
      apply decide_eq_true
      rintro rfl
      rcases List.mem_cons.mp hc with hc | hc
      · exact absurd hc (by decide)
      · rcases List.mem_append.mp hc with hc | hc
        · exact h hc
        · exact absurd hc (by decide)
    rw [hall, trim_pad, hv.trimmed]

def rewrite (s : Setting) (e : Entry) : Entry := if e.extends s.name then .setting s else e

lemma extends_rewrite (s : Setting) (e : Entry) :
    (rewrite s e).extends s.name = e.extends s.name := by
  rw [rewrite]
  split
  case isTrue h =>
    rw [h, Entry.extends, List.isPrefixOf_iff_prefix]
  case isFalse => rfl

lemma writeConfigSettings_eq (hf : f ≠ [] ∧ ∀ c ∈ f, isWord c = true) (hv : '\n' ∉ v) :
    writeConfigSettings f v (texts file) = texts (file.map (rewrite (written hf hv))) := by
  rw [writeConfigSettings, texts, texts, List.map_map, List.map_map]
  refine List.map_congr_left fun e _ => ?_
  simp only [Function.comp_apply]
  rw [hasField_text hf.1 hf.2, rewrite]
  have hname : (written hf hv).name = f := rfl
  rw [hname]
  split
  · exact (written_text hf hv).symm
  · rfl

lemma readConfigSettings_eq (hf : f ≠ [] ∧ ∀ c ∈ f, isWord c = true) :
    readConfigSettings f (texts file) =
      (file.find? fun e => e.extends f).map fun e => fieldValue e.text := by
  rw [readConfigSettings, texts, List.find?_map, Option.map_map]
  have hfun : hasField f ∘ Entry.text = fun e => e.extends f :=
    funext fun e => hasField_text hf.1 hf.2 e
  rw [hfun]
  rfl

lemma read_written (hdef : ∃ e ∈ file, Entry.Defines f e)
    (hf : f ≠ [] ∧ ∀ c ∈ f, isWord c = true) (hv : '\n' ∉ v) :
    readConfigSettings f (writeConfigSettings f v (texts file)) =
      some (written hf hv).stored := by
  have hsame : (fun e => e.extends f) ∘ rewrite (written hf hv) = fun e => e.extends f :=
    funext fun e => extends_rewrite (written hf hv) e
  rw [writeConfigSettings_eq hf hv, readConfigSettings_eq hf, List.find?_map, hsame]
  cases hfind : file.find? fun e => e.extends f with
  | none =>
    obtain ⟨e, he, hdef⟩ := hdef
    have hno := List.find?_eq_none.mp hfind e he
    cases e with
    | setting s =>
      rw [Entry.Defines] at hdef
      rw [Entry.extends, hdef, List.isPrefixOf_iff_prefix] at hno
      exact absurd (List.prefix_refl f) hno
    | comment indent text h => exact hdef.elim
    | blank text h => exact hdef.elim
  | some e =>
    have he : e.extends (written hf hv).name = true := List.find?_some hfind
    rw [Option.map_some, Option.map_some, rewrite, if_pos he]
    exact congrArg some (fieldValue_text _)

/-- No other field's name begins with `f`, the value has no equals sign, and `f` already holds it
where the line of `f` is the one that is found for another field. -/
structure Safe (file : List Entry) (f v : List Char) : Prop where
  alone : ∀ s, Entry.setting s ∈ file → f <+: s.name → s.name = f
  noEquals : '=' ∉ v
  kept : ∀ g, (∃ e ∈ file, Entry.Defines g e) → g ≠ f → ∀ s, s.name = f →
    (file.find? fun e => e.extends g) = some (.setting s) → s.stored = v

section Alone

variable (halone : ∀ s, Entry.setting s ∈ file → f <+: s.name → s.name = f)
  (hf : f ≠ [] ∧ ∀ c ∈ f, isWord c = true) (hv : '\n' ∉ v)

include halone

lemma rewrite_of_not_defines {e : Entry} (he : e ∈ file) (hdef : ¬ e.Defines f) :
    rewrite (written hf hv) e = e := by
  apply if_neg
  intro hext
  cases e with
  | setting s => exact hdef (halone s he (List.isPrefixOf_iff_prefix.mp hext))
  | comment indent text h => exact Bool.noConfusion hext
  | blank text h => exact Bool.noConfusion hext

lemma extends_rewrite_of_mem {g : List Char} {e : Entry} (he : e ∈ file) :
    (rewrite (written hf hv) e).extends g = e.extends g := by
  by_cases hdef : e.Defines f
  · cases e with
    | setting s =>
      rw [Entry.Defines] at hdef
      have hext : (Entry.setting s).extends (written hf hv).name = true := by
        change f.isPrefixOf s.name = true
        rw [hdef, List.isPrefixOf_iff_prefix]
      rw [rewrite, if_pos hext, Entry.extends, Entry.extends, hdef]
      rfl
    | comment indent text h => exact hdef.elim
    | blank text h => exact hdef.elim
  · rw [rewrite_of_not_defines halone hf hv he hdef]

lemma read_other {g : List Char} (hg : g ≠ [] ∧ ∀ c ∈ g, isWord c = true) :
    readConfigSettings g (writeConfigSettings f v (texts file)) =
      (file.find? fun e => e.extends g).map fun e =>
        fieldValue (rewrite (written hf hv) e).text := by
  have hfind : file.find? ((fun e => e.extends g) ∘ rewrite (written hf hv)) =
      file.find? fun e => e.extends g := by
    apply List.find?_congr
    exact fun e he => extends_rewrite_of_mem halone hf hv he
  rw [writeConfigSettings_eq hf hv, readConfigSettings_eq hg, List.find?_map, hfind,
    Option.map_map]
  rfl

end Alone

lemma name_of_defines {g : List Char} (h : ∃ e ∈ file, Entry.Defines g e) :
    g ≠ [] ∧ ∀ c ∈ g, isWord c = true := by
  obtain ⟨e, -, hdef⟩ := h
  cases e with
  | setting s => exact hdef ▸ s.name_word
  | comment indent text h => exact hdef.elim
  | blank text h => exact hdef.elim

theorem settings_roundTrip_iff (file : List Entry) (f v : List Char)
    (hdef : ∃ e ∈ file, Entry.Defines f e) (hv : Value v) :
    RoundTrips file f v ↔ Safe file f v := by
  have hf := name_of_defines hdef
  have hback := read_written hdef hf hv.line
  constructor
  · intro h
    have hstored : (written hf hv.line).stored = v :=
      Option.some.inj (hback.symm.trans h.back)
    have halone : ∀ s, Entry.setting s ∈ file → f <+: s.name → s.name = f := by
      intro s hs hpre
      by_contra hne
      obtain ⟨i, hi⟩ := List.mem_iff_getElem?.mp hs
      have hline := h.lines.2 i _ hi hne
      have hext : (Entry.setting s).extends (written hf hv.line).name = true :=
        List.isPrefixOf_iff_prefix.mpr hpre
      rw [writeConfigSettings_eq hf hv.line, texts, List.map_map, List.getElem?_map, hi,
        Option.map_some, Function.comp_apply, rewrite, if_pos hext] at hline
      have htext : (written hf hv.line).text = s.text := Option.some.inj hline
      have hfield := hasField_text (f := s.name) s.name_word.1 s.name_word.2
      have hown : (Entry.setting s).extends s.name = true :=
        List.isPrefixOf_iff_prefix.mpr (List.prefix_refl _)
      rw [← hfield, Entry.text, ← htext, ← Entry.text, hfield] at hown
      have hback : s.name <+: f := List.isPrefixOf_iff_prefix.mp hown
      exact hne (hback.eq_of_length (le_antisymm hback.length_le hpre.length_le))
    refine ⟨halone, (stored_written hf hv).mp hstored, fun g hg hne s hs hfind => ?_⟩
    have hother := h.others g hg hne
    have hext : (Entry.setting s).extends (written hf hv.line).name = true := by
      change f.isPrefixOf s.name = true
      rw [hs, List.isPrefixOf_iff_prefix]
    rw [read_other halone hf hv.line (name_of_defines hg),
      readConfigSettings_eq (name_of_defines hg), hfind, Option.map_some, Option.map_some,
      Option.some.injEq, rewrite, if_pos hext, Entry.text, Entry.text, fieldValue_text,
      fieldValue_text, hstored] at hother
    exact hother.symm
  · rintro ⟨halone, heq, hkept⟩
    have hstored := (stored_written hf hv).mpr heq
    refine ⟨by rw [hback, hstored], fun g hg hne => ?_, ?_, fun i e hi hno => ?_⟩
    · rw [read_other halone hf hv.line (name_of_defines hg),
        readConfigSettings_eq (name_of_defines hg)]
      cases hfind : file.find? fun e => e.extends g with
      | none => rfl
      | some e =>
        rw [Option.map_some, Option.map_some, Option.some.injEq]
        have hmem := List.mem_of_find?_eq_some hfind
        by_cases hd : e.Defines f
        · cases e with
          | setting s =>
            have hext : (Entry.setting s).extends (written hf hv.line).name = true := by
              change f.isPrefixOf s.name = true
              rw [show s.name = f from hd, List.isPrefixOf_iff_prefix]
            rw [rewrite, if_pos hext, Entry.text, Entry.text, fieldValue_text, fieldValue_text,
              hstored, hkept g hg hne s hd hfind]
          | comment indent text h => exact hd.elim
          | blank text h => exact hd.elim
        · rw [rewrite_of_not_defines halone hf hv.line hmem hd]
    · rw [writeConfigSettings, texts, List.length_map, List.length_map]
    · rw [writeConfigSettings_eq hf hv.line, texts, List.map_map, List.getElem?_map, hi,
        Option.map_some, Function.comp_apply,
        rewrite_of_not_defines halone hf hv.line (List.mem_of_getElem? hi) hno]

end Writing

def Entry.field : Entry → Option (List Char)
  | .setting s => some s.name
  | _ => none

def archSetting : Setting where
  indent := []
  name := ['A', 'R', 'C', 'H']
  gap := ['\t']
  body := ['\t', 'm', 'b', ' ']
  tail := ['\n']
  indent_blank := List.all_eq_true.mp rfl
  name_word := ⟨List.cons_ne_nil _ _, List.all_eq_true.mp rfl⟩
  gap_blank := by simp [isSpace]
  body_line := by decide
  tail_blank := List.all_eq_true.mp rfl

def smpSetting : Setting where
  indent := []
  name := ['S', 'M', 'P']
  gap := [' ']
  body := [' ', 'n', 'o', ' ']
  tail := ['\n']
  indent_blank := List.all_eq_true.mp rfl
  name_word := ⟨List.cons_ne_nil _ _, List.all_eq_true.mp rfl⟩
  gap_blank := by simp [isSpace]
  body_line := by decide
  tail_blank := List.all_eq_true.mp rfl

def smallFile : List Entry :=
  [.comment [] ['\n'] (List.all_eq_true.mp rfl), .setting archSetting,
    .blank ['\n'] (List.all_eq_true.mp rfl), .setting smpSetting]

theorem settings_roundTrip_in_smallFile : RoundTrips smallFile ['S', 'M', 'P'] ['y'] := by
  have hdef : ∃ e ∈ smallFile, Entry.Defines ['S', 'M', 'P'] e :=
    ⟨.setting smpSetting, by simp [smallFile], rfl⟩
  apply (settings_roundTrip_iff smallFile ['S', 'M', 'P'] ['y'] hdef
    ⟨by decide, by decide, by decide⟩).mpr
  refine ⟨fun s hs hpre => ?_, by decide, fun g hg hne s hs hfind => ?_⟩
  · simp only [smallFile, List.mem_cons, Entry.setting.injEq, reduceCtorEq, List.not_mem_nil,
      or_false, false_or] at hs
    rcases hs with rfl | rfl
    · exact absurd hpre (by decide)
    · rfl
  · simp only [smallFile, List.mem_cons, List.not_mem_nil, or_false, exists_eq_or_imp,
      exists_eq_left, Entry.Defines, false_or] at hg
    rcases hg with rfl | rfl
    · have hfirst : smallFile.find? (fun e => e.extends archSetting.name) =
          some (.setting archSetting) := rfl
      rw [hfirst, Option.some.injEq, Entry.setting.injEq] at hfind
      rw [← hfind] at hs
      exact absurd hs (by decide)
    · exact absurd rfl hne

def smpMaxSetting : Setting := { smpSetting with
  name := ['S', 'M', 'P', '_', 'M', 'A', 'X']
  name_word := ⟨List.cons_ne_nil _ _, List.all_eq_true.mp rfl⟩ }

theorem settings_lost_with_longer_name :
    ¬ ∀ (file : List Entry) (f v : List Char), (file.filterMap Entry.field).Nodup →
      (∃ e ∈ file, Entry.Defines f e) → Value v → RoundTrips file f v := by
  intro hclaim
  have h := hclaim [.setting smpSetting, .setting smpMaxSetting] ['S', 'M', 'P'] ['y']
    (by decide) ⟨.setting smpSetting, List.mem_cons_self, rfl⟩ ⟨by decide, by decide, by decide⟩
  have hother := h.others smpMaxSetting.name
    ⟨.setting smpMaxSetting, List.mem_cons_of_mem _ List.mem_cons_self, rfl⟩ (by decide)
  exact absurd hother (by decide)

end Hthreads.Compiler
