import Hthreads.Library.Loops
import Hthreads.Library.Patterns
import Mathlib.Data.Int.Notation

/-! The functions a function depends on, and the lines that are written for them (`parser.py`). -/

namespace Hthreads.Compiler

open Library

abbrev Line := List Char

-- `\s`
def isSpace (c : Char) : Bool :=
  c = ' ' || c = '\t' || c = '\n' || c = '\r' || c = '\x0b' || c = '\x0c'

def isIdentifier : List Char → Bool
  | [] => false
  | c :: cs => (c.isAlpha || c = '_') && cs.all fun c => c.isAlphanum || c = '_'

abbrev Name := { word : List Char // isIdentifier word = true }

inductive Field
  | text (word : List Char)
  | number (n : ℕ)
  deriving DecidableEq

def Name.field (name : Name) : Field := .text name

/-- A function of the source, with its first and its last line. Lines are counted from one. -/
structure Listed where
  offset : List Char
  name : Name
  start : ℕ
  stop : ℕ

def Listed.fields (f : Listed) : List Field :=
  [.text ('0' :: 'x' :: f.offset), f.name.field, .number f.start, .number f.stop]

def functionList (fs : List Listed) : List Field := fs.flatMap Listed.fields

def textAt (l : List Field) (k : ℕ) : Option (List Char) :=
  match l[k]? with
  | some (.text word) => some word
  | _ => none

def numberAt (l : List Field) (k : ℕ) : Option ℕ :=
  match l[k]? with
  | some (.number n) => some n
  | _ => none

/-- The table of the dependencies, with the names of the functions in its first row and column. -/
structure Table where
  rows : ℕ
  cols : ℕ
  cell : ℕ → ℕ → Field

namespace Table

variable (t : Table)

def get (i j : ℕ) : Option Field := if i < t.rows ∧ j < t.cols then some (t.cell i j) else none

def mark (i j : ℕ) : Option Table :=
  if i < t.rows ∧ j < t.cols then
    some { t with cell := Function.update t.cell i (Function.update (t.cell i) j (.number 1)) }
  else none

def header : List Field := (List.range t.cols).map (t.cell 0)

-- the diagonal is skipped
def callees (index cols : ℕ) : List Field :=
  ((List.range' 1 (cols - 1)).filter fun column =>
    index ≠ column ∧ t.cell index column = .number 1).map (t.cell 0)

end Table

def callPattern (name : List Char) : Pattern Char :=
  .many (· = '*') :: .many isSpace ::
    .many (fun c => !('a' ≤ c && c ≤ 'z' || c = ',' || '0' ≤ c && c ≤ '9')) ::
    (Pattern.literal name ++ [.many isSpace, .one (· = '(')])

def main : List Char := ['m', 'a', 'i', 'n']

-- the names that are called in the lines of a function, and `main`
def dependencyList (srcLines : List Line) (functionList : List Field) (functionCnt start stop : ℕ) :
    Option (List (List Char)) := do
  let names ← (List.range functionCnt).mapM fun count => textAt functionList (4 * count + 1)
  let lines ← (List.range' start (stop + 1 - start)).mapM fun number => srcLines[number - 1]?
  some ((lines.flatMap fun line => names.filter fun name => (callPattern name).search line) ++
    [main])

def markRow (t : Table) (dependencyList : List (List Char)) (count functionCnt : ℕ) :
    Option Table :=
  (List.range functionCnt).foldlM (fun t count2 => do
    let label ← t.get 0 (count2 + 1)
    if label ∈ dependencyList.map .text then t.mark (count + 1) (count2 + 1) else some t) t

def figureInitialDependencies (srcLines : List Line) (functionList : List Field) (functionCnt : ℕ)
    (t : Table) (rows cols : ℕ) : Option Table :=
  if t.rows = rows ∧ t.cols = cols then
    (List.range functionCnt).foldlM (fun t count => do
      let name ← textAt functionList (4 * count + 1)
      let start ← numberAt functionList (4 * count + 2)
      let stop ← numberAt functionList (4 * count + 3)
      let label ← t.get (count + 1) 0
      if label = .text name then
        markRow t (← dependencyList srcLines functionList functionCnt start stop) count functionCnt
      else none) t
  else none

lemma filter_lt_of_mem {l done : List Field} {a : Field} (ha : a ∈ l) (hdone : a ∉ done) :
    (l.filter (· ∉ done ++ [a])).length < (l.filter (· ∉ done)).length := by
  have hfilter : l.filter (· ∉ done ++ [a]) = (l.filter (· ∉ done)).filter (· ≠ a) := by
    rw [List.filter_filter]
    refine List.filter_congr fun b _ => ?_
    rw [Bool.eq_iff_iff, Bool.and_eq_true, decide_eq_true_iff, decide_eq_true_iff,
      decide_eq_true_iff, List.mem_append, List.mem_singleton, not_or, and_comm]
  rw [hfilter, List.length_filter_lt_length_iff_exists]
  exact ⟨a, List.mem_filter.mpr ⟨ha, decide_eq_true hdone⟩, by simp⟩

/-- The loop over the buffer, whose last member comes first here. -/
def figureLoop (t : Table) (cols : ℕ) (finalList : List Field) : List Field → Option (List Field)
  | [] => some finalList
  | dependency :: bufferList =>
    if _hdone : dependency ∈ finalList then figureLoop t cols finalList bufferList
    else match _hindex : t.header.idxOf? dependency with
      | none => none
      | some index =>
        if index < t.rows then
          figureLoop t cols (finalList ++ [dependency])
            ((t.callees index cols).reverse ++ bufferList)
        else none
termination_by bufferList => ((t.header.filter (· ∉ finalList)).length, bufferList.length)
decreasing_by
  · exact .right _ (Nat.lt_succ_self _)
  · refine .left _ _ (filter_lt_of_mem ?_ _hdone)
    exact List.isSome_idxOf?.mp (_hindex ▸ Option.isSome_some)

def figureAllDependencies (t : Table) (functionName : Field) (rows cols : ℕ) :
    Option (List Field) :=
  if t.rows = rows ∧ t.cols = cols ∧ functionName ∈ t.header then
    figureLoop t cols [] [functionName]
  else none

-- `lines_to_write[i] = value` for the lines from `start` to `stop`
def markLines (value : ℤ) (start stop : ℕ) (linesToWrite : List ℤ) : Option (List ℤ) :=
  (List.range' (start - 1) (stop - (start - 1))).foldlM
    (fun l i => if i < l.length then some (l.set i value) else none) linesToWrite

def getFunctionRange (dependencyList functionList : List Field) (srcLines : List Line) :
    Option (List ℤ) := do
  let masked ← (List.range ((functionList.length + 3) / 4)).foldlM (fun l count => do
    markLines (-1) (← numberAt functionList (4 * count + 2))
      (← numberAt functionList (4 * count + 3)) l) (List.replicate srcLines.length 0)
  dependencyList.foldlM (fun l dependency => do
    let index ← functionList.idxOf? dependency
    markLines 0 (← numberAt functionList (index + 1))
      (← numberAt functionList (index + 2)) l) masked

section Calls

/-- The line has a call of the function: its name, white space and an opening bracket. -/
def Line.Calls (line : Line) (name : List Char) : Prop :=
  ∃ before space after, line = before ++ (name ++ (space ++ '(' :: after)) ∧
    ∀ c ∈ space, isSpace c = true

lemma callPattern_search {line : Line} {name : List Char} :
    (callPattern name).search line = true ↔ line.Calls name := by
  rw [callPattern, Pattern.search_many, Pattern.search_many, Pattern.search_many,
    Pattern.search_iff]
  constructor
  · rintro ⟨before, m, after, rfl, hm⟩
    obtain ⟨m', rfl, space, m'', rfl, hspace, c, m''', rfl, hc, rfl⟩ :=
      Pattern.matches_literal.mp hm
    refine ⟨before, space, after, ?_, hspace⟩
    rw [of_decide_eq_true hc, List.append_assoc, List.append_assoc]
    rfl
  · rintro ⟨before, space, after, rfl, hspace⟩
    refine ⟨before, name ++ (space ++ ['(']), after, ?_, Pattern.matches_literal.mpr
      ⟨space ++ ['('], rfl, space, ['('], rfl, hspace, '(', [], rfl, rfl, rfl⟩⟩
    rw [List.append_assoc, List.append_assoc]
    rfl

end Calls

section Lists

variable {fs : List Listed} {f : Listed} {k j : ℕ}

lemma functionList_getElem? (hf : fs[k]? = some f) (hj : j < 4) :
    (functionList fs)[4 * k + j]? = f.fields[j]? := by
  induction fs generalizing k with
  | nil => cases hf
  | cons g fs ih =>
    rw [functionList, List.flatMap_cons]
    cases k with
    | zero =>
      cases hf
      rw [Nat.mul_zero, Nat.zero_add, List.getElem?_append_left hj]
    | succ k =>
      rw [List.getElem?_append_right (by change 4 ≤ _; omega),
        show 4 * (k + 1) + j - g.fields.length = 4 * k + j by change _ - 4 = _; omega]
      exact ih hf

lemma length_functionList : (functionList fs).length = 4 * fs.length := by
  induction fs with
  | nil => rfl
  | cons f fs ih =>
    rw [functionList] at ih
    rw [functionList, List.flatMap_cons, List.length_append, ih, List.length_cons]
    change 4 + _ = _
    omega

lemma textAt_name (hf : fs[k]? = some f) :
    textAt (functionList fs) (4 * k + 1) = some f.name := by
  rw [textAt, functionList_getElem? hf (by decide)]
  rfl

lemma numberAt_start (hf : fs[k]? = some f) :
    numberAt (functionList fs) (4 * k + 2) = some f.start := by
  rw [numberAt, functionList_getElem? hf (by decide)]
  rfl

lemma numberAt_stop (hf : fs[k]? = some f) :
    numberAt (functionList fs) (4 * k + 3) = some f.stop := by
  rw [numberAt, functionList_getElem? hf (by decide)]
  rfl

lemma offset_ne (name : Name) (offset : List Char) :
    Field.text ('0' :: 'x' :: offset) ≠ name.field := by
  intro h
  have hname := name.property
  rw [← Field.text.inj h] at hname
  cases hname

lemma field_inj {a b : Name} (h : a.field = b.field) : a = b := Subtype.ext (Field.text.inj h)

lemma functionList_idxOf? (hnames : (fs.map (·.name)).Nodup) (hf : fs[k]? = some f) :
    (functionList fs).idxOf? f.name.field = some (4 * k + 1) := by
  induction fs generalizing k with
  | nil => cases hf
  | cons g fs ih =>
    rw [List.map_cons, List.nodup_cons] at hnames
    rw [functionList, List.flatMap_cons, Listed.fields, List.cons_append, List.cons_append,
      List.cons_append, List.cons_append, List.nil_append, List.idxOf?_cons,
      if_neg (by simpa using offset_ne f.name g.offset), List.idxOf?_cons]
    cases k with
    | zero =>
      cases hf
      rw [if_pos (by simp)]
      rfl
    | succ k =>
      have hne : g.name.field ≠ f.name.field := fun h =>
        hnames.1 (field_inj h ▸ List.mem_map_of_mem (List.mem_of_getElem? hf))
      rw [if_neg (by simpa using hne), List.idxOf?_cons, if_neg (by simp [Name.field]),
        List.idxOf?_cons, if_neg (by simp [Name.field])]
      have hrest := ih hnames.2 hf
      rw [functionList] at hrest
      rw [hrest]
      rfl

end Lists

end Hthreads.Compiler
