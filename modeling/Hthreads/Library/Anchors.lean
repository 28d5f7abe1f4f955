import Hthreads.Library.Patterns

/-! Patterns that have to end where the text does. -/

namespace Hthreads.Library.Pattern

variable {α : Type} {ps : Pattern α} {p q : α → Bool} {s t r x run body : List α} {a : α}

section Runs

variable {next : List α → Option (List α)}

lemma behindMany_eq_none (h : ∀ t, t <:+ s → next t = none) : behindMany p next s = none := by
  induction s with
  | nil => exact h [] List.suffix_rfl
  | cons a s ih =>
    have hrest := ih fun t ht => h t (ht.trans (List.suffix_cons a s))
    rw [behindMany, hrest, Option.none_or, ite_self]
    exact h _ List.suffix_rfl

lemma behindMany_of_some (hrun : ∀ a ∈ run, p a = true) (h : behindMany p next s = some r) :
    behindMany p next (run ++ s) = some r := by
  induction run with
  | nil => exact h
  | cons a run ih =>
    rw [List.cons_append, behindMany, if_pos (hrun a List.mem_cons_self),
      ih fun b hb => hrun b (List.mem_cons_of_mem a hb), Option.some_or]

lemma behindMany_of_next (hstop : ∀ a ∈ s.head?, p a = false) (h : next s = some r) :
    behindMany p next s = some r := by
  cases s with
  | nil => exact h
  | cons a s =>
    rw [behindMany, if_neg (by rw [hstop a rfl]; exact Bool.false_ne_true)]
    exact h

lemma behindMany_last (hbody : ∀ a ∈ body, p a = true) (hnext : next (a :: t) = some r)
    (hlater : ∀ u, u <:+ t → next u = none) :
    behindMany p next (body ++ a :: t) = some r := by
  apply behindMany_of_some hbody
  rw [behindMany, behindMany_eq_none hlater, Option.none_or, ite_self]
  exact hnext

end Runs

/-- What is left behind a match at the beginning, when the rest ends the text. -/
def behindTo (ends : List α → Bool) : Pattern α → List α → Option (List α)
  | [], s => if ends s then some s else none
  | .one _ :: _, [] => none
  | .one p :: ps, a :: s => if p a then behindTo ends ps s else none
  | .many p :: ps, s => behindMany p (behindTo ends ps) s

/-- The first place with a match that ends the text: what stands before it. -/
def findTo (ends : List α → Bool) (ps : Pattern α) : List α → Option (List α)
  | [] => (ps.behindTo ends []).map fun _ => []
  | a :: s =>
    match ps.behindTo ends (a :: s) with
    | some _ => some []
    | none => (findTo ends ps s).map (a :: ·)

/-- What remains when that match is taken away. -/
def cutTo (ends : List α → Bool) (ps : Pattern α) (s : List α) : List α :=
  (ps.findTo ends s).getD s

variable {ends : List α → Bool}

lemma findTo_of_behindTo (h : ps.behindTo ends s = some r) : ps.findTo ends s = some [] := by
  cases s with
  | nil => rw [findTo, h, Option.map_some]
  | cons a s => rw [findTo, h]

lemma findTo_append (hx : ∀ y z, x = y ++ z → z ≠ [] → ps.behindTo ends (z ++ s) = none)
    (h : ps.behindTo ends s = some r) : ps.findTo ends (x ++ s) = some x := by
  induction x with
  | nil => exact findTo_of_behindTo h
  | cons a x ih =>
    rw [List.cons_append, findTo]
    have hfirst := hx [] (a :: x) rfl (List.cons_ne_nil a x)
    rw [List.cons_append] at hfirst
    rw [hfirst]
    dsimp only
    rw [ih fun y z hyz hz => hx (a :: y) z (by rw [hyz, List.cons_append]) hz, Option.map_some]

section Ending

variable {mark : α}

/-- A mark between two runs, the second up to the end of the text. -/
def marked [DecidableEq α] (p : α → Bool) (mark : α) : Pattern α :=
  [.many p, .one (· = mark), .many p]

variable [DecidableEq α] (hmark : p mark = false) (hends : ∀ s, ends s = true → ∀ a ∈ s, p a = true)

include hends

lemma marked_behindTo_isSome (h : ((marked p mark).behindTo ends s).isSome = true) :
    ∃ run rest, s = run ++ mark :: rest ∧ (∀ a ∈ run, p a = true) ∧ ∀ a ∈ rest, p a = true := by
  obtain ⟨run, t, rfl, hrun, ht⟩ := behindMany_isSome.mp h
  cases t with
  | nil => exact absurd ht Bool.false_ne_true
  | cons b t =>
    rw [behindTo] at ht
    split at ht
    case isFalse => exact absurd ht Bool.false_ne_true
    case isTrue hb =>
      obtain ⟨rest, u, rfl, hrest, hu⟩ := behindMany_isSome.mp ht
      refine ⟨run, rest ++ u, by rw [of_decide_eq_true hb], hrun, fun a ha => ?_⟩
      rcases List.mem_append.mp ha with ha | ha
      · exact hrest a ha
      · apply hends u _ a ha
        by_contra hno
        rw [behindTo, if_neg hno] at hu
        exact Bool.false_ne_true hu

include hmark

lemma cutTo_marked {ws tail : List α} (hnil : ends [] = true)
    (hx : ∀ a ∈ x.getLast?, p a = false) (hws : ∀ a ∈ ws, p a = true)
    (htail : ∀ a ∈ tail, p a = true) :
    cutTo ends (marked p mark) (x ++ (ws ++ mark :: tail)) = x := by
  have hrest : behindTo ends [.many p] tail = some [] := by
    have hend : behindMany p (behindTo ends []) [] = some [] := if_pos hnil
    have := behindMany_of_some htail hend
    rwa [List.append_nil] at this
  have hhere : (marked p mark).behindTo ends (ws ++ mark :: tail) = some [] := by
    apply behindMany_of_some hws
    apply behindMany_of_next
    · intro a ha
      rw [← Option.some.inj ha]
      exact hmark
    · rw [behindTo, if_pos (decide_eq_true rfl)]
      exact hrest
  rw [cutTo, findTo_append (fun y z hyz hz => ?_) hhere, Option.getD_some]
  by_contra hsome
  obtain ⟨run, rest, hsplit, hrun, hrest'⟩ :=
    marked_behindTo_isSome hends (Option.isSome_iff_ne_none.mpr hsome)
  have hlast : ∃ a ∈ z, p a = false := by
    obtain ⟨a, ha⟩ := Option.isSome_iff_exists.mp (List.getLast?_isSome.mpr hz)
    refine ⟨a, List.mem_of_getLast? ha, hx a ?_⟩
    rw [hyz, List.getLast?_append, ha]
    rfl
  obtain ⟨a, ha, hpa⟩ := hlast
  rw [← List.append_assoc] at hsplit
  rcases List.append_eq_append_iff.mp hsplit with ⟨l, hl, hl'⟩ | ⟨l, hl, hl'⟩
  · have := hrun a (hl ▸ List.mem_append_left l (List.mem_append_left ws ha))
    rw [hpa] at this
    exact Bool.false_ne_true this
  · cases l with
    | nil =>
      rw [List.append_nil] at hl
      have := hrun a (hl ▸ List.mem_append_left ws ha)
      rw [hpa] at this
      exact Bool.false_ne_true this
    | cons b l =>
      have hin : mark ∈ rest := by
        rw [(List.cons.inj hl').2]
        exact List.mem_append_right l List.mem_cons_self
      rw [hrest' mark hin] at hmark
      exact Bool.noConfusion hmark

end Ending

end Hthreads.Library.Pattern
