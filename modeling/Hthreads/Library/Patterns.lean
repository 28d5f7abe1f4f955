import Mathlib.Data.List.DropRight
import Mathlib.Data.List.Infix

/-! Patterns of single letters and runs of letters, matched as far left and then as far as they can
be. -/

namespace Hthreads.Library

inductive Piece (α : Type)
  | one (p : α → Bool)
  | many (p : α → Bool)

abbrev Pattern (α : Type) := List (Piece α)

/-- What is left behind the longest run after which `next` succeeds. -/
def behindMany {α : Type} (p : α → Bool) (next : List α → Option (List α)) :
    List α → Option (List α)
  | [] => next []
  | a :: s => if p a then (behindMany p next s).or (next (a :: s)) else next (a :: s)

namespace Pattern

variable {α : Type}

def literal [DecidableEq α] (word : List α) : Pattern α := word.map fun a => .one (· = a)

/-- What is left behind a match at the beginning. -/
def behind : Pattern α → List α → Option (List α)
  | [], s => some s
  | .one _ :: _, [] => none
  | .one p :: ps, a :: s => if p a then behind ps s else none
  | .many p :: ps, s => behindMany p (behind ps) s

/-- The first place with a match: what stands before it, and what is left behind it. -/
def find (ps : Pattern α) : List α → Option (List α × List α)
  | [] => (ps.behind []).map fun r => ([], r)
  | a :: s =>
    match ps.behind (a :: s) with
    | some r => some ([], r)
    | none => (find ps s).map fun m => (a :: m.1, m.2)

/-- The last place with a match. -/
def findLast (ps : Pattern α) : List α → Option (List α × List α)
  | [] => (ps.behind []).map fun r => ([], r)
  | a :: s =>
    match findLast ps s with
    | some m => some (a :: m.1, m.2)
    | none => (ps.behind (a :: s)).map fun r => ([], r)

def search (ps : Pattern α) (s : List α) : Bool := (ps.find s).isSome

def subWithin (ps : Pattern α) (new : List α) : ℕ → List α → List α
  | 0, s => s
  | n + 1, s =>
    match ps.find s with
    | none => s
    | some m => m.1 ++ new ++ subWithin ps new n m.2

/-- Every match is replaced, for a pattern that does not match the empty word. -/
def sub (ps : Pattern α) (new s : List α) : List α := ps.subWithin new s.length s

/-- The words that a pattern stands for. -/
def Matches : Pattern α → List α → Prop
  | [], m => m = []
  | .one p :: ps, m => ∃ a m', m = a :: m' ∧ p a = true ∧ Matches ps m'
  | .many p :: ps, m => ∃ run m', m = run ++ m' ∧ (∀ a ∈ run, p a = true) ∧ Matches ps m'

variable {ps : Pattern α} {p : α → Bool} {s r : List α}

lemma behindMany_isSome {next : List α → Option (List α)} : (behindMany p next s).isSome ↔
    ∃ run r, s = run ++ r ∧ (∀ a ∈ run, p a = true) ∧ (next r).isSome := by
  induction s with
  | nil =>
    rw [behindMany]
    constructor
    · exact fun h => ⟨[], [], rfl, fun a ha => (nomatch ha), h⟩
    · rintro ⟨run, r, hs, -, h⟩
      rwa [(List.append_eq_nil_iff.mp hs.symm).2] at h
  | cons a s ih =>
    rw [behindMany]
    constructor
    · intro h
      split at h
      next hp =>
        rw [Option.isSome_or, Bool.or_eq_true, ih] at h
        rcases h with ⟨run, r, hs, hrun, h⟩ | h
        · exact ⟨a :: run, r, by rw [hs, List.cons_append], List.forall_mem_cons.mpr ⟨hp, hrun⟩, h⟩
        · exact ⟨[], a :: s, rfl, fun b hb => (nomatch hb), h⟩
      next => exact ⟨[], a :: s, rfl, fun b hb => (nomatch hb), h⟩
    · rintro ⟨run, r, hs, hrun, h⟩
      cases run with
      | nil =>
        rw [List.nil_append] at hs
        rw [← hs] at h
        split
        · rw [Option.isSome_or, h, Bool.or_true]
        · exact h
      | cons b run =>
        obtain ⟨rfl, htail⟩ := List.cons.inj hs
        have hrest := ih.mpr ⟨run, r, htail, fun c hc => hrun c (List.mem_cons_of_mem a hc), h⟩
        rw [if_pos (hrun a List.mem_cons_self), Option.isSome_or, hrest, Bool.true_or]

lemma behind_isSome : (ps.behind s).isSome ↔ ∃ m r, s = m ++ r ∧ ps.Matches m := by
  induction ps generalizing s with
  | nil => exact iff_of_true rfl ⟨[], s, rfl, rfl⟩
  | cons piece ps ih =>
    cases piece with
    | one p =>
      cases s with
      | nil =>
        refine iff_of_false (fun h => (nomatch h)) ?_
        rintro ⟨m, r, hs, a, m', rfl, -⟩
        cases hs
      | cons a s =>
        rw [behind]
        constructor
        · intro h
          split at h
          next hp =>
            obtain ⟨m, r, rfl, hm⟩ := ih.mp h
            exact ⟨a :: m, r, rfl, a, m, rfl, hp, hm⟩
          next => cases h
        · rintro ⟨m, r, hs, b, m', rfl, hp, hm⟩
          obtain ⟨rfl, htail⟩ := List.cons.inj hs
          rw [if_pos hp]
          exact ih.mpr ⟨m', r, htail, hm⟩
    | many p =>
      rw [behind, behindMany_isSome]
      constructor
      · rintro ⟨run, rest, rfl, hrun, h⟩
        obtain ⟨m, r, rfl, hm⟩ := ih.mp h
        exact ⟨run ++ m, r, (List.append_assoc _ _ _).symm, run, m, rfl, hrun, hm⟩
      · rintro ⟨m, r, rfl, run, m', rfl, hrun, hm⟩
        exact ⟨run, m' ++ r, List.append_assoc _ _ _, hrun, ih.mpr ⟨m', r, rfl, hm⟩⟩

lemma search_iff : ps.search s = true ↔ ∃ before m r, s = before ++ (m ++ r) ∧ ps.Matches m := by
  induction s with
  | nil =>
    rw [search, find, Option.isSome_map, behind_isSome]
    constructor
    · rintro ⟨m, r, hs, hm⟩
      exact ⟨[], m, r, hs, hm⟩
    · rintro ⟨before, m, r, hs, hm⟩
      exact ⟨m, r, (List.append_eq_nil_iff.mp hs.symm).2.symm, hm⟩
  | cons a s ih =>
    rw [search] at ih ⊢
    rw [find]
    constructor
    · intro h
      split at h
      next r heq =>
        obtain ⟨m, r, hs, hm⟩ := behind_isSome.mp (heq ▸ Option.isSome_some)
        exact ⟨[], m, r, hs, hm⟩
      next =>
        rw [Option.isSome_map] at h
        obtain ⟨before, m, r, rfl, hm⟩ := ih.mp h
        exact ⟨a :: before, m, r, rfl, hm⟩
    · rintro ⟨before, m, r, hs, hm⟩
      split
      next => rfl
      next heq =>
        rw [Option.isSome_map]
        cases before with
        | nil =>
          have := behind_isSome.mpr ⟨m, r, hs, hm⟩
          rw [heq] at this
          cases this
        | cons b before => exact ih.mpr ⟨before, m, r, (List.cons.inj hs).2, hm⟩

lemma matches_literal [DecidableEq α] {word m : List α} :
    Matches (literal word ++ ps) m ↔ ∃ m', m = word ++ m' ∧ ps.Matches m' := by
  induction word generalizing m with
  | nil => simp [literal]
  | cons a word ih =>
    change (∃ b m', m = b :: m' ∧ decide (b = a) = true ∧ Matches (literal word ++ ps) m') ↔ _
    constructor
    · rintro ⟨b, m', rfl, hb, hm⟩
      obtain ⟨rest, rfl, hrest⟩ := ih.mp hm
      exact ⟨rest, by rw [of_decide_eq_true hb, List.cons_append], hrest⟩
    · rintro ⟨rest, rfl, hrest⟩
      exact ⟨a, word ++ rest, rfl, decide_eq_true rfl, ih.mpr ⟨rest, rfl, hrest⟩⟩

lemma search_many : search (.many p :: ps) s = ps.search s := by
  rw [Bool.eq_iff_iff, search_iff, search_iff]
  constructor
  · rintro ⟨before, m, r, rfl, run, m', rfl, -, hm⟩
    exact ⟨before ++ run, m', r, by rw [List.append_assoc, List.append_assoc], hm⟩
  · rintro ⟨before, m, r, rfl, hm⟩
    exact ⟨before, m, r, rfl, [], m, rfl, fun a ha => (nomatch ha), hm⟩

section Runs

variable {next : List α → Option (List α)}

lemma behindMany_of_total {g : List α → List α} (h : ∀ s, next s = some (g s)) :
    behindMany p next s = some (g (s.dropWhile p)) := by
  induction s with
  | nil => exact h []
  | cons a s ih =>
    rw [behindMany]
    split
    next hp => rw [ih, Option.some_or, List.dropWhile_cons_of_pos hp]
    next hp => rw [h, List.dropWhile_cons_of_neg hp]

lemma behindMany_of_stop (h : ∀ a s, p a = true → next (a :: s) = none) :
    behindMany p next s = next (s.dropWhile p) := by
  induction s with
  | nil => rfl
  | cons a s ih =>
    rw [behindMany]
    split
    next hp => rw [h a s hp, Option.or_none, ih, List.dropWhile_cons_of_pos hp]
    next hp => rw [List.dropWhile_cons_of_neg hp]

lemma behindMany_twice : behindMany p (behindMany p next) s = behindMany p next s := by
  induction s with
  | nil => rfl
  | cons a s ih =>
    rw [behindMany]
    by_cases hp : p a = true
    · rw [if_pos hp, ih, behindMany, if_pos hp, ← Option.or_assoc, Option.or_self]
    · rw [if_neg hp]

end Runs

section Finding

lemma find_cons (a : α) : ps.find (a :: s) = ((ps.behind (a :: s)).map fun r => ([], r)).or
    ((ps.find s).map fun m => (a :: m.1, m.2)) := by
  rw [find]
  cases ps.behind (a :: s) <;> rfl

lemma findLast_cons (a : α) : ps.findLast (a :: s) =
    ((ps.findLast s).map fun m => (a :: m.1, m.2)).or
      ((ps.behind (a :: s)).map fun r => ([], r)) := by
  rw [findLast]
  cases ps.findLast s <;> rfl

lemma find_eq_none_iff : ps.find s = none ↔ ∀ t, t <:+ s → ps.behind t = none := by
  induction s with
  | nil =>
    rw [find, Option.map_eq_none_iff]
    constructor
    · intro h t ht
      rwa [List.suffix_nil.mp ht]
    · exact fun h => h [] List.nil_suffix
  | cons a s ih =>
    rw [find_cons, Option.or_eq_none_iff, Option.map_eq_none_iff, Option.map_eq_none_iff, ih]
    constructor
    · rintro ⟨hfirst, hrest⟩ t ht
      rcases List.suffix_cons_iff.mp ht with rfl | ht
      · exact hfirst
      · exact hrest t ht
    · exact fun h => ⟨h _ List.suffix_rfl, fun t ht => h t (ht.trans (List.suffix_cons a s))⟩

lemma find_none_of_suffix {t : List α} (h : ps.find s = none) (ht : t <:+ s) : ps.find t = none :=
  find_eq_none_iff.mpr fun u hu => find_eq_none_iff.mp h u (hu.trans ht)

lemma findLast_eq_none_iff : ps.findLast s = none ↔ ps.find s = none := by
  induction s with
  | nil => exact Iff.rfl
  | cons a s ih =>
    rw [find_cons, findLast_cons, Option.or_eq_none_iff, Option.or_eq_none_iff,
      Option.map_eq_none_iff, Option.map_eq_none_iff, Option.map_eq_none_iff, ih, and_comm]

lemma find_eq_some {m : List α × List α} (h : ps.find s = some m) :
    ∃ t, s = m.1 ++ t ∧ ps.behind t = some m.2 := by
  induction s generalizing m with
  | nil =>
    obtain ⟨r, hr, rfl⟩ := Option.map_eq_some_iff.mp h
    exact ⟨[], rfl, hr⟩
  | cons a s ih =>
    rw [find_cons, Option.or_eq_some_iff] at h
    rcases h with h | ⟨-, h⟩
    · obtain ⟨r, hr, rfl⟩ := Option.map_eq_some_iff.mp h
      exact ⟨a :: s, rfl, hr⟩
    · obtain ⟨m', hm', rfl⟩ := Option.map_eq_some_iff.mp h
      obtain ⟨t, rfl, ht⟩ := ih hm'
      exact ⟨t, rfl, ht⟩

lemma find_first {m : List α × List α} {u t : List α} (h : ps.find (u ++ t) = some m)
    (ht : (ps.behind t).isSome) : m.1.length ≤ u.length := by
  induction u generalizing m with
  | nil =>
    rw [List.nil_append] at h
    obtain ⟨r, hr⟩ := Option.isSome_iff_exists.mp ht
    cases t with
    | nil =>
      rw [find, hr] at h
      exact (congrArg (List.length ∘ Prod.fst) (Option.some.inj h)).symm.le
    | cons a t =>
      rw [find_cons, hr] at h
      exact (congrArg (List.length ∘ Prod.fst) (Option.some.inj h)).symm.le
  | cons a u ih =>
    rw [List.cons_append, find_cons, Option.or_eq_some_iff] at h
    rcases h with h | ⟨-, h⟩
    · obtain ⟨r, -, rfl⟩ := Option.map_eq_some_iff.mp h
      exact Nat.zero_le _
    · obtain ⟨m', hm', rfl⟩ := Option.map_eq_some_iff.mp h
      exact Nat.succ_le_succ (ih hm')

lemma rdropWhile_cons (a : α) : (a :: s).rdropWhile p =
    if s.rdropWhile p = [] then [a].rdropWhile p else a :: s.rdropWhile p := by
  rw [List.rdropWhile, List.reverse_cons, List.dropWhile_append, List.rdropWhile]
  simp only [List.isEmpty_iff, List.reverse_eq_nil_iff]
  split
  · rfl
  · rw [List.reverse_append]
    rfl

lemma find_of_behind_dropWhile (h : ∀ a s, p a = true → ps.behind (a :: s) = none)
    (hr : ps.behind (s.dropWhile p) = some r) : ps.find s = some (s.takeWhile p, r) := by
  induction s with
  | nil => exact congrArg (Option.map _) hr
  | cons a s ih =>
    rw [find_cons]
    by_cases hp : p a = true
    · rw [List.dropWhile_cons_of_pos hp] at hr
      rw [h a s hp, ih hr, List.takeWhile_cons_of_pos hp]
      rfl
    · rw [List.dropWhile_cons_of_neg hp] at hr
      rw [hr, List.takeWhile_cons_of_neg hp]
      rfl

/-- A run that the rest of the pattern cannot begin with is as long as it can be. -/
lemma find_many (h : ∀ a s, p a = true → ps.behind (a :: s) = none) :
    find (.many p :: ps) s = (ps.find s).map fun m => (m.1.rdropWhile p, m.2) := by
  induction s with
  | nil =>
    rw [find, find, behind, behindMany]
    cases ps.behind [] <;> rfl
  | cons a s ih =>
    rw [find_cons, find_cons, behind, behindMany_of_stop h, ih]
    by_cases hp : p a = true
    · rw [List.dropWhile_cons_of_pos hp, h a s hp, Option.map_none, Option.none_or]
      cases hrun : ps.behind (s.dropWhile p) with
      | some r =>
        rw [find_of_behind_dropWhile h hrun]
        have hall : (a :: s.takeWhile p).rdropWhile p = [] :=
          List.rdropWhile_eq_nil_iff.mpr (List.forall_mem_cons.mpr ⟨hp, fun x hx =>
            List.mem_takeWhile_imp hx⟩)
        simp [hall]
      | none =>
        cases hfind : ps.find s with
        | none => rfl
        | some m =>
          -- a found place within the run would have been the end of the run
          have hother : m.1.rdropWhile p ≠ [] := by
            intro hnil
            obtain ⟨t, rfl, ht⟩ := find_eq_some hfind
            rw [List.dropWhile_append_of_pos (List.rdropWhile_eq_nil_iff.mp hnil)] at hrun
            have hstop : t.dropWhile p = t := by
              cases t with
              | nil => rfl
              | cons b t =>
                refine List.dropWhile_cons_of_neg fun hb => ?_
                rw [h b t hb] at ht
                cases ht
            rw [hstop, ht] at hrun
            cases hrun
          simp [rdropWhile_cons, hother]
    · rw [List.dropWhile_cons_of_neg hp]
      have hcons (b : List α) : (a :: b).rdropWhile p = a :: b.rdropWhile p := by
        rw [rdropWhile_cons]
        split
        next hnil => rw [hnil, List.rdropWhile_singleton, if_neg hp]
        next => rfl
      cases ps.behind (a :: s) with
      | some r => simp
      | none =>
        cases ps.find s with
        | none => rfl
        | some m => simp [hcons]

/-- A run that goes on to the end of `body` takes all up to the last match. -/
lemma behindMany_eq_findLast {body tail : List α} (hbody : ∀ a ∈ body, p a = true)
    (htail : ps.find tail = none) : behindMany p ps.behind (body ++ tail) =
      (ps.findLast (body ++ tail)).map Prod.snd := by
  induction body with
  | nil =>
    rw [List.nil_append, findLast_eq_none_iff.mpr htail,
      Option.map_none, ← Option.not_isSome_iff_eq_none, behindMany_isSome]
    rintro ⟨run, r, rfl, -, hr⟩
    rw [find_eq_none_iff.mp htail r (List.suffix_append run r)] at hr
    cases hr
  | cons a body ih =>
    rw [List.cons_append, behindMany, if_pos (hbody a List.mem_cons_self),
      ih fun b hb => hbody b (List.mem_cons_of_mem a hb), findLast_cons]
    cases ps.findLast (body ++ tail) with
    | none => cases ps.behind (a :: (body ++ tail)) <;> rfl
    | some m => rfl

end Finding

section Literals

variable [DecidableEq α] {word : List α} {m : List α × List α}

lemma behind_literal_append :
    behind (literal word ++ ps) s = (behind (literal word) s).bind ps.behind := by
  induction word generalizing s with
  | nil => rfl
  | cons a word ih =>
    cases s with
    | nil => rfl
    | cons b s =>
      change (if decide (b = a) = true then behind (literal word ++ ps) s else none) =
        (if decide (b = a) = true then behind (literal word) s else none).bind ps.behind
      split
      · exact ih
      · rfl

lemma behind_literal (h : behind (literal word) s = some r) : s = word ++ r := by
  induction word generalizing s with
  | nil => exact Option.some.inj h
  | cons a word ih =>
    cases s with
    | nil => cases h
    | cons b s =>
      change (if decide (b = a) = true then behind (literal word) s else none) = some r at h
      split at h
      next hb => rw [of_decide_eq_true hb, ih h, List.cons_append]
      next => cases h

lemma find_literal (h : find (literal word) s = some m) : s = m.1 ++ (word ++ m.2) := by
  obtain ⟨t, rfl, ht⟩ := find_eq_some h
  rw [behind_literal ht]

lemma behind_literal_self : behind (literal word) (word ++ r) = some r := by
  induction word with
  | nil => rfl
  | cons a word ih =>
    change (if decide (a = a) = true then behind (literal word) (word ++ r) else none) = some r
    rw [if_pos (decide_eq_true rfl), ih]

lemma behind_literal_append_of_not_mem {t : List α} (h : ∀ a ∈ t, a ∉ word) :
    behind (literal word) (s ++ t) = (behind (literal word) s).map (· ++ t) := by
  induction word generalizing s with
  | nil => rfl
  | cons a word ih =>
    cases s with
    | nil =>
      cases t with
      | nil => rfl
      | cons b t =>
        have hne : b ≠ a := fun hb => h b List.mem_cons_self (hb ▸ List.mem_cons_self)
        exact if_neg (by simpa using hne)
    | cons b s =>
      change (if decide (b = a) = true then behind (literal word) (s ++ t) else none) =
        (if decide (b = a) = true then behind (literal word) s else none).map (· ++ t)
      split
      · exact ih fun c hc hmem => h c hc (List.mem_cons_of_mem a hmem)
      · rfl

lemma find_literal_append_of_not_mem {t : List α} (hword : word ≠ []) (h : ∀ a ∈ t, a ∉ word) :
    find (literal word) (s ++ t) = (find (literal word) s).map fun m => (m.1, m.2 ++ t) := by
  have hempty : behind (literal word) ([] : List α) = none :=
    Option.eq_none_iff_forall_ne_some.mpr fun r hr =>
      hword (List.append_eq_nil_iff.mp (behind_literal hr).symm).1
  induction s with
  | nil =>
    have hnone : find (literal word) ([] : List α) = none := by rw [find, hempty, Option.map_none]
    rw [hnone, List.nil_append, Option.map_none, find_eq_none_iff]
    intro u hu
    have hbehind := behind_literal_append_of_not_mem (s := []) fun a ha => h a (hu.subset ha)
    rwa [List.nil_append, hempty, Option.map_none] at hbehind
  | cons a s ih =>
    rw [List.cons_append, find_cons, find_cons, ih, ← List.cons_append,
      behind_literal_append_of_not_mem h]
    cases behind (literal word) (a :: s) with
    | none => cases find (literal word) s <;> rfl
    | some r => rfl

lemma find_literal_before {t : List α} (h : find (literal word) s = some m) (ht : t <+: m.1)
    (hword : word ≠ []) : find (literal word) t = none := by
  cases hfind : find (literal word) t with
  | none => rfl
  | some k =>
    have hk := find_literal hfind
    obtain ⟨u, hu⟩ := ht
    have hs := find_literal h
    rw [← hu, hk, List.append_assoc, List.append_assoc, List.append_assoc] at hs
    rw [hs] at h
    have hfirst := find_first h (by rw [behind_literal_self]; rfl)
    have hlength := congrArg List.length hu
    have hpos := List.length_pos_iff.mpr hword
    rw [hk, List.length_append, List.length_append, List.length_append] at hlength
    omega

/-- A word with something behind it: what is behind the first place of the word decides, when a
failure there is a failure everywhere behind. -/
lemma find_literal_append
    (h : ∀ r r', r <:+ s → r' <:+ r → ps.behind r = none → ps.behind r' = none) :
    find (literal word ++ ps) s =
      (find (literal word) s).bind fun m => (ps.behind m.2).map fun r => (m.1, r) := by
  induction s with
  | nil =>
    rw [find, find, behind_literal_append]
    cases behind (literal word) [] <;> rfl
  | cons a s ih =>
    rw [find_cons, find_cons, behind_literal_append,
      ih fun r r' hr => h r r' (hr.trans (List.suffix_cons a s))]
    cases hfirst : behind (literal word) (a :: s) with
    | none =>
      cases find (literal word) s with
      | none => rfl
      | some m =>
        dsimp only [Option.bind_none, Option.map_none, Option.none_or, Option.map_some,
          Option.bind_some]
        cases ps.behind m.2 <;> rfl
    | some r =>
      dsimp only [Option.bind_some, Option.map_some, Option.some_or]
      cases hr : ps.behind r with
      | some r' => rfl
      | none =>
        cases hfind : find (literal word) s with
        | none => rfl
        | some m =>
          have hwhole := behind_literal hfirst
          have hrest := find_literal hfind
          have hsuffix : r <:+ a :: s := hwhole ▸ List.suffix_append word r
          have hlater : m.2 <:+ a :: s := by
            rw [hrest]
            exact ⟨a :: (m.1 ++ word), by simp⟩
          have hlength := congrArg List.length hwhole
          have hlength' := congrArg List.length hrest
          simp only [List.length_cons, List.length_append] at hlength hlength'
          have hinside : m.2 <:+ r :=
            List.suffix_of_suffix_length_le hlater hsuffix (by omega)
          dsimp only [Option.bind_some]
          rw [h r m.2 hsuffix hinside hr]
          rfl

lemma findLast_literal_append {g : List α → List α} (h : ∀ r, ps.behind r = some (g r)) :
    findLast (literal word ++ ps) s = (findLast (literal word) s).map fun m => (m.1, g m.2) := by
  induction s with
  | nil =>
    rw [findLast, findLast, behind_literal_append]
    cases behind (literal word) [] with
    | none => rfl
    | some r => simp [h]
  | cons a s ih =>
    rw [findLast_cons, findLast_cons, behind_literal_append, ih]
    cases findLast (literal word) s with
    | some m => rfl
    | none =>
      cases behind (literal word) (a :: s) with
      | none => rfl
      | some r => simp [h]

lemma findLast_literal {a : α} (h : findLast (literal (a :: word)) s = some m) :
    s = m.1 ++ (a :: word ++ m.2) ∧ find (literal (a :: word)) (word ++ m.2) = none := by
  induction s generalizing m with
  | nil => cases h
  | cons b s ih =>
    rw [findLast_cons, Option.or_eq_some_iff] at h
    rcases h with h | ⟨hnone, h⟩
    · obtain ⟨m', hm', rfl⟩ := Option.map_eq_some_iff.mp h
      obtain ⟨hs, hrest⟩ := ih hm'
      exact ⟨congrArg (b :: ·) hs, hrest⟩
    · obtain ⟨r, hr, rfl⟩ := Option.map_eq_some_iff.mp h
      have hs := behind_literal hr
      refine ⟨hs, ?_⟩
      have htail : s = word ++ r := (List.cons.inj hs).2
      change find (literal (a :: word)) (word ++ r) = none
      rw [← htail]
      exact findLast_eq_none_iff.mp (Option.map_eq_none_iff.mp hnone)

end Literals

section Substituting

variable {new : List α} {m : List α × List α}

lemma subWithin_of_none (n : ℕ) (h : ps.find s = none) : ps.subWithin new n s = s := by
  cases n with
  | zero => rfl
  | succ n => rw [subWithin, h]

lemma sub_of_none (h : ps.find s = none) : ps.sub new s = s := subWithin_of_none _ h

lemma sub_of_some (h : ps.find s = some m) (hrest : ps.find m.2 = none) (hs : s ≠ []) :
    ps.sub new s = m.1 ++ new ++ m.2 := by
  obtain ⟨n, hn⟩ := Nat.exists_eq_succ_of_ne_zero (mt List.length_eq_zero_iff.mp hs)
  rw [sub, hn, subWithin, h]
  dsimp only
  rw [subWithin_of_none n hrest]

end Substituting

end Pattern

end Hthreads.Library
