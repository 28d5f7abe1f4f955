import Hthreads.Fat16.Directory
import Mathlib.Data.List.DropRight

/-! The short name of a directory entry (`fat16_direntry_name` in `direntry.c`): a base of eight
characters and an extension of three, in a buffer of any size. -/

namespace Hthreads.Fat16.Direntry

open Library Software

variable (e : Bytes)

/-- The copy from character `i` on into a buffer that is never full; a blank in the base goes on
with the extension. -/
def nameFrom (lower : Bool) (i : ℕ) : ℕ → List Byte
  | 0 => []
  | left + 1 =>
    if 11 ≤ i then []
    else if blank (e i) then
      if i < 8 ∧ !blank (e 8) then
        let lower := e 12 &&& 0x10 = 0x10
        0x2E :: (if lower then tolower (e 8) else e 8) :: nameFrom lower 9 left
      else []
    else
      let c := if lower then tolower (e i) else e i
      (if i = 8 then [0x2E, c] else [c]) ++ nameFrom lower (i + 1) left

section Fields

def characters (i n : ℕ) : List Byte := (List.range' i n).map e
def base : List Byte := characters e 0 8
def extension : List Byte := characters e 8 3

def trimmed (l : List Byte) : List Byte := l.rdropWhile (· == 0x20)

-- what stands before the first blank
def cut (l : List Byte) : List Byte := l.takeWhile (!blank ·)

def lowerBase : Bool := e 12 &&& 0x08 = 0x08
def lowerExtension : Bool := e 12 &&& 0x10 = 0x10

def suffix (lower : Bool) (l : List Byte) : List Byte :=
  if l = [] then [] else 0x2E :: l.map (lowered lower)

/-- The name without the spaces that fill its fields. -/
def canonicalName : List Byte :=
  (trimmed (base e)).map (lowered (lowerBase e)) ++ suffix (lowerExtension e)
    (trimmed (extension e))

def cutName : List Byte :=
  (cut (base e)).map (lowered (lowerBase e)) ++
    suffix (if (cut (base e)).length = 8 then lowerBase e else lowerExtension e) (cut (extension e))

/-- Up to the end of the buffer both fields consist of characters with only spaces behind them, and
a base of eight characters does not take the letters of the extension along to its own case. -/
structure Plain (num : ℕ) : Prop where
  base : num ≤ (cut (base e)).length ∨ cut (Direntry.base e) = trimmed (Direntry.base e)
  extension : num ≤ (cut (Direntry.base e)).length ∨ trimmed (extension e) = [] ∨
    cut (Direntry.extension e) ≠ [] ∧
      (num ≤ (cut (Direntry.base e)).length + 1 + (cut (Direntry.extension e)).length ∨
        cut (Direntry.extension e) = trimmed (Direntry.extension e))
  cases : (cut (Direntry.base e)).length < 8 ∨ lowerBase e = lowerExtension e ∨
    ∀ c ∈ (cut (Direntry.extension e)).take (num - 9), tolower c = c

end Fields

section Loop

variable {e} {num : ℕ} {lower : Bool} {i left : ℕ}

lemma put_take (c : Byte) (l : List Byte) : put num c (l.take num) = (l ++ [c]).take num := by
  rw [put, List.length_take]
  by_cases hroom : l.length < num
  · rw [if_pos (by omega), List.take_of_length_le hroom.le, List.take_of_length_le]
    rw [List.length_append, List.length_singleton]
    exact hroom
  · rw [if_neg (by omega), List.take_append_of_le_length (by omega)]

lemma copyChar_take (l : List Byte) : copyChar e num lower i (l.take num) =
    (l ++ if i = 8 then [0x2E, lowered lower (e i)] else [lowered lower (e i)]).take num := by
  rw [copyChar]
  split
  · rw [put_take, put_take, List.append_assoc]
    rfl
  · rw [put_take]

lemma nameFrom_of_blank_base (hi : i < 8) (hblank : blank (e i) = true) :
    nameFrom e lower i (left + 1) =
      if blank (e 8) then []
      else 0x2E :: lowered (lowerExtension e) (e 8) :: nameFrom e (lowerExtension e) 9 left := by
  rw [nameFrom, if_neg (by omega), if_pos hblank]
  by_cases hext : blank (e 8) = true
  · rw [if_pos hext, if_neg (by simp [hext])]
  · rw [if_neg hext, if_pos ⟨hi, by simp [hext]⟩]
    simp only [lowered, lowerExtension, decide_eq_true_eq]

lemma nameFrom_of_blank_extension (hi : 8 ≤ i) (hblank : blank (e i) = true) :
    nameFrom e lower i (left + 1) = [] := by
  rw [nameFrom]
  simp only [hblank, Nat.not_lt.mpr hi, false_and, if_false, if_true, ite_self]

lemma nameFrom_of_not_blank (hi : i < 11) (hblank : ¬ blank (e i) = true) :
    nameFrom e lower i (left + 1) =
      (if i = 8 then [0x2E, lowered lower (e i)] else [lowered lower (e i)]) ++
        nameFrom e lower (i + 1) left := by
  rw [nameFrom, if_neg (by omega), if_neg hblank]
  rfl

lemma copyName_take (l : List Byte) : copyName e num lower i (l.take num) left =
    (l ++ nameFrom e lower i left).take num := by
  induction left generalizing lower i l with
  | zero => rw [copyName, nameFrom, List.append_nil]
  | succ left ih =>
    rw [copyName]
    by_cases hend : 11 ≤ i
    · rw [if_pos hend, nameFrom, if_pos hend, List.append_nil]
    · rw [if_neg hend]
      by_cases hblank : blank (e i) = true
      · rw [if_pos hblank]
        by_cases hbase : i < 8
        · rw [if_pos hbase, nameFrom_of_blank_base hbase hblank]
          dsimp only
          split
          · rw [List.append_nil]
          · rw [copyChar_take, ih, List.append_assoc]
            rfl
        · rw [if_neg hbase, nameFrom_of_blank_extension (by omega) hblank, List.append_nil]
      · rw [if_neg hblank, nameFrom_of_not_blank (by omega) hblank, copyChar_take, ih,
          List.append_assoc]

lemma characters_succ (i n : ℕ) : characters e i (n + 1) = e i :: characters e (i + 1) n := by
  rw [characters, List.range'_succ, List.map_cons, characters]

lemma cut_cons (c : Byte) (l : List Byte) : cut (c :: l) = if blank c then [] else c :: cut l := by
  rw [cut, List.takeWhile_cons]
  cases blank c <;> rfl

lemma nameFrom_extension {n : ℕ} (hi : 9 ≤ i) (hn : i + n = 11) (hleft : n ≤ left) :
    nameFrom e lower i left = (cut (characters e i n)).map (lowered lower) := by
  induction n generalizing i left with
  | zero =>
    cases left with
    | zero => rfl
    | succ left => rw [nameFrom, if_pos (by omega)]; rfl
  | succ n ih =>
    cases left with
    | zero => omega
    | succ left =>
      rw [characters_succ, cut_cons]
      by_cases hblank : blank (e i) = true
      · rw [nameFrom_of_blank_extension (by omega) hblank, if_pos hblank]
        rfl
      · rw [nameFrom_of_not_blank (by omega) hblank, if_neg hblank, if_neg (by omega),
          ih (by omega) (by omega) (by omega)]
        rfl

lemma cut_extension : cut (extension e) =
    if blank (e 8) then [] else e 8 :: cut (characters e 9 2) := by
  rw [extension, characters_succ, cut_cons]

lemma nameFrom_suffix (hleft : 2 ≤ left) :
    nameFrom e lower 8 (left + 1) = suffix lower (cut (extension e)) := by
  rw [cut_extension]
  by_cases hblank : blank (e 8) = true
  · rw [nameFrom_of_blank_extension (le_refl 8) hblank, if_pos hblank]
    rfl
  · rw [nameFrom_of_not_blank (by decide) hblank, if_neg hblank,
      nameFrom_extension (le_refl 9) rfl hleft]
    rfl

/-- Only a blank in the base makes the loop look at the case of the extension. -/
lemma nameFrom_base {n : ℕ} (hn : i + n = 8) (hleft : n + 3 ≤ left) : nameFrom e lower i left =
    (cut (characters e i n)).map (lowered lower) ++
      suffix (if (cut (characters e i n)).length = n then lower else lowerExtension e)
        (cut (extension e)) := by
  induction n generalizing i left with
  | zero =>
    obtain ⟨k, rfl⟩ : ∃ k, left = k + 1 := ⟨left - 1, by omega⟩
    obtain rfl : i = 8 := hn
    exact nameFrom_suffix (by omega)
  | succ n ih =>
    obtain ⟨k, rfl⟩ : ∃ k, left = k + 1 := ⟨left - 1, by omega⟩
    rw [characters_succ, cut_cons]
    by_cases hblank : blank (e i) = true
    · rw [nameFrom_of_blank_base (by omega) hblank, if_pos hblank, cut_extension,
        if_neg (by simp : ¬ ([] : List Byte).length = n + 1)]
      split
      · rfl
      · rw [nameFrom_extension (le_refl 9) rfl (show 2 ≤ k by omega)]
        rfl
    · rw [nameFrom_of_not_blank (by omega) hblank, if_neg hblank, if_neg (by omega),
        ih (by omega) (by omega), List.length_cons]
      simp only [Nat.add_right_cancel_iff]
      rfl

lemma shortName_eq {num : Huint} (hnum : num ≠ 0) :
    shortName e num = (cutName e).take (num.toNat - 1) ++ [0] := by
  have hloop := @copyName_take e (num.toNat - 1) (lowerBase e) 0 11 []
  rw [List.take_nil, List.nil_append, @nameFrom_base e (lowerBase e) 0 11 8 rfl
    (by decide)] at hloop
  rw [shortName, if_neg hnum]
  exact congrArg (· ++ [0]) hloop

lemma length_cut_characters (i n : ℕ) : (cut (characters e i n)).length ≤ n := by
  refine (List.takeWhile_sublist _).length_le.trans ?_
  rw [characters, List.length_map, List.length_range']

end Loop

section Prefixes

variable {α β : Type} {f g : α → β} {a b : List α} {k : ℕ}

lemma take_map_prefix_iff (h : a <+: b) : (a.map f).take k = (b.map g).take k ↔
    (k ≤ a.length ∨ a = b) ∧ ∀ c ∈ a.take k, f c = g c := by
  obtain ⟨r, rfl⟩ := h
  rw [← List.map_take, ← List.map_take]
  by_cases hshort : k ≤ a.length
  · rw [List.take_append_of_le_length hshort, List.map_inj_left]
    exact (and_iff_right (.inl hshort)).symm
  · rw [List.self_eq_append_right, or_iff_right hshort]
    cases r with
    | nil =>
      rw [List.append_nil, List.map_inj_left]
      exact (and_iff_right rfl).symm
    | cons c r =>
      refine iff_of_false (fun heq => ?_) fun h => List.cons_ne_nil c r h.1
      have hlength := congrArg List.length heq
      simp only [List.length_map, List.length_take, List.length_append, List.length_cons] at hlength
      omega

lemma cut_isPrefix (l : List Byte) : cut l <+: trimmed l := by
  induction l using List.reverseRecOn with
  | nil => exact List.prefix_rfl
  | append_singleton l c ih =>
    rw [trimmed, List.rdropWhile_concat]
    split
    next hc =>
      have hblank : blank c = true := by
        rw [beq_iff_eq.mp hc]
        decide
      refine List.IsPrefix.trans ?_ ih
      rw [cut, List.takeWhile_append]
      split
      next hall =>
        have hsame := (List.takeWhile_prefix _).eq_of_length hall
        rw [List.takeWhile_cons, hblank, cut, hsame]
        simp
      next => exact List.prefix_rfl
    next => exact List.takeWhile_prefix _

lemma cut_blank {l : List Byte} (h : cut l ≠ trimmed l) :
    ∃ c, (trimmed l)[(cut l).length]? = some c ∧ blank c = true := by
  obtain ⟨r, hr⟩ := cut_isPrefix l
  obtain ⟨s, hs⟩ : trimmed l <+: l := List.rdropWhile_prefix _ _
  cases r with
  | nil => exact absurd ((List.append_nil _).symm.trans hr) h
  | cons c r =>
    refine ⟨c, by rw [← hr, List.getElem?_append_right (le_refl _), Nat.sub_self]; rfl, ?_⟩
    have hwhole : l = cut l ++ (c :: r ++ s) := by rw [← List.append_assoc, hr, hs]
    have hcut : cut l = cut l ++ cut (c :: r ++ s) := by
      conv_lhs => rw [hwhole]
      exact List.takeWhile_append_of_pos fun a ha =>
        List.mem_takeWhile_imp (p := (!blank ·)) ha
    have hrest : cut (c :: r ++ s) = [] := List.self_eq_append_right.mp hcut
    rw [List.cons_append, cut_cons] at hrest
    by_contra hblank
    rw [if_neg hblank] at hrest
    cases hrest

end Prefixes

section Comparison

variable {e} {k : ℕ}

lemma lowered_eq_iff {x y : Bool} {c : Byte} :
    lowered x c = lowered y c ↔ x = y ∨ tolower c = c := by
  cases x <;> cases y <;> simp [lowered, eq_comm]

lemma forall_lowered_eq_iff {x y : Bool} {l : List Byte} :
    (∀ c ∈ l, lowered x c = lowered y c) ↔ x = y ∨ ∀ c ∈ l, tolower c = c := by
  simp only [lowered_eq_iff]
  by_cases hxy : x = y <;> simp [hxy]

lemma lowered_blank {x : Bool} {c : Byte} (hc : blank c = true) : lowered x c = c := by
  have hcases : c = 0x20 ∨ c = 0 := of_decide_eq_true (by simpa [blank] using hc)
  rcases hcases with rfl | rfl <;> cases x <;> rfl

lemma take_suffix_iff {x y : Bool} {l l' : List Byte} (hl : l <+: l') :
    (suffix x l).take (k + 1) = (suffix y l').take (k + 1) ↔
      l' = [] ∨ l ≠ [] ∧ (k ≤ l.length ∨ l = l') ∧ (x = y ∨ ∀ c ∈ l.take k, tolower c = c) := by
  by_cases hnil' : l' = []
  · have hnil : l = [] := List.prefix_nil.mp (hnil' ▸ hl)
    exact iff_of_true (by rw [hnil, hnil', suffix, suffix, if_pos rfl, if_pos rfl]) (.inl hnil')
  · rw [or_iff_right hnil', suffix, suffix, if_neg hnil']
    by_cases hnil : l = []
    · rw [if_pos hnil]
      exact iff_of_false (by simp) fun h => h.1 hnil
    · rw [if_neg hnil, and_iff_right hnil, List.take_succ_cons, List.take_succ_cons,
        List.cons.injEq, and_iff_right rfl, take_map_prefix_iff hl, forall_lowered_eq_iff]

lemma take_cutName_iff : (cutName e).take k = (canonicalName e).take k ↔ Plain e k := by
  have hprefix := cut_isPrefix (base e)
  have height : (cut (base e)).length ≤ 8 := length_cut_characters 0 8
  by_cases hshort : k ≤ (cut (base e)).length
  · refine iff_of_true ?_ ⟨.inl hshort, .inl hshort, .inr (.inr ?_)⟩
    · have hlong := hshort.trans hprefix.length_le
      rw [cutName, canonicalName, List.take_append_of_le_length (by rwa [List.length_map]),
        List.take_append_of_le_length (by rwa [List.length_map]), take_map_prefix_iff hprefix]
      exact ⟨.inl hshort, fun _ _ => rfl⟩
    · rw [show k - 9 = 0 by omega]
      simp
  · by_cases hbase : cut (base e) = trimmed (base e)
    · obtain ⟨j, hj⟩ : ∃ j, k - (cut (base e)).length = j + 1 :=
        ⟨k - (cut (base e)).length - 1, by omega⟩
      have hroom : ((cut (base e)).map (lowered (lowerBase e))).length ≤ k := by
        rw [List.length_map]
        omega
      rw [cutName, canonicalName, ← hbase, List.take_append, List.take_append,
        List.take_of_length_le hroom, List.append_cancel_left_eq, List.length_map, hj,
        take_suffix_iff (cut_isPrefix _)]
      constructor
      · intro h
        refine ⟨.inr hbase,
          .inr (h.imp_right fun h => ⟨h.1, h.2.1.imp_left fun hle => by omega⟩), ?_⟩
        by_cases hfull : (cut (base e)).length = 8
        · rw [if_pos hfull, show j = k - 9 by omega] at h
          rcases h with hnone | h
          · have hcut : cut (extension e) = [] := List.prefix_nil.mp (hnone ▸ cut_isPrefix _)
            rw [hcut]
            simp
          · exact .inr h.2.2
        · exact .inl (by omega)
      · intro h
        refine (h.extension.resolve_left hshort).imp_right fun hext =>
          ⟨hext.1, hext.2.imp_left fun hle => by omega, ?_⟩
        by_cases hfull : (cut (base e)).length = 8
        · rw [if_pos hfull, show j = k - 9 by omega]
          exact h.cases.resolve_left (by omega)
        · exact .inl (if_neg hfull)
    · refine iff_of_false (fun heq => ?_) fun h => ?_
      · obtain ⟨c, hc, hblank⟩ := cut_blank hbase
        have hget := congrArg (·[(cut (base e)).length]?) heq
        simp only [List.getElem?_take, if_pos (not_le.mp hshort)] at hget
        -- the canonical name has the blank there, and the copy a dot or nothing
        rw [canonicalName, List.getElem?_append_left, List.getElem?_map, hc, cutName,
          List.getElem?_append_right (by rw [List.length_map]), List.length_map, Nat.sub_self,
          Option.map_some, lowered_blank hblank, suffix] at hget
        · split at hget
          · cases hget
          · rw [List.getElem?_cons_zero, Option.some.injEq] at hget
            rw [← hget] at hblank
            exact absurd hblank (by decide)
        · rw [List.length_map]
          exact (List.getElem?_eq_some_iff.mp hc).1
      · exact hbase (h.base.resolve_left hshort)

end Comparison

/-- The call writes the canonical name, as much of it as there is room for, and a NUL. -/
structure DecodesName (e : Bytes) (num : Huint) : Prop where
  fits : (shortName e num).length ≤ num.toNat
  name : shortName e num = (canonicalName e).take (num.toNat - 1) ++ [0]

theorem shortName_decodes_iff (e : Bytes) (num : Huint) (hnum : num ≠ 0) :
    DecodesName e num ↔ Plain e (num.toNat - 1) := by
  have hname := shortName_eq (e := e) hnum
  have hpos : 0 < num.toNat := by bv_omega
  rw [← take_cutName_iff]
  constructor
  · intro h
    exact List.append_cancel_right (hname.symm.trans h.name)
  · intro h
    refine ⟨?_, by rw [hname, h]⟩
    rw [hname, List.length_append, List.length_take, List.length_singleton]
    omega

section Sample

-- the eleven characters of a name, its attributes and its reserved byte
def sampleEntry (chars : List Byte) (reserved : Byte) : Bytes
  | 11 => 0x20
  | 12 => reserved
  | i => chars.getD i 0

-- `FOO.TXT` with a base in lower case
def fooEntry : Bytes :=
  sampleEntry [0x46, 0x4F, 0x4F, 0x20, 0x20, 0x20, 0x20, 0x20, 0x54, 0x58, 0x54] 0x08

-- `README12.TXT` with an extension in lower case
def readmeEntry : Bytes :=
  sampleEntry [0x52, 0x45, 0x41, 0x44, 0x4D, 0x45, 0x31, 0x32, 0x54, 0x58, 0x54] 0x10

-- a base of three characters with a space in the middle
def spacedEntry : Bytes :=
  sampleEntry [0x41, 0x20, 0x42, 0x20, 0x20, 0x20, 0x20, 0x20, 0x54, 0x58, 0x54] 0

theorem shortName_decodes_foo : DecodesName fooEntry 256 :=
  (shortName_decodes_iff fooEntry 256 (by decide)).mpr
    ⟨.inr (by decide), .inr (.inr (by decide)), .inl (by decide)⟩

/-- The extension of a full base keeps the case of the base, and a base ends at its first space. -/
theorem shortName_misses_case_and_spaces :
    ¬ DecodesName readmeEntry 256 ∧
      shortName readmeEntry 256 =
        [0x52, 0x45, 0x41, 0x44, 0x4D, 0x45, 0x31, 0x32, 0x2E, 0x54, 0x58, 0x54, 0] ∧
      canonicalName readmeEntry =
        [0x52, 0x45, 0x41, 0x44, 0x4D, 0x45, 0x31, 0x32, 0x2E, 0x74, 0x78, 0x74] ∧
      ¬ DecodesName spacedEntry 256 ∧
      shortName spacedEntry 256 = [0x41, 0x2E, 0x54, 0x58, 0x54, 0] ∧
      canonicalName spacedEntry = [0x41, 0x20, 0x42, 0x2E, 0x54, 0x58, 0x54] := by
  refine ⟨fun h => ?_, by decide, by decide, fun h => ?_, by decide, by decide⟩
  all_goals exact absurd h.name (by decide)

end Sample

end Hthreads.Fat16.Direntry
