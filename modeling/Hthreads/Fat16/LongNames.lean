import Hthreads.Fat16.Listing

/-! How `fat16_dir_readname` puts a long name together in the memory of the caller, from the
fragments in front of an entry. -/

namespace Hthreads.Fat16

open Library Software

section Copying

variable {b : Buffer} {pos : ℕ} {chars : List Byte}

lemma copy_nil : (b.copy pos []).bytes = b.bytes := by
  funext o
  simp [Buffer.copy]

lemma copy_at {name : Bytes} {i : ℕ} (hi : i < chars.length) :
    (Buffer.copy 0 chars ⟨name, []⟩).bytes i = chars[i] := by
  simp [Buffer.copy, hi]

lemma copy_copy {len : ℕ} (hlen : chars.length = len) (rest : List Byte) :
    ((b.copy pos chars).copy (pos + len) rest).bytes = (b.copy pos (chars ++ rest)).bytes := by
  subst hlen
  funext o
  obtain hlt | hge := Nat.lt_or_ge o (pos + chars.length)
  · rw [copy_of_lt hlt]
    by_cases hpos : pos ≤ o
    · simp [Buffer.copy, hpos, List.getElem?_append_left (show o - pos < chars.length by omega)]
    · simp [Buffer.copy, hpos]
  · have hsub : o - (pos + chars.length) = o - pos - chars.length := by omega
    have hpos : pos ≤ o := by omega
    rw [Buffer.copy, Buffer.copy, Buffer.copy]
    dsimp only
    rw [if_pos hge, if_pos hpos, if_pos hpos, List.getElem?_append_right (by omega), hsub,
      List.getElem?_eq_none (show chars.length ≤ o - pos by omega)]
    rfl

end Copying

section Fragments

variable (B : Block) (dir : Dir)

def IsLast (e : Bytes) : Prop := e 0 &&& 0x40 = 0x40

instance (e : Bytes) : Decidable (IsLast e) := inferInstanceAs (Decidable (_ = _))

def Dir.fragmentsBefore : ℕ → List ℕ
  | 0 => []
  | p + 1 =>
    if IsFragment (dir.entryAt B p) then
      p :: if IsLast (dir.entryAt B p) then [] else fragmentsBefore p
    else []

def Dir.charsOf (run : List ℕ) : List Byte := run.flatMap fun p => longnameChars (dir.entryAt B p)

def Dir.longName (p : ℕ) : List Byte := dir.charsOf B (dir.fragmentsBefore B p)

-- the loop does not get to entry 0
def Dir.copiedBefore (p : ℕ) : List ℕ := (dir.fragmentsBefore B p).filter (0 < ·)

/-- What a call for entry `p` with the short name at `name` is for. -/
structure Dir.NamedExactly (p : ℕ) (name : Bytes) (r : NameRead) : Prop where
  short : r.res = success → dir.fragmentsBefore B p = [] → r.name.bytes = name
  long : r.res = success → dir.fragmentsBefore B p ≠ [] →
    ∀ i c, (dir.longName B p ++ [0])[i]? = some c → r.name.bytes i = c
  written : ∀ o ∈ r.name.written, o < nameMax + 1
  looked : ∀ i ∈ r.looked, i < 16

/-- What is missing behind the copied fragments was in the memory before. -/
def Dir.EndsAlready (p : ℕ) (name : Bytes) : Prop :=
  ∀ i c, (dir.charsOf B (dir.copiedBefore B p)).length ≤ i →
    (dir.longName B p ++ [0])[i]? = some c → name i = c

def Dir.PreviousFails (p : ℕ) : Prop :=
  1 < p ∧ B.Fails (dir.block + BitVec.ofNat 32 ((p - 1) / 16))

variable {B dir} {past : Bytes}

lemma fragmentsBefore_eq_nil_iff {p : ℕ} :
    dir.fragmentsBefore B (p + 1) = [] ↔ ¬ IsFragment (dir.entryAt B p) := by
  rw [Dir.fragmentsBefore]
  by_cases h : IsFragment (dir.entryAt B p)
  · simp [h]
  · simp [h]

lemma length_copiedBefore_le (p : ℕ) : (dir.copiedBefore B (p + 1)).length ≤ p := by
  induction p with
  | zero =>
    rw [Dir.copiedBefore, Dir.fragmentsBefore]
    split_ifs <;> simp [Dir.fragmentsBefore]
  | succ p ih =>
    rw [Dir.copiedBefore] at ih ⊢
    rw [Dir.fragmentsBefore]
    split_ifs
    · simp
    · rw [List.filter_cons_of_pos (by simp), List.length_cons]
      exact Nat.succ_le_succ ih
    · simp

lemma fragmentsBefore_eq_append (B : Block) (dir : Dir) (p : ℕ) :
    ∃ rest, dir.fragmentsBefore B p = dir.copiedBefore B p ++ rest := by
  induction p with
  | zero => exact ⟨[], rfl⟩
  | succ p ih =>
    obtain ⟨rest, hrest⟩ := ih
    rw [Dir.copiedBefore] at hrest
    rw [Dir.copiedBefore, Dir.fragmentsBefore]
    split_ifs
    · by_cases hp : 0 < p
      · exact ⟨[], by simp [hp]⟩
      · exact ⟨[p], by simp [hp]⟩
    · by_cases hp : 0 < p
      · exact ⟨rest, by rw [List.filter_cons_of_pos (by simpa using hp), List.cons_append, ← hrest]⟩
      · obtain rfl : p = 0 := by omega
        exact ⟨[0], by simp [Dir.fragmentsBefore]⟩
    · exact ⟨[], rfl⟩

lemma longName_eq_append (B : Block) (dir : Dir) (p : ℕ) :
    ∃ rest, dir.longName B p = dir.charsOf B (dir.copiedBefore B p) ++ rest := by
  obtain ⟨rest, hrest⟩ := fragmentsBefore_eq_append B dir p
  exact ⟨dir.charsOf B rest, by rw [Dir.longName, hrest, Dir.charsOf, List.flatMap_append]; rfl⟩

lemma copiedBefore_succ {n : ℕ} :
    dir.copiedBefore B (n + 2) =
      if IsFragment (dir.entryAt B (n + 1)) then
        (n + 1) :: if IsLast (dir.entryAt B (n + 1)) then [] else dir.copiedBefore B (n + 1)
      else [] := by
  rw [Dir.copiedBefore, Dir.fragmentsBefore]
  split_ifs
  · simp
  · rw [List.filter_cons_of_pos (by simp)]
    rfl
  · rfl

/-- One round of the loop in the first block, where the order byte is the entry's own. -/
lemma readname_succ_first (hread : ¬ B.Fails dir.block) (name : Buffer) (pos : ℕ) {n : ℕ}
    (hn : n + 1 < 16) :
    readname B past dir.block name pos (n + 1) =
      if IsFragment (dir.entryAt B (n + 1)) then
        if IsLast (dir.entryAt B (n + 1)) then
          ⟨success, name.copy pos (longnameChars (dir.entryAt B (n + 1))), [n + 1, n + 1],
            [dir.block]⟩
        else
          { readname B past dir.block (name.copy pos (longnameChars (dir.entryAt B (n + 1))))
              (pos + 13) n with
            looked := (n + 1) :: (n + 1) :: (readname B past dir.block
              (name.copy pos (longnameChars (dir.entryAt B (n + 1)))) (pos + 13) n).looked
            reads := dir.block :: (readname B past dir.block
              (name.copy pos (longnameChars (dir.entryAt B (n + 1)))) (pos + 13) n).reads }
      else ⟨success, name, [n + 1], [dir.block]⟩ := by
  have hblk : dir.block + BitVec.ofNat 32 ((n + 1) / 16) = dir.block := by
    rw [Nat.div_eq_of_lt hn]
    exact BitVec.add_zero _
  have hentry : dir.entryAt B (n + 1) = direntry (B.read dir.block).2 (n + 1) := by
    rw [Dir.entryAt, hblk, Nat.mod_eq_of_lt hn]
  rw [readname]
  dsimp only
  rw [hblk, Nat.mod_eq_of_lt hn, if_neg hread, if_pos hn, ← hentry]
  by_cases hfragment : IsFragment (dir.entryAt B (n + 1))
  · rw [if_neg (not_not.mpr (isFragment_iff.mp hfragment)), if_pos hfragment]
    rfl
  · rw [if_pos (isFragment_iff.not.mp hfragment), if_neg hfragment]

structure Dir.CopiesFirst (B : Block) (dir : Dir) (name : Buffer) (pos n : ℕ) (r : NameRead) :
    Prop where
  res : r.res = success
  bytes : r.name.bytes = (name.copy pos (dir.charsOf B (dir.copiedBefore B (n + 1)))).bytes
  written : ∀ o ∈ r.name.written, o ∈ name.written ∨ o < pos + 13 * n
  looked : ∀ i ∈ r.looked, i < 16

lemma mem_written_copy {name : Buffer} {pos o : ℕ} {e : Bytes}
    (h : o ∈ (name.copy pos (longnameChars e)).written) : o ∈ name.written ∨ o < pos + 13 := by
  obtain h | h := List.mem_append.mp h
  · rw [length_longnameChars, List.mem_range'_1] at h
    exact .inr h.2
  · exact .inl h

lemma readname_first (past : Bytes) {n : ℕ} (hn : n < 16) (hread : 0 < n → ¬ B.Fails dir.block)
    (name : Buffer)
    (pos : ℕ) : dir.CopiesFirst B name pos n (readname B past dir.block name pos n) := by
  induction n generalizing name pos with
  | zero =>
    have hnone : dir.copiedBefore B 1 = [] := List.length_eq_zero_iff.mp
      (Nat.le_zero.mp (length_copiedBefore_le 0))
    refine ⟨rfl, ?_, fun o ho => .inl ho, by simp [readname]⟩
    rw [hnone, Dir.charsOf, List.flatMap_nil, copy_nil, readname]
  | succ n ih =>
    have hread := hread (Nat.succ_pos n)
    rw [readname_succ_first hread name pos hn]
    by_cases hfragment : IsFragment (dir.entryAt B (n + 1))
    · rw [if_pos hfragment]
      by_cases hlast : IsLast (dir.entryAt B (n + 1))
      · rw [if_pos hlast]
        refine ⟨rfl, ?_, fun o ho => (mem_written_copy ho).imp_right fun _ => by omega,
          by simp [hn]⟩
        rw [copiedBefore_succ, if_pos hfragment, if_pos hlast, Dir.charsOf, List.flatMap_singleton]
      · rw [if_neg hlast]
        obtain ⟨hres, hbytes, hwritten, hlooked⟩ := ih (by omega) (fun _ => hread)
          (name.copy pos (longnameChars (dir.entryAt B (n + 1)))) (pos + 13)
        refine ⟨hres, ?_, fun o ho => ?_, ?_⟩
        · rw [copiedBefore_succ, if_pos hfragment, if_neg hlast]
          exact hbytes.trans (copy_copy (length_longnameChars _) _)
        · obtain ho | ho := hwritten o ho
          · exact (mem_written_copy ho).imp_right fun _ => by omega
          · exact .inr (by omega)
        · exact List.forall_mem_cons.mpr ⟨hn, List.forall_mem_cons.mpr ⟨hn, hlooked⟩⟩
    · rw [if_neg hfragment]
      refine ⟨rfl, ?_, fun o ho => .inl ho, by simp [hn]⟩
      rw [copiedBefore_succ, if_neg hfragment, Dir.charsOf, List.flatMap_nil, copy_nil]

/-- The order byte of a fragment is looked up at its entry number, also behind the first block. -/
lemma looked_of_fragment {n : ℕ}
    (hread : ¬ B.Fails (dir.block + BitVec.ofNat 32 ((n + 1) / 16)))
    (hfragment : IsFragment (dir.entryAt B (n + 1))) (name : Buffer) (pos : ℕ) :
    n + 1 ∈ (readname B past dir.block name pos (n + 1)).looked := by
  have hattr : ¬ direntry (B.read (dir.block + BitVec.ofNat 32 ((n + 1) / 16))).2 ((n + 1) % 16) 11
      &&& direntryLongname ≠ direntryLongname := not_not.mpr (isFragment_iff.mp hfragment)
  rw [readname]
  dsimp only
  rw [if_neg hread, if_neg hattr]
  split_ifs <;> simp

lemma readname_none (past : Bytes) {n : ℕ} (name : Buffer) (pos : ℕ)
    (hnone : dir.fragmentsBefore B (n + 1) = [] ∨ dir.PreviousFails B (n + 1)) :
    (readname B past dir.block name pos n).name = name ∧
      ∀ i ∈ (readname B past dir.block name pos n).looked, i < 16 := by
  cases n with
  | zero => simp [readname]
  | succ n =>
    by_cases hfails : B.Fails (dir.block + BitVec.ofNat 32 ((n + 1) / 16))
    · simp [readname, hfails]
    · have hnone' : dir.fragmentsBefore B (n + 2) = [] := hnone.resolve_right fun h => hfails h.2
      have hattr : direntry (B.read (dir.block + BitVec.ofNat 32 ((n + 1) / 16))).2
        ((n + 1) % 16) 11
          &&& direntryLongname ≠ direntryLongname :=
        isFragment_iff.not.mp (fragmentsBefore_eq_nil_iff.mp hnone')
      rw [readname]
      dsimp only
      rw [if_neg hfails, if_pos hattr]
      exact ⟨rfl, by simpa using Nat.mod_lt (n + 1) (by decide)⟩

lemma res_of_previousFails (past : Bytes) {p : ℕ} (h : dir.PreviousFails B p)
    (name : Buffer) (pos : ℕ) :
    (readname B past dir.block name pos (p - 1)).res ≠ success := by
  obtain ⟨hp, hfails⟩ := h
  obtain ⟨n, rfl⟩ : ∃ n, p = n + 2 := ⟨p - 2, by omega⟩
  rw [Nat.add_sub_cancel (n + 1) 1] at hfails ⊢
  have hres : (B.read (dir.block + BitVec.ofNat 32 ((n + 1) / 16))).1.slt 0 = true := hfails
  rw [readname]
  dsimp only
  rw [if_pos hfails]
  dsimp only
  intro heq
  rw [heq] at hres
  cases hres

end Fragments

section Names

variable {B : Block} {dir : Dir} {past : Bytes}

lemma namedExactly_first_iff {n : ℕ} (hn : n < 16) (hread : 0 < n → ¬ B.Fails dir.block)
    (hsome : dir.fragmentsBefore B (n + 1) ≠ []) (name : Bytes) :
    dir.NamedExactly B (n + 1) name (readname B past dir.block ⟨name, []⟩ 0 n) ↔
      dir.EndsAlready B (n + 1) name := by
  obtain ⟨hres, hbytes, hwritten, hlooked⟩ := readname_first past hn hread ⟨name, []⟩ 0
  obtain ⟨rest, hrest⟩ := longName_eq_append B dir (n + 1)
  have hbehind (i : ℕ) (hi : (dir.charsOf B (dir.copiedBefore B (n + 1))).length ≤ i) :
      (readname B past dir.block ⟨name, []⟩ 0 n).name.bytes i = name i := by
    rw [hbytes, copy_of_ge (by omega)]
  constructor
  · intro h i c hi hc
    rw [← hbehind i hi]
    exact h.long hres hsome i c hc
  · intro h
    refine ⟨fun _ hnone => absurd hnone hsome, fun _ _ i c hc => ?_, fun o ho => ?_, hlooked⟩
    · obtain hlt | hge :=
        Nat.lt_or_ge i (dir.charsOf B (dir.copiedBefore B (n + 1))).length
      · rw [hrest, List.append_assoc, List.getElem?_append_left hlt,
          List.getElem?_eq_getElem hlt] at hc
        rw [hbytes, copy_at hlt]
        exact Option.some.inj hc
      · rw [hbehind i hge]
        exact h i c hge hc
    · obtain ho | ho := hwritten o ho
      · cases ho
      · unfold nameMax
        omega

/-- The call names an entry exactly when the entry before it cannot be read, or is no fragment, or
lies in the first block and the end of the name is in the memory already. -/
theorem dirReadname_names_iff (B : Block) (dir : Dir) (past name : Bytes) {p : ℕ}
    (hp : p < 2 ^ 31) :
    dir.NamedExactly B p name (dirReadnameAt B past dir.block (BitVec.ofNat 32 p) name) ↔
      dir.PreviousFails B p ∨ dir.fragmentsBefore B p = [] ∨
        p ≤ 16 ∧ dir.EndsAlready B p name := by
  rw [dirReadnameAt, previous_toNat hp]
  by_cases hfails : dir.PreviousFails B p
  · obtain ⟨n, rfl⟩ : ∃ n, p = n + 1 := ⟨p - 1, by have := hfails.1; omega⟩
    have hres := res_of_previousFails past hfails ⟨name, []⟩ 0
    obtain ⟨hname, hlooked⟩ := readname_none past ⟨name, []⟩ 0 (.inr hfails)
    refine iff_of_true ⟨fun h => absurd h hres, fun h => absurd h hres, ?_, hlooked⟩ (.inl hfails)
    rw [Nat.add_sub_cancel, hname]
    simp
  by_cases hnone : dir.fragmentsBefore B p = []
  · refine iff_of_true ?_ (.inr (.inl hnone))
    cases p with
    | zero => exact ⟨fun _ _ => rfl,
      fun _ h => absurd hnone h, by simp [readname], by simp [readname]⟩
    | succ n =>
      obtain ⟨hname, hlooked⟩ := readname_none past ⟨name, []⟩ 0 (.inl hnone)
      rw [Nat.add_sub_cancel]
      refine ⟨fun _ _ => by rw [hname], fun _ h => absurd hnone h, ?_, hlooked⟩
      rw [hname]
      simp
  obtain ⟨n, rfl⟩ : ∃ n, p = n + 1 := by
    cases p with
    | zero => exact absurd rfl hnone
    | succ n => exact ⟨n, rfl⟩
  rw [Nat.add_sub_cancel, or_iff_right hfails, or_iff_right hnone]
  by_cases hn : n < 16
  · have hread : 0 < n → ¬ B.Fails dir.block := by
      intro hpos hblock
      refine hfails ⟨by omega, ?_⟩
      rw [Nat.add_sub_cancel, Nat.div_eq_of_lt hn]
      exact (BitVec.add_zero dir.block).symm ▸ hblock
    rw [and_iff_right (by omega : n + 1 ≤ 16)]
    exact namedExactly_first_iff hn hread hnone name
  · obtain ⟨k, rfl⟩ : ∃ k, n = k + 1 := ⟨n - 1, by omega⟩
    have hread : ¬ B.Fails (dir.block + BitVec.ofNat 32 ((k + 1) / 16)) :=
      fun h => hfails ⟨by omega, h⟩
    have hfragment : IsFragment (dir.entryAt B (k + 1)) :=
      not_not.mp (fragmentsBefore_eq_nil_iff.not.mp hnone)
    refine iff_of_false (fun h => ?_) (by omega)
    exact hn (h.looked _ (looked_of_fragment hread hfragment _ _))

end Names

section Sample

-- every entry is a fragment of thirteen times the letter A, and the last of its name
def allFragments : Block where
  read _ := (success, fun o => if o % 32 = 11 then 0x0F else 0x41)

theorem dirReadname_names_second :
    Dir.NamedExactly allFragments ⟨0, 1⟩ 2 (fun _ => 0)
      (dirReadnameAt allFragments (fun _ => 0) 0 2 fun _ => 0) := by
  refine (dirReadname_names_iff allFragments ⟨0, 1⟩ (fun _ => 0) (fun _ => 0) (p := 2)
    (by decide)).mpr (.inr (.inr ⟨by decide, fun i c hi hc => ?_⟩))
  have hlength : (Dir.longName allFragments ⟨0, 1⟩ 2 ++ [0]).length = 14 := by decide
  have hlt := (List.getElem?_eq_some_iff.mp hc).1
  have hi' : 13 ≤ i := hi
  obtain rfl : i = 13 := by omega
  have hzero : (Dir.longName allFragments ⟨0, 1⟩ 2 ++ [0])[13]? = some 0 := by decide
  exact Option.some.inj (hzero.symm.trans hc)

/-- The fragment in entry 0 is left out, no terminator is written, and in the second block the order
byte is taken from behind the block. -/
theorem dirReadname_misnames :
    (dirReadnameAt allFragments (fun _ => 0) 0 1 fun _ => 0x42).name.written = [] ∧
    ¬ Dir.NamedExactly allFragments ⟨0, 1⟩ 1 (fun _ => 0x42)
      (dirReadnameAt allFragments (fun _ => 0) 0 1 fun _ => 0x42) ∧
    13 ∉ (dirReadnameAt allFragments (fun _ => 0) 0 2 fun _ => 0x42).name.written ∧
    ¬ Dir.NamedExactly allFragments ⟨0, 1⟩ 2 (fun _ => 0x42)
      (dirReadnameAt allFragments (fun _ => 0) 0 2 fun _ => 0x42) ∧
    16 ∈ (dirReadnameAt allFragments (fun _ => 0x40) 0 17 fun _ => 0).looked ∧
    ¬ Dir.NamedExactly allFragments ⟨0, 2⟩ 17 (fun _ => 0)
      (dirReadnameAt allFragments (fun _ => 0x40) 0 17 fun _ => 0) := by
  refine ⟨by decide, fun h => ?_, by decide, fun h => ?_, by decide, fun h => ?_⟩
  · have hfirst := h.long rfl (by decide) 0 0x41 (by decide)
    exact absurd hfirst (by decide)
  · have hend := h.long (by decide) (by decide) 13 0 (by decide)
    exact absurd hend (by decide)
  · exact absurd (h.looked 16 (by decide)) (by decide)

end Sample

end Hthreads.Fat16
