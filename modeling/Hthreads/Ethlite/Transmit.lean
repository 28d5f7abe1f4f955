import Hthreads.Library.ByteOrder

/-! How the driver copies a frame into a transmit buffer (`ethlite.c`). -/

namespace Hthreads.Ethlite

open Library

/-- The two pointers of a copy, the addresses it has read and the words it has stored. -/
structure Copy where
  src : ℕ
  dst : ℕ
  reads : List ℕ
  writes : List (ℕ × BitVec 32)

namespace Copy

def start (src : ℕ) : Copy := ⟨src, 0, [], []⟩

def take (n : ℕ) (s : Copy) : Copy :=
  { s with src := s.src + n, reads := s.reads ++ List.range' s.src n }

def put (w : BitVec 32) (s : Copy) : Copy :=
  { s with dst := s.dst + 1, writes := s.writes ++ [(s.dst, w)] }

end Copy

variable (mem : Bytes)

def shiftByte (data : BitVec 32) (a : ℕ) : BitVec 32 := data <<< 8 ||| (mem a).setWidth 32

def byteWords : ℕ → Copy → Copy
  | 0, s => s
  | flen + 1, s =>
    let data := (mem s.src).setWidth 32
    let data := shiftByte mem data (s.src + 1)
    let data := shiftByte mem data (s.src + 2)
    let data := shiftByte mem data (s.src + 3)
    byteWords flen ((s.take 4).put data)

def restWord : ℕ → BitVec 32 → Copy → Copy
  | 0, data, s => s.put data
  | len + 1, data, s => restWord len (shiftByte mem data s.src) (s.take 1)

def bytealignedwrite (len : ℕ) (s : Copy) : Copy :=
  let flen := len / 4
  let len := len - flen * 2
  let s := byteWords mem flen s
  if len > 0 then restWord mem len 0 s else s

def hwordWords : ℕ → Copy → Copy
  | 0, s => s
  | flen + 1, s =>
    let data := (mem.load16 s.src).setWidth 32
    let data := data <<< 16 ||| (mem.load16 (s.src + 2)).setWidth 32
    hwordWords flen ((s.take 4).put data)

def hwordalignedwrite (len : ℕ) (s : Copy) : Copy :=
  let flen := len / 4
  let len := len - flen * 2
  let s := hwordWords mem flen s
  if len > 0 then bytealignedwrite mem len s else s

def wordWords : ℕ → Copy → Copy
  | 0, s => s
  | flen + 1, s => wordWords flen ((s.take 4).put (mem.load32 s.src))

def wordalignedwrite (len : ℕ) (s : Copy) : Copy :=
  let flen := len / 4
  let len := len - flen * 4
  let s := wordWords mem flen s
  if len > 0 then bytealignedwrite mem len s else s

def alignedwrite (src len : ℕ) : Copy :=
  if src.testBit 0 then bytealignedwrite mem len (.start src)
  else if src.testBit 1 then hwordalignedwrite mem len (.start src)
  else wordalignedwrite mem len (.start src)

/-- What the frame that is sent needs of the copy. -/
structure Transmits (src len : ℕ) (run : Copy) : Prop where
  reads : ∀ a ∈ run.reads, src ≤ a ∧ a < src + len
  writes : run.writes.map Prod.fst = List.range ((len + 3) / 4)
  bytes : ∀ buffer : Words, ∀ k < len, (Words.stored run.writes buffer).byte k = mem (src + k)

variable {mem} {s : Copy} {src len n k : ℕ}

section Words

lemma shift_append {v : ℕ} (x : BitVec v) (b : Byte) :
    x.setWidth 32 <<< 8 ||| b.setWidth 32 = (x ++ b).setWidth 32 := by
  apply BitVec.eq_of_getLsbD_eq
  intro i hi
  simp only [BitVec.getLsbD_or, BitVec.getLsbD_shiftLeft, BitVec.getLsbD_setWidth,
    BitVec.getLsbD_append]
  by_cases h : i < 8
  · simp [h, hi]
  · have hlt : i - 8 < 32 := by omega
    simp [h, hi, hlt, BitVec.getLsbD_of_ge b i (by omega)]

lemma shiftByte_shiftByte_shiftByte :
    shiftByte mem (shiftByte mem (shiftByte mem ((mem src).setWidth 32) (src + 1)) (src + 2))
      (src + 3) = mem.load32 src := by
  simp only [shiftByte]
  rw [shift_append, shift_append, shift_append]
  exact BitVec.setWidth_eq _

lemma shift_load16 :
    (mem.load16 src).setWidth 32 <<< 16 ||| (mem.load16 (src + 2)).setWidth 32 =
      mem.load32 src := by
  apply BitVec.eq_of_getLsbD_eq
  intro i hi
  simp only [Bytes.load16, Bytes.load32, BitVec.getLsbD_or, BitVec.getLsbD_shiftLeft,
    BitVec.getLsbD_setWidth, BitVec.getLsbD_append]
  interval_cases i <;> simp

end Words

namespace Copy

-- a whole word copied, whatever the width of the loads it took
def word (mem : Bytes) (s : Copy) : Copy := (s.take 4).put (mem.load32 s.src)

def words (mem : Bytes) (n : ℕ) (s : Copy) : Copy where
  src := s.src + 4 * n
  dst := s.dst + n
  reads := s.reads ++ List.range' s.src (4 * n)
  writes := s.writes ++ (List.range n).map fun i => (s.dst + i, mem.load32 (s.src + 4 * i))

lemma words_zero : s.words mem 0 = s := by
  simp [words]

lemma words_succ : s.words mem (n + 1) = (s.word mem).words mem n := by
  have hreads : List.range' s.src (4 * (n + 1)) =
      List.range' s.src 4 ++ List.range' (s.src + 4) (4 * n) := by
    rw [List.range'_append_1]
    congr 1
    omega
  have hwrites : ((List.range (n + 1)).map fun i => (s.dst + i, mem.load32 (s.src + 4 * i))) =
      (s.dst, mem.load32 s.src) ::
        (List.range n).map fun i => (s.dst + 1 + i, mem.load32 (s.src + 4 + 4 * i)) := by
    rw [List.range_succ_eq_map, List.map_cons, List.map_map]
    refine congrArg (List.cons _) (List.map_congr_left fun i _ => ?_)
    have hdst : s.dst + i.succ = s.dst + 1 + i := by omega
    have hsrc : s.src + 4 * i.succ = s.src + 4 + 4 * i := by omega
    simp only [Function.comp_apply, hdst, hsrc]
  simp only [words, word, put, take, hreads, hwrites, List.append_assoc, List.singleton_append]
  congr 1 <;> omega

end Copy

lemma words_of_turns {loop : ℕ → Copy → Copy} (hstop : ∀ s, loop 0 s = s)
    (hturn : ∀ n s, loop (n + 1) s = loop n (s.word mem)) : loop n s = s.words mem n := by
  induction n generalizing s with
  | zero => rw [hstop, Copy.words_zero]
  | succ n ih => rw [hturn, ih, Copy.words_succ]

lemma byteWords_eq : byteWords mem n s = s.words mem n := by
  apply words_of_turns (fun _ => rfl)
  intro n s
  rw [byteWords, shiftByte_shiftByte_shiftByte]
  rfl

lemma hwordWords_eq : hwordWords mem n s = s.words mem n := by
  apply words_of_turns (fun _ => rfl)
  intro n s
  rw [hwordWords, shift_load16]
  rfl

lemma wordWords_eq : wordWords mem n s = s.words mem n :=
  words_of_turns (fun _ => rfl) fun _ _ => rfl

def packed (mem : Bytes) : ℕ → BitVec 32 → ℕ → BitVec 32
  | 0, data, _ => data
  | len + 1, data, a => packed mem len (shiftByte mem data a) (a + 1)

lemma restWord_eq {data : BitVec 32} :
    restWord mem len data s = (s.take len).put (packed mem len data s.src) := by
  induction len generalizing data s with
  | zero => simp [restWord, Copy.take, packed]
  | succ len ih =>
    rw [restWord, ih, packed]
    simp only [Copy.put, Copy.take, List.append_assoc, List.range'_append_1, Nat.add_assoc,
      Nat.add_comm 1 len]

def rest (mem : Bytes) (len : ℕ) (s : Copy) : Copy :=
  if len > 0 then (s.take len).put (packed mem len 0 s.src) else s

lemma bytealignedwrite_eq :
    bytealignedwrite mem len s = rest mem (len - len / 4 * 2) (s.words mem (len / 4)) := by
  rw [bytealignedwrite, rest]
  simp only [byteWords_eq, restWord_eq]

lemma bytealignedwrite_of_lt (h : len < 4) : bytealignedwrite mem len s = rest mem len s := by
  rw [bytealignedwrite_eq, Nat.div_eq_of_lt h, Copy.words_zero, Nat.zero_mul, Nat.sub_zero]

lemma rest_bytealignedwrite (h : len < 4) :
    (if len > 0 then bytealignedwrite mem len s else s) = rest mem len s := by
  rw [bytealignedwrite_of_lt h]
  by_cases hpos : len > 0
  · rw [if_pos hpos]
  · rw [if_neg hpos, rest, if_neg hpos]

-- a word aligned source, or one too short for a full word, is read as it should be
def Fits (src len : ℕ) : Prop := src % 4 = 0 ∨ len < 4

lemma alignedwrite_of_fits (h : Fits src len) :
    alignedwrite mem src len = rest mem (len % 4) ((Copy.start src).words mem (len / 4)) := by
  have hword : len % 4 < 4 := Nat.mod_lt len (by omega)
  have hsmall : len < 4 → len % 4 = len ∧ len / 4 = 0 := fun hl =>
    ⟨Nat.mod_eq_of_lt hl, Nat.div_eq_of_lt hl⟩
  rw [alignedwrite]
  split
  case isTrue hbyte =>
    have hl : len < 4 := by
      apply h.resolve_left
      rw [Nat.testBit_zero, decide_eq_true_eq] at hbyte
      omega
    rw [(hsmall hl).1, (hsmall hl).2, Copy.words_zero, bytealignedwrite_of_lt hl]
  case isFalse hbyte =>
    split
    case isTrue hhword =>
      have hl : len < 4 := by
        apply h.resolve_left
        rw [Nat.testBit_succ, Nat.testBit_zero, decide_eq_true_eq] at hhword
        omega
      rw [hwordalignedwrite]
      simp only [(hsmall hl).1, (hsmall hl).2, Nat.zero_mul, Nat.sub_zero]
      exact rest_bytealignedwrite hl
    case isFalse =>
      have hrem : len - len / 4 * 4 = len % 4 := by omega
      rw [wordalignedwrite]
      simp only [hrem, wordWords_eq]
      exact rest_bytealignedwrite hword

lemma mem_rest_reads {a : ℕ} (h : a ∈ s.reads) : a ∈ (rest mem len s).reads := by
  rw [rest]
  split
  · exact List.mem_append_left _ h
  · exact h

lemma mem_bytealignedwrite_reads (h : k < len + len / 4 * 2) :
    s.src + k ∈ (bytealignedwrite mem len s).reads := by
  rw [bytealignedwrite_eq]
  by_cases hk : k < 4 * (len / 4)
  · apply mem_rest_reads
    apply List.mem_append_right
    exact List.mem_range'_1.mpr ⟨Nat.le_add_right _ _, by omega⟩
  · rw [rest, if_pos (by omega)]
    apply List.mem_append_right
    apply List.mem_range'_1.mpr
    simp only [Copy.words]
    omega

lemma reads_beyond (h : ¬ Fits src len) : src + len ∈ (alignedwrite mem src len).reads := by
  obtain ⟨halign, hlen⟩ := not_or.mp h
  rw [alignedwrite]
  split
  case isTrue =>
    exact mem_bytealignedwrite_reads (s := Copy.start src) (by omega)
  case isFalse hbyte =>
    have hhword : src.testBit 1 = true := by
      rw [Nat.testBit_zero, decide_eq_true_eq] at hbyte
      rw [Nat.testBit_succ, Nat.testBit_zero, decide_eq_true_eq]
      omega
    rw [if_pos hhword, hwordalignedwrite]
    simp only [hwordWords_eq]
    rw [if_pos (by omega)]
    have hmem : ((Copy.start src).words mem (len / 4)).src + (len - 4 * (len / 4)) ∈
        (bytealignedwrite mem (len - len / 4 * 2) ((Copy.start src).words mem (len / 4))).reads :=
      mem_bytealignedwrite_reads (by omega)
    have hsrc : ((Copy.start src).words mem (len / 4)).src + (len - 4 * (len / 4)) =
        src + len := by
      simp only [Copy.words, Copy.start]
      omega
    rwa [hsrc] at hmem

-- the remaining bytes at the low end of a word, zeros above them
def padded (mem : Bytes) (len a : ℕ) : Bytes :=
  fun k => if k < 4 - len then 0 else mem (a + (k - (4 - len)))

lemma packed_eq {a : ℕ} (h : len < 4) : packed mem len 0 a = (padded mem len a).load32 0 := by
  rw [← shiftByte_shiftByte_shiftByte]
  interval_cases len
  all_goals
    simp [packed, shiftByte, padded]

def sentWord (mem : Bytes) (src len : ℕ) : Words := fun i =>
  if i < len / 4 then mem.load32 (src + 4 * i)
  else (padded mem (len % 4) (src + 4 * (len / 4))).load32 0

lemma fitting_writes : (rest mem (len % 4) ((Copy.start src).words mem (len / 4))).writes =
    (List.range ((len + 3) / 4)).map fun i => (i, sentWord mem src len i) := by
  have hfull : ((Copy.start src).words mem (len / 4)).writes =
      (List.range (len / 4)).map fun i => (i, sentWord mem src len i) := by
    simp only [Copy.words, Copy.start, List.nil_append, Nat.zero_add]
    refine List.map_congr_left fun i hi => ?_
    rw [sentWord, if_pos (List.mem_range.mp hi)]
  rw [rest]
  split
  case isTrue hpos =>
    have hcount : (len + 3) / 4 = len / 4 + 1 := by omega
    have hlast : sentWord mem src len (len / 4) =
        packed mem (len % 4) 0 ((Copy.start src).words mem (len / 4)).src := by
      rw [sentWord, if_neg (Nat.lt_irrefl _), packed_eq (Nat.mod_lt len (by omega))]
      rfl
    rw [hcount, List.range_succ, List.map_append, List.map_singleton, hlast]
    simp only [Copy.put, Copy.take]
    rw [hfull]
    simp only [Copy.words, Copy.start, Nat.zero_add]
  case isFalse hzero =>
    have hcount : (len + 3) / 4 = len / 4 := by omega
    rw [hcount, hfull]

lemma mem_fitting_reads {a : ℕ}
    (h : a ∈ (rest mem (len % 4) ((Copy.start src).words mem (len / 4))).reads) :
    src ≤ a ∧ a < src + len := by
  have hfull : a ∈ List.range' src (4 * (len / 4)) → src ≤ a ∧ a < src + len := by
    intro ha
    have := List.mem_range'_1.mp ha
    omega
  rw [rest] at h
  split at h
  · rcases List.mem_append.mp h with h | h
    · exact hfull h
    · have := List.mem_range'_1.mp h
      simp only [Copy.words, Copy.start] at this
      omega
  · exact hfull h

lemma sentWord_byte (buffer : Words) (hk : k < len) :
    (buffer.overwrite (sentWord mem src len) ((len + 3) / 4)).byte k =
      if k < 4 * (len / 4) then mem (src + k)
      else padded mem (len % 4) (src + 4 * (len / 4)) (k % 4) := by
  have hword : (buffer.overwrite (sentWord mem src len) ((len + 3) / 4)).byte k =
      (sentWord mem src len).byte k := by
    apply Words.byte_congr
    apply Words.overwrite_of_lt
    omega
  rw [hword]
  split
  case isTrue hlow =>
    apply Words.byte_of_load32
    rw [sentWord, if_pos (by omega)]
  case isFalse hhigh =>
    rw [Words.byte, sentWord, if_neg (by omega), Words.extract_load32 (Nat.mod_lt k (by omega)),
      Nat.zero_add]

lemma padded_eq_iff {a : ℕ} (hlen : len < 4) :
    (∀ j < len, padded mem len a j = mem (a + j)) ↔ ∀ j < len, mem (a + j) = 0 := by
  constructor
  · intro h j
    induction j using Nat.strong_induction_on with
    | _ j ih =>
      intro hj
      rw [← h j hj, padded]
      split
      · rfl
      · exact ih _ (by omega) (by omega)
  · intro h j hj
    rw [h j hj, padded]
    split
    · rfl
    · exact h _ (by omega)

theorem alignedwrite_transmits_iff (mem : Bytes) (src len : ℕ) :
    Transmits mem src len (alignedwrite mem src len) ↔
      (src % 4 = 0 ∨ len < 4) ∧ ∀ k, 4 * (len / 4) ≤ k → k < len → mem (src + k) = 0 := by
  have hlast : (∀ k, 4 * (len / 4) ≤ k → k < len → mem (src + k) = 0) ↔
      ∀ j < len % 4, mem (src + 4 * (len / 4) + j) = 0 := by
    constructor
    · intro h j hj
      rw [Nat.add_assoc]
      exact h _ (Nat.le_add_right _ _) (by omega)
    · intro h k hlo hk
      have := h (k - 4 * (len / 4)) (by omega)
      rwa [Nat.add_assoc, Nat.add_sub_cancel' hlo] at this
  rw [hlast, ← padded_eq_iff (Nat.mod_lt len (by omega))]
  constructor
  · intro h
    have hfits : Fits src len := by
      by_contra hno
      have := h.reads _ (reads_beyond hno)
      omega
    refine ⟨hfits, fun j hj => ?_⟩
    have hbyte := h.bytes (fun _ => 0) (4 * (len / 4) + j) (by omega)
    have hmod : (4 * (len / 4) + j) % 4 = j := by omega
    rw [alignedwrite_of_fits hfits, fitting_writes, Words.stored_range,
      sentWord_byte _ (by omega), if_neg (by omega), hmod] at hbyte
    rw [hbyte, Nat.add_assoc]
  · rintro ⟨hfits, hpad⟩
    rw [alignedwrite_of_fits hfits]
    refine ⟨fun a => mem_fitting_reads, ?_, fun buffer k hk => ?_⟩
    · rw [fitting_writes, List.map_map]
      exact List.map_id _
    · rw [fitting_writes, Words.stored_range, sentWord_byte buffer hk]
      split
      case isTrue => rfl
      case isFalse hhigh =>
        have hj : k % 4 < len % 4 := by omega
        rw [hpad _ hj, Nat.add_assoc]
        congr 2
        omega

def letterBytes : Bytes := fun _ => 0x41

theorem alignedwrite_hides_single_byte :
    ¬ ∀ (mem : Bytes) (src len : ℕ), Transmits mem src len (alignedwrite mem src len) := by
  intro hclaim
  have hbyte := (hclaim letterBytes 0 1).bytes (fun _ => 0) 0 (by decide)
  exact absurd hbyte (by decide)

end Hthreads.Ethlite
