import Hthreads.Cores.Effects

/-! The stack of free thread ids, which shares its words with the thread table. -/

namespace Hthreads.Cores

open Library Library.BitFields Scheduler ThreadManager

namespace Books

def slot (b : Books) (k : ℕ) : ThreadId := entryId (b.table (BitVec.ofNat 9 k))

/-- The stack slots `next_ID` to 255, top first. -/
def freeIds (b : Books) : List ThreadId :=
  (List.range' b.nextId.toNat (256 - b.nextId.toNat)).map b.slot

def used (b : Books) (tid : ThreadId) : Bool := entryUsed (b.entry tid)

def record (b : Books) (tid : ThreadId) : BitVec 24 := entryRecord (b.entry tid)

end Books

/-- The stack holds the ids that are not used, each once. -/
structure Allocates (b : Books) : Prop where
  bound : b.nextId.toNat ≤ 256
  nodup : b.freeIds.Nodup
  unused : ∀ tid, tid ∈ b.freeIds ↔ b.used tid = false

-- EXIT is issued for a thread that is used and has not exited
def exitRunning : Guard := fun cmd b =>
  match cmd with
  | .exit tid => b.running tid = true
  | _ => True

instance exitRunning.decidable (cmd : Command) (b : Books) : Decidable (exitRunning cmd b) :=
  match cmd with
  | .exit tid => inferInstanceAs (Decidable (b.running tid = true))
  | .createJ | .createD | .clear _ | .join _ | .add _ | .next | .yield | .isQueued _
  | .isDetached _ | .read _ | .current => inferInstanceAs (Decidable True)

section Slots

variable {b b' : Books} {tid u : ThreadId} {w : Word}

lemma ofNat_eq_threadAddr {k : ℕ} (hk : k < 256) :
    BitVec.ofNat 9 k = threadAddr (BitVec.ofNat 8 k) := by
  apply BitVec.eq_of_toNat_eq
  rw [BitVec.toNat_ofNat, threadAddr, BitVec.toNat_append, BitVec.toNat_ofNat, BitVec.toNat_ofNat]
  simp
  omega

lemma slot_eq {k : ℕ} (hk : k < 256) : b.slot k = entryId (b.entry (BitVec.ofNat 8 k)) := by
  rw [Books.slot, ofNat_eq_threadAddr hk, Books.entry]

lemma table_setEntry :
    (b.setEntry tid w).table = Function.update b.table (threadAddr tid) w := rfl

lemma entry_setEntry : (b.setEntry tid w).entry u = if u = tid then w else b.entry u := by
  rw [Books.entry, table_setEntry]
  by_cases hu : u = tid
  · rw [hu, Function.update_self, if_pos rfl]
  · rw [Function.update_of_ne (fun h => hu (threadAddr_injective h)), if_neg hu, Books.entry]

lemma slot_setEntry (hw : entryId w = entryId (b.entry tid)) :
    (b.setEntry tid w).slot = b.slot := by
  funext k
  rw [Books.slot, table_setEntry]
  by_cases hk : BitVec.ofNat 9 k = threadAddr tid
  · rw [hk, Function.update_self, hw, Books.slot, hk, Books.entry]
  · rw [Function.update_of_ne hk, Books.slot]

lemma freeIds_congr (hn : b'.nextId = b.nextId) (hs : b'.slot = b.slot) :
    b'.freeIds = b.freeIds := by
  rw [Books.freeIds, Books.freeIds, hn, hs]

lemma Allocates.congr (h : Allocates b) (hn : b'.nextId = b.nextId) (hs : b'.slot = b.slot)
    (hu : ∀ v, b'.used v = b.used v) : Allocates b' := by
  refine ⟨hn ▸ h.bound, ?_, fun v => ?_⟩
  · rw [freeIds_congr hn hs]
    exact h.nodup
  · rw [freeIds_congr hn hs, hu v]
    exact h.unused v

end Slots

section Create

variable {b : Books} {command : BitVec 6}

lemma bit_nextId (h : b.nextId.toNat ≤ 256) : bit b.nextId 0 = true ↔ b.nextId.toNat = 256 := by
  have hmsb : bit b.nextId 0 = b.nextId.msb := (BitVec.msb_eq_getLsbD_last b.nextId).symm
  rw [hmsb, BitVec.msb_eq_decide, decide_eq_true_iff]
  omega

lemma freeIds_cons (h : b.nextId.toNat < 256) :
    b.freeIds = b.slot b.nextId.toNat :: (List.range' (b.nextId.toNat + 1)
      (255 - b.nextId.toNat)).map b.slot := by
  rw [Books.freeIds, show 256 - b.nextId.toNat = (255 - b.nextId.toNat) + 1 by omega,
    List.range'_succ, List.map_cons]

lemma create_full (h : bit b.nextId 0 = true) : b.create command = (b, 1) := by
  rw [Books.create, if_pos h]

lemma create_free (h : Allocates b) (hfree : bit b.nextId 0 = false) (command : BitVec 6) :
    ∃ tid, b.freeIds = tid :: (b.create command).1.freeIds ∧
      (b.create command).1.slot = b.slot ∧
      (b.create command).1.entry = Function.update b.entry tid
        (createdEntry command (b.entry tid) b.cpu) ∧
      (b.create command).1.nextId.toNat = b.nextId.toNat + 1 ∧
      (b.create command).2 = 0#23 ++ tid ++ 0#1 := by
  have hlt : b.nextId.toNat < 256 := by
    have hne : ¬ b.nextId.toNat = 256 := by
      rw [← bit_nextId h.bound, hfree]
      exact Bool.false_ne_true
    have := h.bound
    omega
  obtain ⟨tid, htid⟩ : ∃ tid, b.slot b.nextId.toNat = tid := ⟨_, rfl⟩
  have htop : entryId (b.table b.nextId) = tid := by
    rw [← htid, Books.slot, BitVec.ofNat_toNat, BitVec.setWidth_eq]
  have hcreate : b.create command =
      ({ b.setEntry tid (createdEntry command (b.entry tid) b.cpu) with nextId := b.nextId + 1 },
        0#23 ++ tid ++ 0#1) := by
    simp only [Books.create, hfree, Bool.false_eq_true, if_false, htop]
  have hslot : (b.create command).1.slot = b.slot := by
    rw [hcreate]
    exact slot_setEntry (entryId_createdEntry _ _ _)
  have hnext : (b.create command).1.nextId.toNat = b.nextId.toNat + 1 := by
    rw [hcreate]
    have hone : (1 : BitVec 9).toNat = 1 := rfl
    simp only [BitVec.toNat_add, hone]
    omega
  refine ⟨tid, ?_, hslot, ?_, hnext, by rw [hcreate]⟩
  · rw [freeIds_cons hlt, htid, Books.freeIds, hslot, hnext,
      show 256 - (b.nextId.toNat + 1) = 255 - b.nextId.toNat by omega]
  · funext u
    rw [hcreate, Function.update_apply]
    exact entry_setEntry

lemma Allocates.create (h : Allocates b) : Allocates (b.create command).1 := by
  cases hfull : bit b.nextId 0 with
  | true =>
    rw [create_full hfull]
    exact h
  | false =>
    obtain ⟨tid, hfree, hslot, hentry, hnext, -⟩ := create_free h hfull command
    have hnodup := h.nodup
    rw [hfree, List.nodup_cons] at hnodup
    refine ⟨?_, hnodup.2, fun u => ?_⟩
    · have hne : ¬ b.nextId.toNat = 256 := by
        rw [← bit_nextId h.bound, hfull]
        exact Bool.false_ne_true
      have := h.bound
      omega
    · rw [Books.used, hentry, Function.update_apply]
      by_cases hu : u = tid
      · have hused := entryUsed_of_status (e := createdEntry command (b.entry tid) b.cpu)
          (by rw [entryStatus_createdEntry]; rfl)
        rw [if_pos hu, hused, hu]
        exact iff_of_false hnodup.1 Bool.noConfusion
      · have hmem := h.unused u
        rw [hfree, List.mem_cons, or_iff_right hu] at hmem
        rw [if_neg hu]
        exact hmem

end Create

section Clear

variable {b : Books} {tid : ThreadId}

lemma nextId_pos (h : Allocates b) (hu : b.used tid = true) : 0 < b.nextId.toNat := by
  by_contra hzero
  have hlen : b.freeIds.length = 256 := by
    rw [Books.freeIds, List.length_map, List.length_range']
    omega
  have habsent : tid ∉ b.freeIds := by
    rw [h.unused tid, hu]
    exact Bool.noConfusion
  have hnodup : ((tid :: b.freeIds).map BitVec.toFin).Nodup :=
    (List.nodup_cons.mpr ⟨habsent, h.nodup⟩).map fun _ _ => BitVec.eq_of_toFin_eq
  have hcard := hnodup.length_le_card
  rw [List.length_map, List.length_cons, hlen, Fintype.card_fin] at hcard
  omega

structure Cleared (b b' : Books) (tid : ThreadId) : Prop where
  free : b'.freeIds = tid :: b.freeIds
  nextId : b'.nextId.toNat + 1 = b.nextId.toNat
  slot : ∀ k < 256, b'.slot k = if k = b'.nextId.toNat then tid else b.slot k
  record : b'.record = Function.update b.record tid 0

lemma clear_refused (hs : ¬ entryStatus (b.entry tid) = 0b10) :
    b.clear tid = (b, withCode (b.entry tid) clearErrorNotUsed) := by
  rw [Books.clear, if_neg hs]

lemma clear_done (h : Allocates b) (hs : entryStatus (b.entry tid) = 0b10) :
    Cleared b (b.clear tid).1 tid ∧ (b.clear tid).2 = 0 := by
  have hused : b.used tid = true := entryUsed_of_status (by rw [hs]; rfl)
  have hpos := nextId_pos h hused
  have hbound := h.bound
  obtain ⟨c, hc⟩ : ∃ c, b.setEntry tid (entryId (b.entry tid) ++ 0#24) = c := ⟨_, rfl⟩
  have hcslot : c.slot = b.slot := hc ▸ slot_setEntry (entryId_clearedEntry _)
  have hcnext : c.nextId = b.nextId := hc ▸ rfl
  have hne : c.nextId ≠ 0 := by
    intro hzero
    rw [hcnext] at hzero
    rw [hzero] at hpos
    exact absurd hpos (by decide)
  obtain ⟨d, hd⟩ : ∃ d, c.deallocate tid = d := ⟨_, rfl⟩
  have hclear : b.clear tid = (d, 0) := by
    rw [Books.clear, if_pos hs, hc, hd]
  have hdtable : d.table = Function.update c.table (c.nextId - 1)
      (insert 0 tid (c.table (c.nextId - 1))) := by
    rw [← hd, Books.deallocate, if_pos hne]
  have hdnext : d.nextId = b.nextId - 1 := by
    rw [← hd, Books.deallocate, if_pos hne, hcnext]
  have hnat : d.nextId.toNat + 1 = b.nextId.toNat := by
    have hone : (1 : BitVec 9).toNat = 1 := rfl
    have hle : (1 : BitVec 9) ≤ b.nextId := by
      rw [BitVec.le_def, hone]
      exact hpos
    rw [hdnext, BitVec.toNat_sub_of_le hle, hone]
    omega
  have htop : c.nextId - 1 = BitVec.ofNat 9 d.nextId.toNat := by
    rw [hcnext, ← hdnext, BitVec.ofNat_toNat, BitVec.setWidth_eq]
  have hslot : ∀ k < 256, d.slot k = if k = d.nextId.toNat then tid else b.slot k := by
    intro k hk
    rw [Books.slot, hdtable, htop]
    by_cases hkn : k = d.nextId.toNat
    · rw [if_pos hkn, hkn, Function.update_self, entryId_pushed]
    · have haddr : BitVec.ofNat 9 k ≠ BitVec.ofNat 9 d.nextId.toNat := by
        intro heq
        have hto := congrArg BitVec.toNat heq
        rw [BitVec.toNat_ofNat, BitVec.toNat_ofNat] at hto
        omega
      rw [if_neg hkn, Function.update_of_ne haddr, ← hcslot, Books.slot]
  rw [hclear]
  refine ⟨⟨?_, hnat, hslot, ?_⟩, rfl⟩
  · have hd' : (d, (0 : Word)).1 = d := rfl
    rw [hd', Books.freeIds, show 256 - d.nextId.toNat = (256 - b.nextId.toNat) + 1 by omega,
      List.range'_succ, List.map_cons, hslot _ (by omega), if_pos rfl, hnat, Books.freeIds]
    congr 1
    apply List.map_congr_left
    intro k hk
    rw [List.mem_range'_1] at hk
    rw [hslot k (by omega), if_neg (by omega)]
  · funext u
    have hrec : d.record u = c.record u := by
      rw [Books.record, Books.entry, hdtable, Books.record, Books.entry]
      by_cases hu : threadAddr u = c.nextId - 1
      · rw [hu, Function.update_self, entryRecord_pushed]
      · rw [Function.update_of_ne hu]
    rw [hrec, Books.record, ← hc, entry_setEntry, Function.update_apply]
    split
    · exact entryRecord_clearedEntry _
    · rfl

lemma Allocates.clear (h : Allocates b) : Allocates (b.clear tid).1 := by
  by_cases hs : entryStatus (b.entry tid) = 0b10
  · obtain ⟨hdone, -⟩ := clear_done h hs
    have hused : b.used tid = true := entryUsed_of_status (by rw [hs]; rfl)
    have habsent : tid ∉ b.freeIds := by
      rw [h.unused tid, hused]
      exact Bool.noConfusion
    refine ⟨?_, ?_, fun u => ?_⟩
    · have := hdone.nextId
      have := h.bound
      omega
    · rw [hdone.free, List.nodup_cons]
      exact ⟨habsent, h.nodup⟩
    · have hrec := congrFun hdone.record u
      rw [Function.update_apply] at hrec
      rw [hdone.free, List.mem_cons, h.unused u]
      by_cases hu : u = tid
      · rw [if_pos hu] at hrec
        have hzero : entryUsed ((b.clear tid).1.entry u) = entryUsed 0 := entryUsed_of_record hrec
        rw [Books.used, Books.used, hzero]
        exact iff_of_true (.inl hu) rfl
      · rw [if_neg hu] at hrec
        have hsame : entryUsed ((b.clear tid).1.entry u) = entryUsed (b.entry u) :=
          entryUsed_of_record hrec
        rw [Books.used, Books.used, hsame, or_iff_right hu]
  · rw [clear_refused hs]
    exact h

end Clear

end Hthreads.Cores
