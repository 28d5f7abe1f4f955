import Hthreads.Cores.Allocator

/-! The id allocator over whole runs: ids are handed out, taken back and never mixed up with the
status bits next to them. -/

namespace Hthreads.Cores

open Library Library.BitFields Scheduler ThreadManager

variable {b b' : Books} {cmd : Command} {tid : ThreadId} {w : Word}

-- the thread whose record a command may write
def Command.writes (b : Books) : Command → Option ThreadId
  | createJ | createD => b.freeIds.head?
  | clear tid | join tid | exit tid => some tid
  | _ => none

structure AllocatorStep (cmd : Command) (b b' : Books) (w : Word) : Prop where
  full : cmd = .createJ ∨ cmd = .createD → (bit w 31 = true ↔ ∀ tid, b.used tid = true)
  created : cmd = .createJ ∨ cmd = .createD → bit w 31 = false →
    b.used (slice w 23 8) = false ∧ b'.used (slice w 23 8) = true ∧
      b.freeIds = slice w 23 8 :: b'.freeIds
  cleared : ∀ tid, cmd = .clear tid → w = 0 →
    b'.freeIds = tid :: b.freeIds ∧ b'.record tid = 0
  refused : ∀ tid, cmd = .clear tid → w ≠ 0 → b' = b
  records : ∀ u, cmd.writes b ≠ some u → b'.record u = b.record u
  slots : ∀ k < 256, b'.slot k = b.slot k ∨
    ∃ tid, cmd = .clear tid ∧ w = 0 ∧ k = b'.nextId.toNat ∧ b'.slot k = tid

-- a command that writes at most the record of one thread, and keeps the stack
structure Updates (b b' : Books) (target : Option ThreadId) : Prop where
  nextId : b'.nextId = b.nextId
  slot : b'.slot = b.slot
  record : ∀ u, target ≠ some u → b'.record u = b.record u
  used : ∀ u, b'.used u = b.used u

lemma Updates.of_table (ht : b'.table = b.table) (hn : b'.nextId = b.nextId) :
    Updates b b' none := by
  refine ⟨hn, ?_, fun u _ => ?_, fun u => ?_⟩
  · funext k
    rw [Books.slot, ht, Books.slot]
  · rw [Books.record, Books.entry, ht, Books.record, Books.entry]
  · rw [Books.used, Books.entry, ht, Books.used, Books.entry]

lemma updates_setEntry (hid : entryId w = entryId (b.entry tid))
    (hused : entryUsed w = b.used tid) : Updates b (b.setEntry tid w) (some tid) := by
  refine ⟨rfl, slot_setEntry hid, fun u hu => ?_, fun u => ?_⟩
  · have hne : u ≠ tid := fun heq => hu (congrArg some heq.symm)
    rw [Books.record, entry_setEntry, if_neg hne, Books.record]
  · rw [Books.used, entry_setEntry]
    split
    · next hu => rw [hused, hu]
    · rfl

lemma updates_join : Updates b (b.join tid).1 (some tid) := by
  have hkeep : Updates b b (some tid) := ⟨rfl, rfl, fun _ _ => rfl, fun _ => rfl⟩
  simp only [Books.join]
  split
  · split
    · exact updates_setEntry (entryId_insert _ _ (by omega) (by omega)) (entryUsed_joined _)
    · exact hkeep
  · exact hkeep

lemma updates_exited (hr : b.running tid = true) : Updates b (b.exited tid) (some tid) := by
  have hstatus : entryStatus (b.entry tid) = 0b11 := beq_iff_eq.mp hr
  have hused : b.used tid = true := entryUsed_of_status (by rw [hstatus]; rfl)
  refine updates_setEntry (entryId_insert _ _ (by omega) (by omega)) ?_
  rw [hused]
  exact entryUsed_of_status (by rw [entryStatus_exited]; rfl)

lemma updates_exit (hr : b.running tid = true) : Updates b (b.exit tid).1 (some tid) := by
  have hexited := updates_exited hr
  rw [exit_eq]
  split
  · exact ⟨hexited.nextId, hexited.slot, hexited.record, hexited.used⟩
  · exact hexited

lemma updates_effect (hc : ¬ (cmd = .createJ ∨ cmd = .createD)) (hd : ∀ tid, cmd ≠ .clear tid)
    (hg : exitRunning cmd b) (h : cmd.effect b = some (b', w)) :
    Updates b b' (cmd.writes b) := by
  cases cmd with
  | createJ => exact absurd (.inl rfl) hc
  | createD => exact absurd (.inr rfl) hc
  | clear tid => exact absurd rfl (hd tid)
  | join tid =>
    rw [fst_of_some h]
    exact updates_join
  | exit tid =>
    rw [fst_of_some h]
    exact updates_exit hg
  | add tid =>
    rw [fst_of_some h, add_eq]
    split <;> exact .of_table rfl rfl
  | next =>
    rw [Command.effect] at h
    split at h
    · rw [fst_of_some h, next_eq]
      split <;> exact .of_table rfl rfl
    · cases h
  | yield =>
    rw [fst_of_some h, yield_eq]
    split <;> exact .of_table rfl rfl
  | isQueued tid | isDetached tid | read tid | current =>
    rw [fst_of_some h]
    exact .of_table rfl rfl

lemma effect_create (hc : cmd = .createJ ∨ cmd = .createD) :
    ∃ command, cmd.effect b = some (b.create command) := by
  rcases hc with rfl | rfl
  · exact ⟨_, rfl⟩
  · exact ⟨_, rfl⟩

lemma Allocates.effect (h : Allocates b) (hg : exitRunning cmd b)
    (he : cmd.effect b = some (b', w)) : Allocates b' := by
  by_cases hc : cmd = .createJ ∨ cmd = .createD
  · obtain ⟨command, heff⟩ := effect_create (b := b) hc
    rw [heff] at he
    rw [fst_of_some he]
    exact h.create
  · by_cases hd : ∃ tid, cmd = .clear tid
    · obtain ⟨tid, rfl⟩ := hd
      rw [fst_of_some he]
      exact h.clear
    · push Not at hd
      have hup := updates_effect hc hd hg he
      exact h.congr hup.nextId hup.slot hup.used

lemma slice_created (tid : ThreadId) : slice (0#23 ++ tid ++ 0#1 : Word) 23 8 = tid := by
  apply BitVec.eq_of_getLsbD_eq
  intro i hi
  simp only [getLsbD_slice, BitVec.getLsbD_append, hi]
  grind

lemma dispatch_cpu (b : Books) : b.dispatch.cpu = b.ready.nextThreadId := slice_current _

lemma bit_created (tid : ThreadId) : bit (0#23 ++ tid ++ 0#1 : Word) 31 = false := by
  simp only [bit, BitVec.getLsbD_append]
  simp

lemma step_create (h : Allocates b) (hc : cmd = .createJ ∨ cmd = .createD)
    (he : cmd.effect b = some (b', w)) : AllocatorStep cmd b b' w := by
  have hno : ∀ tid, cmd ≠ .clear tid := by
    rintro tid rfl
    rcases hc with hc | hc <;> cases hc
  have hwrites : cmd.writes b = b.freeIds.head? := by
    rcases hc with rfl | rfl <;> rfl
  obtain ⟨command, heff⟩ := effect_create (b := b) hc
  rw [heff] at he
  obtain rfl := fst_of_some he
  obtain rfl := snd_of_some he
  cases hfull : bit b.nextId 0 with
  | true =>
    have hnil : b.freeIds = [] := by
      rw [Books.freeIds, (bit_nextId h.bound).mp hfull]
      rfl
    rw [create_full hfull]
    have hone : bit (1 : Word) 31 = true := by decide
    refine ⟨fun _ => iff_of_true hone fun tid => ?_, fun _ hbit => ?_,
      fun tid ht => absurd ht (hno tid),
      fun tid ht => absurd ht (hno tid), fun _ _ => rfl, fun _ _ => .inl rfl⟩
    · rw [← Bool.not_eq_false, ← h.unused tid, hnil]
      exact List.not_mem_nil
    · rw [hone] at hbit
      cases hbit
  | false =>
    obtain ⟨tid, hfree, hslot, hentry, -, hword⟩ := create_free h hfull command
    have hunused : b.used tid = false := (h.unused tid).mp (hfree ▸ List.mem_cons_self)
    rw [hword]
    refine ⟨fun _ => iff_of_false ?_ fun hall => ?_, fun _ _ => ?_, fun u hu => absurd hu (hno u),
      fun u hu => absurd hu (hno u), fun u hu => ?_, fun k _ => .inl (congrFun hslot k)⟩
    · rw [bit_created]
      exact Bool.false_ne_true
    · rw [hall tid] at hunused
      cases hunused
    · rw [slice_created]
      refine ⟨hunused, ?_, hfree⟩
      rw [Books.used, hentry, Function.update_self]
      exact entryUsed_of_status (by rw [entryStatus_createdEntry]; rfl)
    · rw [hwrites, hfree, List.head?_cons] at hu
      have hne : u ≠ tid := fun heq => hu (congrArg some heq.symm)
      rw [Books.record, hentry, Function.update_of_ne hne, Books.record]

lemma withCode_ne_zero (e : Word) : withCode e clearErrorNotUsed ≠ 0 := by
  intro hzero
  have hbits := slice_insert_self 28 clearErrorNotUsed e (by omega)
  rw [withCode] at hzero
  rw [hzero] at hbits
  exact absurd hbits (by decide)

lemma step_clear (h : Allocates b) (he : (Command.clear tid).effect b = some (b', w)) :
    AllocatorStep (.clear tid) b b' w := by
  obtain rfl := fst_of_some he
  obtain rfl := snd_of_some he
  have hno : ¬ (Command.clear tid = .createJ ∨ Command.clear tid = .createD) := by
    rintro (hc | hc) <;> cases hc
  by_cases hs : entryStatus (b.entry tid) = 0b10
  · obtain ⟨hdone, hzero⟩ := clear_done h hs
    rw [hzero]
    refine ⟨fun hc => absurd hc hno, fun hc => absurd hc hno, fun u hu _ => ?_,
      fun _ _ hne => absurd rfl hne, fun u hu => ?_, fun k hk => ?_⟩
    · cases hu
      refine ⟨hdone.free, ?_⟩
      rw [hdone.record, Function.update_self]
    · have hne : u ≠ tid := fun heq => hu (congrArg some heq.symm)
      rw [hdone.record, Function.update_of_ne hne]
    · have hslot := hdone.slot k hk
      split at hslot
      · next hkn => exact .inr ⟨tid, rfl, rfl, hkn, hslot⟩
      · exact .inl hslot
  · rw [clear_refused hs]
    exact ⟨fun hc => absurd hc hno, fun hc => absurd hc hno,
      fun _ _ hzero => absurd hzero (withCode_ne_zero _), fun _ _ _ => rfl, fun _ _ => rfl,
      fun _ _ => .inl rfl⟩

lemma Allocates.step (h : Allocates b) (hg : exitRunning cmd b)
    (he : cmd.effect b = some (b', w)) : AllocatorStep cmd b b' w := by
  by_cases hc : cmd = .createJ ∨ cmd = .createD
  · exact step_create h hc he
  · by_cases hd : ∃ tid, cmd = .clear tid
    · obtain ⟨tid, rfl⟩ := hd
      exact step_clear h he
    · push Not at hd
      have hup := updates_effect hc hd hg he
      exact ⟨fun h' => absurd h' hc, fun h' => absurd h' hc, fun tid ht => absurd ht (hd tid),
        fun tid ht => absurd ht (hd tid), hup.record, fun k _ => .inl (congrFun hup.slot k)⟩

lemma initial_entry (tid : ThreadId) : Books.initial.entry tid = tid ++ 0#24 := by
  have hbit : bit (threadAddr tid) 0 = false := by
    rw [bit, threadAddr, BitVec.getLsbD_append]
    simp
  have hslice : slice (threadAddr tid) 1 8 = tid := by
    apply BitVec.eq_of_getLsbD_eq
    intro i hi
    simp only [threadAddr, getLsbD_slice, BitVec.getLsbD_append, hi]
    grind
  have hentry : Books.initial.entry tid = freshEntry (threadAddr tid) := rfl
  rw [hentry, freshEntry, hbit, hslice]
  rfl

lemma allocates_initial : Allocates .initial := by
  have hslot : ∀ k < 256, Books.initial.slot k = BitVec.ofNat 8 k := by
    intro k hk
    rw [slot_eq hk, initial_entry]
    apply BitVec.eq_of_getLsbD_eq
    intro i hi
    simp only [entryId, getLsbD_slice, BitVec.getLsbD_append, hi]
    grind
  have hfree : Books.initial.freeIds = (List.range' 0 256).map (BitVec.ofNat 8) := by
    apply List.map_congr_left
    intro k hk
    rw [List.mem_range'_1] at hk
    exact hslot k (by omega)
  refine ⟨Nat.zero_le _, ?_, fun tid => ?_⟩
  · rw [hfree]
    apply List.Nodup.map_on
    · intro k hk j hj heq
      rw [List.mem_range'_1] at hk hj
      have hto := congrArg BitVec.toNat heq
      rw [BitVec.toNat_ofNat, BitVec.toNat_ofNat] at hto
      omega
    · exact List.nodup_range'
  · refine iff_of_true ?_ ?_
    · rw [hfree, List.mem_map]
      refine ⟨tid.toNat, ?_, by simp⟩
      rw [List.mem_range'_1]
      omega
    · rw [Books.used, initial_entry, entryUsed, bit, BitVec.getLsbD_append]
      simp

theorem id_allocator (a : Managed) (ha : a.Reachable exitRunning) :
    Allocates a.books ∧ ∀ cmd a' w, exitRunning cmd a.books → a.execute cmd = some (a', w) →
      AllocatorStep cmd a.books a'.books w := by
  obtain ⟨hrest, halloc⟩ := reachable_invariant allocates_initial
    (fun cmd b b' w hb hg he => hb.effect hg he) ha
  exact ⟨halloc, fun cmd a' w hg hexec => halloc.step hg (execute_iff hrest hexec).1⟩

-- ids 0, 1 and 2 are taken, and 1 comes back in front of 3
def reuseRun : List Command := [.createJ, .createD, .createJ, .exit 1, .exit 0, .clear 1]

theorem id_allocator_reuse : ∃ a : Managed, Books.initial.follow reuseRun = some a.books ∧
    a.books.freeIds.take 2 = [1, 3] ∧ Allocates a.books := by
  have hcmds : Books.initial.Allowed exitRunning reuseRun := by decide
  have hfree : (Books.initial.follow reuseRun).map (fun b => b.freeIds.take 2) = some [1, 3] := by
    decide
  obtain ⟨b, hb, hfree⟩ := Option.map_eq_some_iff.mp hfree
  obtain ⟨a, ha, rfl⟩ := reachable_of_follow hcmds hb
  exact ⟨a, hb, hfree, (id_allocator a ha).1⟩

end Hthreads.Cores
