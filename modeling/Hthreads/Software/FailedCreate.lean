import Hthreads.Software.Create
import Hthreads.Software.Stacks

/-! What a failed creation leaves behind. The id is given back on none of the paths on which the
call fails after CREATE has returned it. -/

namespace Hthreads.Software

open Library Library.BitFields Scheduler ThreadManager Cores

variable {I : Image} {attr : Attr} {start arg : Huint} {k : Kernel} {b b' : Books}

structure NothingLeaked (b b' : Books) : Prop where
  free : b'.freeIds.Perm b.freeIds
  ready : b'.ready.readyList = b.ready.readyList

def LeaksNothing (I : Image) (attr : Attr) (start arg : Huint) (k : Kernel) (a : Managed) : Prop :=
  ∀ a' r th k', (Bus.syscallCreate I attr start arg k).run machineAccess a = some (a', r, th, k') →
    r ≠ success → NothingLeaked a.books a'.books

lemma freeIds_length (b : Books) : b.freeIds.length = 256 - b.nextId.toNat := by
  rw [Books.freeIds, List.length_map, List.length_range']

lemma bit_nextId_false : bit b.nextId 0 = false ↔ b.nextId.toNat < 256 := by
  have hmsb : bit b.nextId 0 = b.nextId.msb := (BitVec.msb_eq_getLsbD_last b.nextId).symm
  rw [hmsb, BitVec.msb_eq_decide, decide_eq_false_iff_not]
  omega

lemma freeIds_eq_nil_iff : b.freeIds = [] ↔ bit b.nextId 0 = true := by
  rw [← List.length_eq_zero_iff, freeIds_length, ← Bool.not_eq_false, bit_nextId_false]
  omega

lemma nextId_allocated (h : bit b.nextId 0 = false) :
    (allocated attr b).nextId.toNat = b.nextId.toNat + 1 := by
  have hlt := bit_nextId_false.mp h
  have hnext : (allocated attr b).nextId = b.nextId + 1 := by
    rw [allocated, Books.create, if_neg (Bool.eq_false_iff.mp h)]
  rw [hnext, toNat_succ_of_lt (by omega)]

lemma not_nothingLeaked (attr : Attr) (h : bit b.nextId 0 = false)
    (hn : b'.nextId = (allocated attr b).nextId) : ¬ NothingLeaked b b' := by
  intro hno
  have hlen := hno.free.length_eq
  have hlt := bit_nextId_false.mp h
  rw [freeIds_length, freeIds_length, hn, nextId_allocated h] at hlen
  omega

theorem failed_create_leaks_nothing_iff (a : Managed) (ha : a.AtRest) (I : Image) (attr : Attr)
    (start arg : Huint) (k : Kernel) : LeaksNothing I attr start arg k a ↔
      a.books.freeIds = [] ∨
        attr.StackAccepted ∧ a.books.ready.queued (freshId a.books) = false := by
  rw [freeIds_eq_nil_iff]
  constructor
  · intro hleaks
    by_contra hcond
    rw [not_or, Bool.not_eq_true] at hcond
    obtain ⟨hfree, hfault⟩ := hcond
    by_cases hstack : attr.StackAccepted
    · have hq : a.books.ready.queued (freshId a.books) = true := by
        rw [← Bool.not_eq_false]
        exact fun hq => hfault ⟨hstack, hq⟩
      obtain ⟨r, k', hr, hrun⟩ := syscallCreate_queued (I := I) hfree hstack hq
      obtain ⟨a', hmachine, -, hbooks⟩ := run_machine_of_books _ ha hrun
      have hnext : a'.books.nextId = (allocated attr a.books).nextId := by rw [hbooks]; rfl
      exact not_nothingLeaked attr hfree hnext (hleaks a' r none k' hmachine hr)
    · have hne : einval ≠ success := by decide
      obtain ⟨a', hmachine, -, hbooks⟩ :=
        run_machine_of_books _ ha (syscallCreate_refused (I := I) hfree hstack)
      have hnext : a'.books.nextId = (allocated attr a.books).nextId := by rw [hbooks]
      exact not_nothingLeaked attr hfree hnext (hleaks a' einval none k hmachine hne)
  · rintro hcond a' r th k' hmachine hr
    obtain ⟨-, hrun⟩ := run_machine _ ha hmachine
    cases hfree : bit a.books.nextId 0 with
    | true =>
      rw [syscallCreate_full hfree] at hrun
      obtain ⟨hbooks, -⟩ := Prod.mk.inj (Option.some.inj hrun)
      rw [← hbooks]
      exact ⟨.refl _, rfl⟩
    | false =>
      rw [hfree] at hcond
      obtain ⟨hstack, hq⟩ := hcond.resolve_left Bool.false_ne_true
      rw [syscallCreate_success hfree hstack hq] at hrun
      obtain ⟨-, hresult⟩ := Prod.mk.inj (Option.some.inj hrun)
      exact absurd (Prod.mk.inj hresult).1.symm hr

theorem failed_create_leaks_nothing_by_default : ∃ a : Managed, a.AtRest ∧
    a.books = .initial ∧ LeaksNothing smallImage .init 0x500 0 .blank a := by
  have hnone : Books.initial.Allowed (fun _ _ => True) [] := trivial
  obtain ⟨a, ha, hbooks⟩ := reachable_of_follow hnone rfl
  refine ⟨a, ha.atRest, hbooks, ?_⟩
  refine (failed_create_leaks_nothing_iff a ha.atRest smallImage .init 0x500 0 .blank).mpr (.inr ?_)
  rw [hbooks]
  exact ⟨by decide, by decide⟩

-- the same request again and again
def createTimes (I : Image) (attr : Attr) (start arg : Huint) (k : Kernel) : ℕ → Syscall (List Hint)
  | 0 => pure []
  | n + 1 => do
    let (r, _, k) ← Bus.syscallCreate I attr start arg k
    let rs ← createTimes I attr start arg k n
    pure (r :: rs)

lemma createTimes_refused (hstack : ¬ attr.StackAccepted) (n : ℕ)
    (hn : b.nextId.toNat + n ≤ 256) : ∃ b', (createTimes I attr start arg k n).run bookAccess b =
      some (b', List.replicate n einval) ∧ b'.nextId.toNat = b.nextId.toNat + n := by
  induction n generalizing b with
  | zero => exact ⟨b, rfl, rfl⟩
  | succ n ih =>
    have hfree : bit b.nextId 0 = false := bit_nextId_false.mpr (by omega)
    have hnext : (allocated attr b).nextId.toNat = _ := nextId_allocated hfree
    obtain ⟨b', hrun, hcount⟩ := ih (b := allocated attr b) (by omega)
    refine ⟨b', ?_, by omega⟩
    simp only [createTimes, Program.run_bind, syscallCreate_refused hfree hstack, Option.bind_some,
      hrun, Program.run_pure, List.replicate_succ]

/-- A stack of the smallest size passes the functions of the attribute. Creations with it fail and
keep their ids until there are none left. -/
theorem failed_creates_exhaust_ids : ∃ a : Managed, a.Reachable (fun _ _ => True) ∧
    ¬ LeaksNothing smallImage (Attr.init.setStackSize 128).2 0x500 0 .blank a ∧
    ∃ a', (createTimes smallImage (Attr.init.setStackSize 128).2 0x500 0 .blank 256).run
      machineAccess a = some (a', List.replicate 256 einval) ∧ a.books.freeIds.length = 256 ∧
      a'.books.freeIds = [] := by
  have hnone : Books.initial.Allowed (fun _ _ => True) [] := trivial
  obtain ⟨a, ha, hbooks⟩ := reachable_of_follow hnone rfl
  have hstack : ¬ (Attr.init.setStackSize 128).2.StackAccepted := by decide
  have hzero : a.books.nextId.toNat = 0 := by rw [hbooks]; rfl
  have hfree : bit a.books.nextId 0 = false := bit_nextId_false.mpr (by omega)
  refine ⟨a, ha, fun hleaks => ?_, ?_⟩
  · have hne : einval ≠ success := by decide
    have hrun : (Bus.syscallCreate smallImage (Attr.init.setStackSize 128).2 0x500 0 .blank).run
      bookAccess a.books = _ := syscallCreate_refused hfree hstack
    obtain ⟨a', hmachine, -, hnext⟩ := run_machine_of_books _ ha.atRest hrun
    exact not_nothingLeaked _ hfree (congrArg Books.nextId hnext)
      (hleaks a' einval none _ hmachine hne)
  · obtain ⟨b, hrun, hcount⟩ : ∃ b, (createTimes smallImage (Attr.init.setStackSize 128).2 0x500 0
        .blank 256).run bookAccess a.books = some (b, List.replicate 256 einval) ∧
        b.nextId.toNat = a.books.nextId.toNat + 256 := createTimes_refused hstack 256 (by omega)
    obtain ⟨a', hmachine, -, hb⟩ := run_machine_of_books _ ha.atRest hrun
    refine ⟨a', hmachine, ?_, ?_⟩
    · rw [freeIds_length, hzero]
    · rw [freeIds_eq_nil_iff, ← Bool.not_eq_false, bit_nextId_false, hb]
      omega

end Hthreads.Software
