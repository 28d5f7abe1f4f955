import Hthreads.HwAcc.BubbleSort
import Hthreads.Library.Rearrangements

/-! What the passes of the bubble sort core leave in its memory. -/

namespace Hthreads.HwAcc.BubbleSort

open Library

variable {x y : Sorting}

def range (x : Sorting) : Set Word := {a | x.arg1 ≤ a ∧ a ≤ x.arg2}

/-- The words behind `m` are in order, and no word before one of them is larger. -/
def Settled (x : Sorting) (m : Word) : Prop :=
  ∀ a ∈ range x, ∀ b ∈ range x, a ≤ b → m < b → x.array0 a ≤ x.array0 b

/-- In the middle of a pass. From the last swap on, the words up to `i` are in order, and `data1`
holds the largest of them. -/
structure Bubbling (x : Sorting) : Prop where
  start_le : x.arg1 ≤ x.i
  le_n : x.i ≤ x.n
  n_le : x.n ≤ x.arg2
  data1 : x.data1 = x.array0 x.i
  settled : Settled x x.n
  ordered : ∀ a ∈ range x, ∀ b, a ≤ b → b ≤ x.i → (x.swapped = true → x.nNew < b) →
    x.array0 a ≤ x.array0 b
  last : x.swapped = true → x.arg1 ≤ x.nNew ∧ x.nNew < x.i

namespace Bubbling

variable (h : Bubbling x) (hi : x.i < x.n)
include h

lemma le_data1 {a : Word} (ha : a ∈ range x) (hai : a ≤ x.i) : x.array0 a ≤ x.data1 := by
  rw [h.data1]
  exact h.ordered a ha x.i hai (BitVec.le_refl _) fun hs => (h.last hs).2

include hi

lemma step (hle : x.data1 ≤ x.array0 (x.i + 1)) :
    Bubbling { x with data2 := x.array0 (x.i + 1), data1 := x.array0 (x.i + 1), i := x.i + 1 } := by
  have hnext : (x.i + 1).toNat = x.i.toNat + 1 := by bv_omega
  obtain ⟨hstart, hn, hend, -, hsettled, hordered, hlast⟩ := id h
  refine ⟨by bv_omega, by bv_omega, hend, rfl, hsettled, fun a ha b hab hb hs => ?_, fun hs => ?_⟩
  · change b ≤ x.i + 1 at hb
    by_cases hbi : b ≤ x.i
    · exact hordered a ha b hab hbi hs
    · have hb' : b = x.i + 1 := by bv_omega
      subst hb'
      by_cases hai : a ≤ x.i
      · exact BitVec.le_trans (h.le_data1 ha hai) hle
      · have ha' : a = x.i + 1 := by bv_omega
        rw [ha']
        exact BitVec.le_refl _
  · obtain ⟨hfirst, hbefore⟩ := hlast hs
    exact ⟨hfirst, by change x.nNew < x.i + 1; bv_omega⟩

/-- The larger word goes on, and everything behind it is in order again. -/
lemma swap (hgt : x.array0 (x.i + 1) < x.data1) :
    Bubbling { x with
      data2 := x.array0 (x.i + 1), array0 := exchange x.array0 x.i (x.i + 1), nNew := x.i
      swapped := true, i := x.i + 1 } := by
  have hnext : (x.i + 1).toNat = x.i.toNat + 1 := by bv_omega
  obtain ⟨hstart, hn, hend, hdata, hsettled, -, -⟩ := id h
  have hleft : exchange x.array0 x.i (x.i + 1) x.i = x.array0 (x.i + 1) := exchange_left _ _ _
  have hright : exchange x.array0 x.i (x.i + 1) (x.i + 1) = x.array0 x.i := exchange_right _ _ _
  have hother {a : Word} (ha : a ≠ x.i) (ha' : a ≠ x.i + 1) :
      exchange x.array0 x.i (x.i + 1) a = x.array0 a := exchange_of_ne ha ha'
  refine ⟨by bv_omega, by bv_omega, hend, hdata.trans hright.symm, fun a ha b hb hab hnb => ?_,
    fun a ha b hab hb hs => ?_, fun _ => ⟨hstart, by change x.i < x.i + 1; bv_omega⟩⟩
  · -- both exchanged words lie before the settled ones
    change x.n < b at hnb
    change exchange x.array0 x.i (x.i + 1) a ≤ exchange x.array0 x.i (x.i + 1) b
    have hi' : x.i ∈ range x := ⟨hstart, by bv_omega⟩
    have hj' : x.i + 1 ∈ range x := ⟨by bv_omega, by bv_omega⟩
    rw [hother (a := b) (by bv_omega) (by bv_omega)]
    by_cases hai : a = x.i
    · rw [hai, hleft]
      exact hsettled _ hj' b hb (by bv_omega) hnb
    · by_cases haj : a = x.i + 1
      · rw [haj, hright]
        exact hsettled _ hi' b hb (by bv_omega) hnb
      · rw [hother hai haj]
        exact hsettled a ha b hb hab hnb
  · change b ≤ x.i + 1 at hb
    have hib : x.i < b := hs rfl
    have hb' : b = x.i + 1 := by bv_omega
    subst hb'
    change exchange x.array0 x.i (x.i + 1) a ≤ exchange x.array0 x.i (x.i + 1) (x.i + 1)
    rw [hright]
    by_cases hai : a = x.i
    · rw [hai, hleft, ← hdata]
      exact BitVec.le_of_lt hgt
    · by_cases haj : a = x.i + 1
      · rw [haj, hright]
        exact BitVec.le_refl _
      · rw [hother hai haj, ← hdata]
        exact h.le_data1 ha (by bv_omega)

end Bubbling

structure Keeps (x y : Sorting) : Prop where
  arg1 : y.arg1 = x.arg1
  arg2 : y.arg2 = x.arg2
  rearranges : Rearranges (range x) x.array0 y.array0

namespace Keeps

variable {z : Sorting}

lemma range_eq (h : Keeps x y) : range y = range x := by
  rw [range, h.arg1, h.arg2, range]

lemma trans (h : Keeps x y) (h' : Keeps y z) : Keeps x z where
  arg1 := h'.arg1.trans h.arg1
  arg2 := h'.arg2.trans h.arg2
  rearranges := h.rearranges.trans (h.range_eq ▸ h'.rearranges)

end Keeps

lemma Bubbling.turn (h : Bubbling x) (hi : x.i < x.n) :
    Bubbling (turn x) ∧ Keeps x (turn x) ∧ (turn x).n = x.n ∧ (turn x).i = x.i + 1 := by
  rw [BubbleSort.turn]
  by_cases hle : x.data1 ≤ x.array0 (x.i + 1)
  · rw [if_pos hle]
    exact ⟨h.step hi hle, ⟨rfl, rfl, .refl _ _⟩, rfl, rfl⟩
  · have hexchange : Function.update (Function.update x.array0 x.i (x.array0 (x.i + 1))) (x.i + 1)
        x.data1 = exchange x.array0 x.i (x.i + 1) := by rw [h.data1]; rfl
    obtain ⟨hstart, hn, hend, -⟩ := id h
    rw [if_neg hle]
    dsimp only
    rw [hexchange]
    refine ⟨h.swap hi (BitVec.not_le.mp hle), ⟨rfl, rfl, .exchange ?_ ?_⟩, rfl, rfl⟩
    · exact ⟨hstart, by bv_omega⟩
    · exact ⟨by bv_omega, by bv_omega⟩

/-- What `begin_sort` finds after a pass: the place of the last swap in `n`, or everything in order.
-/
structure AfterPass (m : Word) (x : Sorting) : Prop where
  swapped : x.swapped = true → x.arg1 ≤ x.n ∧ x.n < m ∧ x.n = x.nNew ∧ Settled x x.n
  inOrder : x.swapped = false → Ascends BitVec.toNat (range x) x.array0

lemma Bubbling.pass {x : Sorting} (h : Bubbling x) :
    ∃ y, Pass x y ∧ Keeps x y ∧ AfterPass x.n y := by
  by_cases hi : x.i < x.n
  · obtain ⟨hturn, hkeeps, hn, hnext⟩ := h.turn hi
    obtain ⟨y, hpass, hrest, hafter⟩ := hturn.pass
    exact ⟨y, .turn hi hpass, hkeeps.trans hrest, hn ▸ hafter⟩
  · have hin : x.i = x.n := by
      have hle := h.le_n
      bv_omega
    refine ⟨_, .done (BitVec.not_lt.mp hi), ⟨rfl, rfl, .refl _ _⟩, ⟨fun hs => ?_, fun hs => ?_⟩⟩
    · obtain ⟨hfirst, hbefore⟩ := h.last hs
      refine ⟨hfirst, hin ▸ hbefore, rfl, fun a ha b hb hab hnb => ?_⟩
      change x.nNew < b at hnb
      by_cases hbn : b ≤ x.n
      · exact h.ordered a ha b hab (hin ▸ hbn) fun _ => hnb
      · exact h.settled a ha b hb hab (BitVec.not_le.mp hbn)
    · intro a ha b hb hab
      change x.swapped = false at hs
      by_cases hbn : b ≤ x.n
      · exact h.ordered a ha b hab (hin ▸ hbn) fun hs' => absurd hs' (by simp [hs])
      · exact h.settled a ha b hb hab (BitVec.not_le.mp hbn)
termination_by (x.n - x.i).toNat
decreasing_by
  rw [hn, hnext]
  bv_omega

/-- What `begin_sort` needs: the words behind `n` are in order. -/
structure BeforePass (x : Sorting) : Prop where
  swapped : x.swapped = true
  start_le : x.arg1 ≤ x.n
  n_le : x.n ≤ x.arg2
  nNew : x.n = x.nNew
  settled : Settled x x.n

lemma BeforePass.bubbling (h : BeforePass x) : Bubbling (beginPass x) where
  start_le := BitVec.le_refl _
  le_n := h.start_le
  n_le := h.n_le
  data1 := rfl
  settled := h.settled
  ordered := by
    intro a ha b hab hb _
    have hab' : a = b := by
      have hstart : x.arg1 ≤ a := ha.1
      change b ≤ x.arg1 at hb
      bv_omega
    rw [hab']
    exact BitVec.le_refl _
  last := by
    intro hs
    cases hs

lemma BeforePass.passes {x : Sorting} (h : BeforePass x) :
    ∃ y, Passes x y ∧ Keeps x y ∧ Ascends BitVec.toNat (range x) y.array0 := by
  obtain ⟨y, hpass, hkeeps, hafter⟩ := h.bubbling.pass
  have hkeeps' : Keeps x y := ⟨hkeeps.arg1, hkeeps.arg2, hkeeps.rearranges⟩
  cases hs : y.swapped with
  | true =>
    obtain ⟨hstart, hlt, hnNew, hsettled⟩ := hafter.swapped hs
    have hnext : BeforePass y := by
      refine ⟨hs, hstart, ?_, hnNew, hsettled⟩
      have hend : y.arg2 = x.arg2 := hkeeps.arg2
      have hn : x.n ≤ x.arg2 := h.n_le
      change y.n < x.n at hlt
      bv_omega
    obtain ⟨z, hpasses, hrest, hascends⟩ := hnext.passes
    exact ⟨z, .pass h.swapped hpass hpasses, hkeeps'.trans hrest, hkeeps'.range_eq ▸ hascends⟩
  | false =>
    have hascends : Ascends BitVec.toNat (range y) y.array0 := hafter.inOrder hs
    exact ⟨y, .pass h.swapped hpass (.done hs), hkeeps', hkeeps'.range_eq ▸ hascends⟩
termination_by x.n.toNat
decreasing_by
  change y.n < x.n at hlt
  bv_omega

def wordsBetween (a b : Word) : List Word :=
  (List.range' a.toNat (b.toNat + 1 - a.toNat)).map (BitVec.ofNat 32)

lemma mem_wordsBetween {a b i : Word} : i ∈ wordsBetween a b ↔ a ≤ i ∧ i ≤ b := by
  simp only [wordsBetween, List.mem_map, List.mem_range'_1]
  constructor
  · rintro ⟨n, hn, rfl⟩
    bv_omega
  · rintro ⟨ha, hb⟩
    exact ⟨i.toNat, by bv_omega, BitVec.ofNat_toNat 32 i⟩

lemma pairwise_wordsBetween (a b : Word) : (wordsBetween a b).Pairwise (· < ·) := by
  refine List.pairwise_map.mpr ((List.pairwise_lt_range' 1).imp_of_mem fun {m n} hm hn hmn => ?_)
  rw [List.mem_range'_1] at hm hn
  bv_omega

lemma dispatch_passes (w : Word) (x : Sorting) :
    ∃ y, Passes (dispatch w x) y ∧
      Rearranges {a | startField w ≤ a ∧ a ≤ endField w} x.array0 y.array0 ∧
      Ascends BitVec.toNat {a | startField w ≤ a ∧ a ≤ endField w} y.array0 ∧
      (endField w ≤ startField w → y.array0 = x.array0) := by
  by_cases h : startField w < endField w
  · have hbefore : BeforePass (dispatch w x) := by
      refine ⟨rfl, BitVec.le_of_lt h, BitVec.le_refl _, rfl, fun a ha b hb _ hnb => ?_⟩
      exact absurd hb.2 (BitVec.not_le.mpr hnb)
    obtain ⟨y, hpasses, hkeeps, hascends⟩ := hbefore.passes
    exact ⟨y, hpasses, hkeeps.rearranges, hascends, fun hle => absurd h (BitVec.not_lt.mpr hle)⟩
  · -- the pass ends before its first turn, and nothing has been swapped
    have hle : endField w ≤ startField w := BitVec.not_lt.mp h
    refine ⟨_, .pass rfl (.done hle) (.done rfl), .refl _ _, fun a ha b hb hab => ?_, fun _ => rfl⟩
    have hab' : a = b := by
      obtain ⟨ha, -⟩ := ha
      obtain ⟨-, hb⟩ := hb
      bv_omega
    rw [hab']

/-- The core sorts the words from the start to the end of its command and changes no other one,
answers once, and is idle again. The two forms of it leave the same memory. -/
theorem bubblesort_core_sorts {inputs inputs' : ℕ → ChanInput} (hs : Serves inputs)
    (hs' : Serves inputs') (w : Word) (x x' : Sorting) (harray : x'.array0 = x.array0) (d : Word)
    (rest sent rest' sent' : List Word) (k k' : ℕ) :
    ∃ y y', Rearranges {a | startField w ≤ a ∧ a ≤ endField w} x.array0 y.array0 ∧
      Ascends BitVec.toNat {a | startField w ≤ a ∧ a ≤ endField w} y.array0 ∧
      (endField w ≤ startField w → y.array0 = x.array0) ∧
      y'.array0 = y.array0 ∧
      (∃ n, clocked Des.trans inputs k n (Des.at .idle x ⟨w :: rest, sent⟩) =
        Des.at .idle y ⟨rest, sent ++ [0]⟩) ∧
      ∃ n d', clocked Vhdl.clock inputs' k' n (Vhdl.at .idle x' d ⟨w :: rest', sent'⟩) =
        Vhdl.at .idle y' d' ⟨rest', sent' ++ [0]⟩ := by
  obtain ⟨y, hpasses, hrearranges, hascends, hempty⟩ := dispatch_passes w x
  obtain ⟨y', hpasses', hrearranges', hascends', -⟩ := dispatch_passes w x'
  have hsame : y'.array0 = y.array0 := by
    rw [harray] at hrearranges'
    exact hrearranges'.eq_of_ascends BitVec.toNat_injective hrearranges hascends' hascends
      (l := wordsBetween (startField w) (endField w))
      ((pairwise_wordsBetween _ _).imp fun hij => BitVec.ne_of_lt hij)
      (fun i => mem_wordsBetween)
      ((pairwise_wordsBetween _ _).imp fun hij => BitVec.le_of_lt hij)
  obtain ⟨d', hvhdl⟩ : ∃ d', Leads Vhdl.clock inputs'
      (Vhdl.at .beginSort (dispatch w x') d ⟨rest', sent'⟩)
      (Vhdl.at .halt y' d' ⟨rest', sent'⟩) := Vhdl.passes hpasses' d
  refine ⟨y, y', hrearranges, hascends, hempty, hsame, ?_, ?_⟩
  · exact ((Des.fetch hs).trans ((Des.passes hpasses).trans (Des.answer hs))) k
  · obtain ⟨n, hn⟩ := ((Vhdl.fetch hs').trans (hvhdl.trans (Vhdl.answer hs'))) k'
    exact ⟨n, d', hn⟩

def threeWords : Sorting where
  swapped := false
  n := 0
  nNew := 0
  i := 0
  data1 := 0
  data2 := 0
  arg1 := 0
  arg2 := 0
  array0 := fun a => 9 - a

theorem bubblesort_core_sorts_three_words : Serves slowly ∧
    ∃ y n d', clocked Vhdl.clock slowly 0 n (Vhdl.at .idle threeWords 0 ⟨[0x10000], []⟩) =
        Vhdl.at .idle y d' ⟨[], [0]⟩ ∧
      (y.array0 0).toNat ≤ (y.array0 1).toNat ∧ (y.array0 1).toNat ≤ (y.array0 2).toNat := by
  refine ⟨serves_slowly, ?_⟩
  obtain ⟨y, y', -, hascends, -, hsame, -, n, d', hn⟩ := bubblesort_core_sorts serves_slowly
    serves_slowly 0x10000 threeWords threeWords rfl 0 [] [] [] [] 0 0
  rw [← hsame] at hascends
  exact ⟨y', n, d', hn, hascends 0 (by decide) 1 (by decide) (by decide),
    hascends 1 (by decide) 2 (by decide) (by decide)⟩

end Hthreads.HwAcc.BubbleSort
