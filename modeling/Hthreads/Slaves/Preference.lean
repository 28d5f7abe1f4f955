import Hthreads.Slaves.Matching

/-! Which free slave `find_best_match` picks, and the counters that it keeps of how well its picks
have matched. -/

namespace Hthreads.Slaves

open Software

structure MatchCounters where
  totalCalls : Huint
  perfect : Huint
  best : Huint
  better : Huint
  possible : Huint
  deriving DecidableEq

def MatchCounters.count (c : MatchCounters) : Platform.Fit → MatchCounters
  | .perfect => { c with perfect := c.perfect + 1 }
  | .best => { c with best := c.best + 1 }
  | .better => { c with better := c.better + 1 }
  | .possible => { c with possible := c.possible + 1 }

def MatchCounters.sum (c : MatchCounters) : Huint := c.perfect + c.best + c.better + c.possible

lemma MatchCounters.sum_count (c : MatchCounters) (fit : Platform.Fit) :
    (c.count fit).sum = c.sum + 1 := by
  cases fit <;> simp only [count, sum] <;> ring

namespace Platform

def Matches.chosenFit (m : Matches) : Option Fit :=
  if 0 ≤ m.bestMatch.toInt then some .best
  else if 0 ≤ m.betterMatch.toInt then some .better
  else if 0 ≤ m.possibleMatch.toInt then some .possible
  else .none

section Code

variable (P : Platform) (E : Surroundings) (funcId : Huint)

def scanCounted (m : Matches) (c : MatchCounters) (index : ℕ) : ℕ → Hint × MatchCounters
  | 0 => (m.choose, m.chosenFit.elim c c.count)
  | left + 1 =>
    match P.slaveAt funcId index with
    | .none => (enqueueThread, c)
    | some slave =>
      if E.matched index = flagHwtiFree then
        if P.hasPolyFunction funcId then
          let fit := P.fit funcId slave (E.accelerator index)
          if P.checkFirstPolymorphic then
            if fit = .perfect then (slave, c.count fit)
            else scanCounted (m.record slave fit) c (index + 1) left
          else (slave, c.count fit)
        else (slave, c)
      else scanCounted m c (index + 1) left

def findBestMatchCounted (c : MatchCounters) : Hint × MatchCounters :=
  P.scanCounted E funcId .none { c with totalCalls := c.totalCalls + 1 } 0 P.cpus

end Code

section Values

variable {P : Platform} {E : Surroundings} {funcId : Huint}

lemma scanCounted_fst (m : Matches) (c : MatchCounters) (index left : ℕ) :
    (P.scanCounted E funcId m c index left).1 = (P.scan E funcId m index left).1 := by
  induction left generalizing m index with
  | zero => rfl
  | succ left ih =>
    rw [scanCounted, scan]
    cases P.slaveAt funcId index with
    | none => rfl
    | some slave =>
      dsimp only
      by_cases hfree : E.matched index = flagHwtiFree
      · rw [if_pos hfree, if_pos hfree]
        by_cases hpoly : P.hasPolyFunction funcId = true
        · rw [if_pos hpoly, if_pos hpoly]
          by_cases hcheck : P.checkFirstPolymorphic = true
          · by_cases hfit : P.fit funcId slave (E.accelerator index) = .perfect
            · simp [hcheck, hfit]
            · simp [hcheck, hfit, ih]
          · simp [hcheck]
        · rw [if_neg hpoly, if_neg hpoly]
      · rw [if_neg hfree, if_neg hfree]
        exact ih m (index + 1)

/-- The counters do not change what the search finds. -/
lemma findBestMatchCounted_fst (c : MatchCounters) :
    (P.findBestMatchCounted E funcId c).1 = (P.findBestMatch E funcId).1 :=
  scanCounted_fst _ _ _ _

end Values

section FirstSeen

variable (P : Platform) (E : Surroundings) (funcId : Huint)

def fitAt (i : ℕ) : Fit := P.fit funcId (BitVec.ofNat 32 i) (E.accelerator i)

/-- The first free slave before `k` that fits like this. -/
def firstFit (k : ℕ) (fit : Fit) : Option ℕ :=
  (List.range k).find? fun i => E.matched i = flagHwtiFree ∧ P.fitAt E funcId i = fit

def slot (seen : Option ℕ) : Hint := seen.elim (-1) (BitVec.ofNat 32)

/-- The match variables after the first `k` rounds. -/
def recorded (k : ℕ) : Matches :=
  ⟨slot (P.firstFit E funcId k .best), slot (P.firstFit E funcId k .better),
    slot (P.firstFit E funcId k .possible)⟩

variable {P E funcId}

lemma firstFit_eq_some_iff {k p : ℕ} {fit : Fit} :
    P.firstFit E funcId k fit = some p ↔ p < k ∧ E.matched p = flagHwtiFree ∧
      P.fitAt E funcId p = fit ∧ ∀ j < p, E.matched j = flagHwtiFree →
        P.fitAt E funcId j ≠ fit := by
  simp only [firstFit, List.find?_range_eq_some, decide_eq_true_eq, List.mem_range,
    Bool.not_eq_true', decide_eq_false_iff_not, not_and]
  tauto

lemma firstFit_eq_none_iff {k : ℕ} {fit : Fit} :
    P.firstFit E funcId k fit = none ↔
      ∀ i < k, E.matched i = flagHwtiFree → P.fitAt E funcId i ≠ fit := by
  simp [firstFit]

lemma firstFit_succ (P : Platform) (E : Surroundings) (funcId : Huint) (k : ℕ) (fit : Fit) :
    P.firstFit E funcId (k + 1) fit = (P.firstFit E funcId k fit).or
      (if E.matched k = flagHwtiFree ∧ P.fitAt E funcId k = fit then some k else .none) := by
  simp [firstFit, List.range_succ]

lemma ofNat_toInt {p : ℕ} (hp : p < 2 ^ 31) : (BitVec.ofNat 32 p : Hint).toInt = p := by
  have hnat : (BitVec.ofNat 32 p : Hint).toNat = p := Nat.mod_eq_of_lt (by omega)
  rw [BitVec.toInt_eq_toNat_of_lt (by omega), hnat]

lemma slot_nonneg_iff (E : Surroundings) (funcId : Huint) {k : ℕ} (fit : Fit) (hk : k ≤ P.cpus) :
    0 ≤ (slot (P.firstFit E funcId k fit)).toInt ↔ (P.firstFit E funcId k fit).isSome := by
  have hcpus := P.cpus_lt
  cases h : P.firstFit E funcId k fit with
  | none => simp [slot]
  | some p =>
    have hp := (firstFit_eq_some_iff.mp h).1
    rw [slot, Option.elim_some, ofNat_toInt (by omega)]
    simp

lemma slot_eq_neg_one_iff {k : ℕ} {fit : Fit} (hk : k ≤ P.cpus) :
    slot (P.firstFit E funcId k fit) = -1 ↔ P.firstFit E funcId k fit = none := by
  have hsign := slot_nonneg_iff E funcId fit hk
  cases h : P.firstFit E funcId k fit with
  | none => simp [slot]
  | some p =>
    rw [h] at hsign
    refine iff_of_false (fun heq => ?_) (by simp)
    rw [heq] at hsign
    exact absurd (hsign.mpr rfl) (by decide)

lemma slot_firstFit_succ {k : ℕ} (hk : k ≤ P.cpus) (fit : Fit) :
    slot (P.firstFit E funcId (k + 1) fit) =
      if E.matched k = flagHwtiFree ∧ P.fitAt E funcId k = fit ∧
          slot (P.firstFit E funcId k fit) = -1 then BitVec.ofNat 32 k
      else slot (P.firstFit E funcId k fit) := by
  simp only [slot_eq_neg_one_iff hk, firstFit_succ]
  cases h : P.firstFit E funcId k fit with
  | none => by_cases hfit : E.matched k = flagHwtiFree ∧ P.fitAt E funcId k = fit <;>
      simp [hfit, slot]
  | some p => simp

lemma recorded_zero : P.recorded E funcId 0 = .none := rfl

lemma recorded_succ (E : Surroundings) (funcId : Huint) {k : ℕ} (hk : k ≤ P.cpus) :
    P.recorded E funcId (k + 1) =
      if E.matched k = flagHwtiFree then
        (P.recorded E funcId k).record (BitVec.ofNat 32 k) (P.fitAt E funcId k)
      else P.recorded E funcId k := by
  unfold recorded
  rw [slot_firstFit_succ hk, slot_firstFit_succ hk, slot_firstFit_succ hk]
  by_cases hfree : E.matched k = flagHwtiFree
  · cases hfit : P.fitAt E funcId k <;> simp [hfree, Matches.record]
  · simp [hfree]

lemma slaveAt_ofNat (hflag : P.opcodeFlagging = false) (index : ℕ) :
    P.slaveAt funcId index = some (BitVec.ofNat 32 index) := by
  simp [slaveAt, hflag]

lemma scanCounted_recorded (hcheck : P.checkFirstPolymorphic = true)
    (hflag : P.opcodeFlagging = false) (hpoly : P.hasPolyFunction funcId = true)
    (c : MatchCounters) (index left : ℕ) (hleft : index + left = P.cpus)
    (hnone : P.firstFit E funcId index .perfect = none) :
    P.scanCounted E funcId (P.recorded E funcId index) c index left =
      (P.firstFit E funcId P.cpus .perfect).elim
        ((P.recorded E funcId P.cpus).choose, (P.recorded E funcId P.cpus).chosenFit.elim c c.count)
        fun p => (BitVec.ofNat 32 p, c.count .perfect) := by
  induction left generalizing index with
  | zero =>
    obtain rfl : index = P.cpus := hleft
    rw [hnone]
    rfl
  | succ left ih =>
    have hround := recorded_succ E funcId (show index ≤ P.cpus by omega)
    have hseen := firstFit_succ P E funcId index .perfect
    rw [hnone, Option.none_or] at hseen
    rw [scanCounted, slaveAt_ofNat hflag]
    dsimp only
    by_cases hfree : E.matched index = flagHwtiFree
    · rw [if_pos hfree, if_pos hpoly, if_pos hcheck]
      rw [if_pos hfree] at hround
      by_cases hfit : P.fitAt E funcId index = .perfect
      · have hfirst : P.firstFit E funcId P.cpus .perfect = some index := by
          refine firstFit_eq_some_iff.mpr ⟨by omega, hfree, hfit, ?_⟩
          exact firstFit_eq_none_iff.mp hnone
        rw [hfirst, Option.elim_some, ← hfit]
        exact if_pos rfl
      · have hnone' : P.firstFit E funcId (index + 1) .perfect = none := by
          rw [hseen, if_neg (fun h => hfit h.2)]
        refine (if_neg hfit).trans ?_
        rw [← ih (index + 1) (by omega) hnone', hround]
        rfl
    · rw [if_neg hfree] at hround
      have hnone' : P.firstFit E funcId (index + 1) .perfect = none := by
        rw [hseen, if_neg (fun h => hfree h.1)]
      rw [if_neg hfree, ← ih (index + 1) (by omega) hnone', hround]

lemma choose_recorded (c : MatchCounters) :
    ((P.recorded E funcId P.cpus).choose, (P.recorded E funcId P.cpus).chosenFit.elim c c.count) =
      (P.firstFit E funcId P.cpus .best).elim
        ((P.firstFit E funcId P.cpus .better).elim
          ((P.firstFit E funcId P.cpus .possible).elim (enqueueThread, c)
            fun p => (BitVec.ofNat 32 p, c.count .possible))
          fun p => (BitVec.ofNat 32 p, c.count .better))
        fun p => (BitVec.ofNat 32 p, c.count .best) := by
  simp only [Matches.choose, Matches.chosenFit, recorded, slot_nonneg_iff _ _ _ le_rfl]
  cases P.firstFit E funcId P.cpus .best <;> cases P.firstFit E funcId P.cpus .better <;>
    cases P.firstFit E funcId P.cpus .possible <;> rfl

end FirstSeen

section Preference

/-- How early the slaves of a class are taken; no later class is taken while this one has a free
slave. -/
def Fit.rank : Fit → ℕ
  | .perfect => 0
  | .best => 1
  | .better => 2
  | .possible => 3

/-- The preference class of a slave for the threads of a profile, the best class first. -/
def preference (profile : ThreadProfile) (pr sameAccelerator : Bool) : ℕ :=
  if profile.firstAccelerator = noAcc then 0
  else if profile.preferPR then
    match pr, sameAccelerator with
    | true, true => 0
    | true, false => 1
    | false, true => 2
    | false, false => 3
  else
    match pr, sameAccelerator with
    | false, true => 0
    | true, true => 1
    | true, false => 2
    | false, false => 3

variable (P : Platform) (E : Surroundings) (funcId : Huint)

def preferenceOf (i : ℕ) : ℕ :=
  preference (P.threadProfile funcId) (P.slaveTable i).pr
    ((P.threadProfile funcId).firstAccelerator == E.accelerator i)

/-- Slave `s` is free, no free slave is of a better class, and none before it is of the same one. -/
structure PickedBest (s : ℕ) : Prop where
  lt_cpus : s < P.cpus
  free : E.matched s = flagHwtiFree
  best : ∀ i < P.cpus, E.matched i = flagHwtiFree →
    P.preferenceOf E funcId s ≤ P.preferenceOf E funcId i
  first : ∀ i < s, E.matched i = flagHwtiFree →
    P.preferenceOf E funcId s ≠ P.preferenceOf E funcId i

variable {P E funcId}

lemma hasPolyFunction_iff :
    P.hasPolyFunction funcId = true ↔ (P.threadProfile funcId).firstAccelerator ≠ noAcc := by
  simp [hasPolyFunction]

lemma preferenceOf_eq_rank (hpoly : P.hasPolyFunction funcId = true) {i : ℕ} (hi : i < P.cpus) :
    P.preferenceOf E funcId i = (P.fitAt E funcId i).rank := by
  have hcpus := P.cpus_lt
  have hi' : (BitVec.ofNat 32 i : Huint).toNat = i := Nat.mod_eq_of_lt (by omega)
  rw [hasPolyFunction_iff] at hpoly
  unfold preferenceOf preference
  rw [if_neg hpoly, fitAt, fit, hi']
  cases (P.threadProfile funcId).preferPR <;> cases (P.slaveTable i).pr <;>
    by_cases hacc : (P.threadProfile funcId).firstAccelerator = E.accelerator i <;>
      simp [hacc, beq_eq_false_iff_ne.mpr, Fit.rank]

lemma preferenceOf_eq_zero (hpoly : P.hasPolyFunction funcId ≠ true) (i : ℕ) :
    P.preferenceOf E funcId i = 0 := by
  rw [Ne, hasPolyFunction_iff, not_not] at hpoly
  unfold preferenceOf preference
  rw [if_pos hpoly]

lemma Fit.rank_injective {f g : Fit} (h : f.rank = g.rank) : f = g := by
  cases f <;> cases g <;> first | rfl | cases h

lemma pickedBest_of_firstFit (hpoly : P.hasPolyFunction funcId = true) {fit : Fit} {s : ℕ}
    (hs : P.firstFit E funcId P.cpus fit = some s)
    (hbetter : ∀ g : Fit, g.rank < fit.rank → P.firstFit E funcId P.cpus g = none) :
    P.PickedBest E funcId s := by
  obtain ⟨hlt, hfree, hfit, hfirst⟩ := firstFit_eq_some_iff.mp hs
  refine ⟨hlt, hfree, fun i hi hifree => ?_, fun i hi hifree heq => ?_⟩
  · rw [preferenceOf_eq_rank hpoly hlt, preferenceOf_eq_rank hpoly hi, hfit]
    by_contra hworse
    exact firstFit_eq_none_iff.mp (hbetter _ (not_le.mp hworse)) i hi hifree rfl
  · rw [preferenceOf_eq_rank hpoly hlt, preferenceOf_eq_rank hpoly (hi.trans hlt), hfit] at heq
    exact hfirst i hi hifree (Fit.rank_injective heq).symm

lemma exists_fit (hpoly : P.hasPolyFunction funcId = true) (hcheck : P.checkFirstPolymorphic = true)
    (hflag : P.opcodeFlagging = false) (c : MatchCounters) :
    (∃ s fit, P.PickedBest E funcId s ∧
      P.scanCounted E funcId .none c 0 P.cpus = (BitVec.ofNat 32 s, c.count fit)) ∨
    ((∀ i < P.cpus, E.matched i ≠ flagHwtiFree) ∧
      P.scanCounted E funcId .none c 0 P.cpus = (enqueueThread, c)) := by
  have hscan := scanCounted_recorded (E := E) hcheck hflag hpoly c 0 P.cpus (Nat.zero_add _) rfl
  rw [recorded_zero, choose_recorded] at hscan
  rw [hscan]
  cases hperfect : P.firstFit E funcId P.cpus .perfect with
  | some s =>
    exact .inl ⟨s, .perfect, pickedBest_of_firstFit hpoly hperfect fun g hg => absurd hg (by
      simp [Fit.rank]), rfl⟩
  | none =>
    cases hbest : P.firstFit E funcId P.cpus .best with
    | some s =>
      refine .inl ⟨s, .best, pickedBest_of_firstFit hpoly hbest fun g hg => ?_, rfl⟩
      cases g <;> first | assumption | exact absurd hg (by decide)
    | none =>
      cases hbetter : P.firstFit E funcId P.cpus .better with
      | some s =>
        refine .inl ⟨s, .better, pickedBest_of_firstFit hpoly hbetter fun g hg => ?_, rfl⟩
        cases g <;> first | assumption | exact absurd hg (by decide)
      | none =>
        cases hpossible : P.firstFit E funcId P.cpus .possible with
        | some s =>
          refine .inl ⟨s, .possible, pickedBest_of_firstFit hpoly hpossible fun g hg => ?_, rfl⟩
          cases g <;> first | assumption | exact absurd hg (by decide)
        | none =>
          refine .inr ⟨fun i hi hfree => ?_, rfl⟩
          have hseen (fit : Fit) (h : P.firstFit E funcId P.cpus fit = none) :
              P.fitAt E funcId i ≠ fit := firstFit_eq_none_iff.mp h i hi hfree
          cases hfit : P.fitAt E funcId i
          · exact hseen _ hperfect hfit
          · exact hseen _ hbest hfit
          · exact hseen _ hbetter hfit
          · exact hseen _ hpossible hfit

lemma scanCounted_first_free (hpoly : P.hasPolyFunction funcId ≠ true)
    (hflag : P.opcodeFlagging = false) (m : Matches) (c : MatchCounters) (index left : ℕ)
    (hm : m.choose = enqueueThread) :
    (∃ s, index ≤ s ∧ s < index + left ∧ E.matched s = flagHwtiFree ∧
      (∀ i, index ≤ i → i < s → E.matched i ≠ flagHwtiFree) ∧
      (P.scanCounted E funcId m c index left).1 = BitVec.ofNat 32 s) ∨
    ((∀ i, index ≤ i → i < index + left → E.matched i ≠ flagHwtiFree) ∧
      (P.scanCounted E funcId m c index left).1 = enqueueThread) := by
  induction left generalizing index with
  | zero => exact .inr ⟨fun i hi hlt => by omega, hm⟩
  | succ left ih =>
    rw [scanCounted, slaveAt_ofNat hflag]
    dsimp only
    by_cases hfree : E.matched index = flagHwtiFree
    · rw [if_pos hfree, if_neg hpoly]
      exact .inl ⟨index, le_rfl, by omega, hfree, fun i hi hlt => by omega, rfl⟩
    · have hpast {i : ℕ} (hi : index ≤ i) (hi' : i ≠ index) : index + 1 ≤ i := by omega
      rw [if_neg hfree]
      obtain ⟨s, hs, hlt, hsfree, hfirst, hfound⟩ | ⟨hnone, hfound⟩ := ih (index + 1)
      · refine .inl ⟨s, by omega, by omega, hsfree, fun i hi his => ?_, hfound⟩
        by_cases heq : i = index
        · exact heq ▸ hfree
        · exact hfirst i (hpast hi heq) his
      · refine .inr ⟨fun i hi hlt => ?_, hfound⟩
        by_cases heq : i = index
        · exact heq ▸ hfree
        · exact hnone i (hpast hi heq) (by omega)

/-- In a build that checks the first polymorphic call and does not flag opcodes, a call finds a
best free slave, the first of its class, and counts one match for a thread with an accelerator. -/
theorem find_best_match_picks_best (P : Platform) (E : Surroundings) (funcId : Huint)
    (c : MatchCounters) (hcheck : P.checkFirstPolymorphic = true)
    (hflag : P.opcodeFlagging = false) :
    ((∀ i < P.cpus, E.matched i ≠ flagHwtiFree) →
      (P.findBestMatchCounted E funcId c).1 = enqueueThread) ∧
    ((∃ i < P.cpus, E.matched i = flagHwtiFree) →
      (∃ s, (P.findBestMatchCounted E funcId c).1 = BitVec.ofNat 32 s ∧ P.PickedBest E funcId s) ∧
      ((P.threadProfile funcId).firstAccelerator ≠ noAcc →
        (P.findBestMatchCounted E funcId c).2.sum = c.sum + 1)) := by
  unfold findBestMatchCounted
  by_cases hpoly : P.hasPolyFunction funcId = true
  · obtain ⟨s, fit, hs, hfound⟩ | ⟨hnone, hfound⟩ :=
      exists_fit (E := E) hpoly hcheck hflag { c with totalCalls := c.totalCalls + 1 }
    · rw [hfound]
      refine ⟨fun hnone => absurd hs.free (hnone s hs.lt_cpus),
        fun _ => ⟨⟨s, rfl, hs⟩, fun _ => ?_⟩⟩
      exact MatchCounters.sum_count _ fit
    · rw [hfound]
      exact ⟨fun _ => rfl, fun ⟨i, hi, hfree⟩ => absurd hfree (hnone i hi)⟩
  · have hacc : ¬ (P.threadProfile funcId).firstAccelerator ≠ noAcc :=
      fun h => hpoly (hasPolyFunction_iff.mpr h)
    obtain ⟨s, -, hlt, hsfree, hfirst, hfound⟩ | ⟨hnone, hfound⟩ :=
      scanCounted_first_free (E := E) hpoly hflag .none
        { c with totalCalls := c.totalCalls + 1 } 0 P.cpus rfl
    · rw [Nat.zero_add] at hlt
      refine ⟨fun hnone => absurd hsfree (hnone s hlt), fun _ => ⟨⟨s, hfound, hlt, hsfree, ?_, ?_⟩,
        fun h => absurd h hacc⟩⟩
      · intro i _ _
        rw [preferenceOf_eq_zero hpoly, preferenceOf_eq_zero hpoly]
      · exact fun i hi hfree => absurd hfree (hfirst i (Nat.zero_le i) hi)
    · rw [Nat.zero_add] at hnone
      exact ⟨fun _ => hfound, fun ⟨i, hi, hfree⟩ => absurd hfree (hnone i (Nat.zero_le i) hi)⟩

end Preference

section TwoSlaves

def twoSlaves : Platform where
  cpus := 2
  hwtiArray _ := 0x63000000
  slaveTable i := ⟨1, i == 1⟩
  typeHost := 0
  lookupThread _ _ := 0x1000
  threadProfile _ := ⟨3, true⟩
  preferredList _ _ := notListed
  nonPreferredList _ _ := notListed
  opcodeFlagging := false
  checkFirstPolymorphic := true
  cpus_lt := by decide
  preferredList_lt _ _ := .inl rfl
  nonPreferredList_lt _ _ := .inl rfl

def bothFree : Surroundings where
  counted _ _ := flagHwtiFree
  matched _ := flagHwtiFree
  accelerator _ := noAcc
  flagged := flagHwtiFree
  created _ := success

theorem find_best_match_picks_best_of_two :
    ∃ s, (twoSlaves.findBestMatchCounted bothFree 0 ⟨0, 0, 0, 0, 0⟩).1 = BitVec.ofNat 32 s ∧
      twoSlaves.PickedBest bothFree 0 s :=
  ((find_best_match_picks_best twoSlaves bothFree 0 ⟨0, 0, 0, 0, 0⟩ rfl rfl).2
    ⟨0, by decide, rfl⟩).1

example : (twoSlaves.findBestMatchCounted bothFree 0 ⟨0, 0, 0, 0, 0⟩) = (1, ⟨1, 0, 1, 0, 0⟩) := by
  decide

end TwoSlaves

end Platform

end Hthreads.Slaves
